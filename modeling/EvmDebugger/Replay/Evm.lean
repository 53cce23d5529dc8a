import EvmDebugger.Inspector.Hooks

/-!
# The replay of a transaction

`executor.rs`: a thread that runs the virtual machine to completion and then sends everything
at once. What comes before the first hook – checking the URL, parsing the addresses, building
the environment – either fails with a message or leaves a machine ready to run; and the machine
is the one thing here that is not part of the repository. It is a parameter,
`EvmDebugger.Replay`: in each state it calls the next hook and goes on with the inspector's
answer, or it returns, or it panics. For a fixed database it is deterministic, so that a
transaction has *one* execution that nobody interferes with (`EvmDebugger.Replay.Ends`).

The rest of the file is about what the abort flag does to that execution. Until the inspector
finds it set, nothing (`EvmDebugger.StepDebugInspector.hook_eq_of_answer`); when it does, it
halts the interpreter in the place of recording a step (`EvmDebugger.Replay.Ends.lt_of_halt`),
and from then on records nothing (`EvmDebugger.StepDebugInspector.snapshots_hook_of_seen`). So
the trace of a halted execution is too short, always.
-/

namespace EvmDebugger

/-! ### What the executor sends -/

/-- The result of a transaction. The reasons are given as the machine prints them. -/
inductive ExecutionResult where
  | success (gasUsed : ℕ) (output : List UInt8) (reason : String)
  | revert (gasUsed : ℕ) (output : List UInt8)
  | halt (gasUsed : ℕ) (reason : String)
  deriving DecidableEq

/-- The result, as it is sent. -/
def ExecutionResult.info : ExecutionResult → ExecutionResultInfo
  | success gasUsed output reason =>
    { success := true
      gasUsed := gasUsed
      output := "0x" ++ hexEncode output
      reason := reason }
  | revert gasUsed output =>
    { success := false
      gasUsed := gasUsed
      output := "0x" ++ hexEncode output
      reason := "Revert" }
  | halt gasUsed reason =>
    { success := false
      gasUsed := gasUsed
      output := ""
      reason := reason }

/-- The message sent when the machine has returned: what was recorded, with the result if there
is one; and the error alone if nothing was recorded. -/
def executorMessage (snapshots : List StepSnapshot) :
    Except String ExecutionResult → ChannelMessage
  | .ok result => .allSnapshots snapshots (some result.info)
  | .error message =>
    if snapshots.isEmpty then .error message else .allSnapshots snapshots none

/-- The executor sends what was recorded. -/
theorem snapshots_of_executorMessage {recorded snapshots : List StepSnapshot}
    {result : Except String ExecutionResult} {r : Option ExecutionResultInfo}
    (h : executorMessage recorded result = .allSnapshots snapshots r) : snapshots = recorded := by
  unfold executorMessage at h
  split at h
  · exact (ChannelMessage.allSnapshots.inj h).1.symm
  · split at h
    · exact absurd h (by simp)
    · exact (ChannelMessage.allSnapshots.inj h).1.symm

/-! ### The machine -/

/-- What the machine does next. -/
inductive EvmEvent (σ : Type) where
  /-- It calls a hook, and goes on depending on whether the interpreter was halted. -/
  | hook (hook : Hook) (resume : Bool → σ)
  /-- `inspect_one_tx` returns. -/
  | done (result : Except String ExecutionResult)
  | panic

/-- **A replay**: the environment of the inspector, the machine, and its first state – or the
message of the early exit that was taken instead. -/
structure Replay (σ : Type) where
  opCode : UInt8 → Option String
  maxMemoryBytes : Option String
  next : σ → EvmEvent σ
  boot : Except String σ

variable {σ : Type} {R : Replay σ}

/-- **The execution nobody interferes with**: from a machine and an inspector, what is recorded
in the end and what `inspect_one_tx` returns, if the abort flag stays clear. -/
inductive Replay.Ends (R : Replay σ) : σ → StepDebugInspector → List StepSnapshot →
    Except String ExecutionResult → Prop where
  | done {evm : σ} {i : StepDebugInspector} {result : Except String ExecutionResult}
      (hnext : R.next evm = .done result) : Ends R evm i i.snapshots result
  | hook {evm : σ} {i : StepDebugInspector} {hook : Hook} {resume : Bool → σ}
      {snapshots : List StepSnapshot} {result : Except String ExecutionResult}
      (hnext : R.next evm = .hook hook resume)
      (hrest : Ends R (resume (i.hook R.opCode false hook).2) (i.hook R.opCode false hook).1
        snapshots result) : Ends R evm i snapshots result

/-! ### What the abort flag does -/

namespace StepDebugInspector

variable {opCode : UInt8 → Option String} {i : StepDebugInspector} {hook : Hook}

/-- The inspector does not halt an interpreter without having seen the flag. -/
theorem answer_of_clear : (i.hook opCode false hook).2 = false := by
  cases hook <;> rfl

/-- **A hook that halts nothing** is answered as if the flag were clear. -/
theorem hook_eq_of_answer {seen : Bool} (h : (i.hook opCode seen hook).2 = false) :
    i.hook opCode seen hook = i.hook opCode false hook := by
  cases hook with
  | step interp depth =>
    cases seen with
    | true => exact absurd h (by simp [StepDebugInspector.hook, step])
    | false => rfl
  | _ => rfl

/-- **A hook that halts is a step**: it has seen the flag, it leaves the inspector as it was,
and with the flag clear it would have recorded one more snapshot. -/
theorem of_answer_eq_true {seen : Bool} (h : (i.hook opCode seen hook).2 = true) :
    seen = true ∧ (i.hook opCode seen hook).1 = i ∧
      (i.hook opCode false hook).1.snapshots.length = i.snapshots.length + 1 := by
  cases hook with
  | step interp depth =>
    cases seen with
    | true =>
      refine ⟨rfl, rfl, ?_⟩
      show (i.step opCode false interp depth).1.snapshots.length = _
      rw [snapshots_step, List.length_append, List.length_singleton]
    | false => exact absurd h (by simp [StepDebugInspector.hook, step])
  | _ => exact absurd h (by simp [StepDebugInspector.hook])

/-- With the flag seen, no hook records anything. -/
theorem snapshots_hook_of_seen : (i.hook opCode true hook).1.snapshots = i.snapshots := by
  cases hook <;> rfl

/-- No hook takes anything out of the record. -/
theorem snapshots_prefix_hook (seen : Bool) :
    i.snapshots <+: (i.hook opCode seen hook).1.snapshots := by
  cases hook with
  | step interp depth =>
    cases seen with
    | true => exact List.prefix_rfl
    | false =>
      show i.snapshots <+: (i.step opCode false interp depth).1.snapshots
      rw [snapshots_step]
      exact List.prefix_append _ _
  | _ => exact List.prefix_rfl

end StepDebugInspector

namespace Replay.Ends

variable {evm : σ} {i : StepDebugInspector} {snapshots : List StepSnapshot}
  {result : Except String ExecutionResult}

/-- What was recorded at some point is part of what is recorded in the end. -/
theorem snapshots_prefix (h : R.Ends evm i snapshots result) : i.snapshots <+: snapshots := by
  induction h with
  | done hnext => exact List.prefix_rfl
  | hook hnext hrest ih => exact (StepDebugInspector.snapshots_prefix_hook false).trans ih

/-- An execution that has returned. -/
theorem of_done (h : R.Ends evm i snapshots result) {result' : Except String ExecutionResult}
    (hnext : R.next evm = .done result') : snapshots = i.snapshots ∧ result = result' := by
  cases h with
  | done hnext' =>
    exact ⟨rfl, EvmEvent.done.inj (hnext'.symm.trans hnext)⟩
  | hook hnext' hrest => exact absurd (hnext'.symm.trans hnext) (by simp)

/-- **One more hook that halts nothing** leaves the rest of the execution to be done. -/
theorem of_hook (h : R.Ends evm i snapshots result) {hook : Hook} {resume : Bool → σ}
    (hnext : R.next evm = .hook hook resume) {seen : Bool}
    (hanswer : (i.hook R.opCode seen hook).2 = false) :
    R.Ends (resume (i.hook R.opCode seen hook).2) (i.hook R.opCode seen hook).1 snapshots
      result := by
  rw [StepDebugInspector.hook_eq_of_answer hanswer]
  cases h with
  | done hnext' => exact absurd (hnext'.symm.trans hnext) (by simp)
  | hook hnext' hrest =>
    obtain ⟨rfl, rfl⟩ := EvmEvent.hook.inj (hnext'.symm.trans hnext)
    exact hrest

/-- **Where the interpreter is halted**, a step is missing. -/
theorem lt_of_halt (h : R.Ends evm i snapshots result) {hook : Hook} {resume : Bool → σ}
    (hnext : R.next evm = .hook hook resume) {seen : Bool}
    (hanswer : (i.hook R.opCode seen hook).2 = true) :
    (i.hook R.opCode seen hook).1.snapshots.length < snapshots.length := by
  obtain ⟨-, hsame, hmore⟩ := StepDebugInspector.of_answer_eq_true hanswer
  have hrest := h.of_hook hnext StepDebugInspector.answer_of_clear
  have hle := hrest.snapshots_prefix.length_le
  rw [hsame]
  omega

end Replay.Ends

/-- What an unaborted replay of the transaction yields, when its execution completes. -/
def Replay.Completes (R : Replay σ) (snapshots : List StepSnapshot) (result : ExecutionResult) :
    Prop :=
  ∃ evm, R.boot = .ok evm ∧ R.Ends evm (.new R.maxMemoryBytes) snapshots (.ok result)

/-! ### A sample -/

/-- A machine that calls a given list of hooks and then returns; halted, it returns at once. -/
def scriptReplay (hooks : List Hook) (result : Except String ExecutionResult) :
    Replay (List Hook) where
  opCode := sampleOpCode
  maxMemoryBytes := none
  next
    | [] => .done result
    | hook :: rest => .hook hook fun halted => if halted then [] else rest
  boot := .ok hooks

/-- Two steps of an account: an addition, and the end. -/
def twoSteps : List Hook :=
  [.call { scheme := .call, targetAddress := 0xa, caller := 0x1, callValue := 0 } 0,
    .initializeInterp
      { pc := 0
        opcode := 0x01
        gas := ⟨100, 100, le_rfl⟩
        stack := [2, 3]
        memory := []
        targetAddress := 0xa },
    .step
      { pc := 0
        opcode := 0x01
        gas := ⟨100, 100, le_rfl⟩
        stack := [2, 3]
        memory := []
        targetAddress := 0xa } 1,
    .step
      { pc := 1
        opcode := 0x00
        gas := ⟨100, 97, by decide⟩
        stack := [5]
        memory := []
        targetAddress := 0xa } 1]

/-- The trace of the two steps. -/
def twoStepsTrace : List StepSnapshot :=
  ((StepDebugInspector.new none).hooks sampleOpCode
    (twoSteps.map fun hook => (hook, false))).snapshots

/-- The transaction stops. -/
def sampleStop : ExecutionResult := .success 21003 [] "Stop"

/-- Uninterrupted, the script is executed to its end. -/
theorem ends_scriptReplay (hooks : List Hook) (result : Except String ExecutionResult)
    (rest : List Hook) (i : StepDebugInspector) :
    (scriptReplay hooks result).Ends rest i
      (i.hooks sampleOpCode (rest.map fun hook => (hook, false))).snapshots result := by
  induction rest generalizing i with
  | nil => exact .done rfl
  | cons hook rest ih =>
    have hnext : (scriptReplay hooks result).next (hook :: rest)
        = .hook hook fun halted => if halted then [] else rest := rfl
    refine .hook hnext ?_
    rw [StepDebugInspector.answer_of_clear]
    exact ih _

end EvmDebugger
