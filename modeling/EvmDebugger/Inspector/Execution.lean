import EvmDebugger.Inspector.Hooks
import EvmDebugger.Lib.Runs

/-!
# The executions the inspector watches

The virtual machine is not part of the repository; what the inspector relies on is the
*order* in which it calls the hooks. `EvmDebugger.Execution` is that order, written down as
a machine of its own: the state is the list of open frames, and a hook is either the next
one an execution may make, or it is not (`EvmDebugger.Execution.next`).

* A transaction opens one outermost frame, and every further frame is opened by the
  instruction its parent has just announced with `step`; the journal depth at that moment is
  the number of frames already open.
* A frame that gets an interpreter announces it once, with `initialize_interp`, before its
  first step. A frame that gets none – a precompile, an account without code, an early
  failure – goes straight to its end.
* A step belongs to the innermost open frame; its interpreter has the gas limit and the
  address the frame started with, and the journal depth is the number of open frames.
* An end hook closes the innermost frame, and is given the inputs the frame was opened with.

A list of hooks is *well nested* when this machine runs over it, and “for every well-nested
run of hooks” is “for every run of `next`”. Nothing has to be complete: a run may stop
anywhere, which is how an execution error shows.

The machine also keeps a history – the steps executed so far, each with the frames open at
that moment – which nothing here reads. It is what the snapshots are compared with.
-/

namespace EvmDebugger

/-! ### Frames -/

/-- What a frame was opened with. -/
inductive FrameInput where
  | call (inputs : CallInputs)
  | create (inputs : CreateInputs)
  deriving DecidableEq

/-- The addresses the interpreter of a frame may run as: a call says, a creation does not. -/
def FrameInput.RunsAs : FrameInput → Address → Prop
  | .call inputs, a => a = inputs.targetAddress
  | .create _, _ => True

instance : ∀ (input : FrameInput) (a : Address), Decidable (input.RunsAs a)
  | .call inputs, a => inferInstanceAs (Decidable (a = inputs.targetAddress))
  | .create _, _ => inferInstanceAs (Decidable True)

/-- What stays fixed while the interpreter of a frame runs. -/
structure Running where
  gasLimit : ℕ
  targetAddress : Address
  deriving DecidableEq

/-- What is fixed about an interpreter. -/
def Interpreter.running (interp : Interpreter) : Running where
  gasLimit := interp.gas.limit
  targetAddress := interp.targetAddress

/-- A frame instance: a number no other frame of the execution has, what it was opened
with, and what its interpreter started with, once there is one. -/
structure Frame where
  id : ℕ
  input : FrameInput
  running : Option Running
  deriving DecidableEq

/-- A step of an execution: the open frames, innermost first; the interpreter; whether the
inspector found the abort flag set; the gas limit of the interpreter created last. -/
structure ExecutedStep where
  frames : List Frame
  interp : Interpreter
  seen : Bool
  latestLimit : ℕ
  deriving DecidableEq

/-! ### The order of the hooks -/

/-- An execution in progress. `frames` lists the open frames, innermost first, and `opened`
counts all frames opened so far; `afterStep` says that the last hook announced an
instruction of the innermost frame. -/
structure Execution where
  frames : List Frame
  opened : ℕ
  afterStep : Bool
  latestLimit : ℕ
  steps : List ExecutedStep
  deriving DecidableEq

namespace Execution

/-- Before the first hook of a transaction. -/
def start : Execution where
  frames := []
  opened := 0
  afterStep := false
  latestLimit := 0
  steps := []

/-- A frame is opened: the outermost one first, any other by an instruction just announced. -/
def enter (e : Execution) (input : FrameInput) (depth : ℕ) : Option Execution :=
  if depth = e.frames.length ∧ (e.opened = 0 ∨ e.afterStep = true) then
    some { e with
      frames := { id := e.opened, input := input, running := none } :: e.frames
      opened := e.opened + 1
      afterStep := false }
  else none

/-- The innermost frame ends. -/
def leave (e : Execution) (input : FrameInput) : Option Execution :=
  match e.frames with
  | f :: fs => if f.input = input then some { e with frames := fs, afterStep := false } else none
  | [] => none

/-- The innermost frame gets its interpreter. -/
def begin (e : Execution) (interp : Interpreter) : Option Execution :=
  match e.frames with
  | f :: fs =>
    if f.running = none ∧ f.input.RunsAs interp.targetAddress then
      some { e with
        frames := { f with running := some interp.running } :: fs
        afterStep := false
        latestLimit := interp.gas.limit }
    else none
  | [] => none

/-- The step an instruction adds to the history. -/
def stepOf (e : Execution) (interp : Interpreter) (seen : Bool) : ExecutedStep where
  frames := e.frames
  interp := interp
  seen := seen
  latestLimit := e.latestLimit

/-- The innermost frame executes an instruction. -/
def advance (e : Execution) (interp : Interpreter) (depth : ℕ) (seen : Bool) :
    Option Execution :=
  match e.frames with
  | f :: _ =>
    if f.running = some interp.running ∧ depth = e.frames.length then
      some { e with afterStep := true, steps := e.steps ++ [e.stepOf interp seen] }
    else none
  | [] => none

/-- The innermost frame emits a log. -/
def emit (e : Execution) : Option Execution :=
  match e.frames with
  | f :: _ => if f.running.isSome then some { e with afterStep := false } else none
  | [] => none

/-- **The order of the hooks.** A hook comes with what reading the abort flag returned. -/
def next (e : Execution) : Hook × Bool → Option Execution
  | (.initializeInterp interp, _) => e.begin interp
  | (.step interp depth, seen) => e.advance interp depth seen
  | (.call inputs depth, _) => e.enter (.call inputs) depth
  | (.callEnd inputs _, _) => e.leave (.call inputs)
  | (.create inputs depth, _) => e.enter (.create inputs) depth
  | (.createEnd inputs _, _) => e.leave (.create inputs)
  | (.logFull _, _) => e.emit

/-- The execution after a well-nested list of hooks; `none` if the list is not well nested. -/
abbrev run (events : List (Hook × Bool)) : Option Execution := Runs.run next start events

/-- The steps the inspector records: those that did not find the abort flag set. -/
def recorded (e : Execution) : List ExecutedStep := e.steps.filter fun st => !st.seen

/-- A step found clear of the flag is recorded. -/
theorem recorded_of_clear (e : Execution) (interp : Interpreter) (b : Bool) :
    recorded { e with afterStep := b, steps := e.steps ++ [e.stepOf interp false] } =
      e.recorded ++ [e.stepOf interp false] := by
  simp [recorded, stepOf]

/-- A step that finds the flag set is not. -/
theorem recorded_of_seen (e : Execution) (interp : Interpreter) (b : Bool) :
    recorded { e with afterStep := b, steps := e.steps ++ [e.stepOf interp true] } =
      e.recorded := by
  simp [recorded, stepOf]

/-! ### What a hook does to an execution -/

variable {e e' : Execution}

theorem enter_eq_some {input : FrameInput} {depth : ℕ} (h : e.enter input depth = some e') :
    depth = e.frames.length ∧ (e.opened = 0 ∨ e.afterStep = true) ∧
      e' = { e with
        frames := { id := e.opened, input := input, running := none } :: e.frames
        opened := e.opened + 1
        afterStep := false } := by
  rw [enter] at h
  split at h
  · next hc => exact ⟨hc.1, hc.2, (Option.some.inj h).symm⟩
  · exact absurd h (by simp)

theorem leave_eq_some {input : FrameInput} (h : e.leave input = some e') :
    ∃ f fs, e.frames = f :: fs ∧ f.input = input ∧
      e' = { e with frames := fs, afterStep := false } := by
  rw [leave] at h
  split at h
  · next f fs hfs =>
    split at h
    · next hin => exact ⟨f, fs, hfs, hin, (Option.some.inj h).symm⟩
    · exact absurd h (by simp)
  · exact absurd h (by simp)

theorem begin_eq_some {interp : Interpreter} (h : e.begin interp = some e') :
    ∃ f fs, e.frames = f :: fs ∧ f.running = none ∧ f.input.RunsAs interp.targetAddress ∧
      e' = { e with
        frames := { f with running := some interp.running } :: fs
        afterStep := false
        latestLimit := interp.gas.limit } := by
  rw [begin] at h
  split at h
  · next f fs hfs =>
    split at h
    · next hc => exact ⟨f, fs, hfs, hc.1, hc.2, (Option.some.inj h).symm⟩
    · exact absurd h (by simp)
  · exact absurd h (by simp)

theorem advance_eq_some {interp : Interpreter} {depth : ℕ} {seen : Bool}
    (h : e.advance interp depth seen = some e') :
    ∃ f fs, e.frames = f :: fs ∧ f.running = some interp.running ∧ depth = e.frames.length ∧
      e' = { e with afterStep := true, steps := e.steps ++ [e.stepOf interp seen] } := by
  rw [advance] at h
  split at h
  · next f fs hfs =>
    split at h
    · next hc => exact ⟨f, fs, hfs, hc.1, hc.2, (Option.some.inj h).symm⟩
    · exact absurd h (by simp)
  · exact absurd h (by simp)

theorem emit_eq_some (h : e.emit = some e') :
    ∃ f fs, e.frames = f :: fs ∧ f.running.isSome ∧ e' = { e with afterStep := false } := by
  rw [emit] at h
  split at h
  · next f fs hfs =>
    split at h
    · next hr => exact ⟨f, fs, hfs, hr, (Option.some.inj h).symm⟩
    · exact absurd h (by simp)
  · exact absurd h (by simp)

/-- **What one hook can do.** Every invariant of executions is a case analysis on this. -/
theorem next_cases {ev : Hook × Bool} (h : e.next ev = some e') :
    (∃ input depth, e.enter input depth = some e') ∨ (∃ input, e.leave input = some e') ∨
      (∃ interp, e.begin interp = some e') ∨
      (∃ interp depth, e.advance interp depth ev.2 = some e') ∨ e.emit = some e' := by
  obtain ⟨hook, flag⟩ := ev
  cases hook with
  | call inputs depth => exact Or.inl ⟨_, depth, h⟩
  | create inputs depth => exact Or.inl ⟨_, depth, h⟩
  | callEnd inputs outcome => exact Or.inr (Or.inl ⟨_, h⟩)
  | createEnd inputs outcome => exact Or.inr (Or.inl ⟨_, h⟩)
  | initializeInterp interp => exact Or.inr (Or.inr (Or.inl ⟨interp, h⟩))
  | step interp depth => exact Or.inr (Or.inr (Or.inr (Or.inl ⟨interp, depth, h⟩)))
  | logFull log => exact Or.inr (Or.inr (Or.inr (Or.inr h)))

/-! ### What every execution keeps -/

/-- The innermost frame of a step is running the step's interpreter, at an address its
inputs allow. -/
def StepOk (st : ExecutedStep) : Prop :=
  ∃ f fs, st.frames = f :: fs ∧ f.running = some st.interp.running ∧
    f.input.RunsAs st.interp.targetAddress

/-- **The invariant of executions**: every interpreter runs at an address its frame's inputs
allow, an instruction is announced by an open frame, and the steps of the history were
executed by the innermost frame of their moment. -/
structure Ok (e : Execution) : Prop where
  runsAs : ∀ f ∈ e.frames, ∀ r, f.running = some r → f.input.RunsAs r.targetAddress
  steps : ∀ st ∈ e.steps, StepOk st

theorem ok_start : Ok start where
  runsAs f hf := by simp [start] at hf
  steps st hst := by simp [start] at hst

theorem ok_next {ev : Hook × Bool} (he : Ok e) (h : e.next ev = some e') : Ok e' := by
  rcases next_cases h with ⟨input, depth, h⟩ | ⟨input, h⟩ | ⟨interp, h⟩ | ⟨interp, depth, h⟩ | h
  · obtain ⟨-, -, rfl⟩ := enter_eq_some h
    refine ⟨?_, he.steps⟩
    intro f hf r hr
    rcases List.mem_cons.mp hf with rfl | hf
    · exact absurd hr (by simp)
    · exact he.runsAs f hf r hr
  · obtain ⟨f, fs, hfs, -, rfl⟩ := leave_eq_some h
    exact ⟨fun g hg => he.runsAs g (hfs ▸ List.mem_cons_of_mem f hg), he.steps⟩
  · obtain ⟨f, fs, hfs, -, has, rfl⟩ := begin_eq_some h
    refine ⟨?_, he.steps⟩
    intro g hg r hr
    rcases List.mem_cons.mp hg with rfl | hg
    · obtain rfl : interp.running = r := by simpa using hr
      exact has
    · exact he.runsAs g (hfs ▸ List.mem_cons_of_mem f hg) r hr
  · obtain ⟨f, fs, hfs, hrun, -, rfl⟩ := advance_eq_some h
    refine ⟨he.runsAs, ?_⟩
    intro st hst
    rcases List.mem_append.mp hst with hst | hst
    · exact he.steps st hst
    · obtain rfl := List.mem_singleton.mp hst
      exact ⟨f, fs, hfs, hrun, he.runsAs f (hfs ▸ List.mem_cons_self) interp.running hrun⟩
  · obtain ⟨f, fs, -, -, rfl⟩ := emit_eq_some h
    exact ⟨he.runsAs, he.steps⟩

/-- **Every well-nested list of hooks keeps the invariant.** -/
theorem ok_of_run {events : List (Hook × Bool)} (h : run events = some e) : Ok e :=
  Runs.run_invariant (fun _ _ _ he hs => ok_next he hs) ok_start h

/-- Every recorded step was executed by the innermost frame of its moment. -/
theorem Ok.stepOk (he : Ok e) {n : ℕ} {st : ExecutedStep} (h : e.recorded[n]? = some st) :
    StepOk st :=
  he.steps st (List.mem_of_mem_filter (List.mem_of_getElem? h))

end Execution

/-! ### A sample

Accounts `0xa` and `0xb`: the transaction calls the first, which calls the second, which
writes a slot and reverts. -/

/-- The gas of an interpreter that has executed nothing yet. -/
def Gas.new (limit : ℕ) : Gas := ⟨limit, limit, Nat.le_refl _⟩

/-- An interpreter at the given opcode, as the samples need it. -/
def sampleInterp (target : Address) (opcode : UInt8) (gas : Gas) (stack : List U256) :
    Interpreter where
  pc := 0
  opcode := opcode
  gas := gas
  stack := stack
  memory := []
  targetAddress := target

/-- A plain call of an account, with no value. -/
def sampleCall (caller target : Address) : CallInputs where
  scheme := .call
  targetAddress := target
  caller := caller
  callValue := 0

/-- The hooks up to the call of the second account. -/
def nestedCallBefore : List (Hook × Bool) :=
  [(.call (sampleCall 0x1 0xa) 0, false),
    (.initializeInterp (sampleInterp 0xa 0xf1 (.new 100) []), false),
    (.step (sampleInterp 0xa 0xf1 (.new 100) []) 1, false)]

/-- The hooks inside the call of the second account. -/
def nestedCallBody : List (Hook × Bool) :=
  [(.initializeInterp (sampleInterp 0xb 0x55 (.new 50) []), false),
    (.step (sampleInterp 0xb 0x55 (.new 50) [7, 1]) 2, false),
    (.step (sampleInterp 0xb 0xfd ⟨50, 30, by decide⟩ []) 2, false)]

/-- The whole transaction: after the revert the first account stops. -/
def nestedCall : List (Hook × Bool) :=
  nestedCallBefore ++ [(.call (sampleCall 0xa 0xb) 1, false)] ++ nestedCallBody ++
    [(.callEnd (sampleCall 0xa 0xb) .revert, false),
      (.step (sampleInterp 0xa 0x00 ⟨100, 70, by decide⟩ []) 1, false),
      (.callEnd (sampleCall 0x1 0xa) .success, false)]

/-- The execution of the sample transaction. -/
def nestedCallEnd : Execution := (Execution.run nestedCall).get (by decide)

theorem run_nestedCall : Execution.run nestedCall = some nestedCallEnd :=
  (Option.some_get _).symm

end EvmDebugger
