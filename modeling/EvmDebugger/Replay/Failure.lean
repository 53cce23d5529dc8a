import EvmDebugger.Replay.Invariant

/-!
# What a failed replay leaves in the trace cache

Reading the state of an account over RPC may fail in the middle of an execution. Then
`inspect_one_tx` returns an error, and what the executor sends depends on whether a step has
been recorded: without one it sends the error, but with one it sends the trace as far as it
goes, with no result. To the session that is a trace like any other; it is ready, and the task
saves it. From then on the transaction has a cache file, and the failure is permanent.

`EvmDebugger.cached_complete_iff`: in the interleavings without an abort, the trace cache only
ever holds the trace of an execution that completed, exactly if the replay does not fail in
this way.
-/

namespace EvmDebugger

namespace Replay

variable {σ : Type} {R : Replay σ} {s s' : State σ} {action : ReplayAction}

/-- **The replay fails in the middle**: unaborted, its execution records a step and then
returns an error. -/
def FailsAfterSteps (R : Replay σ) : Prop :=
  ∃ evm snapshots message, R.boot = .ok evm ∧
    R.Ends evm (.new R.maxMemoryBytes) snapshots (.error message) ∧ snapshots ≠ []

/-- Nobody aborts. -/
def NoAbort (actions : List ReplayAction) : Prop := .client .abortStore ∉ actions

/-- The trace is that of the execution, which completed, and comes with its result. -/
def IsWhole (R : Replay σ) (snapshots : List StepSnapshot)
    (result : Option ExecutionResultInfo) : Prop :=
  ∃ res, R.Completes snapshots res ∧ result = some res.info

/-! ### Without a failure, every trace is whole -/

/-- **What the machine is heading for**, unless the inspector halts something, is what the
execution yields. -/
def Follows (R : Replay σ) (evm : σ) (i : StepDebugInspector) (halted : Bool) : Prop :=
  halted = false → ∀ snapshots result, R.Ends evm i snapshots result →
    ∃ evm₀, R.boot = .ok evm₀ ∧ R.Ends evm₀ (.new R.maxMemoryBytes) snapshots result

/-- **Where nothing is halted, what is sent is whole**, unless the replay fails in the middle. -/
theorem produces_isWhole (hfails : ¬R.FailsAfterSteps) :
    Produces R (Follows R) fun halted snapshots result =>
      halted = false → R.IsWhole snapshots result where
  boot evm hboot _ snapshots result hends := ⟨evm, hboot, hends⟩
  hook evm i halted hook resume seen hfollows hnext _ := by
    intro hquiet snapshots result hends
    obtain ⟨hbefore, hanswer⟩ := Bool.or_eq_false_iff.mp hquiet
    rw [StepDebugInspector.hook_eq_of_answer hanswer] at hends
    exact hfollows hbefore snapshots result (.hook hnext hends)
  done evm i halted result hfollows hnext := by
    intro snapshots r hmsg hclear
    obtain ⟨evm₀, hboot, hends⟩ := hfollows hclear _ _ (.done hnext)
    cases result with
    | ok res =>
      obtain ⟨rfl, rfl⟩ := ChannelMessage.allSnapshots.inj hmsg
      exact ⟨res, ⟨evm₀, hboot, hends⟩, rfl⟩
    | error message =>
      rw [executorMessage] at hmsg
      split at hmsg
      · exact absurd hmsg (by simp)
      · next hne =>
        -- an error after a step: just what was excluded
        refine absurd ⟨evm₀, i.snapshots, message, hboot, hends, fun hnil => ?_⟩ hfails
        exact hne (by rw [hnil]; rfl)

/-- The abort flag has not been stored, and nothing has been halted. -/
structure Calm (s : State σ) : Prop where
  abortFlag : s.world.session.abortFlag = false
  halted : s.halted = false

/-- **Only an abort disturbs the calm.** -/
theorem Calm.next (hc : Calm s) (habort : action ≠ .client .abortStore) (h : Step R s action s') :
    Calm s' := by
  have hkeep : ∀ {a : Action} {w : World}, a ≠ .abortStore → s.world.step a = some w →
      w.session.abortFlag = false := fun hne hw => (World.abortFlag_step hw hne).trans hc.abortFlag
  cases h with
  | client hcmd hw => exact ⟨hkeep (fun h => habort (congrArg _ h)) hw, hc.halted⟩
  | @hook seen evm i hook resume ht hnext hseen hhalted =>
    -- the flag is clear, and is found clear
    have hclear : seen = false := by
      cases seen with
      | true => exact absurd ((hseen rfl).symm.trans hc.abortFlag) (by simp)
      | false => rfl
    subst hclear
    refine ⟨hc.abortFlag, ?_⟩
    show (s.halted || (i.hook R.opCode false hook).2) = false
    rw [hc.halted, StepDebugInspector.answer_of_clear]
    rfl
  | spawnFailed ht hw | take ht hw | receive ht hw | publish ht hw | send ht hw | close ht hw =>
    exact ⟨hkeep (by simp) hw, hc.halted⟩
  | panic ht hnext hw => exact ⟨hkeep (by simp) hw, hc.halted⟩
  | acquire | spawn | exit | boot | done | rereadSome | rereadNone | save | release =>
    exact ⟨hc.abortFlag, hc.halted⟩

/-- **An interleaving without an abort stays calm.** -/
theorem calm_of_run {now : ℕ} {actions : List ReplayAction}
    (h : Runs.run R.step (init now) actions = some s) (habort : NoAbort actions) : Calm s := by
  refine Runs.run_induction (motive := fun actions s => NoAbort actions → Calm s)
    (fun _ => ⟨rfl, rfl⟩) (fun as a s t _ ih hs habort => ?_) h habort
  refine (ih fun hmem => habort (List.mem_append_left _ hmem)).next (fun ha => ?_) (step_cases hs)
  exact habort (List.mem_append_right _ (List.mem_singleton.mpr ha.symm))

/-! ### A failure in the middle is saved -/

/-- **The thread runs to its end**, if it is left to itself. -/
theorem exists_run_of_ends {evm : σ} {i : StepDebugInspector} {snapshots : List StepSnapshot}
    {result : Except String ExecutionResult} (h : R.Ends evm i snapshots result) (s : State σ)
    (hhalted : s.halted = false) :
    ∃ actions, NoAbort actions ∧
      Runs.run R.step { s with thread := .running evm i } actions
        = some { s with thread := .sending (executorMessage snapshots result) } := by
  induction h with
  | @done evm i result hnext =>
    refine ⟨[.evm false], by simp [NoAbort], ?_⟩
    have hstep : R.step { s with thread := .running evm i } (.evm false)
        = some { s with thread := .sending (executorMessage i.snapshots result) } := by
      simp only [step, evmStep, hnext]
    rw [Runs.run_cons, hstep]
    rfl
  | @hook evm i hook resume snapshots result hnext hrest ih =>
    obtain ⟨actions, habort, hrun⟩ := ih
    refine ⟨.evm false :: actions, ?_, ?_⟩
    · intro hmem
      rcases List.mem_cons.mp hmem with h | h
      · exact absurd h (by simp)
      · exact habort h
    · have hstep : R.step { s with thread := .running evm i } (.evm false)
          = some { s with
              thread := .running (resume (i.hook R.opCode false hook).2)
                (i.hook R.opCode false hook).1 } := by
        have hanswer : (i.hook R.opCode false hook).2 = false :=
          StepDebugInspector.answer_of_clear
        simp [step, evmStep, hnext, hhalted, hanswer]
      rw [Runs.run_cons, hstep]
      exact hrun

/-- **A replay that fails in the middle** has what it recorded saved, with no result. -/
theorem exists_run_of_failsAfterSteps (hfails : R.FailsAfterSteps) (now : ℕ) :
    ∃ actions s, Runs.run R.step (init now) actions = some s ∧ NoAbort actions ∧
      ∃ file ∈ s.saved, file.result = none := by
  obtain ⟨evm, snapshots, message, hboot, hends, hne⟩ := hfails
  obtain ⟨first, rest, rfl⟩ := List.exists_cons_of_ne_nil hne
  -- up to the machine's first state
  have hstart : Runs.run R.step (init now) [.acquire, .spawn true, .evm false]
      = some { (init now : State σ) with
          task := .taking
          thread := .running evm (.new R.maxMemoryBytes) } := by
    simp [Runs.run, step, spawnStep, evmStep, init, hboot]
  obtain ⟨actions, habort, hrun⟩ := exists_run_of_ends hends
    { (init now : State σ) with task := .taking } rfl
  -- from the message to the cache
  have hfinish : ∃ s, Runs.run R.step
      { (init now : State σ) with
        task := .taking
        thread := .sending (executorMessage (first :: rest) (.error message)) }
      [.evm false, .task, .task, .task, .task, .save true] = some s ∧
      ∃ file ∈ s.saved, file.result = none :=
    ⟨_, rfl, _, List.mem_singleton.mpr rfl, rfl⟩
  obtain ⟨s, hlast, hfile⟩ := hfinish
  refine ⟨_, s, Runs.run_trans (Runs.run_trans hstart hrun) hlast, fun hmem => ?_, hfile⟩
  rcases List.mem_append.mp hmem with h | h
  · rcases List.mem_append.mp h with h | h
    · exact absurd h (by simp)
    · exact habort h
  · exact absurd h (by simp)

end Replay

open Replay in
/-- **When the trace cache holds only complete executions.** In every interleaving without an
abort – whatever the clients do, whatever the machine does – each trace that is saved, and so
whatever a later session may be given from the cache, is that of an execution that completed,
with its result; if and only if the replay does not fail in the middle. -/
theorem cached_complete_iff {σ : Type} (R : Replay σ) (now : ℕ) :
    (∀ actions s, Runs.run R.step (init now) actions = some s → NoAbort actions →
        (∀ file ∈ s.saved, R.IsWhole file.snapshots file.result) ∧
          ∀ file, s.cache = some file → R.IsWhole file.snapshots file.result) ↔
      ¬R.FailsAfterSteps := by
  constructor
  · intro hall hfails
    obtain ⟨actions, s, hrun, habort, file, hmem, hnone⟩ :=
      exists_run_of_failsAfterSteps hfails now
    obtain ⟨res, -, hres⟩ := (hall actions s hrun habort).1 file hmem
    exact absurd (hnone.symm.trans hres) (by simp)
  · intro hfails actions s hrun habort
    have hcarries := (producing_of_run (produces_isWhole hfails) hrun).carries
    have hclear := (calm_of_run hrun habort).halted
    exact ⟨fun file hmem => hcarries.saved file hmem hclear,
      fun file hcache => hcarries.cache file hcache hclear⟩

/-- A replay of the sample transaction whose RPC endpoint fails after the second step. -/
def failingReplay : Replay (List Hook) := scriptReplay twoSteps (.error "rpc error")

/-- An interleaving of it in which nobody aborts. -/
def failingRun : List ReplayAction :=
  [.acquire, .spawn true, .task, .evm false, .evm false, .evm false, .evm false, .evm false,
    .evm false, .evm false, .task, .task, .task, .save true]

/-- Its two steps are saved as the trace of the transaction, with no result. -/
theorem saves_partial_failingReplay :
    Replay.NoAbort failingRun ∧
      ∃ s, Runs.run failingReplay.step (Replay.init 0) failingRun = some s ∧
        s.cache = some ⟨twoStepsTrace, none⟩ ∧
        ¬∀ file, s.cache = some file → failingReplay.IsWhole file.snapshots file.result := by
  refine ⟨fun hmem => absurd hmem (by decide), _, rfl, rfl, ?_⟩
  intro h
  obtain ⟨res, -, hres⟩ := h ⟨twoStepsTrace, none⟩ rfl
  exact absurd hres (by simp)

end EvmDebugger
