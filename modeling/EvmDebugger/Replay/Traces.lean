import EvmDebugger.Replay.Invariant
import EvmDebugger.Session.StepOver

/-!
# The traces sessions are given

What the inspector makes of an execution is a matter of lists of hooks, and what becomes of a
trace afterwards a matter of interleavings. Here the two meet. Take a machine that calls its
hooks in the order an execution has them (`EvmDebugger.Replay.WellNested`). However the thread,
the task and the clients interleave – and whenever the inspector finds the abort flag set – a
session that is ready shows a trace the inspector recorded of a well-nested list of hooks, in
which the flag, once found set, was never found clear again; and so does the file in the trace
cache (`EvmDebugger.isTrace_of_ready`).

With that, what is true of every such trace is true of every session: a snapshot shows the
frames open at its step, and `step_over` goes where the frame resumes
(`EvmDebugger.stepOver_resumes_of_ready`).
-/

namespace EvmDebugger

/-! ### The flag in an execution -/

namespace Execution

variable {e e' : Execution}

/-- A hook adds the step it announces to the history, and nothing else does. -/
theorem steps_next {hook : Hook} {seen : Bool} (h : e.next (hook, seen) = some e') :
    e'.steps = e.steps ∨ ∃ interp depth, hook = .step interp depth ∧
      e'.steps = e.steps ++ [e.stepOf interp seen] := by
  cases hook with
  | step interp depth =>
    obtain ⟨-, -, -, -, -, rfl⟩ := advance_eq_some h
    exact Or.inr ⟨interp, depth, rfl, rfl⟩
  | call | create =>
    obtain ⟨-, -, rfl⟩ := enter_eq_some h
    exact Or.inl rfl
  | callEnd | createEnd =>
    obtain ⟨-, -, -, -, rfl⟩ := leave_eq_some h
    exact Or.inl rfl
  | initializeInterp =>
    obtain ⟨-, -, -, -, -, rfl⟩ := begin_eq_some h
    exact Or.inl rfl
  | logFull =>
    obtain ⟨-, -, -, -, rfl⟩ := emit_eq_some h
    exact Or.inl rfl

/-- A flag that is found clear only while it has never been found set is latched. -/
theorem Latched.next {hook : Hook} {seen : Bool} (hl : e.Latched)
    (h : e.next (hook, seen) = some e') (hclear : seen = false → e.Clean) : e'.Latched := by
  rcases steps_next h with hsteps | ⟨interp, depth, -, hsteps⟩
  · unfold Latched
    rw [hsteps]
    exact hl
  · unfold Latched
    rw [hsteps]
    refine List.pairwise_append.mpr
      ⟨hl, List.pairwise_singleton _ _, fun st hst st' hst' hset => ?_⟩
    obtain rfl := List.mem_singleton.mp hst'
    cases seen with
    | true => rfl
    | false => exact absurd (hset.symm.trans (hclear rfl st hst)) (by simp)

/-- A step that does not find the flag set leaves the execution clean. -/
theorem Clean.next {hook : Hook} {seen : Bool} (hc : e.Clean)
    (h : e.next (hook, seen) = some e')
    (hstep : ∀ interp depth, hook = .step interp depth → seen = false) : e'.Clean := by
  rw [Clean]
  rcases steps_next h with hsteps | ⟨interp, depth, hhook, hsteps⟩
  · rw [hsteps]
    exact hc
  · rw [hsteps]
    intro st hst
    rcases List.mem_append.mp hst with hst | hst
    · exact hc st hst
    · obtain rfl := List.mem_singleton.mp hst
      exact hstep interp depth hhook

end Execution

/-! ### The hooks a machine calls -/

namespace Replay

variable {σ : Type} {R : Replay σ}

/-- **Where a machine and an inspector may get**: after a list of hooks the machine has called,
each with what reading the flag returned. -/
inductive Reaches (R : Replay σ) : List (Hook × Bool) → σ → StepDebugInspector → Prop where
  | boot {evm : σ} (hboot : R.boot = .ok evm) : Reaches R [] evm (.new R.maxMemoryBytes)
  | hook {events : List (Hook × Bool)} {evm : σ} {i : StepDebugInspector} {hook : Hook}
      {resume : Bool → σ} (seen : Bool) (h : Reaches R events evm i)
      (hnext : R.next evm = .hook hook resume) :
      Reaches R (events ++ [(hook, seen)]) (resume (i.hook R.opCode seen hook).2)
        (i.hook R.opCode seen hook).1

/-- **The machine calls its hooks as an execution has them**, whenever it is halted. -/
def WellNested (R : Replay σ) : Prop :=
  ∀ events evm i, R.Reaches events evm i → ∃ e, Execution.run events = some e

/-- The inspector has been given just these hooks. -/
theorem Reaches.inspector_eq {events : List (Hook × Bool)} {evm : σ} {i : StepDebugInspector}
    (h : R.Reaches events evm i) :
    i = (StepDebugInspector.new R.maxMemoryBytes).hooks R.opCode events := by
  induction h with
  | boot hboot => rfl
  | hook seen h hnext ih =>
    rw [StepDebugInspector.hooks_append, ← ih]
    rfl

/-- The snapshots are a trace of the transaction: recorded of a well-nested list of hooks, in
which the flag stayed set once it was found set. -/
def IsTrace (R : Replay σ) (snapshots : List StepSnapshot)
    (_result : Option ExecutionResultInfo) : Prop :=
  ∃ events e, Execution.run events = some e ∧ e.Latched ∧
    snapshots = traceOf R.opCode R.maxMemoryBytes events

/-- **What a machine has called so far** makes up an execution, in which the flag stays set
once it is found set, and is never found set as long as nothing is halted. -/
def Calls (R : Replay σ) (evm : σ) (i : StepDebugInspector) (halted : Bool) : Prop :=
  ∃ events e, R.Reaches events evm i ∧ Execution.run events = some e ∧ e.Latched ∧
    (halted = false → e.Clean)

/-- **A machine that is well nested produces traces.** -/
theorem produces_isTrace (hnested : R.WellNested) : Produces R (Calls R) fun _ => R.IsTrace where
  boot evm hboot :=
    ⟨[], .start, .boot hboot, rfl, List.Pairwise.nil, fun _ st hst => absurd hst List.not_mem_nil⟩
  hook evm i halted hook resume seen hcalls hnext hseen := by
    obtain ⟨events, e, hreach, hrun, hlatched, hclean⟩ := hcalls
    have hreach' := hreach.hook seen hnext
    obtain ⟨e', hrun'⟩ := hnested _ _ _ hreach'
    obtain ⟨t, ht, hnext'⟩ := Runs.run_snoc_eq_some.mp hrun'
    obtain rfl : t = e := Option.some.inj (ht.symm.trans hrun)
    refine ⟨_, e', hreach', hrun', hlatched.next hnext' fun hfound => hclean ?_, fun hquiet => ?_⟩
    · -- the flag is found clear, so nothing has been halted
      cases halted with
      | true => exact absurd ((hseen rfl).symm.trans hfound) (by simp)
      | false => rfl
    · obtain ⟨hbefore, hanswer⟩ := Bool.or_eq_false_iff.mp hquiet
      refine (hclean hbefore).next hnext' fun interp depth hhook => ?_
      subst hhook
      cases seen with
      | true => exact absurd hanswer (by simp [StepDebugInspector.hook, StepDebugInspector.step])
      | false => rfl
  done evm i halted result hcalls hnext := by
    intro snapshots r hmsg
    obtain ⟨events, e, hreach, hrun, hlatched, -⟩ := hcalls
    refine ⟨events, e, hrun, hlatched, ?_⟩
    rw [snapshots_of_executorMessage hmsg, hreach.inspector_eq]
    rfl

end Replay

/-! ### What a session shows -/

section Sessions

variable {σ : Type} {R : Replay σ} {now : ℕ} {actions : List ReplayAction} {s : Replay.State σ}
  (hnested : R.WellNested) (h : Runs.run R.step (Replay.init now) actions = some s)

include hnested h

/-- **A session that is ready shows a trace**, and so does the file in the trace cache. -/
theorem isTrace_of_ready :
    (∀ snapshots i result, s.world.session.data = .ready snapshots i result →
        R.IsTrace snapshots result) ∧
      ∀ file, s.cache = some file → R.IsTrace file.snapshots file.result :=
  have hcarries := (Replay.producing_of_run (Replay.produces_isTrace hnested) h).carries
  ⟨hcarries.data, hcarries.cache⟩

/-- **Stepping over, in a session**: in every interleaving, from any snapshot of a session that
is ready, `step_over` goes to the next step of the frame shown, or of the nearest enclosing
frame that has one, or to the end. -/
theorem stepOver_resumes_of_ready {snapshots : List StepSnapshot} {i : ℕ}
    {result : Option ExecutionResultInfo} (hdata : s.world.session.data = .ready snapshots i result)
    (hi : i < snapshots.length) :
    ∃ (e : Execution) (j : ℕ) (st : ExecutedStep),
      List.Forall₂ ShowsFrames e.recorded snapshots ∧ e.recorded[i]? = some st ∧
      s.world.session.data.stepOver
        = (.ready snapshots j result, SessionData.stateAt snapshots j result) ∧
      CallStacks.IsResumption e.history i (Execution.stackOf st.frames) j := by
  obtain ⟨events, e, hrun, hlatched, rfl⟩ :=
    (isTrace_of_ready hnested h).1 snapshots i result hdata
  have hshows := (callStack_shows_openFrames R.opCode R.maxMemoryBytes hrun).1
  have hlt : i < e.recorded.length := hshows.length_eq.symm ▸ hi
  have hst := List.getElem?_eq_getElem hlt
  obtain ⟨j, hj, hresume, -⟩ :=
    stepOver_resumes R.opCode R.maxMemoryBytes hrun hlatched hst result
  rw [hdata]
  exact ⟨e, j, _, hshows, hst, hj, hresume⟩

end Sessions

end EvmDebugger
