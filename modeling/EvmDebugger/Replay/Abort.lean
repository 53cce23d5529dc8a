import EvmDebugger.Replay.Invariant

/-!
# What an abort leaves in the trace cache

An abort is two actions, and a good deal can happen between them. With the flag stored, the
inspector halts the interpreter, the machine returns as if the transaction had stopped of its
own accord, and the thread sends a trace that is too short, with a result. If the task
publishes it, and reads the session again, before the abort gets to write `Aborted`, the short
trace is saved.

`EvmDebugger.saves_complete_iff` says that this is the only way. In any interleaving, the
trace cache is given the complete trace and nothing else if and only if, whenever the task
read the session again after the inspector had halted an interpreter, the session no longer
showed a trace.
-/

namespace EvmDebugger

namespace Replay

variable {σ : Type} {R : Replay σ} {S : List StepSnapshot} {res : ExecutionResult}
  {s s' : State σ} {action : ReplayAction}

/-- A trace of a replay that should yield `S` and `r`: complete, or – if the inspector has
halted an interpreter – too short. -/
def Fits (S : List StepSnapshot) (r : ExecutionResultInfo) (halted : Bool)
    (snapshots : List StepSnapshot) (result : Option ExecutionResultInfo) : Prop :=
  match halted with
  | true => snapshots.length < S.length
  | false => snapshots = S ∧ result = some r

/-- **What the machine of a replay is heading for** when it should yield `S` and `res`: just
that, until the inspector halts something; after that, the record is too short and stays so. -/
def Heads (R : Replay σ) (S : List StepSnapshot) (res : ExecutionResult) (evm : σ)
    (i : StepDebugInspector) (halted : Bool) : Prop :=
  match halted with
  | true => i.snapshots.length < S.length
  | false => R.Ends evm i S (.ok res)

/-- **A replay on its way produces traces that fit.** -/
theorem produces_fits (hcomplete : R.Completes S res) :
    Produces R (Heads R S res) (Fits S res.info) where
  boot evm hboot := by
    obtain ⟨evm₀, hboot₀, hends⟩ := hcomplete
    obtain rfl := Except.ok.inj (hboot₀.symm.trans hboot)
    exact hends
  hook evm i halted hook resume seen hheads hnext hseen := by
    cases halted with
    | true =>
      -- halted before: the flag is seen again, and nothing more is recorded
      obtain rfl := hseen rfl
      show (i.hook R.opCode true hook).1.snapshots.length < S.length
      rw [StepDebugInspector.snapshots_hook_of_seen]
      exact hheads
    | false =>
      rw [Bool.false_or]
      rcases Bool.eq_false_or_eq_true (i.hook R.opCode seen hook).2 with hanswer | hanswer
      · have hshort := Ends.lt_of_halt hheads hnext hanswer
        rw [hanswer]
        exact hshort
      · have hends := Ends.of_hook hheads hnext hanswer
        rw [hanswer] at hends ⊢
        exact hends
  done evm i halted result hheads hnext := by
    intro snapshots r hmsg
    cases halted with
    | true =>
      obtain rfl := snapshots_of_executorMessage hmsg
      exact hheads
    | false =>
      obtain ⟨rfl, rfl⟩ := Ends.of_done hheads hnext
      obtain ⟨rfl, rfl⟩ := ChannelMessage.allSnapshots.inj hmsg
      exact ⟨rfl, rfl⟩

/-- A state of a replay that is on its way. -/
abbrev OnItsWay (R : Replay σ) (S : List StepSnapshot) (res : ExecutionResult) (s : State σ) :
    Prop :=
  Producing (Heads R S res) (Fits S res.info) s

/-! ### When the short trace is saved -/

/-- **The abort was in time**: when the task reads the session again although the inspector has
halted an interpreter, the session shows no trace – the abort has written `Aborted`. -/
def AbortInTime (s : State σ) (action : ReplayAction) : Prop :=
  s.task = .rereading → action = .task → s.halted = true →
    ∀ snapshots i result, s.world.session.data ≠ .ready snapshots i result

/-- What is being saved, and all that has been saved, is the complete trace. -/
structure SavesComplete (S : List StepSnapshot) (r : ExecutionResultInfo) (s : State σ) :
    Prop where
  saving : ∀ snapshots result, s.task = .saving snapshots result →
    snapshots = S ∧ result = some r
  saved : ∀ file ∈ s.saved, file = ⟨S, some r⟩

/-- **Reread in time, the trace is complete**, and so is what is saved of it. -/
theorem SavesComplete.next (hc : SavesComplete S res.info s) (hh : OnItsWay R S res s)
    (htime : AbortInTime s action) (h : Step R s action s') : SavesComplete S res.info s' := by
  cases h with
  | rereadSome ht hdata =>
    obtain ⟨i, hdata⟩ := SessionData.snapshotsForCache_eq_some hdata
    have hclear : s.halted = false := by
      cases hs : s.halted with
      | true => exact absurd hdata (htime ht rfl hs _ i _)
      | false => rfl
    have hfits := hh.carries.data _ i _ hdata
    rw [hclear] at hfits
    refine ⟨?_, hc.saved⟩
    intro snapshots result h
    obtain ⟨rfl, rfl⟩ := BackgroundTask.saving.inj h
    exact hfits
  | save ht =>
    obtain ⟨rfl, rfl⟩ := hc.saving _ _ ht
    refine ⟨fun _ _ h => absurd h (by simp), ?_⟩
    intro file hfile
    rcases List.mem_append.mp hfile with hfile | hfile
    · exact hc.saved file hfile
    · exact List.mem_singleton.mp hfile
  | client | exit | boot | hook | done | panic | send | close => exact ⟨hc.saving, hc.saved⟩
  | take =>
    refine ⟨?_, hc.saved⟩
    rintro _ _ h
    split at h <;> exact absurd h (by simp)
  | acquire | spawn | spawnFailed | receive | publish | rereadNone | release =>
    exact ⟨fun _ _ h => absurd h (by simp), hc.saved⟩

/-- A trace that is too short is being saved, or has been. -/
def SavesShort (S : List StepSnapshot) (s : State σ) : Prop :=
  ∃ snapshots result, snapshots.length < S.length ∧
    (s.task = .saving snapshots result ∨ ⟨snapshots, result⟩ ∈ s.saved)

/-- What has been saved stays saved. -/
theorem SavesShort.next (hw : SavesShort S s) (h : Step R s action s') : SavesShort S s' := by
  obtain ⟨snapshots, result, hlt, hsaving | hsaved⟩ := hw
  · cases h with
    | save ht =>
      obtain ⟨rfl, rfl⟩ := BackgroundTask.saving.inj (hsaving.symm.trans ht)
      exact ⟨snapshots, result, hlt,
        Or.inr (List.mem_append_right _ (List.mem_singleton.mpr rfl))⟩
    | client | exit | boot | hook | done | panic | send | close =>
      exact ⟨snapshots, result, hlt, Or.inl hsaving⟩
    | acquire ht | spawn ht | spawnFailed ht | take ht | receive ht | publish ht
    | rereadSome ht | rereadNone ht | release ht =>
      exact absurd (hsaving.symm.trans ht) (by simp)
  · cases h with
    | save ht => exact ⟨snapshots, result, hlt, Or.inr (List.mem_append_left _ hsaved)⟩
    | _ => exact ⟨snapshots, result, hlt, Or.inr hsaved⟩

/-- **An abort that is late** has a trace saved that is too short. -/
theorem savesShort_of_late (hh : OnItsWay R S res s) (hlate : ¬AbortInTime s action)
    (h : Step R s action s') : SavesShort S s' := by
  rw [AbortInTime] at hlate
  push Not at hlate
  obtain ⟨ht, rfl, hhalted, snapshots, i, result, hdata⟩ := hlate
  have hfits := hh.carries.data snapshots i result hdata
  rw [hhalted] at hfits
  cases h with
  | rereadSome ht' hdata' =>
    rw [hdata] at hdata'
    obtain ⟨rfl, rfl⟩ := Prod.mk.inj (Option.some.inj hdata')
    exact ⟨snapshots, result, hfits, Or.inl rfl⟩
  | rereadNone ht' hdata' =>
    rw [hdata] at hdata'
    exact absurd hdata' (by simp [SessionData.snapshotsForCache])
  | take ht' | receive ht' | publish ht' => exact absurd (ht.symm.trans ht') (by simp)

/-- An interleaving in which every abort was in time, or a short trace is saved. -/
theorem along_or_savesShort (hcomplete : R.Completes S res) {now : ℕ}
    {actions : List ReplayAction} (h : Runs.run R.step (init now) actions = some s) :
    Runs.Along R.step AbortInTime (init now) actions ∨ SavesShort S s := by
  refine Runs.run_induction
    (motive := fun actions s =>
      Runs.Along R.step AbortInTime (init now) actions ∨ SavesShort S s)
    (Or.inl trivial) (fun as a s t hrun ih hs => ?_) h
  have hstep := step_cases hs
  rcases ih with hal | hshort
  · by_cases htime : AbortInTime s a
    · exact Or.inl ((Runs.along_append hrun).mpr ⟨hal, htime, fun _ _ => trivial⟩)
    · have hway := producing_of_run (produces_fits hcomplete) hrun
      exact Or.inr (savesShort_of_late hway htime hstep)
  · exact Or.inr (hshort.next hstep)

end Replay

open Replay in
/-- **When the trace cache is given the complete trace and nothing else.** Let the transaction,
unaborted, yield `S` and `res`. In an interleaving in which every abort was in time, each file
saved is the complete one; and conversely, once nothing is being saved any more. -/
theorem saves_complete_iff {σ : Type} {R : Replay σ} {S : List StepSnapshot}
    {res : ExecutionResult} (hcomplete : R.Completes S res) {now : ℕ}
    {actions : List ReplayAction} {s : State σ}
    (h : Runs.run R.step (init now) actions = some s) :
    (Runs.Along R.step AbortInTime (init now) actions →
        ∀ file ∈ s.saved, file = ⟨S, some res.info⟩) ∧
      ((∀ snapshots result, s.task ≠ .saving snapshots result) →
        (∀ file ∈ s.saved, file = ⟨S, some res.info⟩) →
          Runs.Along R.step AbortInTime (init now) actions) := by
  constructor
  · intro hal
    have hboth : OnItsWay R S res s ∧ SavesComplete S res.info s := by
      refine Runs.run_invariant_along
        (motive := fun s => OnItsWay R S res s ∧ SavesComplete S res.info s)
        (fun s a t hs htime hstep => ?_) ⟨producing_init now, ?_, ?_⟩ hal h
      · exact ⟨hs.1.next (produces_fits hcomplete) (step_cases hstep),
          hs.2.next hs.1 htime (step_cases hstep)⟩
      · exact fun _ _ h => absurd h (by simp [init])
      · exact fun _ h => absurd h (by simp [init])
    exact hboth.2.saved
  · intro hidle hsaved
    rcases along_or_savesShort hcomplete h with hal | ⟨snapshots, result, hlt, hsaving | hmem⟩
    · exact hal
    · exact absurd hsaving (hidle snapshots result)
    · obtain ⟨rfl, -⟩ := TraceCacheFile.mk.inj (hsaved _ hmem)
      exact absurd hlt (lt_irrefl _)

/-- An interleaving in which the flag is stored before the second step, and `Aborted` is written
before the task reads the session again. -/
def timelyAbort : List ReplayAction :=
  [.acquire, .spawn true, .task, .evm false, .evm false, .evm false, .evm false,
    .client .abortStore, .evm true, .evm true, .evm true, .task, .task, .client .abortWrite, .task,
    .release]

/-- A step has been halted there, and nothing has been saved: the abort was in time. -/
theorem abortInTime_timelyAbort :
    ∃ s, Runs.run (scriptReplay twoSteps (.ok sampleStop)).step (Replay.init 0) timelyAbort =
        some s ∧ s.halted = true ∧
      Runs.Along (scriptReplay twoSteps (.ok sampleStop)).step Replay.AbortInTime (Replay.init 0)
        timelyAbort := by
  have hends := ends_scriptReplay twoSteps (.ok sampleStop) twoSteps (.new none)
  have hrun : Runs.run (scriptReplay twoSteps (.ok sampleStop)).step (Replay.init 0) timelyAbort
      = some _ := rfl
  refine ⟨_, hrun, rfl, (saves_complete_iff ⟨twoSteps, rfl, hends⟩ hrun).2
    (fun snapshots result h => ?_) ?_⟩
  · exact absurd (show BackgroundTask.finished = .saving snapshots result from h) (by simp)
  · intro file hfile
    exact absurd hfile List.not_mem_nil

/-- An interleaving in which the flag is stored before the second step, and `Aborted` is
written only after the task has read the session again. -/
def lateAbort : List ReplayAction :=
  [.acquire, .spawn true, .task, .evm false, .evm false, .evm false, .evm false,
    .client .abortStore, .evm true, .evm true, .evm true, .task, .task, .task,
    .client .abortWrite, .save true, .release]

/-- The trace of one step is saved, though the transaction has two. -/
theorem saves_short_lateAbort :
    (scriptReplay twoSteps (.ok sampleStop)).Completes twoStepsTrace sampleStop ∧
      ∃ s, Runs.run (scriptReplay twoSteps (.ok sampleStop)).step (Replay.init 0) lateAbort
          = some s ∧
        s.saved = [⟨twoStepsTrace.take 1, some sampleStop.info⟩] ∧
        ¬∀ file ∈ s.saved, file = ⟨twoStepsTrace, some sampleStop.info⟩ := by
  refine ⟨⟨twoSteps, rfl, ends_scriptReplay twoSteps (.ok sampleStop) twoSteps (.new none)⟩, _, rfl,
    rfl, fun hwhole => ?_⟩
  have hsame : twoStepsTrace.take 1 = twoStepsTrace :=
    congrArg TraceCacheFile.snapshots (hwhole _ List.mem_cons_self)
  have htwo : twoStepsTrace.length = 2 := rfl
  have hone := congrArg List.length hsame
  rw [List.length_take, htwo] at hone
  exact absurd hone (by simp)

end EvmDebugger
