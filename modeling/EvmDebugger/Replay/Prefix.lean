import EvmDebugger.Replay.Traces

/-!
# What an aborted replay has recorded

An abort interferes with the machine: a halted frame looks to its caller like a call that has
returned, the caller goes on where without the abort it would have been later, and the hooks it
calls are hooks of an execution that never was. None of this is recorded. Up to the first step
that finds the flag set, the replay is the replay nobody interferes with; and from there on,
whatever the machine does and however deep the call it was halted in, no step records anything.

So what an aborted replay records is what an undisturbed one has recorded at the same point, and
a prefix of what that one records in the end (`EvmDebugger.aborted_replay_prefix`). The same holds
for the trace a session shows and for the file in the trace cache, however the thread, the task
and the clients interleave (`EvmDebugger.prefix_of_run`).
-/

namespace EvmDebugger

/-! ### Finding the flag clear, and finding it set -/

/-- **What the steps have found** when they read the flag. What the other hooks would find does not
matter: they do not read it. -/
def Found (flag : Bool) (events : List (Hook × Bool)) : Prop :=
  ∀ interp depth seen, (Hook.step interp depth, seen) ∈ events → seen = flag

section Found

variable {flag seen : Bool} {hook : Hook} {as bs : List (Hook × Bool)}

theorem found_nil (flag : Bool) : Found flag [] := fun _ _ _ h => absurd h List.not_mem_nil

/-- Hooks that all find the same. -/
theorem found_map (flag : Bool) (hooks : List Hook) :
    Found flag (hooks.map fun hook => (hook, flag)) := by
  intro interp depth seen hmem
  obtain ⟨hook, -, hhook⟩ := List.mem_map.mp hmem
  exact (congrArg Prod.snd hhook).symm

theorem Found.of_append (h : Found flag (as ++ bs)) : Found flag as :=
  fun interp depth seen hmem => h interp depth seen (List.mem_append_left _ hmem)

/-- If the last hook is a step, it has found what the others have. -/
theorem Found.last (h : Found flag (as ++ [(hook, seen)])) {interp : Interpreter} {depth : ℕ}
    (hhook : hook = .step interp depth) : seen = flag := by
  subst hhook
  exact h interp depth seen (List.mem_append_right _ (List.mem_singleton_self _))

/-- One more hook that is no step, or finds what the others have found. -/
theorem Found.snoc (h : Found flag as)
    (hlast : ∀ interp depth, hook = .step interp depth → seen = flag) :
    Found flag (as ++ [(hook, seen)]) := by
  intro interp depth seen' hmem
  rcases List.mem_append.mp hmem with hmem | hmem
  · exact h interp depth seen' hmem
  · obtain ⟨rfl, rfl⟩ := Prod.mk.inj (List.mem_singleton.mp hmem)
    exact hlast interp depth rfl

end Found

namespace StepDebugInspector

variable {opCode : UInt8 → Option String} {i : StepDebugInspector} {hook : Hook} {seen : Bool}

/-- A hook that does not find the flag set is answered as if it were clear. -/
theorem hook_eq_of_clear (h : ∀ interp depth, hook = .step interp depth → seen = false) :
    i.hook opCode seen hook = i.hook opCode false hook := by
  cases hook with
  | step interp depth => rw [h interp depth rfl]
  | _ => rfl

/-- **A hook that does not find the flag clear records nothing.** -/
theorem snapshots_hook_of_set (h : ∀ interp depth, hook = .step interp depth → seen = true) :
    (i.hook opCode seen hook).1.snapshots = i.snapshots := by
  cases hook with
  | step interp depth =>
    rw [h interp depth rfl]
    rfl
  | _ => rfl

end StepDebugInspector

/-! ### The two halves of an aborted replay -/

namespace Replay

variable {σ : Type} {R : Replay σ}

/-- **The replay nobody interferes with**: what it records, and what it returns. -/
def Undisturbed (R : Replay σ) (snapshots : List StepSnapshot)
    (result : Except String ExecutionResult) : Prop :=
  ∃ evm, R.boot = .ok evm ∧ R.Ends evm (.new R.maxMemoryBytes) snapshots result

/-- The last hook of a replay. -/
theorem Reaches.last {events : List (Hook × Bool)} {hook : Hook} {seen : Bool} {evm : σ}
    {i : StepDebugInspector} (h : R.Reaches (events ++ [(hook, seen)]) evm i) :
    ∃ evm₀ i₀ resume, R.Reaches events evm₀ i₀ ∧ R.next evm₀ = .hook hook resume ∧
      evm = resume (i₀.hook R.opCode seen hook).2 ∧ i = (i₀.hook R.opCode seen hook).1 := by
  generalize hevents : events ++ [(hook, seen)] = all at h
  cases h with
  | boot hboot => exact absurd hevents (by simp)
  | hook seen' h hnext =>
    obtain ⟨rfl, hlast⟩ := List.append_inj' hevents rfl
    obtain ⟨rfl, rfl⟩ := Prod.mk.inj (List.singleton_inj.mp hlast)
    exact ⟨_, _, _, h, hnext, rfl, rfl⟩

/-- **Up to the first step that finds the flag set, nothing has been disturbed**: the undisturbed
replay goes on from there. -/
theorem Reaches.ends {events : List (Hook × Bool)} {evm : σ} {i : StepDebugInspector}
    (h : R.Reaches events evm i) (hclear : Found false events) {snapshots : List StepSnapshot}
    {result : Except String ExecutionResult} (hu : R.Undisturbed snapshots result) :
    R.Ends evm i snapshots result := by
  induction h with
  | boot hboot =>
    obtain ⟨evm₀, hboot₀, hends⟩ := hu
    obtain rfl := Except.ok.inj (hboot₀.symm.trans hboot)
    exact hends
  | hook seen h hnext ih =>
    refine (ih hclear.of_append).of_hook hnext ?_
    rw [StepDebugInspector.hook_eq_of_clear fun interp depth => hclear.last]
    exact StepDebugInspector.answer_of_clear

/-- **From the first step that finds the flag set, nothing is recorded**: not in the frame that
was halted, and not in those that go on after it. -/
theorem Reaches.split {before after : List (Hook × Bool)} {evm : σ} {i : StepDebugInspector}
    (h : R.Reaches (before ++ after) evm i) (hset : Found true after) :
    ∃ evm₀ i₀, R.Reaches before evm₀ i₀ ∧ i.snapshots = i₀.snapshots := by
  induction after using List.reverseRecOn generalizing evm i with
  | nil => exact ⟨evm, i, List.append_nil before ▸ h, rfl⟩
  | append_singleton after e ih =>
    obtain ⟨hook, seen⟩ := e
    rw [← List.append_assoc] at h
    obtain ⟨evm₁, i₁, resume, h₁, -, -, rfl⟩ := h.last
    obtain ⟨evm₀, i₀, h₀, hsame⟩ := ih h₁ hset.of_append
    refine ⟨evm₀, i₀, h₀, ?_⟩
    rw [StepDebugInspector.snapshots_hook_of_set fun interp depth => hset.last]
    exact hsame

end Replay

/-- **An aborted replay records a prefix.** Let the steps of a replay find the flag clear up to
some point and set from there on, wherever that point is. At that point the replay was still one
that nobody interferes with, and whatever the machine has done since, what has been recorded is
what had been recorded then; so it is a prefix of what the replay records without an abort. -/
theorem aborted_replay_prefix {σ : Type} {R : Replay σ} {before after : List (Hook × Bool)}
    {evm : σ} {i : StepDebugInspector} (h : R.Reaches (before ++ after) evm i)
    (hclear : Found false before) (hset : Found true after) :
    (∃ evm₀ i₀, R.Reaches before evm₀ i₀ ∧ i.snapshots = i₀.snapshots) ∧
      ∀ snapshots result, R.Undisturbed snapshots result → i.snapshots <+: snapshots := by
  obtain ⟨evm₀, i₀, h₀, hsame⟩ := h.split hset
  refine ⟨⟨evm₀, i₀, h₀, hsame⟩, ?_⟩
  intro snapshots result hu
  rw [hsame]
  exact Replay.Ends.snapshots_prefix (h₀.ends hclear hu)

/-- The sample of two steps, with the flag set after the first. -/
theorem prefix_twoSteps :
    ∃ (evm : List Hook) (i : StepDebugInspector),
      (scriptReplay twoSteps (.ok sampleStop)).Reaches
        ((twoSteps.take 3).map (fun hook => (hook, false)) ++
          (twoSteps.drop 3).map (fun hook => (hook, true))) evm i ∧
        i.snapshots <+: twoStepsTrace := by
  let R := scriptReplay twoSteps (.ok sampleStop)
  have hboot : R.Reaches [] twoSteps (.new none) := .boot rfl
  have hreach : R.Reaches ((twoSteps.take 3).map (fun hook => (hook, false)) ++
      (twoSteps.drop 3).map (fun hook => (hook, true))) _ _ :=
    (((hboot.hook false rfl).hook false rfl).hook false rfl).hook true rfl
  have hends : R.Undisturbed twoStepsTrace (.ok sampleStop) :=
    ⟨twoSteps, rfl, ends_scriptReplay twoSteps (.ok sampleStop) twoSteps (.new none)⟩
  have hprefix := aborted_replay_prefix hreach (found_map false _) (found_map true _)
  exact ⟨_, _, hreach, hprefix.2 twoStepsTrace (.ok sampleStop) hends⟩

/-! ### In a session -/

namespace Replay

variable {σ : Type} {R : Replay σ}

/-- **What a machine has called so far**: hooks that have not found the flag set, and then, if
the inspector has halted anything, hooks that have not found it clear. -/
def Halves (R : Replay σ) (evm : σ) (i : StepDebugInspector) (halted : Bool) : Prop :=
  ∃ before after, R.Reaches (before ++ after) evm i ∧ Found false before ∧ Found true after ∧
    (halted = false → after = [])

/-- **Every machine produces prefixes** of what it records undisturbed. -/
theorem produces_beginnings (R : Replay σ) :
    Produces R (Halves R) fun _ recorded _ =>
      ∀ snapshots result, R.Undisturbed snapshots result → recorded <+: snapshots where
  boot evm hboot := ⟨[], [], .boot hboot, found_nil false, found_nil true, fun _ => rfl⟩
  hook evm i halted hook resume seen h hnext hseen := by
    obtain ⟨before, after, hreach, hclear, hset, hquiet⟩ := h
    have hreach' := hreach.hook seen hnext
    cases hbefore : halted with
    | true =>
      -- the flag has been found set before, and is found set again
      refine ⟨before, after ++ [(hook, seen)], List.append_assoc .. ▸ hreach', hclear,
        hset.snoc fun _ _ _ => hseen hbefore, fun hnot => absurd hnot (by simp)⟩
    | false =>
      obtain rfl := hquiet hbefore
      rw [List.append_nil] at hreach'
      cases hanswer : (i.hook R.opCode seen hook).2 with
      | true =>
        have hfound := (StepDebugInspector.of_answer_eq_true hanswer).1
        refine ⟨before, [(hook, seen)], hanswer ▸ hreach', hclear,
          (found_nil true).snoc fun _ _ _ => hfound, fun hnot => absurd hnot (by simp)⟩
      | false =>
        refine ⟨before ++ [(hook, seen)], [], ?_, hclear.snoc ?_, found_nil true, fun _ => rfl⟩
        · rw [List.append_nil]
          exact hanswer ▸ hreach'
        · rintro interp depth rfl
          cases seen with
          | false => rfl
          | true => exact absurd hanswer (by simp [StepDebugInspector.hook,
              StepDebugInspector.step])
  done evm i halted result h hnext := by
    obtain ⟨before, after, hreach, hclear, hset, -⟩ := h
    intro recorded r hmsg snapshots result' hu
    rw [snapshots_of_executorMessage hmsg]
    obtain ⟨evm₀, i₀, h₀, hsame⟩ := hreach.split hset
    rw [hsame]
    exact Replay.Ends.snapshots_prefix (h₀.ends hclear hu)

end Replay

/-- **In every interleaving**, with aborts at any time, the trace a session shows and the file in
the trace cache are prefixes of what the replay records undisturbed. -/
theorem prefix_of_run {σ : Type} {R : Replay σ} {now : ℕ} {actions : List ReplayAction}
    {s : Replay.State σ} (h : Runs.run R.step (Replay.init now) actions = some s)
    {snapshots : List StepSnapshot} {result : Except String ExecutionResult}
    (hu : R.Undisturbed snapshots result) :
    (∀ recorded i r, s.world.session.data = .ready recorded i r → recorded <+: snapshots) ∧
      ∀ file, s.cache = some file → file.snapshots <+: snapshots := by
  have hcarries := (Replay.producing_of_run (Replay.produces_beginnings R) h).carries
  refine ⟨fun recorded i r hdata => ?_, fun file hfile => ?_⟩
  · exact hcarries.data recorded i r hdata snapshots result hu
  · exact hcarries.cache file hfile snapshots result hu

/-! ### What a thread has recorded -/

namespace Replay

variable {σ : Type} {R : Replay σ}

/-- **A thread has recorded this**, and sent it: its machine has come to an end, and its steps have
found the flag clear up to some point and set from there on. -/
def Recorded (R : Replay σ) (snapshots : List StepSnapshot)
    (result : Option ExecutionResultInfo) : Prop :=
  ∃ before after evm i outcome, R.Reaches (before ++ after) evm i ∧ Found false before ∧
    Found true after ∧ R.next evm = .done outcome ∧
    executorMessage i.snapshots outcome = .allSnapshots snapshots result

/-- **Every trace that comes out of a thread has been recorded by it.** -/
theorem produces_recorded (R : Replay σ) : Produces R (Halves R) fun _ => R.Recorded where
  boot := (produces_beginnings R).boot
  hook := (produces_beginnings R).hook
  done evm i halted outcome h hnext := by
    obtain ⟨before, after, hreach, hclear, hset, -⟩ := h
    intro snapshots result hmsg
    exact ⟨before, after, evm, i, outcome, hreach, hclear, hset, hnext, hmsg⟩

/-- What has been recorded is the beginning of what is recorded undisturbed. -/
theorem Recorded.begins {recorded snapshots : List StepSnapshot}
    {r : Option ExecutionResultInfo} {result : Except String ExecutionResult}
    (h : R.Recorded recorded r) (hu : R.Undisturbed snapshots result) : recorded <+: snapshots := by
  obtain ⟨before, after, evm, i, outcome, hreach, hclear, hset, -, hmsg⟩ := h
  obtain ⟨evm₀, i₀, h₀, hsame⟩ := hreach.split hset
  rw [snapshots_of_executorMessage hmsg, hsame]
  exact Replay.Ends.snapshots_prefix (h₀.ends hclear hu)

end Replay

end EvmDebugger
