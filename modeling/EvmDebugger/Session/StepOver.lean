import EvmDebugger.Inspector.Frames
import EvmDebugger.Session.Data

/-!
# Stepping over a call

`step_over` compares numbers: it looks for the next snapshot whose `call_depth` is not greater
than the present one. What it is for is stated in terms of frames: it should go to the next
step of the frame it stands in, or, if that frame executes no further step, of the nearest
enclosing frame that does.

`EvmDebugger.stepOver_resumes` says that the two are the same on every trace the inspector can
record, complete or cut short. It is the meeting point of three facts: the scan stops at the
first snapshot that is no deeper (`EvmDebugger.SessionData.exists_stepOver`); a depth counts
the frames open at its step (`EvmDebugger.Describes`); and the recorded steps are a history of
call stacks (`EvmDebugger.Execution.isHistory_history`), in which the first step that is no
deeper is the one wanted (`CallStacks.isResumption_of_depth`).
-/

namespace EvmDebugger

open Execution (stackOf)

/-- The trace the inspector records of a list of hooks. -/
def traceOf (opCode : UInt8 → Option String) (maxMemoryBytes : Option String)
    (events : List (Hook × Bool)) : List StepSnapshot :=
  ((StepDebugInspector.new maxMemoryBytes).hooks opCode events).snapshots

/-- The call stack of a recorded step, by its position. -/
theorem history_getElem? {e : Execution} {k : ℕ} {u : List ℕ} (hu : e.history[k]? = some u) :
    ∃ st, e.recorded[k]? = some st ∧ stackOf st.frames = u := by
  rw [Execution.history] at hu
  rw [List.getElem?_map, Option.map_eq_some_iff] at hu
  exact hu

/-- The depth a snapshot shows is the height of the call stack at its step. -/
theorem Tracks.callDepth_eq {e : Execution} {i : StepDebugInspector} (h : Tracks e i) {k : ℕ}
    {u : List ℕ} (hu : e.history[k]? = some u) :
    ∃ snap, i.snapshots[k]? = some snap ∧ snap.callDepth = u.length := by
  obtain ⟨st, hst, rfl⟩ := history_getElem? hu
  have hlt : k < i.snapshots.length := h.length.symm ▸ (List.getElem?_eq_some_iff.mp hst).1
  have hsnap := List.getElem?_eq_getElem hlt
  refine ⟨_, hsnap, ?_⟩
  rw [(h.snapshot k st _ hst hsnap).callDepth, List.length_map]

/-- **Stepping over goes where execution resumes.** On the trace of any well-nested run, and
from any of its steps, `step_over` moves the session to the next step of the same frame; if
that frame has none, to the next step of the nearest enclosing frame that has one; and to the
end if no frame of the call stack has one. It does not stop in a frame opened later, and it
passes over no step of the present frame. -/
theorem stepOver_resumes (opCode : UInt8 → Option String) (maxMemoryBytes : Option String)
    {events : List (Hook × Bool)} {e : Execution} (h : Execution.run events = some e)
    (hlatched : e.Latched) {i : ℕ} {st : ExecutedStep} (hi : e.recorded[i]? = some st)
    (result : Option ExecutionResultInfo) :
    ∃ j, SessionData.stepOver (.ready (traceOf opCode maxMemoryBytes events) i result)
        = (.ready (traceOf opCode maxMemoryBytes events) j result,
          SessionData.stateAt (traceOf opCode maxMemoryBytes events) j result) ∧
      CallStacks.IsResumption e.history i (stackOf st.frames) j ∧
      (j < (traceOf opCode maxMemoryBytes events).length →
        ∃ f ∈ st.frames, CallStacks.IsStepOf e.history f.id j) ∧
      ∀ f fs k, st.frames = f :: fs → i < k → k < j → ¬CallStacks.IsStepOf e.history f.id k := by
  have htracks := tracks_of_run opCode maxMemoryBytes h
  have hhistory := Execution.isHistory_history h hlatched
  have hlen : (traceOf opCode maxMemoryBytes events).length = e.history.length :=
    htracks.length.trans (List.length_map _).symm
  have hstack : e.history[i]? = some (stackOf st.frames) := by
    rw [Execution.history, List.getElem?_map, hi, Option.map_some]
  obtain ⟨snap, hsnap, hdepth⟩ := htracks.callDepth_eq hstack
  obtain ⟨j, hj, hij, hle, hdeep, hstop⟩ := SessionData.exists_stepOver hsnap result
  have hresume : CallStacks.IsResumption e.history i (stackOf st.frames) j := by
    refine CallStacks.isResumption_of_depth hhistory hstack hij (fun k u hik hkj hu => ?_)
      (fun u hu => ?_) (hlen ▸ hle)
    · -- in between, every step is deeper
      obtain ⟨snap', hsnap', hdepth'⟩ := htracks.callDepth_eq hu
      rw [← hdepth, ← hdepth']
      exact hdeep k snap' hik hkj hsnap'
    · -- where the scan stops, some frame is open, and the stack is no higher
      obtain ⟨snap', hsnap', hdepth'⟩ := htracks.callDepth_eq hu
      obtain ⟨st', hst', rfl⟩ := history_getElem? hu
      obtain ⟨f, fs, hfs, -⟩ := (Execution.ok_of_run h).stepOk hst'
      refine ⟨by rw [hfs]; exact List.cons_ne_nil _ _, ?_⟩
      rw [← hdepth, ← hdepth']
      exact hstop snap' hsnap'
  refine ⟨j, hj, hresume, ?_, ?_⟩
  · intro hlt
    obtain ⟨n, hn, hstep⟩ := hresume.owner (hlen ▸ hlt)
    obtain ⟨f, hf, rfl⟩ := List.mem_map.mp hn
    exact ⟨f, hf, hstep⟩
  · intro f fs k hfs hik hkj
    rw [hfs] at hresume
    exact hresume.skips_none hik hkj

/-- From the call of the sample, stepping over lands on the caller's next step, the fourth. -/
theorem stepOver_nestedCall :
    (SessionData.stepOver (.ready (traceOf sampleOpCode none nestedCall) 0 none)).1
        = .ready (traceOf sampleOpCode none nestedCall) 3 none ∧
      CallStacks.IsResumption nestedCallEnd.history 0 [0] 3 := by
  have hfirst : nestedCallEnd.recorded[0]? = some (nestedCallEnd.recorded.get ⟨0, by decide⟩) := rfl
  obtain ⟨j, hj, hresume, -⟩ :=
    stepOver_resumes sampleOpCode none run_nestedCall (by decide) hfirst none
  have hthree : (SessionData.stepOver (.ready (traceOf sampleOpCode none nestedCall) 0 none)).1
      = .ready (traceOf sampleOpCode none nestedCall) 3 none := rfl
  obtain rfl : j = 3 := (SessionData.ready.inj ((congrArg Prod.fst hj).symm.trans hthree)).2.1
  exact ⟨hthree, hresume⟩

end EvmDebugger
