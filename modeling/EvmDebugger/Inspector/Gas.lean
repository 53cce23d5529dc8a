import EvmDebugger.Inspector.Frames

/-!
# The gas a step shows as used

A snapshot shows the gas its frame has left and the gas it has used. What it has used is
counted from `gas_initial`, and the inspector keeps one such number for the whole call tree:
`initialize_interp` overwrites it with the limit of the frame that begins, and nothing puts
the caller's limit back when that frame has ended.

So the two numbers of a snapshot add up to the limit of the frame – `EvmDebugger.GasFaithful`
– as long as the interpreter created last is the one that is running, or happens to have been
given the same gas. `EvmDebugger.gasFaithful_iff` is the exact condition. It fails for every
ordinary call: the steps of a caller after an inner call are counted from the limit of the
callee, and since the subtraction saturates the outcome looks like a number.
-/

namespace EvmDebugger

namespace ExecutedStep

/-- The gas limit of the frame that executes the step. -/
def frameLimit (st : ExecutedStep) : ℕ :=
  match st.frames with
  | f :: _ => (f.running.map Running.gasLimit).getD 0
  | [] => 0

/-- The number of the frame that executes the step. -/
def frameId (st : ExecutedStep) : Option ℕ := st.frames.head?.map Frame.id

/-- **The limit the inspector counts from is the right one**: that of the executing frame –
or a frame that has not used any gas yet meets a limit no greater than its own. -/
def LimitInForce (st : ExecutedStep) : Prop :=
  st.latestLimit = st.frameLimit ∨
    (st.interp.gas.remaining = st.frameLimit ∧ st.latestLimit ≤ st.frameLimit)

instance (st : ExecutedStep) : Decidable st.LimitInForce :=
  inferInstanceAs (Decidable (_ ∨ _))

/-- The frame of a step and its interpreter agree on the limit. -/
theorem frameLimit_eq {st : ExecutedStep} (h : Execution.StepOk st) :
    st.frameLimit = st.interp.gas.limit := by
  obtain ⟨f, fs, hfs, hrun, -⟩ := h
  rw [frameLimit, hfs]
  change (f.running.map Running.gasLimit).getD 0 = _
  rw [hrun]
  rfl

/-- Counting from another limit gives the right amount under exactly this condition. -/
theorem limitInForce_iff {st : ExecutedStep} (h : Execution.StepOk st) :
    st.LimitInForce ↔
      st.latestLimit - st.interp.gas.remaining = st.frameLimit - st.interp.gas.remaining := by
  have hle : st.interp.gas.remaining ≤ st.frameLimit :=
    frameLimit_eq h ▸ st.interp.gas.remaining_le
  rw [LimitInForce]
  constructor
  · rintro (heq | ⟨hrem, hlim⟩) <;> omega
  · intro heq
    rcases hle.lt_or_eq with hlt | hrem
    · exact Or.inl (by omega)
    · exact Or.inr ⟨hrem, by omega⟩

end ExecutedStep

/-- **The gas of the snapshots is right**: what is used is the limit of the executing frame
less what remains; so within one frame, used and remaining gas always add up to the same. -/
structure GasFaithful (e : Execution) (snapshots : List StepSnapshot) : Prop where
  used : ∀ (n : ℕ) (st : ExecutedStep) (snap : StepSnapshot),
    e.recorded[n]? = some st → snapshots[n]? = some snap →
    snap.gasUsed = st.frameLimit - snap.gasRemaining
  constant : ∀ (m n : ℕ) (st st' : ExecutedStep) (snap snap' : StepSnapshot),
    e.recorded[m]? = some st → snapshots[m]? = some snap →
    e.recorded[n]? = some st' → snapshots[n]? = some snap' → st.frameId = st'.frameId →
    snap.gasUsed + snap.gasRemaining = snap'.gasUsed + snap'.gasRemaining

variable {e : Execution}

/-- Two steps of one frame have one limit. -/
theorem Execution.frameLimit_eq_of_frameId_eq (hok : e.Ok) (hi : e.Ids) {st st' : ExecutedStep}
    (hst : st ∈ e.steps) (hst' : st' ∈ e.steps) (hid : st.frameId = st'.frameId) :
    st.frameLimit = st'.frameLimit := by
  obtain ⟨f, fs, hfs, -⟩ := hok.steps st hst
  obtain ⟨f', fs', hfs', -⟩ := hok.steps st' hst'
  unfold ExecutedStep.frameId at hid
  rw [hfs, hfs', List.head?_cons, List.head?_cons, Option.map_some, Option.map_some,
    Option.some.injEq] at hid
  have hff : f = f' := hi.head_eq st hst st' hst' f fs f' fs' hfs hfs' hid
  unfold ExecutedStep.frameLimit
  rw [hfs, hfs', hff]

/-- A snapshot that shows as used what is missing from the limit shows two numbers that add up
to the limit. -/
theorem ExecutedStep.gasUsed_add_gasRemaining {st : ExecutedStep} {snap : StepSnapshot}
    {before : List ExecutedStep} (h : Execution.StepOk st) (hdesc : Describes before st snap)
    (hused : snap.gasUsed = st.frameLimit - snap.gasRemaining) :
    snap.gasUsed + snap.gasRemaining = st.frameLimit := by
  have hle : snap.gasRemaining ≤ st.frameLimit := by
    rw [hdesc.gasRemaining, frameLimit_eq h]
    exact st.interp.gas.remaining_le
  rw [hused]
  exact Nat.sub_add_cancel hle

/-- **When the gas shown is right.** After any well-nested run, every snapshot shows the gas
its own frame has used if and only if the inspector, at every recorded step, was counting
from the limit of that frame. -/
theorem gasFaithful_iff (opCode : UInt8 → Option String) (maxMemoryBytes : Option String)
    {events : List (Hook × Bool)} (h : Execution.run events = some e) :
    GasFaithful e ((StepDebugInspector.new maxMemoryBytes).hooks opCode events).snapshots ↔
      ∀ st ∈ e.recorded, st.LimitInForce := by
  have htracks := tracks_of_run opCode maxMemoryBytes h
  have hok := Execution.ok_of_run h
  constructor
  · intro hgas st hst
    obtain ⟨n, snap, hn, hsnap, hdesc⟩ := htracks.exists_snapshot hst
    have hused := hgas.used n st snap hn hsnap
    rw [hdesc.gasUsed, hdesc.gasRemaining] at hused
    exact (ExecutedStep.limitInForce_iff (hok.stepOk hn)).mpr hused
  · intro hall
    have hused : ∀ (n : ℕ) (st : ExecutedStep) (snap : StepSnapshot),
        e.recorded[n]? = some st →
        ((StepDebugInspector.new maxMemoryBytes).hooks opCode events).snapshots[n]? = some snap →
        snap.gasUsed = st.frameLimit - snap.gasRemaining := by
      intro n st snap hst hsnap
      have hdesc := htracks.snapshot n st snap hst hsnap
      rw [hdesc.gasUsed, hdesc.gasRemaining]
      exact (ExecutedStep.limitInForce_iff (hok.stepOk hst)).mp
        (hall st (List.mem_of_getElem? hst))
    refine ⟨hused, ?_⟩
    intro m n st st' snap snap' hst hsnap hst' hsnap' hid
    have hsum := ExecutedStep.gasUsed_add_gasRemaining (hok.stepOk hst)
      (htracks.snapshot m st snap hst hsnap) (hused m st snap hst hsnap)
    have hsum' := ExecutedStep.gasUsed_add_gasRemaining (hok.stepOk hst')
      (htracks.snapshot n st' snap' hst' hsnap') (hused n st' snap' hst' hsnap')
    rw [hsum, hsum']
    exact e.frameLimit_eq_of_frameId_eq hok (Execution.ids_of_run h)
      (List.mem_of_mem_filter (List.mem_of_getElem? hst))
      (List.mem_of_mem_filter (List.mem_of_getElem? hst')) hid

/-- A call in which the callee is given as much gas as its caller has been. -/
def evenCall : List (Hook × Bool) :=
  nestedCallBefore ++
    [(.call (sampleCall 0xa 0xb) 1, false),
      (.initializeInterp (sampleInterp 0xb 0x55 (.new 100) [7, 1]), false),
      (.step (sampleInterp 0xb 0x55 (.new 100) [7, 1]) 2, false),
      (.step (sampleInterp 0xb 0x00 ⟨100, 60, by decide⟩ []) 2, false),
      (.callEnd (sampleCall 0xa 0xb) .success, false),
      (.step (sampleInterp 0xa 0x00 ⟨100, 50, by decide⟩ []) 1, false),
      (.callEnd (sampleCall 0x1 0xa) .success, false)]

/-- There the one number kept is the right one, for the caller and for the callee. -/
theorem gasFaithful_evenCall :
    GasFaithful ((Execution.run evenCall).get (by decide))
      ((StepDebugInspector.new none).hooks sampleOpCode evenCall).snapshots :=
  (gasFaithful_iff sampleOpCode none (Option.some_get _).symm).mpr (by decide)

/-- The first step of a caller after an inner call: counted from the callee's limit of `50`,
a frame of limit `100` with `70` left shows that it has used nothing. -/
theorem not_gasFaithful_nestedCall :
    Execution.run nestedCall = some nestedCallEnd ∧
      ¬GasFaithful nestedCallEnd
        ((StepDebugInspector.new none).hooks sampleOpCode nestedCall).snapshots := by
  refine ⟨run_nestedCall, ?_⟩
  intro h
  have hused := h.used 3 _ _ rfl rfl
  exact absurd hused (by decide)

end EvmDebugger
