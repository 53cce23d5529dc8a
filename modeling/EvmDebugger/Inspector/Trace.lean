import EvmDebugger.Inspector.Execution

/-!
# What a trace shows of an execution

The inspector rebuilds the frames of an execution from the hooks, and copies what it has
rebuilt into every snapshot. Here the two are put side by side: `EvmDebugger.Tracks` relates
the state of the inspector to the execution that drove it, and `EvmDebugger.Describes` says,
for one recorded step, what its snapshot shows. They hold after *every* well-nested list of
hooks (`EvmDebugger.tracks_of_run`), whatever was read from the abort flag on the way.

The relation says what the code does, and not what one would like it to do. The frames,
their depths and the order of the steps come out right. The contract a frame is shown under
is `EvmDebugger.Frame.contract`, which for a creation is the zero address; the gas used is
counted from the limit of the interpreter created last; and the storage writes are all those
announced so far, whatever became of them. Which of these is what it should be, and when, is
the subject of the modules that build on this one.
-/

namespace EvmDebugger

/-! ### The call stack a snapshot shows -/

/-- The contract a frame is shown under. -/
def Frame.contract (f : Frame) : String :=
  match f.input with
  | .call inputs => hexAddress inputs.targetAddress
  | .create _ => hexAddress 0

/-- A frame, as an entry of the call stack at the given depth. -/
def Frame.entry (f : Frame) (depth : ℕ) : CallFrame :=
  match f.input with
  | .call inputs =>
    { depth := depth
      contract := f.contract
      caller := hexAddress inputs.caller
      value := hexValue inputs.callValue
      kind := inputs.scheme.kind }
  | .create inputs =>
    { depth := depth
      contract := f.contract
      caller := hexAddress inputs.caller
      value := hexValue inputs.value
      kind := "CREATE" }

@[simp] theorem Frame.entry_depth (f : Frame) (d : ℕ) : (f.entry d).depth = d := by
  rw [Frame.entry]
  split <;> rfl

@[simp] theorem Frame.entry_contract (f : Frame) (d : ℕ) : (f.entry d).contract = f.contract := by
  rw [Frame.entry]
  split <;> rfl

/-- The open frames – listed innermost first – as a call stack, outermost first and each at
its own depth. -/
def callStackOf : List Frame → List CallFrame
  | [] => []
  | f :: fs => callStackOf fs ++ [f.entry fs.length]

@[simp] theorem length_callStackOf (fs : List Frame) : (callStackOf fs).length = fs.length := by
  induction fs with
  | nil => rfl
  | cons f fs ih => simp [callStackOf, ih]

/-- **The entry at position `k` is at depth `k`.** -/
theorem depth_callStackOf (fs : List Frame) (k : ℕ) (hk : k < (callStackOf fs).length) :
    (callStackOf fs)[k].depth = k := by
  induction fs generalizing k with
  | nil => exact absurd hk (by simp [callStackOf])
  | cons f fs ih =>
    by_cases h : k < (callStackOf fs).length
    · have hget : (callStackOf (f :: fs))[k] = (callStackOf fs)[k] :=
        List.getElem_append_left h
      rw [hget, ih k h]
    · have hk' : k = (callStackOf fs).length := by
        simp only [length_callStackOf, List.length_cons] at hk h ⊢
        omega
      have hget : (callStackOf (f :: fs))[k] = f.entry fs.length := by
        simp [callStackOf, hk']
      rw [hget, Frame.entry_depth, hk', length_callStackOf]

/-- The contract shown for the innermost of the open frames. -/
def contractOf : List Frame → String
  | [] => zeroAddress
  | f :: _ => f.contract

theorem currentContract_of_callStack {i : StepDebugInspector} {fs : List Frame}
    (h : i.callStack = callStackOf fs) : i.currentContract = contractOf fs := by
  rw [StepDebugInspector.currentContract, h]
  cases fs with
  | nil => rfl
  | cons f fs => simp [callStackOf, contractOf]

/-! ### The storage changes a snapshot shows -/

/-- The write an `SSTORE` step is noted as: the contract shown for its frame, and the key and
the value, all rendered. -/
def ExecutedStep.note (st : ExecutedStep) : Option ((String × String) × String) :=
  st.interp.sstore.map fun kv => ((contractOf st.frames, hexWord kv.1), hexWord kv.2)

/-- The map after a list of steps. -/
def noteSteps (m : StorageChanges) (sts : List ExecutedStep) : StorageChanges :=
  m.writeAll (sts.filterMap ExecutedStep.note)

@[simp] theorem noteSteps_append (m : StorageChanges) (sts sts' : List ExecutedStep) :
    noteSteps m (sts ++ sts') = noteSteps (noteSteps m sts) sts' := by
  unfold noteSteps StorageChanges.writeAll
  rw [List.filterMap_append, List.foldl_append]

/-- What noting a step does to the inspector. -/
theorem captureSstore_eq {i : StepDebugInspector} {st : ExecutedStep}
    (h : i.currentContract = contractOf st.frames) :
    i.captureSstore st.interp =
      { i with storageChanges := noteSteps i.storageChanges [st] } := by
  unfold StepDebugInspector.captureSstore noteSteps
  rw [h, List.filterMap_cons]
  rw [ExecutedStep.note]
  rcases st.interp.sstore with _ | ⟨key, value⟩ <;> rfl

/-! ### One snapshot, and the whole trace -/

/-- What the snapshot of a recorded step shows, given the steps recorded before it. -/
structure Describes (before : List ExecutedStep) (st : ExecutedStep) (snap : StepSnapshot) :
    Prop where
  stepNumber : snap.stepNumber = before.length
  pc : snap.pc = st.interp.pc
  opcode : snap.opcode = st.interp.opcode
  callDepth : snap.callDepth = st.frames.length
  gasRemaining : snap.gasRemaining = st.interp.gas.remaining
  gasUsed : snap.gasUsed = st.latestLimit - st.interp.gas.remaining
  storageChanges : snap.storageChanges = noteSteps ∅ (before ++ [st])
  callStack : snap.callStack = callStackOf st.frames
  contractAddress : snap.contractAddress = contractOf st.frames

/-- **The inspector tracks the execution.** -/
structure Tracks (e : Execution) (i : StepDebugInspector) : Prop where
  callStack : i.callStack = callStackOf e.frames
  gasInitial : i.gasInitial = e.latestLimit
  stepNumber : i.stepNumber = e.recorded.length
  storageChanges : i.storageChanges = noteSteps ∅ e.recorded
  length : i.snapshots.length = e.recorded.length
  snapshot : ∀ n st snap, e.recorded[n]? = some st → i.snapshots[n]? = some snap →
    Describes (e.recorded.take n) st snap

variable {opCode : UInt8 → Option String} {e e' : Execution} {i : StepDebugInspector}

/-- Every recorded step has its snapshot, at the same position. -/
theorem Tracks.exists_snapshot (h : Tracks e i) {st : ExecutedStep} (hst : st ∈ e.recorded) :
    ∃ n snap, e.recorded[n]? = some st ∧ i.snapshots[n]? = some snap ∧
      Describes (e.recorded.take n) st snap := by
  obtain ⟨n, hn⟩ := List.mem_iff_getElem?.mp hst
  have hlt : n < i.snapshots.length := h.length.symm ▸ (List.getElem?_eq_some_iff.mp hn).1
  have hsnap := List.getElem?_eq_getElem hlt
  exact ⟨n, _, hn, hsnap, h.snapshot n st _ hn hsnap⟩

theorem tracks_new (maxMemoryBytes : Option String) :
    Tracks Execution.start (StepDebugInspector.new maxMemoryBytes) where
  callStack := rfl
  gasInitial := rfl
  stepNumber := rfl
  storageChanges := rfl
  length := rfl
  snapshot n st snap h := by simp [Execution.recorded, Execution.start] at h

/-- A frame is opened. The depth the inspector notes is the number of frames below. -/
theorem Tracks.enter {input : FrameInput} {depth : ℕ} (h : Tracks e i)
    (he : e.enter input depth = some e') {i' : StepDebugInspector}
    (hi : i' = { i with
      callStack := i.callStack ++ [Frame.entry ⟨e.opened, input, none⟩ depth] }) :
    Tracks e' i' := by
  obtain ⟨hdepth, -, rfl⟩ := Execution.enter_eq_some he
  subst hi hdepth
  exact ⟨congrArg (· ++ [_]) h.callStack, h.gasInitial, h.stepNumber, h.storageChanges,
    h.length, h.snapshot⟩

/-- The innermost frame ends. -/
theorem Tracks.leave {input : FrameInput} (h : Tracks e i) (he : e.leave input = some e') :
    Tracks e' { i with callStack := i.callStack.dropLast } := by
  obtain ⟨f, fs, hfs, -, rfl⟩ := Execution.leave_eq_some he
  refine ⟨?_, h.gasInitial, h.stepNumber, h.storageChanges, h.length, h.snapshot⟩
  rw [h.callStack, hfs, callStackOf, List.dropLast_concat]

/-- The innermost frame gets its interpreter. -/
theorem Tracks.begin {interp : Interpreter} (h : Tracks e i) (he : e.begin interp = some e') :
    Tracks e' (i.initializeInterp interp) := by
  obtain ⟨f, fs, hfs, -, -, rfl⟩ := Execution.begin_eq_some he
  refine ⟨?_, rfl, h.stepNumber, h.storageChanges, h.length, h.snapshot⟩
  change i.callStack = _
  rw [h.callStack, hfs]
  rfl

/-- **An instruction runs.** With the abort flag seen the trace stays as it is; otherwise it
grows by a snapshot that describes the step. -/
theorem Tracks.advance {interp : Interpreter} {depth : ℕ} {seen : Bool} (h : Tracks e i)
    (he : e.advance interp depth seen = some e') :
    Tracks e' (i.step opCode seen interp depth).1 := by
  obtain ⟨f, fs, hfs, -, hdepth, rfl⟩ := Execution.advance_eq_some he
  cases seen with
  | true =>
    have hrec := e.recorded_of_seen interp true
    refine ⟨h.callStack, h.gasInitial, ?_, ?_, ?_, ?_⟩
    · exact hrec ▸ h.stepNumber
    · exact hrec ▸ h.storageChanges
    · exact hrec ▸ h.length
    · exact hrec ▸ h.snapshot
  | false =>
    let st := e.stepOf interp false
    have hrec := e.recorded_of_clear interp true
    have hcontract : i.currentContract = contractOf st.frames :=
      currentContract_of_callStack h.callStack
    have hstore : i.captureSstore interp
        = { i with storageChanges := noteSteps i.storageChanges [st] } := captureSstore_eq hcontract
    have hdesc : Describes e.recorded st
        ((i.captureSstore interp).captureSnapshot opCode interp depth) := by
      rw [hstore]
      exact ⟨h.stepNumber, rfl, rfl, hdepth, rfl, congrArg (· - _) h.gasInitial,
        by rw [noteSteps_append, ← h.storageChanges]; rfl,
        h.callStack, hcontract⟩
    refine ⟨?_, ?_, ?_, ?_, ?_, ?_⟩
    · change (i.captureSstore interp).callStack = _
      rw [hstore]
      exact h.callStack
    · change (i.captureSstore interp).gasInitial = _
      rw [hstore]
      exact h.gasInitial
    · change (i.captureSstore interp).stepNumber + 1 = _
      rw [hstore, hrec, List.length_append]
      exact congrArg (· + 1) h.stepNumber
    · change (i.captureSstore interp).storageChanges = _
      rw [hstore, hrec, noteSteps_append, ← h.storageChanges]
    · rw [StepDebugInspector.snapshots_step, hrec, List.length_append, List.length_append,
        List.length_singleton, List.length_singleton]
      exact congrArg (· + 1) h.length
    · intro n st' snap hst hsnap
      rw [StepDebugInspector.snapshots_step] at hsnap
      rw [hrec] at hst ⊢
      rcases Runs.getElem?_snoc hst with ⟨hn, hst⟩ | ⟨rfl, rfl⟩
      · -- an earlier step: its snapshot is still there
        rw [List.getElem?_append_left (h.length ▸ hn)] at hsnap
        rw [List.take_append_of_le_length hn.le]
        exact h.snapshot n st' snap hst hsnap
      · -- the new step
        rw [← h.length, List.getElem?_concat_length, Option.some.injEq] at hsnap
        rw [List.take_left]
        exact hsnap ▸ hdesc

/-- A log is emitted. -/
theorem Tracks.emit {log : Log} (h : Tracks e i) (he : e.emit = some e') :
    Tracks e' (i.logFull log) := by
  obtain ⟨f, fs, -, -, rfl⟩ := Execution.emit_eq_some he
  exact ⟨h.callStack, h.gasInitial, h.stepNumber, h.storageChanges, h.length, h.snapshot⟩

/-- **One hook keeps the inspector on the track of the execution.** -/
theorem Tracks.next {ev : Hook × Bool} (h : Tracks e i) (he : e.next ev = some e') :
    Tracks e' (i.hook opCode ev.2 ev.1).1 := by
  obtain ⟨hook, flag⟩ := ev
  cases hook with
  | initializeInterp interp => exact h.begin he
  | step interp depth => exact h.advance he
  | call inputs depth => exact h.enter (show e.enter (.call inputs) depth = some e' from he) rfl
  | callEnd inputs outcome => exact h.leave he
  | create inputs depth => exact h.enter (show e.enter (.create inputs) depth = some e' from he) rfl
  | createEnd inputs outcome => exact h.leave he
  | logFull log => exact h.emit he

@[simp] theorem StepDebugInspector.hooks_append (i : StepDebugInspector)
    (as bs : List (Hook × Bool)) :
    i.hooks opCode (as ++ bs) = (i.hooks opCode as).hooks opCode bs :=
  List.foldl_append

/-- **After every well-nested list of hooks the inspector tracks the execution.** -/
theorem tracks_of_run (opCode : UInt8 → Option String) (maxMemoryBytes : Option String)
    {events : List (Hook × Bool)} (h : Execution.run events = some e) :
    Tracks e ((StepDebugInspector.new maxMemoryBytes).hooks opCode events) := by
  refine Runs.run_induction
    (motive := fun events e =>
      Tracks e ((StepDebugInspector.new maxMemoryBytes).hooks opCode events))
    (tracks_new maxMemoryBytes) (fun as ev e e' _ ih hnext => ?_) h
  rw [StepDebugInspector.hooks_append]
  exact ih.next hnext

end EvmDebugger
