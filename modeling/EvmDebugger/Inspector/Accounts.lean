import EvmDebugger.Inspector.Trace

/-!
# Whose storage a write is shown under

An `SSTORE` writes to the account its interpreter runs as. The inspector shows it under the
contract at the top of its own call stack: for a call that is the target address of the call's
inputs, and the two are one and the same under every call scheme – a `DELEGATECALL` and a
`CALLCODE` are told the account whose storage they work on. For a creation it is the zero
address, because the address of the new contract is not known when the `create` hook runs.

What the debugger should show is a ledger, `EvmDebugger.AttributesStorage`: for each slot of
each account, what the steps so far last wrote to it. `EvmDebugger.attributesStorage_iff` says
exactly when it does – when no constructor writes storage. As soon as two of them do, their
slots are one map, and the second overwrites the first.
-/

namespace EvmDebugger

/-! ### The two ledgers -/

/-- A slot of an account, as the map of the storage changes names it. -/
def renderSlot (slot : Address × U256) : String × String := (hexAddress slot.1, hexWord slot.2)

/-- Different slots have different names. -/
theorem renderSlot_injective : Function.Injective renderSlot := by
  rintro ⟨a, k⟩ ⟨b, l⟩ h
  obtain rfl : a = b := hexAddress_inj (congrArg Prod.fst h)
  obtain rfl : k = l := hexWord_inj (congrArg Prod.snd h)
  rfl

namespace ExecutedStep

/-- **The operands of an `SSTORE`**: it pops the key, and then the value. The top of the stack is at
the end. -/
def operands (st : ExecutedStep) : Option (U256 × U256) :=
  if st.interp.opcode = 0x55 then
    match st.interp.stack.reverse with
    | key :: value :: _ => some (key, value)
    | _ => none
  else none

/-- **The inspector reads the operands** where the machine will pop them from. -/
theorem sstore_eq_operands (st : ExecutedStep) : st.interp.sstore = st.operands := by
  rw [Interpreter.sstore, operands]
  split
  · obtain ⟨pops, hpops⟩ : ∃ pops, st.interp.stack.reverse = pops := ⟨_, rfl⟩
    have hstack : st.interp.stack = pops.reverse := by rw [← hpops, List.reverse_reverse]
    rw [hpops]
    match pops with
    | [] => simp [hstack]
    | [key] => simp [hstack]
    | key :: value :: rest => simp [hstack]
  · rfl

/-- The write of an `SSTORE` step: the account its interpreter runs as, the key, the value. -/
def effect (st : ExecutedStep) : Option ((Address × U256) × U256) :=
  st.operands.map fun kv => ((st.interp.targetAddress, kv.1), kv.2)

/-- The step is executed in a frame that was opened by a call. -/
def inCall (st : ExecutedStep) : Bool :=
  match st.frames with
  | { id := _, input := .call _, running := _ } :: _ => true
  | _ => false

/-- **The contract shown for a step is the account it works on** in every call, and in a
creation only if that account is the zero address. -/
theorem contractOf_eq_iff {st : ExecutedStep} (h : Execution.StepOk st) :
    contractOf st.frames = hexAddress st.interp.targetAddress ↔
      st.inCall = true ∨ st.interp.targetAddress = 0 := by
  obtain ⟨⟨id, input, running⟩, fs, hfs, -, has⟩ := h
  rw [inCall, hfs]
  cases input with
  | call inputs =>
    refine ⟨fun _ => Or.inl rfl, fun _ => ?_⟩
    exact congrArg hexAddress (show st.interp.targetAddress = inputs.targetAddress from has).symm
  | create inputs =>
    constructor
    · intro heq
      exact Or.inr (hexAddress_inj heq).symm
    · rintro (hcall | hzero)
      · exact absurd hcall (by simp)
      · exact (congrArg hexAddress hzero).symm

/-- A step shown under its own account is noted as what it does. -/
theorem note_eq_effect {st : ExecutedStep}
    (h : contractOf st.frames = hexAddress st.interp.targetAddress) :
    st.note = st.effect.map fun w => (renderSlot w.1, hexWord w.2) := by
  unfold note effect
  rw [h, sstore_eq_operands, Option.map_map]
  rfl

/-- A step that is no `SSTORE` is noted as nothing, which is what it does. -/
theorem note_eq_effect_of_ne {st : ExecutedStep} (h : st.interp.opcode ≠ 0x55) :
    st.note = st.effect.map fun w => (renderSlot w.1, hexWord w.2) := by
  unfold note effect
  rw [sstore_eq_operands, operands, if_neg h]
  rfl

end ExecutedStep

/-- What the map shows after a list of steps: for each name, what was last noted under it. -/
theorem slot_noteSteps (sts : List ExecutedStep) (place : String × String) :
    (noteSteps ∅ sts).slot place = Writes.last (sts.filterMap ExecutedStep.note) place := by
  unfold noteSteps StorageChanges.writeAll
  rw [Writes.lookup_foldl StorageChanges.slot_write]
  exact Option.or_none

/-- **Storage is shown under the account it belongs to**: every snapshot shows for each slot
of each account what the steps so far last wrote to it, and the contract shown for an
`SSTORE` is the account it writes to. -/
structure AttributesStorage (e : Execution) (snapshots : List StepSnapshot) : Prop where
  storage : ∀ (n : ℕ) (snap : StepSnapshot), n < e.recorded.length → snapshots[n]? = some snap →
    ∀ slot, snap.storageChanges.slot (renderSlot slot)
      = (Writes.last ((e.recorded.take (n + 1)).filterMap ExecutedStep.effect) slot).map hexWord
  contract : ∀ (n : ℕ) (st : ExecutedStep) (snap : StepSnapshot),
    e.recorded[n]? = some st → snapshots[n]? = some snap → st.interp.opcode = 0x55 →
    snap.contractAddress = hexAddress st.interp.targetAddress

/-- A step is noted as what it does, if it is no `SSTORE`, or one that is shown under its own
account. -/
theorem ExecutedStep.note_eq_effect_of_shown {st : ExecutedStep} (hok : Execution.StepOk st)
    (h : st.interp.opcode = 0x55 → st.inCall = true ∨ st.interp.targetAddress = 0) :
    st.note = st.effect.map fun w => (renderSlot w.1, hexWord w.2) := by
  by_cases hop : st.interp.opcode = 0x55
  · exact note_eq_effect ((contractOf_eq_iff hok).mpr (h hop))
  · exact note_eq_effect_of_ne hop

/-- **What a snapshot shows for a slot**, if the steps are noted as what they do: the names are
faithful, so the map last shows what was last written. -/
theorem Tracks.slot_eq {e : Execution} {i : StepDebugInspector} (h : Tracks e i)
    (hnote : ∀ st ∈ e.recorded, st.note = st.effect.map fun w => (renderSlot w.1, hexWord w.2))
    {n : ℕ} {snap : StepSnapshot} (hn : n < e.recorded.length) (hsnap : i.snapshots[n]? = some snap)
    (slot : Address × U256) :
    snap.storageChanges.slot (renderSlot slot) =
      (Writes.last ((e.recorded.take (n + 1)).filterMap ExecutedStep.effect) slot).map hexWord := by
  have hdesc := h.snapshot n _ snap (List.getElem?_eq_getElem hn) hsnap
  rw [hdesc.storageChanges, ← List.take_succ_eq_append_getElem hn, slot_noteSteps,
    List.filterMap_congr fun st hst => hnote st (List.mem_of_mem_take hst), ← List.map_filterMap]
  exact Writes.last_map_of_injective renderSlot_injective hexWord _ slot

/-- **When storage is shown under the account it belongs to.** After any well-nested run this
is so if and only if every recorded `SSTORE` was executed in a call, or else – in a
constructor – by the account zero. -/
theorem attributesStorage_iff (opCode : UInt8 → Option String) (maxMemoryBytes : Option String)
    {events : List (Hook × Bool)} {e : Execution} (h : Execution.run events = some e) :
    AttributesStorage e ((StepDebugInspector.new maxMemoryBytes).hooks opCode events).snapshots ↔
      ∀ st ∈ e.recorded, st.interp.opcode = 0x55 →
        st.inCall = true ∨ st.interp.targetAddress = 0 := by
  have htracks := tracks_of_run opCode maxMemoryBytes h
  have hok : ∀ st ∈ e.recorded, Execution.StepOk st := fun st hst =>
    (Execution.ok_of_run h).steps st (List.mem_of_mem_filter hst)
  constructor
  · rintro ⟨-, hcontract⟩ st hst hop
    obtain ⟨n, snap, hn, hsnap, hdesc⟩ := htracks.exists_snapshot hst
    have heq := hcontract n st snap hn hsnap hop
    rw [hdesc.contractAddress] at heq
    exact (ExecutedStep.contractOf_eq_iff (hok st hst)).mp heq
  · intro hall
    constructor
    · intro n snap hn hsnap slot
      exact htracks.slot_eq (fun st hst =>
        ExecutedStep.note_eq_effect_of_shown (hok st hst) (hall st hst)) hn hsnap slot
    · intro n st snap hn hsnap hop
      have hst := List.mem_of_getElem? hn
      rw [(htracks.snapshot n st snap hn hsnap).contractAddress]
      exact (ExecutedStep.contractOf_eq_iff (hok st hst)).mpr (hall st hst hop)

/-- In the sample transaction the account `0xb` is called, and its write is shown under it. -/
theorem attributesStorage_nestedCall :
    AttributesStorage nestedCallEnd
      ((StepDebugInspector.new none).hooks sampleOpCode nestedCall).snapshots :=
  (attributesStorage_iff sampleOpCode none run_nestedCall).mpr (by decide)

/-! ### Two constructors -/

/-- A creation by the account `0xa`, with no value. -/
def sampleCreate : CreateInputs where
  scheme := .create
  caller := 0xa
  value := 0

/-- The hooks of a creation whose constructor writes a value to slot `1`. -/
def constructorHooks (target : Address) (value : U256) : List (Hook × Bool) :=
  [(.step (sampleInterp 0xa 0xf0 (.new 100) []) 1, false),
    (.create sampleCreate 1, false),
    (.initializeInterp (sampleInterp target 0x55 (.new 50) []), false),
    (.step (sampleInterp target 0x55 (.new 50) [value, 1]) 2, false),
    (.createEnd sampleCreate .success, false)]

/-- A transaction that creates the accounts `0xc1` and `0xc2`. -/
def twoConstructors : List (Hook × Bool) :=
  [(.call (sampleCall 0x1 0xa) 0, false),
    (.initializeInterp (sampleInterp 0xa 0xf0 (.new 100) []), false)] ++
    constructorHooks 0xc1 5 ++ constructorHooks 0xc2 6

/-- The two constructors write `5` and `6` to their own slots `1`. Both are shown under the
zero address, and after the second write the first is gone. -/
theorem not_attributesStorage_twoConstructors :
    ∃ e, Execution.run twoConstructors = some e ∧
      ¬AttributesStorage e
        ((StepDebugInspector.new none).hooks sampleOpCode twoConstructors).snapshots := by
  refine ⟨(Execution.run twoConstructors).get (by decide), (Option.some_get _).symm, fun h => ?_⟩
  have hshown := h.storage 3 _ (by decide) rfl (0xc1, 1)
  exact absurd hshown (by decide)

end EvmDebugger
