import EvmDebugger.Cache.TraceCache
import EvmDebugger.Page.Panels
import EvmDebugger.Server.Sharing

/-!
# Nothing to be escaped

The panels are put into the page as they are, and whatever in them looks like markup is taken for
markup. So it matters where their texts come from. A snapshot is full of words that somebody else
has chosen – who wrote the contract, who sent the transaction, who runs the endpoint – but the
inspector writes all of them as digits, and the rest are names: of opcodes, which the virtual
machine has, and of calls.

`EvmDebugger.no_markup` follows this from the hooks of the inspector by way of the thread, the
session and the trace cache to whatever a session shows.
-/

namespace EvmDebugger

/-- The characters that a browser does not show. -/
def isMarkup (c : Char) : Bool := c == '<' || c == '>' || c == '&'

/-- A text without markup. -/
def Plain (s : String) : Prop := ∀ c ∈ s.toList, isMarkup c = false

instance (s : String) : Decidable (Plain s) :=
  decidable_of_iff (s.toList.any isMarkup = false) (by simp [Plain])

theorem Plain.append {s t : String} (hs : Plain s) (ht : Plain t) : Plain (s ++ t) := by
  intro c hc
  rw [String.toList_append] at hc
  exact (List.mem_append.mp hc).elim (hs c) (ht c)

/-- A part of it is no worse. -/
theorem Plain.slice {s : String} (hs : Plain s) (n : ℕ) : Plain (Text.slice n s) := by
  intro c hc
  rw [Text.slice, String.toList_ofList] at hc
  exact hs c (List.mem_of_mem_take hc)

/-- **Digits are plain.** -/
theorem plain_ofList {cs : List Char} (h : ∀ c ∈ cs, (Text.toDigit 16 c).isSome = true) :
    Plain (String.ofList cs) := by
  intro c hc
  rw [String.toList_ofList] at hc
  have hall : ∀ n < 128, (Text.toDigit 16 (Char.ofNat n)).isSome = true →
      isMarkup (Char.ofNat n) = false := by decide
  obtain ⟨d, hd⟩ := Option.isSome_iff_exists.mp (h c hc)
  have hchar := hall c.toNat (Text.toNat_lt_of_toDigit hd)
  rw [Char.ofNat_toNat] at hchar
  exact hchar (h c hc)

theorem plain_fixed (w n : ℕ) : Plain (String.ofList (Hex.fixed w n)) :=
  plain_ofList fun c hc => by
    obtain ⟨d, hd, rfl⟩ := Hex.mem_fixed hc
    rw [Hex.toDigit_digitChar hd]
    rfl

theorem plain_minimal (n : ℕ) : Plain (String.ofList (Hex.minimal n)) :=
  plain_ofList (Hex.isSome_of_read (Hex.read_minimal n))

theorem plain_hexEncode (bytes : List UInt8) : Plain (hexEncode bytes) :=
  plain_ofList fun c hc => by
    obtain ⟨d, hd, rfl⟩ := Hex.mem_encode hc
    rw [Hex.toDigit_digitChar hd]
    rfl

theorem plain_zeroX : Plain "0x" := by decide

theorem plain_hexAddress (a : Address) : Plain (hexAddress a) :=
  plain_zeroX.append (plain_fixed _ _)

theorem plain_hexWord (v : U256) : Plain (hexWord v) := plain_zeroX.append (plain_fixed _ _)

theorem plain_hexHash (h : B256) : Plain (hexHash h) := plain_zeroX.append (plain_fixed _ _)

theorem plain_create : Plain "CREATE" := by decide

theorem plain_hexValue (v : U256) : Plain (hexValue v) := plain_zeroX.append (plain_minimal _)

/-! ### Snapshots -/

/-- The frame is plain. -/
structure CallFrame.Plain (f : CallFrame) : Prop where
  contract : EvmDebugger.Plain f.contract
  caller : EvmDebugger.Plain f.caller
  value : EvmDebugger.Plain f.value
  kind : EvmDebugger.Plain f.kind

/-- The log is plain. -/
structure LogEntry.Plain (l : LogEntry) : Prop where
  contract : EvmDebugger.Plain l.contract
  topics : ∀ t ∈ l.topics, EvmDebugger.Plain t
  data : EvmDebugger.Plain l.data

/-- The contracts, the slots and the values are plain. -/
def StorageChanges.Plain (changes : StorageChanges) : Prop :=
  ∀ contract slots, changes.lookup contract = some slots → EvmDebugger.Plain contract ∧
    ∀ key value, slots.lookup key = some value →
      EvmDebugger.Plain key ∧ EvmDebugger.Plain value

/-- **There is no markup in the snapshot.** -/
structure StepSnapshot.Plain (snap : StepSnapshot) : Prop where
  opcodeName : EvmDebugger.Plain snap.opcodeName
  stack : ∀ v ∈ snap.stack, EvmDebugger.Plain v
  memoryHex : EvmDebugger.Plain snap.memoryHex
  storageChanges : snap.storageChanges.Plain
  callStack : ∀ f ∈ snap.callStack, f.Plain
  logs : ∀ l ∈ snap.logs, l.Plain
  contractAddress : EvmDebugger.Plain snap.contractAddress

theorem StorageChanges.plain_empty : StorageChanges.Plain ∅ := fun _ _ h => absurd h (by simp)

/-- **A plain write leaves the changes plain.** -/
theorem StorageChanges.Plain.record {changes : StorageChanges} (h : changes.Plain)
    {contract key value : String} (hcontract : EvmDebugger.Plain contract)
    (hkey : EvmDebugger.Plain key) (hvalue : EvmDebugger.Plain value) :
    (changes.record contract key value).Plain := by
  intro contract' slots hslots
  rw [StorageChanges.record] at hslots
  by_cases hc : contract' = contract
  · subst hc
    rw [Finmap.lookup_insert] at hslots
    obtain rfl := Option.some.inj hslots
    refine ⟨hcontract, fun key' value' hlookup => ?_⟩
    by_cases hk : key' = key
    · subst hk
      rw [Finmap.lookup_insert] at hlookup
      obtain rfl := Option.some.inj hlookup
      exact ⟨hkey, hvalue⟩
    · rw [Finmap.lookup_insert_of_ne _ hk] at hlookup
      cases hold : changes.lookup contract' with
      | none =>
        rw [hold] at hlookup
        exact absurd hlookup (by simp)
      | some old =>
        rw [hold] at hlookup
        exact (h contract' old hold).2 key' value' hlookup
  · rw [Finmap.lookup_insert_of_ne _ hc] at hslots
    exact h contract' slots hslots

/-! ### The inspector -/

/-- **There is no markup in what the inspector keeps.** -/
structure StepDebugInspector.Plain (i : StepDebugInspector) : Prop where
  callStack : ∀ f ∈ i.callStack, f.Plain
  logs : ∀ l ∈ i.logs, l.Plain
  storageChanges : i.storageChanges.Plain
  snapshots : ∀ snap ∈ i.snapshots, snap.Plain

/-- The names of the opcodes are plain. -/
def PlainNames (opCode : UInt8 → Option String) : Prop :=
  ∀ opcode name, opCode opcode = some name → Plain name

namespace StepDebugInspector

variable {opCode : UInt8 → Option String} {i : StepDebugInspector}

theorem plain_new (maxMemoryBytes : Option String) : (new maxMemoryBytes).Plain where
  callStack _ h := absurd h List.not_mem_nil
  logs _ h := absurd h List.not_mem_nil
  storageChanges := StorageChanges.plain_empty
  snapshots _ h := absurd h List.not_mem_nil

theorem Plain.currentContract (h : i.Plain) : EvmDebugger.Plain i.currentContract := by
  rw [StepDebugInspector.currentContract]
  split
  · next frame hframe => exact (h.callStack frame (List.mem_of_getLast? hframe)).contract
  · decide

/-- **A snapshot of it is plain.** -/
theorem Plain.captureSnapshot (h : i.Plain) (hnames : PlainNames opCode) (interp : Interpreter)
    (depth : ℕ) : (i.captureSnapshot opCode interp depth).Plain where
  opcodeName := by
    show EvmDebugger.Plain ((opCode interp.opcode).getD (hexByte interp.opcode))
    cases hname : opCode interp.opcode with
    | none => exact plain_zeroX.append (plain_fixed _ _)
    | some name => exact hnames _ name hname
  stack v hv := by
    obtain ⟨word, -, rfl⟩ := List.mem_map.mp hv
    exact plain_hexWord word
  memoryHex := by
    rw [(shows_captureSnapshot opCode i interp depth).memoryHex]
    exact plain_hexEncode _
  storageChanges := h.storageChanges
  callStack := h.callStack
  logs := h.logs
  contractAddress := h.currentContract

theorem Plain.captureSstore (h : i.Plain) (interp : Interpreter) :
    (i.captureSstore interp).Plain := by
  rw [StepDebugInspector.captureSstore]
  split
  · exact ⟨h.callStack, h.logs,
      h.storageChanges.record h.currentContract (plain_hexWord _) (plain_hexWord _), h.snapshots⟩
  · exact h

/-- A plain frame more. -/
theorem Plain.push (h : i.Plain) {f : CallFrame} (hf : f.Plain) :
    ({ i with callStack := i.callStack ++ [f] } : StepDebugInspector).Plain where
  callStack g hg := (List.mem_append.mp hg).elim (h.callStack g) fun hg =>
    List.mem_singleton.mp hg ▸ hf
  logs := h.logs
  storageChanges := h.storageChanges
  snapshots := h.snapshots

/-- A frame less. -/
theorem Plain.pop (h : i.Plain) :
    ({ i with callStack := i.callStack.dropLast } : StepDebugInspector).Plain where
  callStack f hf := h.callStack f (List.mem_of_mem_dropLast hf)
  logs := h.logs
  storageChanges := h.storageChanges
  snapshots := h.snapshots

/-- **Every hook keeps it so.** -/
theorem Plain.hook (h : i.Plain) (hnames : PlainNames opCode) (seen : Bool) (hook : Hook) :
    (i.hook opCode seen hook).1.Plain := by
  cases hook with
  | initializeInterp interp => exact ⟨h.callStack, h.logs, h.storageChanges, h.snapshots⟩
  | step interp depth =>
    cases seen with
    | true => exact h
    | false =>
      have hstored := h.captureSstore interp
      refine ⟨hstored.callStack, hstored.logs, hstored.storageChanges, fun snap hsnap => ?_⟩
      rcases List.mem_append.mp hsnap with hsnap | hsnap
      · exact hstored.snapshots snap hsnap
      · exact List.mem_singleton.mp hsnap ▸ hstored.captureSnapshot hnames interp depth
  | call inputs depth =>
    refine h.push ⟨plain_hexAddress _, plain_hexAddress _, plain_hexValue _, ?_⟩
    show EvmDebugger.Plain inputs.scheme.kind
    cases inputs.scheme <;> decide
  | create inputs depth =>
    exact h.push ⟨plain_hexAddress _, plain_hexAddress _, plain_hexValue _, plain_create⟩
  | callEnd | createEnd => exact h.pop
  | logFull log =>
    refine ⟨h.callStack, fun l hl => ?_, h.storageChanges, h.snapshots⟩
    rcases List.mem_append.mp hl with hl | hl
    · exact h.logs l hl
    · rw [List.mem_singleton.mp hl]
      refine ⟨plain_hexAddress _, fun t ht => ?_, plain_zeroX.append (plain_hexEncode _)⟩
      obtain ⟨topic, -, rfl⟩ := List.mem_map.mp ht
      exact plain_hexHash topic

end StepDebugInspector

/-! ### From the inspector to the page -/

namespace Replay

variable {σ : Type} {R : Replay σ}

/-- **Whatever the machine does**, there is no markup in what the inspector keeps. -/
theorem Reaches.plain (hnames : PlainNames R.opCode) {events : List (Hook × Bool)} {evm : σ}
    {i : StepDebugInspector} (h : R.Reaches events evm i) : i.Plain := by
  induction h with
  | boot hboot => exact StepDebugInspector.plain_new _
  | hook seen h hnext ih => exact ih.hook hnames seen _

/-- And there is none in what has been recorded. -/
theorem Recorded.plain (hnames : PlainNames R.opCode) {snapshots : List StepSnapshot}
    {result : Option ExecutionResultInfo} (h : R.Recorded snapshots result) :
    ∀ snap ∈ snapshots, snap.Plain := by
  obtain ⟨before, after, evm, i, outcome, hreach, -, -, -, hmsg⟩ := h
  rw [snapshots_of_executorMessage hmsg]
  exact (hreach.plain hnames).snapshots

end Replay

/-- **No session ever shows markup**: whatever contracts are replayed, by whoever asks for it and
over whatever endpoint, and whether the trace has just been recorded or comes from the trace cache –
if there was nothing but traces in it to begin with – no text of any snapshot has a character in it
that a browser would not show. -/
theorem no_markup {σ : Type} {ctx : CreateContext σ}
    (hpaths : ctx.traceCachePath = traceCachePath) {records : Records} {json : Json TraceCacheFile}
    (hnames : ∀ info rpcUrl, PlainNames (ctx.executor info rpcUrl).opCode)
    (hjson : ctx.Readable records json) {files : Files String}
    (hfiles : ctx.Genuine records json files) (rq : ℕ → CreateSessionRequest) (uuid : ℕ → String)
    {actions : List TraceAction} (hanswers : ∀ action ∈ actions, action.Answers records)
    {s : TraceService σ}
    (h : Runs.run (TraceService.step ctx json rq uuid) (.init files) actions = some s)
    {place r : ℕ} {path : String} {snapshots : List StepSnapshot}
    {result : Option ExecutionResultInfo} (hshows : s.Shows place r path snapshots result) :
    ∀ snap ∈ snapshots, snap.Plain := by
  obtain ⟨hmade, hosted, i, hhosted, hready⟩ := hshows
  have hsound := TraceService.sound_of_run hpaths hjson hfiles hanswers h
  obtain ⟨g, -, hkeeps⟩ := hsound.keeps place hosted r path hhosted hmade
  obtain ⟨info, rpcUrl, -, -, hrecorded⟩ := hkeeps.traced hready
  exact hrecorded.plain (hnames info rpcUrl)

/-- The opcodes of the samples have plain names. -/
theorem plainNames_sampleOpCode : PlainNames sampleOpCode := by
  intro opcode name h
  obtain ⟨before, after, htable, -⟩ := List.lookup_eq_some_iff.mp h
  have hmem : (opcode, name) ∈ [((0x00 : UInt8), "STOP"), (0x01, "ADD"), (0x55, "SSTORE"),
      (0xf0, "CREATE"), (0xf1, "CALL"), (0xfd, "REVERT")] := by
    rw [htable]
    exact List.mem_append_right _ List.mem_cons_self
  have hall : ∀ entry ∈ [((0x00 : UInt8), "STOP"), (0x01, "ADD"), (0x55, "SSTORE"),
      (0xf0, "CREATE"), (0xf1, "CALL"), (0xfd, "REVERT")], Plain entry.2 := by decide
  exact hall _ hmem

/-- The session that replays both steps shows no markup, and their opcodes have names. -/
theorem no_markup_thirdLook :
    twoStepsTrace.map StepSnapshot.opcodeName = ["ADD", "STOP"] ∧
      ∀ snap ∈ twoStepsTrace, snap.Plain := by
  obtain ⟨s, hrun, hshows, -⟩ := exists_thirdLook
  exact ⟨rfl, no_markup rfl (fun _ _ => plainNames_sampleOpCode) (readable_twoSteps oneRecord)
    genuine_none sameRequest Nat.repr answers_thirdLook hrun hshows⟩

end EvmDebugger
