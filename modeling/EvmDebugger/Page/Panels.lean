import EvmDebugger.Inspector.Encoding
import EvmDebugger.Lib.Rounding
import EvmDebugger.Replay.Listing
import Mathlib.Data.List.Range

/-!
# What the page shows of a snapshot

`index.html`, from `updateStatusBar` to `renderLogs`: each panel of the page is one text, made of a
part of a snapshot and put into the page as it is. This file has the texts; when they are put there
is a matter of `EvmDebugger.Page.Tab`.

What a reader of the page can tell from a panel is another question than what the snapshot says.

* The **counters** have sixty-four bits, and the script reads them as floating-point numbers, of
  which fifty-three are left. So they are shown as they are below `2 ^ 53`
  (`EvmDebugger.Page.number_of_lt`); of larger ones, some look the same
  (`EvmDebugger.Page.number_eq_iff`), and none of them is far off (`EvmDebugger.Page.double_near`).
* The **opcodes** are the rows of the trace, one of which is marked; of a trace the inspector has
  recorded, it is the row of the snapshot, and no other
  (`EvmDebugger.Page.renderOpcodeList_of_numbered`), as long as the script can tell the steps apart.
  The number in front of it is cut off after six digits, so that rows a million steps apart have the
  same one (`EvmDebugger.Page.rowNumber_eq_iff`).
* The **memory** is shown byte by byte, thirty-two to a row, and each row says where it starts
  (`EvmDebugger.Page.memory_panel`).
* Of the **storage**, a slot and its value are cut off after eighteen characters, which leaves the
  sixteen highest of sixty-four digits; whatever fits in the others looks like zero
  (`EvmDebugger.Page.storageItem_eq_iff`).

Nothing is escaped on the way, which would be a mistake if there were anything to escape. There is
not: see `EvmDebugger.Page.Markup`.
-/

namespace EvmDebugger

namespace Page

open Text

/-- The text in a panel that has nothing to show. -/
def loading (text : String) : String := "<p class=\"loading\">" ++ text ++ "</p>"

/-! ### Counters -/

/-- **What a counter is read as**: a number of the script, with fifty-three bits. -/
def double (n : ℕ) : ℕ := Rounding.round 53 n

/-- The text of a counter; it has less than twenty-two digits. -/
def number (n : ℕ) : String := Rounding.decimal 53 (double n)

/-- **Small counters are shown as they are.** -/
theorem number_of_lt {n : ℕ} (h : n < 2 ^ 53) : number n = Nat.repr n := by
  rw [number, double, Rounding.round_of_lt h, Rounding.decimal_of_lt (by decide) h]

/-- **Two counters are shown alike** if they are read as the same number. -/
theorem number_eq_iff {m n : ℕ} : number m = number n ↔ double m = double n :=
  Rounding.decimal_inj (Rounding.round_round (by decide) m) (Rounding.round_round (by decide) n)

/-- **No counter is far off.** -/
theorem double_near (n : ℕ) :
    2 ^ 53 * double n ≤ 2 ^ 53 * n + n ∧ 2 ^ 53 * n ≤ 2 ^ 53 * double n + n :=
  Rounding.round_near 53 n

/-- The smallest counter that is not shown as it is. -/
example : number (2 ^ 53 + 1) = "9007199254740992" := by decide

/-! ### The status bar -/

/-- The seven fields of the status bar. -/
structure StatusBar where
  sStep : String
  sGasUsed : String
  sGasLeft : String
  sDepth : String
  sPc : String
  sOp : String
  sContract : String
  deriving DecidableEq

/-- `toString(16)`, which has all digits of a number. -/
def toHex (n : ℕ) : String := String.ofList (Hex.minimal n)

/-- The status bar of a snapshot. -/
def updateStatusBar (snap : StepSnapshot) : StatusBar where
  sStep := "Step: " ++ number snap.stepNumber
  sGasUsed := "Gas Used: " ++ number snap.gasUsed
  sGasLeft := "Gas Left: " ++ number snap.gasRemaining
  sDepth := "Depth: " ++ number snap.callDepth
  sPc := "PC: 0x" ++ toHex (double snap.pc)
  sOp := "Op: " ++ snap.opcodeName
  sContract := "Contract: " ++ slice 10 snap.contractAddress ++ "..."

/-! ### The opcodes -/

/-- The number of a row: its last six decimals. -/
def rowNumber (step : ℕ) : String := sliceEnd 6 ("000000" ++ number step)

/-- A row of the list. -/
def opcodeRow (i : ℕ) (h : TraceStep) (isCurrent : Bool) : String :=
  "<div class=\"opcode-row" ++ (if isCurrent then " current" else "") ++ "\" id=\"oprow_" ++
    Nat.repr i ++ "\">\n      <span class=\"op-pc\">" ++ rowNumber h.step ++
    "</span>\n      <span class=\"op-pc\">0x" ++ padStart 4 '0' (toHex (double h.pc)) ++
    "</span>\n      <span class=\"op-name\">" ++ h.opcodeName ++ "</span>\n    </div>"

/-- The row is that of the current step, as far as the script can tell; there may be none. -/
def isCurrent (currentStep : Option ℕ) (h : TraceStep) : Bool :=
  some (double h.step) = currentStep.map double

/-- The list of the opcodes. -/
def renderOpcodeList (steps : List TraceStep) (currentStep : Option ℕ) : String :=
  if steps.length = 0 then loading "Waiting for first step..."
  else
    "<div class=\"opcode-list\">" ++
      String.join (steps.mapIdx fun i h => opcodeRow i h (isCurrent currentStep h)) ++ "</div>"

/-- The row that is scrolled to, if any is: the first of the current step. -/
def scrolledTo (steps : List TraceStep) (currentStep : Option ℕ) : Option ℕ :=
  steps.findIdx? (isCurrent currentStep)

/-- **Exactly the row of the snapshot is marked**, and it is scrolled to, if the trace is numbered,
and not too long. -/
theorem renderOpcodeList_of_numbered {snapshots : List StepSnapshot} (h : Numbered snapshots)
    (hlength : snapshots.length ≤ 2 ^ 53) {i : ℕ} {snap : StepSnapshot}
    (hsnap : snapshots[i]? = some snap) :
    renderOpcodeList (snapshots.map StepSnapshot.row) (some snap.stepNumber) =
        "<div class=\"opcode-list\">" ++
          String.join (snapshots.mapIdx fun k u => opcodeRow k u.row (k = i)) ++ "</div>" ∧
      scrolledTo (snapshots.map StepSnapshot.row) (some snap.stepNumber) = some i := by
  have hlt : i < snapshots.length := (List.getElem?_eq_some_iff.mp hsnap).1
  have hcurrent : ∀ k (u : StepSnapshot), snapshots[k]? = some u →
      (isCurrent (some snap.stepNumber) u.row = true ↔ k = i) := by
    intro k u hu
    have hk : k < snapshots.length := (List.getElem?_eq_some_iff.mp hu).1
    rw [isCurrent, decide_eq_true_iff, Option.map_some, Option.some_inj, h i snap hsnap]
    show double u.stepNumber = double i ↔ k = i
    rw [h k u hu, double, double, Rounding.round_of_lt (hk.trans_le hlength),
      Rounding.round_of_lt (hlt.trans_le hlength)]
  constructor
  · have hrows : (snapshots.map StepSnapshot.row).mapIdx
          (fun k h => opcodeRow k h (isCurrent (some snap.stepNumber) h)) =
        snapshots.mapIdx fun k u => opcodeRow k u.row (k = i) := by
      refine List.mapIdx_eq_iff.mpr fun k => ?_
      rw [List.getElem?_mapIdx, List.getElem?_map, Option.map_map]
      refine Option.map_congr fun u hu => ?_
      refine congrArg (opcodeRow k u.row) ?_
      rw [Bool.eq_iff_iff, decide_eq_true_iff]
      exact (hcurrent k u hu).symm
    rw [renderOpcodeList, if_neg (by rw [List.length_map]; omega), hrows]
  · rw [scrolledTo, List.findIdx?_eq_some_iff_getElem]
    refine ⟨by rwa [List.length_map], ?_, fun k hk => ?_⟩
    · rw [List.getElem_map]
      exact (hcurrent i _ (List.getElem?_eq_getElem hlt)).mpr rfl
    · rw [List.getElem_map, hcurrent k _ (List.getElem?_eq_getElem _)]
      exact hk.ne

/-- **Two steps have the same number** if they are a multiple of a million apart. -/
theorem rowNumber_eq_iff {m n : ℕ} (hm : m < 2 ^ 53) (hn : n < 2 ^ 53) :
    rowNumber m = rowNumber n ↔ m % 10 ^ 6 = n % 10 ^ 6 := by
  have hzeros : "000000" = String.ofList (List.replicate 6 '0') := rfl
  rw [rowNumber, rowNumber, number_of_lt hm, number_of_lt hn, hzeros, sliceEnd_repr,
    sliceEnd_repr, String.ofList_inj, lastDecimals_eq_iff]

/-! ### The stack and the call stack -/

/-- The stack, the top first. -/
def renderStack (stack : List String) : String :=
  if stack.length = 0 then loading "(empty)"
  else
    String.join (stack.mapIdx fun i v =>
      "<div class=\"stack-item\"><span class=\"idx\">[" ++ Nat.repr i ++ "]</span> " ++ v ++
        "</div>")

/-- A frame of the call stack. -/
def callFrame (f : CallFrame) : String :=
  "<div class=\"callframe\">\n      <div class=\"cf-kind\">[" ++ number f.depth ++ "] " ++ f.kind ++
    "</div>\n      <div class=\"cf-addr\">" ++ f.contract ++
    "</div>\n      <div style=\"color:#888;font-size:10px\">from: " ++ slice 10 f.caller ++
    "...</div>\n    </div>"

/-- The call stack, the outermost frame first. -/
def renderCallStack (callStack : List CallFrame) : String :=
  if callStack.length = 0 then loading "(none)" else String.join (callStack.map callFrame)

/-! ### The memory -/

/-- `match(/.{1,2}/g)`: two characters at a time. -/
def pairs : List Char → List String
  | [] => []
  | [c] => [String.ofList [c]]
  | c :: d :: rest => String.ofList [c, d] :: pairs rest

/-- The rows of the dump: where each starts, and its bytes. -/
def memoryRows (bytes : List String) : List (ℕ × List String) :=
  (List.range' 0 ((bytes.length + 31) / 32) 32).map fun i => (i, (bytes.drop i).take 32)

/-- A row of the dump. -/
def memoryRow (row : ℕ × List String) : String :=
  "<div class=\"memory-row\"><span class=\"offset\">0x" ++ padStart 4 '0' (toHex row.1) ++
    "</span>" ++ String.intercalate " " row.2 ++ "</div>"

/-- The memory, or its beginning. -/
def renderMemory (hexStr : String) (truncated : Bool) (totalSize : ℕ) : String :=
  if hexStr.length = 0 then loading "(empty)"
  else
    (if truncated then loading ("(truncated, total " ++ number totalSize ++ " bytes)") else "") ++
      String.join ((memoryRows (pairs hexStr.toList)).map memoryRow)

/-- Windows of thirty-two, one after the other, are the whole. -/
theorem flatMap_windows {α : Type*} (l : List α) (n s : ℕ) (h : l.length ≤ s + 32 * n) :
    (List.range' s n 32).flatMap (fun i => (l.drop i).take 32) = l.drop s := by
  induction n generalizing s with
  | zero => exact (List.drop_eq_nil_of_le h).symm
  | succ n ih =>
    rw [List.range'_succ, List.flatMap_cons, ih (s + 32) (by omega), ← List.drop_drop,
      List.take_append_drop]

/-- **The rows have all bytes**, each once, and in order. -/
theorem flatMap_memoryRows (bytes : List String) :
    (memoryRows bytes).flatMap Prod.snd = bytes := by
  rw [memoryRows, List.flatMap_map]
  exact flatMap_windows bytes _ 0 (by omega)

/-- **A row says where it starts**, and has thirty-two bytes, if it is not the last. -/
theorem getElem?_memoryRows {bytes : List String} {k : ℕ} {row : ℕ × List String}
    (h : (memoryRows bytes)[k]? = some row) :
    row.1 = 32 * k ∧ row.2 ≠ [] ∧ row.2.length ≤ 32 ∧
      (k + 1 < (memoryRows bytes).length → row.2.length = 32) := by
  rw [memoryRows, List.getElem?_map, Option.map_eq_some_iff] at h
  obtain ⟨i, hi, rfl⟩ := h
  obtain ⟨hk, hi⟩ := List.getElem?_eq_some_iff.mp hi
  rw [List.length_range'] at hk
  rw [List.getElem_range', Nat.zero_add] at hi
  subst hi
  have hlength : ((bytes.drop (32 * k)).take 32).length = min 32 (bytes.length - 32 * k) := by
    rw [List.length_take, List.length_drop]
  rw [memoryRows, List.length_map, List.length_range']
  refine ⟨rfl, fun hnil => ?_, ?_, fun hlast => ?_⟩
  · rw [List.eq_nil_iff_length_eq_zero.mp hnil] at hlength
    omega
  · rw [hlength]
    exact Nat.min_le_left _ _
  · rw [hlength]
    omega

/-- The characters of a byte string are taken two at a time, and these are its bytes. -/
theorem pairs_encode (bytes : List UInt8) :
    pairs (Hex.encode bytes) = bytes.map fun b => String.ofList (Hex.fixed 2 b.toNat) := by
  induction bytes with
  | nil => rfl
  | cons b bytes ih =>
    rw [List.map_cons, ← ih]
    rfl

/-- **What is read back from the rows** is the byte string. -/
theorem decode_memoryRows (bytes : List UInt8) :
    Hex.decode (((memoryRows (pairs (Hex.encode bytes))).flatMap Prod.snd).flatMap String.toList) =
      some bytes := by
  rw [flatMap_memoryRows, pairs_encode, List.flatMap_map]
  simp only [String.toList_ofList]
  exact Hex.decode_encode bytes

/-- Nothing is shown of a byte string if there is nothing in it. -/
theorem length_hexEncode_eq_zero {bytes : List UInt8} :
    (hexEncode bytes).length = 0 ↔ bytes = [] := by
  cases bytes with
  | nil => exact ⟨fun _ => rfl, fun _ => rfl⟩
  | cons b bytes =>
    rw [← String.length_toList, hexEncode, String.toList_ofList]
    exact ⟨fun h => absurd h (by simp [Hex.encode]), fun h => absurd h (by simp)⟩

/-- **The memory panel shows what the snapshot has of the memory, and where it is.** From its rows
the beginning of the memory is read back, byte by byte; the row at `k` starts at `32 * k`, as it
says, and only the last one has less than thirty-two bytes; and the panel says how much there is if
not everything is shown, unless nothing is, when it says that there is nothing. -/
theorem memory_panel (opCode : UInt8 → Option String) (self : StepDebugInspector)
    (interp : Interpreter) (depth : ℕ) :
    let snap := self.captureSnapshot opCode interp depth
    let shown := interp.memory.take self.maxMemoryBytes
    let rows := memoryRows (pairs snap.memoryHex.toList)
    Hex.decode ((rows.flatMap Prod.snd).flatMap String.toList) = some shown ∧
      (∀ (k : ℕ) (row : ℕ × List String), rows[k]? = some row → row.1 = 32 * k ∧ row.2 ≠ [] ∧
        row.2.length ≤ 32 ∧ (k + 1 < rows.length → row.2.length = 32)) ∧
      renderMemory snap.memoryHex snap.memoryTruncated snap.memorySize =
        if shown = [] then loading "(empty)"
        else
          (if self.maxMemoryBytes < interp.memory.length then
              loading ("(truncated, total " ++ number interp.memory.length ++ " bytes)")
            else "") ++ String.join (rows.map memoryRow) := by
  intro snap shown rows
  have hshows := shows_captureSnapshot opCode self interp depth
  have hhex : snap.memoryHex = hexEncode shown := hshows.memoryHex
  have hrows : rows = memoryRows (pairs (Hex.encode shown)) := by
    show memoryRows (pairs snap.memoryHex.toList) = _
    rw [hhex, hexEncode, String.toList_ofList]
  refine ⟨?_, fun k row => getElem?_memoryRows, ?_⟩
  · rw [hrows]
    exact decode_memoryRows shown
  · have htruncated : snap.memoryTruncated = decide (shown.length < interp.memory.length) :=
      hshows.memoryTruncated
    have hlonger : shown.length < interp.memory.length ↔
        self.maxMemoryBytes < interp.memory.length := by
      show (interp.memory.take self.maxMemoryBytes).length < _ ↔ _
      rw [List.length_take]
      omega
    have hsize : snap.memorySize = interp.memory.length := hshows.memorySize
    rw [renderMemory, htruncated, hsize, hhex]
    by_cases hempty : shown = []
    · rw [if_pos hempty, if_pos (length_hexEncode_eq_zero.mpr hempty)]
    · rw [if_neg hempty, if_neg fun h => hempty (length_hexEncode_eq_zero.mp h), ← hhex]
      simp only [decide_eq_true_eq, hlonger]
      rfl

/-! ### The storage -/

/-- A slot and its value. -/
def storageItem (key val : String) : String :=
  "<div class=\"storage-item\"><span class=\"s-key\">" ++ slice 18 key ++
    "…</span> → <span class=\"s-val\">" ++ slice 18 val ++ "…</span></div>"

/-- Two writes are shown alike if what is shown of the slots and of the values is. -/
theorem storageItem_inj {key val key' val' : String}
    (hkey : (slice 18 key).toList.length = (slice 18 key').toList.length)
    (hval : (slice 18 val).toList.length = (slice 18 val').toList.length) :
    storageItem key val = storageItem key' val' ↔
      slice 18 key = slice 18 key' ∧ slice 18 val = slice 18 val' := by
  constructor
  · intro h
    unfold storageItem at h
    rw [← String.toList_inj] at h
    simp only [String.toList_append, List.append_assoc, List.append_cancel_left_eq] at h
    obtain ⟨hkeys, hrest⟩ := List.append_inj h hkey
    rw [List.append_cancel_left_eq] at hrest
    obtain ⟨hvals, -⟩ := List.append_inj hrest hval
    exact ⟨String.toList_inj.mp hkeys, String.toList_inj.mp hvals⟩
  · rintro ⟨hkeys, hvals⟩
    unfold storageItem
    rw [hkeys, hvals]

/-- What is shown of a word: its prefix, and sixteen digits. -/
theorem slice_hexWord (v : U256) :
    slice 18 (hexWord v) = "0x" ++ String.ofList (Hex.fixed 16 (v.toNat / 16 ^ 48)) := by
  have hslice : ∀ l : List Char,
      slice 18 ("0x" ++ String.ofList l) = "0x" ++ String.ofList (l.take 16) := by
    intro l
    rw [slice, ← String.toList_inj, String.toList_ofList, String.toList_append,
      String.toList_append, @String.toList_ofList l, @String.toList_ofList (l.take 16)]
    rfl
  rw [hexWord, hslice, ← Hex.take_fixed]

/-- What is shown of a word has as many characters as of any other. -/
theorem length_slice_hexWord (v : U256) : (slice 18 (hexWord v)).toList.length = 18 := by
  have hlength : ∀ l : List Char, ("0x" ++ String.ofList l).toList.length = l.length + 2 := by
    intro l
    rw [String.toList_append, List.length_append, @String.toList_ofList l, Nat.add_comm]
    rfl
  rw [slice_hexWord, hlength, Hex.length_fixed]

/-- **Two words are shown alike** if they agree in the sixty-four highest bits. -/
theorem slice_hexWord_eq_iff {v w : U256} :
    slice 18 (hexWord v) = slice 18 (hexWord w) ↔ v >>> 192 = w >>> 192 := by
  have hshift : ∀ u : U256, (u >>> 192).toNat = u.toNat / 16 ^ 48 := by
    intro u
    have hpow : 2 ^ 192 = 16 ^ 48 := by decide
    rw [BitVec.toNat_ushiftRight, Nat.shiftRight_eq_div_pow, hpow]
  have hlt : ∀ u : U256, u.toNat / 16 ^ 48 < 16 ^ 16 := by
    intro u
    have hu := u.isLt
    omega
  rw [slice_hexWord, slice_hexWord]
  constructor
  · intro h
    have hdigits := Hex.fixed_inj (hlt v) (hlt w) (prefixed_inj h)
    exact BitVec.eq_of_toNat_eq ((hshift v).trans (hdigits.trans (hshift w).symm))
  · intro h
    rw [← hshift v, ← hshift w, h]

/-- **What the storage panel can tell apart**: two writes are shown alike exactly if the slots agree
in their sixty-four highest bits, and the values do. So all slots below `2 ^ 192` look the same, and
all values do. -/
theorem storageItem_eq_iff {key val key' val' : U256} :
    storageItem (hexWord key) (hexWord val) = storageItem (hexWord key') (hexWord val') ↔
      key >>> 192 = key' >>> 192 ∧ val >>> 192 = val' >>> 192 :=
  Iff.trans
    (storageItem_inj ((length_slice_hexWord key).trans (length_slice_hexWord key').symm)
      ((length_slice_hexWord val).trans (length_slice_hexWord val').symm))
    (and_congr slice_hexWord_eq_iff slice_hexWord_eq_iff)

/-- The storage changes, in the order in which they have been received. -/
def renderStorage (storageChanges : List (String × List (String × String))) : String :=
  if storageChanges.length = 0 then loading "(none)"
  else
    String.join (storageChanges.map fun change =>
      "<div style=\"color:#888;font-size:10px;margin:4px 0 2px\">" ++ change.1 ++ "</div>" ++
        String.join (change.2.map fun slot => storageItem slot.1 slot.2))

/-! ### The logs -/

/-- A log. -/
def logItem (l : LogEntry) : String :=
  "<div class=\"log-item\">\n      <div style=\"color:#dcdcaa\">" ++ l.contract ++
    "</div>\n      " ++
    String.join (l.topics.mapIdx fun i t =>
      "<div style=\"color:#888;font-size:10px\">topic" ++ Nat.repr i ++ ": " ++ slice 20 t ++
        "…</div>") ++
    "\n      <div style=\"color:#ce9178;font-size:10px\">data: " ++ slice 30 l.data ++
    (if l.data.length > 30 then "…" else "") ++ "</div>\n    </div>"

/-- The logs, the oldest first. -/
def renderLogs (logs : List LogEntry) : String :=
  if logs.length = 0 then loading "(none)" else String.join (logs.map logItem)

end Page

end EvmDebugger
