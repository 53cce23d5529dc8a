import EvmDebugger.Lib.Hex
import EvmDebugger.Lib.Writes
import Mathlib.Data.Finmap

/-!
# The data the debugger passes around

The types of `types.rs`, with the words of the virtual machine they are rendered from.
Counters and gas are natural numbers: nothing here wraps, and the one subtraction that
could (`saturating_sub`) is the truncated one of `ℕ`. Hash maps are finite maps, so that
two of them are equal exactly when they hold the same entries.

Everything a snapshot shows is text. Addresses and storage words are rendered at full
width, and that rendering is injective (`EvmDebugger.hexAddress_inj`,
`EvmDebugger.hexWord_inj`): as keys of a map, the strings are as good as the words.
-/

namespace EvmDebugger

/-! ### Words and their renderings -/

/-- An account address. -/
abbrev Address := BitVec 160

/-- A word of the virtual machine's stack. -/
abbrev U256 := BitVec 256

/-- A 32-byte hash. -/
abbrev B256 := BitVec 256

/-- The integers of the records that are written to files: there, the width matters. -/
abbrev U64 := BitVec 64

@[inherit_doc U64] abbrev U128 := BitVec 128

/-- `format!("{:#x}", a)` for an address: all forty digits. -/
def hexAddress (a : Address) : String := "0x" ++ String.ofList (Hex.fixed 40 a.toNat)

/-- `format!("{:#066x}", v)` for a word: zero-padded to sixty-four digits. -/
def hexWord (v : U256) : String := "0x" ++ String.ofList (Hex.fixed 64 v.toNat)

/-- `format!("{:#x}", v)` for a word: no leading zeros. -/
def hexValue (v : U256) : String := "0x" ++ String.ofList (Hex.minimal v.toNat)

/-- `format!("{:#x}", h)` for a hash: all sixty-four digits. -/
def hexHash (h : B256) : String := "0x" ++ String.ofList (Hex.fixed 64 h.toNat)

/-- `format!("0x{:02x}", b)` for a byte. -/
def hexByte (b : UInt8) : String := "0x" ++ String.ofList (Hex.fixed 2 b.toNat)

/-- `hex::encode(bytes)`: two digits a byte and no prefix. -/
def hexEncode (bytes : List UInt8) : String := String.ofList (Hex.encode bytes)

/-- A common prefix cancels. -/
theorem prefixed_inj {p : String} {u v : List Char}
    (h : p ++ String.ofList u = p ++ String.ofList v) : u = v := by
  have hl := congrArg String.toList h
  simpa using hl

/-- **Two addresses with the same rendering are the same.** -/
theorem hexAddress_inj {a b : Address} (h : hexAddress a = hexAddress b) : a = b :=
  BitVec.eq_of_toNat_eq (Hex.fixed_inj a.isLt b.isLt (prefixed_inj h))

/-- **Two words with the same padded rendering are the same.** -/
theorem hexWord_inj {u v : U256} (h : hexWord u = hexWord v) : u = v :=
  BitVec.eq_of_toNat_eq (Hex.fixed_inj u.isLt v.isLt (prefixed_inj h))

/-- **Two hashes with the same rendering are the same.** -/
theorem hexHash_inj {g h : B256} (hgh : hexHash g = hexHash h) : g = h :=
  BitVec.eq_of_toNat_eq (Hex.fixed_inj g.isLt h.isLt (prefixed_inj hgh))

/-! ### Storage writes, grouped by contract -/

/-- `HashMap<String, HashMap<String, String>>`: for each contract, its slots and the
values written to them. -/
abbrev StorageChanges := Finmap fun _ : String => Finmap fun _ : String => String

namespace StorageChanges

/-- `changes.entry(contract).or_default().insert(key, value)`. -/
def record (changes : StorageChanges) (contract key value : String) : StorageChanges :=
  changes.insert contract (((changes.lookup contract).getD ∅).insert key value)

/-- The value the map shows for a slot: a contract and a key. -/
def slot (changes : StorageChanges) (place : String × String) : Option String :=
  (changes.lookup place.1).bind fun slots => slots.lookup place.2

/-- Recording a write given as a pair of a slot and a value. -/
def write (changes : StorageChanges) (w : (String × String) × String) : StorageChanges :=
  changes.record w.1.1 w.1.2 w.2

/-- Recording a list of writes, oldest first. -/
def writeAll (changes : StorageChanges) (ws : List ((String × String) × String)) :
    StorageChanges :=
  ws.foldl write changes

/-- **Recording a write is a point update** of what the map shows. -/
theorem slot_write (m : StorageChanges) (w : (String × String) × String) (k : String × String) :
    (m.write w).slot k = if k = w.1 then some w.2 else m.slot k := by
  obtain ⟨⟨c, key⟩, v⟩ := w
  obtain ⟨c', key'⟩ := k
  unfold write record slot
  by_cases hc : c' = c
  · subst hc
    rw [Finmap.lookup_insert, Option.bind_some]
    by_cases hk : key' = key
    · rw [if_pos (by rw [hk]), hk, Finmap.lookup_insert]
    · rw [if_neg fun h => hk (congrArg Prod.snd h), Finmap.lookup_insert_of_ne _ hk]
      cases m.lookup c' <;> rfl
  · rw [if_neg fun h => hc (congrArg Prod.fst h), Finmap.lookup_insert_of_ne _ hc]

/-- A contract the map holds stays in it. -/
theorem mem_writeAll {m : StorageChanges} {c : String} (h : c ∈ m)
    (ws : List ((String × String) × String)) : c ∈ m.writeAll ws := by
  induction ws generalizing m with
  | nil => exact h
  | cons w ws ih => exact ih (Finmap.mem_insert.mpr (Or.inr h))

/-- Writes to other contracts leave the slots of a contract alone. -/
theorem lookup_writeAll_of_ne {m : StorageChanges} {c : String}
    {ws : List ((String × String) × String)} (h : ∀ w ∈ ws, w.1.1 ≠ c) :
    (m.writeAll ws).lookup c = m.lookup c := by
  induction ws generalizing m with
  | nil => rfl
  | cons w ws ih =>
    have hw : c ≠ w.1.1 := (h w List.mem_cons_self).symm
    have hrest := ih (m := m.write w) fun w' hw' => h w' (List.mem_cons_of_mem w hw')
    exact hrest.trans (Finmap.lookup_insert_of_ne _ hw)

/-- **A list of writes leaves the map as it was** exactly when each slot it writes was last
written the value the map already showed for it. -/
theorem writeAll_eq_self_iff (m : StorageChanges) (ws : List ((String × String) × String)) :
    m.writeAll ws = m ↔ ∀ k v, Writes.last ws k = some v → m.slot k = some v := by
  constructor
  · intro h
    refine (Writes.lookup_foldl_eq_iff slot_write m ws).mp fun k => ?_
    exact congrArg (slot · k) h
  · intro h
    have hslot : ∀ k, (m.writeAll ws).slot k = m.slot k :=
      (Writes.lookup_foldl_eq_iff slot_write m ws).mpr h
    refine Finmap.ext_lookup fun c => ?_
    cases hm : m.lookup c with
    | none =>
      -- no slot of this contract was written
      rw [← hm]
      refine lookup_writeAll_of_ne fun w hw hc => ?_
      obtain ⟨v, hv⟩ := Writes.last_of_mem hw
      have hshown := h w.1 v hv
      rw [slot, hc, hm] at hshown
      exact absurd hshown (by simp)
    | some slots =>
      have hmem : c ∈ m.writeAll ws := mem_writeAll (Finmap.mem_of_lookup_eq_some hm) ws
      obtain ⟨slots', hs'⟩ := Finmap.mem_iff.mp hmem
      rw [hs', Option.some.injEq]
      refine Finmap.ext_lookup fun key => ?_
      have hkey := hslot (c, key)
      rw [slot, slot, hs', hm] at hkey
      exact hkey

end StorageChanges

/-! ### Snapshots and their parts -/

/-- A call frame in the call stack of a snapshot. -/
structure CallFrame where
  depth : ℕ
  contract : String
  caller : String
  value : String
  kind : String
  deriving DecidableEq

/-- A log entry emitted during execution. -/
structure LogEntry where
  contract : String
  topics : List String
  data : String
  deriving DecidableEq

/-- Snapshot of the state of the virtual machine at a given step. -/
structure StepSnapshot where
  stepNumber : ℕ
  pc : ℕ
  opcode : UInt8
  opcodeName : String
  callDepth : ℕ
  gasRemaining : ℕ
  gasUsed : ℕ
  /-- Stack entries as hexadecimal strings, the top of the stack first. -/
  stack : List String
  memorySize : ℕ
  memoryHex : String
  memoryTruncated : Bool
  /-- Storage changes grouped by contract address. -/
  storageChanges : StorageChanges
  callStack : List CallFrame
  logs : List LogEntry
  contractAddress : String
  deriving DecidableEq

/-- Lightweight trace entry, for the full list of opcodes. -/
structure TraceStep where
  step : ℕ
  pc : ℕ
  opcode : UInt8
  opcodeName : String
  deriving DecidableEq

/-- Final execution result. -/
structure ExecutionResultInfo where
  success : Bool
  gasUsed : ℕ
  output : String
  reason : String
  deriving DecidableEq

/-- What the thread of the virtual machine sends, once, after the full execution. -/
inductive ChannelMessage where
  /-- All snapshots collected from the execution. -/
  | allSnapshots (snapshots : List StepSnapshot) (result : Option ExecutionResultInfo)
  /-- The execution failed before its first step. -/
  | error (message : String)
  deriving DecidableEq

/-- State of a debug session, as its clients see it. -/
inductive SessionState where
  | loading
  | paused (snapshot : StepSnapshot)
  | finished (result : ExecutionResultInfo)
  | error (message : String)
  | aborted
  deriving DecidableEq

end EvmDebugger
