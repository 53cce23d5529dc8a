import EvmDebugger.Cache.Paths

/-!
# Two readers of the same string

A transaction hash is read twice. `canonicalize_tx_hash` tries the library first, and if that fails
takes a prefix away, in either case, and tries again. `fetch_tx_info` has a normalisation of its
own: it looks for the prefix, in either case, and puts one in front if there is none. Then it asks
the library, once.

Both are there for the strings that a person may type, with white space around them, a prefix or
none, and digits of either case; and the first reader accepts just these
(`EvmDebugger.canonicalizeTxHash_eq_ok_iff`). But the library knows the prefix in lower case only.
The second reader sees the other one, leaves it where it is, and is told that this is no hash: it
accepts what the first one does, less what is written with `0X`
(`EvmDebugger.exists_txLookup_iff`).
-/

namespace EvmDebugger

/-- Sixty-four hexadecimal digits of either case. -/
def HashDigits (digits : String) : Prop :=
  digits.toList.length = 64 ∧ ∀ c ∈ digits.toList, (Text.toDigit 16 c).isSome = true

/-- **The spelling of a canonical hash**: up to white space at the ends, one of the prefixes and
sixty-four digits; in lower case and with the first prefix, they are the canonical hash. -/
def Spells (prefixes : List String) (s k : String) : Prop :=
  ∃ pre digits, Text.trim s = pre ++ digits ∧ pre ∈ prefixes ∧ HashDigits digits ∧
    k = "0x" ++ Text.asciiLower digits

/-- The string is written with a prefix in upper case. -/
def UpperPrefixed (s : String) : Prop :=
  ∃ digits, Text.trim s = "0X" ++ digits ∧ HashDigits digits

variable {s k digits : String}

/-! ### Digits and hashes -/

/-- Digits are read as a hash, and that hash is printed in lower case. -/
theorem HashDigits.exists_read (h : HashDigits digits) :
    ∃ g : B256, Hex.read digits.toList = some g.toNat ∧
      hexHash g = "0x" ++ Text.asciiLower digits := by
  obtain ⟨n, hn⟩ := Hex.exists_read h.2
  have hlt : n < 2 ^ 256 := (Hex.read_lt hn).trans_eq (by rw [h.1]; decide)
  have hfixed := Hex.fixed_of_read hn
  rw [h.1] at hfixed
  refine ⟨BitVec.ofNat 256 n, ?_, ?_⟩
  · rw [BitVec.toNat_ofNat, Nat.mod_eq_of_lt hlt, hn]
  · rw [hexHash, BitVec.toNat_ofNat, Nat.mod_eq_of_lt hlt, hfixed, Text.asciiLower]

/-- What is read at the width of a hash is such digits. -/
theorem hashDigits_of_read {n : ℕ} (hlen : digits.toList.length = 64)
    (h : Hex.read digits.toList = some n) : HashDigits digits := ⟨hlen, Hex.isSome_of_read h⟩

/-- The hash that is read from digits, printed. -/
theorem hexHash_of_read {g : B256} (hlen : digits.toList.length = 64)
    (h : Hex.read digits.toList = some g.toNat) : hexHash g = "0x" ++ Text.asciiLower digits := by
  obtain ⟨g', hg', hprint⟩ := (hashDigits_of_read hlen h).exists_read
  rw [BitVec.eq_of_toNat_eq (Option.some.inj (h.symm.trans hg')), hprint]

/-! ### The first reader -/

/-- **What `canonicalize_tx_hash` accepts, and what it makes of it.** -/
theorem canonicalizeTxHash_eq_ok_iff :
    canonicalizeTxHash s = .ok k ↔ Spells ["", "0x", "0X"] s k := by
  constructor
  · intro h
    obtain ⟨g, ⟨pre, digits, hs, hpre, hlen, hread⟩, rfl⟩ := denotes_of_canonicalize h
    exact ⟨pre, digits, hs, by simpa using hpre, hashDigits_of_read hlen hread,
      hexHash_of_read hlen hread⟩
  · rintro ⟨pre, digits, hs, hpre, hdigits, rfl⟩
    obtain ⟨g, hread, hprint⟩ := hdigits.exists_read
    have hdenotes : Denotes s g :=
      ⟨pre, digits, hs, by simpa using hpre, hdigits.1, hread⟩
    rw [hdenotes.canonicalize, hprint]

/-! ### The second reader -/

/-- What the library is asked to read. -/
def normalizedInput (raw : String) : String :=
  if (Text.stripPrefix "0x" raw).isSome || (Text.stripPrefix "0X" raw).isSome then raw
  else "0x" ++ raw

/-- The library decides. -/
theorem exists_txLookup :
    (∃ look, txLookup s = .ok look ∧ hexHash look.hash = k) ↔
      ∃ g, parseB256 (normalizedInput (Text.trim s)) = some g ∧ hexHash g = k := by
  have hinput : (if (Text.stripPrefix "0x" (Text.trim s)).isSome ||
      (Text.stripPrefix "0X" (Text.trim s)).isSome then Text.trim s else "0x" ++ Text.trim s) =
    normalizedInput (Text.trim s) := rfl
  unfold txLookup
  dsimp only
  rw [hinput]
  cases hparse : parseB256 (normalizedInput (Text.trim s)) with
  | none => simp
  | some g => simp

/-- **What the library is asked to read, it reads** if it is digits, with the prefix in lower case
or without. -/
theorem parse_normalizedInput {raw : String} {g : B256} :
    parseB256 (normalizedInput raw) = some g ↔
      ∃ pre digits, raw = pre ++ digits ∧ pre ∈ ["", "0x"] ∧ digits.toList.length = 64 ∧
        Hex.read digits.toList = some g.toNat := by
  rw [parseB256_eq_some, normalizedInput]
  constructor
  · rintro ⟨digits, hs, hlen, hread⟩
    split at hs
    · rcases hs with rfl | rfl
      · exact ⟨"", _, String.empty_append.symm, by simp, hlen, hread⟩
      · exact ⟨"0x", digits, rfl, by simp, hlen, hread⟩
    · rcases hs with hs | hs
      · -- what starts with a prefix is not all digits
        exact absurd hs.symm (ne_append_of_read hread (x := 'x') (by simp) (by decide))
      · obtain rfl := (String.append_right_inj _).mp hs
        exact ⟨"", _, String.empty_append.symm, by simp, hlen, hread⟩
  · rintro ⟨pre, digits, rfl, hpre, hlen, hread⟩
    refine ⟨digits, Or.inr ?_, hlen, hread⟩
    rcases (by simpa using hpre : pre = "" ∨ pre = "0x") with rfl | rfl
    · rw [String.empty_append, (stripPrefix_digits hread).1, (stripPrefix_digits hread).2]
      rfl
    · rw [Text.stripPrefix_eq_some.mpr rfl]
      rfl

/-- **What `fetch_tx_info` accepts, and what it makes of it.** -/
theorem exists_txLookup_iff :
    (∃ look, txLookup s = .ok look ∧ hexHash look.hash = k) ↔ Spells ["", "0x"] s k := by
  rw [exists_txLookup]
  constructor
  · rintro ⟨g, hparse, rfl⟩
    obtain ⟨pre, digits, hs, hpre, hlen, hread⟩ := parse_normalizedInput.mp hparse
    exact ⟨pre, digits, hs, hpre, hashDigits_of_read hlen hread, hexHash_of_read hlen hread⟩
  · rintro ⟨pre, digits, hs, hpre, hdigits, rfl⟩
    obtain ⟨g, hread, hprint⟩ := hdigits.exists_read
    exact ⟨g, parse_normalizedInput.mpr ⟨pre, digits, hs, hpre, hdigits.1, hread⟩, hprint⟩

/-! ### The difference -/

/-- There is no white space to trim in a prefix and digits. -/
theorem HashDigits.trim_upper (h : HashDigits digits) :
    Text.trim ("0X" ++ digits) = "0X" ++ digits := by
  refine Text.trim_eq_self fun c hc => ?_
  rw [String.toList_append] at hc
  rcases List.mem_append.mp hc with hc | hc
  · have hpre : c = '0' ∨ c = 'X' := by simpa using hc
    rcases hpre with rfl | rfl <;> rfl
  · exact Text.isWhitespace_of_toDigit (h.2 c hc)

/-- With another prefix, it is another string. -/
theorem not_spells_of_upperPrefixed (h : UpperPrefixed s) : ¬Spells ["", "0x"] s k := by
  obtain ⟨digits, hs, hdigits⟩ := h
  rintro ⟨pre, digits', hs', hpre, hdigits', -⟩
  rcases (by simpa using hpre : pre = "" ∨ pre = "0x") with rfl | rfl
  · obtain ⟨n, hread⟩ := Hex.exists_read hdigits'.2
    rw [String.empty_append] at hs'
    exact absurd (hs'.symm.trans hs) (ne_append_of_read hread (x := 'X') (by simp) (by decide))
  · have hchars := congrArg String.toList (hs.symm.trans hs')
    simp at hchars

/-- **Where the two readers agree.** The first one accepts an optional prefix, in either case, and
sixty-four digits, and makes the canonical hash of them; and the second one accepts the same and
makes the same of it, unless the prefix is written in upper case. -/
theorem spellings_agree_iff (s : String) :
    ((∀ k, canonicalizeTxHash s = .ok k ↔ Spells ["", "0x", "0X"] s k) ∧
        ∀ k, canonicalizeTxHash s = .ok k ↔
          ∃ look, txLookup s = .ok look ∧ hexHash look.hash = k) ↔
      ¬UpperPrefixed s := by
  constructor
  · rintro ⟨hfirst, hsame⟩ hupper
    obtain ⟨digits, hs, hdigits⟩ := hupper
    have haccepted := (hfirst _).mpr ⟨"0X", digits, hs, by simp, hdigits, rfl⟩
    exact not_spells_of_upperPrefixed ⟨digits, hs, hdigits⟩
      (exists_txLookup_iff.mp ((hsame _).mp haccepted))
  · intro hnot
    refine ⟨fun k => canonicalizeTxHash_eq_ok_iff, fun k => ?_⟩
    rw [canonicalizeTxHash_eq_ok_iff, exists_txLookup_iff]
    constructor
    · rintro ⟨pre, digits, hs, hpre, hdigits, hk⟩
      refine ⟨pre, digits, hs, ?_, hdigits, hk⟩
      have hne : pre ≠ "0X" := fun h => hnot ⟨digits, h ▸ hs, hdigits⟩
      simp only [List.mem_cons, List.not_mem_nil, or_false] at hpre ⊢
      exact hpre.imp_right fun h => h.resolve_right hne
    · rintro ⟨pre, digits, hs, hpre, hdigits, hk⟩
      exact ⟨pre, digits, hs, List.mem_append_left ["0X"] hpre, hdigits, hk⟩

/-- The hash whose digits are all zeros. -/
def zeroDigits : String := String.ofList (List.replicate 64 '0')

theorem hashDigits_zeroDigits : HashDigits zeroDigits := by
  have hchars : zeroDigits.toList = List.replicate 64 '0' := String.toList_ofList
  constructor
  · rw [hchars, List.length_replicate]
  · intro c hc
    rw [hchars] at hc
    rw [List.eq_of_mem_replicate hc]
    rfl

/-- **Written with `0X`, the first reader accepts it, and the second does not.** -/
theorem not_spellings_agree :
    ¬((∀ k, canonicalizeTxHash ("0X" ++ zeroDigits) = .ok k ↔
          Spells ["", "0x", "0X"] ("0X" ++ zeroDigits) k) ∧
        ∀ k, canonicalizeTxHash ("0X" ++ zeroDigits) = .ok k ↔
          ∃ look, txLookup ("0X" ++ zeroDigits) = .ok look ∧ hexHash look.hash = k) := by
  rintro ⟨hfirst, hsame⟩
  have hdigits := hashDigits_zeroDigits
  have haccepted := (hfirst _).mpr ⟨"0X", zeroDigits, hdigits.trim_upper, by simp, hdigits, rfl⟩
  exact not_spells_of_upperPrefixed ⟨zeroDigits, hdigits.trim_upper, hdigits⟩
    (exists_txLookup_iff.mp ((hsame _).mp haccepted))

end EvmDebugger
