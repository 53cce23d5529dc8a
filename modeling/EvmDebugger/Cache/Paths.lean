import EvmDebugger.Types
import Std.Data.String.ToNat

/-!
# Where things are cached

Two things are kept in the directory `cache/`: what is known of a transaction, in a file named
after its hash, and the trace of its replay, in a file named after the chain, the block and the
hash. What a client asks for is a string; `canonicalize_tx_hash` makes a hash of it, and it is the
hash that names the files.

`EvmDebugger.Denotes` says which strings stand for which hash: white space at the ends does not
count, the prefix may be there or not, and the digits may be of either case. The code accepts just
these strings (`EvmDebugger.denotes_of_canonicalize`), though it takes two attempts to do so. And
the names keep apart what is different, and nothing else (`EvmDebugger.cachePaths_injective`):
chain, block and hash are read back from the name of a trace, for none of them contains the
separator; and no name contains anything that a path is made of.
-/

namespace EvmDebugger

/-! ### Hashes from strings -/

/-- `FixedBytes::<N>::from_str`: a prefix `0x`, in lower case, or none, and two digits a byte. -/
def parseFixedBytes (size : ℕ) (s : String) : Option ℕ :=
  let digits := ((Text.stripPrefix "0x" s).getD s).toList
  if digits.length = 2 * size then Hex.read digits else none

/-- `B256::from_str`. -/
def parseB256 (s : String) : Option B256 := (parseFixedBytes 32 s).map (BitVec.ofNat 256)

/-- The prefix in either case, stripped if it is there. -/
def stripHexPrefix (s : String) : String :=
  ((Text.stripPrefix "0x" s).or (Text.stripPrefix "0X" s)).getD s

/-- `canonicalize_tx_hash`. -/
def canonicalizeTxHash (txHash : String) : Except String String :=
  let trimmed := Text.trim txHash
  match parseB256 trimmed with
  | some h => .ok (hexHash h)
  | none =>
    -- the library knows no prefix in upper case: the second attempt is for that one
    match parseB256 ("0x" ++ stripHexPrefix trimmed) with
    | some h => .ok (hexHash h)
    | none => .error "invalid tx hash"

/-! ### The paths -/

/-- Where `fetch_tx_info` looks for a transaction, and what it takes the hash to be. -/
structure TxLookup where
  hash : B256
  cachePath : String
  legacyCachePath : String
  deriving DecidableEq

/-- The path of the file of a transaction. -/
def txCachePath (name : String) : String := "cache/" ++ name ++ ".json"

/-- How `fetch_tx_info` begins: it makes a hash of the string, and two paths. -/
def txLookup (txHash : String) : Except String TxLookup :=
  let raw := Text.trim txHash
  let normalizedInput :=
    if (Text.stripPrefix "0x" raw).isSome || (Text.stripPrefix "0X" raw).isSome then raw
    else "0x" ++ raw
  match parseB256 normalizedInput with
  | none => .error ("parsing tx hash: " ++ txHash)
  | some hash =>
    .ok { hash := hash
          cachePath := txCachePath (hexHash hash)
          legacyCachePath := txCachePath raw }

/-- `trace_cache_path`. -/
def traceCachePath (txHash : String) (chainId : Option U64) (blockNumber : U64) : String :=
  let chain := (chainId.map fun v => v.toNat.repr).getD "unknown"
  let hash := stripHexPrefix (Text.trim txHash)
  "cache/trace_" ++ chain ++ "_" ++ blockNumber.toNat.repr ++ "_" ++ hash ++ ".json"

/-! ### What a string denotes -/

/-- **The string stands for the hash**: up to white space at the ends, it is an optional prefix
and sixty-four digits. -/
def Denotes (s : String) (h : B256) : Prop :=
  ∃ pre digits : String, Text.trim s = pre ++ digits ∧ (pre = "" ∨ pre = "0x" ∨ pre = "0X") ∧
    digits.toList.length = 64 ∧ Hex.read digits.toList = some h.toNat

variable {s k : String}

/-- A string of digits does not start with anything else. -/
theorem ne_append_of_read {digits pre r : String} {n : ℕ} (h : Hex.read digits.toList = some n)
    {x : Char} (hx : x ∈ pre.toList) (hnot : Text.toDigit 16 x = none) : digits ≠ pre ++ r := by
  rintro rfl
  have hmem : x ∈ (pre ++ r).toList := by
    rw [String.toList_append]
    exact List.mem_append_left _ hx
  have hsome := Hex.isSome_of_read h x hmem
  rw [hnot] at hsome
  exact absurd hsome (by simp)

/-- A string of digits has no prefix to be stripped. -/
theorem stripPrefix_digits {digits : String} {n : ℕ} (h : Hex.read digits.toList = some n) :
    Text.stripPrefix "0x" digits = none ∧ Text.stripPrefix "0X" digits = none :=
  ⟨Text.stripPrefix_eq_none fun _ => ne_append_of_read h (x := 'x') (by simp) (by decide),
    Text.stripPrefix_eq_none fun _ => ne_append_of_read h (x := 'X') (by simp) (by decide)⟩

/-- **What the library reads as a number of so many bytes.** -/
theorem parseFixedBytes_eq_some {size n : ℕ} :
    parseFixedBytes size s = some n ↔
      ∃ digits : String, (s = digits ∨ s = "0x" ++ digits) ∧ digits.toList.length = 2 * size ∧
        Hex.read digits.toList = some n := by
  rw [parseFixedBytes]
  constructor
  · intro h
    split at h
    · next hlen =>
      refine ⟨(Text.stripPrefix "0x" s).getD s, ?_, hlen, h⟩
      cases hs : Text.stripPrefix "0x" s with
      | none => exact Or.inl rfl
      | some r => exact Or.inr (Text.stripPrefix_eq_some.mp hs)
    · exact absurd h (by simp)
  · rintro ⟨digits, hs, hlen, hread⟩
    have hstrip : (Text.stripPrefix "0x" s).getD s = digits := by
      rcases hs with rfl | rfl
      · -- `x` is no digit, so digits are not mistaken for a prefix
        rw [(stripPrefix_digits hread).1, Option.getD_none]
      · rw [Text.stripPrefix_eq_some.mpr rfl, Option.getD_some]
    rw [hstrip, if_pos hlen, hread]

/-- What the library reads as a hash. -/
theorem parseB256_eq_some {h : B256} :
    parseB256 s = some h ↔
      ∃ digits : String, (s = digits ∨ s = "0x" ++ digits) ∧ digits.toList.length = 64 ∧
        Hex.read digits.toList = some h.toNat := by
  rw [parseB256, Option.map_eq_some_iff]
  constructor
  · rintro ⟨n, hn, rfl⟩
    obtain ⟨digits, hs, hlen, hread⟩ := parseFixedBytes_eq_some.mp hn
    refine ⟨digits, hs, hlen, ?_⟩
    have hlt := Hex.read_lt hread
    rw [hlen] at hlt
    rw [hread, BitVec.toNat_ofNat, Nat.mod_eq_of_lt (hlt.trans_eq (by decide))]
  · rintro ⟨digits, hs, hlen, hread⟩
    exact ⟨h.toNat, parseFixedBytes_eq_some.mpr ⟨digits, hs, hlen, hread⟩, by simp⟩

/-- Of a prefix and digits, the digits are left. -/
theorem stripHexPrefix_append {pre digits : String} {n : ℕ}
    (hpre : pre = "" ∨ pre = "0x" ∨ pre = "0X") (hread : Hex.read digits.toList = some n) :
    stripHexPrefix (pre ++ digits) = digits := by
  rw [stripHexPrefix]
  rcases hpre with rfl | rfl | rfl
  · rw [String.empty_append, (stripPrefix_digits hread).1, (stripPrefix_digits hread).2]
    rfl
  · rw [Text.stripPrefix_eq_some.mpr rfl]
    rfl
  · have hnone : Text.stripPrefix "0x" ("0X" ++ digits) = none :=
      Text.stripPrefix_eq_none fun r h => by
        have hchars := congrArg String.toList h
        simp at hchars
    rw [hnone, Text.stripPrefix_eq_some.mpr rfl]
    rfl

/-- What is stripped is one of the prefixes, or nothing. -/
theorem exists_prefix (s : String) :
    ∃ pre, (pre = "" ∨ pre = "0x" ∨ pre = "0X") ∧ s = pre ++ stripHexPrefix s := by
  rw [stripHexPrefix]
  cases hlower : Text.stripPrefix "0x" s with
  | some r => exact ⟨"0x", Or.inr (Or.inl rfl), Text.stripPrefix_eq_some.mp hlower⟩
  | none =>
    cases hupper : Text.stripPrefix "0X" s with
    | some r => exact ⟨"0X", Or.inr (Or.inr rfl), Text.stripPrefix_eq_some.mp hupper⟩
    | none => exact ⟨"", Or.inl rfl, String.empty_append.symm⟩

/-- **What a string denotes is what is left without the prefix.** -/
theorem denotes_iff {h : B256} :
    Denotes s h ↔ (stripHexPrefix (Text.trim s)).toList.length = 64 ∧
      Hex.read (stripHexPrefix (Text.trim s)).toList = some h.toNat := by
  constructor
  · rintro ⟨pre, digits, hs, hpre, hlen, hread⟩
    rw [hs, stripHexPrefix_append hpre hread]
    exact ⟨hlen, hread⟩
  · rintro ⟨hlen, hread⟩
    obtain ⟨pre, hpre, hs⟩ := exists_prefix (Text.trim s)
    exact ⟨pre, _, hs, hpre, hlen, hread⟩

/-- **A string denotes one hash at most.** -/
theorem Denotes.unique {g h : B256} (hg : Denotes s g) (hh : Denotes s h) : g = h :=
  BitVec.eq_of_toNat_eq (Option.some.inj ((denotes_iff.mp hg).2.symm.trans (denotes_iff.mp hh).2))

/-- What the library reads as a hash denotes it. -/
theorem denotes_of_parse {h : B256} (hh : parseB256 (Text.trim s) = some h) : Denotes s h := by
  obtain ⟨digits, hs, hlen, hread⟩ := parseB256_eq_some.mp hh
  rcases hs with hs | hs
  · exact ⟨"", digits, hs.trans String.empty_append.symm, Or.inl rfl, hlen, hread⟩
  · exact ⟨"0x", digits, hs, Or.inr (Or.inl rfl), hlen, hread⟩

/-- With the prefix in lower case, the library reads what is denoted, and nothing else. -/
theorem parse_stripped {h : B256} :
    parseB256 ("0x" ++ stripHexPrefix (Text.trim s)) = some h ↔ Denotes s h := by
  rw [parseB256_eq_some, denotes_iff]
  constructor
  · rintro ⟨digits, hs, hlen, hread⟩
    have hsame : stripHexPrefix (Text.trim s) = digits := by
      rcases hs with hs | hs
      · exact absurd hs.symm (ne_append_of_read hread (x := 'x') (by simp) (by decide))
      · exact (String.append_right_inj _).mp hs
    rw [hsame]
    exact ⟨hlen, hread⟩
  · rintro ⟨hlen, hread⟩
    exact ⟨_, Or.inr rfl, hlen, hread⟩

/-- The first attempt succeeds. -/
theorem canonicalizeTxHash_of_first {h : B256} (hfirst : parseB256 (Text.trim s) = some h) :
    canonicalizeTxHash s = .ok (hexHash h) := by
  unfold canonicalizeTxHash
  dsimp only
  rw [hfirst]

/-- The first attempt fails, and the second decides. -/
theorem canonicalizeTxHash_of_second (hfirst : parseB256 (Text.trim s) = none) :
    canonicalizeTxHash s =
      match parseB256 ("0x" ++ stripHexPrefix (Text.trim s)) with
      | some h => .ok (hexHash h)
      | none => .error "invalid tx hash" := by
  unfold canonicalizeTxHash
  dsimp only
  rw [hfirst]

/-- **A string that denotes a hash is accepted**, as the rendering of that hash. -/
theorem Denotes.canonicalize {h : B256} (hs : Denotes s h) :
    canonicalizeTxHash s = .ok (hexHash h) := by
  cases hfirst : parseB256 (Text.trim s) with
  | some g =>
    rw [canonicalizeTxHash_of_first hfirst, (denotes_of_parse hfirst).unique hs]
  | none => rw [canonicalizeTxHash_of_second hfirst, parse_stripped.mpr hs]

/-- **And nothing else is accepted.** -/
theorem denotes_of_canonicalize (h : canonicalizeTxHash s = .ok k) :
    ∃ g, Denotes s g ∧ k = hexHash g := by
  cases hfirst : parseB256 (Text.trim s) with
  | some g =>
    rw [canonicalizeTxHash_of_first hfirst] at h
    exact ⟨g, denotes_of_parse hfirst, (Except.ok.inj h).symm⟩
  | none =>
    rw [canonicalizeTxHash_of_second hfirst] at h
    cases hsecond : parseB256 ("0x" ++ stripHexPrefix (Text.trim s)) with
    | some g =>
      rw [hsecond] at h
      exact ⟨g, parse_stripped.mp hsecond, (Except.ok.inj h).symm⟩
    | none =>
      rw [hsecond] at h
      exact absurd h (by simp)

/-! ### Renderings of hashes -/

/-- The digits of a hash are read back. -/
theorem read_hash (h : B256) : Hex.read (Hex.fixed 64 h.toNat) = some h.toNat :=
  Hex.read_fixed (h.isLt.trans_eq (by decide))

/-- Without its prefix, a hash is its digits. -/
theorem stripHexPrefix_hexHash (h : B256) :
    stripHexPrefix (hexHash h) = String.ofList (Hex.fixed 64 h.toNat) := by
  refine stripHexPrefix_append (Or.inr (Or.inl rfl)) (n := h.toNat) ?_
  rw [String.toList_ofList]
  exact read_hash h

/-- There is no white space in a hash. -/
theorem trim_hexHash (h : B256) : Text.trim (hexHash h) = hexHash h := by
  refine Text.trim_eq_self fun c hc => ?_
  rw [hexHash, String.toList_append] at hc
  rcases List.mem_append.mp hc with hc | hc
  · have hpre : c = '0' ∨ c = 'x' := by simpa using hc
    rcases hpre with rfl | rfl <;> rfl
  · rw [String.toList_ofList] at hc
    obtain ⟨d, hd, rfl⟩ := Hex.mem_fixed hc
    exact (show ∀ d < 16, Text.isWhitespace (Nat.digitChar d) = false by decide) d hd

/-- **The rendering of a hash denotes it.** -/
theorem denotes_hexHash (h : B256) : Denotes (hexHash h) h := by
  refine ⟨"0x", String.ofList (Hex.fixed 64 h.toNat), trim_hexHash h, Or.inr (Or.inl rfl), ?_, ?_⟩
  · rw [String.toList_ofList, Hex.length_fixed]
  · rw [String.toList_ofList]
    exact read_hash h

/-- **Asked for a canonical hash**, `fetch_tx_info` looks in one place only. -/
theorem txLookup_hexHash (h : B256) :
    txLookup (hexHash h) = .ok ⟨h, txCachePath (hexHash h), txCachePath (hexHash h)⟩ := by
  have hprefix : Text.stripPrefix "0x" (hexHash h) = some (String.ofList (Hex.fixed 64 h.toNat)) :=
    Text.stripPrefix_eq_some.mpr rfl
  have hparse : parseB256 (hexHash h) = some h := by
    refine parseB256_eq_some.mpr ⟨String.ofList (Hex.fixed 64 h.toNat), Or.inr rfl, ?_, ?_⟩
    · rw [String.toList_ofList, Hex.length_fixed]
    · rw [String.toList_ofList]
      exact read_hash h
  unfold txLookup
  dsimp only
  rw [trim_hexHash, hprefix, Option.isSome_some, Bool.true_or, if_pos rfl, hparse]

/-! ### Names -/

/-- The chain, as it stands in the name of a trace. -/
def chainText (chainId : Option U64) : String := (chainId.map fun v => v.toNat.repr).getD "unknown"

/-- The name of the trace of a canonical hash. -/
theorem traceCachePath_hexHash (h : B256) (c : Option U64) (b : U64) :
    traceCachePath (hexHash h) c b =
      "cache/trace_" ++ chainText c ++ "_" ++ b.toNat.repr ++ "_" ++
        String.ofList (Hex.fixed 64 h.toNat) ++ ".json" := by
  unfold traceCachePath
  rw [trim_hexHash, stripHexPrefix_hexHash]
  rfl

/-- A name for a file in a directory: nothing in it has a meaning in a path. -/
structure IsFileName (name : String) : Prop where
  nonempty : name ≠ ""
  slash : '/' ∉ name.toList
  backslash : '\\' ∉ name.toList
  dots : ¬['.', '.'] <:+: name.toList

/-- **The path of a file directly in `cache/`.** -/
def InCache (path : String) : Prop := ∃ name, path = "cache/" ++ name ∧ IsFileName name

/-- A stem without separators and dots, and the suffix, make a name. -/
theorem isFileName_json {stem : String}
    (h : ∀ c ∈ stem.toList, c ≠ '/' ∧ c ≠ '\\' ∧ c ≠ '.') : IsFileName (stem ++ ".json") := by
  have hmem : ∀ c ∈ (stem ++ ".json").toList,
      c ∈ stem.toList ∨ c = '.' ∨ c = 'j' ∨ c = 's' ∨ c = 'o' ∨ c = 'n' := by
    intro c hc
    rw [String.toList_append] at hc
    exact (List.mem_append.mp hc).imp_right fun hc => by simpa using hc
  refine ⟨?_, ?_, ?_, ?_⟩
  · intro hempty
    have hchars := congrArg String.toList hempty
    simp at hchars
  · intro hc
    rcases hmem _ hc with hc | hc
    · exact (h _ hc).1 rfl
    · exact absurd hc (by decide)
  · intro hc
    rcases hmem _ hc with hc | hc
    · exact (h _ hc).2.1 rfl
    · exact absurd hc (by decide)
  · -- there is one dot, and it takes two
    intro hdots
    have hstem : stem.toList.count '.' = 0 := List.count_eq_zero.mpr fun hc => (h _ hc).2.2 rfl
    have hone : (stem ++ ".json").toList.count '.' = 1 := by
      rw [String.toList_append, List.count_append, hstem]
      simp
    have htwo := hdots.sublist.count_le '.'
    rw [hone] at htwo
    exact absurd htwo (by decide)

/-- The digits of a hash are no separators and no dots. -/
theorem ne_of_mem_fixed {w n : ℕ} {c : Char} (hc : c ∈ Hex.fixed w n) :
    c ≠ '/' ∧ c ≠ '\\' ∧ c ≠ '.' ∧ c ≠ '_' := by
  obtain ⟨d, hd, rfl⟩ := Hex.mem_fixed hc
  exact (show ∀ d < 16, Nat.digitChar d ≠ '/' ∧ Nat.digitChar d ≠ '\\' ∧ Nat.digitChar d ≠ '.' ∧
    Nat.digitChar d ≠ '_' by decide) d hd

/-- Nor are the digits of a number. -/
theorem ne_of_mem_repr {n : ℕ} {c : Char} (hc : c ∈ n.repr.toList) :
    c ≠ '/' ∧ c ≠ '\\' ∧ c ≠ '.' ∧ c ≠ '_' := by
  rw [Nat.toList_repr] at hc
  have hdigit := Nat.isDigit_of_mem_toDigits (by omega) (by omega) hc
  refine ⟨?_, ?_, ?_, ?_⟩ <;> rintro rfl <;> exact absurd hdigit (by decide)

/-- Nor is anything in the name of a chain. -/
theorem ne_of_mem_chainText {c : Option U64} {x : Char} (hx : x ∈ (chainText c).toList) :
    x ≠ '/' ∧ x ≠ '\\' ∧ x ≠ '.' ∧ x ≠ '_' := by
  cases c with
  | some v => exact ne_of_mem_repr hx
  | none =>
    have hletters : x = 'u' ∨ x = 'n' ∨ x = 'k' ∨ x = 'o' ∨ x = 'w' := by
      have hx' : x ∈ "unknown".toList := hx
      simp only [String.reduceToList, List.mem_cons, List.not_mem_nil, or_false] at hx'
      tauto
    rcases hletters with rfl | rfl | rfl | rfl | rfl <;> decide

/-- **A chain is told by its text**, and no number is `unknown`. -/
theorem chainText_inj {c d : Option U64} (h : chainText c = chainText d) : c = d := by
  have hunknown : ∀ v : U64, v.toNat.repr ≠ "unknown" := by
    intro v hv
    have hmem : 'u' ∈ v.toNat.repr.toList := by
      rw [hv]
      simp
    rw [Nat.toList_repr] at hmem
    exact absurd (Nat.isDigit_of_mem_toDigits (by omega) (by omega) hmem) (by decide)
  cases c with
  | none =>
    cases d with
    | none => rfl
    | some v => exact absurd h.symm (hunknown v)
  | some u =>
    cases d with
    | none => exact absurd h (hunknown u)
    | some v => rw [BitVec.eq_of_toNat_eq (Nat.repr_inj.mp h)]

theorem inCache_txCachePath (h : B256) : InCache (txCachePath (hexHash h)) := by
  refine ⟨hexHash h ++ ".json", String.append_assoc .., isFileName_json fun c hc => ?_⟩
  rw [hexHash, String.toList_append] at hc
  rcases List.mem_append.mp hc with hc | hc
  · have hpre : c = '0' ∨ c = 'x' := by simpa using hc
    rcases hpre with rfl | rfl <;> decide
  · rw [String.toList_ofList] at hc
    obtain ⟨h₁, h₂, h₃, -⟩ := ne_of_mem_fixed hc
    exact ⟨h₁, h₂, h₃⟩

/-- The characters of the name of a trace: its three fields, and what is between them. -/
theorem toList_traceCachePath (h : B256) (c : Option U64) (b : U64) :
    (traceCachePath (hexHash h) c b).toList =
      "cache/trace_".toList ++ ((chainText c).toList ++ '_' :: (b.toNat.repr.toList ++ '_' ::
        (Hex.fixed 64 h.toNat ++ ".json".toList))) := by
  rw [traceCachePath_hexHash]
  simp

theorem inCache_traceCachePath (h : B256) (c : Option U64) (b : U64) :
    InCache (traceCachePath (hexHash h) c b) := by
  refine ⟨("trace_" ++ chainText c ++ "_" ++ b.toNat.repr ++ "_" ++
    String.ofList (Hex.fixed 64 h.toNat)) ++ ".json", ?_, isFileName_json fun x hx => ?_⟩
  · rw [traceCachePath_hexHash]
    simp [← String.toList_inj]
  · simp only [String.toList_append, List.mem_append, String.toList_ofList] at hx
    rcases hx with ((((hx | hx) | hx) | hx) | hx) | hx
    · have hletters : x = 't' ∨ x = 'r' ∨ x = 'a' ∨ x = 'c' ∨ x = 'e' ∨ x = '_' := by
        simpa using hx
      rcases hletters with rfl | rfl | rfl | rfl | rfl | rfl <;> decide
    · obtain ⟨h₁, h₂, h₃, -⟩ := ne_of_mem_chainText hx
      exact ⟨h₁, h₂, h₃⟩
    · obtain rfl : x = '_' := by simpa using hx
      decide
    · obtain ⟨h₁, h₂, h₃, -⟩ := ne_of_mem_repr hx
      exact ⟨h₁, h₂, h₃⟩
    · obtain rfl : x = '_' := by simpa using hx
      decide
    · obtain ⟨h₁, h₂, h₃, -⟩ := ne_of_mem_fixed hx
      exact ⟨h₁, h₂, h₃⟩

/-- **The name of a trace is read back**, field by field. -/
theorem traceCachePath_inj {h₁ h₂ : B256} {c₁ c₂ : Option U64} {b₁ b₂ : U64}
    (h : traceCachePath (hexHash h₁) c₁ b₁ = traceCachePath (hexHash h₂) c₂ b₂) :
    h₁ = h₂ ∧ c₁ = c₂ ∧ b₁ = b₂ := by
  have hchars := congrArg String.toList h
  rw [toList_traceCachePath, toList_traceCachePath] at hchars
  obtain ⟨hchain, hrest⟩ := Text.append_sep_inj (fun hm => (ne_of_mem_chainText hm).2.2.2 rfl)
    (fun hm => (ne_of_mem_chainText hm).2.2.2 rfl) (List.append_cancel_left hchars)
  obtain ⟨hblock, hhash⟩ := Text.append_sep_inj (fun hm => (ne_of_mem_repr hm).2.2.2 rfl)
    (fun hm => (ne_of_mem_repr hm).2.2.2 rfl) hrest
  have hdigits := List.append_cancel_right hhash
  refine ⟨?_, chainText_inj (String.toList_inj.mp hchain), ?_⟩
  · exact hexHash_inj (congrArg (fun l => "0x" ++ String.ofList l) hdigits)
  · exact BitVec.eq_of_toNat_eq (Nat.repr_inj.mp (String.toList_inj.mp hblock))

/-- The file of a transaction is not that of a trace: the one name starts with a digit. -/
theorem txCachePath_ne_traceCachePath (g h : B256) (c : Option U64) (b : U64) :
    txCachePath (hexHash g) ≠ traceCachePath (hexHash h) c b := by
  intro heq
  have hchars := congrArg String.toList heq
  rw [toList_traceCachePath, txCachePath, hexHash] at hchars
  simp at hchars

/-- **The names keep apart what is different, and nothing else.** For any two strings that are
accepted, and any chains and blocks: the place where a transaction is kept is the same exactly if
the strings denote the same hash; that of a trace, exactly if the hashes, the chains and the
blocks are the same; no transaction is kept where a trace is; and all these are files directly in
the directory of the cache. -/
theorem cachePaths_injective {s₁ s₂ k₁ k₂ : String} (h₁ : canonicalizeTxHash s₁ = .ok k₁)
    (h₂ : canonicalizeTxHash s₂ = .ok k₂) (c₁ c₂ : Option U64) (b₁ b₂ : U64) :
    ∃ (d₁ d₂ : B256) (p₁ p₂ : String), Denotes s₁ d₁ ∧ Denotes s₂ d₂ ∧
      txLookup k₁ = .ok ⟨d₁, p₁, p₁⟩ ∧ txLookup k₂ = .ok ⟨d₂, p₂, p₂⟩ ∧
      (p₁ = p₂ ↔ d₁ = d₂) ∧
      (traceCachePath k₁ c₁ b₁ = traceCachePath k₂ c₂ b₂ ↔ d₁ = d₂ ∧ c₁ = c₂ ∧ b₁ = b₂) ∧
      p₁ ≠ traceCachePath k₂ c₂ b₂ ∧
      InCache p₁ ∧ InCache (traceCachePath k₁ c₁ b₁) := by
  obtain ⟨d₁, hd₁, rfl⟩ := denotes_of_canonicalize h₁
  obtain ⟨d₂, hd₂, rfl⟩ := denotes_of_canonicalize h₂
  refine ⟨d₁, d₂, _, _, hd₁, hd₂, txLookup_hexHash d₁, txLookup_hexHash d₂, ⟨?_, ?_⟩,
    ⟨traceCachePath_inj, ?_⟩, txCachePath_ne_traceCachePath d₁ d₂ c₂ b₂, inCache_txCachePath d₁,
    inCache_traceCachePath d₁ c₁ b₁⟩
  · intro h
    exact hexHash_inj ((String.append_right_inj _).mp ((String.append_left_inj _).mp h))
  · rintro rfl
    rfl
  · rintro ⟨rfl, rfl, rfl⟩
    rfl

/-- Two hashes, and the same block of an unknown chain: the traces are kept apart. -/
theorem cachePaths_sample :
    traceCachePath (hexHash 1) none 7 ≠ traceCachePath (hexHash 2) none 7 := by
  obtain ⟨d₁, d₂, -, -, hd₁, hd₂, -, -, -, htrace, -⟩ :=
    cachePaths_injective (denotes_hexHash 1).canonicalize (denotes_hexHash 2).canonicalize
      none none 7 7
  intro h
  have hsame := (htrace.mp h).1
  rw [hd₁.unique (denotes_hexHash 1), hd₂.unique (denotes_hexHash 2)] at hsame
  exact absurd hsame (by decide)

end EvmDebugger
