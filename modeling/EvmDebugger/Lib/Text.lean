import Mathlib.Algebra.Ring.Nat
import Mathlib.Data.List.Basic

/-!
# The string functions a server leans on

Trimming, splitting, lower-casing and reading numbers, as the standard library of the
source language documents them. They work on the characters of a string: a string is
taken apart with `String.toList` and put back together with `String.ofList`, so that
every fact about them is a fact about lists.
-/

namespace Text

/-- `char::is_whitespace`: the characters with the Unicode property `White_Space`. -/
def isWhitespace (c : Char) : Bool :=
  (0x9 ≤ c.toNat && c.toNat ≤ 0xD) || c.toNat == 0x20 || c.toNat == 0x85 || c.toNat == 0xA0 ||
    c.toNat == 0x1680 || (0x2000 ≤ c.toNat && c.toNat ≤ 0x200A) || c.toNat == 0x2028 ||
    c.toNat == 0x2029 || c.toNat == 0x202F || c.toNat == 0x205F || c.toNat == 0x3000

/-- `str::trim`: no white space at either end. -/
def trim (s : String) : String :=
  String.ofList ((s.toList.dropWhile isWhitespace).reverse.dropWhile isWhitespace).reverse

/-- `str::to_ascii_lowercase`: the twenty-six capitals, and nothing else, are lowered. -/
def asciiLower (s : String) : String := String.ofList (s.toList.map Char.toLower)

/-- `str::split` at a character: the pieces between its occurrences, empty ones included. -/
def split (sep : Char) (s : String) : List String :=
  (s.toList.splitOn sep).map String.ofList

/-- `str::strip_prefix`. Nobody is to compute with it: the facts below say all there is to say. -/
@[irreducible] def stripPrefix (p s : String) : Option String :=
  if p.toList.isPrefixOf s.toList then some (String.ofList (s.toList.drop p.toList.length))
  else none

/-- `str::ends_with`. -/
def endsWith (s suffix : String) : Bool := suffix.toList.isSuffixOf s.toList

/-- Read a character as a digit of the given base, `char::to_digit`. -/
def toDigit (base : ℕ) (c : Char) : Option ℕ :=
  let value :=
    if '0' ≤ c ∧ c ≤ '9' then some (c.toNat - 48)
    else if 'a' ≤ c ∧ c ≤ 'z' then some (c.toNat - 87)
    else if 'A' ≤ c ∧ c ≤ 'Z' then some (c.toNat - 55)
    else none
  value.filter (· < base)

/-- Read a list of decimal digits; `none` if there is none, or if one is not a digit. -/
def readDigits : List Char → Option ℕ
  | [] => none
  | cs => cs.foldlM (fun n c => (toDigit 10 c).map (n * 10 + ·)) 0

/-- `str::parse` at an unsigned type whose greatest value is `max`: an optional `+`, then
decimal digits, with no overflow. -/
def parseUnsigned (max : ℕ) (s : String) : Option ℕ :=
  (readDigits (match s.toList with
    | '+' :: rest => rest
    | cs => cs)).filter (· ≤ max)

example : parseUnsigned 255 "+042" = some 42 := by decide

/-! ### Decimals

The decimals of a number, as it is printed, are read back digit by digit. -/

/-- A decimal digit is read as what it stands for. -/
theorem toDigit_of_isDigit {c : Char} (h : c.isDigit = true) :
    toDigit 10 c = some (c.toNat - 48) := by
  obtain ⟨hlow, hhigh⟩ := Char.isDigit_iff_toNat.mp h
  have hdigit : '0' ≤ c ∧ c ≤ '9' := ⟨hlow, hhigh⟩
  have hlt : c.toNat - 48 < 10 := by
    have hnine : c.toNat ≤ 57 := hhigh
    omega
  rw [toDigit, if_pos hdigit]
  exact Option.filter_some_pos (by simpa using hlt)

/-- **The decimals of a number are digits that add up to it.** -/
theorem digits_of_toDigits (n : ℕ) :
    (∀ c ∈ Nat.toDigits 10 n, (toDigit 10 c).isSome = true) ∧
      ((Nat.toDigits 10 n).filterMap (toDigit 10)).foldl (fun n d => n * 10 + d) 0 = n := by
  have hdigit : ∀ c ∈ Nat.toDigits 10 n, toDigit 10 c = some (c.toNat - 48) := fun c hc =>
    toDigit_of_isDigit (Nat.isDigit_of_mem_toDigits (by omega) (by omega) hc)
  constructor
  · intro c hc
    rw [hdigit c hc]
    rfl
  · calc ((Nat.toDigits 10 n).filterMap (toDigit 10)).foldl (fun n d => n * 10 + d) 0
        = ((Nat.toDigits 10 n).map fun c => c.toNat - 48).foldl (fun n d => n * 10 + d) 0 := by
          rw [List.filterMap_congr hdigit]
          exact congrArg _ (congrFun List.filterMap_eq_map' _)
      _ = (Nat.toDigits 10 n).foldl (fun n c => 10 * n + (c.toNat - 48)) 0 := by
          rw [List.foldl_map]
          simp only [Nat.mul_comm]
      _ = n := Nat.ofDigitChars_ten_toDigits

/-- **A number other than zero is printed without leading zeros.** -/
theorem head?_toDigits_ne {n : ℕ} (h : 0 < n) : (Nat.toDigits 10 n).head? ≠ some '0' := by
  induction n using Nat.strongRecOn with
  | ind n ih =>
    rcases Nat.lt_or_ge n 10 with hlt | hge
    · rw [Nat.toDigits_of_lt_base hlt]
      exact (show ∀ n < 10, 0 < n → [Nat.digitChar n].head? ≠ some '0' by decide) n hlt h
    · have hrest := ih (n / 10) (by omega) (by omega)
      obtain ⟨c, cs, hcs⟩ :=
        List.exists_cons_of_ne_nil (Nat.toDigits_ne_nil (n := n / 10) (b := 10))
      rw [Nat.toDigits_of_base_le (by omega) hge, hcs]
      rw [hcs] at hrest
      exact hrest

/-! ### Prefixes, white space, and separators -/

/-- **What a prefix is stripped from** is the prefix and what is left. -/
theorem stripPrefix_eq_some {p s r : String} : stripPrefix p s = some r ↔ s = p ++ r := by
  rw [stripPrefix]
  constructor
  · intro h
    split at h
    · next hprefix =>
      obtain ⟨rest, hrest⟩ := List.isPrefixOf_iff_prefix.mp hprefix
      rw [← hrest, List.drop_left, Option.some.injEq] at h
      subst h
      rw [← String.toList_inj, String.toList_append, String.toList_ofList, hrest]
    · exact absurd h (by simp)
  · rintro rfl
    rw [String.toList_append, if_pos (List.isPrefixOf_iff_prefix.mpr (List.prefix_append _ _)),
      List.drop_left, String.ofList_toList]

/-- A string that does not start with the prefix. -/
theorem stripPrefix_eq_none {p s : String} (h : ∀ r, s ≠ p ++ r) : stripPrefix p s = none := by
  cases hs : stripPrefix p s with
  | none => rfl
  | some r => exact absurd (stripPrefix_eq_some.mp hs) (h r)

/-- Take a prefix away, at most so many times. -/
def dropPrefixes (p : List Char) : ℕ → List Char → List Char
  | 0, cs => cs
  | fuel + 1, cs => if p.isPrefixOf cs then dropPrefixes p fuel (cs.drop p.length) else cs

/-- `trim_start_matches(p)`: the prefix is taken away as often as it is there. -/
def trimStartMatches (p s : String) : String :=
  String.ofList (dropPrefixes p.toList s.toList.length s.toList)

/-- Where the prefix is not, nothing is taken away. -/
theorem dropPrefixes_of_not_prefix {p cs : List Char} (h : ¬p <+: cs) (fuel : ℕ) :
    dropPrefixes p fuel cs = cs := by
  cases fuel with
  | zero => rfl
  | succ fuel => rw [dropPrefixes, if_neg fun hp => h (List.isPrefixOf_iff_prefix.mp hp)]

/-- **A prefix that is there once is taken away.** -/
theorem trimStartMatches_append {p s : String} (hp : p.toList ≠ []) (hs : ¬p.toList <+: s.toList) :
    trimStartMatches p (p ++ s) = s := by
  have hlen : (p ++ s).toList.length = p.toList.length - 1 + s.toList.length + 1 := by
    rw [String.toList_append, List.length_append]
    have hpos := List.length_pos_iff.mpr hp
    omega
  have hprefix : p.toList.isPrefixOf (p.toList ++ s.toList) = true :=
    List.isPrefixOf_iff_prefix.mpr (List.prefix_append _ _)
  rw [trimStartMatches, hlen, String.toList_append, dropPrefixes, if_pos hprefix, List.drop_left,
    dropPrefixes_of_not_prefix hs, String.ofList_toList]

/-- A digit is a character of the ASCII range. -/
theorem toNat_lt_of_toDigit {base : ℕ} {c : Char} {d : ℕ} (h : toDigit base c = some d) :
    c.toNat < 128 := by
  rw [toDigit] at h
  obtain ⟨hvalue, -⟩ := Option.filter_eq_some_iff.mp h
  split at hvalue
  · next hc =>
    have hle : c.toNat ≤ 57 := hc.2
    omega
  · split at hvalue
    · next hc =>
      have hle : c.toNat ≤ 122 := hc.2
      omega
    · split at hvalue
      · next hc =>
        have hle : c.toNat ≤ 90 := hc.2
        omega
      · exact absurd hvalue (by simp)

/-- A digit is no white space. -/
theorem isWhitespace_of_toDigit {c : Char} (h : (toDigit 16 c).isSome = true) :
    isWhitespace c = false := by
  have hall : ∀ n < 128, (toDigit 16 (Char.ofNat n)).isSome = true →
      isWhitespace (Char.ofNat n) = false := by decide
  obtain ⟨d, hd⟩ := Option.isSome_iff_exists.mp h
  have hc := hall c.toNat (toNat_lt_of_toDigit hd)
  rw [Char.ofNat_toNat] at hc
  exact hc h

/-- **Without white space there is nothing to trim.** -/
theorem trim_eq_self {s : String} (h : ∀ c ∈ s.toList, isWhitespace c = false) : trim s = s := by
  have hdrop : ∀ l : List Char, (∀ c ∈ l, isWhitespace c = false) →
      l.dropWhile isWhitespace = l := by
    intro l hl
    cases l with
    | nil => rfl
    | cons c l => rw [List.dropWhile_cons_of_neg (by simp [hl c List.mem_cons_self])]
  rw [trim, hdrop _ h, hdrop _ fun c hc => h c (List.mem_reverse.mp hc), List.reverse_reverse,
    String.ofList_toList]

/-! ### Lower case -/

/-- Only characters of the ASCII range are lowered. -/
theorem toLower_of_le {c : Char} (h : 128 ≤ c.toNat) : c.toLower = c := by
  have hupper : ¬(c.val ≥ 'A'.val ∧ c.val ≤ 'Z'.val) := by
    rintro ⟨-, hle⟩
    have hle' : c.toNat ≤ 90 := hle
    omega
  exact dif_neg hupper

theorem toLower_toLower (c : Char) : c.toLower.toLower = c.toLower := by
  rcases Nat.lt_or_ge c.toNat 128 with hlt | hge
  · have hall : ∀ n < 128, (Char.ofNat n).toLower.toLower = (Char.ofNat n).toLower := by decide
    have hc := hall c.toNat hlt
    rwa [Char.ofNat_toNat] at hc
  · rw [toLower_of_le hge, toLower_of_le hge]

/-- What is lowered to a colon is one. -/
theorem eq_colon_of_toLower {c : Char} (h : c.toLower = ':') : c = ':' := by
  rcases Nat.lt_or_ge c.toNat 128 with hlt | hge
  · have hall : ∀ n < 128, (Char.ofNat n).toLower = ':' → Char.ofNat n = ':' := by decide
    have hc := hall c.toNat hlt
    rw [Char.ofNat_toNat] at hc
    exact hc h
  · exact (toLower_of_le hge).symm.trans h

/-- The characters of a string in lower case. -/
theorem toList_asciiLower (s : String) : (asciiLower s).toList = s.toList.map Char.toLower :=
  String.toList_ofList

theorem asciiLower_append (s t : String) : asciiLower (s ++ t) = asciiLower s ++ asciiLower t := by
  rw [← String.toList_inj, String.toList_append, toList_asciiLower, toList_asciiLower,
    toList_asciiLower, String.toList_append, List.map_append]

/-- **What is in lower case stays as it is.** -/
theorem asciiLower_asciiLower (s : String) : asciiLower (asciiLower s) = asciiLower s := by
  rw [← String.toList_inj, toList_asciiLower, toList_asciiLower, List.map_map]
  exact List.map_congr_left fun c _ => toLower_toLower c

/-! ### Fields -/

/-- **A field ends at the first separator**: what is before it and what is after it are determined
by the whole. -/
theorem append_sep_inj {α : Type*} {sep : α} {a b c d : List α} (ha : sep ∉ a) (hc : sep ∉ c)
    (h : a ++ sep :: b = c ++ sep :: d) : a = c ∧ b = d := by
  induction a generalizing c with
  | nil =>
    cases c with
    | nil => exact ⟨rfl, (List.cons.inj h).2⟩
    | cons y c => exact absurd ((List.cons.inj h).1 ▸ List.mem_cons_self) hc
  | cons x a ih =>
    cases c with
    | nil => exact absurd ((List.cons.inj h).1 ▸ List.mem_cons_self) ha
    | cons y c =>
      obtain ⟨rfl, hrest⟩ := List.cons.inj h
      obtain ⟨rfl, rfl⟩ := ih (fun hmem => ha (List.mem_cons_of_mem x hmem))
        (fun hmem => hc (List.mem_cons_of_mem x hmem)) hrest
      exact ⟨rfl, rfl⟩

/-! ### Slices

The slices that a page shows of a longer text. -/

/-- `slice(0, n)`: the first characters. -/
def slice (n : ℕ) (s : String) : String := String.ofList (s.toList.take n)

/-- `slice(-n)`: the last characters. -/
def sliceEnd (n : ℕ) (s : String) : String :=
  String.ofList (s.toList.drop (s.toList.length - n))

/-- `padStart(width, c)`. -/
def padStart (width : ℕ) (c : Char) (s : String) : String :=
  String.ofList (List.replicate (width - s.toList.length) c ++ s.toList)

/-- The `w` lowest decimals of a number, most significant first. -/
def lastDecimals : ℕ → ℕ → List Char
  | 0, _ => []
  | w + 1, n => lastDecimals w (n / 10) ++ [Nat.digitChar (n % 10)]

/-- Zero is all zeros. -/
theorem lastDecimals_zero (w : ℕ) : lastDecimals w 0 = List.replicate w '0' := by
  induction w with
  | zero => rfl
  | succ w ih =>
    rw [lastDecimals, Nat.zero_div, ih, List.replicate_succ']
    rfl

/-- **With enough zeros in front of it, the end of a number is its lowest decimals.** -/
theorem drop_zeros_toDigits (w n : ℕ) :
    (List.replicate w '0' ++ Nat.toDigits 10 n).drop (Nat.toDigits 10 n).length =
      lastDecimals w n := by
  induction w generalizing n with
  | zero => rw [List.replicate_zero, List.nil_append, List.drop_length, lastDecimals]
  | succ w ih =>
    rcases Nat.lt_or_ge n 10 with hlt | hge
    · rw [Nat.toDigits_of_lt_base hlt, lastDecimals, Nat.div_eq_of_lt hlt, lastDecimals_zero,
        Nat.mod_eq_of_lt hlt, List.replicate_succ]
      rfl
    · have hle : (Nat.toDigits 10 (n / 10)).length + 1 ≤
          (List.replicate (w + 1) '0' ++ Nat.toDigits 10 (n / 10)).length := by
        rw [List.length_append, List.length_replicate]
        omega
      rw [Nat.toDigits_of_base_le (by omega) hge, List.length_append, List.length_singleton,
        ← List.append_assoc, List.drop_append_of_le_length hle, lastDecimals, ← ih (n / 10)]
      rfl

/-- What is shown of a number of which the last `w` decimals are. -/
theorem sliceEnd_repr (w n : ℕ) :
    sliceEnd w (String.ofList (List.replicate w '0') ++ Nat.repr n) =
      String.ofList (lastDecimals w n) := by
  have hlist : (String.ofList (List.replicate w '0') ++ Nat.repr n).toList =
      List.replicate w '0' ++ Nat.toDigits 10 n := by
    rw [String.toList_append, String.toList_ofList, Nat.repr, String.toList_ofList]
  rw [sliceEnd, hlist, List.length_append, List.length_replicate, Nat.add_sub_cancel_left,
    drop_zeros_toDigits]

/-- **Two numbers have the same lowest decimals** if they are the same up to a multiple of the
place value above them. -/
theorem lastDecimals_eq_iff {w m n : ℕ} :
    lastDecimals w m = lastDecimals w n ↔ m % 10 ^ w = n % 10 ^ w := by
  induction w generalizing m n with
  | zero => simp [lastDecimals, Nat.mod_one]
  | succ w ih =>
    have hdigit : Nat.digitChar (m % 10) = Nat.digitChar (n % 10) ↔ m % 10 = n % 10 :=
      ⟨fun h => (show ∀ a < 10, ∀ b < 10, Nat.digitChar a = Nat.digitChar b → a = b by decide) _
        (Nat.mod_lt _ (by omega)) _ (Nat.mod_lt _ (by omega)) h, congrArg _⟩
    rw [lastDecimals, lastDecimals, List.append_singleton_inj, ih, hdigit, Nat.pow_succ',
      Nat.mod_mul, Nat.mod_mul]
    have hm := Nat.mod_lt m (show 0 < 10 by omega)
    have hn := Nat.mod_lt n (show 0 < 10 by omega)
    omega

end Text
