import EvmDebugger.Lib.Text
import Mathlib.Algebra.Ring.Nat
import Mathlib.Data.List.Induction

/-!
# Lower-case hexadecimal renderings

Programs that show words of a fixed width print them in one of two ways: padded to the
width (`Hex.fixed`), or with no leading zero (`Hex.minimal`). Byte strings are printed two
digits a byte (`Hex.encode`).

The padded rendering is the one that serves as a *key*: on numbers that fit the width it
is injective (`Hex.fixed_inj`), so two words are the same exactly when their renderings are.

What is printed is read back by `Hex.read`, which accepts digits of either case. A rendering is
read as what it renders (`Hex.read_fixed`, `Hex.read_minimal`), and nothing that is read does not
fit its length (`Hex.read_lt`); printed again, it is what it was, in lower case
(`Hex.fixed_of_read`). Byte strings are read back by `Hex.decode` (`Hex.decode_encode`).
-/

namespace Hex

/-- The `w` lowest hexadecimal digits of `n`, most significant first. -/
def fixed : ℕ → ℕ → List Char
  | 0, _ => []
  | w + 1, n => fixed w (n / 16) ++ [Nat.digitChar (n % 16)]

/-- The hexadecimal digits of `n`, with no leading zero; a lone `0` for zero. -/
def minimal (n : ℕ) : List Char := Nat.toDigits 16 n

/-- Two digits for each byte. -/
def encode (bytes : List UInt8) : List Char := bytes.flatMap fun b => fixed 2 b.toNat

/-- The sixteen digits are different characters. -/
theorem digitChar_inj {a b : ℕ} (ha : a < 16) (hb : b < 16)
    (h : Nat.digitChar a = Nat.digitChar b) : a = b :=
  (show ∀ a < 16, ∀ b < 16, Nat.digitChar a = Nat.digitChar b → a = b by decide) a ha b hb h

/-- **Equal padded renderings render equal numbers**, as long as both fit the width. -/
theorem fixed_inj {w m n : ℕ} (hm : m < 16 ^ w) (hn : n < 16 ^ w)
    (h : fixed w m = fixed w n) : m = n := by
  induction w generalizing m n with
  | zero =>
    rw [Nat.pow_zero] at hm hn
    omega
  | succ w ih =>
    rw [Nat.pow_succ] at hm hn
    obtain ⟨hhigh, hlow⟩ := List.append_inj' h rfl
    have hdiv : m / 16 = n / 16 := by
      refine ih (Nat.div_lt_of_lt_mul ?_) (Nat.div_lt_of_lt_mul ?_) hhigh
      · rwa [Nat.mul_comm]
      · rwa [Nat.mul_comm]
    have hmod : m % 16 = n % 16 :=
      digitChar_inj (Nat.mod_lt _ (by omega)) (Nat.mod_lt _ (by omega)) (List.cons.inj hlow).1
    omega

/-! ### Reading -/

/-- Read hexadecimal digits of either case, most significant first. -/
def read (cs : List Char) : Option ℕ :=
  cs.foldlM (fun n c => (Text.toDigit 16 c).map (n * 16 + ·)) 0

theorem read_snoc (cs : List Char) (c : Char) :
    read (cs ++ [c]) = (read cs).bind fun n => (Text.toDigit 16 c).map (n * 16 + ·) := by
  rw [read, List.foldlM_append]
  show ((read cs).bind fun n => List.foldlM _ n [c]) = _
  congr 1
  funext n
  simp

/-- The last digit, and what is read before it. -/
theorem read_snoc_eq_some {cs : List Char} {c : Char} {n : ℕ} :
    read (cs ++ [c]) = some n ↔
      ∃ m d, read cs = some m ∧ Text.toDigit 16 c = some d ∧ n = m * 16 + d := by
  rw [read_snoc, Option.bind_eq_some_iff]
  constructor
  · rintro ⟨m, hm, hlast⟩
    obtain ⟨d, hd, rfl⟩ := Option.map_eq_some_iff.mp hlast
    exact ⟨m, d, hm, hd, rfl⟩
  · rintro ⟨m, d, hm, hd, rfl⟩
    exact ⟨m, hm, Option.map_eq_some_iff.mpr ⟨d, hd, rfl⟩⟩

/-- A digit is below the base. -/
theorem toDigit_lt {c : Char} {d : ℕ} (h : Text.toDigit 16 c = some d) : d < 16 := by
  rw [Text.toDigit] at h
  simpa using (Option.filter_eq_some_iff.mp h).2

/-- **A number has room in its digits.** -/
theorem read_lt {cs : List Char} {n : ℕ} (h : read cs = some n) : n < 16 ^ cs.length := by
  induction cs using List.reverseRecOn generalizing n with
  | nil =>
    obtain rfl := Option.some.inj h
    exact Nat.one_pos
  | append_singleton cs c ih =>
    obtain ⟨m, d, hm, hd, rfl⟩ := read_snoc_eq_some.mp h
    have hlt := ih hm
    have hdlt := toDigit_lt hd
    rw [List.length_append, List.length_singleton, Nat.pow_succ]
    omega

/-- The sixteen digits are read as what they stand for. -/
theorem toDigit_digitChar {d : ℕ} (h : d < 16) : Text.toDigit 16 (Nat.digitChar d) = some d :=
  (show ∀ d < 16, Text.toDigit 16 (Nat.digitChar d) = some d by decide) d h

/-- **A padded rendering is read back.** -/
theorem read_fixed {w n : ℕ} (h : n < 16 ^ w) : read (fixed w n) = some n := by
  induction w generalizing n with
  | zero =>
    rw [Nat.pow_zero] at h
    obtain rfl : n = 0 := by omega
    rfl
  | succ w ih =>
    rw [Nat.pow_succ] at h
    have hdiv : n / 16 < 16 ^ w := Nat.div_lt_of_lt_mul (by rwa [Nat.mul_comm])
    refine read_snoc_eq_some.mpr ⟨n / 16, n % 16, ih hdiv, ?_, (Nat.div_add_mod' n 16).symm⟩
    exact toDigit_digitChar (Nat.mod_lt n (by omega))

/-- What is read is all digits. -/
theorem isSome_of_read {cs : List Char} {n : ℕ} (h : read cs = some n) :
    ∀ c ∈ cs, (Text.toDigit 16 c).isSome = true := by
  induction cs using List.reverseRecOn generalizing n with
  | nil => exact fun c hc => absurd hc List.not_mem_nil
  | append_singleton cs c ih =>
    obtain ⟨m, d, hm, hd, rfl⟩ := read_snoc_eq_some.mp h
    intro x hx
    rcases List.mem_append.mp hx with hx | hx
    · exact ih hm x hx
    · rw [List.mem_singleton.mp hx, hd]
      rfl

@[simp] theorem length_fixed (w n : ℕ) : (fixed w n).length = w := by
  induction w generalizing n with
  | zero => rfl
  | succ w ih => rw [fixed, List.length_append, ih, List.length_singleton]

/-- **The first digits of a padded rendering** render what is left of the number without the
others. -/
theorem take_fixed (w k n : ℕ) : (fixed (w + k) n).take w = fixed w (n / 16 ^ k) := by
  induction k generalizing n with
  | zero => rw [Nat.add_zero, Nat.pow_zero, Nat.div_one, List.take_of_length_le (by simp)]
  | succ k ih =>
    rw [← Nat.add_assoc, fixed, List.take_append_of_le_length (by simp), ih, Nat.div_div_eq_div_mul,
      ← Nat.pow_succ']

/-- A rendering is made of digits. -/
theorem mem_fixed {w n : ℕ} {c : Char} (h : c ∈ fixed w n) : ∃ d < 16, c = Nat.digitChar d := by
  induction w generalizing n with
  | zero => exact absurd h List.not_mem_nil
  | succ w ih =>
    rcases List.mem_append.mp h with h | h
    · exact ih h
    · exact ⟨n % 16, Nat.mod_lt n (by omega), List.mem_singleton.mp h⟩

/-- Digits are read as some number. -/
theorem exists_read {cs : List Char} (h : ∀ c ∈ cs, (Text.toDigit 16 c).isSome = true) :
    ∃ n, read cs = some n := by
  induction cs using List.reverseRecOn with
  | nil => exact ⟨0, rfl⟩
  | append_singleton cs c ih =>
    obtain ⟨m, hm⟩ := ih fun x hx => h x (List.mem_append_left _ hx)
    obtain ⟨d, hd⟩ :=
      Option.isSome_iff_exists.mp (h c (List.mem_append_right _ (List.mem_singleton_self c)))
    exact ⟨m * 16 + d, read_snoc_eq_some.mpr ⟨m, d, hm, hd, rfl⟩⟩

/-- A digit is printed in lower case. -/
theorem digitChar_of_toDigit {c : Char} {d : ℕ} (h : Text.toDigit 16 c = some d) :
    Nat.digitChar d = c.toLower := by
  have hall : ∀ n < 128, ∀ d, Text.toDigit 16 (Char.ofNat n) = some d →
      Nat.digitChar d = (Char.ofNat n).toLower := by
    have hcheck : ∀ n < 128, (Text.toDigit 16 (Char.ofNat n)).all (fun d =>
        Nat.digitChar d == (Char.ofNat n).toLower) = true := by decide
    intro n hn d hd
    have hn' := hcheck n hn
    rw [hd] at hn'
    exact beq_iff_eq.mp hn'
  have hc := hall c.toNat (Text.toNat_lt_of_toDigit h) d
  rw [Char.ofNat_toNat] at hc
  exact hc h

/-- **What has been read is printed in lower case**, at the width it was read from. -/
theorem fixed_of_read {cs : List Char} {n : ℕ} (h : read cs = some n) :
    fixed cs.length n = cs.map Char.toLower := by
  induction cs using List.reverseRecOn generalizing n with
  | nil => rfl
  | append_singleton cs c ih =>
    obtain ⟨m, d, hm, hd, rfl⟩ := read_snoc_eq_some.mp h
    have hlt := toDigit_lt hd
    have hdiv : (m * 16 + d) / 16 = m := by omega
    have hmod : (m * 16 + d) % 16 = d := by omega
    rw [List.length_append, List.length_singleton, fixed, hdiv, hmod, ih hm,
      digitChar_of_toDigit hd, List.map_append, List.map_singleton]

/-- **A rendering without leading zeros is read back.** -/
theorem read_minimal (n : ℕ) : read (minimal n) = some n := by
  rw [minimal]
  induction n using Nat.strongRecOn with
  | ind n ih =>
    rcases Nat.lt_or_ge n 16 with hlt | hge
    · rw [Nat.toDigits_of_lt_base hlt]
      show read ([] ++ [Nat.digitChar n]) = some n
      exact read_snoc_eq_some.mpr ⟨0, n, rfl, toDigit_digitChar hlt, by omega⟩
    · rw [Nat.toDigits_of_base_le (by omega) hge]
      refine read_snoc_eq_some.mpr ⟨n / 16, n % 16, ih (n / 16) (by omega), ?_, by omega⟩
      exact toDigit_digitChar (Nat.mod_lt n (by omega))

/-- Read a byte string, two digits a byte. -/
def decode : List Char → Option (List UInt8)
  | [] => some []
  | [_] => none
  | a :: b :: rest =>
    match Text.toDigit 16 a, Text.toDigit 16 b, decode rest with
    | some high, some low, some bytes => some (UInt8.ofNat (high * 16 + low) :: bytes)
    | _, _, _ => none

/-- **A byte string is read back.** -/
theorem decode_encode (bytes : List UInt8) : decode (encode bytes) = some bytes := by
  induction bytes with
  | nil => rfl
  | cons b bytes ih =>
    have hhigh : b.toNat / 16 % 16 < 16 := Nat.mod_lt _ (by omega)
    have hlow : b.toNat % 16 < 16 := Nat.mod_lt _ (by omega)
    have hbyte : b.toNat / 16 % 16 * 16 + b.toNat % 16 = b.toNat := by
      have hlt := b.toNat_lt
      omega
    have hcons : encode (b :: bytes) = Nat.digitChar (b.toNat / 16 % 16) ::
        Nat.digitChar (b.toNat % 16) :: encode bytes := by
      rw [encode, List.flatMap_cons]
      rfl
    rw [hcons, decode, toDigit_digitChar hhigh, toDigit_digitChar hlow, ih]
    dsimp only
    rw [hbyte, UInt8.ofNat_toNat]

/-- The rendering of a byte string is made of digits. -/
theorem mem_encode {bytes : List UInt8} {c : Char} (h : c ∈ encode bytes) :
    ∃ d < 16, c = Nat.digitChar d := by
  obtain ⟨b, -, hc⟩ := List.mem_flatMap.mp h
  exact mem_fixed hc

end Hex
