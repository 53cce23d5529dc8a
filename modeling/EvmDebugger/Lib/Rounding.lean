import Mathlib.Algebra.Order.Ring.Nat
import Mathlib.Tactic.Ring
import Std.Data.String.ToNat

/-!
# Whole numbers in so many bits

A floating-point number with `p` significant bits has every whole number below `2 ^ p`, and of the
larger ones only some: those that are a power of two times a number of `p` bits (`Rounding.Fits`).
Whoever reads another one gets the nearest that there is, and of two that are equally near the even
one (`Rounding.round`).

To print such a number it is not necessary to print all its digits: any number will do that is read
as the same one, and the usual choice is the one that ends in as many zeros as possible
(`Rounding.shortest`). So what is printed need be neither the number that has been read nor the one
that it has been rounded to, once it has more than `p` bits. But it tells two of the latter apart
(`Rounding.decimal_inj`), and below `2 ^ p` all three are the same (`Rounding.round_of_lt`,
`Rounding.decimal_of_lt`).
-/

namespace Rounding

variable {p d m n x y : ℕ}

/-! ### The nearest multiple -/

/-- The multiple of `d` that is nearest to `n`; of two, the even one. -/
def nearest (d n : ℕ) : ℕ :=
  if 2 * (n % d) < d ∨ 2 * (n % d) = d ∧ n / d % 2 = 0 then n / d * d else (n / d + 1) * d

/-- It is one of the two multiples next to `n`. -/
theorem nearest_eq_or (d n : ℕ) : nearest d n = n / d * d ∨ nearest d n = (n / d + 1) * d := by
  rw [nearest]
  split
  · exact Or.inl rfl
  · exact Or.inr rfl

/-- A multiple is the nearest one itself. -/
theorem nearest_of_dvd (hd : 0 < d) (h : d ∣ n) : nearest d n = n := by
  have hmod := Nat.mod_eq_zero_of_dvd h
  rw [nearest, if_pos (Or.inl (by omega)), Nat.div_mul_cancel h]

/-- It is at most half of `d` away. -/
theorem nearest_near (hd : 0 < d) (n : ℕ) :
    2 * nearest d n ≤ 2 * n + d ∧ 2 * n ≤ 2 * nearest d n + d := by
  have hn := Nat.div_add_mod' n d
  have hlt := Nat.mod_lt n hd
  have hsucc : (n / d + 1) * d = n / d * d + d := by ring
  rw [nearest]
  split <;> omega

/-- A multiple below `n` is not above the nearest one. -/
theorem le_nearest_of_dvd (h : d ∣ m) (hle : m ≤ n) : m ≤ nearest d n := by
  obtain ⟨c, rfl⟩ := h
  rcases Nat.eq_zero_or_pos d with rfl | hd
  · simp
  have hc : c ≤ n / d := (Nat.le_div_iff_mul_le hd).mpr (by rwa [mul_comm])
  rw [mul_comm]
  rcases nearest_eq_or d n with heq | heq <;> rw [heq]
  · exact Nat.mul_le_mul_right d hc
  · exact Nat.mul_le_mul_right d (hc.trans (Nat.le_succ _))

/-! ### Rounding -/

/-- The distance of the numbers of `p` bits, around `n`. -/
def ulp (p n : ℕ) : ℕ := 2 ^ (n.log2 + 1 - p)

/-- **What a number is read as**, in `p` bits. -/
def round (p n : ℕ) : ℕ := nearest (ulp p n) n

/-- **There is such a number** of `p` bits. -/
def Fits (p n : ℕ) : Prop := ∃ m e, m < 2 ^ p ∧ n = m * 2 ^ e

theorem ulp_pos (p n : ℕ) : 0 < ulp p n := Nat.two_pow_pos _

theorem fits_of_lt (h : n < 2 ^ p) : Fits p n := ⟨n, 0, h, by simp⟩

/-- **A number that there is is read as itself.** -/
theorem round_of_fits (h : Fits p n) : round p n = n := by
  obtain ⟨m, e, hm, rfl⟩ := h
  refine nearest_of_dvd (ulp_pos p _) ?_
  rcases Nat.eq_zero_or_pos m with rfl | hpos
  · simp
  · have hlt : m * 2 ^ e < 2 ^ (p + e) := by
      rw [pow_add]
      exact Nat.mul_lt_mul_of_pos_right hm (Nat.two_pow_pos e)
    have hne : m * 2 ^ e ≠ 0 := (Nat.mul_pos hpos (Nat.two_pow_pos e)).ne'
    have hlog := (Nat.log2_lt hne).mpr hlt
    exact (Nat.pow_dvd_pow 2 (by omega)).trans (Nat.dvd_mul_left _ m)

/-- A small number is. -/
theorem round_of_lt (h : n < 2 ^ p) : round p n = n := round_of_fits (fits_of_lt h)

/-- **What is read, there is.** -/
theorem fits_round (hp : 0 < p) (n : ℕ) : Fits p (round p n) := by
  obtain ⟨q, rfl⟩ : ∃ q, p = q + 1 := ⟨p - 1, by omega⟩
  obtain ⟨e, he⟩ : ∃ e, n.log2 + 1 - (q + 1) = e := ⟨_, rfl⟩
  have hlt : n < 2 ^ (q + 1) * 2 ^ e := by
    rw [← pow_add]
    exact Nat.lt_log2_self.trans_le (Nat.pow_le_pow_right (by decide) (by omega))
  have hdiv : n / 2 ^ e < 2 ^ (q + 1) := Nat.div_lt_of_lt_mul (by rwa [mul_comm])
  rw [round, ulp, he]
  rcases nearest_eq_or (2 ^ e) n with heq | heq
  · exact ⟨n / 2 ^ e, e, hdiv, heq⟩
  · rcases Nat.lt_or_ge (n / 2 ^ e + 1) (2 ^ (q + 1)) with hsmall | hlarge
    · exact ⟨n / 2 ^ e + 1, e, hsmall, heq⟩
    · -- the next power of two
      have hpow : n / 2 ^ e + 1 = 2 ^ q * 2 := by
        rw [pow_succ] at hdiv hlarge
        omega
      refine ⟨2 ^ q, e + 1, Nat.pow_lt_pow_right (by decide) (by omega), ?_⟩
      rw [heq, hpow]
      ring

/-- Nothing changes if it is read again. -/
theorem round_round (hp : 0 < p) (n : ℕ) : round p (round p n) = round p n :=
  round_of_fits (fits_round hp n)

/-- A number with more bits is not read as one with less. -/
theorem le_round (hp : 0 < p) (h : 2 ^ p ≤ n) : 2 ^ p ≤ round p n := by
  have hne : n ≠ 0 := ((Nat.two_pow_pos p).trans_le h).ne'
  have hlog : p ≤ n.log2 := (Nat.le_log2 hne).mpr h
  have hdvd : ulp p n ∣ 2 ^ n.log2 := Nat.pow_dvd_pow 2 (by omega)
  exact (Nat.pow_le_pow_right (by decide) hlog).trans
    (le_nearest_of_dvd hdvd (Nat.log2_self_le hne))

/-- **Only a small number is read as a small number**, which is itself. -/
theorem eq_of_round_lt (hp : 0 < p) (h : round p n < 2 ^ p) : round p n = n := by
  rcases Nat.lt_or_ge n (2 ^ p) with hlt | hge
  · exact round_of_lt hlt
  · exact absurd (le_round hp hge) (Nat.not_le.mpr h)

/-- **What is read is right to `p` bits.** -/
theorem round_near (p n : ℕ) :
    2 ^ p * round p n ≤ 2 ^ p * n + n ∧ 2 ^ p * n ≤ 2 ^ p * round p n + n := by
  rcases Nat.lt_or_ge n (2 ^ p) with hlt | hge
  · rw [round_of_lt hlt]
    omega
  have hne : n ≠ 0 := ((Nat.two_pow_pos p).trans_le hge).ne'
  have hlog : p ≤ n.log2 := (Nat.le_log2 hne).mpr hge
  -- the distance is small, compared with the number
  have hulp : 2 ^ p * ulp p n ≤ 2 * n := by
    have hpow : 2 ^ p * ulp p n = 2 * 2 ^ n.log2 := by
      rw [ulp, ← pow_add, ← pow_succ']
      congr 1
      omega
    rw [hpow]
    exact Nat.mul_le_mul_left 2 (Nat.log2_self_le hne)
  obtain ⟨habove, hbelow⟩ := nearest_near (ulp_pos p n) n
  have habove := Nat.mul_le_mul_left (2 ^ p) habove
  have hbelow := Nat.mul_le_mul_left (2 ^ p) hbelow
  rw [mul_add, mul_left_comm, mul_left_comm (2 ^ p) 2] at habove hbelow
  rw [round]
  omega

/-! ### Printing -/

/-- Of the two multiples of `d` next to `x`, the one that is read as `x`; of two, the nearer one. -/
def near (p d x : ℕ) : Option ℕ :=
  let below := x / d * d
  let above := below + d
  if round p below = x ∧ (round p above = x → x - below ≤ above - x) then some below
  else if round p above = x then some above
  else none

/-- **A number that is read as `x`** and ends in as many zeros as possible, but no more than so
many. -/
def shortest (p x : ℕ) : ℕ → ℕ
  | 0 => x
  | zeros + 1 => (near p (10 ^ (zeros + 1)) x).getD (shortest p x zeros)

/-- **What is printed** of a number of `p` bits, in decimals. -/
def decimal (p x : ℕ) : String := Nat.repr (shortest p x (Nat.repr x).length)

theorem round_near_eq (h : near p d x = some m) : round p m = x := by
  rw [near] at h
  split at h
  · next hbelow =>
    obtain rfl := Option.some.inj h
    exact hbelow.1
  · split at h
    · next habove =>
      obtain rfl := Option.some.inj h
      exact habove
    · exact absurd h (by simp)

/-- **What is printed is read as what it was.** -/
theorem round_shortest (hx : round p x = x) (zeros : ℕ) : round p (shortest p x zeros) = x := by
  induction zeros with
  | zero => exact hx
  | succ zeros ih =>
    rw [shortest]
    cases hnear : near p (10 ^ (zeros + 1)) x with
    | none => exact ih
    | some m => exact round_near_eq hnear

/-- **Small numbers are printed as they are.** -/
theorem decimal_of_lt (hp : 0 < p) (h : x < 2 ^ p) : decimal p x = Nat.repr x := by
  have hshortest := round_shortest (round_of_lt h) (Nat.repr x).length
  have hsame := eq_of_round_lt hp (n := shortest p x (Nat.repr x).length) (by rwa [hshortest])
  rw [decimal, ← hsame, hshortest]

/-- **Different numbers are printed differently.** -/
theorem decimal_inj (hx : round p x = x) (hy : round p y = y) :
    decimal p x = decimal p y ↔ x = y := by
  refine ⟨fun h => ?_, fun h => by rw [h]⟩
  have hsame := Nat.repr_inj.mp h
  rw [← round_shortest hx (Nat.repr x).length, hsame]
  exact round_shortest hy _

/-- The largest number of sixty-four bits, as it is printed when read with fifty-three. -/
example : decimal 53 (round 53 (2 ^ 64 - 1)) = "18446744073709552000" := by decide

end Rounding
