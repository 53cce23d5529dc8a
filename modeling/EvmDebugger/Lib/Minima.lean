import Mathlib.Data.List.Basic
import Mathlib.Logic.Function.Iterate
import Mathlib.Order.Lattice
import Mathlib.Order.Nat

/-!
# Running minima

Walk along a list, always from an element to the first later one that is not greater, and off the
end when there is none. The positions one comes by are those at which a minimum is attained, of
all that has been seen since the start (`Minima.IsMin`): on the way from one of them to the next,
everything is greater, so nothing there is a minimum, and everything later has to be compared
with the next one only (`Minima.IsNext.isMin_iff`).

The list is one of elements of any linear order, and the minima are weak: an element that equals
the least one so far counts.
-/

namespace Minima

variable {α : Type*} [LinearOrder α] {l : List α} {i j k : ℕ}

/-- **A running minimum**, from position `i` on: nothing between there and here is less. -/
def IsMin (l : List α) (i j : ℕ) : Prop :=
  i ≤ j ∧ ∃ x, l[j]? = some x ∧ ∀ k y, i ≤ k → k ≤ j → l[k]? = some y → x ≤ y

/-- **The next position** of the walk: the first later element that is not greater, or the end. -/
structure IsNext (l : List α) (i j : ℕ) : Prop where
  lt : i < j
  le : j ≤ l.length
  greater : ∀ k x y, i < k → k < j → l[i]? = some x → l[k]? = some y → x < y
  stops : ∀ x y, l[i]? = some x → l[j]? = some y → y ≤ x

/-- A running minimum is in the list. -/
theorem IsMin.lt_length (h : IsMin l i j) : j < l.length := by
  obtain ⟨-, x, hx, -⟩ := h
  exact (List.getElem?_eq_some_iff.mp hx).1

/-- Where the walk starts there is a minimum. -/
theorem isMin_self (hi : i < l.length) : IsMin l i i := by
  refine ⟨le_rfl, l[i], List.getElem?_eq_getElem hi, fun k y hik hki hy => ?_⟩
  obtain rfl : k = i := le_antisymm hki hik
  obtain rfl := Option.some.inj ((List.getElem?_eq_getElem hi).symm.trans hy)
  exact le_rfl

/-- **One step of the walk**: the running minima from here on are this position and the running
minima from the next one on. -/
theorem IsNext.isMin_iff (h : IsNext l i j) : IsMin l i k ↔ k = i ∨ IsMin l j k := by
  have hi : i < l.length := h.lt.trans_le h.le
  have hx := List.getElem?_eq_getElem hi
  constructor
  · rintro ⟨hik, y, hy, hmin⟩
    by_cases hk : k = i
    · exact Or.inl hk
    · have hjk : j ≤ k := by
        by_contra hlt
        -- what is passed over is greater than where the walk was
        have hgreater := h.greater k _ y (by omega) (by omega) hx hy
        exact absurd (hmin i _ le_rfl hik hx) (not_le.mpr hgreater)
      exact Or.inr ⟨hjk, y, hy, fun m z hjm hmk hz => hmin m z (h.lt.le.trans hjm) hmk hz⟩
  · rintro (rfl | ⟨hjk, y, hy, hmin⟩)
    · exact isMin_self hi
    · have hj : j < l.length := hjk.trans_lt (List.getElem?_eq_some_iff.mp hy).1
      have hz := List.getElem?_eq_getElem hj
      have hle : y ≤ l[i] := (hmin j _ le_rfl hjk hz).trans (h.stops _ _ hx hz)
      refine ⟨h.lt.le.trans hjk, y, hy, fun m u him hmk hu => ?_⟩
      rcases Nat.lt_or_ge m j with hmj | hmj
      · rcases Nat.eq_or_lt_of_le him with rfl | him
        · exact hle.trans_eq (Option.some.inj (hx.symm.trans hu))
        · exact hle.trans (h.greater m _ u him hmj hx hu).le
      · exact hmin m u hmj hmk hu

/-- **The whole walk.** The positions it comes by are the running minima, in order; then it stays
at the end. -/
theorem exists_visited {next : ℕ → ℕ} (hnext : ∀ i, i < l.length → IsNext l i (next i))
    (hend : next l.length = l.length) (hi : i ≤ l.length) :
    ∃ visited : List ℕ, visited.Pairwise (· < ·) ∧ (∀ j, j ∈ visited ↔ IsMin l i j) ∧
      visited.length ≤ l.length - i ∧ ∀ n, next^[n] i = visited[n]?.getD l.length := by
  induction hm : l.length - i using Nat.strongRecOn generalizing i with
  | ind m ih =>
    rcases Nat.eq_or_lt_of_le hi with rfl | hlt
    · refine ⟨[], List.Pairwise.nil, fun j => ?_, Nat.zero_le _, fun n => ?_⟩
      · exact iff_of_false List.not_mem_nil fun h => absurd h.lt_length (not_lt.mpr h.1)
      · rw [Function.iterate_fixed hend n]
        rfl
    · have hstep := hnext i hlt
      obtain ⟨visited, hsorted, hmem, hlen, hiter⟩ :=
        ih (l.length - next i) (by have := hstep.lt; have := hstep.le; omega) hstep.le rfl
      refine ⟨i :: visited, ?_, fun j => ?_, ?_, fun n => ?_⟩
      · refine List.pairwise_cons.mpr ⟨fun j hj => ?_, hsorted⟩
        exact hstep.lt.trans_le ((hmem j).mp hj).1
      · rw [List.mem_cons, hmem, hstep.isMin_iff]
      · have := hstep.lt
        have := hstep.le
        rw [List.length_cons]
        omega
      · cases n with
        | zero => rfl
        | succ n =>
          rw [Function.iterate_succ_apply, hiter]
          rfl

end Minima
