import Mathlib.Data.List.Basic
import Mathlib.Logic.Function.Basic

/-!
# What is shown of a list

A program that shows a list shows its entries as text, and of a long one perhaps no more than the
beginning. Whoever looks at it may want to know two things: what the text stands for, and whether
it is all there is.

The first is a matter of rendering: `ReadBack` says that there is a reader for it, and a list that
is rendered entry by entry is read entry by entry (`ReadBack.list`). The second is a matter of
counting: an `Excerpt` is the beginning of a list together with the length of the whole, and it
tells by itself whether something has been cut off (`Excerpt.truncated_cut`). An excerpt of which
nothing has been cut off determines the list, whatever it is that was allowed to be shown
(`Excerpt.eq_of_cut_eq`).
-/

variable {α β : Type*}

/-! ### Renderings -/

/-- **What is rendered is read back.** -/
def ReadBack (render : α → β) (read : β → Option α) : Prop := ∀ a, read (render a) = some a

namespace ReadBack

variable {render : α → β} {read : β → Option α}

/-- Things that are shown alike are the same. -/
theorem injective (h : ReadBack render read) : Function.Injective render := fun a b hab =>
  Option.some.inj ((h a).symm.trans ((congrArg read hab).trans (h b)))

/-- **A list is read back entry by entry.** -/
theorem list (h : ReadBack render read) : ReadBack (List.map render) (List.mapM read) := by
  intro as
  induction as with
  | nil => rfl
  | cons a as ih =>
    rw [List.map_cons, List.mapM_cons, h a, ih]
    rfl

end ReadBack

/-! ### Excerpts -/

/-- **The beginning of a list**, and how long the list is. -/
@[ext]
structure Excerpt (α : Type*) where
  shown : List α
  size : ℕ
  shown_le : shown.length ≤ size

namespace Excerpt

/-- Something has been cut off. -/
def truncated (e : Excerpt α) : Bool := decide (e.shown.length < e.size)

/-- The excerpt of a list that shows `max` entries at most. -/
def cut (max : ℕ) (as : List α) : Excerpt α where
  shown := as.take max
  size := as.length
  shown_le := List.length_take_le' max as

variable {m n : ℕ} {as bs : List α}

@[simp] theorem size_cut : (cut m as).size = as.length := rfl

@[simp] theorem shown_cut : (cut m as).shown = as.take m := rfl

/-- **An excerpt tells whether it is one**: it is that of a list that is too long. -/
theorem truncated_cut : (cut m as).truncated = true ↔ m < as.length := by
  rw [truncated, decide_eq_true_eq, shown_cut, size_cut, List.length_take]
  omega

/-- If nothing has been cut off, all is shown. -/
theorem shown_of_not_truncated (h : (cut m as).truncated = false) : (cut m as).shown = as := by
  have hle : ¬m < as.length := fun hlt => absurd (truncated_cut.mpr hlt) (by simp [h])
  exact List.take_of_length_le (Nat.not_lt.mp hle)

/-- **A list is determined by an excerpt that shows all of it**, even among excerpts of different
lengths. -/
theorem eq_of_cut_eq (h : cut m as = cut n bs) (hall : (cut m as).truncated = false) : as = bs := by
  have hall' : (cut n bs).truncated = false := h ▸ hall
  rw [← shown_of_not_truncated hall, h, shown_of_not_truncated hall']

end Excerpt
