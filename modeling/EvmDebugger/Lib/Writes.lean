import EvmDebugger.Lib.Runs
import Mathlib.Data.List.Induction
import Mathlib.Data.Option.Basic
import Mathlib.Logic.Function.Basic

/-!
# The last write wins

A list of writes, oldest first, says of each key what was last written to it
(`Writes.last`). That is all a store with point updates remembers of the list, whatever the
store is made of: `Writes.lookup_foldl` reads a store after the writes off the store before
them; and it is the value of the last write in the list, by its position
(`Writes.last_filterMap_eq_some_iff`). So a store is left unchanged exactly when every key was
last written the value it already had (`Writes.lookup_foldl_eq_iff`), and two stores that record
the same writes under two names for the keys agree as soon as the names are faithful
(`Writes.last_map_of_injective`).
-/

namespace Writes

variable {κ ν : Type*} [DecidableEq κ]

/-- What the writes last wrote to a key. -/
def last (ws : List (κ × ν)) (k : κ) : Option ν :=
  (ws.reverse.find? fun w => w.1 = k).map Prod.snd

@[simp] theorem last_nil (k : κ) : last ([] : List (κ × ν)) k = none := rfl

/-- One more write. -/
theorem last_snoc (ws : List (κ × ν)) (w : κ × ν) (k : κ) :
    last (ws ++ [w]) k = if w.1 = k then some w.2 else last ws k := by
  unfold last
  rw [List.reverse_append, List.reverse_singleton, List.singleton_append, List.find?_cons]
  by_cases h : w.1 = k
  · rw [if_pos h]
    simp [h]
  · rw [if_neg h]
    simp [h]

/-- A key that was written was last written something. -/
theorem last_of_mem {ws : List (κ × ν)} {w : κ × ν} (h : w ∈ ws) :
    ∃ v, last ws w.1 = some v := by
  induction ws using List.reverseRecOn with
  | nil => exact absurd h List.not_mem_nil
  | append_singleton ws w' ih =>
    rw [last_snoc]
    by_cases hk : w'.1 = w.1
    · exact ⟨w'.2, if_pos hk⟩
    · rw [if_neg hk]
      rcases List.mem_append.mp h with h | h
      · exact ih h
      · exact absurd (congrArg Prod.fst (List.mem_singleton.mp h).symm) hk

/-- What was last written to a key was written to it. -/
theorem mem_of_last {ws : List (κ × ν)} {k : κ} {v : ν} (h : last ws k = some v) : (k, v) ∈ ws := by
  obtain ⟨w, hw, rfl⟩ := Option.map_eq_some_iff.mp h
  have hkey : w.1 = k := by simpa using List.find?_some hw
  subst hkey
  exact List.mem_reverse.mp (List.mem_of_find?_eq_some hw)

/-- An entry at the end that writes to the key. -/
theorem last_filterMap_snoc_of_eq {β : Type*} {f : β → Option (κ × ν)} {l : List β} {x : β}
    {w : κ × ν} (h : f x = some w) : last ((l ++ [x]).filterMap f) w.1 = some w.2 := by
  rw [List.filterMap_append, List.filterMap_cons, h, List.filterMap_nil]
  dsimp only
  rw [last_snoc, if_pos rfl]

/-- An entry at the end that does not. -/
theorem last_filterMap_snoc_of_ne {β : Type*} {f : β → Option (κ × ν)} {l : List β} {x : β}
    {k : κ} (h : ∀ w, f x = some w → w.1 ≠ k) :
    last ((l ++ [x]).filterMap f) k = last (l.filterMap f) k := by
  rw [List.filterMap_append, List.filterMap_cons, List.filterMap_nil]
  cases hw : f x with
  | none => exact congrArg (last · k) (List.append_nil _)
  | some w =>
    dsimp only
    rw [last_snoc, if_neg (h w hw)]

/-- **The last write, by its position**, where only some entries of a list are writes: an entry
writes the value to the key, and no later one writes anything to it. -/
theorem last_filterMap_eq_some_iff {β : Type*} {f : β → Option (κ × ν)} {l : List β} {k : κ}
    {v : ν} :
    last (l.filterMap f) k = some v ↔
      ∃ (j : ℕ) (x : β), l[j]? = some x ∧ f x = some (k, v) ∧
        ∀ (m : ℕ) (y : β) (w : κ × ν), j < m → l[m]? = some y → f y = some w → w.1 ≠ k := by
  induction l using List.reverseRecOn with
  | nil => simp
  | append_singleton l x ih =>
    have hnew : (l ++ [x])[l.length]? = some x := List.getElem?_concat_length
    have hold : ∀ {j : ℕ} {y : β}, l[j]? = some y → (l ++ [x])[j]? = some y := fun {j y} hy =>
      (List.getElem?_append_left (List.getElem?_eq_some_iff.mp hy).1).trans hy
    by_cases hx : ∃ w, f x = some w ∧ w.1 = k
    · obtain ⟨w, hw, rfl⟩ := hx
      rw [last_filterMap_snoc_of_eq hw]
      constructor
      · intro h
        obtain rfl := Option.some.inj h
        refine ⟨l.length, x, hnew, hw, fun m y w' hm hy _ => ?_⟩
        have hlen := (List.getElem?_eq_some_iff.mp hy).1
        rw [List.length_append, List.length_singleton] at hlen
        omega
      · rintro ⟨j, y, hy, hv, hlater⟩
        rcases Runs.getElem?_snoc hy with ⟨hlt, -⟩ | ⟨-, rfl⟩
        · exact absurd rfl (hlater _ x w hlt hnew hw)
        · exact congrArg (some ∘ Prod.snd) (Option.some.inj (hw.symm.trans hv))
    · rw [last_filterMap_snoc_of_ne fun w hw hk => hx ⟨w, hw, hk⟩, ih]
      constructor
      · rintro ⟨j, y, hy, hv, hlater⟩
        refine ⟨j, y, hold hy, hv, fun m z w hm hz hw => ?_⟩
        rcases Runs.getElem?_snoc hz with ⟨-, hz⟩ | ⟨-, rfl⟩
        · exact hlater m z w hm hz hw
        · exact fun hk => hx ⟨w, hw, hk⟩
      · rintro ⟨j, y, hy, hv, hlater⟩
        rcases Runs.getElem?_snoc hy with ⟨-, hy⟩ | ⟨-, rfl⟩
        · exact ⟨j, y, hy, hv, fun m z w hm hz hw => hlater m z w hm (hold hz) hw⟩
        · exact absurd ⟨_, hv, rfl⟩ hx

/-- **Renaming the keys faithfully**, and the values in any way, renames what was last
written. -/
theorem last_map_of_injective {κ' ν' : Type*} [DecidableEq κ'] {f : κ → κ'}
    (hf : Function.Injective f) (g : ν → ν') (ws : List (κ × ν)) (k : κ) :
    last (ws.map fun w => (f w.1, g w.2)) (f k) = (last ws k).map g := by
  induction ws using List.reverseRecOn with
  | nil => rfl
  | append_singleton ws w ih =>
    rw [List.map_append, List.map_singleton, last_snoc, last_snoc, ih]
    by_cases h : w.1 = k
    · rw [if_pos h, if_pos (congrArg f h), Option.map_some]
    · rw [if_neg h, if_neg fun hc => h (hf hc)]

/-! ### Stores with point updates -/

section Store

variable {S : Type*} {lookup : S → κ → Option ν} {record : S → κ × ν → S}
  (hrecord : ∀ s w k, lookup (record s w) k = if k = w.1 then some w.2 else lookup s k)

include hrecord

/-- **A store after a list of writes** shows what was last written, and otherwise what it
showed before. -/
theorem lookup_foldl (s : S) (ws : List (κ × ν)) (k : κ) :
    lookup (ws.foldl record s) k = (last ws k).or (lookup s k) := by
  induction ws using List.reverseRecOn with
  | nil => rfl
  | append_singleton ws w ih =>
    rw [List.foldl_append, List.foldl_cons, List.foldl_nil, hrecord, last_snoc, ih]
    by_cases h : k = w.1
    · rw [if_pos h, if_pos h.symm, Option.some_or]
    · rw [if_neg h, if_neg fun hc => h hc.symm]

/-- **A list of writes shows no effect** exactly when each key it writes was last written
the value the store already showed. -/
theorem lookup_foldl_eq_iff (s : S) (ws : List (κ × ν)) :
    (∀ k, lookup (ws.foldl record s) k = lookup s k) ↔
      ∀ k v, last ws k = some v → lookup s k = some v := by
  constructor
  · intro h k v hv
    rw [← h k, lookup_foldl hrecord, hv, Option.some_or]
  · intro h k
    rw [lookup_foldl hrecord]
    cases hv : last ws k with
    | none => exact Option.none_or
    | some v => rw [h k v hv, Option.some_or]

end Store

end Writes
