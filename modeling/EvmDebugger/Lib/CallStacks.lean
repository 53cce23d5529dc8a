import EvmDebugger.Lib.Runs
import Mathlib.Data.List.Infix

/-!
# Histories of call stacks, and finding one's way by depth alone

A *history* records, for each step of a program with calls, the stack of activations open at
that step, innermost first. Between two steps the stack changes in one of two ways
(`CallStacks.IsHistory`): some activations have returned, and what is left is a suffix; or
the step was a call, and one activation that was never there before has been put on top. An
activation that runs no step of its own never shows.

A debugger that skips over calls wants the next step of the *same* activation, or, when that
has returned for good, of the nearest caller that still has one (`CallStacks.IsResumption`).
All it sees is the depth of each step. The theorem of this file,
`CallStacks.isResumption_of_depth`, is that the depth is enough: the first later step that is
no deeper than the present one is the step wanted. Two activations may well have the same
depth; but to get from one to its sibling the program has to pass through their caller, and
the caller's step comes first.
-/

namespace CallStacks

variable {α : Type*}

/-! ### Histories -/

/-- **A history of call stacks**, each listed innermost first. -/
structure IsHistory (h : List (List α)) : Prop where
  /-- An activation is open once. -/
  nodup : ∀ s ∈ h, s.Nodup
  /-- From one step to the next, activations return or a new one is entered. -/
  moves : ∀ k s t, h[k]? = some s → h[k + 1]? = some t →
    t <:+ s ∨ ∃ f, t = f :: s ∧ ∀ u ∈ h.take (k + 1), f ∉ u

variable {h : List (List α)}

theorem isHistory_nil : IsHistory ([] : List (List α)) where
  nodup s hs := absurd hs List.not_mem_nil
  moves k s t hs := by simp at hs

/-- The move from the last stack of a history to the one that comes next. -/
def Extends (h : List (List α)) (t : List α) : Prop :=
  ∀ s, h.getLast? = some s → t <:+ s ∨ ∃ f, t = f :: s ∧ ∀ u ∈ h, f ∉ u

/-- A history grows by one step at a time. -/
theorem IsHistory.snoc (hh : IsHistory h) {t : List α} (ht : t.Nodup) (hext : Extends h t) :
    IsHistory (h ++ [t]) where
  nodup s hs := by
    rcases List.mem_append.mp hs with hs | hs
    · exact hh.nodup s hs
    · exact List.mem_singleton.mp hs ▸ ht
  moves k s u hs hu := by
    rcases Runs.getElem?_snoc hu with ⟨hk, hu⟩ | ⟨hk, rfl⟩
    · rw [List.getElem?_append_left (by omega)] at hs
      rw [List.take_append_of_le_length hk.le]
      exact hh.moves k s u hs hu
    · rw [List.getElem?_append_left (by omega)] at hs
      rw [hk, List.take_left]
      refine hext s ?_
      rw [List.getLast?_eq_getElem?, ← hk, Nat.add_sub_cancel]
      exact hs

/-- Looking a step up, one by one. -/
theorem exists_getElem? {k : ℕ} (hk : k < h.length) : ∃ s, h[k]? = some s :=
  ⟨h[k], List.getElem?_eq_getElem hk⟩

/-! ### Going deeper, and coming back -/

/-- **While every step is deeper than the first, the first stack stays underneath.** -/
theorem IsHistory.suffix_of_deeper (hh : IsHistory h) {i : ℕ} {s : List α}
    (hi : h[i]? = some s) : ∀ n t, h[i + n]? = some t →
      (∀ m u, 1 ≤ m → m ≤ n → h[i + m]? = some u → s.length < u.length) → s <:+ t := by
  intro n
  induction n with
  | zero =>
    intro t ht _
    obtain rfl : s = t := Option.some.inj (hi.symm.trans ht)
    exact List.suffix_rfl
  | succ n ih =>
    intro t ht hdeep
    have hlt : i + n < h.length := by
      have := (List.getElem?_eq_some_iff.mp ht).1
      omega
    obtain ⟨r, hr⟩ := exists_getElem? hlt
    have hsr : s <:+ r := ih r hr fun m u h1 h2 hu => hdeep m u h1 (by omega) hu
    have hlen : s.length < t.length := hdeep (n + 1) t (by omega) le_rfl ht
    rcases hh.moves (i + n) r t hr ht with hret | ⟨f, rfl, -⟩
    · -- activations returned, but not as far as `s`
      exact List.suffix_of_suffix_length_le hsr hret hlen.le
    · -- a call
      exact hsr.trans (List.suffix_cons f r)

/-- **The first step that is not deeper is a return**: its stack is underneath the first. -/
theorem IsHistory.suffix_of_return (hh : IsHistory h) {i n : ℕ} {s t : List α}
    (hi : h[i]? = some s) (hj : h[i + n + 1]? = some t)
    (hdeep : ∀ m u, 1 ≤ m → m ≤ n → h[i + m]? = some u → s.length < u.length)
    (hlen : t.length ≤ s.length) : t <:+ s := by
  have hlt : i + n < h.length := by
    have := (List.getElem?_eq_some_iff.mp hj).1
    omega
  obtain ⟨r, hr⟩ := exists_getElem? hlt
  have hsr : s <:+ r := hh.suffix_of_deeper hi n r hr hdeep
  rcases hh.moves (i + n) r t hr hj with hret | ⟨f, rfl, -⟩
  · exact List.suffix_of_suffix_length_le hret hsr hlen
  · -- a call would have gone deeper still
    have := hsr.length_le
    rw [List.length_cons] at hlen
    omega

/-- **An activation that has returned does not come back.** -/
theorem IsHistory.not_mem_of_returned (hh : IsHistory h) {i j : ℕ} {s t : List α} {g : α}
    (hi : h[i]? = some s) (hij : i ≤ j) (hj : h[j]? = some t) (hg : g ∈ s) (hgt : g ∉ t) :
    ∀ n u, h[j + n]? = some u → g ∉ u := by
  intro n
  induction n with
  | zero =>
    intro u hu
    obtain rfl : t = u := Option.some.inj (hj.symm.trans hu)
    exact hgt
  | succ n ih =>
    intro u hu
    have hlt : j + n < h.length := by
      have := (List.getElem?_eq_some_iff.mp hu).1
      omega
    obtain ⟨r, hr⟩ := exists_getElem? hlt
    rcases hh.moves (j + n) r u hr hu with hret | ⟨f, rfl, hfresh⟩
    · exact fun hmem => ih r hr (hret.mem hmem)
    · intro hmem
      rcases List.mem_cons.mp hmem with rfl | hmem
      · -- the activation just entered was never seen before, and `g` was
        refine hfresh s ?_ hg
        refine List.mem_of_getElem? (i := i) ?_
        rw [List.getElem?_take_of_lt (by omega)]
        exact hi
      · exact ih r hr hmem

/-! ### Whose step comes next -/

/-- Position `k` is a step of the activation `f`. -/
def IsStepOf (h : List (List α)) (f : α) (k : ℕ) : Prop := ∃ rest, h[k]? = some (f :: rest)

/-- The activation `f` has a step after position `i`. -/
def StepsAfter (h : List (List α)) (f : α) (i : ℕ) : Prop := ∃ k, i < k ∧ IsStepOf h f k

/-- Position `j` is the next step of `f` after position `i`. -/
def IsNextStep (h : List (List α)) (f : α) (i j : ℕ) : Prop :=
  i < j ∧ IsStepOf h f j ∧ ∀ k, i < k → k < j → ¬IsStepOf h f k

/-- **Where execution resumes**, seen from a step with stack `s` at position `i`: at the next
step of the nearest of the activations of `s` that has one – of its own, first of all – and
at the end of the history when none of them has. -/
def IsResumption (h : List (List α)) (i : ℕ) (s : List α) (j : ℕ) : Prop :=
  (∃ pre f rest, s = pre ++ f :: rest ∧ (∀ g ∈ pre, ¬StepsAfter h g i) ∧ IsNextStep h f i j) ∨
    ((∀ g ∈ s, ¬StepsAfter h g i) ∧ j = h.length)

/-- A step deeper than a stack underneath is not a step of one of its activations. -/
theorem head_not_mem_of_suffix {s t : List α} {f : α} (hnodup : (f :: t).Nodup)
    (hs : s <:+ f :: t) (hlen : s.length < (f :: t).length) : f ∉ s := by
  rcases List.suffix_cons_iff.mp hs with rfl | hs
  · exact absurd hlen (lt_irrefl _)
  · exact fun hf => (List.nodup_cons.mp hnodup).1 (hs.mem hf)

/-- Steps deeper than `s`, as long as nothing else has come in between, belong to
activations entered after `s`. -/
theorem IsHistory.not_isStepOf_of_deeper (hh : IsHistory h) {i j : ℕ} {s : List α}
    (hi : h[i]? = some s)
    (hdeep : ∀ k u, i < k → k < j → h[k]? = some u → s.length < u.length)
    {k : ℕ} (hik : i < k) (hkj : k < j) {g : α} (hg : g ∈ s) : ¬IsStepOf h g k := by
  rintro ⟨rest, hk⟩
  obtain ⟨n, rfl⟩ : ∃ n, k = i + n := ⟨k - i, by omega⟩
  have hsuf : s <:+ g :: rest := hh.suffix_of_deeper hi n _ hk fun m u h1 h2 hu =>
    hdeep (i + m) u (by omega) (by omega) hu
  exact head_not_mem_of_suffix (hh.nodup _ (List.mem_of_getElem? hk)) hsuf
    (hdeep _ _ hik hkj hk) hg

/-- **The depth alone finds where execution resumes.** Scan forward from position `i` for the
first step that is no deeper: that is the resumption, and when there is no such step, the
end of the history is. -/
theorem isResumption_of_depth (hh : IsHistory h) {i j : ℕ} {s : List α} (hi : h[i]? = some s)
    (hij : i < j) (hdeep : ∀ k u, i < k → k < j → h[k]? = some u → s.length < u.length)
    (hstop : ∀ u, h[j]? = some u → u ≠ [] ∧ u.length ≤ s.length) (hj : j ≤ h.length) :
    IsResumption h i s j := by
  rcases hj.lt_or_eq with hlt | rfl
  · -- a step that is no deeper: a return to the activation `f` of `s`
    obtain ⟨t, ht⟩ := exists_getElem? hlt
    obtain ⟨hne, hlen⟩ := hstop t ht
    obtain ⟨n, rfl⟩ : ∃ n, j = i + n + 1 := ⟨j - i - 1, by omega⟩
    have hsuf : t <:+ s := hh.suffix_of_return hi ht
      (fun m u h1 h2 hu => hdeep (i + m) u (by omega) (by omega) hu) hlen
    obtain ⟨f, rest, rfl⟩ := List.exists_cons_of_ne_nil hne
    obtain ⟨pre, rfl⟩ := hsuf
    refine Or.inl ⟨pre, f, rest, rfl, fun g hg => ?_, hij, ⟨rest, ht⟩, fun k hik hkj => ?_⟩
    · -- the activations above `f` have returned
      have hnodup := hh.nodup _ (List.mem_of_getElem? hi)
      have hgt : g ∉ f :: rest := fun hmem => (List.nodup_append.mp hnodup).2.2 g hg g hmem rfl
      rintro ⟨k, hik, hstep⟩
      rcases Nat.lt_or_ge k (i + n + 1) with hk | hk
      · exact hh.not_isStepOf_of_deeper hi hdeep hik hk (List.mem_append_left _ hg) hstep
      · obtain ⟨u, hu⟩ := hstep
        obtain ⟨m, rfl⟩ : ∃ m, k = i + n + 1 + m := ⟨k - (i + n + 1), by omega⟩
        exact hh.not_mem_of_returned hi hij.le ht (List.mem_append_left _ hg) hgt m _ hu
          List.mem_cons_self
    · exact hh.not_isStepOf_of_deeper hi hdeep hik hkj
        (List.mem_append_right _ List.mem_cons_self)
  · -- the scan has reached the end: nobody in `s` steps again
    refine Or.inr ⟨fun g hg => ?_, rfl⟩
    rintro ⟨k, hik, hstep⟩
    have hk : k < h.length := by
      obtain ⟨rest, hk⟩ := hstep
      exact (List.getElem?_eq_some_iff.mp hk).1
    exact hh.not_isStepOf_of_deeper hi hdeep hik hk hg hstep

/-- A resumption never lands in an activation entered later. -/
theorem IsResumption.owner {i j : ℕ} {s : List α} (hr : IsResumption h i s j)
    (hj : j < h.length) : ∃ f ∈ s, IsStepOf h f j := by
  rcases hr with ⟨pre, f, rest, rfl, -, hnext⟩ | ⟨-, rfl⟩
  · exact ⟨f, List.mem_append_right _ List.mem_cons_self, hnext.2.1⟩
  · exact absurd hj (lt_irrefl _)

/-- A resumption never skips a step of the activation it starts from. -/
theorem IsResumption.skips_none {i j : ℕ} {f : α} {s : List α}
    (hr : IsResumption h i (f :: s) j) {k : ℕ} (hik : i < k) (hkj : k < j) :
    ¬IsStepOf h f k := by
  rcases hr with ⟨pre, g, rest, hs, hpre, hnext⟩ | ⟨hnone, -⟩
  · rcases pre with _ | ⟨g', pre⟩
    · obtain ⟨rfl, -⟩ := List.cons.inj hs
      exact hnext.2.2 k hik hkj
    · obtain ⟨rfl, -⟩ := List.cons.inj hs
      exact fun hstep => hpre f List.mem_cons_self ⟨k, hik, hstep⟩
  · exact fun hstep => hnone f List.mem_cons_self ⟨k, hik, hstep⟩

end CallStacks
