import Mathlib.Data.List.Induction
import Mathlib.Data.Option.Basic

/-!
# Runs of a partial step function

A system is a *partial step function* `step : σ → α → Option σ`: an action is either
enabled in a state, and then leads to exactly one state, or it is not. Nothing is
lost by asking for one successor – a step that may go several ways is several
actions – and a great deal is gained: an interleaving is a list of actions, a run
is a fold, and “for every interleaving” is “for every list”.

Two rules carry the invariants of such a system. `Runs.run_induction` is the general
one, an induction on the run that may look at the actions taken so far;
`Runs.run_invariant` is its everyday form, for a property of the state alone. Runs
that are only promised to behave well (*every step of the run meets a condition*)
are described by `Runs.Along`, with its own form of the rule in
`Runs.run_invariant_along`.
-/

namespace Runs

variable {σ α : Type*} {step : σ → α → Option σ}

/-- The state a run over the actions `as` ends in, if all of them were enabled. -/
def run (step : σ → α → Option σ) (s : σ) (as : List α) : Option σ := as.foldlM step s

@[simp] theorem run_nil (s : σ) : run step s [] = some s := rfl

@[simp] theorem run_cons (s : σ) (a : α) (as : List α) :
    run step s (a :: as) = (step s a).bind fun t => run step t as := rfl

theorem run_append (s : σ) (as bs : List α) :
    run step s (as ++ bs) = (run step s as).bind fun t => run step t bs := by
  simp [run, List.foldlM_append]

/-- A run splits at any point, into a run that ends there and one that starts there. -/
theorem run_append_eq_some {s u : σ} {as bs : List α} :
    run step s (as ++ bs) = some u ↔ ∃ t, run step s as = some t ∧ run step t bs = some u := by
  rw [run_append, Option.bind_eq_some_iff]

/-- The last step of a run. -/
theorem run_snoc_eq_some {s u : σ} {as : List α} {a : α} :
    run step s (as ++ [a]) = some u ↔ ∃ t, run step s as = some t ∧ step t a = some u := by
  rw [run_append_eq_some]
  simp

/-- Runs compose. -/
theorem run_trans {s t u : σ} {as bs : List α} (h₁ : run step s as = some t)
    (h₂ : run step t bs = some u) : run step s (as ++ bs) = some u :=
  run_append_eq_some.mpr ⟨t, h₁, h₂⟩

/-- **The induction rule for runs.** What holds before the first action, and is kept
by every step a run can take, holds at the end; the property may mention the actions
taken so far. -/
theorem run_induction {s₀ : σ} {motive : List α → σ → Prop} (init : motive [] s₀)
    (next : ∀ as a s t, run step s₀ as = some s → motive as s → step s a = some t →
      motive (as ++ [a]) t)
    {as : List α} {s : σ} (h : run step s₀ as = some s) : motive as s := by
  induction as using List.reverseRecOn generalizing s with
  | nil =>
    rw [run_nil, Option.some.injEq] at h
    exact h ▸ init
  | append_singleton as a ih =>
    obtain ⟨t, hrun, hstep⟩ := run_snoc_eq_some.mp h
    exact next as a t s hrun (ih hrun) hstep

/-- **The invariant rule**: a property of the state that every step keeps. -/
theorem run_invariant {motive : σ → Prop}
    (next : ∀ s a t, motive s → step s a = some t → motive t) {s₀ : σ} (init : motive s₀)
    {as : List α} {s : σ} (h : run step s₀ as = some s) : motive s :=
  run_induction (motive := fun _ s => motive s) init (fun _ a s t _ hs hst => next s a t hs hst) h

/-! ### Runs whose steps all meet a condition -/

/-- Every step of the run over `as` from `s` is taken in a state that meets `P`. -/
def Along (step : σ → α → Option σ) (P : σ → α → Prop) : σ → List α → Prop
  | _, [] => True
  | s, a :: as => P s a ∧ ∀ t, step s a = some t → Along step P t as

variable {P : σ → α → Prop}

/-- The first step, and the others. -/
theorem along_cons {s t : σ} {a : α} {as : List α} (h : step s a = some t) :
    Along step P s (a :: as) ↔ P s a ∧ Along step P t as := by
  simp only [Along, h, Option.some.injEq, forall_eq']

theorem along_append {s t : σ} {as bs : List α} (h : run step s as = some t) :
    Along step P s (as ++ bs) ↔ Along step P s as ∧ Along step P t bs := by
  induction as generalizing s with
  | nil =>
    rw [run_nil, Option.some.injEq] at h
    subst h
    simp [Along]
  | cons a as ih =>
    rw [run_cons, Option.bind_eq_some_iff] at h
    obtain ⟨u, hu, hrun⟩ := h
    rw [List.cons_append, along_cons hu, along_cons hu, ih hrun, and_assoc]

/-- A condition on the actions is one on the run. -/
theorem along_of_forall {s : σ} {as : List α} (h : ∀ a ∈ as, ∀ s, P s a) :
    Along step P s as := by
  induction as generalizing s with
  | nil => trivial
  | cons a as ih =>
    exact ⟨h a List.mem_cons_self s, fun _ _ => ih fun b hb => h b (List.mem_cons_of_mem a hb)⟩

/-- Where nothing is promised, every run keeps the promise. -/
theorem along_imp {c : Prop} {s : σ} {as : List α} :
    Along step (fun s a => c → P s a) s as ↔ (c → Along step P s as) := by
  induction as generalizing s with
  | nil => simp [Along]
  | cons a as ih =>
    simp only [Along, ih]
    exact ⟨fun ⟨hP, hnext⟩ hc => ⟨hP hc, fun t ht => hnext t ht hc⟩,
      fun h => ⟨fun hc => (h hc).1, fun t ht hc => (h hc).2 t ht⟩⟩

/-- **The invariant rule under a condition**: the property need only be kept by the
steps that meet `P`. -/
theorem run_invariant_along {motive : σ → Prop}
    (next : ∀ s a t, motive s → P s a → step s a = some t → motive t)
    {s₀ : σ} (init : motive s₀) {as : List α} {s : σ} (hal : Along step P s₀ as)
    (h : run step s₀ as = some s) : motive s := by
  induction as generalizing s₀ with
  | nil =>
    rw [run_nil, Option.some.injEq] at h
    exact h ▸ init
  | cons a as ih =>
    rw [run_cons, Option.bind_eq_some_iff] at h
    obtain ⟨t, ht, hrun⟩ := h
    exact ih (next s₀ a t init hal.1 ht) (hal.2 t ht) hrun

/-- **One condition for another**: if a run keeps an invariant by meeting `P`, and by that meets
`Q`, it meets `Q` throughout. -/
theorem along_of_along {Q : σ → α → Prop} {I : σ → Prop}
    (next : ∀ s a t, I s → P s a → step s a = some t → I t)
    (hQ : ∀ s a t, I s → P s a → step s a = some t → Q s a) {s u : σ} {as : List α} (hs : I s)
    (hal : Along step P s as) (h : run step s as = some u) : Along step Q s as := by
  induction as generalizing s with
  | nil => trivial
  | cons a as ih =>
    rw [run_cons, Option.bind_eq_some_iff] at h
    obtain ⟨t, ht, hrun⟩ := h
    have hrest := ih (next s a t hs hal.1 ht) (hal.2 t ht) hrun
    exact (along_cons ht).mpr ⟨hQ s a t hs hal.1 ht, hrest⟩

/-! ### Runs that come to an end -/

/-- **A rank bounds a run.** If no step raises the rank, and those that count lower it, a run has no
more of those than the rank it starts with. -/
theorem countP_le_rank {p : α → Bool} {R : σ → ℕ → Prop}
    (next : ∀ s a t n, R s n → step s a = some t → ∃ m, R t m ∧ m + (p a).toNat ≤ n)
    {s t : σ} {as : List α} {n : ℕ} (hs : R s n) (h : run step s as = some t) :
    as.countP p ≤ n := by
  obtain ⟨m, -, hm⟩ := run_induction (motive := fun as t => ∃ m, R t m ∧ m + as.countP p ≤ n)
    ⟨n, hs, Nat.le_refl n⟩
    (fun as a u v _ ⟨m, hm, hle⟩ hstep => by
      obtain ⟨k, hk, hlt⟩ := next u a v m hm hstep
      have hlast : [a].countP p = (p a).toNat := by
        rw [List.countP_singleton]
        cases p a <;> rfl
      refine ⟨k, hk, ?_⟩
      rw [List.countP_append, hlast]
      omega) h
  omega

/-! ### Histories that grow at the end -/

/-- The entries of a list one longer: the old ones, and the new one. -/
theorem getElem?_snoc {l : List α} {x y : α} {n : ℕ} (h : (l ++ [x])[n]? = some y) :
    (n < l.length ∧ l[n]? = some y) ∨ (n = l.length ∧ x = y) := by
  rcases Nat.lt_or_ge n l.length with hn | hn
  · exact Or.inl ⟨hn, by rwa [List.getElem?_append_left hn] at h⟩
  · have hlt : n < (l ++ [x]).length := (List.getElem?_eq_some_iff.mp h).1
    obtain rfl : n = l.length := by
      rw [List.length_append, List.length_singleton] at hlt
      omega
    rw [List.getElem?_concat_length, Option.some.injEq] at h
    exact Or.inr ⟨rfl, h⟩

/-! ### What is observed of a run -/

/-- What is observed along a run, one observation for each action: of the state before it, and of
the action. -/
def answers {β : Type*} (step : σ → α → Option σ) (out : σ → α → β) : σ → List α → List β
  | _, [] => []
  | s, a :: as => out s a :: ((step s a).map fun t => answers step out t as).getD []

section Answers

variable {β : Type*} {out : σ → α → β}

@[simp] theorem answers_nil (s : σ) : answers step out s [] = [] := rfl

/-- The first observation, and the others. -/
theorem answers_cons {s t : σ} {a : α} (h : step s a = some t) (as : List α) :
    answers step out s (a :: as) = out s a :: answers step out t as := by
  rw [answers, h]
  rfl

/-- **Observations are made one run after the other.** -/
theorem answers_append {s t : σ} {as : List α} (h : run step s as = some t) (bs : List α) :
    answers step out s (as ++ bs) = answers step out s as ++ answers step out t bs := by
  induction as generalizing s with
  | nil =>
    rw [run_nil, Option.some.injEq] at h
    subst h
    rfl
  | cons a as ih =>
    rw [run_cons, Option.bind_eq_some_iff] at h
    obtain ⟨u, hu, hrun⟩ := h
    rw [List.cons_append, answers_cons hu, answers_cons hu, ih hrun]
    rfl

/-- There is one observation for each action. -/
theorem length_answers {s t : σ} {as : List α} (h : run step s as = some t) :
    (answers step out s as).length = as.length := by
  induction as generalizing s with
  | nil => rfl
  | cons a as ih =>
    rw [run_cons, Option.bind_eq_some_iff] at h
    obtain ⟨u, hu, hrun⟩ := h
    rw [answers_cons hu, List.length_cons, List.length_cons, ih hrun]

/-- What is observed of an action, in the state in which it is taken. -/
theorem getElem?_answers {s t : σ} {as : List α} {n : ℕ} {a : α}
    (h : run step s (as.take n) = some t) (ha : as[n]? = some a) :
    (answers step out s as)[n]? = some (out t a) := by
  obtain ⟨hlt, hget⟩ := List.getElem?_eq_some_iff.mp ha
  have hlen : (as.take n).length = n := by
    rw [List.length_take]
    omega
  have hdrop : as.drop n = a :: as.drop (n + 1) := by
    rw [← hget]
    exact (List.getElem_cons_drop hlt).symm
  have hsplit : as = as.take n ++ a :: as.drop (n + 1) := by
    rw [← hdrop, List.take_append_drop]
  have hlength : (answers step out s (as.take n)).length = n := (length_answers h).trans hlen
  rw [hsplit, answers_append h, List.getElem?_append_right (Nat.le_of_eq hlength), hlength,
    Nat.sub_self]
  rfl

end Answers

/-! ### One system inside another -/

/-- **The simulation rule.** If each step of one system is matched by a run of a second
one, then each run is, and what is proved of the runs of the second system carries
over to the first along `R`. -/
theorem run_simulation {τ β : Type*} {step' : τ → β → Option τ} {R : σ → τ → Prop}
    (next : ∀ s t a s', R s t → step s a = some s' →
      ∃ bs t', run step' t bs = some t' ∧ R s' t')
    {s s' : σ} {t : τ} {as : List α} (hR : R s t) (h : run step s as = some s') :
    ∃ bs t', run step' t bs = some t' ∧ R s' t' := by
  induction as generalizing s t with
  | nil =>
    rw [run_nil, Option.some.injEq] at h
    exact ⟨[], t, rfl, h ▸ hR⟩
  | cons a as ih =>
    rw [run_cons, Option.bind_eq_some_iff] at h
    obtain ⟨u, hu, hrun⟩ := h
    obtain ⟨bs, t₁, hbs, hR₁⟩ := next s t a u hR hu
    obtain ⟨cs, t₂, hcs, hR₂⟩ := ih hR₁ hrun
    exact ⟨bs ++ cs, t₂, run_trans hbs hcs, hR₂⟩

end Runs
