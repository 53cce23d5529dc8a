import EvmDebugger.Lib.Runs
import Mathlib.Data.Finset.Card
import Mathlib.Data.Set.Function

/-!
# Objects that keep a log

An object that several clients share, behind a lock: each critical section is one step of the
object's own state machine, and the log says who took which step, in the order in which the lock
was taken. The state is what the log leads to; an object that is anywhere else cannot be built
(`Logged.ok`). So whatever else goes on around the object, its state and its answers are those of
its own log, taken one step after the other: nothing is lost, and nothing comes in from outside.
-/

/-- **An object with a log**, from a start: who took which step, oldest first. -/
structure Logged {σ α : Type*} (step : σ → α → Option σ) (start : σ) (ω : Type*) where
  state : σ
  log : List (ω × α)
  ok : Runs.run step start (log.map Prod.snd) = some state

namespace Logged

variable {σ α ω β : Type*} {step : σ → α → Option σ} {start : σ}

/-- An object nobody has used. -/
def new (step : σ → α → Option σ) (start : σ) (ω : Type*) : Logged step start ω where
  state := start
  log := []
  ok := rfl

/-- The log of a step more. -/
theorem run_log_append {o : Logged step start ω} {who : ω} {a : α} {t : σ}
    (h : step o.state a = some t) :
    Runs.run step start ((o.log ++ [(who, a)]).map Prod.snd) = some t := by
  rw [List.map_append]
  exact Runs.run_snoc_eq_some.mpr ⟨o.state, o.ok, h⟩

/-- **Somebody takes a step.** -/
def act (o : Logged step start ω) (who : ω) (a : α) : Option (Logged step start ω) :=
  match h : step o.state a with
  | none => none
  | some t => some ⟨t, o.log ++ [(who, a)], run_log_append h⟩

variable {o o' : Logged step start ω} {who : ω} {a : α}

/-- What becomes of the object. -/
theorem act_eq_some (h : o.act who a = some o') :
    step o.state a = some o'.state ∧ o'.log = o.log ++ [(who, a)] := by
  unfold act at h
  split at h
  · exact absurd h (by simp)
  · next t ht =>
    obtain rfl := Option.some.inj h
    exact ⟨ht, rfl⟩

/-! ### Answers -/

/-- **What the steps of the log were answered**, if they had been taken one after the other. -/
def answers (o : Logged step start ω) (out : σ → α → β) : List β :=
  Runs.answers step out start (o.log.map Prod.snd)

/-- The answer to one step more. -/
theorem answers_act (h : o.act who a = some o') (out : σ → α → β) :
    o'.answers out = o.answers out ++ [out o.state a] := by
  obtain ⟨hstep, hlog⟩ := act_eq_some h
  rw [answers, hlog, List.map_append, Runs.answers_append o.ok]
  exact congrArg _ (Runs.answers_cons hstep [])

/-- There is an answer to every step. -/
theorem length_answers (o : Logged step start ω) (out : σ → α → β) :
    (o.answers out).length = o.log.length := by
  rw [answers, Runs.length_answers o.ok, List.length_map]

/-! ### What one client has done -/

/-- The steps that somebody has taken. -/
def stepsOf [DecidableEq ω] (o : Logged step start ω) (who : ω) : List α :=
  (o.log.filter fun entry => entry.1 = who).map Prod.snd

/-- A step is taken by somebody. -/
theorem stepsOf_act [DecidableEq ω] (h : o.act who a = some o') (who' : ω) :
    o'.stepsOf who' = if who = who' then o.stepsOf who' ++ [a] else o.stepsOf who' := by
  obtain ⟨-, hlog⟩ := act_eq_some h
  rw [stepsOf, hlog, List.filter_append, List.map_append]
  by_cases heq : who = who'
  · rw [if_pos heq, List.filter_cons_of_pos (by simpa using heq)]
    rfl
  · rw [if_neg heq, List.filter_cons_of_neg (by simpa using heq)]
    exact List.append_nil _

/-- The steps of a list that somebody has taken. -/
def takenBy [DecidableEq ω] (who : ω) (l : List (ω × α)) : List α :=
  (l.filter fun entry => entry.1 = who).map Prod.snd

/-- One list after the other. -/
theorem takenBy_append [DecidableEq ω] (who : ω) (l l' : List (ω × α)) :
    takenBy who (l ++ l') = takenBy who l ++ takenBy who l' := by
  rw [takenBy, List.filter_append, List.map_append]
  rfl

/-- How often somebody has taken a step. -/
theorem count_takenBy [DecidableEq ω] [DecidableEq α] (who : ω) (l : List (ω × α)) (a : α) :
    (takenBy who l).count a = l.count (who, a) := by
  induction l with
  | nil => rfl
  | cons entry l ih =>
    by_cases hwho : entry.1 = who
    · rw [takenBy, List.filter_cons_of_pos (by simpa using hwho), List.map_cons, List.count_cons,
        List.count_cons, ← ih]
      congr 1
      simp [Prod.ext_iff, hwho]
    · rw [takenBy, List.filter_cons_of_neg (by simpa using hwho), List.count_cons_of_ne, ← ih]
      · rfl
      · rintro rfl
        exact hwho rfl

/-! ### Taking turns

Several clients each take the same step once, and nobody else takes it. Then the steps before
theirs are counted by each of them differently. -/

section Turns

variable [DecidableEq α] {l : List (ω × α)} {a : α}

/-- Each time the step is taken, it has been taken more often. -/
theorem count_take_lt {who : ω} {n m : ℕ} (hn : l[n]? = some (who, a)) (hlt : n < m) :
    ((l.take n).map Prod.snd).count a < ((l.take m).map Prod.snd).count a := by
  obtain ⟨hlen, hget⟩ := List.getElem?_eq_some_iff.mp hn
  have hsucc : ((l.take (n + 1)).map Prod.snd).count a =
      ((l.take n).map Prod.snd).count a + 1 := by
    rw [List.take_succ_eq_append_getElem hlen, hget, List.map_append, List.count_append]
    congr 1
    exact List.count_cons_self
  have hle : ((l.take (n + 1)).map Prod.snd).count a ≤ ((l.take m).map Prod.snd).count a :=
    ((List.take_prefix_take_left hlt).map Prod.snd).sublist.count_le a
  omega

variable [DecidableEq ω] {R : Finset ω}

/-- There are as many steps as clients. -/
theorem count_eq_card (hone : ∀ r ∈ R, (takenBy r l).count a = 1)
    (hall : ∀ who, (who, a) ∈ l → who ∈ R) : (l.map Prod.snd).count a = R.card := by
  -- the entries for the step are all different, and they are one for each client
  have hnodup : (l.filter fun entry => entry.2 = a).Nodup := by
    rw [List.nodup_iff_count_le_one]
    rintro ⟨who, b⟩
    by_cases hmem : (who, b) ∈ l.filter fun entry => entry.2 = a
    · obtain ⟨hentry, hb⟩ := List.mem_filter.mp hmem
      obtain rfl : b = a := by simpa using hb
      rw [List.count_filter (by simp), ← count_takenBy, hone who (hall who hentry)]
    · exact (List.count_eq_zero.mpr hmem).trans_le (Nat.zero_le 1)
  have hset : (l.filter fun entry => entry.2 = a).toFinset = R.image fun r => (r, a) := by
    ext ⟨who, b⟩
    rw [List.mem_toFinset, List.mem_filter, Finset.mem_image]
    constructor
    · rintro ⟨hmem, hb⟩
      obtain rfl : b = a := by simpa using hb
      exact ⟨who, hall who hmem, rfl⟩
    · rintro ⟨r, hr, heq⟩
      obtain ⟨rfl, rfl⟩ := Prod.mk.inj heq
      refine ⟨List.count_pos_iff.mp ?_, by simp⟩
      rw [← count_takenBy, hone r hr]
      exact Nat.one_pos
  have hinj : Function.Injective fun r : ω => (r, a) := fun r r' h => congrArg Prod.fst h
  rw [← Finset.card_image_of_injective R hinj, ← hset, List.toFinset_card_of_nodup hnodup,
    List.count, List.countP_map, List.countP_eq_length_filter]
  rfl

/-- **They take turns**: each has a number of its own, from one on, and so many steps have been
taken when it has taken its own. -/
theorem exists_turn (hone : ∀ r ∈ R, (takenBy r l).count a = 1)
    (hall : ∀ who, (who, a) ∈ l → who ∈ R) :
    ∃ turn : ω → ℕ, Set.InjOn turn R ∧ ∀ r ∈ R, (1 ≤ turn r ∧ turn r ≤ R.card) ∧
      ∃ n, l[n]? = some (r, a) ∧ turn r = ((l.take n).map Prod.snd).count a + 1 := by
  have hget : ∀ r ∈ R, l[l.idxOf (r, a)]? = some (r, a) := by
    intro r hr
    refine List.getElem?_idxOf (List.count_pos_iff.mp ?_)
    rw [← count_takenBy, hone r hr]
    exact Nat.one_pos
  -- its turn is one more than the steps before its own
  refine ⟨fun r => ((l.take (l.idxOf (r, a))).map Prod.snd).count a + 1, ?_, ?_⟩
  · intro r hr r' hr' heq
    have hturn : ((l.take (l.idxOf (r, a))).map Prod.snd).count a =
        ((l.take (l.idxOf (r', a))).map Prod.snd).count a := Nat.succ.inj heq
    rcases Nat.lt_trichotomy (l.idxOf (r, a)) (l.idxOf (r', a)) with hlt | hidx | hlt
    · exact absurd hturn (count_take_lt (hget r hr) hlt).ne
    · have hsame := hget r hr
      rw [hidx, hget r' hr'] at hsame
      exact (congrArg Prod.fst (Option.some.inj hsame)).symm
    · exact absurd hturn (count_take_lt (hget r' hr') hlt).ne'
  · intro r hr
    refine ⟨⟨Nat.le_add_left _ _, ?_⟩, _, hget r hr, rfl⟩
    obtain ⟨hlen, -⟩ := List.getElem?_eq_some_iff.mp (hget r hr)
    have hlt := count_take_lt (hget r hr) hlen
    rw [List.take_length, count_eq_card hone hall] at hlt
    exact hlt

end Turns

/-! ### One after the other -/

section Sequence

variable [DecidableEq ω] {l : List (ω × α)} {order : List ω} {who : ω} {a : α}

/-- **One after the other**: what these clients have done, the next has done when the one before was
through. -/
def InSequence (order : List ω) (l : List (ω × α)) : Prop :=
  (l.filter fun entry => entry.1 ∈ order) = order.flatMap fun who => (takenBy who l).map (who, ·)

theorem inSequence_nil (order : List ω) : InSequence order ([] : List (ω × α)) :=
  (List.flatMap_eq_nil_iff.mpr fun _ _ => rfl).symm

/-- What somebody has done does not change if others go on. -/
theorem takenBy_concat_of_ne {other : ω} (hne : who ≠ other) :
    takenBy other (l ++ [(who, a)]) = takenBy other l := by
  have hnothing : takenBy other [(who, a)] = [] :=
    congrArg (List.map Prod.snd) (List.filter_cons_of_neg (by simpa using hne))
  rw [takenBy_append, hnothing, List.append_nil]

/-- And if it is somebody who goes on. -/
theorem takenBy_concat : takenBy who (l ++ [(who, a)]) = takenBy who l ++ [a] := by
  have hone : takenBy who [(who, a)] = [a] :=
    congrArg (List.map Prod.snd) (List.filter_cons_of_pos (by simp))
  rw [takenBy_append, hone]

/-- What they have done does not change if another goes on. -/
theorem flatMap_takenBy_concat (hwho : who ∉ order) :
    (order.flatMap fun who' => (takenBy who' (l ++ [(who, a)])).map (who', ·)) =
      order.flatMap fun who' => (takenBy who' l).map (who', ·) := by
  refine List.flatMap_congr fun who' hwho' => ?_
  have hne : who ≠ who' := fun heq => hwho (heq ▸ hwho')
  rw [takenBy_concat_of_ne hne]

/-- **Another goes on.** -/
theorem InSequence.other (h : InSequence order l) (hwho : who ∉ order) :
    InSequence order (l ++ [(who, a)]) := by
  rw [InSequence, flatMap_takenBy_concat hwho, List.filter_append,
    List.filter_cons_of_neg (by simpa using hwho)]
  exact (List.append_nil _).trans h

/-- **The last one goes on.** -/
theorem InSequence.last (h : InSequence (order ++ [who]) l) (hwho : who ∉ order) :
    InSequence (order ++ [who]) (l ++ [(who, a)]) := by
  rw [InSequence, List.filter_append, List.filter_cons_of_pos (by simp), h, List.flatMap_append,
    List.flatMap_append, flatMap_takenBy_concat hwho, List.append_assoc, List.flatMap_singleton,
    List.flatMap_singleton, takenBy_concat, List.map_append]
  rfl

/-- **Somebody else may begin**, who has done nothing yet. -/
theorem InSequence.begin (h : InSequence order l) (hnone : takenBy who l = []) :
    InSequence (order ++ [who]) l := by
  have hnot : ∀ entry ∈ l, entry.1 ≠ who := fun entry hentry heq => by
    have hmem : entry ∈ l.filter fun entry => entry.1 = who :=
      List.mem_filter.mpr ⟨hentry, by simpa using heq⟩
    exact absurd (List.map_eq_nil_iff.mp hnone ▸ hmem) List.not_mem_nil
  rw [InSequence, List.flatMap_append, List.flatMap_singleton, hnone, List.map_nil,
    List.append_nil]
  refine Eq.trans (List.filter_congr fun entry hentry => ?_) h
  simp [hnot entry hentry]

end Sequence

end Logged
