import Mathlib.Data.List.Induction
import Mathlib.Logic.Function.Basic

/-!
# Caches

A cache stands between its callers and something that computes values afresh. A call names a key;
if there is a value under that key it is returned, and otherwise one is computed, stored and
returned. That is right as long as all calls with the same key would compute the same value. When
they would not – a key that says too little – it is the first value stored that everybody gets.

`Memo.Call` is a call as seen from outside: its key, what it would compute, and whether reading
and storing work for it. From the empty cache, the value under a key is what the first call to
store anything under that key has computed (`Memo.table_eq`), and so it can be said exactly when a
sequence of calls does not notice that there is a cache: `Memo.transparent_iff`.
-/

namespace Memo

variable {K V : Type*} [DecidableEq K]

/-- A call: its key, the value it would compute, and whether a stored value can be read and a
computed one stored. -/
structure Call (K V : Type*) where
  key : K
  fresh : Option V
  readable : Bool
  storable : Bool

/-- What a call does to the cache, and what it returns. -/
def serve (t : K → Option V) (c : Call K V) : (K → Option V) × Option V :=
  match t c.key with
  | some v => (t, if c.readable then some v else none)
  | none =>
    match c.fresh with
    | some v => if c.storable then (Function.update t c.key (some v), some v) else (t, none)
    | none => (t, none)

/-- The cache after a list of calls, from the empty one. -/
def table (cs : List (Call K V)) : K → Option V :=
  cs.foldl (fun t c => (serve t c).1) fun _ => none

/-- The value a call stores under a key, if there is none. -/
def Call.stored (key : K) (c : Call K V) : Option V :=
  if c.key = key ∧ c.storable = true then c.fresh else none

/-- **A call changes what is under its key, and only if there is nothing.** -/
theorem serve_fst (t : K → Option V) (c : Call K V) (key : K) :
    (serve t c).1 key = (t key).or (c.stored key) := by
  rw [serve, Call.stored]
  by_cases hkey : c.key = key
  · subst hkey
    cases ht : t c.key with
    | some v => simp [ht]
    | none =>
      cases hf : c.fresh with
      | none => simp [ht]
      | some v =>
        cases hs : c.storable <;> simp [ht]
  · rw [if_neg fun h => hkey h.1, Option.or_none]
    cases ht : t c.key with
    | some v => rfl
    | none =>
      cases hf : c.fresh with
      | none => rfl
      | some v =>
        cases hs : c.storable with
        | false => rfl
        | true => exact Function.update_of_ne (Ne.symm hkey) _ t

/-- **The value under a key is that of the first call to store one.** -/
theorem table_eq (cs : List (Call K V)) (key : K) :
    table cs key = cs.findSome? (Call.stored key) := by
  induction cs using List.reverseRecOn with
  | nil => rfl
  | append_singleton cs c ih =>
    have hlast : table (cs ++ [c]) = (serve (table cs) c).1 := List.foldl_append
    rw [hlast, serve_fst, ih, List.findSome?_append, List.findSome?_singleton]

/-- **A call returns** what is under its key, if it can read it; and if there is nothing, what it
computes, if it can store it. -/
theorem serve_snd_eq_some {t : K → Option V} {c : Call K V} {v : V} :
    (serve t c).2 = some v ↔
      (t c.key = some v ∧ c.readable = true) ∨
        t c.key = none ∧ c.fresh = some v ∧ c.storable = true := by
  rw [serve]
  cases ht : t c.key with
  | some u => cases hr : c.readable <;> simp
  | none =>
    cases hf : c.fresh with
    | none => simp
    | some u => cases hs : c.storable <;> simp

/-- **Nobody notices that there is a cache**: whatever a call returns, it would have computed. -/
def Transparent (cs : List (Call K V)) : Prop :=
  ∀ k c v, cs[k]? = some c → (serve (table (cs.take k)) c).2 = some v → c.fresh = some v

/-- **When that is so**: a call that can read would compute what the first call before it to store
anything under the same key has computed. -/
theorem transparent_iff (cs : List (Call K V)) :
    Transparent cs ↔
      ∀ k c v, cs[k]? = some c → c.readable = true →
        (cs.take k).findSome? (Call.stored c.key) = some v → c.fresh = some v := by
  constructor
  · intro h k c v hc hread hfirst
    refine h k c v hc (serve_snd_eq_some.mpr (Or.inl ⟨?_, hread⟩))
    rw [table_eq, hfirst]
  · intro h k c v hc hv
    rcases serve_snd_eq_some.mp hv with ⟨ht, hread⟩ | ⟨-, hfresh, -⟩
    · rw [table_eq] at ht
      exact h k c v hc hread ht
    · exact hfresh

end Memo
