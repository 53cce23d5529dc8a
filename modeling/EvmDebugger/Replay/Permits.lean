import EvmDebugger.Replay.Invariant

/-!
# How many replays run at once

All sessions of the server share one semaphore. A background task acquires a permit before it
has the thread spawned and gives it back when it ends; the thread itself knows nothing of
permits, and neither does the session map, from which a session may be removed at any time.
What bounds the number of threads is that the task does not end before the thread does: it
blocks in `recv` until the thread has sent its message or dropped its sender.

`EvmDebugger.Service` is the semaphore with any number of sessions, and
`EvmDebugger.inFlight_le` the bound, in every interleaving of all their actions. A session
served from the trace cache has neither task nor thread, and so no part in this.
-/

namespace EvmDebugger

/-- A session that was not served from the cache, with its replay; `listed` says whether the
session map still has it. Removing it from the map disturbs neither the task nor the thread,
which have handles of their own; and so may a request that looked it up before. -/
structure ServiceEntry (σ : Type) where
  replay : Replay σ
  state : Replay.State σ
  listed : Bool

/-- The semaphore and the sessions. -/
structure Service (σ : Type) where
  permits : ℕ
  sessions : List (ServiceEntry σ)

/-- The actions: a session is created; the garbage collection removes one from the map; one of
the parties of a session acts. -/
inductive ServiceAction (σ : Type) where
  | create (replay : Replay σ) (now : ℕ)
  | remove (session : ℕ)
  | act (session : ℕ) (action : ReplayAction)

/-- The task holds a permit. -/
def BackgroundTask.holds : BackgroundTask → Bool
  | acquiring | finished => false
  | _ => true

/-- The thread has been spawned, and has neither sent its message nor dropped its sender. -/
def EvmThread.inFlight {σ : Type} : EvmThread σ → Bool
  | unborn | closing | gone => false
  | _ => true

/-- A thread in flight has not let anything out. -/
theorem EvmThread.silent_of_inFlight {σ : Type} {thread : EvmThread σ}
    (h : thread.inFlight = true) : thread.silent = true := by
  cases thread with
  | unborn | starting | running | sending => rfl
  | closing | gone => exact h

namespace Service

variable {σ : Type}

/-- A server with `n` permits and no sessions. -/
def init (n : ℕ) : Service σ where
  permits := n
  sessions := []

/-- The permits left after an action: acquiring takes one, if there is one; a task that ends
gives its own back. -/
def permitsAfter (permits : ℕ) : ReplayAction → Option ℕ
  | .acquire => if 0 < permits then some (permits - 1) else none
  | .release => some (permits + 1)
  | _ => some permits

/-- **One atomic action.** -/
def step (g : Service σ) : ServiceAction σ → Option (Service σ)
  | .create replay now =>
    some { g with
      sessions := g.sessions ++ [{ replay := replay, state := Replay.init now, listed := true }] }
  | .remove session =>
    match g.sessions[session]? with
    | some entry =>
      some { g with sessions := g.sessions.set session { entry with listed := false } }
    | none => none
  | .act session action =>
    match g.sessions[session]? with
    | some entry =>
      (permitsAfter g.permits action).bind fun permits =>
        (entry.replay.step entry.state action).map fun state =>
          { permits := permits
            sessions := g.sessions.set session { entry with state := state } }
    | none => none

/-! ### What an action does -/

variable {g g' : Service σ}

theorem remove_eq_some {session : ℕ} (h : g.step (.remove session) = some g') :
    ∃ entry, g.sessions[session]? = some entry ∧
      g' = { g with sessions := g.sessions.set session { entry with listed := false } } := by
  rw [step] at h
  split at h
  · next entry hentry => exact ⟨entry, hentry, (Option.some.inj h).symm⟩
  · exact absurd h (by simp)

theorem act_eq_some {session : ℕ} {action : ReplayAction}
    (h : g.step (.act session action) = some g') :
    ∃ entry permits state, g.sessions[session]? = some entry ∧
      permitsAfter g.permits action = some permits ∧
      entry.replay.step entry.state action = some state ∧
      g' = { permits := permits
             sessions := g.sessions.set session { entry with state := state } } := by
  rw [step] at h
  split at h
  · next entry hentry =>
    obtain ⟨permits, hpermits, h⟩ := Option.bind_eq_some_iff.mp h
    obtain ⟨state, hstate, rfl⟩ := Option.map_eq_some_iff.mp h
    exact ⟨entry, permits, state, hentry, hpermits, hstate, rfl⟩
  · exact absurd h (by simp)

/-! ### Counting -/

/-- Whether a session holds a permit. -/
def holds (entry : ServiceEntry σ) : Bool := entry.state.task.holds

/-- Whether the thread of a session is in flight. -/
def inFlight (entry : ServiceEntry σ) : Bool := entry.state.thread.inFlight

/-- Replacing an entry of a list trades one contribution to a count for another. -/
theorem countP_set_add {α : Type*} (p : α → Bool) {l : List α} {k : ℕ} {x : α}
    (h : l[k]? = some x) (y : α) :
    (l.set k y).countP p + (p x).toNat = l.countP p + (p y).toNat := by
  obtain ⟨hk, rfl⟩ := List.getElem?_eq_some_iff.mp h
  have hle : (if p l[k] then 1 else 0) ≤ l.countP p := List.boole_getElem_le_countP hk
  rw [List.countP_set hk]
  cases hx : p l[k] <;> cases p y <;> simp_all

/-- **An action keeps account of the permits**: what the semaphore loses the task gains. -/
theorem permitsAfter_add {R : Replay σ} {s s' : Replay.State σ} {action : ReplayAction}
    (h : Replay.Step R s action s') (hi : Replay.Inv s) {permits permits' : ℕ}
    (hp : permitsAfter permits action = some permits') :
    permits' + s'.task.holds.toNat = permits + s.task.holds.toNat := by
  cases h with
  | acquire ht =>
    rw [permitsAfter] at hp
    split at hp
    · next hpos =>
      obtain rfl := Option.some.inj hp
      rw [ht]
      exact Nat.sub_add_cancel hpos
    · exact absurd hp (by simp)
  | release ht =>
    obtain rfl := Option.some.inj hp
    rw [ht]
    rfl
  | take ht hw =>
    obtain rfl := Option.some.inj hp
    rw [if_pos (hi.snapRx (Or.inr (Or.inr ht))), ht]
    rfl
  | client | exit | boot | hook | done | panic | send | close =>
    obtain rfl := Option.some.inj hp
    rfl
  | spawn ht | spawnFailed ht | receive ht | publish ht | rereadSome ht | rereadNone ht
  | save ht =>
    obtain rfl := Option.some.inj hp
    rw [ht]
    rfl

/-- **The invariant of the service**: every permit is with the semaphore or with a task. -/
structure Ok (n : ℕ) (g : Service σ) : Prop where
  inv : ∀ entry ∈ g.sessions, Replay.Inv entry.state
  permits : g.permits + g.sessions.countP holds = n

theorem ok_init (n : ℕ) : Ok n (init n : Service σ) where
  inv _ h := absurd h List.not_mem_nil
  permits := rfl

/-- **Every action keeps the invariant.** -/
theorem Ok.next {n : ℕ} (hok : Ok n g) {action : ServiceAction σ} (h : g.step action = some g') :
    Ok n g' := by
  cases action with
  | create replay now =>
    obtain rfl := Option.some.inj h
    constructor
    · intro entry hentry
      rcases List.mem_append.mp hentry with hentry | hentry
      · exact hok.inv entry hentry
      · obtain rfl := List.mem_singleton.mp hentry
        exact Replay.inv_init now
    · show g.permits + (g.sessions ++ [_]).countP holds = n
      rw [List.countP_append]
      exact hok.permits
  | remove session =>
    obtain ⟨entry, hentry, rfl⟩ := remove_eq_some h
    constructor
    · intro entry' hentry'
      rcases List.mem_or_eq_of_mem_set hentry' with hentry' | rfl
      · exact hok.inv entry' hentry'
      · exact hok.inv entry (List.mem_of_getElem? hentry)
    · have hcount := countP_set_add holds hentry { entry with listed := false }
      have hsame : holds { entry with listed := false } = holds entry := rfl
      have hpermits := hok.permits
      rw [hsame] at hcount
      show g.permits + (g.sessions.set session { entry with listed := false }).countP holds = n
      omega
  | act session action =>
    obtain ⟨entry, permits, state, hentry, hpermits, hstate, rfl⟩ := act_eq_some h
    have hinv := hok.inv entry (List.mem_of_getElem? hentry)
    have hstep := Replay.step_cases hstate
    constructor
    · intro entry' hentry'
      rcases List.mem_or_eq_of_mem_set hentry' with hentry' | rfl
      · exact hok.inv entry' hentry'
      · exact hinv.next hstep
    · have hcount := countP_set_add holds hentry { entry with state := state }
      have htrade : permits + (holds { entry with state := state }).toNat
          = g.permits + (holds entry).toNat := permitsAfter_add hstep hinv hpermits
      have htotal := hok.permits
      show permits + (g.sessions.set session { entry with state := state }).countP holds = n
      omega

/-- **Every interleaving keeps the invariant.** -/
theorem ok_of_run {n : ℕ} {actions : List (ServiceAction σ)}
    (h : Runs.run step (init n) actions = some g) : Ok n g :=
  Runs.run_invariant (fun _ _ _ hok hs => hok.next hs) (ok_init n) h

/-- **A thread in flight has a task that waits for it**, and holds a permit. -/
theorem holds_of_inFlight {entry : ServiceEntry σ} (hi : Replay.Inv entry.state)
    (h : inFlight entry = true) : holds entry = true := by
  rw [inFlight] at h
  have hborn : entry.state.thread ≠ .unborn := fun hc => absurd h (by simp [hc, EvmThread.inFlight])
  have hearly := (hi.quiet (EvmThread.silent_of_inFlight h)).early
  have hspawned := hi.not_unborn hborn
  rw [holds]
  cases ht : entry.state.task with
  | acquiring => exact absurd (Or.inl ht) hspawned
  | finished =>
    rw [ht] at hearly
    exact absurd hearly (by simp [BackgroundTask.early])
  | _ => rfl

/-- **The bound**: threads in flight hold permits, and there are no more permits than `n`. -/
theorem Ok.countP_inFlight_le {n : ℕ} (hok : Ok n g) : g.sessions.countP inFlight ≤ n :=
  calc g.sessions.countP inFlight
      ≤ g.sessions.countP holds := List.countP_mono_left fun entry hentry hflight =>
        holds_of_inFlight (hok.inv entry hentry) hflight
    _ ≤ g.permits + g.sessions.countP holds := Nat.le_add_left _ _
    _ = n := hok.permits

/-- **A permit is given back** by the end of a task, and by nothing else. -/
theorem eq_release_of_lt {action : ServiceAction σ} (h : g.step action = some g')
    (hmore : g.permits < g'.permits) :
    ∃ session entry state, action = .act session .release ∧ g.sessions[session]? = some entry ∧
      entry.replay.step entry.state .release = some state := by
  cases action with
  | create replay now =>
    obtain rfl := Option.some.inj h
    exact absurd hmore (lt_irrefl _)
  | remove session =>
    obtain ⟨entry, -, rfl⟩ := remove_eq_some h
    exact absurd hmore (lt_irrefl _)
  | act session action =>
    obtain ⟨entry, permits, state, hentry, hpermits, hstate, rfl⟩ := act_eq_some h
    cases action with
    | release => exact ⟨session, entry, state, rfl, hentry, hstate⟩
    | acquire =>
      rw [permitsAfter] at hpermits
      split at hpermits
      · obtain rfl := Option.some.inj hpermits
        exact absurd hmore (Nat.not_lt.mpr (Nat.sub_le _ _))
      · exact absurd hpermits (by simp)
    | client _ | spawn _ | evm _ | task | save _ =>
      obtain rfl := Option.some.inj hpermits
      exact absurd hmore (lt_irrefl _)

end Service

/-- **At most `n` replays run at once**, in every interleaving of any number of sessions; and
whenever the semaphore is given a permit back, it is by a session whose thread has sent its
message or dropped its sender. -/
theorem inFlight_le {σ : Type} (n : ℕ) {actions : List (ServiceAction σ)} {g : Service σ}
    (h : Runs.run Service.step (Service.init n) actions = some g) :
    g.sessions.countP Service.inFlight ≤ n ∧
      ∀ action g', g.step action = some g' → g.permits < g'.permits →
        ∃ session entry, action = .act session .release ∧
          g.sessions[session]? = some entry ∧ Service.inFlight entry = false := by
  have hok := Service.ok_of_run h
  refine ⟨hok.countP_inFlight_le, ?_⟩
  intro action g' hs hmore
  obtain ⟨session, entry, state, haction, hentry, hstate⟩ := Service.eq_release_of_lt hs hmore
  have hinv := hok.inv entry (List.mem_of_getElem? hentry)
  refine ⟨session, entry, haction, hentry, ?_⟩
  cases Replay.step_cases hstate with
  | release ht =>
    -- the task has come to its end, so its thread has let something out
    have hlate := hinv.not_silent (by rw [ht]; rfl)
    rw [Bool.eq_false_iff]
    exact fun h => absurd (hlate.symm.trans (EvmThread.silent_of_inFlight h)) (by simp)

/-- Two sessions and one permit. The first has acquired it and spawned its thread; the session
has been removed from the map, and the second one still waits. -/
def oneOfTwo : List (ServiceAction (List Hook)) :=
  [.create (scriptReplay twoSteps (.ok sampleStop)) 0,
    .create (scriptReplay twoSteps (.ok sampleStop)) 0, .act 0 .acquire, .act 0 (.spawn true),
    .act 0 (.client .abortStore), .act 0 (.client .abortWrite), .remove 0]

/-- One replay is running, and no more can. -/
theorem inFlight_oneOfTwo :
    (((Runs.run Service.step (Service.init 1) oneOfTwo).get (by decide)).sessions.countP
        Service.inFlight ≤ 1) ∧
      (((Runs.run Service.step (Service.init 1) oneOfTwo).get (by decide)).sessions.countP
        Service.inFlight = 1) :=
  ⟨(inFlight_le 1 (Option.some_get (by decide)).symm).1, by decide⟩

end EvmDebugger
