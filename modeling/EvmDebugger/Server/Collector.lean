import EvmDebugger.Server.Serial

/-!
# The collector

A session that nobody has accessed for longer than the time to live is removed. The collector
reads the time of the last access in one pass over the map and removes in another, and between
the two anything may happen: a request looks the session up, touches it and is answered, and the
session is removed all the same, because it is on the list. The next request is told that there
is no such session.

So what is promised of the collector (`EvmDebugger.Server.RemovedIdle`) holds when nobody touches
a session that is on its list. There is another way to be wrong, which has to do with the touch
and not with the collector: a touch reads the clock and stores what it said, and a touch that is
overtaken by another puts the time of the last access back. `EvmDebugger.Server.Undisturbed` says
of a step that neither happens, and `EvmDebugger.removes_idle` that in a run of such steps a
session is removed only when it is idle.

The invariant is that whoever is on the list is idle by now, and has not been touched since
(`EvmDebugger.Server.Listed`). Time only passes, so a session on the list stays idle; and only a
touch makes another access.
-/

namespace EvmDebugger

/-! ### Accesses -/

namespace Entry

variable {e e' : Entry} {who : Option ℕ} {a : Action}

/-- **The times at which a session has been accessed**: when it was made, and when it was
touched. -/
def accesses (e : Entry) : List ℕ :=
  e.created :: (e.object.log.map Prod.snd).filterMap Action.accessTime

/-- **The time of the last access that a session shows is that of an access.** -/
theorem lastAccess_mem_accesses (e : Entry) : e.lastAccess ∈ e.accesses := by
  refine Runs.run_induction (motive := fun as w =>
    w.session.lastAccessSecs ∈ e.created :: as.filterMap Action.accessTime) ?_ ?_ e.run_log
  · rw [start]
    cases e.origin <;> exact List.mem_cons_self
  · rintro as a w w' - hmem hstep
    rw [(World.session_step hstep).2, List.filterMap_append, ← List.cons_append]
    cases htime : a.accessTime with
    | none => exact List.mem_append_left _ hmem
    | some time => exact List.mem_append_right _ (List.mem_filterMap.mpr ⟨a, by simp, htime⟩)

/-- **Only a touch is an access.** -/
theorem accesses_act (h : e.act who a = some e') (hnot : a.isTouch = false) :
    e'.accesses = e.accesses ∧ e'.touches = e.touches := by
  obtain ⟨o, ho, rfl⟩ := Option.map_eq_some_iff.mp h
  obtain ⟨-, hlog⟩ := Logged.act_eq_some ho
  have htime : a.accessTime = none := by
    cases a with
    | touch _ => exact absurd hnot (by simp [Action.isTouch])
    | _ => rfl
  constructor
  · show e.created :: (o.log.map Prod.snd).filterMap Action.accessTime = e.accesses
    rw [hlog, List.map_append, List.filterMap_append, List.map_singleton,
      List.filterMap_cons_none htime, List.filterMap_nil, List.append_nil]
    rfl
  · show o.log.countP (fun entry => entry.2.isTouch) = e.touches
    rw [hlog, List.countP_append, List.countP_singleton, if_neg (by simp [hnot]), Nat.add_zero]
    rfl

end Entry

/-! ### Whom the collector removes -/

namespace Server

/-- **What is promised when a session is removed**: more than the time to live has passed since it
was last accessed – by what it shows, and by every access there was – and since the collector has
read that, it has not been touched. -/
structure RemovedIdle (ttl : ℕ) (s : Server) (id : String) (e : Entry) : Prop where
  shown : ttl < s.now - e.lastAccess
  idle : ∀ time ∈ e.accesses, ttl < s.now - time
  untouched : ∃ keys, s.gc = .removing ((id, e.touches) :: keys)

/-- **The steps that do not mislead the collector**: a touch is not stored in a session on the
list; and no session is put on the list because an access that was overtaken has put the time of
the last access back. -/
def Undisturbed (ttl : ℕ) (rq : ℕ → Request) (s : Server) : ServerAction → Prop
  | .storeTouch r => ∀ key ∈ s.gc.keys, key.1 ≠ (rq r).id
  | .gcRead id => ∀ now keys e, s.gc = .scanning now keys →
      (s.sessions id).bind (s.heap[·]?) = some e → ttl < now - e.lastAccess →
      ∀ time ∈ e.accesses, ttl < now - time
  | _ => True

variable {ttl : ℕ} {rq : ℕ → Request} {s s' : Server} {a : ServerAction}

/-- **The invariant of the collector.** -/
structure Listed (ttl : ℕ) (s : Server) : Prop where
  clock : ∀ now keys, s.gc = .scanning now keys → now ≤ s.now
  found : ∀ key ∈ s.gc.keys, ∃ e ∈ s.heap, e.id = key.1
  idle : ∀ key ∈ s.gc.keys, ∀ place e, s.sessions key.1 = some place →
    s.heap[place]? = some e → (∀ time ∈ e.accesses, ttl < s.now - time) ∧ e.touches = key.2

/-- Nobody is on the list. -/
theorem Listed.of_keys_eq_nil (hclock : ∀ now keys, s.gc = .scanning now keys → now ≤ s.now)
    (h : s.gc.keys = []) : Listed ttl s where
  clock := hclock
  found key hkey := absurd hkey (by simp [h])
  idle key hkey := absurd hkey (by simp [h])

/-- **Nobody new is on the list, time passes, and who is on it is not accessed.** -/
theorem Listed.mono (h : Listed ttl s)
    (hclock : ∀ now keys, s'.gc = .scanning now keys → now ≤ s'.now)
    (hkeys : ∀ key ∈ s'.gc.keys, key ∈ s.gc.keys) (hnow : s.now ≤ s'.now)
    (hids : ∀ e ∈ s.heap, ∃ e' ∈ s'.heap, e'.id = e.id)
    (hsame : ∀ key ∈ s.gc.keys, ∀ place e', s'.sessions key.1 = some place →
      s'.heap[place]? = some e' → ∃ e, s.sessions key.1 = some place ∧
        s.heap[place]? = some e ∧ e'.accesses = e.accesses ∧ e'.touches = e.touches) :
    Listed ttl s' where
  clock := hclock
  found key hkey := by
    obtain ⟨e, he, hid⟩ := h.found key (hkeys key hkey)
    obtain ⟨e', he', hid'⟩ := hids e he
    exact ⟨e', he', hid'.trans hid⟩
  idle key hkey place e' hplace he' := by
    obtain ⟨e, hplace', he, haccesses, htouches⟩ := hsame key (hkeys key hkey) place e' hplace he'
    obtain ⟨hidle, hcount⟩ := h.idle key (hkeys key hkey) place e hplace' he
    refine ⟨fun time htime => ?_, htouches.trans hcount⟩
    have hold := hidle time (haccesses ▸ htime)
    omega

/-- **Somebody takes the lock of a session**: not to touch one that is on the list. -/
theorem Listed.act (h : Listed ttl s) (hserial : Serial rq s) {q : ℕ} {x x' : Entry}
    {who : Option ℕ} {act : Action} (hx : s.heap[q]? = some x) (hact : x.act who act = some x')
    (hother : act.isTouch = true → ∀ key ∈ s.gc.keys, key.1 ≠ x.id) (hgc : s'.gc = s.gc)
    (hnow : s'.now = s.now) (hsessions : s'.sessions = s.sessions)
    (hheap : s'.heap = s.heap.set q x') : Listed ttl s' := by
  obtain ⟨⟨hid, -⟩, -⟩ := Entry.act_eq_some hact
  refine h.mono (fun now keys heq => ?_) (fun key hkey => hgc ▸ hkey) hnow.ge (fun e he => ?_)
    fun key hkey place e' hplace he' => ?_
  · rw [hnow]
    exact h.clock now keys (hgc ▸ heq)
  · obtain ⟨n, hn⟩ := List.getElem?_of_mem he
    obtain ⟨e', he', hid'⟩ := exists_set hx hid ⟨e, hn, rfl⟩
    exact ⟨e', hheap ▸ List.mem_of_getElem? he', hid'⟩
  · rw [hsessions] at hplace
    rw [hheap] at he'
    rcases (getElem?_set_eq_some hx).mp he' with ⟨rfl, rfl⟩ | ⟨-, he'⟩
    · refine ⟨x, hplace, hx, Entry.accesses_act hact ?_⟩
      rw [Bool.eq_false_iff]
      intro htouch
      -- whoever is at the place that the map has for the key, bears its name
      obtain ⟨y, hy, hid'⟩ := hserial.mapped key.1 q hplace
      obtain rfl := Option.some.inj (hx.symm.trans hy)
      exact hother htouch key hkey hid'.symm
    · exact ⟨e', hplace, he', rfl, rfl⟩

/-- **A new session** is not on the list: its name is new, and those on the list are not. -/
theorem Listed.create (h : Listed ttl s) (hserial : Serial rq s) {id : String}
    (hfresh : ∀ e ∈ s.heap, e.id ≠ id) (new : Entry) :
    Listed ttl
      { s with
        sessions := Function.update s.sessions id (some s.heap.length)
        heap := s.heap ++ [new] } := by
  refine h.mono h.clock (fun _ hkey => hkey) le_rfl
    (fun e he => ⟨e, List.mem_append_left _ he, rfl⟩) fun key hkey place e' hplace he' => ?_
  have hne : key.1 ≠ id := by
    obtain ⟨e, he, hid⟩ := h.found key hkey
    exact hid ▸ hfresh e he
  have hplace : s.sessions key.1 = some place := (Function.update_of_ne hne ..).symm.trans hplace
  obtain ⟨x, hx, -⟩ := hserial.mapped key.1 place hplace
  obtain ⟨hlt, -⟩ := List.getElem?_eq_some_iff.mp hx
  exact ⟨e', hplace, (List.getElem?_append_left hlt).symm.trans he', rfl, rfl⟩

/-- **The collector puts a session on its list**: it is idle, by every access, when the collector
looks at its clock, and all the more by now. -/
theorem Listed.read (h : Listed ttl s) (hserial : Serial rq s) {now place : ℕ} {id : String}
    {keys : List (String × ℕ)} {e : Entry} (hgc : s.gc = .scanning now keys)
    (hid : s.sessions id = some place) (he : s.heap[place]? = some e)
    (hidle : ∀ time ∈ e.accesses, ttl < now - time) :
    Listed ttl { s with gc := .scanning now (keys ++ [(id, e.touches)]) } := by
  have hkeys : s.gc.keys = keys := by rw [hgc]; rfl
  refine ⟨fun now' keys' heq => ?_, fun key hkey => ?_, fun key hkey q e' hplace he' => ?_⟩
  · obtain ⟨rfl, -⟩ := Collector.scanning.inj heq
    exact h.clock now keys hgc
  · rcases List.mem_append.mp hkey with hkey | hkey
    · exact h.found key (hkeys ▸ hkey)
    · obtain rfl := List.mem_singleton.mp hkey
      obtain ⟨x, hx, hxid⟩ := hserial.mapped id place hid
      exact ⟨x, List.mem_of_getElem? hx, hxid⟩
  · rcases List.mem_append.mp hkey with hkey | hkey
    · exact h.idle key (hkeys ▸ hkey) q e' hplace he'
    · obtain rfl := List.mem_singleton.mp hkey
      obtain rfl := Option.some.inj (hid.symm.trans hplace)
      obtain rfl := Option.some.inj (he.symm.trans he')
      -- time has passed since the collector looked at the clock
      refine ⟨fun time htime => ?_, rfl⟩
      have hread := hidle time htime
      have hnow := h.clock now keys hgc
      show ttl < s.now - time
      omega

/-- **The collector removes the next one on its list.** -/
theorem Listed.remove (h : Listed ttl s) {key : String × ℕ} {keys : List (String × ℕ)}
    (hgc : s.gc = .removing (key :: keys)) :
    Listed ttl
      { s with sessions := Function.update s.sessions key.1 none, gc := .removing keys } := by
  have hkeys : s.gc.keys = key :: keys := by rw [hgc]; rfl
  refine h.mono (fun _ _ heq => absurd heq (by simp))
    (fun key' hkey => hkeys ▸ List.mem_cons_of_mem key hkey) le_rfl (fun e he => ⟨e, he, rfl⟩)
    fun key' _ place e' hplace he' => ?_
  have hne : key'.1 ≠ key.1 := by
    intro heq
    rw [heq] at hplace
    exact absurd (hplace.symm.trans (Function.update_self ..)) (by simp)
  exact ⟨e', (Function.update_of_ne hne ..).symm.trans hplace, he', rfl, rfl⟩

/-- **A step that does not mislead the collector keeps the invariant.** -/
theorem Listed.did (h : Listed ttl s) (hserial : Serial rq s) (hdid : Did ttl rq s a s')
    (hfair : Undisturbed ttl rq s a) : Listed ttl s' := by
  have hids : ∀ e ∈ s.heap, ∃ e' ∈ s.heap, e'.id = e.id := fun e he => ⟨e, he, rfl⟩
  have hsame : ∀ key ∈ s.gc.keys, ∀ place e', s.sessions key.1 = some place →
      s.heap[place]? = some e' → ∃ e, s.sessions key.1 = some place ∧
        s.heap[place]? = some e ∧ e'.accesses = e.accesses ∧ e'.touches = e.touches :=
    fun key _ place e' hplace he' => ⟨e', hplace, he', rfl, rfl⟩
  cases hdid with
  | @tick secs =>
    refine h.mono (fun now keys hgc => ?_) (fun _ hkey => hkey) (Nat.le_add_right _ _) hids hsame
    exact (h.clock now keys hgc).trans (Nat.le_add_right _ _)
  | create hfresh => exact h.create hserial hfresh _
  | @background q act x x' ha hx hact =>
    refine h.act hserial hx hact (fun htouch => ?_) rfl rfl rfl rfl
    cases act <;> simp [Action.isTouch, Action.isBackground] at htouch ha
  | moves hlive hhistory => exact h.mono h.clock (fun _ hkey => hkey) le_rfl hids hsame
  | @acts a r q done act stage readers x x' hbefore hlive hx hact hafter htouch hanswer =>
    refine h.act hserial hx hact (fun hisTouch key hkey => ?_) rfl rfl rfl rfl
    -- a touch of the session that the request has found; it is not on the list
    obtain rfl := htouch hisTouch
    obtain ⟨e, he, hid⟩ := (hserial.agrees r).found q done hbefore
    obtain rfl := Option.some.inj (hx.symm.trans he)
    exact hid ▸ hfair key hkey
  | gcStart hgc =>
    refine .of_keys_eq_nil (fun now keys heq => ?_) rfl
    obtain ⟨rfl, -⟩ := Collector.scanning.inj heq
    exact le_rfl
  | @gcRead id now place keys e hgc hid he hold =>
    exact h.read hserial hgc hid he (hfair now keys e hgc (by rw [hid]; exact he) hold)
  | gcSkip => exact h
  | @gcCollected now keys hgc =>
    have hkeys : s.gc.keys = keys := by rw [hgc]; rfl
    exact h.mono (fun _ _ heq => absurd heq (by simp)) (fun key hkey => hkeys ▸ hkey) le_rfl hids
      hsame
  | gcRemove hgc => exact h.remove hgc
  | gcEnd hgc => exact .of_keys_eq_nil (fun _ _ heq => absurd heq (by simp)) rfl

/-- **Only the collector removes a session**, and only the next one on its list. -/
theorem Did.removed (hdid : Did ttl rq s a s') {id : String} {place : ℕ}
    (hid : s.sessions id = some place) (hgone : s'.sessions id = none) :
    ∃ count keys, s.gc = .removing ((id, count) :: keys) := by
  cases hdid with
  | @gcRemove key keys hgc =>
    obtain rfl : id = key.1 := by
      by_contra hne
      have hkept : s.sessions id = none := (Function.update_of_ne hne ..).symm.trans hgone
      exact absurd (hid.symm.trans hkept) (by simp)
    exact ⟨key.2, keys, hgc⟩
  | @create id' origin created hfresh =>
    by_cases heq : id = id'
    · subst heq
      exact absurd ((Function.update_self ..).symm.trans hgone) (by simp)
    · have hkept : s.sessions id = none := (Function.update_of_ne heq ..).symm.trans hgone
      exact absurd (hid.symm.trans hkept) (by simp)
  | _ => exact absurd (hid.symm.trans hgone) (by simp)

end Server

/-- **The collector removes idle sessions**, in every run whose steps do not mislead it. -/
theorem removes_idle {ttl : ℕ} {rq : ℕ → Request} {actions : List ServerAction} {s : Server}
    (hrun : Runs.run (Server.step ttl rq) .init actions = some s)
    (hfair : Runs.Along (Server.step ttl rq) (Server.Undisturbed ttl rq) .init actions)
    {a : ServerAction} {s' : Server} (hstep : s.step ttl rq a = some s') {id : String}
    {place : ℕ} {e : Entry} (hid : s.sessions id = some place) (he : s.heap[place]? = some e)
    (hgone : s'.sessions id = none) : Server.RemovedIdle ttl s id e := by
  have hlisted : Server.Serial rq s ∧ Server.Listed ttl s := by
    refine Runs.run_invariant_along
      (motive := fun t => Server.Serial rq t ∧ Server.Listed ttl t) ?_
      ⟨Server.serial_init, .of_keys_eq_nil (fun _ _ heq => absurd heq (by simp [Server.init])) rfl⟩
      hfair hrun
    rintro t a t' ⟨hserial, hlisted⟩ hfair hstep
    have hdid := Server.did hstep
    exact ⟨hserial.did hdid, hlisted.did hserial hdid hfair⟩
  -- it is removed by the collector, so it is next on the list, and the invariant speaks of it
  obtain ⟨count, keys, hgc⟩ := (Server.did hstep).removed hid hgone
  have hmem : (id, count) ∈ s.gc.keys := by
    rw [hgc]
    exact List.mem_cons_self
  obtain ⟨hidle, rfl⟩ := hlisted.2.idle _ hmem place e hid he
  exact ⟨hidle _ e.lastAccess_mem_accesses, hidle, keys, hgc⟩

/-- Everybody asks for the state of the session `a`. -/
def stateRequests (_ : ℕ) : Request := ⟨.getSession, "a"⟩

/-- A session is touched once, and long after that the collector puts it on its list. -/
def collectedLater : List ServerAction :=
  [.create "a" .new 0, .tick 1, .lookup 0, .readClock 0, .storeTouch 0, .perform 0, .tick 90,
    .gcStart, .gcRead "a", .gcCollected]

/-- When it is removed, it is idle. -/
theorem removedIdle_collectedLater :
    ∃ s s' e, Runs.run (Server.step 60 stateRequests) .init collectedLater = some s ∧
      s.step 60 stateRequests .gcRemove = some s' ∧ s.heap[0]? = some e ∧
      s'.sessions "a" = none ∧ Server.RemovedIdle 60 s "a" e := by
  have hfair : Runs.Along (Server.step 60 stateRequests)
      (Server.Undisturbed 60 stateRequests) .init collectedLater := by
    refine (Runs.along_cons rfl).mpr ⟨trivial, (Runs.along_cons rfl).mpr ⟨trivial,
      (Runs.along_cons rfl).mpr ⟨trivial, (Runs.along_cons rfl).mpr ⟨trivial,
      (Runs.along_cons rfl).mpr ⟨?_, (Runs.along_cons rfl).mpr ⟨trivial,
      (Runs.along_cons rfl).mpr ⟨trivial, (Runs.along_cons rfl).mpr ⟨trivial,
      (Runs.along_cons rfl).mpr ⟨?_, (Runs.along_cons rfl).mpr ⟨trivial, trivial⟩⟩⟩⟩⟩⟩⟩⟩⟩⟩
    · rintro key hkey
      exact absurd hkey List.not_mem_nil
    · rintro now keys e hgc he -
      obtain ⟨rfl, -⟩ := Collector.scanning.inj hgc
      have haccesses : e.accesses = [0, 1] := by
        obtain rfl := Option.some.inj he
        rfl
      rw [haccesses]
      decide
  obtain ⟨s, s', e, hrun, hstep, hid, he, hgone⟩ : ∃ s s' e,
      Runs.run (Server.step 60 stateRequests) .init collectedLater = some s ∧
        s.step 60 stateRequests .gcRemove = some s' ∧ s.sessions "a" = some 0 ∧
        s.heap[0]? = some e ∧ s'.sessions "a" = none :=
    ⟨_, _, _, rfl, rfl, rfl, rfl, rfl⟩
  exact ⟨s, s', e, hrun, hstep, he, hgone, removes_idle hrun hfair hstep hid he hgone⟩

/-- A session is on the list of the collector; then a client asks for its state, and gets it. -/
def touchedOnTheList : List ServerAction :=
  [.create "a" .new 0, .tick 2000, .gcStart, .gcRead "a", .gcCollected, .lookup 0, .readClock 0,
    .storeTouch 0, .perform 0]

/-- **A session that has just been touched is removed.** -/
theorem not_removedIdle_touchedOnTheList :
    ¬∀ s s' place e, Runs.run (Server.step 1800 stateRequests) .init touchedOnTheList = some s →
      s.step 1800 stateRequests .gcRemove = some s' → s.sessions "a" = some place →
      s.heap[place]? = some e → s'.sessions "a" = none → Server.RemovedIdle 1800 s "a" e := by
  intro h
  have hremoved := h _ _ _ _ rfl rfl rfl rfl rfl
  exact absurd hremoved.shown (by decide)

end EvmDebugger
