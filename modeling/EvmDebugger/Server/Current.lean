import EvmDebugger.Server.History

/-!
# Answers that are still true

An answer says how a session was when it was given. If nobody else does anything to the session, and
whoever asked waits for the answer before doing the next thing, then it says how the session is.

What nobody does to a session, the session does not do by itself, either – once it has a trace, or
an error, or is aborted. As long as it is loading, its thread may send something at any time. So a
session that is not loading (`EvmDebugger.Server.Loaded`) stays in its state
(`EvmDebugger.Server.InState`) until somebody's command has moved it, and whoever gave that command
is told where to (`EvmDebugger.Server.Telling`); and a session that nobody has given a command is at
the beginning of its trace, if it has one (`EvmDebugger.Server.AtStart`).
-/

namespace EvmDebugger

/-! ### One session -/

/-- The actions that leave the data of a session as they are. -/
def Action.keepsData : Action → Bool
  | touch _ | currentState | getTraceSteps | snapshotsForCache | abortStore => true
  | waitTake | waitRecv _ | waitPublish _ | send _ | disconnect | stepInto | stepOver | continueExec
  | abortWrite => false

/-- If the data are a trace, then it is at its beginning. -/
def SessionData.AtStart (data : SessionData) : Prop :=
  ∀ snapshots i result, data = .ready snapshots i result → i = 0

/-- What a message says is at its beginning. -/
theorem SessionData.atStart_ofMessage (msg : ChannelMessage) : (ofMessage msg).AtStart := by
  intro snapshots i result hready
  cases msg with
  | allSnapshots snapshots' result' => exact (SessionData.ready.inj hready).2.1.symm
  | error message => exact absurd hready (by simp [ofMessage])

/-- And so is a session just made. -/
theorem Origin.atStart_world (o : Origin) (now : ℕ) : (o.world now).session.data.AtStart := by
  intro snapshots i result hready
  cases o with
  | new => exact absurd hready (by simp [Origin.world, World.new, DebugSession.new])
  | fromCache snapshots' result' => exact (SessionData.ready.inj hready).2.1.symm

namespace World

variable {o : Origin} {w w' : World} {a : Action}

theorem data_of_keepsData (hs : w.step a = some w') (ha : a.keepsData = true) :
    w'.session.data = w.session.data := by
  cases a with
  | touch _ | currentState | getTraceSteps | snapshotsForCache | abortStore =>
    obtain rfl := Option.some.inj hs
    rfl
  | _ => exact absurd ha (by simp [Action.keepsData])

/-- **The tasks in the background do nothing to a session that is not loading.** -/
theorem Ok.background (h : Ok o w) (hs : w.step a = some w') (ha : a.isBackground = true)
    (hdata : w.session.data ≠ .loading) : w'.session.data = w.session.data := by
  cases a with
  | waitTake =>
    rw [World.step] at hs
    split at hs <;> exact Option.some.inj hs ▸ rfl
  | waitRecv caller =>
    obtain ⟨-, got, -, rfl⟩ := waitRecv_eq_some hs
    rfl
  | waitPublish caller =>
    -- who waits finds no trace: the session has been aborted
    obtain ⟨msg, hmsg, rfl⟩ := waitPublish_eq_some hs
    obtain ⟨-, -, -, -, hwaiting, -⟩ := h.waiter hmsg
    have haborted := hwaiting.resolve_left hdata
    show (w.session.data.publish msg).1 = w.session.data
    rw [haborted, SessionData.publish_aborted]
  | send msg =>
    obtain ⟨-, -, rfl⟩ := send_eq_some hs
    rfl
  | disconnect =>
    obtain ⟨-, rfl⟩ := disconnect_eq_some hs
    rfl
  | currentState | getTraceSteps | snapshotsForCache => exact data_of_keepsData hs rfl
  | stepInto | stepOver | continueExec | abortStore | abortWrite | touch _ =>
    exact absurd ha (by simp [Action.isBackground])

/-- **Without a command, a session stays at its beginning.** -/
theorem Ok.atStart (h : Ok o w) (hs : w.step a = some w')
    (ha : a.isBackground = true ∨ a.keepsData = true) (hdata : w.session.data.AtStart) :
    w'.session.data.AtStart := by
  by_cases hloading : w.session.data = .loading
  · rcases h.moves hs with hserved | ⟨-, msg, hmsg⟩
    · rw [hloading] at hserved
      intro snapshots i result hready
      rcases hserved with heq | heq <;> exact absurd (hready.symm.trans heq) (by simp)
    · exact hmsg ▸ SessionData.atStart_ofMessage msg
  · have hsame : w'.session.data = w.session.data := by
      rcases ha with hback | hkeeps
      · exact h.background hs hback hloading
      · exact data_of_keepsData hs hkeeps
    exact hsame ▸ hdata

/-- No session is loading again. -/
theorem Ok.ne_loading (h : Ok o w) (hs : w.step a = some w') (hdata : w.session.data ≠ .loading) :
    w'.session.data ≠ .loading := by
  rcases h.moves hs with hserved | ⟨hloading, -⟩
  · intro hloading
    rw [hloading] at hserved
    cases hw : w.session.data with
    | loading => exact hdata hw
    | ready snapshots i result =>
      rw [hw] at hserved
      rcases hserved with heq | ⟨j, -, -, heq⟩ <;> exact absurd heq (by simp)
    | aborted =>
      rw [hw] at hserved
      exact absurd hserved (by simp [SessionData.Served])
    | error message =>
      rw [hw] at hserved
      rcases hserved with heq | heq <;> exact absurd heq (by simp)
  · exact absurd hloading hdata

end World

/-- What a state says of a session that is not loading. -/
theorem SessionData.currentStateLocked_eq_loading {data : SessionData} :
    data.currentStateLocked = .loading ↔ data = .loading := by
  cases data with
  | loading => exact ⟨fun _ => rfl, fun _ => rfl⟩
  | ready snapshots i result =>
    refine ⟨fun h => absurd h ?_, fun h => absurd h (by simp)⟩
    show SessionData.stateAt snapshots i result ≠ .loading
    rw [SessionData.stateAt.eq_def]
    split
    · simp
    · split <;> simp
  | aborted => exact ⟨fun h => absurd h (by simp [currentStateLocked]), fun h => absurd h (by simp)⟩
  | error _ => exact ⟨fun h => absurd h (by simp [currentStateLocked]), fun h => absurd h (by simp)⟩

/-- **What a request is answered is the state it leaves behind.** -/
theorem World.state_of_reply {w w' : World} {route : Route} {state : SessionState}
    (hs : w.step route.action = some w') (hreply : w.reply route.action = some (.state state)) :
    w'.session.data.currentStateLocked = state := by
  cases route with
  | stepInto =>
    obtain rfl := Option.some.inj hs
    exact (SessionData.stepInto_snd _).symm.trans (Reply.state.inj (Option.some.inj hreply))
  | stepOver =>
    obtain rfl := Option.some.inj hs
    exact (SessionData.stepOver_snd _).symm.trans (Reply.state.inj (Option.some.inj hreply))
  | continueExec =>
    obtain rfl := Option.some.inj hs
    exact (SessionData.continueExec_snd _).symm.trans (Reply.state.inj (Option.some.inj hreply))
  | getSession =>
    obtain rfl := Option.some.inj hs
    exact Reply.state.inj (Option.some.inj hreply)
  | getTraceSteps => exact absurd hreply (by simp [Route.action, World.reply])
  | abortSession => exact absurd hreply (by simp [Route.action, World.reply])

/-- The list is that of the session, which only one of the requests asks for. -/
theorem World.list_of_reply {w w' : World} {route : Route} {steps : List TraceStep}
    (hs : w.step route.action = some w') (hreply : w.reply route.action = some (.trace steps)) :
    w'.session.data.getTraceSteps = steps := by
  cases route with
  | getTraceSteps =>
    obtain rfl := Option.some.inj hs
    exact Reply.trace.inj (Option.some.inj hreply)
  | stepInto | stepOver | continueExec | getSession | abortSession =>
    exact absurd hreply (by simp [Route.action, World.reply])

/-- And an abort leaves it aborted. -/
theorem World.aborted_of_abortWrite {w w' : World} (hs : w.step .abortWrite = some w') :
    w'.session.data = .aborted := by
  rw [World.step, World.command] at hs
  · split at hs
    · obtain rfl := Option.some.inj hs
      rfl
    · exact absurd hs (by simp)
  all_goals simp

/-- What a request does to its session. -/
theorem Stage.mem_history {stage : Stage} {route : Route} {place : ℕ} {done : List Action}
    {act : Action} (h : stage.history route = some (place, done)) (hact : act ∈ done) :
    act.isTouch = true ∨ act ∈ route.before ∨ act = route.action := by
  cases stage with
  | new => exact absurd h (by simp [history])
  | found _ | clocked _ _ =>
    obtain ⟨-, rfl⟩ := Prod.mk.inj (Option.some.inj h)
    exact absurd hact List.not_mem_nil
  | touched _ _ | released _ _ =>
    obtain ⟨-, rfl⟩ := Prod.mk.inj (Option.some.inj h)
    obtain rfl := List.mem_singleton.mp hact
    exact Or.inl rfl
  | aborting _ _ =>
    obtain ⟨-, rfl⟩ := Prod.mk.inj (Option.some.inj h)
    rcases List.mem_cons.mp hact with rfl | hact
    · exact Or.inl rfl
    · exact Or.inr (Or.inl hact)
  | answered found response =>
    cases found with
    | none => exact absurd h (by simp [history])
    | some found =>
      obtain ⟨-, rfl⟩ := Prod.mk.inj (Option.some.inj h)
      rcases List.mem_cons.mp hact with rfl | hact
      · exact Or.inl rfl
      · split at hact
        · exact absurd hact List.not_mem_nil
        · rcases List.mem_append.mp hact with hact | hact
          · exact Or.inr (Or.inl hact)
          · exact Or.inr (Or.inr (List.mem_singleton.mp hact))

/-- A request that only reads leaves the data as they are. -/
theorem Stage.keepsData_of_underGuard {stage : Stage} {route : Route}
    (hroute : route.underGuard = true) {place : ℕ} {done : List Action} {act : Action}
    (h : stage.history route = some (place, done)) (hact : act ∈ done) : act.keepsData = true := by
  rcases stage.mem_history h hact with htouch | hbefore | rfl
  · cases act <;> simp_all [Action.isTouch, Action.keepsData]
  · cases route <;> simp_all [Route.underGuard, Route.before]
  · cases route <;> simp_all [Route.underGuard, Route.action, Action.keepsData]

/-! ### All sessions -/

namespace Server

variable {ttl : ℕ} {rq : ℕ → Request} {s s' : Server} {a : ServerAction} {id : String}
  {state : SessionState} {sent : List ℕ} {r : ℕ}

/-- **The session of this name is in this state.** -/
def InState (s : Server) (id : String) (state : SessionState) : Prop :=
  ∃ (place : ℕ) (e : Entry), s.heap[place]? = some e ∧ e.id = id ∧
    e.world.session.data.currentStateLocked = state

/-- **The session of this name is not loading.** -/
def Loaded (s : Server) (id : String) : Prop :=
  ∃ (place : ℕ) (e : Entry), s.heap[place]? = some e ∧ e.id = id ∧
    e.world.session.data ≠ .loading

/-- **Nobody else has done anything to the session of this name.** -/
def Alone (s : Server) (sent : List ℕ) (id : String) : Prop :=
  ∀ (place : ℕ) (e : Entry), s.heap[place]? = some e → e.id = id →
    ∀ entry ∈ e.object.log, ∀ r, entry.1 = some r → r ∈ sent

/-- **The session of this name shows this list**, and is not loading. -/
def Lists (s : Server) (id : String) (steps : List TraceStep) : Prop :=
  ∃ (place : ℕ) (e : Entry), s.heap[place]? = some e ∧ e.id = id ∧
    e.world.session.data ≠ .loading ∧ e.world.session.data.getTraceSteps = steps

/-- **The session of this name is at the beginning of its trace**, if it has one. -/
def AtStart (s : Server) (id : String) : Prop :=
  ∀ (place : ℕ) (e : Entry), s.heap[place]? = some e → e.id = id → e.world.session.data.AtStart

/-- **A session that nobody has done anything to is as it was made**, or at its beginning if it was
made to load. -/
def Untouched (s : Server) : Prop :=
  ∀ (place : ℕ) (e : Entry), s.heap[place]? = some e → (∀ entry ∈ e.object.log, entry.1 = none) →
    (e.start.session.data ≠ .loading → e.world.session.data = e.start.session.data) ∧
      e.world.session.data.AtStart

theorem InState.loaded (h : s.InState id state) (hne : state ≠ .loading) : s.Loaded id := by
  obtain ⟨place, e, he, hid, hstate⟩ := h
  refine ⟨place, e, he, hid, fun hloading => hne ?_⟩
  rw [← hstate]
  exact SessionData.currentStateLocked_eq_loading.mpr hloading

/-- **What a step of the server does to a session**: nothing, or one action, of a task in the
background or of a request that has not been answered. -/
theorem Did.entry (hdid : Did ttl rq s a s') {place : ℕ} {e : Entry}
    (he : s.heap[place]? = some e) :
    s'.heap[place]? = some e ∨ ∃ who act e', s'.heap[place]? = some e' ∧ e.act who act = some e' ∧
      (who = none ∧ act.isBackground = true ∨ ∃ r done, who = some r ∧
        (s.stage r).isAnswered = false ∧
        (s'.stage r).history (rq r).route = some (place, done ++ [act])) := by
  cases hdid with
  | create hfresh =>
    obtain ⟨hlt, -⟩ := List.getElem?_eq_some_iff.mp he
    exact Or.inl ((List.getElem?_append_left hlt).trans he)
  | @background q act x x' ha hx hact =>
    by_cases heq : q = place
    · subst heq
      obtain rfl := Option.some.inj (he.symm.trans hx)
      exact Or.inr ⟨none, act, x', (getElem?_set_eq_some hx).mpr (Or.inl ⟨rfl, rfl⟩), hact,
        Or.inl ⟨rfl, ha⟩⟩
    · exact Or.inl ((getElem?_set_eq_some hx).mpr (Or.inr ⟨heq, he⟩))
  | @acts _ r q done act stage readers x x' hbefore hlive hx hact hafter =>
    by_cases heq : q = place
    · subst heq
      obtain rfl := Option.some.inj (he.symm.trans hx)
      refine Or.inr ⟨some r, act, x', (getElem?_set_eq_some hx).mpr (Or.inl ⟨rfl, rfl⟩), hact,
        Or.inr ⟨r, done, rfl, hlive, ?_⟩⟩
      show (Function.update s.stage r stage r).history (rq r).route = _
      rw [Function.update_self]
      exact hafter
    · exact Or.inl ((getElem?_set_eq_some hx).mpr (Or.inr ⟨heq, he⟩))
  | _ => exact Or.inl he

/-- **What a session comes from**: from itself, by nothing or by one action, or it has just been
made. -/
theorem Did.entry_from (hdid : Did ttl rq s a s') {place : ℕ} {e' : Entry}
    (he' : s'.heap[place]? = some e') :
    (∃ e, s.heap[place]? = some e ∧ (e' = e ∨ ∃ who act, e.act who act = some e' ∧
      (who = none ∧ act.isBackground = true ∨ ∃ r done, who = some r ∧
        (s.stage r).isAnswered = false ∧
        (s'.stage r).history (rq r).route = some (place, done ++ [act])))) ∨
      ∃ id origin created, e' = .new id origin created := by
  by_cases hold : place < s.heap.length
  · obtain ⟨e, he⟩ : ∃ e, s.heap[place]? = some e := ⟨_, List.getElem?_eq_getElem hold⟩
    refine Or.inl ⟨e, he, ?_⟩
    rcases hdid.entry he with hsame | ⟨who, act, e₁, he₁, hact, hwho⟩
    · exact Or.inl (Option.some.inj (he'.symm.trans hsame))
    · obtain rfl := Option.some.inj (he₁.symm.trans he')
      exact Or.inr ⟨who, act, hact, hwho⟩
  · obtain ⟨hlt, -⟩ := List.getElem?_eq_some_iff.mp he'
    cases hdid with
    | @create id origin created hfresh =>
      rcases Runs.getElem?_snoc he' with ⟨hlt, -⟩ | ⟨-, rfl⟩
      · exact absurd hlt hold
      · exact Or.inr ⟨id, origin, created, rfl⟩
    | background ha hx hact => exact absurd (List.length_set ▸ hlt) hold
    | acts hbefore hlive hx hact => exact absurd (List.length_set ▸ hlt) hold
    | _ => exact absurd hlt hold

/-- A session does not load again. -/
theorem Loaded.did (h : s.Loaded id) (hdid : Did ttl rq s a s') : s'.Loaded id := by
  obtain ⟨place, e, he, hid, hne⟩ := h
  rcases hdid.entry he with he' | ⟨who, act, e', he', hact, -⟩
  · exact ⟨place, e, he', hid, hne⟩
  · obtain ⟨⟨hid', -⟩, hstep, -⟩ := Entry.act_eq_some hact
    exact ⟨place, e', he', hid'.trans hid, (World.ok_of_run e.run_log).ne_loading hstep hne⟩

/-- Nobody else had done anything to it before. -/
theorem Alone.of_did (h : s'.Alone sent id) (hdid : Did ttl rq s a s') : s.Alone sent id := by
  intro place e he hid entry hentry
  obtain ⟨e', he', hlater⟩ := hdid.later he
  exact h place e' he' (hlater.id.trans hid) entry (hlater.log.subset hentry)

/-- Nor before a request was sent, which had done nothing then. -/
theorem Alone.of_send (h : s.Alone (r :: sent) id) (hserial : Serial rq s)
    (hnew : s.stage r = .new) : s.Alone sent id := by
  intro place e he hid entry hentry r' hr'
  rcases List.mem_cons.mp (h place e he hid entry hentry r' hr') with rfl | hsent
  · have hsteps : entry.2 ∈ e.object.stepsOf (some r') :=
      List.mem_map.mpr ⟨entry, List.mem_filter.mpr ⟨hentry, by simpa using hr'⟩, rfl⟩
    rw [(hserial.agrees r').done place e he, hnew] at hsteps
    exact absurd hsteps List.not_mem_nil
  · exact hsent

/-- There is one session of a name. -/
theorem Named.alone (h : s.Named) {place : ℕ} {e : Entry} (he : s.heap[place]? = some e)
    (halone : ∀ entry ∈ e.object.log, ∀ r, entry.1 = some r → r ∈ sent) : s.Alone sent e.id := by
  intro q x hx hid
  obtain rfl := h q place x e hx he hid
  obtain rfl := Option.some.inj (hx.symm.trans he)
  exact halone

/-- Who has done something to a session has been sent to it. -/
theorem Serial.id_of_mem_log (h : Serial rq s) {place : ℕ} {e : Entry}
    (he : s.heap[place]? = some e) {entry : Option ℕ × Action} (hentry : entry ∈ e.object.log)
    (hr : entry.1 = some r) : e.id = (rq r).id := by
  have hsteps : entry.2 ∈ e.object.stepsOf (some r) :=
    List.mem_map.mpr ⟨entry, List.mem_filter.mpr ⟨hentry, by simpa using hr⟩, rfl⟩
  rw [(h.agrees r).done place e he, Stage.doneOn] at hsteps
  split at hsteps
  · next q done hhistory =>
    split at hsteps
    · next heq =>
      subst heq
      exact (h.inTurn he).named r done hhistory
    · exact absurd hsteps List.not_mem_nil
  · exact absurd hsteps List.not_mem_nil

/-- If the client has sent nothing to it, then nobody has done anything to it. -/
theorem Alone.nobody (h : s.Alone sent id) (hserial : Serial rq s) {place : ℕ} {e : Entry}
    (he : s.heap[place]? = some e) (hid : e.id = id) (hnew : ∀ r ∈ sent, (rq r).id ≠ id) :
    ∀ entry ∈ e.object.log, entry.1 = none := by
  intro entry hentry
  cases hwho : entry.1 with
  | none => rfl
  | some r =>
    have hsent := h place e he hid entry hentry r hwho
    exact absurd ((hserial.id_of_mem_log he hentry hwho).symm.trans hid) (hnew r hsent)

/-- **A session that is not loading keeps its data**, if nobody else does anything to it, and those
who do have not been answered and only read. -/
theorem Did.keepsData (hdid : Did ttl rq s a s') {place : ℕ} {e : Entry}
    (he : s.heap[place]? = some e) (hne : e.world.session.data ≠ .loading)
    (halone : s'.Alone sent e.id)
    (hread : ∀ r ∈ sent, (s.stage r).isAnswered = false → (rq r).route.underGuard = true) :
    ∃ e', s'.heap[place]? = some e' ∧ e'.id = e.id ∧
      e'.world.session.data = e.world.session.data := by
  rcases hdid.entry he with he' | ⟨who, act, e', he', hact, hwho⟩
  · exact ⟨e, he', rfl, rfl⟩
  obtain ⟨⟨hid', -⟩, hstep, hlog, -⟩ := Entry.act_eq_some hact
  refine ⟨e', he', hid', ?_⟩
  rcases hwho with ⟨-, hback⟩ | ⟨r, done, rfl, hlive, hhistory⟩
  · exact (World.ok_of_run e.run_log).background hstep hback hne
  · have hsent : r ∈ sent := halone place e' he' hid' (some r, act)
      (hlog ▸ List.mem_append_right _ (List.mem_singleton_self _)) r rfl
    exact World.data_of_keepsData hstep (Stage.keepsData_of_underGuard (hread r hsent hlive)
      hhistory (List.mem_append_right _ (List.mem_singleton_self _)))

/-- So it stays in its state, -/
theorem InState.did (h : s.InState id state) (hne : state ≠ .loading)
    (hdid : Did ttl rq s a s') (halone : s'.Alone sent id)
    (hread : ∀ r ∈ sent, (s.stage r).isAnswered = false → (rq r).route.underGuard = true) :
    s'.InState id state := by
  obtain ⟨place, e, he, rfl, rfl⟩ := h
  obtain ⟨e', he', hid, hdata⟩ := hdid.keepsData he
    (fun hloading => hne (SessionData.currentStateLocked_eq_loading.mpr hloading)) halone hread
  exact ⟨place, e', he', hid, by rw [hdata]⟩

/-- and shows the same list. -/
theorem Lists.did {steps : List TraceStep} (h : s.Lists id steps) (hdid : Did ttl rq s a s')
    (halone : s'.Alone sent id)
    (hread : ∀ r ∈ sent, (s.stage r).isAnswered = false → (rq r).route.underGuard = true) :
    s'.Lists id steps := by
  obtain ⟨place, e, he, rfl, hne, rfl⟩ := h
  obtain ⟨e', he', hid, hdata⟩ := hdid.keepsData he hne halone hread
  exact ⟨place, e', he', hid, by rw [hdata]; exact hne, by rw [hdata]⟩

/-- **A session stays at its beginning**, if nobody else does anything to it, and those who do have
not been answered and only read. -/
theorem AtStart.did (h : s.AtStart id) (hdid : Did ttl rq s a s') (halone : s'.Alone sent id)
    (hread : ∀ r ∈ sent, (s.stage r).isAnswered = false → (rq r).route.underGuard = true) :
    s'.AtStart id := by
  intro place e' he' hid
  rcases hdid.entry_from he' with ⟨e, he, rfl | ⟨who, act, hact, hwho⟩⟩ | ⟨_, _, _, rfl⟩
  · exact h place e' he hid
  · obtain ⟨⟨hid', -⟩, hstep, hlog, -⟩ := Entry.act_eq_some hact
    refine (World.ok_of_run e.run_log).atStart hstep ?_ (h place e he (hid'.symm.trans hid))
    rcases hwho with ⟨-, hback⟩ | ⟨r, done, rfl, hlive, hhistory⟩
    · exact Or.inl hback
    · have hsent : r ∈ sent := halone place e' he' hid (some r, act)
        (hlog ▸ List.mem_append_right _ (List.mem_singleton_self _)) r rfl
      exact Or.inr (Stage.keepsData_of_underGuard (hread r hsent hlive) hhistory
        (List.mem_append_right _ (List.mem_singleton_self _)))
  · exact Origin.atStart_world _ _

theorem untouched_init : Untouched init := fun _ _ h => absurd h (by simp [init])

/-- **It stays untouched.** -/
theorem Untouched.did (h : s.Untouched) (hdid : Did ttl rq s a s') : s'.Untouched := by
  intro place e' he' hnone
  rcases hdid.entry_from he' with ⟨e, he, rfl | ⟨who, act, hact, hwho⟩⟩ | ⟨_, _, _, rfl⟩
  · exact h place e' he hnone
  · obtain ⟨⟨-, hstart⟩, hstep, hlog, -⟩ := Entry.act_eq_some hact
    rw [hlog] at hnone
    obtain ⟨hbefore, hatStart⟩ :=
      h place e he fun entry hentry => hnone entry (List.mem_append_left _ hentry)
    have hok := World.ok_of_run e.run_log
    rcases hwho with ⟨-, hback⟩ | ⟨r, done, rfl, -⟩
    · refine ⟨fun hne => ?_, hok.atStart hstep (Or.inl hback) hatStart⟩
      rw [hstart] at hne ⊢
      have hbefore := hbefore hne
      rw [← hbefore] at hne ⊢
      exact hok.background hstep hback hne
    · exact absurd (hnone _ (List.mem_append_right _ (List.mem_singleton_self _))) (by simp)
  · exact ⟨fun _ => rfl, Origin.atStart_world _ _⟩

/-! ### Answers -/

/-- A request that has been answered stays answered. -/
theorem Did.stage_of_answered (hdid : Did ttl rq s a s') (h : (s.stage r).isAnswered = true) :
    s'.stage r = s.stage r := by
  have hother : ∀ {r' : ℕ} {stage : Stage}, (s.stage r').isAnswered = false →
      Function.update s.stage r' stage r = s.stage r := by
    intro r' stage hlive
    have hne : r ≠ r' := fun heq => absurd (h.symm.trans (heq ▸ hlive)) (by simp)
    exact Function.update_of_ne hne _ _
  cases hdid with
  | moves hlive => exact hother hlive
  | acts _ hlive => exact hother hlive
  | _ => rfl

/-- What a request has done if its action is the last thing. -/
theorem history_answered {route : Route} {found : Option (ℕ × ℕ)} {response : Response}
    (hbody : ∀ message, response.body ≠ .error message) {place : ℕ} {done : List Action}
    (h : (Stage.answered found response).history route = some (place, done)) :
    ∃ time, found = some (place, time) ∧
      done = .touch time :: (route.before ++ [route.action]) := by
  have hne : response ≠ .internalError := fun heq => hbody "internal error" (heq ▸ rfl)
  cases found with
  | none => exact absurd h (by simp [Stage.history])
  | some found =>
    obtain ⟨rfl, rfl⟩ := Prod.mk.inj (Option.some.inj h)
    exact ⟨found.2, rfl, by rw [if_neg hne]⟩

/-- As long as a request has not been answered, it has not done what it is for. -/
theorem action_not_mem_history {stage : Stage} {route : Route} (hlive : stage.isAnswered = false)
    {place : ℕ} {done : List Action} (h : stage.history route = some (place, done)) :
    route.action ∉ done := by
  have haction := answers_action route
  have htouch : ∀ time, route.action ≠ .touch time := fun time heq => by
    rw [heq] at haction
    exact absurd haction.1 (by simp [Action.isTouch])
  have hbefore : route.action ∉ route.before := by
    cases route <;> simp [Route.action, Route.before]
  cases stage with
  | new => exact absurd h (by simp [Stage.history])
  | answered found response => exact absurd hlive (by simp [Stage.isAnswered])
  | found _ | clocked _ _ =>
    obtain ⟨-, rfl⟩ := Prod.mk.inj (Option.some.inj h)
    exact List.not_mem_nil
  | touched _ time | released _ time =>
    obtain ⟨-, rfl⟩ := Prod.mk.inj (Option.some.inj h)
    exact fun hmem => htouch time (List.mem_singleton.mp hmem)
  | aborting _ time =>
    obtain ⟨-, rfl⟩ := Prod.mk.inj (Option.some.inj h)
    exact fun hmem => (List.mem_cons.mp hmem).elim (htouch time) hbefore

/-- **A request is answered by its session**, which does what the request is for. -/
theorem Did.answers (hdid : Did ttl rq s a s') (h : Answering rq s) (h' : Answering rq s')
    (hlive : (s.stage r).isAnswered = false) {found : Option (ℕ × ℕ)} {response : Response}
    (hstage : s'.stage r = .answered found response)
    (hbody : ∀ message, response.body ≠ .error message) :
    ∃ (place : ℕ) (e e' : Entry) (reply : Reply), s.heap[place]? = some e ∧
      s'.heap[place]? = some e' ∧ e.id = (rq r).id ∧ e'.id = e.id ∧
      e.world.step (rq r).route.action = some e'.world ∧
      e.world.reply (rq r).route.action = some reply ∧
      response = (rq r).route.respond reply := by
  -- a request that has not found its session is told so
  obtain ⟨place, time, rfl⟩ : ∃ place time, found = some (place, time) := by
    cases found with
    | none =>
      have hnotFound := h'.toldSo r response hstage
      exact absurd (congrArg Response.body hnotFound) (hbody "session not found")
    | some found => exact ⟨found.1, found.2, rfl⟩
  have hself : ∀ (r' : ℕ) (stage : Stage),
      Function.update s.stage r' stage r = .answered (some (place, time)) response →
        r' = r ∧ stage = .answered (some (place, time)) response := by
    intro r' stage hupdate
    by_cases heq : r = r'
    · subst heq
      exact ⟨rfl, (Function.update_self r stage s.stage).symm.trans hupdate⟩
    · rw [Function.update_of_ne heq] at hupdate
      rw [hupdate] at hlive
      exact absurd hlive (by simp [Stage.isAnswered])
  cases hdid with
  | @moves _ r' stage readers hlive' hhistory =>
    obtain ⟨rfl, rfl⟩ := hself r' stage hstage
    obtain ⟨done, hdone⟩ : ∃ done, (Stage.answered (some (place, time)) response).history
        (rq r').route = some (place, done) := ⟨_, rfl⟩
    obtain ⟨time', -, rfl⟩ := history_answered hbody hdone
    rcases hhistory with hbefore | ⟨-, q, -, hnew⟩
    · exact absurd (by simp) (action_not_mem_history hlive (hbefore.symm.trans hdone))
    · exact absurd (Prod.mk.inj (Option.some.inj (hdone.symm.trans hnew))).2 (by simp)
  | @acts _ r' q done act stage readers e e' hbefore hlive' he hact hafter htouch hanswer =>
    obtain ⟨rfl, rfl⟩ := hself r' stage hstage
    obtain ⟨time', hplace, hdone⟩ := history_answered hbody hafter
    obtain ⟨rfl, rfl⟩ := Prod.mk.inj (Option.some.inj hplace)
    obtain ⟨-, hlast⟩ := List.append_inj' (hdone.trans (List.cons_append ..).symm) rfl
    obtain rfl := List.singleton_inj.mp hlast
    have haction := answers_action (rq r').route
    obtain ⟨⟨hid', -⟩, hstep, -⟩ := Entry.act_eq_some hact
    obtain ⟨x, hx, hid⟩ := (h.serial.agrees r').found place done hbefore
    obtain rfl := Option.some.inj (he.symm.trans hx)
    rcases hanswer with hisTouch | hstore | ⟨time'', reply, hreply, hresponse⟩
    · exact absurd (haction.1.symm.trans hisTouch) (by simp)
    · exact absurd hstore haction.2
    · exact ⟨place, e, e', reply, he, (getElem?_set_eq_some he).mpr (Or.inl ⟨rfl, rfl⟩), hid, hid',
        hstep, hreply, (Stage.answered.inj hresponse).2⟩
  | _ =>
    rw [show s.stage r = .answered (some (place, time)) response from hstage] at hlive
    exact absurd hlive (by simp [Stage.isAnswered])

/-- **What a request is told is how things are**: the state it is answered with is that of its
session, unless that was loading, and so is the list; and after an abort the session is aborted. If
`c` holds, the session was not loading. -/
structure Telling (rq : ℕ → Request) (s : Server) (r : ℕ) (c : Prop) : Prop where
  loaded : c → s.Loaded (rq r).id
  state : ∀ found response state, s.stage r = .answered found response →
    response.body = .reply (.state state) → c ∨ state ≠ .loading →
      state ≠ .loading ∧ s.InState (rq r).id state
  list : ∀ found response steps, s.stage r = .answered found response →
    response.body = .reply (.trace steps) → c → s.Lists (rq r).id steps
  aborted : ∀ found response status, s.stage r = .answered found response →
    response.body = .status status → s.InState (rq r).id .aborted

/-- A new request has been told nothing. -/
theorem telling_of_new {c : Prop} (hloaded : c → s.Loaded (rq r).id) (hnew : s.stage r = .new) :
    s.Telling rq r c where
  loaded := hloaded
  state _ _ _ hstage := absurd (hnew.symm.trans hstage) (by simp)
  list _ _ _ hstage := absurd (hnew.symm.trans hstage) (by simp)
  aborted _ _ _ hstage := absurd (hnew.symm.trans hstage) (by simp)

/-- **It stays so until somebody else does something**, or until the next request. -/
theorem Telling.did {c : Prop} (h : s.Telling rq r c) (hs : Answering rq s) (hs' : Answering rq s')
    (hdid : Did ttl rq s a s') (halone : s'.Alone sent (rq r).id)
    (hlast : ∀ r' ∈ sent, (s.stage r').isAnswered = false → r' = r) : s'.Telling rq r c := by
  cases hlive : (s.stage r).isAnswered with
  | true =>
    -- all have been answered, and so nobody does anything
    have hread : ∀ r' ∈ sent, (s.stage r').isAnswered = false →
        (rq r').route.underGuard = true := by
      intro r' hr' hlive'
      obtain rfl := hlast r' hr' hlive'
      exact absurd (hlive.symm.trans hlive') (by simp)
    have hstage := hdid.stage_of_answered hlive
    refine ⟨fun hc => (h.loaded hc).did hdid, fun found response state hanswer hbody hc => ?_,
      fun found response steps hanswer hbody hc => ?_,
      fun found response status hanswer hbody => ?_⟩
    · obtain ⟨hne, hstate⟩ := h.state found response state (hstage ▸ hanswer) hbody hc
      exact ⟨hne, hstate.did hne hdid halone hread⟩
    · exact (h.list found response steps (hstage ▸ hanswer) hbody hc).did hdid halone hread
    · exact (h.aborted found response status (hstage ▸ hanswer) hbody).did (by simp) hdid halone
        hread
  | false =>
    -- a session that was not loading is not loading when it answers
    have hloaded : c → ∀ {place : ℕ} {e e' : Entry}, s.heap[place]? = some e → e.id = (rq r).id →
        e.world.step (rq r).route.action = some e'.world → e'.world.session.data ≠ .loading := by
      intro hc place e e' he hid hstep
      obtain ⟨q, x, hx, hxid, hne⟩ := h.loaded hc
      obtain rfl := hs.named q place x e hx he (hxid.trans hid.symm)
      obtain rfl := Option.some.inj (hx.symm.trans he)
      exact (World.ok_of_run x.run_log).ne_loading hstep hne
    refine ⟨fun hc => (h.loaded hc).did hdid, fun found response state hanswer hbody hc => ?_,
      fun found response steps hanswer hbody hc => ?_,
      fun found response status hanswer hbody => ?_⟩
    · obtain ⟨place, e, e', reply, he, he', hid, hid', hstep, hreply, rfl⟩ :=
        hdid.answers hs hs' hlive hanswer (by simp [hbody])
      obtain rfl := reply_of_respond hbody
      have hstate := World.state_of_reply hstep hreply
      refine ⟨?_, place, e', he', hid'.trans hid, hstate⟩
      rcases hc with hc | hne
      · intro hloading
        refine hloaded hc he hid hstep ?_
        exact SessionData.currentStateLocked_eq_loading.mp (hstate.trans hloading)
      · exact hne
    · obtain ⟨place, e, e', reply, he, he', hid, hid', hstep, hreply, rfl⟩ :=
        hdid.answers hs hs' hlive hanswer (by simp [hbody])
      obtain rfl := reply_of_respond hbody
      exact ⟨place, e', he', hid'.trans hid, hloaded hc he hid hstep,
        World.list_of_reply hstep hreply⟩
    · obtain ⟨place, e, e', reply, he, he', hid, hid', hstep, hreply, rfl⟩ :=
        hdid.answers hs hs' hlive hanswer (by simp [hbody])
      refine ⟨place, e', he', hid'.trans hid, ?_⟩
      have hroute : (rq r).route = .abortSession := by
        cases hroute : (rq r).route with
        | abortSession => rfl
        | getSession | getTraceSteps | stepInto | stepOver | continueExec =>
          rw [hroute] at hbody
          exact absurd hbody (by simp [Route.respond])
      rw [hroute] at hstep
      rw [World.aborted_of_abortWrite hstep]
      rfl

/-! ### What requests are answered with -/

/-- A command is answered with a state, and so is who asks for it; -/
theorem Answering.body_state (h : Answering rq s) {found : Option (ℕ × ℕ)} {response : Response}
    (hstage : s.stage r = .answered found response)
    (hbody : ∀ message, response.body ≠ .error message)
    (hroute : (rq r).route.onPool = true ∨ (rq r).route = .getSession) :
    ∃ state, response.body = .reply (.state state) := by
  obtain ⟨place, e, n, w, w', reply, -, -, -, -, -, hreply, rfl⟩ := h.responded hstage hbody
  cases hcase : (rq r).route with
  | stepInto | stepOver | continueExec | getSession =>
    rw [hcase] at hreply
    obtain rfl := Option.some.inj hreply
    exact ⟨_, rfl⟩
  | getTraceSteps | abortSession =>
    rw [hcase] at hroute
    exact absurd hroute (by simp [Route.onPool])

/-- who asks for the list is answered with it; -/
theorem Answering.body_trace (h : Answering rq s) {found : Option (ℕ × ℕ)} {response : Response}
    (hstage : s.stage r = .answered found response)
    (hbody : ∀ message, response.body ≠ .error message)
    (hroute : (rq r).route = .getTraceSteps) : ∃ steps, response.body = .reply (.trace steps) := by
  obtain ⟨place, e, n, w, w', reply, -, -, -, -, -, hreply, rfl⟩ := h.responded hstage hbody
  rw [hroute] at hreply ⊢
  obtain rfl := Option.some.inj hreply
  exact ⟨_, rfl⟩

/-- and an abort with a status. -/
theorem Answering.body_status (h : Answering rq s) {found : Option (ℕ × ℕ)} {response : Response}
    (hstage : s.stage r = .answered found response)
    (hbody : ∀ message, response.body ≠ .error message)
    (hroute : (rq r).route = .abortSession) : response.body = .status "aborted" := by
  obtain ⟨place, e, n, w, w', reply, -, -, -, -, -, hreply, rfl⟩ := h.responded hstage hbody
  rw [hroute]
  rfl

end Server

end EvmDebugger
