import EvmDebugger.Page.InOrder

/-!
# The page is up to date

The page keeps a copy of the state of its session, in the panels, and nobody tells it when the
session changes: it puts into the panels what it is answered, and that may be a while ago.

If nobody else uses the session, then the page is up to date whenever it waits for nothing
(`EvmDebugger.idle_page_is_current`). What that means depends on the state that the session is in
(`EvmDebugger.Page.Displays`): of a session that is paused all is shown, its snapshot in the panels
and its rows with the mark; of one that is finished the rows and the result; and of one that is
aborted or has an error, that it is or has. The panels that a state has no use for are left as they
are.

That depends on a number of things, each of which can go wrong by itself. The user has to be
patient, as otherwise the answers may come in another order than the commands; no answer may get
lost, as the page does not ask again; and a load has to succeed once it has been started, because by
then the list of the last session is gone (`EvmDebugger.Tab.Smooth`). And the rows have to be those
of the session: they are fetched only if the session is paused when it is first found to have left
off loading, which it is, if it has any (`EvmDebugger.Server.AtStart`).
-/

namespace EvmDebugger

/-! ### What is shown -/

namespace Page

variable {entries : StorageChanges → List (String × List (String × String))} {p : Page}
  {state : SessionState}

/-- **The page shows a state**, of a session with these rows: in the panels, in the status, and by
what it lets its user do. -/
def Displays (entries : StorageChanges → List (String × List (String × String))) (p : Page)
    (steps : List TraceStep) : SessionState → Prop
  | .paused snap => p.Shows entries snap ∧
      p.opcodePanel = renderOpcodeList steps (some snap.stepNumber) ∧ p.statusMsg = "" ∧
      p.buttonsEnabled = true
  | .finished result => p.opcodePanel = renderOpcodeList steps none ∧
      p.statusMsg = resultMsg result ∧ p.buttonsEnabled = false
  | .error message => p.statusMsg = "Error: " ++ explain message ∧ p.buttonsEnabled = false
  | .aborted => p.statusMsg = "Aborted" ∧ p.buttonsEnabled = false
  | .loading => p.Blank ∧ p.buttonsEnabled = false

/-- **A page that has a list shows what it is made to show.** -/
theorem exists_displays (entries : StorageChanges → List (String × List (String × String)))
    {steps : List TraceStep} (hlist : p.allTraceSteps = some steps) (state : SessionState) :
    ∃ p', p.processState entries state = (p', none) ∧ p'.allTraceSteps = some steps ∧
      p'.Displays entries steps state := by
  cases state with
  | paused snap =>
    exact ⟨_, processState_paused hlist snap, hlist, ⟨rfl, rfl, rfl, rfl, rfl, rfl⟩, rfl, rfl, rfl⟩
  | finished result => exact ⟨_, processState_finished hlist result, hlist, rfl, rfl, rfl⟩
  | loading | error _ | aborted => exact ⟨_, rfl, hlist, rfl, rfl⟩

/-- Whether a load is under way does not matter. -/
theorem Displays.endLoad {steps : List TraceStep} (h : p.Displays entries steps state) :
    p.endLoad.Displays entries steps state := by
  cases state <;> exact h

end Page

/-! ### What is waited for -/

/-- **What waits, waits for the current session**, and is told how it is; as long as it is loaded,
nobody has moved it. -/
def PageTask.Current (rq : ℕ → Request) (s : Server) (id : String) : PageTask → Prop
  | creating => True
  | sleeping _ => s.AtStart id
  | polling _ r => rq r = ⟨.getSession, id⟩ ∧ s.Telling rq r False ∧ s.AtStart id
  | tracing _ state r => rq r = ⟨.getTraceSteps, id⟩ ∧ state ≠ .loading ∧ s.InState id state ∧
      s.Telling rq r True
  | commanding r => (rq r).route.onPool = true ∧ (rq r).id = id ∧ s.Telling rq r True
  | aborting r => rq r = ⟨.abortSession, id⟩ ∧ s.Telling rq r True

/-- **It stays so** while the server goes on. -/
theorem PageTask.Current.did {rq : ℕ → Request} {s s' : Server} {id : String} {task : PageTask}
    (h : task.Current rq s id) (hs : s.Answering rq) (hs' : s'.Answering rq) {ttl : ℕ}
    {a : ServerAction} (hdid : Server.Did ttl rq s a s') {sent : List ℕ}
    (halone : s'.Alone sent id) (hqueue : s.Queue rq sent task.request) :
    task.Current rq s' id := by
  have hlast : ∀ r, task.request = some r →
      ∀ r' ∈ sent, (s.stage r').isAnswered = false → r' = r := by
    intro r hr r' hr' hlive
    by_contra hne
    have hanswered := hqueue.answered r' hr' fun heq => hne (Option.some.inj (heq.symm.trans hr))
    exact absurd (hlive.symm.trans hanswered) (by simp)
  cases task with
  | creating => trivial
  | sleeping id' =>
    refine Server.AtStart.did h hdid halone fun r hr hlive => ?_
    exact absurd (hlive.symm.trans (hqueue.answered r hr (by simp [PageTask.request]))) (by simp)
  | polling id' r =>
    obtain ⟨hrq, htelling, hatStart⟩ := h
    refine ⟨hrq, htelling.did hs hs' hdid (by rw [hrq]; exact halone) (hlast r rfl), ?_⟩
    refine hatStart.did hdid halone fun r' hr' hlive => ?_
    rw [hlast r rfl r' hr' hlive, hrq]
    rfl
  | tracing id' state r =>
    obtain ⟨hrq, hne, hstate, htelling⟩ := h
    refine ⟨hrq, hne, hstate.did hne hdid halone fun r' hr' hlive => ?_,
      htelling.did hs hs' hdid (by rw [hrq]; exact halone) (hlast r rfl)⟩
    rw [hlast r rfl r' hr' hlive, hrq]
    rfl
  | commanding r =>
    obtain ⟨hroute, hid, htelling⟩ := h
    exact ⟨hroute, hid, htelling.did hs hs' hdid (by rw [hid]; exact halone) (hlast r rfl)⟩
  | aborting r =>
    obtain ⟨hrq, htelling⟩ := h
    exact ⟨hrq, htelling.did hs hs' hdid (by rw [hrq]; exact halone) (hlast r rfl)⟩

/-- **These are the rows of the session of this name**, if it has any, and it is not loading. -/
def Server.Rows (s : Server) (id : String) (list : Option (List TraceStep)) : Prop :=
  ∃ (place : ℕ) (e : Entry), s.heap[place]? = some e ∧ e.id = id ∧
    e.world.session.data ≠ .loading ∧ ∀ snapshots i result,
      e.world.session.data = .ready snapshots i result →
        list = some (snapshots.map StepSnapshot.row)

/-- **They stay its rows.** -/
theorem Server.Rows.did {ttl : ℕ} {rq : ℕ → Request} {s s' : Server} {a : ServerAction}
    {id : String} {list : Option (List TraceStep)} (h : s.Rows id list)
    (hdid : Server.Did ttl rq s a s') : s'.Rows id list := by
  obtain ⟨place, e, he, hid, hne, hrows⟩ := h
  rcases hdid.entry he with he' | ⟨who, act, e', he', hact, -⟩
  · exact ⟨place, e, he', hid, hne, hrows⟩
  obtain ⟨⟨hid', -⟩, hstep, -⟩ := Entry.act_eq_some hact
  have hok := World.ok_of_run e.run_log
  refine ⟨place, e', he', hid'.trans hid, hok.ne_loading hstep hne,
    fun snapshots i result hready => ?_⟩
  rcases hok.moves hstep with hserved | ⟨hloading, -⟩
  · -- no command gives it another trace
    rw [hready] at hserved
    cases hdata : e.world.session.data with
    | loading => exact absurd hdata hne
    | ready snapshots' i' result' =>
      rw [hdata] at hserved
      rcases hserved with heq | ⟨j, -, -, heq⟩
      · exact absurd heq (by simp)
      · obtain ⟨rfl, -, -⟩ := SessionData.ready.inj heq
        exact hrows _ _ _ hdata
    | aborted =>
      rw [hdata] at hserved
      exact absurd hserved (by simp [SessionData.Served])
    | error message =>
      rw [hdata] at hserved
      rcases hserved with heq | heq <;> exact absurd heq (by simp)
  · exact absurd hloading hne

/-- Such a session is in no state of loading. -/
theorem Server.Rows.ne_loading {s : Server} {id : String} {list : Option (List TraceStep)}
    {state : SessionState} (h : s.Rows id list) (hnamed : s.Named) (hstate : s.InState id state) :
    state ≠ .loading := by
  obtain ⟨place, e, he, hid, hne, -⟩ := h
  obtain ⟨q, x, hx, hxid, rfl⟩ := hstate
  obtain rfl := hnamed q place x e hx he (hxid.trans hid.symm)
  obtain rfl := Option.some.inj (hx.symm.trans he)
  exact fun hloading => hne (SessionData.currentStateLocked_eq_loading.mp hloading)

/-- The list that the session shows has its rows. -/
theorem Server.Lists.rows {s : Server} {id : String} {steps : List TraceStep}
    (h : s.Lists id steps) : s.Rows id (some steps) := by
  obtain ⟨place, e, he, hid, hne, rfl⟩ := h
  exact ⟨place, e, he, hid, hne, fun snapshots i result hready => by rw [hready]; rfl⟩

/-- **A session at its beginning that is not paused has no rows.** -/
theorem Server.InState.rows {s : Server} {id : String} {state : SessionState}
    (h : s.InState id state) (hne : state ≠ .loading) (hpaused : ∀ snap, state ≠ .paused snap)
    (hatStart : s.AtStart id) : s.Rows id (some []) := by
  obtain ⟨place, e, he, hid, rfl⟩ := h
  refine ⟨place, e, he, hid, fun hloading => hne ?_, fun snapshots i result hready => ?_⟩
  · exact SessionData.currentStateLocked_eq_loading.mpr hloading
  · obtain rfl := hatStart place e he hid snapshots i result hready
    cases snapshots with
    | nil => rfl
    | cons snap rest => exact absurd (by rw [hready]; rfl) (hpaused snap)

namespace Tab

/-- **All goes well**: the user is patient; a session that is opened is one that nobody could ask
for yet; every load succeeds, every response arrives, and none of them is an error. -/
def Smooth (rq : ℕ → Request) (t : Tab) : TabAction → Prop
  | .load _ _ => t.tasks = []
  | .press _ byKey _ => byKey = true → t.tasks = []
  | .settle _ (.failed _) | .settle _ (.refused _) => False
  | .settle _ (.created place) => ∀ e, t.server.heap[place]? = some e →
      ∀ r ∈ t.sent, (rq r).id ≠ e.id
  | .settle n (.answered _) => ∀ task r response, t.tasks[n]? = some task →
      task.request = some r → t.response r = some response →
      ∀ message, response.body ≠ .error message
  | .abort _ | .settle _ (.elapsed _) | .server _ => True

/-- **The page shows how the session of this name is**, with its rows. -/
structure UpToDate (entries : StorageChanges → List (String × List (String × String))) (s : Server)
    (p : Page) (id : String) : Prop where
  rows : s.Rows id p.allTraceSteps
  shows : ∃ state steps, s.InState id state ∧ p.allTraceSteps = some steps ∧
    p.Displays entries steps state

/-- **What the page keeps, shows and waits for**, if nobody else uses its session: after a load it
has the rows, as long as it waits for something it is told how the session is, and otherwise it
shows that. -/
structure Fresh (entries : StorageChanges → List (String × List (String × String)))
    (rq : ℕ → Request) (t : Tab) : Prop where
  list : t.page.allTraceSteps ≠ none
  rows : ∀ id, t.page.currentSessionId = some id → t.server.Alone t.sent id →
    t.page.loadInFlight = false → t.server.Rows id t.page.allTraceSteps
  waits : ∀ id, t.page.currentSessionId = some id → t.server.Alone t.sent id →
    ∀ task ∈ t.tasks, task.Current rq t.server id
  shows : ∀ id, t.page.currentSessionId = some id → t.server.Alone t.sent id → t.tasks = [] →
    UpToDate entries t.server t.page id

/-- **The invariant.** -/
structure Current (entries : StorageChanges → List (String × List (String × String)))
    (rq : ℕ → Request) (t : Tab) : Prop where
  coherent : t.Coherent entries False rq
  untouched : t.server.Untouched
  inOrder : t.InOrder rq
  fresh : t.Fresh entries rq

variable {entries : StorageChanges → List (String × List (String × String))} {ttl : ℕ}
  {rq : ℕ → Request} {t t' : Tab} {n : ℕ} {task : PageTask} {page : Page} {sent : List ℕ}

theorem current_init : init.Current entries rq where
  coherent := coherent_init
  untouched := Server.untouched_init
  inOrder := Or.inl ⟨rfl, Server.queue_init rq⟩
  fresh := ⟨by simp [init, Page.init], fun _ h => absurd h (by simp [init, Page.init]),
    fun _ h => absurd h (by simp [init, Page.init]),
    fun _ h => absurd h (by simp [init, Page.init])⟩

/-- Who has no session shows none. -/
theorem fresh_of_none (hlist : t.page.allTraceSteps ≠ none)
    (hnone : t.page.currentSessionId = none) : t.Fresh entries rq where
  list := hlist
  rows _ h := absurd (hnone.symm.trans h) (by simp)
  waits _ h := absurd (hnone.symm.trans h) (by simp)
  shows _ h := absurd (hnone.symm.trans h) (by simp)

/-- **All is over**, and the page shows how things are. -/
theorem fresh_finish (htasks : t.tasks = [task]) (hlist : page.allTraceSteps ≠ none)
    (hshows : ∀ id, page.currentSessionId = some id → t.server.Alone t.sent id →
      UpToDate entries t.server page id) :
    (t.finish 0 page).Fresh entries rq where
  list := hlist
  rows id hid halone _ := (hshows id hid halone).rows
  waits id _ _ other hother := by
    have hnone : (t.finish 0 page).tasks = [] := by
      show t.tasks.eraseIdx 0 = []
      rw [htasks]
      rfl
    exact absurd (hnone ▸ hother) List.not_mem_nil
  shows id hid halone _ := hshows id hid halone

/-- **Something is waited for.** -/
theorem fresh_waiting (task : PageTask) (htasks : t.tasks = [task])
    (hlist : t.page.allTraceSteps ≠ none)
    (hrows : ∀ id, t.page.currentSessionId = some id → t.server.Alone t.sent id →
      t.page.loadInFlight = false → t.server.Rows id t.page.allTraceSteps)
    (hwaits : ∀ id, t.page.currentSessionId = some id → t.server.Alone t.sent id →
      task.Current rq t.server id) : t.Fresh entries rq where
  list := hlist
  rows := hrows
  waits id hid halone other hother := by
    obtain rfl := List.mem_singleton.mp (htasks ▸ hother)
    exact hwaits id hid halone
  shows _ _ _ hnone := absurd (htasks.symm.trans hnone) (by simp)

/-- **A load waits for something else.** -/
theorem fresh_goOn (htasks : t.tasks = [task]) {next : PageTask}
    (hlist : page.allTraceSteps ≠ none) (hload : page.loadInFlight = true)
    (hwaits : ∀ id, page.currentSessionId = some id → t.server.Alone t.sent id →
      next.Current rq t.server id) : (t.goOn 0 page next).Fresh entries rq := by
  refine fresh_waiting next ?_ hlist
    (fun _ _ _ hover => absurd (hload.symm.trans hover) (by simp)) hwaits
  show t.tasks.set 0 next = [next]
  rw [htasks]
  rfl

/-- **A session is opened**, which nobody has done anything to. -/
theorem fresh_created (h : t.Current entries rq) (htasks : t.tasks = [.creating]) {place : ℕ}
    {e : Entry} (he : t.server.heap[place]? = some e) (hnew : ∀ r ∈ t.sent, (rq r).id ≠ e.id) :
    (t.created entries 0 e).Fresh entries rq := by
  obtain ⟨page, hprocess, hsteps, hdisplays⟩ := Page.exists_displays entries
    (p := t.page.opened e.id e.start.session.data.getTraceSteps) rfl
    e.start.session.data.currentStateLocked
  have hkept := Page.processState_kept entries
    (t.page.opened e.id e.start.session.data.getTraceSteps)
    e.start.session.data.currentStateLocked
  rw [hprocess] at hkept
  obtain ⟨hcurrent, hload, -⟩ := hkept
  have hlist : page.allTraceSteps ≠ none := by simp [hsteps]
  have hflight : page.loadInFlight = true :=
    hload.trans (h.coherent.only_load (n := 0) (by rw [htasks]; rfl) rfl).1
  -- nobody could ask for it yet
  have huntouched : ∀ id, page.currentSessionId = some id → t.server.Alone t.sent id →
      e.id = id ∧ (e.start.session.data ≠ .loading →
        e.world.session.data = e.start.session.data) ∧ e.world.session.data.AtStart := by
    intro id hid halone
    obtain rfl : e.id = id := Option.some.inj (hcurrent.symm.trans hid)
    exact ⟨rfl, h.untouched place e he (halone.nobody h.coherent.server.serial he rfl hnew)⟩
  rw [Tab.created]
  simp only [hprocess]
  split
  · refine fresh_goOn htasks hlist hflight fun id hid halone q x hx hxid => ?_
    obtain ⟨rfl, -, hatStart⟩ := huntouched id hid halone
    obtain rfl := h.coherent.server.named q place x e hx he hxid
    obtain rfl := Option.some.inj (hx.symm.trans he)
    exact hatStart
  · next hstate =>
    refine fresh_finish htasks hlist fun id hid halone => ?_
    obtain ⟨rfl, hsame, -⟩ := huntouched id hid halone
    have hne : e.start.session.data ≠ .loading := fun hloading =>
      hstate (SessionData.currentStateLocked_eq_loading.mpr hloading)
    have hsame := hsame hne
    refine ⟨?_, _, _, ⟨place, e, he, rfl, by rw [hsame]⟩, hsteps, hdisplays.endLoad⟩
    show t.server.Rows e.id page.allTraceSteps
    rw [hsteps]
    exact Server.Lists.rows ⟨place, e, he, rfl, hsame ▸ hne, by rw [hsame]⟩

/-- What has been received is what the server has answered, and no error. -/
theorem Smooth.answered {next : ℕ} (h : t.Smooth rq (.settle n (.answered next)))
    (hn : t.tasks[n]? = some task) {r : ℕ} (hr : task.request = some r) {response : Response}
    (hresponse : t.response r = some response) :
    ∃ found, t.server.stage r = .answered found response ∧
      ∀ message, response.body ≠ .error message := by
  obtain ⟨found, hstage⟩ := response_eq_some hresponse
  exact ⟨found, hstage, h task r response hn hr hresponse⟩

/-- Where no load waits, none is under way. -/
theorem Current.not_loading (h : t.Current entries rq) (htasks : t.tasks = [task])
    (hisLoad : task.isLoad = false) : t.page.loadInFlight = false := by
  have hload := h.coherent.load
  rw [htasks, List.countP_singleton, hisLoad] at hload
  exact Bool.toNat_eq_zero.mp hload.symm

/-- What is waited for, if nobody else uses the session. -/
theorem Fresh.waiting (h : t.Fresh entries rq) (htasks : t.tasks = [task]) {id : String}
    (hid : t.page.currentSessionId = some id) (halone : t.server.Alone t.sent id) :
    task.Current rq t.server id :=
  h.waits id hid halone task (htasks ▸ List.mem_singleton_self _)

/-- **The state has arrived.** -/
theorem fresh_polled (h : t.Current entries rq) {id : String} {r next : ℕ}
    (htasks : t.tasks = [.polling id r]) {found : Option (ℕ × ℕ)} {response : Response}
    (hstage : t.server.stage r = .answered found response)
    (hbody : ∀ message, response.body ≠ .error message)
    (hs : t.polled entries rq 0 id next response.body = some t') : t'.Fresh entries rq := by
  obtain ⟨hcurrent, hrq⟩ : t.page.currentSessionId = some id ∧ rq r = ⟨.getSession, id⟩ :=
    h.coherent.tasks (.polling id r) (htasks ▸ List.mem_singleton_self _)
  obtain ⟨state, hstate⟩ := h.coherent.server.body_state hstage hbody (by simp [hrq])
  obtain ⟨hflight, -⟩ := h.coherent.only_load (n := 0) (by rw [htasks]; rfl) rfl
  obtain ⟨hnil, -⟩ := h.coherent.loading hflight
  -- what has been told is how the session is, if nobody else uses it
  have htold : ∀ id', t.page.currentSessionId = some id' → t.server.Alone t.sent id' →
      t.server.AtStart id' ∧ (state ≠ .loading → t.server.InState id' state) := by
    intro id' hid' halone
    obtain ⟨hrq', htelling, hatStart⟩ := h.fresh.waiting htasks hid' halone
    refine ⟨hatStart, fun hne => ?_⟩
    have hinState := (htelling.state found response state hstage hstate (Or.inr hne)).2
    rw [hrq'] at hinState
    exact hinState
  obtain ⟨page, hprocess, hsteps, hdisplays⟩ := Page.exists_displays entries hnil state
  have hkept := (Page.processState_kept entries t.page state).1
  rw [hprocess] at hkept
  have hover : state ≠ .loading → (∀ snap, state ≠ .paused snap) →
      (t.finish 0 (t.page.processed entries state).endLoad).Fresh entries rq := by
    intro hne hpaused
    rw [Page.processed, hprocess]
    refine fresh_finish htasks (by simp [Page.endLoad, hsteps]) fun id' hid' halone => ?_
    obtain ⟨hatStart, hinState⟩ := htold id' (hkept.symm.trans hid') halone
    refine ⟨?_, state, _, hinState hne, hsteps, hdisplays.endLoad⟩
    show t.server.Rows id' page.allTraceSteps
    rw [hsteps]
    exact (hinState hne).rows hne hpaused hatStart
  rw [hstate] at hs
  cases state with
  | loading =>
    obtain rfl := Option.some.inj hs
    exact fresh_goOn htasks h.fresh.list hflight fun id' hid' halone => (htold id' hid' halone).1
  | paused snap =>
    obtain ⟨t₁, hsend, rfl⟩ := Option.map_eq_some_iff.mp hs
    obtain ⟨hnew, -, rfl⟩ := fresh_of_send hsend
    obtain ⟨hrq', -⟩ := send_eq_some hsend
    refine fresh_goOn (t := { t with sent := next :: t.sent }) htasks h.fresh.list hflight
      fun id' hid' halone => ?_
    obtain rfl : id = id' := Option.some.inj (hcurrent.symm.trans hid')
    have hinState := (htold id hid' (halone.of_send h.coherent.server.serial hnew)).2 (by simp)
    exact ⟨hrq', by simp, hinState,
      Server.telling_of_new (fun _ => by rw [hrq']; exact hinState.loaded (by simp)) hnew⟩
  | finished _ | error _ | aborted =>
    obtain rfl := Option.some.inj hs
    exact hover (by simp) (by simp)

/-- **The list has arrived.** -/
theorem fresh_traced (h : t.Current entries rq) {id : String} {state : SessionState} {r : ℕ}
    (htasks : t.tasks = [.tracing id state r]) {found : Option (ℕ × ℕ)} {response : Response}
    (hstage : t.server.stage r = .answered found response)
    (hbody : ∀ message, response.body ≠ .error message) :
    (t.traced entries 0 state response.body).Fresh entries rq := by
  obtain ⟨-, hrq, -⟩ : t.page.currentSessionId = some id ∧ rq r = ⟨.getTraceSteps, id⟩ ∧
      ∃ snap, state = .paused snap ∧ t.server.Visited id snap :=
    h.coherent.tasks (.tracing id state r) (htasks ▸ List.mem_singleton_self _)
  obtain ⟨steps, htrace⟩ := h.coherent.server.body_trace hstage hbody (by simp [hrq])
  have hlist : ({ t.page with allTraceSteps := response.body.list } : Page).allTraceSteps =
      some steps := by simp [htrace, Body.list]
  obtain ⟨page, hprocess, hsteps, hdisplays⟩ := Page.exists_displays entries hlist state
  have hkept := (Page.processState_kept entries
    { t.page with allTraceSteps := response.body.list } state).1
  rw [hprocess] at hkept
  rw [Tab.traced, Page.processed, hprocess]
  refine fresh_finish htasks (by simp [Page.endLoad, hsteps]) fun id' hid' halone => ?_
  obtain ⟨hrq', -, hstate, htelling⟩ := h.fresh.waiting htasks (hkept.symm.trans hid') halone
  have hlists := htelling.list found response steps hstage htrace trivial
  rw [hrq'] at hlists
  refine ⟨?_, state, steps, hstate, hsteps, hdisplays.endLoad⟩
  show t.server.Rows id' page.allTraceSteps
  rw [hsteps]
  exact hlists.rows

/-- **A command has been answered.** -/
theorem fresh_commanded (h : t.Current entries rq) {r : ℕ} (htasks : t.tasks = [.commanding r])
    {found : Option (ℕ × ℕ)} {response : Response}
    (hstage : t.server.stage r = .answered found response)
    (hbody : ∀ message, response.body ≠ .error message) :
    (t.finish 0 (t.page.commanded entries response.body)).Fresh entries rq := by
  obtain ⟨hcurrent, -, hsame, -⟩ := Page.commanded_kept entries t.page response.body
  refine fresh_finish htasks (hsame.trans_ne h.fresh.list) fun id hid halone => ?_
  have hid := hcurrent.symm.trans hid
  obtain ⟨hroute, hrid, htelling⟩ := h.fresh.waiting htasks hid halone
  obtain ⟨state, hstate⟩ := h.coherent.server.body_state hstage hbody (Or.inl hroute)
  obtain ⟨-, hinState⟩ := htelling.state found response state hstage hstate (Or.inl trivial)
  rw [hrid] at hinState
  obtain ⟨steps, hlist⟩ := Option.ne_none_iff_exists'.mp h.fresh.list
  obtain ⟨page, hprocess, hsteps, hdisplays⟩ := Page.exists_displays entries hlist state
  have hpage : t.page.commanded entries response.body = page := by
    rw [hstate]
    simp only [Page.commanded, hprocess]
  have hrows := h.fresh.rows id hid halone (h.not_loading htasks rfl)
  rw [← hsame, hpage] at hrows
  rw [hpage]
  exact ⟨hrows, state, steps, hinState, hsteps, hdisplays⟩

/-- **The session has been aborted.** -/
theorem fresh_aborted (h : t.Current entries rq) {r : ℕ} (htasks : t.tasks = [.aborting r])
    (hdisabled : t.page.buttonsEnabled = false) {found : Option (ℕ × ℕ)} {response : Response}
    (hstage : t.server.stage r = .answered found response)
    (hbody : ∀ message, response.body ≠ .error message) :
    (t.finish 0 (t.page.setStatus "Aborted")).Fresh entries rq := by
  refine fresh_finish htasks h.fresh.list fun id hid halone => ?_
  obtain ⟨hrq, htelling⟩ := h.fresh.waiting htasks hid halone
  have hstatus := h.coherent.server.body_status hstage hbody (by simp [hrq])
  have hinState := htelling.aborted found response "aborted" hstage hstatus
  rw [hrq] at hinState
  obtain ⟨steps, hlist⟩ := Option.ne_none_iff_exists'.mp h.fresh.list
  exact ⟨h.fresh.rows id hid halone (h.not_loading htasks rfl), .aborted, steps, hinState, hlist,
    rfl, hdisabled⟩

/-- **Whatever arrives**, the page shows how things are, or waits to be told. -/
theorem Current.settle (h : t.Current entries rq) (hn : t.tasks[n]? = some task)
    {arrival : Arrival} (hsmooth : t.Smooth rq (.settle n arrival))
    (hs : t.settle entries rq n task arrival = some t') : t'.Fresh entries rq := by
  obtain ⟨hnone, -⟩ | ⟨task', htasks, hdisabled, -⟩ := h.inOrder
  · exact absurd hn (by simp [hnone])
  obtain rfl : task = task' := by
    rw [htasks] at hn
    exact List.mem_singleton.mp (List.mem_of_getElem? hn)
  obtain rfl : n = 0 := by
    obtain ⟨hlt, -⟩ := List.getElem?_eq_some_iff.mp hn
    rw [htasks, List.length_singleton] at hlt
    omega
  rw [Tab.settle.eq_def] at hs
  split at hs
  · obtain ⟨e, he, rfl⟩ := Option.map_eq_some_iff.mp hs
    exact fresh_created h htasks he (hsmooth e he)
  · exact hsmooth.elim
  · next id next =>
    obtain ⟨t₁, hsend, rfl⟩ := Option.map_eq_some_iff.mp hs
    obtain ⟨hnew, -, rfl⟩ := fresh_of_send hsend
    obtain ⟨hrq, -⟩ := send_eq_some hsend
    have hcurrent : t.page.currentSessionId = some id :=
      h.coherent.tasks (.sleeping id) (htasks ▸ List.mem_singleton_self _)
    refine fresh_goOn (t := { t with sent := next :: t.sent }) htasks h.fresh.list
      (h.coherent.only_load hn rfl).1 fun id' hid' halone => ?_
    obtain rfl : id = id' := Option.some.inj (hcurrent.symm.trans hid')
    have hatStart : t.server.AtStart id :=
      h.fresh.waiting htasks hid' (halone.of_send h.coherent.server.serial hnew)
    exact ⟨hrq, Server.telling_of_new False.elim hnew, hatStart⟩
  · obtain ⟨response, hresponse, hs⟩ := Option.bind_eq_some_iff.mp hs
    obtain ⟨found, hstage, hbody⟩ := hsmooth.answered hn rfl hresponse
    exact fresh_polled h htasks hstage hbody hs
  · obtain ⟨response, hresponse, rfl⟩ := Option.map_eq_some_iff.mp hs
    obtain ⟨found, hstage, hbody⟩ := hsmooth.answered hn rfl hresponse
    exact fresh_traced h htasks hstage hbody
  · obtain ⟨response, hresponse, rfl⟩ := Option.map_eq_some_iff.mp hs
    obtain ⟨found, hstage, hbody⟩ := hsmooth.answered hn rfl hresponse
    exact fresh_commanded h htasks hstage hbody
  · obtain ⟨response, hresponse, rfl⟩ := Option.map_eq_some_iff.mp hs
    obtain ⟨found, hstage, hbody⟩ := hsmooth.answered hn rfl hresponse
    exact fresh_aborted h htasks hdisabled hstage hbody
  all_goals first | exact hsmooth.elim | exact absurd hs (by simp)

/-- **A request about the current session is sent**, by a page that waits for nothing else. -/
theorem fresh_add (h : t.Current entries rq) (hidle : t.tasks = []) {r : ℕ}
    (hnew : t.server.stage r = .new) (hlist : page.allTraceSteps = t.page.allTraceSteps)
    (hcurrent : page.currentSessionId = t.page.currentSessionId)
    (hwaits : ∀ id, t.page.currentSessionId = some id → t.server.Loaded id →
      task.Current rq t.server id) :
    Fresh entries rq { t with page := page, tasks := t.tasks ++ [task], sent := r :: t.sent } := by
  have hrows : ∀ id, page.currentSessionId = some id → t.server.Alone (r :: t.sent) id →
      t.page.currentSessionId = some id ∧ t.server.Rows id t.page.allTraceSteps := by
    intro id hid halone
    have hid := hcurrent.symm.trans hid
    exact ⟨hid, (h.fresh.shows id hid (halone.of_send h.coherent.server.serial hnew) hidle).rows⟩
  refine fresh_waiting task (by simp [hidle]) (hlist.trans_ne h.fresh.list)
    (fun id hid halone _ => ?_) fun id hid halone => ?_
  · show t.server.Rows id page.allTraceSteps
    rw [hlist]
    exact (hrows id hid halone).2
  · obtain ⟨hid, place, e, he, heid, hne, -⟩ := hrows id hid halone
    exact hwaits id hid ⟨place, e, he, heid, hne⟩

/-- **A command is given.** -/
theorem Current.press (h : t.Current entries rq) {route : Route} {byKey : Bool} {r : ℕ}
    (hroute : route.onPool = true) (hpatient : byKey = true → t.tasks = [])
    (hs : t.press rq route byKey r = some t') : t'.Fresh entries rq := by
  rw [Tab.press] at hs
  split at hs
  · next hnone =>
    split at hs <;> obtain rfl := Option.some.inj hs
    · exact fresh_of_none h.fresh.list hnone
    · exact h.fresh
  · next id hid =>
    split at hs
    · next hpressed =>
      obtain ⟨t₁, hsend, rfl⟩ := Option.map_eq_some_iff.mp hs
      obtain ⟨hnew, -, rfl⟩ := fresh_of_send hsend
      obtain ⟨hrq, -⟩ := send_eq_some hsend
      obtain ⟨hidle, -⟩ := h.inOrder.idle (((Bool.or_eq_true _ _).mp hpressed).imp_left hpatient)
      have hwaits : ∀ id', t.page.currentSessionId = some id' → t.server.Loaded id' →
          PageTask.Current rq t.server id' (.commanding r) := by
        intro id' hid' hloaded
        obtain rfl : id = id' := Option.some.inj (hid.symm.trans hid')
        exact ⟨by rw [hrq]; exact hroute, by rw [hrq],
          Server.telling_of_new (fun _ => by rw [hrq]; exact hloaded) hnew⟩
      split
      · exact fresh_add h hidle hnew rfl rfl hwaits
      · exact fresh_add h hidle hnew rfl rfl hwaits
    · obtain rfl := Option.some.inj hs
      exact h.fresh

/-- What goes well, a patient user does. -/
theorem Smooth.patient {a : TabAction} (hsmooth : t.Smooth rq a) : t.Patient a := by
  cases a with
  | load _ _ => exact hsmooth
  | press _ _ _ => exact hsmooth
  | abort _ | server _ => trivial
  | settle n arrival =>
    cases arrival with
    | failed message => exact hsmooth.elim
    | elapsed _ | created _ | refused _ | answered _ => trivial

/-! ### One action -/

/-- What the page does, the server need not know at once. -/
theorem server_settle {arrival : Arrival} (hs : t.settle entries rq n task arrival = some t') :
    t'.server = t.server := by
  have hsend : ∀ {r : ℕ} {request : Request} {t₁ : Tab}, t.send rq r request = some t₁ →
      t₁.server = t.server := fun h => by
    obtain ⟨-, rfl⟩ := send_eq_some h
    rfl
  rw [Tab.settle.eq_def] at hs
  split at hs
  · obtain ⟨e, -, rfl⟩ := Option.map_eq_some_iff.mp hs
    rw [Tab.created]
    split
    · rfl
    · split <;> rfl
  · obtain rfl := Option.some.inj hs
    rfl
  · obtain ⟨t₁, h₁, rfl⟩ := Option.map_eq_some_iff.mp hs
    have hserver := hsend h₁
    exact hserver
  · obtain ⟨response, -, hs⟩ := Option.bind_eq_some_iff.mp hs
    rw [Tab.polled.eq_def] at hs
    split at hs
    · obtain rfl := Option.some.inj hs
      rfl
    · obtain ⟨t₁, h₁, rfl⟩ := Option.map_eq_some_iff.mp hs
      have hserver := hsend h₁
      exact hserver
    all_goals
      obtain rfl := Option.some.inj hs
      rfl
  all_goals
    first
      | obtain ⟨response, -, rfl⟩ := Option.map_eq_some_iff.mp hs
        rfl
      | obtain rfl := Option.some.inj hs
        rfl
      | exact absurd hs (by simp)

/-- Nor what its user does. -/
theorem server_press {route : Route} {byKey : Bool} {r : ℕ}
    (hs : t.press rq route byKey r = some t') : t'.server = t.server := by
  rw [Tab.press] at hs
  split at hs
  · split at hs <;> obtain rfl := Option.some.inj hs <;> rfl
  · split at hs
    · obtain ⟨t₁, hsend, rfl⟩ := Option.map_eq_some_iff.mp hs
      obtain ⟨-, rfl⟩ := send_eq_some hsend
      rfl
    · obtain rfl := Option.some.inj hs
      rfl

/-- **Every action that goes well keeps the invariant.** -/
theorem Current.step (h : t.Current entries rq) {a : TabAction} (hsmooth : t.Smooth rq a)
    (hs : t.step entries ttl rq a = some t') : t'.Current entries rq := by
  have hcoherent := h.coherent.step (fun hfalse => hfalse.elim) hs
  have hinOrder := h.inOrder.step (hsmooth.patient) hs
  cases a with
  | load txHash rpcUrl =>
    rw [Tab.step] at hs
    split at hs
    · obtain rfl := Option.some.inj hs
      exact h
    · split at hs <;> obtain rfl := Option.some.inj hs
      · exact h
      · refine ⟨hcoherent, h.untouched, hinOrder, ?_⟩
        refine fresh_waiting .creating ?_ (by simp [Page.startLoad])
          (fun _ _ _ hover => absurd hover (by simp [Page.startLoad])) fun _ _ _ => trivial
        show t.tasks ++ [.creating] = [.creating]
        rw [show t.tasks = [] from hsmooth]
        rfl
  | press route byKey r =>
    rw [Tab.step] at hs
    split at hs
    · next hroute =>
      exact ⟨hcoherent, server_press hs ▸ h.untouched, hinOrder, h.press hroute hsmooth hs⟩
    · exact absurd hs (by simp)
  | abort r =>
    rw [Tab.step] at hs
    split at hs
    · obtain rfl := Option.some.inj hs
      exact h
    · next id hid =>
      split at hs
      · next henabled =>
        obtain ⟨t₁, hsend, rfl⟩ := Option.map_eq_some_iff.mp hs
        obtain ⟨hnew, -, rfl⟩ := fresh_of_send hsend
        obtain ⟨hrq, -⟩ := send_eq_some hsend
        obtain ⟨hidle, -⟩ := h.inOrder.idle (Or.inr henabled)
        refine ⟨hcoherent, h.untouched, hinOrder, ?_⟩
        refine fresh_add h hidle hnew rfl rfl fun id' hid' hloaded => ?_
        obtain rfl : id = id' := Option.some.inj (hid.symm.trans hid')
        exact ⟨hrq, Server.telling_of_new (fun _ => by rw [hrq]; exact hloaded) hnew⟩
      · obtain rfl := Option.some.inj hs
        exact h
  | settle n arrival =>
    obtain ⟨task, hn, hs⟩ := Option.bind_eq_some_iff.mp hs
    exact ⟨hcoherent, server_settle hs ▸ h.untouched, hinOrder, h.settle hn hsmooth hs⟩
  | server a =>
    obtain ⟨server, hserver, rfl⟩ := Option.map_eq_some_iff.mp hs
    have hdid := Server.did hserver
    refine ⟨hcoherent, h.untouched.did hdid, hinOrder, h.fresh.list, ?_, ?_, ?_⟩
    · exact fun id hid halone hover => (h.fresh.rows id hid (halone.of_did hdid) hover).did hdid
    · intro id hid halone task htask
      obtain ⟨hnone, -⟩ | ⟨task', htasks, -, hqueue⟩ := h.inOrder
      · exact absurd (hnone ▸ htask) List.not_mem_nil
      · obtain rfl := List.mem_singleton.mp (htasks ▸ htask)
        exact (h.fresh.waits id hid (halone.of_did hdid) task htask).did h.coherent.server
          hcoherent.server hdid halone hqueue
    · intro id hid halone hidle
      obtain ⟨hrows, state, steps, hstate, hrest⟩ :=
        h.fresh.shows id hid (halone.of_did hdid) hidle
      refine ⟨hrows.did hdid, state, steps, ?_, hrest⟩
      refine hstate.did (hrows.ne_loading h.coherent.server.named hstate) hdid halone
        fun r hr hlive => ?_
      obtain ⟨-, hqueue⟩ := h.inOrder.idle (Or.inl hidle)
      exact absurd (hlive.symm.trans (hqueue.answered r hr (by simp))) (by simp)

/-- **The page shows how its session is**, when it waits for nothing. -/
theorem Current.displays (h : t.Current entries rq) (hidle : t.tasks = []) {place : ℕ} {e : Entry}
    (he : t.server.heap[place]? = some e) (hcurrent : t.page.currentSessionId = some e.id)
    (halone : t.server.Alone t.sent e.id) :
    e.world.session.data ≠ .loading ∧ t.page.Displays entries
      e.world.session.data.getTraceSteps e.world.session.data.currentStateLocked := by
  obtain ⟨⟨q, x, hx, hid, hne, hrows⟩, state, steps, ⟨q', x', hx', hid', rfl⟩, hsteps, hdisplays⟩ :=
    h.fresh.shows e.id hcurrent halone hidle
  -- there is one session of the name
  obtain rfl := h.coherent.server.named q place x e hx he hid
  obtain rfl := Option.some.inj (hx.symm.trans he)
  obtain rfl := h.coherent.server.named q' q x' x hx' he hid'
  obtain rfl := Option.some.inj (hx'.symm.trans he)
  refine ⟨hne, ?_⟩
  cases hdata : x'.world.session.data with
  | loading => exact absurd hdata hne
  | ready snapshots i result =>
    obtain rfl := Option.some.inj (hsteps.symm.trans (hrows snapshots i result hdata))
    rw [hdata] at hdisplays
    exact hdisplays
  | aborted | error _ =>
    rw [hdata] at hdisplays
    exact hdisplays

end Tab

/-- All goes well when a session is opened and advances a step, -/
theorem smooth_openAndStep :
    Runs.Along (Tab.step (fun _ => []) 1800 pageRequests) (Tab.Smooth pageRequests) .init
      openAndStep := by
  obtain ⟨t₁, ht₁, htasks, response, hresponse, reply, hbody⟩ : ∃ t, Runs.run
      (Tab.step (fun _ => []) 1800 pageRequests) .init (openAndStep.take 9) = some t ∧
      t.tasks = [.commanding 0] ∧ ∃ response, t.response 0 = some response ∧
      ∃ reply, response.body = .reply reply := ⟨_, rfl, rfl, _, rfl, _, rfl⟩
  rw [← List.take_append_drop 9 openAndStep]
  refine (Runs.along_append ht₁).mpr ⟨?_, ?_⟩
  · refine (Runs.along_cons rfl).mpr ⟨trivial, ?_⟩
    refine (Runs.along_cons rfl).mpr ⟨rfl, ?_⟩
    refine (Runs.along_cons rfl).mpr ⟨fun _ _ _ hr => absurd hr List.not_mem_nil, ?_⟩
    refine (Runs.along_cons rfl).mpr ⟨fun hkey => absurd hkey (by simp), ?_⟩
    refine Runs.along_of_forall fun a ha t => ?_
    simp only [List.take_succ_cons, List.take_zero, List.mem_cons, List.not_mem_nil,
      or_false] at ha
    rcases ha with rfl | rfl | rfl | rfl | rfl <;> trivial
  · refine ⟨?_, fun _ _ => trivial⟩
    -- the answer is that of the session
    rintro task r response' hn hr hresponse' message herror
    rw [htasks] at hn
    obtain rfl := List.mem_singleton.mp (List.mem_of_getElem? hn)
    obtain rfl := Option.some.inj hr
    obtain rfl := Option.some.inj (hresponse.symm.trans hresponse')
    exact absurd (hbody.symm.trans herror) (by simp)

/-- and it is the page that has made it do so. -/
theorem exists_openAndStep :
    ∃ t e, Runs.run (Tab.step (fun _ => []) 1800 pageRequests) .init openAndStep = some t ∧
      t.tasks = [] ∧ t.server.heap[0]? = some e ∧ t.page.currentSessionId = some e.id ∧
      (∀ entry ∈ e.object.log, ∀ r, entry.1 = some r → r ∈ t.sent) := by
  obtain ⟨t, e, ht, hidle, he, hcurrent, hsent, hlog⟩ : ∃ t e, Runs.run
      (Tab.step (fun _ => []) 1800 pageRequests) .init openAndStep = some t ∧ t.tasks = [] ∧
      t.server.heap[0]? = some e ∧ t.page.currentSessionId = some e.id ∧ t.sent = [0] ∧
      e.object.log = [(some 0, .touch 0), (some 0, .stepInto)] :=
    ⟨_, _, rfl, rfl, rfl, rfl, rfl, rfl⟩
  refine ⟨t, e, ht, hidle, he, hcurrent, fun entry hentry r hr => ?_⟩
  rw [hlog] at hentry
  rw [hsent]
  simp only [List.mem_cons, List.not_mem_nil, or_false] at hentry
  rcases hentry with rfl | rfl <;>
  · obtain rfl := Option.some.inj hr
    exact List.mem_singleton_self _

/-- **The page is up to date**, in every run in which all goes well, whenever it waits for nothing
and nobody else has done anything to its session: the session is not loading, and the page shows its
state with its rows. -/
theorem idle_page_is_current
    {entries : StorageChanges → List (String × List (String × String))} {ttl : ℕ}
    {rq : ℕ → Request} {actions : List TabAction} {t : Tab}
    (hsmooth : Runs.Along (Tab.step entries ttl rq) (Tab.Smooth rq) .init actions)
    (h : Runs.run (Tab.step entries ttl rq) .init actions = some t) (hidle : t.tasks = [])
    {place : ℕ} {e : Entry} (he : t.server.heap[place]? = some e)
    (hcurrent : t.page.currentSessionId = some e.id)
    (halone : ∀ entry ∈ e.object.log, ∀ r, entry.1 = some r → r ∈ t.sent) :
    e.world.session.data ≠ .loading ∧ t.page.Displays entries
      e.world.session.data.getTraceSteps e.world.session.data.currentStateLocked := by
  have hinv := Runs.run_invariant_along (motive := fun t : Tab => t.Current entries rq)
    (fun _ _ _ h hsmooth hstep => h.step hsmooth hstep) Tab.current_init hsmooth h
  exact hinv.displays hidle he hcurrent (hinv.coherent.server.named.alone he halone)

/-- The session has been opened and has advanced a step, and the page shows the second snapshot,
with the rows of the trace. -/
theorem current_openAndStep :
    ∃ t snap, Runs.run (Tab.step (fun _ => []) 1800 pageRequests) .init openAndStep = some t ∧
      twoStepsTrace[1]? = some snap ∧ t.page.Shows (fun _ => []) snap ∧
      t.page.opcodePanel =
        Page.renderOpcodeList (twoStepsTrace.map StepSnapshot.row) (some snap.stepNumber) := by
  obtain ⟨t, e, ht, hidle, he, hcurrent, halone⟩ := exists_openAndStep
  obtain ⟨t', e', ht', he', hdata⟩ : ∃ t e, Runs.run (Tab.step (fun _ => []) 1800 pageRequests)
      .init openAndStep = some t ∧ t.server.heap[0]? = some e ∧
      e.world.session.data = .ready twoStepsTrace 1 (some sampleStop.info) := ⟨_, _, rfl, rfl, rfl⟩
  obtain rfl := Option.some.inj (ht.symm.trans ht')
  obtain rfl := Option.some.inj (he.symm.trans he')
  have hdisplays := (idle_page_is_current smooth_openAndStep ht hidle he hcurrent halone).2
  rw [hdata] at hdisplays
  exact ⟨t, _, ht, rfl, hdisplays.1, hdisplays.2.1⟩

/-- A session is opened and advances a step, but the answer gets lost. -/
def lostAnswer : List TabAction := openAndStep.take 9 ++ [.settle 0 (.failed "Failed to fetch")]

/-- **Otherwise it may not be**: the page waits for nothing, and is a step behind. -/
theorem Tab.behind_lostAnswer :
    ∃ t e snap, Runs.run (Tab.step (fun _ => []) 1800 pageRequests) .init lostAnswer = some t ∧
      t.tasks = [] ∧ t.server.heap[0]? = some e ∧
      e.world.session.data.currentStateLocked = .paused snap ∧
      t.page.statusBar ≠ Page.updateStatusBar snap :=
  ⟨_, _, _, rfl, rfl, rfl, rfl, by decide⟩

end EvmDebugger
