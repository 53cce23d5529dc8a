import EvmDebugger.Page.Current
import EvmDebugger.Session.Commands

/-!
# What is pressed is what is shown

To its user, the debugger is a trace and a place in it, and every button moves the place. Of all
that is between the button and the panels – a request, a pool of threads, a lock, a response, a page
that has to be told – nothing is meant to be noticed.

That is so as long as all goes well and nobody else uses the session
(`EvmDebugger.page_walks_trace`): what the page shows, when it waits for nothing, is what comes of
the commands that have been given, one after the other, from the beginning of the trace. It does not
depend on when the trace was there, how often the page has asked for it, or who has taken which lock
in between.
-/

namespace EvmDebugger

/-! ### One session -/

/-- The command that an action carries out, if it is one that moves the session. -/
def Action.command : Action → Option Command
  | stepInto => some .stepInto
  | stepOver => some .stepOver
  | continueExec => some .continueExec
  | abortWrite => some .abort
  | waitTake | waitRecv _ | waitPublish _ | abortStore | currentState | getTraceSteps
  | snapshotsForCache | touch _ | send _ | disconnect => none

/-- **What becomes of a session** that is given these commands. -/
def SessionData.walk (data : SessionData) (commands : List Command) : SessionData :=
  commands.foldl (fun data c => (data.serve c).1) data

/-- What is no command is done in the background, or leaves the data as they are. -/
theorem Action.isBackground_or_keepsData {a : Action} (h : a.command = none) :
    a.isBackground = true ∨ a.keepsData = true := by
  cases a with
  | stepInto | stepOver | continueExec | abortWrite => exact absurd h (by simp [Action.command])
  | waitTake | waitRecv _ | waitPublish _ | currentState | getTraceSteps | snapshotsForCache
  | send _ | disconnect => exact Or.inl rfl
  | abortStore | touch _ => exact Or.inr rfl

/-- And no command is. -/
theorem Action.command_of_isBackground {a : Action} (h : a.isBackground = true) :
    a.command = none := by
  cases a <;> first | rfl | exact absurd h (by simp [Action.isBackground])

theorem Action.command_of_keepsData {a : Action} (h : a.keepsData = true) : a.command = none := by
  cases a <;> first | rfl | exact absurd h (by simp [Action.keepsData])

namespace World

variable {w w' : World} {a : Action}

/-- **A command does to the session what it is to do.** -/
theorem data_of_command (hs : w.step a = some w') {c : Command} (hc : a.command = some c) :
    w'.session.data = (w.session.data.serve c).1 := by
  cases a with
  | stepInto | stepOver | continueExec =>
    obtain rfl := Option.some.inj hs
    obtain rfl := Option.some.inj hc
    rfl
  | abortWrite =>
    obtain rfl := Option.some.inj hc
    exact aborted_of_abortWrite hs
  | _ => exact absurd hc (by simp [Action.command])

end World

namespace Entry

variable {e e' : Entry} {data : SessionData}

/-- **The commands that clients have given the session**, in their order. -/
def commands (e : Entry) : List Command :=
  e.object.log.filterMap fun entry => entry.1.bind fun _ => entry.2.command

/-- **The session has begun with these data**: it has had them, it was not loading, and if they are
a trace then it was at its beginning. -/
structure Began (e : Entry) (data : SessionData) : Prop where
  ne_loading : data ≠ .loading
  had : ∃ (n : ℕ) (w : World), e.after n = some w ∧ w.session.data = data
  atStart : data.AtStart

/-- **The session is where its commands lead**, from where it has begun; and as long as it is
loading, it is given none. -/
structure Walks (e : Entry) : Prop where
  loading : e.world.session.data = .loading → e.commands = []
  loaded : e.world.session.data ≠ .loading →
    ∃ data, e.Began data ∧ e.world.session.data = data.walk e.commands

theorem Began.later (h : e.Began data) (hlater : e.Later e') : e'.Began data := by
  obtain ⟨n, w, hn, hw⟩ := h.had
  obtain ⟨m, hm⟩ := hlater.after hn
  exact ⟨h.ne_loading, ⟨m, w, hm, hw⟩, h.atStart⟩

/-- A session just made. -/
theorem walks_new (id : String) (origin : Origin) (created : ℕ) :
    (Entry.new id origin created).Walks where
  loading _ := rfl
  loaded hne := ⟨_, ⟨hne, ⟨0, _, rfl, rfl⟩, Origin.atStart_world origin created⟩, rfl⟩

/-- Somebody takes the lock: the session has gone on. -/
theorem later_of_act {who : Option ℕ} {act : Action} (h : e.act who act = some e') :
    e.Later e' := by
  obtain ⟨⟨hid, hstart⟩, -, hlog, -⟩ := Entry.act_eq_some h
  exact ⟨hid, hstart, hlog ▸ List.prefix_append _ _⟩

/-- **Somebody takes the lock**, to give a command to a session that is not loading, or to do
something else. -/
theorem Walks.act (h : e.Walks) {who : Option ℕ} {act : Action} (hact : e.act who act = some e')
    (hwho : who = none → act.command = none)
    (hloaded : act.command ≠ none → e.world.session.data ≠ .loading) : e'.Walks := by
  obtain ⟨-, hstep, hlog, -⟩ := Entry.act_eq_some hact
  have hlater := later_of_act hact
  have hok := World.ok_of_run e.run_log
  have hcommands : e'.commands = e.commands ++ act.command.toList := by
    rw [commands, hlog, List.filterMap_append]
    congr 1
    cases who with
    | none =>
      rw [hwho rfl]
      rfl
    | some r => cases hc : act.command <;> simp [hc]
  cases hc : act.command with
  | some c =>
    have hne := hloaded (by simp [hc])
    obtain ⟨data, hbegan, hdata⟩ := h.loaded hne
    refine ⟨fun hloading => absurd hloading (hok.ne_loading hstep hne), fun _ =>
      ⟨data, hbegan.later hlater, ?_⟩⟩
    rw [World.data_of_command hstep hc, hcommands, hc, hdata, SessionData.walk, SessionData.walk,
      Option.toList_some, List.foldl_append]
    rfl
  | none =>
    rw [hc, Option.toList_none, List.append_nil] at hcommands
    by_cases hloading : e.world.session.data = .loading
    · have hnone := hcommands.trans (h.loading hloading)
      have hatStart := hok.atStart hstep (Action.isBackground_or_keepsData hc)
        fun snapshots i result hready => absurd (hloading.symm.trans hready) (by simp)
      -- the session begins
      exact ⟨fun _ => hnone, fun hne =>
        ⟨_, ⟨hne, ⟨_, _, e'.after_length, rfl⟩, hatStart⟩, by rw [hnone]; rfl⟩⟩
    · have hdata : e'.world.session.data = e.world.session.data := by
        rcases Action.isBackground_or_keepsData hc with hback | hkeeps
        · exact hok.background hstep hback hloading
        · exact World.data_of_keepsData hstep hkeeps
      obtain ⟨data, hbegan, hwalk⟩ := h.loaded hloading
      refine ⟨fun h' => absurd (hdata.symm.trans h') hloading, fun _ =>
        ⟨data, hbegan.later hlater, ?_⟩⟩
      rw [hdata, hcommands, hwalk]

end Entry

/-! ### The page -/

/-- Who acts on the session that the page shows gives it a command only when it is not loading. -/
theorem PageTask.Current.loaded {rq : ℕ → Request} {s : Server} {id : String} {task : PageTask}
    (h : task.Current rq s id) {r : ℕ} (hr : task.request = some r) {stage : Stage} {place : ℕ}
    {done : List Action} {act : Action}
    (hhistory : stage.history (rq r).route = some (place, done ++ [act]))
    (hcommand : act.command ≠ none) : s.Loaded id := by
  have hact : act ∈ done ++ [act] := List.mem_append_right _ (List.mem_singleton_self _)
  have hreads : (rq r).route.underGuard = true → s.Loaded id := fun hroute =>
    absurd (Action.command_of_keepsData (Stage.keepsData_of_underGuard hroute hhistory hact))
      hcommand
  cases task with
  | creating | sleeping _ => exact absurd hr (by simp [PageTask.request])
  | polling id' r' =>
    obtain rfl := Option.some.inj hr
    exact hreads (by rw [h.1]; rfl)
  | tracing id' state r' =>
    obtain rfl := Option.some.inj hr
    exact hreads (by rw [h.1]; rfl)
  | commanding r' =>
    obtain rfl := Option.some.inj hr
    exact h.2.1 ▸ h.2.2.loaded trivial
  | aborting r' =>
    obtain rfl := Option.some.inj hr
    have hloaded := h.2.loaded trivial
    rw [h.1] at hloaded
    exact hloaded

namespace Tab

/-- **The commands that the user has given**, to the session of this name. -/
def pressed (rq : ℕ → Request) (t : Tab) (id : String) : List Command :=
  (t.sent.reverse.filter fun r => (rq r).id = id).filterMap fun r => (rq r).route.action.command

/-- The request has been answered, and not with an error. -/
def Heard (t : Tab) (r : ℕ) : Prop :=
  ∃ found response, t.server.stage r = .answered found response ∧
    ∀ message, response.body ≠ .error message

/-- **The invariant**: what is not waited for has been heard, and the session of the page is where
its commands lead, as is any session that nobody has used. -/
structure Walked (rq : ℕ → Request) (t : Tab) : Prop where
  heard : ∀ r ∈ t.sent, (∀ task ∈ t.tasks, task.request ≠ some r) → t.Heard r
  unused : ∀ (place : ℕ) (e : Entry), t.server.heap[place]? = some e →
    (∀ entry ∈ e.object.log, entry.1 = none) → e.Walks
  walks : ∀ id, t.page.currentSessionId = some id → t.server.Alone t.sent id →
    ∀ (place : ℕ) (e : Entry), t.server.heap[place]? = some e → e.id = id → e.Walks

variable {entries : StorageChanges → List (String × List (String × String))} {ttl : ℕ}
  {rq : ℕ → Request} {t t' : Tab} {n : ℕ} {task : PageTask}

theorem walked_init : init.Walked rq where
  heard _ h := absurd h List.not_mem_nil
  unused _ _ h := absurd h (by simp [init, Server.init])
  walks _ h := absurd h (by simp [init, Page.init])

/-- **The page goes on**: it shows the same session, or opens one that nobody has used; it sends
nothing, or a request that it waits for; and what it no longer waits for, it has heard. -/
theorem Walked.move (h : t.Walked rq) (hc : t.Current entries rq) (hserver : t'.server = t.server)
    (hcurrent : t'.page.currentSessionId = t.page.currentSessionId ∨ ∃ (place : ℕ) (e : Entry),
      t.server.heap[place]? = some e ∧ (∀ r ∈ t.sent, (rq r).id ≠ e.id) ∧
        t'.page.currentSessionId = some e.id)
    (hsent : t'.sent = t.sent ∨ ∃ r, t.server.stage r = .new ∧ t'.sent = r :: t.sent ∧
      ∃ task ∈ t'.tasks, task.request = some r)
    (htasks : ∀ task ∈ t.tasks, ∀ r, task.request = some r → task ∈ t'.tasks ∨ t.Heard r) :
    t'.Walked rq where
  heard r hr hnone := by
    have hold : r ∈ t.sent := by
      rcases hsent with hsame | ⟨r', -, hnew, task, htask, hrequest⟩
      · exact hsame ▸ hr
      · rcases List.mem_cons.mp (hnew ▸ hr) with rfl | hr
        · exact absurd hrequest (hnone task htask)
        · exact hr
    have hheard : t.Heard r := by
      by_cases hwaits : ∃ task ∈ t.tasks, task.request = some r
      · obtain ⟨task, htask, hrequest⟩ := hwaits
        exact (htasks task htask r hrequest).resolve_left fun htask' =>
          hnone task htask' hrequest
      · exact h.heard r hold fun task htask hrequest => hwaits ⟨task, htask, hrequest⟩
    rw [Heard, hserver]
    exact hheard
  unused := hserver ▸ h.unused
  walks id hid halone place e he heid := by
    rw [hserver] at halone he
    have halone : t.server.Alone t.sent id := by
      rcases hsent with hsame | ⟨r, hnew, hnext, -⟩
      · exact hsame ▸ halone
      · exact (hnext ▸ halone).of_send hc.coherent.server.serial hnew
    rcases hcurrent with hsame | ⟨q, x, hx, hnew, hopened⟩
    · exact h.walks id (hsame.symm.trans hid) halone place e he heid
    · obtain rfl : x.id = id := Option.some.inj (hopened.symm.trans hid)
      exact h.unused place e he (halone.nobody hc.coherent.server.serial he heid hnew)

/-- **The server goes on.** -/
theorem Walked.serve (h : t.Walked rq) (hc : t.Current entries rq) {a : ServerAction}
    {server : Server} (hdid : Server.Did ttl rq t.server a server) :
    Walked rq { t with server := server } where
  heard r hr hnone := by
    obtain ⟨found, response, hstage, hbody⟩ := h.heard r hr hnone
    have hstays := hdid.stage_of_answered (r := r) (by rw [hstage]; rfl)
    exact ⟨found, response, hstays.trans hstage, hbody⟩
  unused place e' he' hnone := by
    rcases hdid.entry_from he' with ⟨e, he, rfl | ⟨who, act, hact, hwho⟩⟩ | ⟨_, _, _, rfl⟩
    · exact h.unused place e' he hnone
    · obtain ⟨-, -, hlog, -⟩ := Entry.act_eq_some hact
      rw [hlog] at hnone
      obtain rfl : who = none := hnone (who, act) (by simp)
      have hback : act.command = none := by
        rcases hwho with ⟨-, hback⟩ | ⟨r, done, hr, -⟩
        · exact Action.command_of_isBackground hback
        · exact absurd hr (by simp)
      exact (h.unused place e he
        fun entry hentry => hnone entry (List.mem_append_left _ hentry)).act
        hact (fun _ => hback) fun hcommand => absurd hback hcommand
    · exact Entry.walks_new _ _ _
  walks id hid halone place e' he' heid := by
    have halone' : server.Alone t.sent id := halone
    rcases hdid.entry_from he' with ⟨e, he, rfl | ⟨who, act, hact, hwho⟩⟩ | ⟨_, _, _, rfl⟩
    · exact h.walks id hid (halone'.of_did hdid) place e' he heid
    · obtain ⟨⟨hid', -⟩, -, hlog, -⟩ := Entry.act_eq_some hact
      have heid' : e.id = id := hid'.symm.trans heid
      refine (h.walks id hid (halone'.of_did hdid) place e he heid').act hact ?_ ?_
      · rintro rfl
        rcases hwho with ⟨-, hback⟩ | ⟨r, done, hr, -⟩
        · exact Action.command_of_isBackground hback
        · exact absurd hr (by simp)
      · intro hcommand
        rcases hwho with ⟨-, hback⟩ | ⟨r, done, rfl, hlive, hhistory⟩
        · exact absurd (Action.command_of_isBackground hback) hcommand
        -- a request that acts on it is the one that is waited for
        have hsent : r ∈ t.sent := halone' place e' he' heid (some r, act) (by simp [hlog]) r rfl
        obtain ⟨task, htask, hrequest⟩ : ∃ task ∈ t.tasks, task.request = some r := by
          by_contra hnone
          obtain ⟨found, response, hstage, -⟩ := h.heard r hsent fun task htask hrequest =>
            hnone ⟨task, htask, hrequest⟩
          rw [hstage] at hlive
          exact absurd hlive (by simp [Stage.isAnswered])
        have hcurrent := hc.fresh.waits id hid (halone'.of_did hdid) task htask
        obtain ⟨q, x, hx, hxid, hne⟩ := hcurrent.loaded hrequest hhistory hcommand
        obtain rfl := hc.coherent.server.named q place x e hx he (hxid.trans heid'.symm)
        obtain rfl := Option.some.inj (hx.symm.trans he)
        exact hne
    · exact Entry.walks_new _ _ _

/-- **What has arrived has been heard**, if all goes well. -/
theorem heard_of_settle {arrival : Arrival} (hn : t.tasks[n]? = some task)
    (hsmooth : t.Smooth rq (.settle n arrival))
    (hs : t.settle entries rq n task arrival = some t') {r : ℕ} (hr : task.request = some r) :
    t.Heard r := by
  have hfailed : ∀ message, arrival ≠ .failed message := by
    rintro message rfl
    exact hsmooth
  obtain ⟨next, response, rfl, hresponse⟩ := exists_response_of_settle hs hr hfailed
  obtain ⟨found, hstage, hbody⟩ := hsmooth.answered hn hr hresponse
  exact ⟨found, response, hstage, hbody⟩

/-- A session that is opened is the one that is shown. -/
theorem current_created (t : Tab) (n : ℕ) (e : Entry) :
    (t.created entries n e).page.currentSessionId = some e.id := by
  have hkept := (Page.processState_kept entries
    (t.page.opened e.id e.start.session.data.getTraceSteps)
    e.start.session.data.currentStateLocked).1
  rw [Tab.created]
  split
  · next page message heq =>
    rw [heq] at hkept
    exact hkept
  · next page heq =>
    rw [heq] at hkept
    split <;> exact hkept

/-- **What the page does when something arrives**, if all goes well: it shows the same session, or
opens a new one; and it sends nothing, or a request that it waits for. -/
theorem settle_moves {arrival : Arrival} (hn : t.tasks[n]? = some task)
    (hsmooth : t.Smooth rq (.settle n arrival))
    (hs : t.settle entries rq n task arrival = some t') :
    (t'.page.currentSessionId = t.page.currentSessionId ∨ ∃ (place : ℕ) (e : Entry),
      t.server.heap[place]? = some e ∧ (∀ r ∈ t.sent, (rq r).id ≠ e.id) ∧
        t'.page.currentSessionId = some e.id) ∧
      (t'.sent = t.sent ∨ ∃ r, t.server.stage r = .new ∧ t'.sent = r :: t.sent ∧
        ∃ task ∈ t'.tasks, task.request = some r) := by
  obtain ⟨hlt, -⟩ := List.getElem?_eq_some_iff.mp hn
  -- whoever goes on is among those that wait
  have hgoOn : ∀ next : PageTask, next ∈ t.tasks.set n next := fun next =>
    List.mem_of_getElem? (List.getElem?_set_self hlt)
  rw [Tab.settle.eq_def] at hs
  split at hs
  · next place =>
    obtain ⟨e, he, rfl⟩ := Option.map_eq_some_iff.mp hs
    refine ⟨Or.inr ⟨place, e, he, hsmooth e he, current_created t n e⟩, Or.inl ?_⟩
    rw [Tab.created]
    split
    · rfl
    · split <;> rfl
  · exact hsmooth.elim
  · next id next =>
    obtain ⟨t₁, hsend, rfl⟩ := Option.map_eq_some_iff.mp hs
    obtain ⟨hnew, -, rfl⟩ := fresh_of_send hsend
    exact ⟨Or.inl rfl, Or.inr ⟨next, hnew, rfl, _, hgoOn (.polling id next), rfl⟩⟩
  · next id r next =>
    obtain ⟨response, -, hs⟩ := Option.bind_eq_some_iff.mp hs
    rw [Tab.polled.eq_def] at hs
    split at hs
    · obtain rfl := Option.some.inj hs
      exact ⟨Or.inl rfl, Or.inl rfl⟩
    · next snap heq =>
      obtain ⟨t₁, hsend, rfl⟩ := Option.map_eq_some_iff.mp hs
      obtain ⟨hnew, -, rfl⟩ := fresh_of_send hsend
      exact ⟨Or.inl rfl, Or.inr ⟨next, hnew, rfl, _, hgoOn (.tracing id (.paused snap) next), rfl⟩⟩
    · obtain rfl := Option.some.inj hs
      exact ⟨Or.inl (Page.processed_kept entries t.page _), Or.inl rfl⟩
    all_goals
      obtain rfl := Option.some.inj hs
      exact ⟨Or.inl rfl, Or.inl rfl⟩
  · obtain ⟨response, -, rfl⟩ := Option.map_eq_some_iff.mp hs
    exact ⟨Or.inl (Page.processed_kept entries _ _), Or.inl rfl⟩
  · obtain ⟨response, -, rfl⟩ := Option.map_eq_some_iff.mp hs
    exact ⟨Or.inl (Page.commanded_kept entries t.page response.body).1, Or.inl rfl⟩
  · obtain ⟨response, -, rfl⟩ := Option.map_eq_some_iff.mp hs
    exact ⟨Or.inl rfl, Or.inl rfl⟩
  all_goals first | exact hsmooth.elim | exact absurd hs (by simp)

/-- **Every action that goes well keeps the invariant.** -/
theorem Walked.step (h : t.Walked rq) (hc : t.Current entries rq) {a : TabAction}
    (hsmooth : t.Smooth rq a) (hs : t.step entries ttl rq a = some t') : t'.Walked rq := by
  cases a with
  | load txHash rpcUrl =>
    rw [Tab.step] at hs
    split at hs
    · obtain rfl := Option.some.inj hs
      exact h
    · split at hs <;> obtain rfl := Option.some.inj hs
      · exact h
      · exact h.move hc rfl (Or.inl rfl) (Or.inl rfl) fun task htask _ _ =>
          Or.inl (List.mem_append_left _ htask)
  | press route byKey r =>
    rw [Tab.step] at hs
    split at hs
    · rw [Tab.press] at hs
      split at hs
      · split at hs <;> obtain rfl := Option.some.inj hs
        · exact h.move hc rfl (Or.inl rfl) (Or.inl rfl) fun task htask _ _ => Or.inl htask
        · exact h
      · split at hs
        · obtain ⟨t₁, hsend, rfl⟩ := Option.map_eq_some_iff.mp hs
          obtain ⟨hnew, -, rfl⟩ := fresh_of_send hsend
          refine h.move hc rfl (Or.inl ?_) (Or.inr ⟨r, hnew, rfl, .commanding r, by simp, rfl⟩)
            fun task htask _ _ => Or.inl (List.mem_append_left _ htask)
          split <;> rfl
        · obtain rfl := Option.some.inj hs
          exact h
    · exact absurd hs (by simp)
  | abort r =>
    rw [Tab.step] at hs
    split at hs
    · obtain rfl := Option.some.inj hs
      exact h
    · split at hs
      · obtain ⟨t₁, hsend, rfl⟩ := Option.map_eq_some_iff.mp hs
        obtain ⟨hnew, -, rfl⟩ := fresh_of_send hsend
        exact h.move hc rfl (Or.inl rfl) (Or.inr ⟨r, hnew, rfl, .aborting r, by simp, rfl⟩)
          fun task htask _ _ => Or.inl (List.mem_append_left _ htask)
      · obtain rfl := Option.some.inj hs
        exact h
  | settle n arrival =>
    obtain ⟨task, hn, hs⟩ := Option.bind_eq_some_iff.mp hs
    obtain ⟨hcurrent, hsent⟩ := settle_moves hn hsmooth hs
    refine h.move hc (server_settle hs) hcurrent hsent fun task' htask' r hr => Or.inr ?_
    -- there is no other task
    obtain ⟨hnone, -⟩ | ⟨only, honly, -⟩ := hc.inOrder
    · exact absurd (hnone ▸ htask') List.not_mem_nil
    · obtain rfl := List.mem_singleton.mp (honly ▸ htask')
      obtain rfl := List.mem_singleton.mp (honly ▸ List.mem_of_getElem? hn)
      exact heard_of_settle hn hsmooth hs hr
  | server a =>
    obtain ⟨server, hserver, rfl⟩ := Option.map_eq_some_iff.mp hs
    exact h.serve hc (Server.did hserver)

/-- **In the log of the session are the commands that have been given**, when all have been
answered. -/
theorem commands_eq_pressed (hc : t.Current entries rq) (hw : t.Walked rq) (hidle : t.tasks = [])
    {place : ℕ} {e : Entry} (he : t.server.heap[place]? = some e)
    (halone : t.server.Alone t.sent e.id) : e.commands = t.pressed rq e.id := by
  obtain ⟨-, hqueue⟩ := hc.inOrder.idle (Or.inl hidle)
  have hserial := hc.coherent.server.serial
  -- what one request has done
  have hone : ∀ r ∈ t.sent,
      ((t.server.stage r).doneOn (rq r).route place).filterMap Action.command =
      if (rq r).id = e.id then (rq r).route.action.command.toList else [] := by
    intro r hr
    obtain ⟨found, response, hstage, hbody⟩ := hw.heard r hr (by simp [hidle])
    cases found with
    | none =>
      have hnotFound := congrArg Response.body (hc.coherent.server.toldSo r response hstage)
      exact absurd hnotFound (hbody "session not found")
    | some found =>
      obtain ⟨q, time⟩ := found
      have hne : response ≠ .internalError := fun heq =>
        hbody "internal error" (congrArg Response.body heq)
      obtain ⟨x, hx, hxid⟩ := (hserial.agrees r).found q _ (by rw [hstage]; rfl)
      by_cases hplace : q = place
      · subst hplace
        obtain rfl := Option.some.inj (hx.symm.trans he)
        rw [hstage, Server.doneOn_answered hne, if_pos hxid.symm]
        cases (rq r).route <;> rfl
      · have hother : (rq r).id ≠ e.id := fun hid =>
          hplace (hc.coherent.server.named q place x e hx he (hxid.trans hid))
        rw [hstage, Stage.doneOn, Stage.history, if_neg hne, if_neg hother]
        exact congrArg _ (if_neg hplace)
  calc e.commands
      = (e.object.log.filter fun entry => entry.1 ∈ t.sent.reverse.map some).filterMap
          fun entry => entry.1.bind fun _ => entry.2.command := by
        rw [Entry.commands, List.filterMap_filter]
        refine List.filterMap_congr fun entry hentry => ?_
        cases hwho : entry.1 with
        | none => simp
        | some r =>
          have hsent := halone place e he rfl entry hentry r hwho
          simp [hsent]
    _ = t.sent.reverse.flatMap fun r =>
          ((t.server.stage r).doneOn (rq r).route place).filterMap Action.command := by
        rw [hqueue.own_log he, List.filterMap_flatMap]
        exact List.flatMap_congr fun r _ => List.filterMap_map
    _ = t.sent.reverse.flatMap fun r =>
          if (rq r).id = e.id then (rq r).route.action.command.toList else [] :=
        List.flatMap_congr fun r hr => hone r (List.mem_reverse.mp hr)
    _ = t.pressed rq e.id := by
        rw [pressed]
        induction t.sent.reverse with
        | nil => rfl
        | cons r rest ih =>
          rw [List.flatMap_cons, ih, List.filter_cons]
          by_cases hid : (rq r).id = e.id
          · cases hc : (rq r).route.action.command <;> simp [hid, hc]
          · simp [hid]

end Tab

/-- **What is pressed is what is shown.** In every run in which all goes well, whenever the page
waits for nothing and nobody else has done anything to its session, the page shows what comes of the
data that the session has begun with – a trace, at its beginning – when it is given the commands of
the user, one after the other: the state that it is in then, with the rows of the trace. -/
theorem page_walks_trace
    {entries : StorageChanges → List (String × List (String × String))} {ttl : ℕ}
    {rq : ℕ → Request} {actions : List TabAction} {t : Tab}
    (hsmooth : Runs.Along (Tab.step entries ttl rq) (Tab.Smooth rq) .init actions)
    (h : Runs.run (Tab.step entries ttl rq) .init actions = some t) (hidle : t.tasks = [])
    {place : ℕ} {e : Entry} (he : t.server.heap[place]? = some e)
    (hcurrent : t.page.currentSessionId = some e.id)
    (halone : ∀ entry ∈ e.object.log, ∀ r, entry.1 = some r → r ∈ t.sent) :
    ∃ data, e.Began data ∧ t.page.Displays entries (data.walk (t.pressed rq e.id)).getTraceSteps
      (data.walk (t.pressed rq e.id)).currentStateLocked := by
  obtain ⟨hc, hw⟩ := Runs.run_invariant_along
    (motive := fun t : Tab => t.Current entries rq ∧ t.Walked rq)
    (fun _ _ _ h hsmooth hstep => ⟨h.1.step hsmooth hstep, h.2.step h.1 hsmooth hstep⟩)
    ⟨Tab.current_init, Tab.walked_init⟩ hsmooth h
  have halone' := hc.coherent.server.named.alone he halone
  obtain ⟨hne, hdisplays⟩ := hc.displays hidle he hcurrent halone'
  obtain ⟨data, hbegan, hdata⟩ := (hw.walks e.id hcurrent halone' place e he rfl).loaded hne
  rw [Tab.commands_eq_pressed hc hw hidle he halone'] at hdata
  exact ⟨data, hbegan, hdata ▸ hdisplays⟩

/-- The session has begun with the trace of two steps, and after one press of the button the page
shows the second. -/
theorem walks_openAndStep :
    ∃ t snap, Runs.run (Tab.step (fun _ => []) 1800 pageRequests) .init openAndStep = some t ∧
      ((SessionData.ready twoStepsTrace 0 (some sampleStop.info)).walk
        [.stepInto]).currentStateLocked = .paused snap ∧
      t.page.Shows (fun _ => []) snap := by
  obtain ⟨t, e, ht, hidle, he, hcurrent, halone⟩ := exists_openAndStep
  obtain ⟨t', e', ht', he', hpressed, hdata, henabled⟩ : ∃ t e, Runs.run
      (Tab.step (fun _ => []) 1800 pageRequests) .init openAndStep = some t ∧
      t.server.heap[0]? = some e ∧ t.pressed pageRequests e.id = [.stepInto] ∧
      e.world.session.data = .ready twoStepsTrace 1 (some sampleStop.info) ∧
      t.page.buttonsEnabled = true := ⟨_, _, rfl, rfl, rfl, rfl, rfl⟩
  obtain rfl := Option.some.inj (ht.symm.trans ht')
  obtain rfl := Option.some.inj (he.symm.trans he')
  obtain ⟨data, hbegan, hshown⟩ :=
    page_walks_trace smooth_openAndStep ht hidle he hcurrent halone
  rw [hpressed] at hshown
  obtain ⟨n, w, hn, hw⟩ := hbegan.had
  cases data with
  | loading => exact absurd rfl hbegan.ne_loading
  | aborted | error _ => exact absurd (henabled.symm.trans hshown.2) (by simp)
  | ready snapshots i result =>
    -- there is one trace of the session
    obtain ⟨rfl, rfl⟩ := Entry.HasTrace.unique ⟨n, w, i, hn, hw⟩ ⟨_, _, 1, e.after_length, hdata⟩
    obtain rfl := hbegan.atStart _ _ _ rfl
    exact ⟨t, _, ht, rfl, hshown.1⟩

end EvmDebugger
