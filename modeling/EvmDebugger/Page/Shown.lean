import EvmDebugger.Page.Tab

/-!
# What the page shows

The page has nine elements that show something, and it puts something into them whenever a response
arrives. What is shown next to each other may have been sent at different times, and by different
sessions: a command may be answered long after it has been given, and another session may have been
loaded in the meantime. So it is not clear that what is next to each other belongs together.

* What the status bar and the opcodes show is true, or was: a snapshot that is shown is one at which
  a session has been paused, and never one that it has not come to
  (`EvmDebugger.Page.Coherent.bar`); and the rows that are shown are those of the trace of the
  current session (`EvmDebugger.shown_was_true`). What the page says in words is another matter: it
  says that a session has been aborted even if the request to do so has been lost.
* And the row that is marked, if one is, belongs to the snapshot that all the other panels show, and
  to the current session, if no command is under way when a session is opened: see
  `EvmDebugger.shown_together`. Otherwise the rows may be those of one session, and the snapshot
  that of another, which is what `EvmDebugger.Tab.mixed_lateAnswer` shows.

As long as no row is marked, the other panels may still show what they have shown of the session
before. All this is one invariant of the tab, `EvmDebugger.Tab.Coherent`, and the condition is a
part of it, so that both cases are proved at once.
-/

namespace EvmDebugger

namespace Page

variable {entries : StorageChanges → List (String × List (String × String))} {c : Prop}
  {s : Server} {p : Page}

/-- Without steps, there is nothing to be marked. -/
theorem renderOpcodeList_nil (currentStep : Option ℕ) :
    renderOpcodeList [] currentStep = renderOpcodeList [] none := by
  rw [renderOpcodeList, renderOpcodeList, if_pos List.length_nil, if_pos List.length_nil]

/-- There are no opcodes. -/
def Blank (p : Page) : Prop := p.opcodePanel = renderOpcodeList [] none

/-- **The page shows a snapshot**, in all its panels but that of the opcodes. -/
def Shows (entries : StorageChanges → List (String × List (String × String))) (p : Page)
    (snap : StepSnapshot) : Prop :=
  p.statusBar = updateStatusBar snap ∧ p.stackPanel = renderStack snap.stack ∧
    p.memoryPanel = renderMemory snap.memoryHex snap.memoryTruncated snap.memorySize ∧
    p.callStackPanel = renderCallStack snap.callStack ∧
    p.storagePanel = renderStorage (entries snap.storageChanges) ∧
    p.logsPanel = renderLogs snap.logs

/-- **What the page keeps and shows belongs together**: the list is that of the current session, if
there is one, and so are the opcodes; the snapshot whose row is marked is one of a session, which is
the current one if `c` holds; and what is in the status bar is a snapshot of a session. -/
structure Coherent (entries : StorageChanges → List (String × List (String × String))) (c : Prop)
    (s : Server) (p : Page) : Prop where
  steps : ∀ steps, p.allTraceSteps = some steps → steps = [] ∨ ∃ id snapshots,
    p.currentSessionId = some id ∧ s.HasTrace id snapshots ∧
      steps = snapshots.map StepSnapshot.row
  noList : p.allTraceSteps = none → p.Blank
  opcodes : p.opcodePanel = init.opcodePanel ∨ p.Blank ∨ ∃ id snapshots,
    p.currentSessionId = some id ∧ s.HasTrace id snapshots ∧
      (p.opcodePanel = renderOpcodeList (snapshots.map StepSnapshot.row) none ∨
        ∃ id' snap, s.Visited id' snap ∧ (c → id' = id) ∧ p.Shows entries snap ∧
          p.opcodePanel =
            renderOpcodeList (snapshots.map StepSnapshot.row) (some snap.stepNumber))
  bar : p.statusBar = init.statusBar ∨
    ∃ id snap, s.Visited id snap ∧ p.statusBar = updateStatusBar snap

theorem coherent_init (s : Server) : init.Coherent entries c s where
  steps _ h := Or.inl (Option.some.inj h).symm
  noList h := absurd h (by simp [init])
  opcodes := Or.inl rfl
  bar := Or.inl rfl

/-- **What belongs together stays together**, whatever the sessions do. -/
theorem Coherent.did {ttl : ℕ} {rq : ℕ → Request} {a : ServerAction} {s' : Server}
    (h : p.Coherent entries c s) (hdid : Server.Did ttl rq s a s') : p.Coherent entries c s' where
  steps steps hsteps := (h.steps steps hsteps).imp_right
    fun ⟨id, snapshots, hid, ht, hrows⟩ => ⟨id, snapshots, hid, ht.did hdid, hrows⟩
  noList := h.noList
  opcodes := h.opcodes.imp_right fun h => h.imp_right fun ⟨id, snapshots, hid, ht, hpanel⟩ =>
    ⟨id, snapshots, hid, ht.did hdid, hpanel.imp_right fun ⟨id', snap, hv, hrest⟩ =>
      ⟨id', snap, hv.did hdid, hrest⟩⟩
  bar := h.bar.imp_right fun ⟨id, snap, hv, hbar⟩ => ⟨id, snap, hv.did hdid, hbar⟩

/-! ### What is done to the page -/

/-- The status and the buttons do not matter. -/
theorem Coherent.setStatus (h : p.Coherent entries c s) (msg : String) :
    (p.setStatus msg).Coherent entries c s :=
  ⟨h.steps, h.noList, h.opcodes, h.bar⟩

theorem Coherent.setButtonsEnabled (h : p.Coherent entries c s) (enabled : Bool) :
    (p.setButtonsEnabled enabled).Coherent entries c s :=
  ⟨h.steps, h.noList, h.opcodes, h.bar⟩

/-- Nor does the end of a load. -/
theorem Coherent.endLoad (h : p.Coherent entries c s) : p.endLoad.Coherent entries c s :=
  ⟨h.steps, h.noList, h.opcodes, h.bar⟩

/-- A load begins with a page that has no list, and shows none. -/
theorem Coherent.startLoad (h : p.Coherent entries c s) : p.startLoad.Coherent entries c s where
  steps _ hsteps := Or.inl (Option.some.inj hsteps).symm
  noList hnone := absurd hnone (by simp [Page.startLoad])
  opcodes := Or.inr (Or.inl rfl)
  bar := h.bar

/-- Without a list, the session does not matter. -/
theorem Coherent.forget (h : p.Coherent entries c s) (hsteps : p.allTraceSteps = some [])
    (hblank : p.Blank) : ({ p with currentSessionId := none } : Page).Coherent entries c s where
  steps _ hs := Or.inl (Option.some.inj (hsteps.symm.trans hs)).symm
  noList := h.noList
  opcodes := Or.inr (Or.inl hblank)
  bar := h.bar

/-- **A session is opened**, with its own list if there is one. -/
theorem Coherent.opened (h : p.Coherent entries c s) (hblank : p.Blank) {id : String}
    {steps : List TraceStep}
    (hsteps : steps = [] ∨ ∃ snapshots, s.HasTrace id snapshots ∧
      steps = snapshots.map StepSnapshot.row) : (p.opened id steps).Coherent entries c s where
  steps steps' hs := by
    obtain rfl := Option.some.inj hs
    exact hsteps.imp_right fun ⟨snapshots, ht, hrows⟩ => ⟨id, snapshots, rfl, ht, hrows⟩
  noList hnone := absurd hnone (by simp [Page.opened])
  opcodes := Or.inr (Or.inl hblank)
  bar := h.bar

/-- **A list has arrived**, or something else, while there were no opcodes. -/
theorem Coherent.listed (h : p.Coherent entries c s) (hblank : p.Blank)
    {allTraceSteps : Option (List TraceStep)}
    (hsteps : ∀ steps, allTraceSteps = some steps → steps = [] ∨ ∃ id snapshots,
      p.currentSessionId = some id ∧ s.HasTrace id snapshots ∧
        steps = snapshots.map StepSnapshot.row) :
    ({ p with allTraceSteps := allTraceSteps } : Page).Coherent entries c s where
  steps := hsteps
  noList _ := hblank
  opcodes := h.opcodes
  bar := h.bar

/-- A state that may be shown: if it is a snapshot, a session has been paused there, and it is the
current session if `c` holds. -/
def MayShow (c : Prop) (s : Server) (p : Page) (state : SessionState) : Prop :=
  ∀ snap, state = .paused snap → ∃ id', s.Visited id' snap ∧
    (c → ∀ id, p.currentSessionId = some id → id' = id)

/-- What a snapshot does to a page without a list, before there is an exception. -/
theorem processState_noList (hlist : p.allTraceSteps = none) (snap : StepSnapshot) :
    p.processState entries (.paused snap) =
      ({ p with buttonsEnabled := true, statusBar := updateStatusBar snap }, some notAList) := by
  cases p
  cases hlist
  rfl

/-- What it does to one that has a list. -/
theorem processState_paused {steps : List TraceStep} (hlist : p.allTraceSteps = some steps)
    (snap : StepSnapshot) :
    p.processState entries (.paused snap) =
      ({ p with
          buttonsEnabled := true
          statusBar := updateStatusBar snap
          opcodePanel := renderOpcodeList steps (some snap.stepNumber)
          stackPanel := renderStack snap.stack
          memoryPanel := renderMemory snap.memoryHex snap.memoryTruncated snap.memorySize
          callStackPanel := renderCallStack snap.callStack
          storagePanel := renderStorage (entries snap.storageChanges)
          logsPanel := renderLogs snap.logs
          statusMsg := "" }, none) := by
  cases p
  cases hlist
  rfl

/-- What a result does to a page that has a list: it is shown without a mark. -/
theorem processState_finished {steps : List TraceStep} (hlist : p.allTraceSteps = some steps)
    (result : ExecutionResultInfo) :
    p.processState entries (.finished result) =
      ({ p with
          buttonsEnabled := false
          statusMsg := resultMsg result
          opcodePanel := renderOpcodeList steps none }, none) := by
  cases p
  cases hlist
  rfl

/-- And to one that has none. -/
theorem processState_finished_noList (hlist : p.allTraceSteps = none)
    (result : ExecutionResultInfo) :
    p.processState entries (.finished result) =
      ({ p with buttonsEnabled := false, statusMsg := resultMsg result }, some notAList) := by
  cases p
  cases hlist
  rfl

/-- **Showing a state keeps together what belongs together.** -/
theorem Coherent.processState (h : p.Coherent entries c s) {state : SessionState}
    (hmay : MayShow c s p state) : (p.processState entries state).1.Coherent entries c s := by
  cases state with
  | paused snap =>
    obtain ⟨id', hv, hid'⟩ := hmay snap rfl
    cases hlist : p.allTraceSteps with
    | none =>
      -- an exception: the status bar is all that has been changed
      rw [processState_noList hlist]
      exact ⟨h.steps, h.noList, Or.inr (Or.inl (h.noList hlist)), Or.inr ⟨id', snap, hv, rfl⟩⟩
    | some steps =>
      rw [processState_paused hlist]
      refine ⟨h.steps, fun hnone => absurd (hlist.symm.trans hnone) (by simp), Or.inr ?_,
        Or.inr ⟨id', snap, hv, rfl⟩⟩
      rcases h.steps steps hlist with rfl | ⟨id, snapshots, hid, ht, rfl⟩
      · exact Or.inl (renderOpcodeList_nil (some snap.stepNumber))
      · exact Or.inr ⟨id, snapshots, hid, ht, Or.inr ⟨id', snap, hv, fun hc => hid' hc id hid,
          ⟨rfl, rfl, rfl, rfl, rfl, rfl⟩, rfl⟩⟩
  | finished result =>
    cases hlist : p.allTraceSteps with
    | none =>
      rw [processState_finished_noList hlist]
      exact ⟨h.steps, h.noList, h.opcodes, h.bar⟩
    | some steps =>
      rw [processState_finished hlist]
      refine ⟨h.steps, fun hnone => absurd (hlist.symm.trans hnone) (by simp), Or.inr ?_, h.bar⟩
      rcases h.steps steps hlist with rfl | ⟨id, snapshots, hid, ht, rfl⟩
      · exact Or.inl rfl
      · exact Or.inr ⟨id, snapshots, hid, ht, Or.inl rfl⟩
  | loading => exact ⟨h.steps, fun _ => rfl, Or.inr (Or.inl rfl), h.bar⟩
  | error message => exact (h.setButtonsEnabled false).setStatus _
  | aborted => exact (h.setButtonsEnabled false).setStatus _

/-- What showing a state does not change. -/
theorem processState_kept (entries : StorageChanges → List (String × List (String × String)))
    (p : Page) (state : SessionState) :
    (p.processState entries state).1.currentSessionId = p.currentSessionId ∧
      (p.processState entries state).1.loadInFlight = p.loadInFlight ∧
      (p.processState entries state).1.allTraceSteps = p.allTraceSteps := by
  cases state with
  | paused snap =>
    cases hlist : p.allTraceSteps with
    | none =>
      rw [processState_noList hlist]
      exact ⟨rfl, rfl, hlist⟩
    | some steps =>
      rw [processState_paused hlist]
      exact ⟨rfl, rfl, hlist⟩
  | finished result =>
    cases hlist : p.allTraceSteps with
    | none =>
      rw [processState_finished_noList hlist]
      exact ⟨rfl, rfl, hlist⟩
    | some steps =>
      rw [processState_finished hlist]
      exact ⟨rfl, rfl, hlist⟩
  | loading | error _ | aborted => exact ⟨rfl, rfl, rfl⟩

/-- As long as the list is empty, there are no opcodes. -/
theorem Blank.processState (h : p.Blank) (hsteps : p.allTraceSteps = some [])
    (entries : StorageChanges → List (String × List (String × String))) (state : SessionState) :
    (p.processState entries state).1.Blank := by
  cases state with
  | paused snap =>
    rw [processState_paused hsteps]
    exact renderOpcodeList_nil (some snap.stepNumber)
  | finished result =>
    rw [processState_finished hsteps]
    rfl
  | loading => rfl
  | error _ | aborted => exact h

/-- Catching an exception keeps it so. -/
theorem Coherent.processed (h : p.Coherent entries c s) {state : SessionState}
    (hmay : MayShow c s p state) : (p.processed entries state).Coherent entries c s := by
  have hprocess := h.processState hmay
  rw [Page.processed]
  split
  · next p' heq =>
    rw [heq] at hprocess
    exact hprocess
  · next p' message heq =>
    rw [heq] at hprocess
    exact hprocess.setStatus _

/-- What showing a state and catching an exception do not change. -/
theorem processed_kept (entries : StorageChanges → List (String × List (String × String)))
    (p : Page) (state : SessionState) :
    (p.processed entries state).currentSessionId = p.currentSessionId := by
  have hkept := (processState_kept entries p state).1
  rw [processed]
  split
  · next p' heq =>
    rw [heq] at hkept
    exact hkept
  · next p' message heq =>
    rw [heq] at hkept
    exact hkept

/-- **The answer to a command keeps together what belongs together.** -/
theorem Coherent.commanded (h : p.Coherent entries c s) {body : Body}
    (hmay : ∀ state, body = .reply (.state state) → MayShow c s p state) :
    (p.commanded entries body).Coherent entries c s := by
  cases body with
  | reply reply =>
    cases reply with
    | state state =>
      have hprocess := h.processState (hmay state rfl)
      simp only [Page.commanded]
      split
      · next p' heq =>
        rw [heq] at hprocess
        exact hprocess
      · next p' message heq =>
        rw [heq] at hprocess
        exact (hprocess.setStatus _).setButtonsEnabled true
    | trace | contents | done => exact h
  | error message =>
    simp only [Page.commanded]
    split
    · exact h
    · exact (h.setStatus _).setButtonsEnabled true
  | status => exact h

/-- What it does not change; and as long as the list is empty, there are no opcodes. -/
theorem commanded_kept (entries : StorageChanges → List (String × List (String × String)))
    (p : Page) (body : Body) :
    (p.commanded entries body).currentSessionId = p.currentSessionId ∧
      (p.commanded entries body).loadInFlight = p.loadInFlight ∧
      (p.commanded entries body).allTraceSteps = p.allTraceSteps ∧
      (p.Blank → p.allTraceSteps = some [] → (p.commanded entries body).Blank) := by
  cases body with
  | reply reply =>
    cases reply with
    | state state =>
      obtain ⟨hcurrent, hload, hsteps⟩ := processState_kept entries p state
      have hblank := fun h : p.Blank => fun hlist => h.processState hlist entries state
      simp only [commanded]
      split
      · next p' heq =>
        rw [heq] at hcurrent hload hsteps hblank
        exact ⟨hcurrent, hload, hsteps, hblank⟩
      · next p' message heq =>
        rw [heq] at hcurrent hload hsteps hblank
        exact ⟨hcurrent, hload, hsteps, hblank⟩
    | trace | contents | done => exact ⟨rfl, rfl, rfl, fun h _ => h⟩
  | error message =>
    simp only [commanded]
    split <;> exact ⟨rfl, rfl, rfl, fun h _ => h⟩
  | status => exact ⟨rfl, rfl, rfl, fun h _ => h⟩

end Page

/-! ### The tab -/

/-- **What waits belongs to the current session**, or else has nothing to show: a load waits for the
session it has opened, and so do commands, if `c` holds. -/
def PageTask.Fits (c : Prop) (rq : ℕ → Request) (s : Server) (current : Option String) :
    PageTask → Prop
  | creating | aborting _ => True
  | sleeping id => current = some id
  | polling id r => current = some id ∧ rq r = ⟨.getSession, id⟩
  | tracing id state r => current = some id ∧ rq r = ⟨.getTraceSteps, id⟩ ∧
      ∃ snap, state = .paused snap ∧ s.Visited id snap
  | commanding r => c → ∀ id, current = some id → (rq r).id = id

namespace Tab

/-- **The invariant of the tab**: what the page shows belongs together, and what waits belongs to
it; there is one load at most, and as long as there is one there is no list. -/
structure Coherent (entries : StorageChanges → List (String × List (String × String))) (c : Prop)
    (rq : ℕ → Request) (t : Tab) : Prop where
  server : t.server.Answering rq
  page : t.page.Coherent entries c t.server
  tasks : ∀ task ∈ t.tasks, task.Fits c rq t.server t.page.currentSessionId
  load : t.tasks.countP PageTask.isLoad = t.page.loadInFlight.toNat
  loading : t.page.loadInFlight = true → t.page.allTraceSteps = some [] ∧ t.page.Blank

variable {entries : StorageChanges → List (String × List (String × String))} {c : Prop} {ttl : ℕ}
  {rq : ℕ → Request} {t t' : Tab} {n : ℕ} {task : PageTask} {page : Page}

theorem coherent_init : init.Coherent entries c rq where
  server := Server.answering_init
  page := Page.coherent_init _
  tasks _ h := absurd h List.not_mem_nil
  load := rfl
  loading h := absurd h (by simp [init, Page.init])

/-- A request is sent for what it asks. -/
theorem send_eq_some {r : ℕ} {request : Request} (h : t.send rq r request = some t') :
    rq r = request ∧ t' = { t with sent := r :: t.sent } := by
  rw [send] at h
  split at h
  · next hfree => exact ⟨hfree.1, (Option.some.inj h).symm⟩
  · exact absurd h (by simp)

/-- A response is the answer of the server. -/
theorem response_eq_some {r : ℕ} {response : Response} (h : t.response r = some response) :
    ∃ found, t.server.stage r = .answered found response := by
  rw [Tab.response] at h
  split at h
  · next found response' hstage =>
    obtain rfl := Option.some.inj h
    exact ⟨found, hstage⟩
  · exact absurd h (by simp)

/-- A task and the others. -/
theorem perm_eraseIdx (hn : t.tasks[n]? = some task) :
    (task :: t.tasks.eraseIdx n).Perm t.tasks := by
  obtain ⟨hlt, rfl⟩ := List.getElem?_eq_some_iff.mp hn
  exact List.getElem_cons_eraseIdx_perm hlt

/-- Another task, and the others. -/
theorem perm_set (hn : t.tasks[n]? = some task) (next : PageTask) :
    (next :: t.tasks.eraseIdx n).Perm (t.tasks.set n next) := by
  have hlt : n < (t.tasks.set n next).length := by
    rw [List.length_set]
    exact (List.getElem?_eq_some_iff.mp hn).1
  have hset := List.getElem_cons_eraseIdx_perm hlt
  rwa [List.getElem_set_self, List.eraseIdx_set_eq] at hset

/-- The loads among the others. -/
theorem countP_eraseIdx (hn : t.tasks[n]? = some task) :
    (t.tasks.eraseIdx n).countP PageTask.isLoad + task.isLoad.toNat =
      t.tasks.countP PageTask.isLoad := by
  rw [← (perm_eraseIdx hn).countP_eq, List.countP_cons]
  cases task.isLoad <;> rfl

/-- **A load is the only one.** -/
theorem Coherent.only_load (h : t.Coherent entries c rq) (hn : t.tasks[n]? = some task)
    (hload : task.isLoad = true) :
    t.page.loadInFlight = true ∧ ∀ other ∈ t.tasks.eraseIdx n, other.isLoad = false := by
  have hcount := countP_eraseIdx hn
  rw [h.load, hload] at hcount
  cases hflight : t.page.loadInFlight with
  | false =>
    rw [hflight] at hcount
    exact absurd hcount (by simp)
  | true =>
    rw [hflight] at hcount
    refine ⟨rfl, fun other hother => ?_⟩
    have hzero : (t.tasks.eraseIdx n).countP PageTask.isLoad = 0 := by simpa using hcount
    simpa using List.countP_eq_zero.mp hzero other hother

/-- **A task is over.** -/
theorem Coherent.finish (h : t.Coherent entries c rq) (hn : t.tasks[n]? = some task)
    (hpage : page.Coherent entries c t.server)
    (htasks : ∀ other ∈ t.tasks.eraseIdx n, other.Fits c rq t.server page.currentSessionId)
    (hload : page.loadInFlight = (t.page.loadInFlight && !task.isLoad))
    (hloading : page.loadInFlight = true → page.allTraceSteps = some [] ∧ page.Blank) :
    (t.finish n page).Coherent entries c rq where
  server := h.server
  page := hpage
  tasks := htasks
  load := by
    have hcount := countP_eraseIdx hn
    rw [h.load] at hcount
    show (t.tasks.eraseIdx n).countP PageTask.isLoad = page.loadInFlight.toNat
    rw [hload]
    cases hflight : t.page.loadInFlight <;> cases hisLoad : task.isLoad <;>
      rw [hflight, hisLoad] at hcount <;> simp at hcount ⊢ <;> omega
  loading := hloading

/-- **A load is over.** -/
theorem Coherent.finishLoad (h : t.Coherent entries c rq) (hn : t.tasks[n]? = some task)
    (hisLoad : task.isLoad = true) (hpage : page.Coherent entries c t.server)
    (htasks : ∀ other ∈ t.tasks.eraseIdx n, other.Fits c rq t.server page.currentSessionId) :
    (t.finish n page.endLoad).Coherent entries c rq :=
  h.finish hn hpage.endLoad htasks (by rw [hisLoad, Bool.not_true, Bool.and_false]; rfl)
    fun hflight => absurd hflight (by simp [Page.endLoad])

/-- **A load waits for something else.** -/
theorem Coherent.goOn (h : t.Coherent entries c rq) (hn : t.tasks[n]? = some task)
    (hisLoad : task.isLoad = true) {next : PageTask} (hnext : next.isLoad = true)
    (hpage : page.Coherent entries c t.server)
    (htasks : ∀ other ∈ t.tasks.eraseIdx n, other.Fits c rq t.server page.currentSessionId)
    (hfits : next.Fits c rq t.server page.currentSessionId)
    (hload : page.loadInFlight = t.page.loadInFlight)
    (hloading : page.allTraceSteps = some [] ∧ page.Blank) :
    (t.goOn n page next).Coherent entries c rq := by
  have hperm := perm_set hn next
  refine ⟨h.server, hpage, fun other hother => ?_, ?_, fun _ => hloading⟩
  · rcases List.mem_cons.mp (hperm.mem_iff.mpr hother) with rfl | hother
    · exact hfits
    · exact htasks other hother
  · have hcount := countP_eraseIdx hn
    rw [h.load, hisLoad, ← hload] at hcount
    show (t.tasks.set n next).countP PageTask.isLoad = page.loadInFlight.toNat
    rw [← hperm.countP_eq, List.countP_cons, hnext]
    exact hcount

/-- **Somebody else waits.** -/
theorem Coherent.add (h : t.Coherent entries c rq) (hisLoad : task.isLoad = false)
    (hpage : page.Coherent entries c t.server)
    (hcurrent : page.currentSessionId = t.page.currentSessionId)
    (hfits : task.Fits c rq t.server t.page.currentSessionId)
    (hload : page.loadInFlight = t.page.loadInFlight)
    (hloading : page.loadInFlight = true → page.allTraceSteps = some [] ∧ page.Blank)
    (sent : List ℕ) :
    Coherent entries c rq { t with page := page, tasks := t.tasks ++ [task], sent := sent } where
  server := h.server
  page := hpage
  tasks other hother := by
    show other.Fits c rq t.server page.currentSessionId
    rw [hcurrent]
    rcases List.mem_append.mp hother with hother | hother
    · exact h.tasks other hother
    · rw [List.mem_singleton.mp hother]
      exact hfits
  load := by
    show (t.tasks ++ [task]).countP PageTask.isLoad = page.loadInFlight.toNat
    rw [List.countP_append, List.countP_singleton, hisLoad, h.load, hload]
    rfl
  loading := hloading

/-- The others fit as before, as long as the session is the same. -/
theorem Coherent.others (h : t.Coherent entries c rq)
    (hcurrent : page.currentSessionId = t.page.currentSessionId) (n : ℕ) :
    ∀ other ∈ t.tasks.eraseIdx n, other.Fits c rq t.server page.currentSessionId := by
  intro other hother
  rw [hcurrent]
  exact h.tasks other (List.mem_of_mem_eraseIdx hother)

/-- A request that is sent changes nothing. -/
theorem Coherent.sent (h : t.Coherent entries c rq) (sent : List ℕ) :
    Coherent entries c rq { t with sent := sent } :=
  ⟨h.server, h.page, h.tasks, h.load, h.loading⟩

/-- **The server takes a step.** -/
theorem Coherent.serve (h : t.Coherent entries c rq) {a : ServerAction} {server : Server}
    (hs : t.server.step ttl rq a = some server) :
    Coherent entries c rq { t with server := server } where
  server := h.server.step hs
  page := h.page.did (Server.did hs)
  tasks task htask := by
    have hfits := h.tasks task htask
    cases task with
    | tracing id state r =>
      obtain ⟨hcurrent, hr, snap, hstate, hv⟩ := hfits
      exact ⟨hcurrent, hr, snap, hstate, hv.did (Server.did hs)⟩
    | creating | aborting _ => trivial
    | sleeping _ | polling _ _ | commanding _ => exact hfits
  load := h.load
  loading := h.loading

/-! ### What arrives -/

/-- A session that is loading has no list. -/
theorem getTraceSteps_of_loading {data : SessionData} (h : data.currentStateLocked = .loading) :
    data.getTraceSteps = [] := by
  cases data with
  | ready snapshots i result =>
    rw [SessionData.currentStateLocked, SessionData.stateAt.eq_def] at h
    split at h
    · exact absurd h (by simp)
    · cases result <;> exact absurd h (by simp)
  | loading | aborted | error _ => rfl

/-- **A session has been created**, and is opened: no command is waited for, if `c` is to hold. -/
theorem Coherent.created (h : t.Coherent entries c rq) (hn : t.tasks[n]? = some .creating)
    (horderly : c → ∀ r, .commanding r ∉ t.tasks) {place : ℕ} {e : Entry}
    (he : t.server.heap[place]? = some e) : (t.created entries n e).Coherent entries c rq := by
  obtain ⟨hflight, hothers⟩ := h.only_load hn rfl
  obtain ⟨-, hblank⟩ := h.loading hflight
  have hstart : e.after 0 = some e.start := rfl
  -- what the response says of the session is true
  have hsteps : e.start.session.data.getTraceSteps = [] ∨ ∃ snapshots,
      t.server.HasTrace e.id snapshots ∧
        e.start.session.data.getTraceSteps = snapshots.map StepSnapshot.row := by
    cases hdata : e.start.session.data with
    | ready snapshots i result =>
      exact Or.inr ⟨snapshots, ⟨place, e, result, he, rfl, 0, e.start, i, hstart, hdata⟩, rfl⟩
    | loading | aborted | error _ => exact Or.inl rfl
  have hmay : Page.MayShow c t.server (t.page.opened e.id e.start.session.data.getTraceSteps)
      e.start.session.data.currentStateLocked := fun snap hstate =>
    ⟨e.id, ⟨place, e, he, rfl, 0, e.start, hstart, SessionData.pausedAt_of_currentState hstate⟩,
      fun _ id hid => Option.some.inj hid⟩
  have hprocess := (h.page.opened hblank hsteps).processState hmay
  obtain ⟨hcurrent, hload, hlist⟩ := Page.processState_kept entries
    (t.page.opened e.id e.start.session.data.getTraceSteps) e.start.session.data.currentStateLocked
  have htasks : ∀ other ∈ t.tasks.eraseIdx n, other.Fits c rq t.server (some e.id) := by
    intro other hother
    have hmem := List.mem_of_mem_eraseIdx hother
    have hnot := hothers other hother
    cases other with
    | creating | aborting _ => trivial
    | commanding r => exact fun hc => absurd hmem (horderly hc r)
    | sleeping _ | polling _ _ | tracing _ _ _ => exact absurd hnot (by simp [PageTask.isLoad])
  rw [Tab.created]
  split
  · next page message heq =>
    rw [heq] at hprocess hcurrent
    refine h.finishLoad hn rfl (hprocess.setStatus _) ?_
    show ∀ other ∈ t.tasks.eraseIdx n, other.Fits c rq t.server page.currentSessionId
    rw [hcurrent]
    exact htasks
  · next page heq =>
    rw [heq] at hprocess hcurrent hload hlist
    split
    · next hstate =>
      -- it is still loading, so that there is no list yet
      have hnil : e.start.session.data.getTraceSteps = [] :=
        getTraceSteps_of_loading hstate
      have hopened : (t.page.opened e.id e.start.session.data.getTraceSteps).allTraceSteps =
          some [] := congrArg some hnil
      have hblank' := Page.Blank.processState
        (p := t.page.opened e.id e.start.session.data.getTraceSteps) hblank hopened entries
        e.start.session.data.currentStateLocked
      rw [heq] at hblank'
      refine h.goOn hn rfl rfl (hprocess.setStatus _) ?_ hcurrent hload
        ⟨hlist.trans hopened, hblank'⟩
      show ∀ other ∈ t.tasks.eraseIdx n, other.Fits c rq t.server page.currentSessionId
      rw [hcurrent]
      exact htasks
    · refine h.finishLoad hn rfl hprocess ?_
      rw [hcurrent]
      exact htasks

/-- **The state has arrived.** -/
theorem Coherent.polled (h : t.Coherent entries c rq) {id : String} {r next : ℕ}
    (hn : t.tasks[n]? = some (.polling id r)) {response : Response}
    (hresponse : t.response r = some response)
    (hs : t.polled entries rq n id next response.body = some t') : t'.Coherent entries c rq := by
  obtain ⟨hcurrent, hr⟩ := h.tasks _ (List.mem_of_getElem? hn)
  obtain ⟨found, hstage⟩ := response_eq_some hresponse
  obtain ⟨hflight, -⟩ := h.only_load hn rfl
  rw [Tab.polled.eq_def] at hs
  split at hs
  · obtain rfl := Option.some.inj hs
    exact h.goOn hn rfl rfl h.page (h.others rfl n) hcurrent rfl (h.loading hflight)
  · next snap hbody =>
    obtain ⟨t₁, hsend, rfl⟩ := Option.map_eq_some_iff.mp hs
    obtain ⟨hnext, rfl⟩ := send_eq_some hsend
    have hv := h.server.visited hstage hbody
    rw [hr] at hv
    exact (h.sent (next :: t.sent)).goOn hn rfl rfl h.page (h.others rfl n)
      ⟨hcurrent, hnext, snap, rfl, hv⟩ rfl (h.loading hflight)
  · next state hloading hpaused hbody =>
    obtain rfl := Option.some.inj hs
    refine h.finishLoad hn rfl (h.page.processed fun snap hstate => ?_)
      (h.others (Page.processed_kept entries t.page state) n)
    exact absurd hstate (hpaused snap)
  all_goals
    obtain rfl := Option.some.inj hs
    exact h.finishLoad hn rfl h.page (h.others rfl n)

/-- **The list has arrived**, or something else. -/
theorem Coherent.traced (h : t.Coherent entries c rq) {id : String} {state : SessionState} {r : ℕ}
    (hn : t.tasks[n]? = some (.tracing id state r)) {response : Response}
    (hresponse : t.response r = some response) :
    (t.traced entries n state response.body).Coherent entries c rq := by
  obtain ⟨hcurrent, hr, snap, rfl, hv⟩ := h.tasks _ (List.mem_of_getElem? hn)
  obtain ⟨found, hstage⟩ := response_eq_some hresponse
  obtain ⟨hflight, -⟩ := h.only_load hn rfl
  obtain ⟨-, hblank⟩ := h.loading hflight
  have hlisted : ∀ steps, response.body.list = some steps → steps = [] ∨ ∃ id snapshots,
      t.page.currentSessionId = some id ∧ t.server.HasTrace id snapshots ∧
        steps = snapshots.map StepSnapshot.row := by
    intro steps hsteps
    rw [Body.list.eq_def] at hsteps
    split at hsteps
    · next steps' hbody =>
      obtain rfl := Option.some.inj hsteps
      have hlist := h.server.listed hstage (by rw [hr]) hbody
      rw [hr] at hlist
      exact hlist.imp_right fun ⟨snapshots, ht, hrows⟩ => ⟨id, snapshots, hcurrent, ht, hrows⟩
    · exact absurd hsteps (by simp)
  rw [Tab.traced]
  refine h.finishLoad hn rfl ((h.page.listed hblank hlisted).processed ?_)
    (h.others (Page.processed_kept entries { t.page with allTraceSteps := response.body.list } _) n)
  intro snap' hstate
  obtain rfl := SessionState.paused.inj hstate
  exact ⟨id, hv, fun _ id' hid' => Option.some.inj (hcurrent.symm.trans hid')⟩

/-- **A command has been answered.** -/
theorem Coherent.commanded (h : t.Coherent entries c rq) {r : ℕ}
    (hn : t.tasks[n]? = some (.commanding r)) {response : Response}
    (hresponse : t.response r = some response) :
    (t.finish n (t.page.commanded entries response.body)).Coherent entries c rq := by
  have hfits := h.tasks _ (List.mem_of_getElem? hn)
  obtain ⟨found, hstage⟩ := response_eq_some hresponse
  obtain ⟨hcurrent, hload, hlist, hblank⟩ := Page.commanded_kept entries t.page response.body
  refine h.finish hn (h.page.commanded fun state hbody snap hstate => ?_) (h.others hcurrent n)
    (hload.trans (Bool.and_true _).symm) fun hflight => ?_
  · subst hstate
    exact ⟨(rq r).id, h.server.visited hstage hbody, hfits⟩
  · obtain ⟨hsteps, hno⟩ := h.loading (hload ▸ hflight)
    exact ⟨hlist.trans hsteps, hblank hno hsteps⟩

/-- **Whatever arrives**, what belongs together stays together. -/
theorem Coherent.settle (h : t.Coherent entries c rq) (hn : t.tasks[n]? = some task)
    {arrival : Arrival} (horderly : c → ∀ place, arrival = .created place → ∀ r,
      .commanding r ∉ t.tasks) (hs : t.settle entries rq n task arrival = some t') :
    t'.Coherent entries c rq := by
  rw [Tab.settle.eq_def] at hs
  split at hs
  · next place =>
    obtain ⟨e, he, rfl⟩ := Option.map_eq_some_iff.mp hs
    exact h.created hn (fun hc => horderly hc place rfl) he
  · next message =>
    obtain rfl := Option.some.inj hs
    obtain ⟨hflight, hothers⟩ := h.only_load hn rfl
    obtain ⟨hsteps, hblank⟩ := h.loading hflight
    split
    · -- there is no session any more, and no load that might wait for it
      refine h.finishLoad hn rfl ((h.page.forget hsteps hblank).setStatus _) ?_
      intro other hother
      have hnot := hothers other hother
      cases other with
      | creating | aborting _ => trivial
      | commanding r => exact fun _ id hid => absurd hid (by simp [Page.caught, Page.setStatus])
      | sleeping _ | polling _ _ | tracing _ _ _ =>
        exact absurd hnot (by simp [PageTask.isLoad])
    · exact h.finishLoad hn rfl (h.page.setStatus _) (h.others rfl n)
  · next id next =>
    obtain ⟨t₁, hsend, rfl⟩ := Option.map_eq_some_iff.mp hs
    obtain ⟨hnext, rfl⟩ := send_eq_some hsend
    have hcurrent := h.tasks _ (List.mem_of_getElem? hn)
    exact (h.sent (next :: t.sent)).goOn hn rfl rfl h.page (h.others rfl n) ⟨hcurrent, hnext⟩ rfl
      (h.loading (h.only_load hn rfl).1)
  · obtain ⟨response, hresponse, hs⟩ := Option.bind_eq_some_iff.mp hs
    exact h.polled hn hresponse hs
  · obtain ⟨response, hresponse, rfl⟩ := Option.map_eq_some_iff.mp hs
    exact h.traced hn hresponse
  · obtain ⟨response, hresponse, rfl⟩ := Option.map_eq_some_iff.mp hs
    exact h.commanded hn hresponse
  · obtain ⟨response, -, rfl⟩ := Option.map_eq_some_iff.mp hs
    exact h.finish hn (h.page.setStatus _) (h.others rfl n) (Bool.and_true _).symm h.loading
  · obtain rfl := Option.some.inj hs
    exact h.finishLoad hn rfl (h.page.setStatus _) (h.others rfl n)
  · obtain rfl := Option.some.inj hs
    exact h.finishLoad hn rfl (h.page.setStatus _) (h.others rfl n)
  · obtain rfl := Option.some.inj hs
    exact h.finishLoad hn rfl (h.page.setStatus _) (h.others rfl n)
  · obtain rfl := Option.some.inj hs
    exact h.finish hn ((h.page.setStatus _).setButtonsEnabled true) (h.others rfl n)
      (Bool.and_true _).symm h.loading
  · obtain rfl := Option.some.inj hs
    exact h.finish hn (h.page.setStatus _) (h.others rfl n) (Bool.and_true _).symm h.loading
  · exact absurd hs (by simp)

/-- **A command is given**, for the current session. -/
theorem Coherent.press (h : t.Coherent entries c rq) {route : Route} {byKey : Bool} {r : ℕ}
    (hs : t.press rq route byKey r = some t') : t'.Coherent entries c rq := by
  rw [Tab.press] at hs
  split at hs
  · split at hs <;> obtain rfl := Option.some.inj hs
    · exact ⟨h.server, (h.page.setButtonsEnabled false).setStatus _, h.tasks, h.load, h.loading⟩
    · exact h
  · next id hid =>
    split at hs
    · obtain ⟨t₁, hsend, rfl⟩ := Option.map_eq_some_iff.mp hs
      obtain ⟨hr, rfl⟩ := send_eq_some hsend
      have hfits : (PageTask.commanding r).Fits c rq t.server t.page.currentSessionId := by
        intro _ id' hid'
        rw [hr]
        exact Option.some.inj (hid.symm.trans hid')
      split
      · exact h.add rfl ((h.page.setButtonsEnabled false).setStatus _) rfl hfits rfl h.loading _
      · exact h.add rfl (h.page.setButtonsEnabled false) rfl hfits rfl h.loading _
    · obtain rfl := Option.some.inj hs
      exact h

/-- **No command is under way when a session is opened.** -/
def Orderly (t : Tab) (a : TabAction) : Prop :=
  ∀ n place, a = .settle n (.created place) → ∀ r, .commanding r ∉ t.tasks

/-- **Every action keeps the invariant**, with `c` if it is orderly. -/
theorem Coherent.step (h : t.Coherent entries c rq) {a : TabAction} (horderly : c → t.Orderly a)
    (hs : t.step entries ttl rq a = some t') : t'.Coherent entries c rq := by
  cases a with
  | load txHash rpcUrl =>
    rw [Tab.step] at hs
    split at hs
    · obtain rfl := Option.some.inj hs
      exact h
    · split at hs <;> obtain rfl := Option.some.inj hs
      · exact h
      · next hflight =>
        refine ⟨h.server, h.page.startLoad, fun task htask => ?_, ?_, fun _ => ⟨rfl, rfl⟩⟩
        · rcases List.mem_append.mp htask with htask | htask
          · exact h.tasks task htask
          · rw [List.mem_singleton.mp htask]
            trivial
        · show (t.tasks ++ [PageTask.creating]).countP PageTask.isLoad = 1
          rw [List.countP_append, h.load, Bool.eq_false_iff.mpr hflight]
          rfl
  | press route byKey r =>
    rw [Tab.step] at hs
    split at hs
    · exact h.press hs
    · exact absurd hs (by simp)
  | abort r =>
    rw [Tab.step] at hs
    split at hs
    · obtain rfl := Option.some.inj hs
      exact h
    · split at hs
      · obtain ⟨t₁, hsend, rfl⟩ := Option.map_eq_some_iff.mp hs
        obtain ⟨-, rfl⟩ := send_eq_some hsend
        have hfits : (PageTask.aborting r).Fits c rq t.server t.page.currentSessionId := trivial
        exact h.add rfl ((h.page.setButtonsEnabled false).setStatus _) rfl hfits rfl h.loading _
      · obtain rfl := Option.some.inj hs
        exact h
  | settle n arrival =>
    obtain ⟨task, hn, hs⟩ := Option.bind_eq_some_iff.mp hs
    exact h.settle hn (fun hc place harrival => horderly hc n place (by rw [harrival])) hs
  | server a =>
    obtain ⟨server, hserver, rfl⟩ := Option.map_eq_some_iff.mp hs
    exact h.serve hserver

/-- **And every run does.** -/
theorem coherent_of_run {actions : List TabAction}
    (horderly : c → Runs.Along (Tab.step entries ttl rq) Orderly init actions)
    (h : Runs.run (Tab.step entries ttl rq) init actions = some t) : t.Coherent entries c rq :=
  Runs.run_invariant_along (P := fun t a => c → t.Orderly a)
    (fun _ _ _ hs horderly hstep => hs.step horderly hstep) coherent_init
    ((Runs.along_imp (P := Orderly)).mpr horderly) h

end Tab

/-! ### What is shown -/

section Runs

variable {entries : StorageChanges → List (String × List (String × String))} {ttl : ℕ}
  {rq : ℕ → Request} {actions : List TabAction} {t : Tab}

/-- **What the status bar and the opcodes show was true**, in every run: there is at most one load
at a time; in the status bar is a snapshot at which a session has been paused, if anything; and the
rows are those of the current session, if there are any, where a mark comes with a snapshot at which
a session has been paused, and which all panels show. -/
theorem shown_was_true (h : Runs.run (Tab.step entries ttl rq) .init actions = some t) :
    t.tasks.countP PageTask.isLoad ≤ 1 ∧
      (t.page.statusBar = Page.init.statusBar ∨
        ∃ id snap, t.server.Visited id snap ∧ t.page.statusBar = Page.updateStatusBar snap) ∧
      (t.page.opcodePanel = Page.init.opcodePanel ∨ t.page.Blank ∨ ∃ id snapshots,
        t.page.currentSessionId = some id ∧ t.server.HasTrace id snapshots ∧
          (t.page.opcodePanel =
              Page.renderOpcodeList (snapshots.map StepSnapshot.row) none ∨
            ∃ id' snap, t.server.Visited id' snap ∧ t.page.Shows entries snap ∧
              t.page.opcodePanel = Page.renderOpcodeList (snapshots.map StepSnapshot.row)
                (some snap.stepNumber))) := by
  have hcoherent := Tab.coherent_of_run (c := False) (fun hfalse => hfalse.elim) h
  refine ⟨?_, hcoherent.page.bar, hcoherent.page.opcodes.imp_right fun hshown => ?_⟩
  · rw [hcoherent.load]
    exact Bool.toNat_le _
  · refine hshown.imp_right fun ⟨id, snapshots, hid, ht, hpanel⟩ => ⟨id, snapshots, hid, ht, ?_⟩
    exact hpanel.imp_right fun ⟨id', snap, hv, _, hrest⟩ => ⟨id', snap, hv, hrest⟩

/-- All that the page asks for is that the session `a` advances a step. -/
def pageRequests (_ : ℕ) : Request := ⟨.stepInto, "a"⟩

/-- A session is opened that has a trace already, and advances a step. -/
def openAndStep : List TabAction :=
  [.server (.create "a" (.fromCache twoStepsTrace (some sampleStop.info)) 0),
    .load "0x1" "http://rpc", .settle 0 (.created 0), .press .stepInto false 0,
    .server (.lookup 0), .server (.readClock 0), .server (.storeTouch 0), .server (.release 0),
    .server (.perform 0), .settle 0 (.answered 1)]

theorem was_true_openAndStep :
    ∃ t, Runs.run (Tab.step (fun _ => []) 1800 pageRequests) .init openAndStep = some t ∧
      ∃ id snap, t.server.Visited id snap ∧ t.page.statusBar = Page.updateStatusBar snap := by
  obtain ⟨t, ht, hbar⟩ : ∃ t, Runs.run (Tab.step (fun _ => []) 1800 pageRequests) .init
      openAndStep = some t ∧ t.page.statusBar ≠ Page.init.statusBar := ⟨_, rfl, by decide⟩
  exact ⟨t, ht, (shown_was_true ht).2.1.resolve_left hbar⟩

/-- **What is marked belongs to what is shown.** The rows are those of the current session, if there
are any, and if one of them is marked, then it is that of a snapshot at which this session has been
paused, and which all panels show; in a trace that is numbered and not too long, it is the only one.
If none is marked, nothing is said of the other panels. -/
def Tab.Together (entries : StorageChanges → List (String × List (String × String))) (t : Tab) :
    Prop :=
  t.page.opcodePanel = Page.init.opcodePanel ∨ t.page.Blank ∨ ∃ id snapshots,
    t.page.currentSessionId = some id ∧ t.server.HasTrace id snapshots ∧
      (t.page.opcodePanel = Page.renderOpcodeList (snapshots.map StepSnapshot.row) none ∨
        ∃ (i : ℕ) (snap : StepSnapshot), snapshots[i]? = some snap ∧ t.server.Visited id snap ∧
          t.page.Shows entries snap ∧
          t.page.opcodePanel = Page.renderOpcodeList (snapshots.map StepSnapshot.row)
            (some snap.stepNumber) ∧
          (Numbered snapshots → snapshots.length ≤ 2 ^ 53 →
            t.page.opcodePanel = "<div class=\"opcode-list\">" ++
              String.join (snapshots.mapIdx fun k u => Page.opcodeRow k u.row (k = i)) ++
                "</div>"))

/-- That is what the invariant is for. -/
theorem Tab.Coherent.together (h : t.Coherent entries True rq) : t.Together entries := by
  rcases h.page.opcodes with hinit | hblank | ⟨id, snapshots, hid, ht, hpanel⟩
  · exact Or.inl hinit
  · exact Or.inr (Or.inl hblank)
  refine Or.inr (Or.inr ⟨id, snapshots, hid, ht, hpanel.imp_right ?_⟩)
  rintro ⟨id', snap, hv, hsame, hshows, hmarked⟩
  obtain rfl := hsame trivial
  -- a session has one trace, so that the snapshot is one of those that are listed
  obtain ⟨i, hi⟩ := h.server.named.getElem?_of_visited ht hv
  exact ⟨i, snap, hi, hv, hshows, hmarked, fun hnumbered hlength =>
    hmarked.trans (Page.renderOpcodeList_of_numbered hnumbered hlength hi).1⟩

/-- **What is marked belongs to what is shown**, in every run in which no command is under way when
a session is opened. -/
theorem shown_together
    (horderly : Runs.Along (Tab.step entries ttl rq) Tab.Orderly .init actions)
    (h : Runs.run (Tab.step entries ttl rq) .init actions = some t) : t.Together entries :=
  (Tab.coherent_of_run (fun _ : True => horderly) h).together

/-- A row is marked, and it is that of a snapshot of the trace, which is shown. -/
theorem together_openAndStep :
    ∃ (t : Tab) (i : ℕ) (snap : StepSnapshot),
      Runs.run (Tab.step (fun _ => []) 1800 pageRequests) .init openAndStep = some t ∧
      twoStepsTrace[i]? = some snap ∧ t.server.Visited "a" snap ∧ t.page.Shows (fun _ => []) snap ∧
      t.page.opcodePanel = Page.renderOpcodeList (twoStepsTrace.map StepSnapshot.row)
        (some snap.stepNumber) := by
  have horderly : Runs.Along (Tab.step (fun _ => []) 1800 pageRequests) Tab.Orderly .init
      openAndStep := by
    refine (Runs.along_cons rfl).mpr ⟨fun _ _ ha => absurd ha (by simp), ?_⟩
    refine (Runs.along_cons rfl).mpr ⟨fun _ _ ha => absurd ha (by simp), ?_⟩
    refine (Runs.along_cons rfl).mpr ⟨fun _ _ _ r hr => ?_, Runs.along_of_forall ?_⟩
    · -- the load is all that waits
      exact absurd (List.mem_singleton.mp hr) (by simp)
    · intro a ha _ n place hcreated
      subst hcreated
      exact absurd ha (by simp)
  obtain ⟨t, e, ht, hcurrent, he, heid, hdata, hinit, hblank, hmarked⟩ : ∃ t e, Runs.run
      (Tab.step (fun _ => []) 1800 pageRequests) .init openAndStep = some t ∧
      t.page.currentSessionId = some "a" ∧ t.server.heap[0]? = some e ∧ e.id = "a" ∧
      e.world.session.data = .ready twoStepsTrace 1 (some sampleStop.info) ∧
      t.page.opcodePanel ≠ Page.init.opcodePanel ∧
      t.page.opcodePanel ≠ Page.renderOpcodeList [] none ∧
      t.page.opcodePanel ≠ Page.renderOpcodeList (twoStepsTrace.map StepSnapshot.row) none :=
    ⟨_, _, rfl, rfl, rfl, rfl, rfl, by decide, by decide, by decide +kernel⟩
  obtain ⟨id, snapshots, hid, htrace, hpanel⟩ :=
    ((shown_together horderly ht).resolve_left hinit).resolve_left hblank
  obtain rfl := Option.some.inj (hcurrent.symm.trans hid)
  obtain rfl : snapshots = twoStepsTrace := by
    obtain ⟨q, x, result, hx, hxid, hxtrace⟩ := htrace
    have hnamed := (Tab.coherent_of_run (c := False) (fun hfalse => hfalse.elim) ht).server.named
    obtain rfl := hnamed q 0 x e hx he (hxid.trans heid.symm)
    obtain rfl := Option.some.inj (hx.symm.trans he)
    exact (hxtrace.unique ⟨_, _, 1, x.after_length, hdata⟩).1
  obtain ⟨i, snap, hi, hv, hshows, hrow, -⟩ := hpanel.resolve_left hmarked
  exact ⟨t, i, snap, ht, hi, hv, hshows, hrow⟩

/-- A command is given, another session is opened, and only then is the command answered. -/
def lateAnswer : List TabAction :=
  [.server (.create "a" (.fromCache twoStepsTrace (some sampleStop.info)) 0),
    .load "0x1" "http://rpc", .settle 0 (.created 0), .press .stepInto false 0,
    .server (.create "b" (.fromCache (twoStepsTrace.take 1) none) 0), .load "0x2" "http://rpc",
    .settle 1 (.created 1), .server (.lookup 0), .server (.readClock 0), .server (.storeTouch 0),
    .server (.release 0), .server (.perform 0), .settle 0 (.answered 1)]

/-- **Otherwise it may not**: the list is that of the session `b`, and the snapshot that of `a`,
which is not even in the list. -/
theorem Tab.mixed_lateAnswer :
    ∃ t snap, Runs.run (Tab.step (fun _ => []) 1800 pageRequests) .init lateAnswer = some t ∧
      t.page.currentSessionId = some "b" ∧ snap ∉ twoStepsTrace.take 1 ∧
      t.page.Shows (fun _ => []) snap ∧
      t.page.opcodePanel = Page.renderOpcodeList ((twoStepsTrace.take 1).map StepSnapshot.row)
        (some snap.stepNumber) :=
  ⟨_, _, rfl, rfl, by decide, ⟨rfl, rfl, rfl, rfl, rfl, rfl⟩, rfl⟩

end Runs

end EvmDebugger
