import EvmDebugger.Page.Buttons
import EvmDebugger.Server.Current

/-!
# Commands take effect in the order in which they are given

The page sends its requests one by one, but nothing makes the server deal with them one by one: a
command runs on a pool of threads, and the next may be there before it has got the lock. What keeps
them in order is that the page does not send the next request before the last one has been answered
– as long as its user is patient, and no response gets lost (`EvmDebugger.Tab.Patient`).

Then there is an order among all that the tab has done to a session, whatever others do to it in
between (`EvmDebugger.commands_in_order`): in the log of the session, the requests come one after
the other, as they were sent, and each is in full before the next begins. The invariant has two
halves. One is about a client of the server, of whose requests all have been answered but the last
(`EvmDebugger.Server.Queue`); the other is about the page, which waits for one thing at a time
(`EvmDebugger.Tab.InOrder`).
-/

namespace EvmDebugger

/-! ### One client of the server -/

namespace Server

variable {ttl : ℕ} {rq : ℕ → Request} {s s' : Server} {a : ServerAction} {sent : List ℕ}
  {waiting : Option ℕ} {r : ℕ}

/-- **A client that waits for its answers**: these are its requests, the last one first, and all of
them have been answered, except for the last one if it is waited for. What they have done to a
session, they have done one after the other. -/
structure Queue (rq : ℕ → Request) (sent : List ℕ) (s : Server) (waiting : Option ℕ) : Prop where
  serial : s.Serial rq
  nodup : sent.Nodup
  answered : ∀ r ∈ sent, waiting ≠ some r → (s.stage r).isAnswered = true
  last : ∀ r, waiting = some r → ∃ rest, sent = r :: rest
  order : ∀ (place : ℕ) (e : Entry), s.heap[place]? = some e →
    Logged.InSequence (sent.reverse.map some) e.object.log

theorem queue_init (rq : ℕ → Request) : Queue rq [] init none where
  serial := serial_init
  nodup := List.nodup_nil
  answered _ h := absurd h List.not_mem_nil
  last _ h := absurd h (by simp)
  order _ _ h := absurd h (by simp [init])

/-- **What others do is not in the part of the log that is the client's**, and what the client does
is at its end. -/
theorem Queue.acted (h : s.Queue rq sent waiting) {place q : ℕ} {e e' x : Entry} {who : Option ℕ}
    {act : Action} (he : s.heap[place]? = some e) (hact : e.act who act = some e')
    (hlive : ∀ r, who = some r → (s.stage r).isAnswered = false)
    (hx : (s.heap.set place e')[q]? = some x) :
    Logged.InSequence (sent.reverse.map some) x.object.log := by
  rcases (getElem?_set_eq_some he).mp hx with ⟨rfl, rfl⟩ | ⟨-, hx⟩
  · obtain ⟨-, -, hlog, -⟩ := Entry.act_eq_some hact
    have horder := h.order place e he
    rw [hlog]
    by_cases hwho : who ∈ sent.reverse.map some
    · obtain ⟨r, hr, rfl⟩ := List.mem_map.mp hwho
      -- a request of the client that has not been answered is its last one
      have hwaiting : waiting = some r := by
        by_contra hne
        exact absurd (h.answered r (List.mem_reverse.mp hr) hne) (by simp [hlive r rfl])
      obtain ⟨rest, rfl⟩ := h.last r hwaiting
      have hnot : some r ∉ rest.reverse.map some := by
        simpa using (List.nodup_cons.mp h.nodup).1
      rw [List.reverse_cons, List.map_append] at horder ⊢
      exact horder.last hnot
    · exact horder.other hwho
  · exact h.order q x hx

/-- **The server takes a step.** -/
theorem Queue.did (h : s.Queue rq sent waiting) (hdid : Did ttl rq s a s') :
    s'.Queue rq sent waiting where
  serial := h.serial.did hdid
  nodup := h.nodup
  answered r hr hne := by
    have hanswered := h.answered r hr hne
    rw [hdid.stage_of_answered hanswered]
    exact hanswered
  last := h.last
  order place x hx := by
    cases hdid with
    | create hfresh =>
      rcases Runs.getElem?_snoc hx with ⟨-, hx⟩ | ⟨-, rfl⟩
      · exact h.order place x hx
      · -- nobody has used the new session
        exact Logged.inSequence_nil _
    | background ha he hact => exact h.acted he hact (fun _ hr => absurd hr (by simp)) hx
    | acts hbefore hlive he hact =>
      exact h.acted he hact (fun _ hr => Option.some.inj hr ▸ hlive) hx
    | _ => exact h.order place x hx

/-- **What the client has done to a session**, in the log of the session: what its requests have
done. -/
theorem Queue.own_log (h : s.Queue rq sent waiting) {place : ℕ} {e : Entry}
    (he : s.heap[place]? = some e) :
    (e.object.log.filter fun entry => entry.1 ∈ sent.reverse.map some) =
      sent.reverse.flatMap fun r => ((s.stage r).doneOn (rq r).route place).map (some r, ·) := by
  refine (List.filter_congr fun _ _ => decide_eq_decide.mpr Iff.rfl).trans
    ((h.order place e he).trans ?_)
  rw [List.flatMap_map]
  refine List.flatMap_congr fun r _ => ?_
  exact congrArg (List.map _) ((h.serial.agrees r).done place e he)

/-- **The client sends a request**, when all have been answered. -/
theorem Queue.send (h : s.Queue rq sent none) (hnew : s.stage r = .new) (hr : r ∉ sent) :
    s.Queue rq (r :: sent) (some r) where
  serial := h.serial
  nodup := List.nodup_cons.mpr ⟨hr, h.nodup⟩
  answered r' hr' hne := by
    rcases List.mem_cons.mp hr' with rfl | hr'
    · exact absurd rfl hne
    · exact h.answered r' hr' (by simp)
  last r' hr' := by
    obtain rfl := Option.some.inj hr'
    exact ⟨sent, rfl⟩
  order place e he := by
    rw [List.reverse_cons, List.map_append]
    refine (h.order place e he).begin ?_
    -- a new request has done nothing
    refine ((h.serial.agrees r).done place e he).trans ?_
    rw [hnew]
    rfl

/-- **The client has been answered.** -/
theorem Queue.arrived (h : s.Queue rq sent waiting)
    (hanswered : ∀ r, waiting = some r → (s.stage r).isAnswered = true) :
    s.Queue rq sent none where
  serial := h.serial
  nodup := h.nodup
  answered r hr _ := by
    by_cases hwaiting : waiting = some r
    · exact hanswered r hwaiting
    · exact h.answered r hr hwaiting
  last _ hr := absurd hr (by simp)
  order := h.order

end Server

/-! ### The page -/

/-- The request for whose response is waited. -/
def PageTask.request : PageTask → Option ℕ
  | creating | sleeping _ => none
  | polling _ r | tracing _ _ r | commanding r | aborting r => some r

namespace Tab

/-- **The user is patient, and no response gets lost**: no transaction is loaded and no key is
pressed as long as the page waits for anything, and what cannot be read has been sent. -/
def Patient (t : Tab) : TabAction → Prop
  | .load _ _ => t.tasks = []
  | .press _ byKey _ => byKey = true → t.tasks = []
  | .settle n (.failed _) => ∀ task r, t.tasks[n]? = some task → task.request = some r →
      (t.server.stage r).isAnswered = true
  | .abort _ | .settle _ _ | .server _ => True

/-- **One thing at a time**: the page waits for nothing, or for one thing, with its buttons
disabled. -/
def InOrder (rq : ℕ → Request) (t : Tab) : Prop :=
  (t.tasks = [] ∧ t.server.Queue rq t.sent none) ∨
    ∃ task, t.tasks = [task] ∧ t.page.buttonsEnabled = false ∧
      t.server.Queue rq t.sent task.request

variable {entries : StorageChanges → List (String × List (String × String))} {ttl : ℕ}
  {rq : ℕ → Request} {t t' : Tab} {n : ℕ} {task : PageTask} {page : Page}

/-- A request that is sent is a new one. -/
theorem fresh_of_send {r : ℕ} {request : Request} (h : t.send rq r request = some t') :
    t.server.stage r = .new ∧ r ∉ t.sent ∧ t' = { t with sent := r :: t.sent } := by
  rw [send] at h
  split at h
  · next hfree => exact ⟨hfree.2.1, hfree.2.2, (Option.some.inj h).symm⟩
  · exact absurd h (by simp)

/-- **What is waited for arrives when it has been sent**, or fails. -/
theorem exists_response_of_settle {arrival : Arrival}
    (hs : t.settle entries rq n task arrival = some t') {r : ℕ} (hr : task.request = some r)
    (hfailed : ∀ message, arrival ≠ .failed message) :
    ∃ next response, arrival = .answered next ∧ t.response r = some response := by
  cases arrival with
  | failed message => exact absurd rfl (hfailed message)
  | elapsed _ | created _ | refused _ =>
    cases task with
    | creating | sleeping _ => exact absurd hr (by simp [PageTask.request])
    | polling _ _ | tracing _ _ _ | commanding _ | aborting _ =>
      exact absurd hs (by simp [settle])
  | answered next =>
    refine ⟨next, ?_⟩
    cases task with
    | creating | sleeping _ => exact absurd hr (by simp [PageTask.request])
    | polling id r' =>
      obtain rfl := Option.some.inj hr
      obtain ⟨response, hsome, -⟩ := Option.bind_eq_some_iff.mp hs
      exact ⟨response, rfl, hsome⟩
    | tracing _ _ r' | commanding r' | aborting r' =>
      obtain rfl := Option.some.inj hr
      obtain ⟨response, hsome, -⟩ := Option.map_eq_some_iff.mp hs
      exact ⟨response, rfl, hsome⟩

/-- **What is waited for has been answered**, when it arrives. -/
theorem isAnswered_of_settle {arrival : Arrival}
    (hs : t.settle entries rq n task arrival = some t')
    (hfailed : ∀ message, arrival = .failed message → ∀ r, task.request = some r →
      (t.server.stage r).isAnswered = true) (r : ℕ) (hr : task.request = some r) :
    (t.server.stage r).isAnswered = true := by
  by_cases hfail : ∃ message, arrival = .failed message
  · obtain ⟨message, rfl⟩ := hfail
    exact hfailed message rfl r hr
  · obtain ⟨next, response, -, hresponse⟩ :=
      exists_response_of_settle hs hr fun message heq => hfail ⟨message, heq⟩
    obtain ⟨found, hstage⟩ := response_eq_some hresponse
    rw [hstage]
    rfl

/-- **All is over.** -/
theorem inOrder_finish (htasks : t.tasks = [task]) (hqueue : t.server.Queue rq t.sent none)
    (page : Page) : (t.finish 0 page).InOrder rq := by
  refine Or.inl ⟨?_, hqueue⟩
  show t.tasks.eraseIdx 0 = []
  rw [htasks]
  rfl

/-- **Something else is waited for**, with the buttons disabled. -/
theorem inOrder_goOn (htasks : t.tasks = [task]) {next : PageTask}
    (hqueue : t.server.Queue rq t.sent next.request) (hdisabled : page.buttonsEnabled = false) :
    (t.goOn 0 page next).InOrder rq := by
  refine Or.inr ⟨next, ?_, hdisabled, hqueue⟩
  show t.tasks.set 0 next = [next]
  rw [htasks]
  rfl

/-- **The first thing is waited for**, with the buttons disabled. -/
theorem inOrder_add (htasks : t.tasks = []) {sent : List ℕ}
    (hqueue : t.server.Queue rq sent task.request) (hdisabled : page.buttonsEnabled = false) :
    InOrder rq { t with page := page, tasks := t.tasks ++ [task], sent := sent } := by
  refine Or.inr ⟨task, ?_, hdisabled, hqueue⟩
  show t.tasks ++ [task] = [task]
  rw [htasks]
  rfl

/-- Of the page, only the buttons matter. -/
theorem InOrder.withPage (h : t.InOrder rq) (hdisabled : page.buttonsEnabled = false) :
    InOrder rq { t with page := page } :=
  h.imp_right fun ⟨task, htasks, _, hqueue⟩ => ⟨task, htasks, hdisabled, hqueue⟩

/-- While the buttons are enabled, nothing is waited for. -/
theorem InOrder.idle (h : t.InOrder rq) (hidle : t.tasks = [] ∨ t.page.buttonsEnabled = true) :
    t.tasks = [] ∧ t.server.Queue rq t.sent none := by
  refine h.resolve_right ?_
  rintro ⟨task, htasks, hdisabled, -⟩
  rcases hidle with hnone | henabled
  · exact absurd (htasks.symm.trans hnone) (by simp)
  · exact absurd (hdisabled.symm.trans henabled) (by simp)

/-- A session has been created. -/
theorem inOrder_created (htasks : t.tasks = [task]) (hqueue : t.server.Queue rq t.sent none)
    (e : Entry) : (t.created entries 0 e).InOrder rq := by
  rw [Tab.created]
  split
  · exact inOrder_finish htasks hqueue _
  · next page heq =>
    split
    · next hstate =>
      rw [hstate] at heq
      have hpage := congrArg Prod.fst heq
      exact inOrder_goOn htasks hqueue (congrArg Page.buttonsEnabled hpage).symm
    · exact inOrder_finish htasks hqueue _

/-- The state has arrived. -/
theorem inOrder_polled (htasks : t.tasks = [task]) (hqueue : t.server.Queue rq t.sent none)
    (hdisabled : t.page.buttonsEnabled = false) {id : String} {next : ℕ} {body : Body}
    (hs : t.polled entries rq 0 id next body = some t') : t'.InOrder rq := by
  rw [Tab.polled.eq_def] at hs
  split at hs
  · obtain rfl := Option.some.inj hs
    exact inOrder_goOn htasks hqueue hdisabled
  · obtain ⟨t₁, hsend, rfl⟩ := Option.map_eq_some_iff.mp hs
    obtain ⟨hnew, hfresh, rfl⟩ := fresh_of_send hsend
    exact inOrder_goOn (t := { t with sent := next :: t.sent }) htasks (hqueue.send hnew hfresh)
      hdisabled
  all_goals
    obtain rfl := Option.some.inj hs
    exact inOrder_finish htasks hqueue _

/-- **Whatever arrives**, it is the only thing that was waited for. -/
theorem InOrder.settle (h : t.InOrder rq) (hn : t.tasks[n]? = some task) {arrival : Arrival}
    (hfailed : ∀ message, arrival = .failed message → ∀ r, task.request = some r →
      (t.server.stage r).isAnswered = true)
    (hs : t.settle entries rq n task arrival = some t') : t'.InOrder rq := by
  obtain ⟨hnone, -⟩ | ⟨task', htasks, hdisabled, hwaits⟩ := h
  · exact absurd hn (by simp [hnone])
  have hqueue : t.server.Queue rq t.sent none := by
    rw [htasks] at hn
    obtain rfl := List.mem_singleton.mp (List.mem_of_getElem? hn)
    exact hwaits.arrived (isAnswered_of_settle hs hfailed)
  obtain rfl : n = 0 := by
    obtain ⟨hlt, -⟩ := List.getElem?_eq_some_iff.mp hn
    rw [htasks, List.length_singleton] at hlt
    omega
  rw [Tab.settle.eq_def] at hs
  split at hs
  · obtain ⟨e, -, rfl⟩ := Option.map_eq_some_iff.mp hs
    exact inOrder_created htasks hqueue e
  · obtain rfl := Option.some.inj hs
    exact inOrder_finish htasks hqueue _
  · next id next =>
    obtain ⟨t₁, hsend, rfl⟩ := Option.map_eq_some_iff.mp hs
    obtain ⟨hnew, hfresh, rfl⟩ := fresh_of_send hsend
    exact inOrder_goOn (t := { t with sent := next :: t.sent }) htasks (hqueue.send hnew hfresh)
      hdisabled
  · obtain ⟨response, -, hs⟩ := Option.bind_eq_some_iff.mp hs
    exact inOrder_polled htasks hqueue hdisabled hs
  all_goals
    first
      | obtain ⟨response, -, rfl⟩ := Option.map_eq_some_iff.mp hs
        exact inOrder_finish htasks hqueue _
      | obtain rfl := Option.some.inj hs
        exact inOrder_finish htasks hqueue _
      | exact absurd hs (by simp)

/-- **A command is given.** -/
theorem InOrder.press (h : t.InOrder rq) {route : Route} {byKey : Bool} {r : ℕ}
    (hpatient : byKey = true → t.tasks = []) (hs : t.press rq route byKey r = some t') :
    t'.InOrder rq := by
  rw [Tab.press] at hs
  split at hs
  · split at hs <;> obtain rfl := Option.some.inj hs
    · exact h.withPage rfl
    · exact h
  · split at hs
    · next hpressed =>
      obtain ⟨t₁, hsend, rfl⟩ := Option.map_eq_some_iff.mp hs
      obtain ⟨hnew, hfresh, rfl⟩ := fresh_of_send hsend
      have hidle : t.tasks = [] ∨ t.page.buttonsEnabled = true :=
        ((Bool.or_eq_true _ _).mp hpressed).imp_left hpatient
      obtain ⟨htasks, hqueue⟩ := h.idle hidle
      split
      · exact inOrder_add htasks (hqueue.send hnew hfresh) rfl
      · exact inOrder_add htasks (hqueue.send hnew hfresh) rfl
    · obtain rfl := Option.some.inj hs
      exact h

/-- **Every action of a patient user keeps the order.** -/
theorem InOrder.step (h : t.InOrder rq) {a : TabAction} (hpatient : t.Patient a)
    (hs : t.step entries ttl rq a = some t') : t'.InOrder rq := by
  cases a with
  | load txHash rpcUrl =>
    rw [Tab.step] at hs
    split at hs
    · obtain rfl := Option.some.inj hs
      exact h
    · split at hs <;> obtain rfl := Option.some.inj hs
      · exact h
      · obtain ⟨htasks, hqueue⟩ := h.idle (Or.inl hpatient)
        exact inOrder_add htasks hqueue rfl
  | press route byKey r =>
    rw [Tab.step] at hs
    split at hs
    · exact h.press hpatient hs
    · exact absurd hs (by simp)
  | abort r =>
    rw [Tab.step] at hs
    split at hs
    · obtain rfl := Option.some.inj hs
      exact h
    · split at hs
      · next henabled =>
        obtain ⟨t₁, hsend, rfl⟩ := Option.map_eq_some_iff.mp hs
        obtain ⟨hnew, hfresh, rfl⟩ := fresh_of_send hsend
        obtain ⟨htasks, hqueue⟩ := h.idle (Or.inr henabled)
        exact inOrder_add htasks (hqueue.send hnew hfresh) rfl
      · obtain rfl := Option.some.inj hs
        exact h
  | settle n arrival =>
    obtain ⟨task, hn, hs⟩ := Option.bind_eq_some_iff.mp hs
    refine h.settle hn ?_ hs
    rintro message rfl r hr
    exact hpatient task r hn hr
  | server a =>
    obtain ⟨server, hserver, rfl⟩ := Option.map_eq_some_iff.mp hs
    have hdid := Server.did hserver
    rcases h with ⟨htasks, hqueue⟩ | ⟨task, htasks, hdisabled, hqueue⟩
    · exact Or.inl ⟨htasks, hqueue.did hdid⟩
    · exact Or.inr ⟨task, htasks, hdisabled, hqueue.did hdid⟩

end Tab

/-- **Commands take effect in the order in which they are given.** If the user is patient and no
response gets lost, then what the tab has done to a session is, in the log of the session, what its
requests have done, one after the other as they were sent; and all have been answered but the last.
-/
theorem commands_in_order
    {entries : StorageChanges → List (String × List (String × String))} {ttl : ℕ}
    {rq : ℕ → Request} {actions : List TabAction} {t : Tab}
    (hpatient : Runs.Along (Tab.step entries ttl rq) Tab.Patient .init actions)
    (h : Runs.run (Tab.step entries ttl rq) .init actions = some t) {place : ℕ} {e : Entry}
    (he : t.server.heap[place]? = some e) :
    (e.object.log.filter fun entry => entry.1 ∈ t.sent.reverse.map some) =
        (t.sent.reverse.flatMap fun r =>
          ((t.server.stage r).doneOn (rq r).route place).map (some r, ·)) ∧
      ∀ r ∈ t.sent.tail, (t.server.stage r).isAnswered = true := by
  have hinit : Tab.init.InOrder rq := Or.inl ⟨rfl, Server.queue_init rq⟩
  have hinOrder := Runs.run_invariant_along (motive := fun t : Tab => t.InOrder rq)
    (fun _ _ _ h hpatient hstep => h.step hpatient hstep) hinit hpatient h
  obtain ⟨waiting, hqueue⟩ : ∃ waiting, t.server.Queue rq t.sent waiting := by
    rcases hinOrder with ⟨-, hqueue⟩ | ⟨task, -, -, hqueue⟩
    · exact ⟨_, hqueue⟩
    · exact ⟨_, hqueue⟩
  refine ⟨hqueue.own_log he, fun r hr => ?_⟩
  refine hqueue.answered r (List.mem_of_mem_tail hr) fun hwaiting => ?_
  obtain ⟨rest, hrest⟩ := hqueue.last r hwaiting
  have hnodup := hqueue.nodup
  rw [hrest] at hr hnodup
  exact (List.nodup_cons.mp hnodup).1 hr

/-- A session is opened and advances a step, and then another one, by a key. -/
def stepTwice : List TabAction :=
  openAndStep ++ [.press .stepInto true 1, .server (.lookup 1), .server (.readClock 1),
    .server (.storeTouch 1), .server (.release 1), .server (.perform 1)]

theorem in_order_stepTwice :
    ∃ t e, Runs.run (Tab.step (fun _ => []) 1800 pageRequests) .init stepTwice = some t ∧
      t.server.heap[0]? = some e ∧
      (e.object.log.filter fun entry => entry.1 ∈ t.sent.reverse.map some) =
        [(some 0, .touch 0), (some 0, .stepInto), (some 1, .touch 0), (some 1, .stepInto)] := by
  obtain ⟨t₁, ht₁, htasks⟩ : ∃ t, Runs.run (Tab.step (fun _ => []) 1800 pageRequests) .init
      openAndStep = some t ∧ t.tasks = [] := ⟨_, rfl, rfl⟩
  have hpatient : Runs.Along (Tab.step (fun _ => []) 1800 pageRequests) Tab.Patient .init
      stepTwice := by
    refine (Runs.along_append ht₁).mpr ⟨?_, ?_⟩
    · refine (Runs.along_cons rfl).mpr ⟨trivial, ?_⟩
      refine (Runs.along_cons rfl).mpr ⟨rfl, ?_⟩
      refine (Runs.along_cons rfl).mpr ⟨trivial, ?_⟩
      refine (Runs.along_cons rfl).mpr ⟨fun hkey => absurd hkey (by simp), ?_⟩
      refine Runs.along_of_forall fun a ha t => ?_
      simp only [List.mem_cons, List.not_mem_nil, or_false] at ha
      rcases ha with rfl | rfl | rfl | rfl | rfl | rfl <;> trivial
    · refine ⟨fun _ => htasks, fun t _ => Runs.along_of_forall fun a ha t => ?_⟩
      simp only [List.mem_cons, List.not_mem_nil, or_false] at ha
      rcases ha with rfl | rfl | rfl | rfl | rfl <;> trivial
  obtain ⟨t, ht, hsent, ⟨e, he⟩, h₀, h₁⟩ : ∃ t, Runs.run (Tab.step (fun _ => []) 1800
      pageRequests) .init stepTwice = some t ∧ t.sent = [1, 0] ∧
      (∃ e, t.server.heap[0]? = some e) ∧
      (t.server.stage 0).doneOn .stepInto 0 = [.touch 0, .stepInto] ∧
      (t.server.stage 1).doneOn .stepInto 0 = [.touch 0, .stepInto] :=
    ⟨_, rfl, rfl, ⟨_, rfl⟩, rfl, rfl⟩
  refine ⟨t, e, ht, he, (commands_in_order hpatient ht he).1.trans ?_⟩
  simp only [hsent, pageRequests, List.reverse_cons, List.reverse_nil, List.nil_append,
    List.cons_append, List.flatMap_cons, List.flatMap_nil, h₀, h₁]
  rfl

/-- A key is pressed, and once more before there is an answer. -/
def keyTwice : List TabAction :=
  openAndStep.take 3 ++ [.press .stepInto true 0, .server (.lookup 0), .server (.readClock 0),
    .server (.storeTouch 0), .server (.release 0), .press .stepInto true 1, .server (.lookup 1),
    .server (.readClock 1), .server (.storeTouch 1), .server (.release 1), .server (.perform 1),
    .server (.perform 0)]

/-- **Otherwise one may overtake the other**, and keys are never disabled. -/
theorem Tab.overtaken_keyTwice :
    ∃ t e, Runs.run (Tab.step (fun _ => []) 1800 pageRequests) .init keyTwice = some t ∧
      t.server.heap[0]? = some e ∧ t.sent = [1, 0] ∧
      e.object.log = [(some 0, .touch 0), (some 1, .touch 0), (some 1, .stepInto),
        (some 0, .stepInto)] :=
  ⟨_, _, rfl, rfl, rfl, rfl⟩

end EvmDebugger
