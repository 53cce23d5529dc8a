import EvmDebugger.Server.Requests

/-!
# Requests take effect one after the other

Requests overlap: a handler has cloned its reference and released the entry of the map long before
the pool runs its command, and in between others come and go. What does not overlap are the
critical sections, and each of them is an entry in the log of one session. So there is nothing to
commute: the log is the order.

What has to be shown is that the requests and the logs agree (`EvmDebugger.Agrees`): a request has
done to its session what its stage says, once and in its own order, has done nothing to any other,
and has been answered what its session answered at that point. It is an invariant of the server,
proved request by request: a request that moves keeps it, a request that takes the lock extends the
log of its session and its own history by the same step, and what somebody else does is not in the
part of the log that is its own. What comes of it for a session is `EvmDebugger.Server.InTurn`.
-/

namespace EvmDebugger

/-- What a request has done to the session at a place. -/
def Stage.doneOn (route : Route) (stage : Stage) (place : ℕ) : List Action :=
  match stage.history route with
  | some (q, done) => if q = place then done else []
  | none => []

/-- The action that a request is answered for. -/
def Action.Answers (a : Action) : Prop := a.isTouch = false ∧ a ≠ .abortStore

/-- What becomes of a session whose lock somebody takes. -/
theorem Entry.act_eq_some {e e' : Entry} {who : Option ℕ} {a : Action}
    (h : e.act who a = some e') :
    (e'.id = e.id ∧ e'.start = e.start) ∧ World.step e.world a = some e'.world ∧
      e'.object.log = e.object.log ++ [(who, a)] ∧
      e'.object.answers World.reply = e.object.answers World.reply ++ [e.world.reply a] ∧
      ∀ r, e'.object.stepsOf (some r) =
        if who = some r then e.object.stepsOf (some r) ++ [a] else e.object.stepsOf (some r) := by
  obtain ⟨o, ho, rfl⟩ := Option.map_eq_some_iff.mp h
  obtain ⟨hstep, hlog⟩ := Logged.act_eq_some ho
  exact ⟨⟨rfl, rfl⟩, hstep, hlog, Logged.answers_act ho World.reply,
    fun r => Logged.stepsOf_act ho (some r)⟩

/-- A session is where its log leads. -/
theorem Entry.run_log (e : Entry) :
    Runs.run World.step e.start (e.object.log.map Prod.snd) = some e.world := e.object.ok

/-! ### The heap -/

section Heap

variable {heap : List Entry} {place q : ℕ} {e e' x : Entry} {id : String}

/-- A place of the heap, after a session has been replaced. -/
theorem getElem?_set_eq_some (he : heap[place]? = some e) :
    (heap.set place e')[q]? = some x ↔ (place = q ∧ e' = x) ∨ (place ≠ q ∧ heap[q]? = some x) := by
  obtain ⟨hlt, -⟩ := List.getElem?_eq_some_iff.mp he
  rw [List.getElem?_set]
  by_cases heq : place = q
  · rw [if_pos heq, if_pos hlt]
    simp [heq]
  · rw [if_neg heq]
    simp [heq]

/-- What is at a place keeps its name. -/
theorem exists_set (he : heap[place]? = some e) (hid : e'.id = e.id)
    (h : ∃ x, heap[q]? = some x ∧ x.id = id) :
    ∃ x, (heap.set place e')[q]? = some x ∧ x.id = id := by
  obtain ⟨x, hx, hxid⟩ := h
  by_cases heq : place = q
  · subst heq
    obtain rfl := Option.some.inj (he.symm.trans hx)
    exact ⟨e', (getElem?_set_eq_some he).mpr (Or.inl ⟨rfl, rfl⟩), hid.trans hxid⟩
  · exact ⟨x, (getElem?_set_eq_some he).mpr (Or.inr ⟨heq, hx⟩), hxid⟩

/-- A new session takes no place that is taken. -/
theorem exists_append {new : Entry} (h : ∃ x, heap[q]? = some x ∧ x.id = id) :
    ∃ x, (heap ++ [new])[q]? = some x ∧ x.id = id := by
  obtain ⟨x, hx, hxid⟩ := h
  obtain ⟨hlt, -⟩ := List.getElem?_eq_some_iff.mp hx
  exact ⟨x, by rw [List.getElem?_append_left hlt, hx], hxid⟩

end Heap

/-! ### Requests and their sessions -/

/-- **A request and the sessions agree**: it has done to its session, and to no other, what its
stage says, and it has been answered what its session answers at that point of its log. -/
structure Agrees (request : Request) (heap : List Entry) (r : ℕ) (stage : Stage) : Prop where
  found : ∀ q done, stage.history request.route = some (q, done) →
    ∃ e, heap[q]? = some e ∧ e.id = request.id
  done : ∀ q e, heap[q]? = some e →
    e.object.stepsOf (some r) = stage.doneOn request.route q
  answered : ∀ (q : ℕ) (e : Entry) (n : ℕ) (act : Action), heap[q]? = some e →
    e.object.log[n]? = some (some r, act) → act.Answers →
    ∃ time reply, (e.object.answers World.reply)[n]? = some (some reply) ∧
      stage = .answered (some (q, time)) (request.route.respond reply)

namespace Agrees

variable {request : Request} {heap : List Entry} {r place : ℕ} {stage stage' : Stage}
  {e e' : Entry} {act : Action}

/-- **A new session** has not been used by anybody. -/
theorem create (h : Agrees request heap r stage) (id : String) (origin : Origin) (created : ℕ) :
    Agrees request (heap ++ [.new id origin created]) r stage := by
  refine ⟨fun q done hq => exists_append (h.found q done hq), fun q e he => ?_,
    fun q e n act he hn => ?_⟩
  · rcases Runs.getElem?_snoc he with ⟨-, he⟩ | ⟨rfl, rfl⟩
    · exact h.done q e he
    · -- nobody has a reference to a place that was not there
      have hnone : stage.doneOn request.route heap.length = [] := by
        rw [Stage.doneOn]
        split
        · next q done hq =>
          obtain ⟨x, hx, -⟩ := h.found q done hq
          obtain ⟨hlt, -⟩ := List.getElem?_eq_some_iff.mp hx
          rw [if_neg (Nat.ne_of_lt hlt)]
        · rfl
      rw [hnone]
      rfl
  · rcases Runs.getElem?_snoc he with ⟨-, he⟩ | ⟨rfl, rfl⟩
    · exact h.answered q e n act he hn
    · exact absurd hn (by simp [Entry.new, Logged.new])

/-- **What others do** is not what this request does. -/
theorem other (h : Agrees request heap r stage) {who : Option ℕ} (he : heap[place]? = some e)
    (hact : e.act who act = some e') (hwho : who ≠ some r) :
    Agrees request (heap.set place e') r stage := by
  obtain ⟨⟨hid, -⟩, -, hlog, hanswers, hsteps⟩ := Entry.act_eq_some hact
  refine ⟨fun q done hq => exists_set he hid (h.found q done hq), fun q x hx => ?_,
    fun q x n act' hx hn hans => ?_⟩
  · rcases (getElem?_set_eq_some he).mp hx with ⟨rfl, rfl⟩ | ⟨-, hx⟩
    · -- the entry added to the log is not this request's
      rw [hsteps r, if_neg hwho]
      exact h.done place e he
    · exact h.done q x hx
  · rcases (getElem?_set_eq_some he).mp hx with ⟨rfl, rfl⟩ | ⟨-, hx⟩
    · rw [hlog] at hn
      rcases Runs.getElem?_snoc hn with ⟨hlt, hn⟩ | ⟨-, hn⟩
      · obtain ⟨time, reply, hreply, hstage⟩ := h.answered place e n act' he hn hans
        refine ⟨time, reply, ?_, hstage⟩
        rw [hanswers, List.getElem?_append_left (by rwa [Logged.length_answers]), hreply]
      · exact absurd (congrArg Prod.fst hn) hwho
    · exact h.answered q x n act' hx hn hans

/-- As long as a request has not been answered, none of its steps is one that it is answered for. -/
theorem not_answers (h : Agrees request heap r stage) (hlive : stage.isAnswered = false) {q n : ℕ}
    (he : heap[q]? = some e) (hn : e.object.log[n]? = some (some r, act)) : ¬act.Answers := by
  intro hans
  obtain ⟨time, reply, -, rfl⟩ := h.answered q e n act he hn hans
  exact absurd hlive (by simp [Stage.isAnswered])

/-- **The request goes on** without its session. -/
theorem moves (h : Agrees request heap r stage) (hlive : stage.isAnswered = false)
    (hhistory : stage'.history request.route = stage.history request.route ∨
      stage.history request.route = none ∧
        ∃ q, (∃ e, heap[q]? = some e ∧ e.id = request.id) ∧
          stage'.history request.route = some (q, [])) :
    Agrees request heap r stage' := by
  refine ⟨fun q done hq => ?_, fun q e he => ?_, fun q e n act he hn hans => ?_⟩
  · rcases hhistory with hsame | ⟨-, q', hfound, hnew⟩
    · exact h.found q done (hsame ▸ hq)
    · obtain ⟨rfl, -⟩ := Prod.mk.inj (Option.some.inj (hnew.symm.trans hq))
      exact hfound
  · rw [h.done q e he, Stage.doneOn, Stage.doneOn]
    rcases hhistory with hsame | ⟨hnone, q', -, hnew⟩
    · rw [hsame]
    · rw [hnone, hnew]
      simp
  · exact absurd hans (h.not_answers hlive he hn)

/-- **The request takes the lock of its session.** -/
theorem acts (h : Agrees request heap r stage) (hlive : stage.isAnswered = false)
    {done : List Action} (hbefore : stage.history request.route = some (place, done))
    (he : heap[place]? = some e) (hact : e.act (some r) act = some e')
    (hafter : stage'.history request.route = some (place, done ++ [act]))
    (hanswer : act.Answers → ∃ time reply, e.world.reply act = some reply ∧
      stage' = .answered (some (place, time)) (request.route.respond reply)) :
    Agrees request (heap.set place e') r stage' := by
  obtain ⟨⟨hid, -⟩, -, hlog, hanswers, hsteps⟩ := Entry.act_eq_some hact
  refine ⟨fun q done' hq => exists_set he hid ?_, fun q x hx => ?_,
    fun q x n act' hx hn hans => ?_⟩
  · obtain ⟨rfl, -⟩ := Prod.mk.inj (Option.some.inj (hafter.symm.trans hq))
    exact h.found place done hbefore
  · rw [Stage.doneOn, hafter]
    rcases (getElem?_set_eq_some he).mp hx with ⟨rfl, rfl⟩ | ⟨hne, hx⟩
    · rw [hsteps r, if_pos rfl, h.done place e he, Stage.doneOn, hbefore]
      simp
    · rw [h.done q x hx, Stage.doneOn, hbefore]
      simp [hne]
  · rcases (getElem?_set_eq_some he).mp hx with ⟨rfl, rfl⟩ | ⟨-, hx⟩
    · rw [hlog] at hn
      rcases Runs.getElem?_snoc hn with ⟨-, hn⟩ | ⟨hlen, hn⟩
      · exact absurd hans (h.not_answers hlive he hn)
      · -- the entry added to the log: what is answered to it is the response
        obtain ⟨-, rfl⟩ := Prod.mk.inj hn
        obtain ⟨time, reply, hreply, rfl⟩ := hanswer hans
        refine ⟨time, reply, ?_, rfl⟩
        rw [hanswers, hlen, ← Logged.length_answers e.object World.reply,
          List.getElem?_concat_length, hreply]
    · exact absurd hans (h.not_answers hlive hx hn)

end Agrees

namespace Server

variable {ttl : ℕ} {rq : ℕ → Request} {s s' : Server} {a : ServerAction}

/-- **The invariant of the requests.** -/
structure Serial (rq : ℕ → Request) (s : Server) : Prop where
  mapped : ∀ id place, s.sessions id = some place → ∃ e, s.heap[place]? = some e ∧ e.id = id
  agrees : ∀ r, Agrees (rq r) s.heap r (s.stage r)

/-- In the beginning. -/
theorem serial_init : Serial rq init where
  mapped _ _ h := absurd h (by simp [init])
  agrees _ := ⟨fun _ _ h => absurd h (by simp [init, Stage.history]),
    fun _ _ h => absurd h (by simp [init]), fun _ _ _ _ h => absurd h (by simp [init])⟩

/-- **A step of the server keeps the invariant.** -/
theorem Serial.did (h : Serial rq s) (hdid : Did ttl rq s a s') : Serial rq s' := by
  cases hdid with
  | tick => exact ⟨h.mapped, h.agrees⟩
  | gcStart hgc => exact ⟨h.mapped, h.agrees⟩
  | gcRead hgc hid he hold => exact ⟨h.mapped, h.agrees⟩
  | gcSkip => exact h
  | gcCollected hgc => exact ⟨h.mapped, h.agrees⟩
  | gcEnd hgc => exact ⟨h.mapped, h.agrees⟩
  | @gcRemove key keys hgc =>
    refine ⟨fun id place hid => h.mapped id place ?_, h.agrees⟩
    by_cases heq : id = key.1
    · subst heq
      exact absurd (hid.symm.trans (Function.update_self ..)) (by simp)
    · exact (Function.update_of_ne heq ..).symm.trans hid
  | @create id origin created hfresh =>
    refine ⟨fun id' place hid => ?_, fun r => (h.agrees r).create id origin created⟩
    by_cases heq : id' = id
    · subst heq
      have hself : Function.update s.sessions id' (some s.heap.length) id' =
          some s.heap.length := Function.update_self ..
      obtain rfl := Option.some.inj (hself.symm.trans hid)
      exact ⟨_, List.getElem?_concat_length, rfl⟩
    · exact exists_append (h.mapped id' place ((Function.update_of_ne heq ..).symm.trans hid))
  | background ha he hact =>
    obtain ⟨⟨hid, -⟩, -⟩ := Entry.act_eq_some hact
    exact ⟨fun id p hp => exists_set he hid (h.mapped id p hp),
      fun r => (h.agrees r).other he hact (by simp)⟩
  | @moves a r stage readers hlive hhistory =>
    refine ⟨h.mapped, (Function.forall_update_iff s.stage
      fun r' stage => Agrees (rq r') s.heap r' stage).mpr ⟨?_, fun r' _ => h.agrees r'⟩⟩
    refine (h.agrees r).moves hlive (hhistory.imp_right ?_)
    rintro ⟨hnone, q, hq, hnew⟩
    exact ⟨hnone, q, h.mapped _ q hq, hnew⟩
  | @acts a r place done act stage readers e e' hbefore hlive he hact hafter htouch hanswer =>
    obtain ⟨⟨hid, -⟩, -⟩ := Entry.act_eq_some hact
    refine ⟨fun id p hp => exists_set he hid (h.mapped id p hp),
      (Function.forall_update_iff s.stage fun r' stage =>
        Agrees (rq r') (s.heap.set place e') r' stage).mpr ⟨?_, fun r' hr' => ?_⟩⟩
    · refine (h.agrees r).acts hlive hbefore he hact hafter fun hans => ?_
      -- neither a touch nor the first half of an abort is what a request is answered for
      rcases hanswer with hisTouch | hstore | hreply
      · exact absurd (hans.1.symm.trans hisTouch) (by simp)
      · exact absurd hstore hans.2
      · exact hreply
    · exact (h.agrees r').other he hact (by simpa using fun heq => hr' heq.symm)

/-- **A session stays where it is**, and its log grows. -/
theorem Did.grows (hdid : Did ttl rq s a s') {place : ℕ} {e : Entry}
    (he : s.heap[place]? = some e) :
    ∃ e', s'.heap[place]? = some e' ∧ e'.start = e.start ∧ e.object.log <+: e'.object.log := by
  have hset : ∀ {q : ℕ} {x x' : Entry} {who : Option ℕ} {act : Action}, s.heap[q]? = some x →
      x.act who act = some x' → ∃ e', (s.heap.set q x')[place]? = some e' ∧
        e'.start = e.start ∧ e.object.log <+: e'.object.log := by
    intro q x x' who act hx hact
    obtain ⟨⟨-, hstart⟩, -, hlog, -⟩ := Entry.act_eq_some hact
    by_cases heq : q = place
    · -- this very session: its log is one entry longer
      subst heq
      obtain rfl := Option.some.inj (he.symm.trans hx)
      exact ⟨x', (getElem?_set_eq_some hx).mpr (Or.inl ⟨rfl, rfl⟩), hstart,
        hlog ▸ List.prefix_append _ _⟩
    · exact ⟨e, (getElem?_set_eq_some hx).mpr (Or.inr ⟨heq, he⟩), rfl, List.prefix_rfl⟩
  cases hdid with
  | background ha hx hact => exact hset hx hact
  | acts hbefore hlive hx hact hafter htouch hanswer => exact hset hx hact
  | create hfresh =>
    obtain ⟨hlt, -⟩ := List.getElem?_eq_some_iff.mp he
    exact ⟨e, (List.getElem?_append_left hlt).trans he, rfl, List.prefix_rfl⟩
  | _ => exact ⟨e, he, rfl, List.prefix_rfl⟩

/-- Over a run. -/
theorem grows_of_run {actions : List ServerAction}
    (hrun : Runs.run (step ttl rq) s actions = some s') {place : ℕ} {e : Entry}
    (he : s.heap[place]? = some e) :
    ∃ e', s'.heap[place]? = some e' ∧ e'.start = e.start ∧ e.object.log <+: e'.object.log := by
  refine Runs.run_invariant (motive := fun t => ∃ e', t.heap[place]? = some e' ∧
    e'.start = e.start ∧ e.object.log <+: e'.object.log) ?_ ⟨e, he, rfl, List.prefix_rfl⟩ hrun
  rintro t a t' ⟨e₁, he₁, hstart₁, hlog₁⟩ hstep
  obtain ⟨e₂, he₂, hstart₂, hlog₂⟩ := (did hstep).grows he₁
  exact ⟨e₂, he₂, hstart₂.trans hstart₁, hlog₁.trans hlog₂⟩

/-- **In every run.** -/
theorem serial_of_run {actions : List ServerAction}
    (hrun : Runs.run (step ttl rq) init actions = some s) : Serial rq s :=
  Runs.run_invariant (fun _ _ _ h hstep => h.did (did hstep)) serial_init hrun

/-- **The session at a place is served one request after the other**, in the order of its log:
its state is where the log leads; the log has the steps of its own requests, each request's in
their order and no more than its stage says; and who has been answered, has been answered what the
session answers at that point of the log. -/
structure InTurn (rq : ℕ → Request) (s : Server) (place : ℕ) (e : Entry) : Prop where
  state : Runs.run World.step e.start (e.object.log.map Prod.snd) = some e.world
  own : ∀ r, e.object.stepsOf (some r) = (s.stage r).doneOn (rq r).route place
  named : ∀ r done, (s.stage r).history (rq r).route = some (place, done) → e.id = (rq r).id
  answered : ∀ r time response, s.stage r = .answered (some (place, time)) response →
    response ≠ .internalError → ∃ (n : ℕ) (reply : Reply),
      e.object.log[n]? = some (some r, (rq r).route.action) ∧
        (Runs.answers World.step World.reply e.start (e.object.log.map Prod.snd))[n]? =
          some (some reply) ∧
        response = (rq r).route.respond reply

/-- What a request that has been answered has done. -/
theorem doneOn_answered {route : Route} {place time : ℕ} {response : Response}
    (h : response ≠ .internalError) :
    (Stage.answered (some (place, time)) response).doneOn route place =
      .touch time :: (route.before ++ [route.action]) := by
  rw [Stage.doneOn, Stage.history, if_neg h]
  exact if_pos rfl

/-- The steps of a request are in the log. -/
theorem exists_getElem?_log {e : Entry} {r : ℕ} {act : Action}
    (h : act ∈ e.object.stepsOf (some r)) : ∃ n : ℕ, e.object.log[n]? = some (some r, act) := by
  obtain ⟨⟨who, act'⟩, hmem, rfl⟩ := List.mem_map.mp h
  obtain ⟨hmem, hwho⟩ := List.mem_filter.mp hmem
  obtain rfl : who = some r := by simpa using hwho
  exact List.getElem?_of_mem hmem

/-- A request is answered for its action. -/
theorem answers_action (route : Route) : route.action.Answers := by
  cases route <;> exact ⟨rfl, by simp [Route.action]⟩

/-- **The invariant says so.** -/
theorem Serial.inTurn (h : Serial rq s) {place : ℕ} {e : Entry}
    (he : s.heap[place]? = some e) : InTurn rq s place e where
  state := e.run_log
  own r := (h.agrees r).done place e he
  named r done hr := by
    obtain ⟨e', he', hid⟩ := (h.agrees r).found place done hr
    obtain rfl := Option.some.inj (he.symm.trans he')
    exact hid
  answered r time response hstage hne := by
    have hmem : (rq r).route.action ∈ e.object.stepsOf (some r) := by
      rw [(h.agrees r).done place e he, hstage, doneOn_answered hne]
      simp
    obtain ⟨n, hn⟩ := exists_getElem?_log hmem
    obtain ⟨time', reply, hreply, hanswer⟩ :=
      (h.agrees r).answered place e n _ he hn (answers_action _)
    obtain ⟨-, hresponse⟩ := Stage.answered.inj (hstage.symm.trans hanswer)
    exact ⟨n, reply, hn, hreply, hresponse⟩

end Server

end EvmDebugger
