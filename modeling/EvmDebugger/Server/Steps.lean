import EvmDebugger.Server.Serial
import Mathlib.Data.Finset.Card

/-!
# Many steps at once

The requests for a session are served in the order of its log, and so what any number of them do
together is a matter of the session alone. For `step_into` this comes to counting: each step adds
one to the index, up to the end (`EvmDebugger.World.Ok.ready_run`), and the number of steps that
come before its own tells a request which index it is shown.

That no update is lost, and none is made twice, is that there are as many steps in the log as there
are requests (`EvmDebugger.Server.StepsOnly.once`); that no two requests are shown the same step is
that they take turns (`Logged.exists_turn`). `EvmDebugger.requests_serial` has both, for every
interleaving of any requests for any sessions.
-/

namespace EvmDebugger

/-- The commands that move a session in another way than `step_into`, or end it. -/
def Action.isOther : Action → Bool
  | stepOver | continueExec | abortStore | abortWrite => true
  | _ => false

namespace World

variable {o : Origin} {w w' : World} {snapshots : List StepSnapshot} {i : ℕ}
  {result : Option ExecutionResultInfo}

/-- **What `step_into` does to a session with a trace**, and that nothing else does anything. -/
theorem Ok.ready_step (hok : Ok o w) {a : Action} (hs : w.step a = some w')
    (hready : w.session.data = .ready snapshots i result) (hno : a.isOther = false) :
    w'.session.data =
      .ready snapshots (if a = .stepInto then min (i + 1) snapshots.length else i) result := by
  cases a with
  | stepInto =>
    obtain rfl := Option.some.inj hs
    show w.session.data.stepInto.1 = _
    rw [hready, if_pos rfl]
    rfl
  | stepOver => exact absurd hno (by simp [Action.isOther])
  | continueExec => exact absurd hno (by simp [Action.isOther])
  | abortStore => exact absurd hno (by simp [Action.isOther])
  | abortWrite => exact absurd hno (by simp [Action.isOther])
  | waitTake =>
    rw [World.step] at hs
    split at hs
    · exact Option.some.inj hs ▸ hready
    · exact Option.some.inj hs ▸ hready
  | waitRecv caller =>
    obtain ⟨-, got, -, rfl⟩ := waitRecv_eq_some hs
    exact hready
  | waitPublish caller =>
    -- nobody waits for a trace that is there
    obtain ⟨msg, hmsg, -⟩ := waitPublish_eq_some hs
    obtain ⟨-, -, -, -, hwaiting, -⟩ := hok.waiter hmsg
    rw [hready] at hwaiting
    exact absurd hwaiting (by simp [SessionData.Waiting])
  | send msg =>
    obtain ⟨-, -, rfl⟩ := send_eq_some hs
    exact hready
  | disconnect =>
    obtain ⟨-, rfl⟩ := disconnect_eq_some hs
    exact hready
  | touch _ | currentState | getTraceSteps | snapshotsForCache =>
    exact Option.some.inj hs ▸ hready

/-- **Over a run**, the index is increased once for each step, up to the end. -/
theorem Ok.ready_run (hok : Ok o w) {actions : List Action}
    (hrun : Runs.run World.step w actions = some w')
    (hready : w.session.data = .ready snapshots i result)
    (hno : ∀ a ∈ actions, a.isOther = false) :
    w'.session.data =
      .ready snapshots (min (i + actions.count .stepInto) snapshots.length) result := by
  induction actions generalizing w i with
  | nil =>
    obtain rfl := Option.some.inj hrun
    have hindex : i ≤ snapshots.length := by
      have hidx := hok.indexOk
      rwa [hready] at hidx
    rw [hready, List.count_nil, Nat.add_zero, Nat.min_eq_left hindex]
  | cons a actions ih =>
    rw [Runs.run_cons, Option.bind_eq_some_iff] at hrun
    obtain ⟨w₁, hstep, hrun⟩ := hrun
    -- once at the end, further steps stay there: `min` absorbs them
    have hnext := hok.ready_step hstep hready (hno a List.mem_cons_self)
    rw [ih (hok.step hstep) hrun hnext fun b hb => hno b (List.mem_cons_of_mem a hb),
      List.count_cons]
    by_cases ha : a = .stepInto
    · rw [if_pos ha, if_pos (by simpa using ha)]
      congr 1
      omega
    · rw [if_neg ha, if_neg (by simpa using ha), Nat.add_zero]

/-- What a step is answered, after some others. -/
theorem Ok.reply_stepInto (hok : Ok o w) {actions : List Action}
    (hrun : Runs.run World.step w actions = some w')
    (hready : w.session.data = .ready snapshots i result)
    (hno : ∀ a ∈ actions, a.isOther = false) :
    w'.reply .stepInto = some (.state (SessionData.stateAt snapshots
      (min (i + actions.count .stepInto + 1) snapshots.length) result)) := by
  have hdata := hok.ready_run hrun hready hno
  rw [reply, hdata]
  show some (Reply.state (SessionData.stateAt snapshots
    (min (min (i + actions.count .stepInto) snapshots.length + 1) snapshots.length) result)) = _
  congr 3
  omega

end World

/-! ### Requests that step the session -/

/-- What has been done to a session since. -/
def Entry.since (e' e : Entry) : List (Option ℕ × Action) :=
  e'.object.log.drop e.object.log.length

/-- **Some requests step the session at a place, and nobody moves it otherwise**: between two states
of the server, each of the requests, which had not been answered before, has been answered by the
session. -/
structure Server.StepsOnly (rq : ℕ → Request) (s s' : Server) (place : ℕ) (e e' : Entry)
    (R : Finset ℕ) : Prop where
  route : ∀ r ∈ R, (rq r).route = .stepInto
  pending : ∀ r ∈ R, (s.stage r).isAnswered = false
  served : ∀ r ∈ R, ∃ time response,
    s'.stage r = .answered (some (place, time)) response ∧ response ≠ .internalError
  noOther : ∀ entry ∈ e'.since e, entry.2.isOther = false
  noMore : ∀ who, (who, Action.stepInto) ∈ e'.since e → ∃ r ∈ R, who = some r

/-- A request that has not been answered has not stepped anything. -/
theorem Stage.count_doneOn {stage : Stage} (hlive : stage.isAnswered = false) (place : ℕ) :
    (stage.doneOn .stepInto place).count .stepInto = 0 := by
  have hone : ∀ q done, stage.history .stepInto = some (q, done) →
      Action.stepInto ∉ done := by
    intro q done hq
    cases stage with
    | new => exact absurd hq (by simp [history])
    | answered place response => exact absurd hlive (by simp [isAnswered])
    | found q' | clocked q' time | touched q' time | released q' time | aborting q' time =>
      obtain ⟨-, rfl⟩ := Prod.mk.inj (Option.some.inj hq)
      simp [Route.before]
  rw [List.count_eq_zero, doneOn]
  split
  · next q done hq =>
    split
    · exact hone q done hq
    · exact List.not_mem_nil
  · exact List.not_mem_nil

namespace Entry

variable {e e' : Entry}

/-- What has been done to a session since, leads from where it was to where it is. -/
theorem run_since (hstart : e'.start = e.start) (hlog : e.object.log <+: e'.object.log) :
    Runs.run World.step e.world ((e'.since e).map Prod.snd) = some e'.world := by
  obtain ⟨more, hmore⟩ := hlog
  have hsince : e'.since e = more := by rw [since, ← hmore, List.drop_left]
  have hrun := e'.run_log
  rw [hstart, ← hmore, List.map_append, Runs.run_append, e.run_log] at hrun
  rw [hsince]
  exact hrun

/-- The log, and what has been done since. -/
theorem log_eq_append (hlog : e.object.log <+: e'.object.log) :
    e'.object.log = e.object.log ++ e'.since e := by
  obtain ⟨more, hmore⟩ := hlog
  rw [since, ← hmore, List.drop_left]

/-- What somebody has done to the session, and what since. -/
theorem stepsOf_since (hlog : e.object.log <+: e'.object.log) (who : Option ℕ) :
    e'.object.stepsOf who = e.object.stepsOf who ++ Logged.takenBy who (e'.since e) := by
  show Logged.takenBy who e'.object.log = _
  rw [log_eq_append hlog, Logged.takenBy_append]
  rfl

/-- **What a step since was answered**: what the session answers after the steps since before it. -/
theorem answer_since (hstart : e'.start = e.start) (hlog : e.object.log <+: e'.object.log) {n : ℕ}
    {who : Option ℕ} {act : Action} (hn : (e'.since e)[n]? = some (who, act)) :
    ∃ w, Runs.run World.step e.world (((e'.since e).take n).map Prod.snd) = some w ∧
      (e'.object.answers World.reply)[e.object.log.length + n]? = some (w.reply act) := by
  have hrun := run_since hstart hlog
  rw [← List.take_append_drop n (e'.since e), List.map_append] at hrun
  obtain ⟨w, hw, -⟩ := Runs.run_append_eq_some.mp hrun
  have hanswers : e'.object.answers World.reply =
      e.object.answers World.reply ++
        Runs.answers World.step World.reply e.world ((e'.since e).map Prod.snd) := by
    show Runs.answers World.step World.reply e'.start (e'.object.log.map Prod.snd) = _
    rw [hstart, log_eq_append hlog, List.map_append, Runs.answers_append e.run_log]
    rfl
  refine ⟨w, hw, ?_⟩
  rw [hanswers, ← Logged.length_answers e.object World.reply,
    List.getElem?_append_right (Nat.le_add_right _ _), Nat.add_sub_cancel_left]
  refine Runs.getElem?_answers ?_ ?_
  · rw [← List.map_take]
    exact hw
  · rw [List.getElem?_map, hn]
    rfl

end Entry

namespace Server

variable {rq : ℕ → Request} {s s' : Server} {place : ℕ} {e e' : Entry} {R : Finset ℕ}

/-- **Each request steps the session once.** -/
theorem StepsOnly.once (h : StepsOnly rq s s' place e e' R) (hserial : Serial rq s)
    (hserial' : Serial rq s') (he : s.heap[place]? = some e) (he' : s'.heap[place]? = some e')
    (hlog : e.object.log <+: e'.object.log) {r : ℕ} (hr : r ∈ R) :
    (Logged.takenBy (some r) (e'.since e)).count .stepInto = 1 := by
  obtain ⟨time, response, hstage, hne⟩ := h.served r hr
  have hbefore : (e.object.stepsOf (some r)).count .stepInto = 0 := by
    rw [(hserial.agrees r).done place e he, h.route r hr]
    exact Stage.count_doneOn (h.pending r hr) place
  have hafter : (e'.object.stepsOf (some r)).count .stepInto = 1 := by
    rw [(hserial'.agrees r).done place e' he', hstage, doneOn_answered hne, h.route r hr]
    rfl
  rwa [Entry.stepsOf_since hlog, List.count_append, hbefore, Nat.zero_add] at hafter

/-- **Nothing is lost, and nothing is done twice**: the session has advanced once for each request,
and the requests have been answered in turn. -/
theorem StepsOnly.turns (h : StepsOnly rq s s' place e e' R) (hserial : Serial rq s)
    (hserial' : Serial rq s') (he : s.heap[place]? = some e) (he' : s'.heap[place]? = some e')
    (hstart : e'.start = e.start) (hlog : e.object.log <+: e'.object.log)
    {snapshots : List StepSnapshot} {i : ℕ} {result : Option ExecutionResultInfo}
    (hready : e.world.session.data = .ready snapshots i result) :
    e'.world.session.data = .ready snapshots (min (i + R.card) snapshots.length) result ∧
      ∃ turn : ℕ → ℕ, Set.InjOn turn R ∧ ∀ r ∈ R, (1 ≤ turn r ∧ turn r ≤ R.card) ∧
        ∃ time, s'.stage r = .answered (some (place, time))
          ⟨200, .reply (.state (SessionData.stateAt snapshots
            (min (i + turn r) snapshots.length) result))⟩ := by
  have hok : World.Ok e.origin e.world := World.ok_of_run e.run_log
  have hnoOther : ∀ a ∈ (e'.since e).map Prod.snd, a.isOther = false := by
    intro a ha
    obtain ⟨entry, hentry, rfl⟩ := List.mem_map.mp ha
    exact h.noOther entry hentry
  -- the clients of the log are requests and others; the requests of `R` are these
  have hone : ∀ who ∈ R.map .some, (Logged.takenBy who (e'.since e)).count .stepInto = 1 := by
    intro who hwho
    obtain ⟨r, hr, rfl⟩ := Finset.mem_map.mp hwho
    exact h.once hserial hserial' he he' hlog hr
  have hall : ∀ who, (who, Action.stepInto) ∈ e'.since e → who ∈ R.map .some := by
    intro who hwho
    obtain ⟨r, hr, rfl⟩ := h.noMore who hwho
    exact Finset.mem_map_of_mem _ hr
  refine ⟨?_, ?_⟩
  · rw [hok.ready_run (Entry.run_since hstart hlog) hready hnoOther,
      Logged.count_eq_card hone hall, Finset.card_map]
  · obtain ⟨turn, hinj, hturn⟩ := Logged.exists_turn hone hall
    refine ⟨fun r => turn (some r), ?_, fun r hr => ?_⟩
    · intro r hr r' hr' heq
      exact Option.some.inj (hinj (Finset.mem_map_of_mem _ hr) (Finset.mem_map_of_mem _ hr') heq)
    · -- the step of `r` is the `n`th of those taken since, and its turn counts the ones before
      obtain ⟨hbound, n, hn, hcount⟩ := hturn (some r) (Finset.mem_map_of_mem _ hr)
      rw [Finset.card_map] at hbound
      obtain ⟨w, hw, hanswer⟩ := Entry.answer_since hstart hlog hn
      have hlogn : e'.object.log[e.object.log.length + n]? = some (some r, .stepInto) := by
        rw [← List.getElem?_drop]
        exact hn
      obtain ⟨time, reply, hreply, hstage⟩ :=
        (hserial'.agrees r).answered place e' _ _ he' hlogn ⟨rfl, by simp⟩
      have hstep := hok.reply_stepInto hw hready fun a ha =>
        hnoOther a ((List.take_sublist n _).map Prod.snd |>.subset ha)
      rw [hanswer, hstep, Nat.add_assoc, ← hcount] at hreply
      obtain rfl := Option.some.inj (Option.some.inj hreply)
      refine ⟨hbound, time, ?_⟩
      rw [hstage, h.route r hr]
      rfl

end Server

/-- **Requests are served one after the other, each session's its own.** In every run of the server,
and for every session: its state and its answers are what its log makes of it, and the log has the
steps of its own requests and no others. In particular, between any two states of a run, requests
that step a session with a trace, when nobody moves it otherwise, leave it as many steps further,
or at the end; they are answered in turn; and no two of them are shown the same step. -/
theorem requests_serial {ttl : ℕ} {rq : ℕ → Request} {before after : List ServerAction}
    {s s' : Server} (hbefore : Runs.run (Server.step ttl rq) .init before = some s)
    (hafter : Runs.run (Server.step ttl rq) s after = some s') :
    (∀ place e', s'.heap[place]? = some e' → Server.InTurn rq s' place e') ∧
      ∀ (place : ℕ) (e e' : Entry) (R : Finset ℕ) (snapshots : List StepSnapshot) (i : ℕ)
        (result : Option ExecutionResultInfo),
        s.heap[place]? = some e → s'.heap[place]? = some e' →
        Server.StepsOnly rq s s' place e e' R →
        e.world.session.data = .ready snapshots i result →
        e'.world.session.data = .ready snapshots (min (i + R.card) snapshots.length) result ∧
          ∃ turn : ℕ → ℕ, Set.InjOn turn R ∧
            (∀ r ∈ R, (1 ≤ turn r ∧ turn r ≤ R.card) ∧
              ∃ time, s'.stage r = .answered (some (place, time))
                ⟨200, .reply (.state (SessionData.stateAt snapshots
                  (min (i + turn r) snapshots.length) result))⟩) ∧
            ∀ r ∈ R, ∀ r' ∈ R, i + turn r < snapshots.length →
              min (i + turn r) snapshots.length = min (i + turn r') snapshots.length →
              r = r' := by
  have hserial := Server.serial_of_run hbefore
  have hserial' := Server.serial_of_run (Runs.run_trans hbefore hafter)
  refine ⟨fun place e' he' => hserial'.inTurn he',
    fun place e e' R snapshots i result he he' honly hready => ?_⟩
  obtain ⟨e₁, he₁, hstart, hlog⟩ := Server.grows_of_run hafter he
  obtain rfl := Option.some.inj (he'.symm.trans he₁)
  obtain ⟨hdata, turn, hinj, hturn⟩ :=
    honly.turns hserial hserial' he he' hstart hlog hready
  refine ⟨hdata, turn, hinj, hturn, fun r hr r' hr' hlt hsame => hinj hr hr' ?_⟩
  omega

/-- Everybody wants the session `a` to advance a step. -/
def stepRequests (_ : ℕ) : Request := ⟨.stepInto, "a"⟩

/-- The session, with a trace of two steps. -/
def stepBefore : List ServerAction :=
  [.create "a" (.fromCache twoStepsTrace (some sampleStop.info)) 0]

/-- Two requests at once, which overtake each other. -/
def stepTogether : List ServerAction :=
  [.lookup 0, .lookup 1, .readClock 1, .readClock 0, .storeTouch 0, .release 0, .storeTouch 1,
    .release 1, .perform 1, .perform 0]

/-- What they do to the session. -/
theorem run_stepTogether :
    ∃ s s' e e', Runs.run (Server.step 1800 stepRequests) .init stepBefore = some s ∧
      Runs.run (Server.step 1800 stepRequests) s stepTogether = some s' ∧
      s.heap[0]? = some e ∧ s'.heap[0]? = some e' ∧
      e.world.session.data = .ready twoStepsTrace 0 (some sampleStop.info) ∧
      e'.since e = [(some 0, .touch 0), (some 1, .touch 0), (some 1, .stepInto),
        (some 0, .stepInto)] ∧
      (∀ r, (s.stage r).isAnswered = false) ∧
      ∃ x y, s'.stage 0 = .answered (some (0, 0)) ⟨200, x⟩ ∧
        s'.stage 1 = .answered (some (0, 0)) ⟨200, y⟩ :=
  ⟨_, _, _, _, rfl, rfl, rfl, rfl, rfl, rfl, fun _ => rfl, _, _, rfl, rfl⟩

/-- They leave it two steps further. -/
theorem serial_stepTogether :
    ∃ s s' e', Runs.run (Server.step 1800 stepRequests) .init stepBefore = some s ∧
      Runs.run (Server.step 1800 stepRequests) s stepTogether = some s' ∧
      s'.heap[0]? = some e' ∧
      e'.world.session.data = .ready twoStepsTrace 2 (some sampleStop.info) := by
  obtain ⟨s, s', e, e', hs, hs', he, he', hready, hsince, hlive, x, y, hx, hy⟩ :=
    run_stepTogether
  have honly : Server.StepsOnly stepRequests s s' 0 e e' {0, 1} :=
    { route := fun _ _ => rfl
      pending := fun r _ => hlive r
      served := by
        intro r hr
        rcases Finset.mem_insert.mp hr with rfl | hr
        · exact ⟨0, _, hx, by simp [Response.internalError]⟩
        · obtain rfl := Finset.mem_singleton.mp hr
          exact ⟨0, _, hy, by simp [Response.internalError]⟩
      noOther := by
        rw [hsince]
        simp [Action.isOther]
      noMore := by
        rw [hsince]
        simp }
  exact ⟨s, s', e', hs, hs', he',
    ((requests_serial hs hs').2 0 e e' {0, 1} twoStepsTrace 0 _ he he' honly hready).1⟩

end EvmDebugger
