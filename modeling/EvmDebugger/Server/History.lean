import EvmDebugger.Replay.Listing
import EvmDebugger.Server.Serial

/-!
# What sessions have shown

Whoever asks for a session is told how it was when the request had its lock, and by the time the
answer arrives the session may be somewhere else, or aborted, or not even in the map any more. What
the answer says was true once, and that is something a client can rely on: the log of a session only
grows, so it does not become false.

A client sees a session through its answers, and there are two things it can see: the snapshot at
which the session was paused (`EvmDebugger.Server.Visited`), and the list of all steps
(`EvmDebugger.Server.HasTrace`). Of a session there is one trace, whenever it is asked for
(`EvmDebugger.Entry.HasTrace.unique`), and of a name there is one session
(`EvmDebugger.Server.Named`); so whatever is answered for the same name belongs together.
-/

namespace EvmDebugger

/-! ### One session -/

namespace SessionData

/-- The session shows this trace, or is aborted. -/
def Keeps (snapshots : List StepSnapshot) (result : Option ExecutionResultInfo)
    (data : SessionData) : Prop :=
  data = aborted ∨ ∃ i, data = ready snapshots i result

/-- **A session with a trace keeps it**, or is aborted. -/
theorem Keeps.moves {snapshots : List StepSnapshot} {result : Option ExecutionResultInfo}
    {data data' : SessionData} (h : Keeps snapshots result data) (hm : Moves data data') :
    Keeps snapshots result data' := by
  rcases hm with hserved | ⟨rfl, -⟩
  · rcases h with rfl | ⟨i, rfl⟩
    · exact Or.inl hserved
    · exact hserved.imp_right fun ⟨j, _, _, hj⟩ => ⟨j, hj⟩
  · exact absurd h (by simp [Keeps])

end SessionData

namespace Entry

variable {e e' : Entry}

/-- The session after so many entries of its log. -/
def after (e : Entry) (n : ℕ) : Option World :=
  Runs.run World.step e.start ((e.object.log.take n).map Prod.snd)

/-- After all of them, it is as it is now. -/
theorem after_length (e : Entry) : e.after e.object.log.length = some e.world := by
  rw [after, List.take_length]
  exact e.run_log

/-- **The session has had this trace.** -/
def HasTrace (e : Entry) (snapshots : List StepSnapshot) (result : Option ExecutionResultInfo) :
    Prop :=
  ∃ (n : ℕ) (w : World) (i : ℕ),
    e.after n = some w ∧ w.session.data = .ready snapshots i result

/-- **The session has been paused here.** -/
def Visited (e : Entry) (snap : StepSnapshot) : Prop :=
  ∃ (n : ℕ) (w : World), e.after n = some w ∧ w.session.data.PausedAt snap

/-- Where it has been paused is in its trace. -/
theorem Visited.hasTrace {snap : StepSnapshot} (h : e.Visited snap) :
    ∃ (snapshots : List StepSnapshot) (i : ℕ) (result : Option ExecutionResultInfo),
      e.HasTrace snapshots result ∧ snapshots[i]? = some snap := by
  obtain ⟨n, w, hw, snapshots, i, result, hdata, hsnap⟩ := h
  exact ⟨snapshots, i, result, ⟨n, w, i, hw, hdata⟩, hsnap⟩

/-- A session is what a session can be. -/
theorem ok_after {n : ℕ} {w : World} (h : e.after n = some w) : World.Ok e.origin w :=
  World.ok_of_run h

/-- From one entry of the log to a later one. -/
theorem run_after {m n : ℕ} {w w' : World} (hmn : m ≤ n) (hm : e.after m = some w)
    (hn : e.after n = some w') :
    ∃ actions, Runs.run World.step w actions = some w' := by
  have hsplit : e.object.log.take n = e.object.log.take m ++ (e.object.log.take n).drop m := by
    have htake := List.take_append_drop m (e.object.log.take n)
    rw [List.take_take, Nat.min_eq_left hmn] at htake
    exact htake.symm
  rw [after, hsplit, List.map_append, Runs.run_append_eq_some] at hn
  obtain ⟨u, hu, hrun⟩ := hn
  obtain rfl := Option.some.inj (hm.symm.trans hu)
  exact ⟨_, hrun⟩

/-- **A session that has had a trace keeps it.** -/
theorem keeps_after {m n : ℕ} {w w' : World} (hmn : m ≤ n) (hm : e.after m = some w)
    (hn : e.after n = some w') {snapshots : List StepSnapshot} {i : ℕ}
    {result : Option ExecutionResultInfo} (hdata : w.session.data = .ready snapshots i result) :
    w'.session.data.Keeps snapshots result := by
  obtain ⟨actions, hrun⟩ := run_after hmn hm hn
  have hkeeps := Runs.run_invariant
    (motive := fun w : World => World.Ok e.origin w ∧ w.session.data.Keeps snapshots result)
    (fun _ _ _ h hs => ⟨h.1.step hs, h.2.moves (h.1.moves hs)⟩)
    ⟨ok_after hm, Or.inr ⟨i, hdata⟩⟩ hrun
  exact hkeeps.2

/-- **A session has one trace.** -/
theorem HasTrace.unique {snapshots snapshots' : List StepSnapshot}
    {result result' : Option ExecutionResultInfo} (h : e.HasTrace snapshots result)
    (h' : e.HasTrace snapshots' result') : snapshots = snapshots' ∧ result = result' := by
  have hle : ∀ {m n : ℕ} {w w' : World} {s s' : List StepSnapshot} {i i' : ℕ}
      {r r' : Option ExecutionResultInfo}, m ≤ n → e.after m = some w → e.after n = some w' →
      w.session.data = .ready s i r → w'.session.data = .ready s' i' r' → s = s' ∧ r = r' := by
    intro m n w w' s s' i i' r r' hmn hm hn hw hw'
    rcases keeps_after hmn hm hn hw with habort | ⟨j, hj⟩
    · exact absurd (habort.symm.trans hw') (by simp)
    · obtain ⟨hs, -, hr⟩ := SessionData.ready.inj (hj.symm.trans hw')
      exact ⟨hs, hr⟩
  obtain ⟨m, w, i, hm, hw⟩ := h
  obtain ⟨n, w', i', hn, hw'⟩ := h'
  rcases Nat.le_total m n with hmn | hnm
  · exact hle hmn hm hn hw hw'
  · obtain ⟨hs, hr⟩ := hle hnm hn hm hw' hw
    exact ⟨hs.symm, hr.symm⟩

/-- The session has gone on since. -/
structure Later (e e' : Entry) : Prop where
  id : e'.id = e.id
  start : e'.start = e.start
  log : e.object.log <+: e'.object.log

theorem Later.refl (e : Entry) : Later e e := ⟨rfl, rfl, List.prefix_rfl⟩

theorem Later.trans {e₁ e₂ e₃ : Entry} (h₁ : Later e₁ e₂) (h₂ : Later e₂ e₃) : Later e₁ e₃ :=
  ⟨h₂.id.trans h₁.id, h₂.start.trans h₁.start, h₁.log.trans h₂.log⟩

/-- What a session has been through it has been through. -/
theorem Later.after (h : Later e e') {n : ℕ} {w : World} (hw : e.after n = some w) :
    ∃ m, e'.after m = some w := by
  refine ⟨(e.object.log.take n).length, ?_⟩
  have hprefix : e.object.log.take n <+: e'.object.log :=
    (List.take_prefix n e.object.log).trans h.log
  rw [Entry.after, ← List.prefix_iff_eq_take.mp hprefix, h.start]
  exact hw

theorem Later.hasTrace (h : Later e e') {snapshots : List StepSnapshot}
    {result : Option ExecutionResultInfo} (ht : e.HasTrace snapshots result) :
    e'.HasTrace snapshots result := by
  obtain ⟨n, w, i, hw, hdata⟩ := ht
  obtain ⟨m, hm⟩ := h.after hw
  exact ⟨m, w, i, hm, hdata⟩

theorem Later.visited (h : Later e e') {snap : StepSnapshot} (hv : e.Visited snap) :
    e'.Visited snap := by
  obtain ⟨n, w, hw, hpaused⟩ := hv
  obtain ⟨m, hm⟩ := h.after hw
  exact ⟨m, w, hm, hpaused⟩

end Entry

/-! ### All sessions -/

namespace Server

variable {ttl : ℕ} {rq : ℕ → Request} {s s' : Server} {a : ServerAction} {id : String}

/-- **A session of this name has had this trace.** -/
def HasTrace (s : Server) (id : String) (snapshots : List StepSnapshot) : Prop :=
  ∃ (place : ℕ) (e : Entry) (result : Option ExecutionResultInfo),
    s.heap[place]? = some e ∧ e.id = id ∧ e.HasTrace snapshots result

/-- **A session of this name has been paused here.** -/
def Visited (s : Server) (id : String) (snap : StepSnapshot) : Prop :=
  ∃ (place : ℕ) (e : Entry), s.heap[place]? = some e ∧ e.id = id ∧ e.Visited snap

/-- **No two sessions have the same name.** -/
def Named (s : Server) : Prop :=
  ∀ (p q : ℕ) (e e' : Entry), s.heap[p]? = some e → s.heap[q]? = some e' → e.id = e'.id → p = q

/-- A request that has not found a session has been told so. -/
def ToldSo (s : Server) : Prop :=
  ∀ r response, s.stage r = .answered none response → response = .notFound

/-- **A session goes on**, and keeps its name. -/
theorem Did.later (hdid : Did ttl rq s a s') {place : ℕ} {e : Entry}
    (he : s.heap[place]? = some e) : ∃ e', s'.heap[place]? = some e' ∧ e.Later e' := by
  have hname : ∃ x, s'.heap[place]? = some x ∧ x.id = e.id := by
    have hhere : ∃ x, s.heap[place]? = some x ∧ x.id = e.id := ⟨e, he, rfl⟩
    cases hdid with
    | background ha hx hact => exact exists_set hx (Entry.act_eq_some hact).1.1 hhere
    | acts hbefore hlive hx hact => exact exists_set hx (Entry.act_eq_some hact).1.1 hhere
    | create hfresh => exact exists_append hhere
    | _ => exact hhere
  obtain ⟨e', he', hstart, hlog⟩ := hdid.grows he
  obtain ⟨x, hx, hid⟩ := hname
  obtain rfl := Option.some.inj (he'.symm.trans hx)
  exact ⟨e', he', hid, hstart, hlog⟩

/-- What sessions have been through they have been through. -/
theorem HasTrace.did {snapshots : List StepSnapshot} (h : s.HasTrace id snapshots)
    (hdid : Did ttl rq s a s') : s'.HasTrace id snapshots := by
  obtain ⟨place, e, result, he, hid, ht⟩ := h
  obtain ⟨e', he', hlater⟩ := hdid.later he
  exact ⟨place, e', result, he', hlater.id.trans hid, hlater.hasTrace ht⟩

theorem Visited.did {snap : StepSnapshot} (h : s.Visited id snap) (hdid : Did ttl rq s a s') :
    s'.Visited id snap := by
  obtain ⟨place, e, he, hid, hv⟩ := h
  obtain ⟨e', he', hlater⟩ := hdid.later he
  exact ⟨place, e', he', hlater.id.trans hid, hlater.visited hv⟩

/-- **Where a session has been paused is in its trace**, of which there is one to a name. -/
theorem Named.getElem?_of_visited (h : s.Named) {snapshots : List StepSnapshot}
    (ht : s.HasTrace id snapshots) {snap : StepSnapshot} (hv : s.Visited id snap) :
    ∃ i : ℕ, snapshots[i]? = some snap := by
  obtain ⟨p, e, result, he, hid, ht⟩ := ht
  obtain ⟨q, e', he', hid', hv⟩ := hv
  obtain rfl := h p q e e' he he' (hid.trans hid'.symm)
  obtain rfl := Option.some.inj (he.symm.trans he')
  obtain ⟨snapshots', i, result', ht', hsnap⟩ := hv.hasTrace
  obtain ⟨rfl, -⟩ := ht.unique ht'
  exact ⟨i, hsnap⟩

/-! ### Names -/

/-- Names stay different where sessions are replaced by later ones. -/
theorem Named.set (h : s.Named) {place : ℕ} {e e' : Entry} (he : s.heap[place]? = some e)
    (hid : e'.id = e.id) :
    ∀ (p q : ℕ) (x y : Entry), (s.heap.set place e')[p]? = some x →
      (s.heap.set place e')[q]? = some y → x.id = y.id → p = q := by
  have hback : ∀ (p : ℕ) (x : Entry), (s.heap.set place e')[p]? = some x →
      ∃ x₀, s.heap[p]? = some x₀ ∧ x.id = x₀.id := by
    intro p x hx
    rcases (getElem?_set_eq_some he).mp hx with ⟨rfl, rfl⟩ | ⟨-, hx⟩
    · exact ⟨e, he, hid⟩
    · exact ⟨x, hx, rfl⟩
  intro p q x y hx hy hxy
  obtain ⟨x₀, hx₀, hidx⟩ := hback p x hx
  obtain ⟨y₀, hy₀, hidy⟩ := hback q y hy
  exact h p q x₀ y₀ hx₀ hy₀ (hidx.symm.trans (hxy.trans hidy))

/-- **A step keeps the names apart**: a new session is given a new one. -/
theorem Named.did (h : s.Named) (hdid : Did ttl rq s a s') : s'.Named := by
  cases hdid with
  | background ha hx hact => exact h.set hx (Entry.act_eq_some hact).1.1
  | acts hbefore hlive hx hact => exact h.set hx (Entry.act_eq_some hact).1.1
  | @create new origin created hfresh =>
    have hmem : ∀ (p : ℕ) (x : Entry), s.heap[p]? = some x → x.id ≠ new :=
      fun p x hx => hfresh x (List.mem_of_getElem? hx)
    intro p q x y hx hy hxy
    rcases Runs.getElem?_snoc hx with ⟨-, hx⟩ | ⟨rfl, rfl⟩ <;>
      rcases Runs.getElem?_snoc hy with ⟨-, hy⟩ | ⟨rfl, rfl⟩
    · exact h p q x y hx hy hxy
    · exact absurd hxy (hmem p x hx)
    · exact absurd hxy.symm (hmem q y hy)
    · rfl
  | _ => exact h

/-! ### What requests have been answered -/

/-- A request comes to a stage in which it has been told the truth. -/
theorem ToldSo.update (h : s.ToldSo) {r : ℕ} {stage : Stage}
    (hstage : ∀ response, stage = .answered none response → response = .notFound)
    (hs : s'.stage = Function.update s.stage r stage) : s'.ToldSo := by
  intro r' response hr'
  rw [hs] at hr'
  by_cases heq : r' = r
  · subst heq
    rw [Function.update_self] at hr'
    exact hstage response hr'
  · rw [Function.update_of_ne heq] at hr'
    exact h r' response hr'

/-- Taking the lock of a session is not an answer. -/
theorem stage_act {place : ℕ} {who : Option ℕ} {act : Action}
    (h : s.act place who act = some s') : s'.stage = s.stage := by
  obtain ⟨-, -, -, -, rfl⟩ := act_eq_some h
  rfl

/-- A request whose session answers has found it. -/
theorem ToldSo.complete (h : s.ToldSo) {r place time : ℕ}
    (hs : s.complete rq r place time = some s') : s'.ToldSo := by
  rw [Server.complete] at hs
  split at hs
  · exact absurd hs (by simp)
  · split at hs
    · exact absurd hs (by simp)
    · obtain ⟨t, hact, rfl⟩ := Option.map_eq_some_iff.mp hs
      refine h.update (r := r) ?_ (congrArg (Function.update · r _) (stage_act hact))
      exact fun response hr => absurd hr (by simp)

/-- **Only who looks for a session is told that there is none.** -/
theorem ToldSo.step (h : s.ToldSo) (hs : s.step ttl rq a = some s') : s'.ToldSo := by
  -- `lookup` apart, whatever stage a request comes to, its session has been found
  have hfound : ∀ {t : Server} {r : ℕ} {stage : Stage},
      (∀ response, stage ≠ .answered none response) →
        t.stage = Function.update s.stage r stage → t.ToldSo :=
    fun hne ht => h.update (fun response hr => absurd hr (hne response)) ht
  cases a with
  | lookup r =>
    rw [Server.step] at hs
    split at hs
    · split at hs <;> obtain rfl := Option.some.inj hs
      · exact h.update (r := r) (fun response hr => (Stage.answered.inj hr).2.symm) rfl
      · exact hfound (r := r) (by simp) rfl
    · exact absurd hs (by simp)
  | readClock r =>
    rw [Server.step] at hs
    split at hs
    · obtain rfl := Option.some.inj hs
      exact hfound (r := r) (by simp) rfl
    · exact absurd hs (by simp)
  | storeTouch r =>
    rw [Server.step] at hs
    split at hs
    · obtain ⟨t, hact, rfl⟩ := Option.map_eq_some_iff.mp hs
      exact hfound (r := r) (by simp) (congrArg (Function.update · r _) (stage_act hact))
    · exact absurd hs (by simp)
  | release r =>
    rw [Server.step] at hs
    split at hs
    · split at hs
      · exact absurd hs (by simp)
      · obtain rfl := Option.some.inj hs
        exact hfound (r := r) (by simp) rfl
    · exact absurd hs (by simp)
  | perform r =>
    rw [Server.step] at hs
    split at hs
    · split at hs
      · obtain ⟨t, hcomplete, rfl⟩ := Option.map_eq_some_iff.mp hs
        exact (h.complete hcomplete : t.ToldSo)
      · exact absurd hs (by simp)
    · split at hs
      · obtain ⟨t, hact, rfl⟩ := Option.map_eq_some_iff.mp hs
        exact hfound (r := r) (by simp) (congrArg (Function.update · r _) (stage_act hact))
      · exact h.complete hs
    · exact h.complete hs
    · exact absurd hs (by simp)
  | joinError r =>
    rw [Server.step] at hs
    split at hs
    · split at hs
      · obtain rfl := Option.some.inj hs
        exact hfound (r := r) (by simp) rfl
      · exact absurd hs (by simp)
    · exact absurd hs (by simp)
  | tick secs =>
    obtain rfl := Option.some.inj hs
    exact h
  | create id origin created =>
    rw [Server.step] at hs
    split at hs
    · obtain rfl := Option.some.inj hs
      exact h
    · exact absurd hs (by simp)
  | background place act =>
    rw [Server.step] at hs
    split at hs
    · intro r response hr
      exact h r response (stage_act hs ▸ hr)
    · exact absurd hs (by simp)
  | gcStart | gcCollected | gcEnd =>
    rw [Server.step] at hs
    split at hs
    · obtain rfl := Option.some.inj hs
      exact h
    · exact absurd hs (by simp)
  | gcRead id =>
    rw [Server.step] at hs
    split at hs
    · split at hs
      · exact absurd hs (by simp)
      · split at hs <;> obtain rfl := Option.some.inj hs <;> exact h
    · exact absurd hs (by simp)
  | gcRemove =>
    rw [Server.step] at hs
    split at hs
    · split at hs
      · obtain rfl := Option.some.inj hs
        exact h
      · exact absurd hs (by simp)
    · exact absurd hs (by simp)

/-- **The invariant of a server and its answers.** -/
structure Answering (rq : ℕ → Request) (s : Server) : Prop where
  serial : Serial rq s
  named : s.Named
  toldSo : s.ToldSo

theorem answering_init : Answering rq init where
  serial := serial_init
  named _ _ _ _ h := absurd h (by simp [init])
  toldSo _ _ h := absurd h (by simp [init])

/-- **A step keeps it.** -/
theorem Answering.step (h : Answering rq s) (hs : s.step ttl rq a = some s') :
    Answering rq s' where
  serial := h.serial.did (did hs)
  named := h.named.did (did hs)
  toldSo := h.toldSo.step hs

/-- What a handler responds with tells what the session replied. -/
theorem reply_of_respond {route : Route} {reply reply' : Reply}
    (h : (route.respond reply').body = .reply reply) : reply' = reply := by
  cases route with
  | abortSession => exact absurd h (by simp [Route.respond])
  | getSession | getTraceSteps | stepInto | stepOver | continueExec => exact Body.reply.inj h

/-- **What a request has been answered**, if not with an error, its session has replied: at some
point of its log, to the action of the request. -/
theorem Answering.responded (h : Answering rq s) {r : ℕ} {found : Option (ℕ × ℕ)}
    {response : Response} (hstage : s.stage r = .answered found response)
    (hbody : ∀ message, response.body ≠ .error message) :
    ∃ (place : ℕ) (e : Entry) (n : ℕ) (w w' : World) (reply : Reply), s.heap[place]? = some e ∧
      e.id = (rq r).id ∧ e.after n = some w ∧ e.after (n + 1) = some w' ∧
      w.step (rq r).route.action = some w' ∧ w.reply (rq r).route.action = some reply ∧
      response = (rq r).route.respond reply := by
  cases found with
  | none =>
    have hnotFound := congrArg Response.body (h.toldSo r response hstage)
    exact absurd hnotFound (hbody "session not found")
  | some found =>
    obtain ⟨place, time⟩ := found
    have hne : response ≠ .internalError := fun heq =>
      hbody "internal error" (congrArg Response.body heq)
    obtain ⟨e, he, hid⟩ := (h.serial.agrees r).found place _ (by rw [hstage]; rfl)
    obtain ⟨n, reply, hn, hanswer, rfl⟩ :=
      (h.serial.inTurn he).answered r time response hstage hne
    have hrun := e.run_log
    rw [← List.take_append_drop (n + 1) e.object.log, List.map_append,
      Runs.run_append_eq_some] at hrun
    obtain ⟨w', hw', -⟩ := hrun
    have htake : e.object.log.take (n + 1) =
        e.object.log.take n ++ [(some r, (rq r).route.action)] := by
      rw [List.take_add_one, hn]
      rfl
    have hlast := hw'
    rw [htake, List.map_append] at hlast
    obtain ⟨w, hw, hstep⟩ := Runs.run_snoc_eq_some.mp hlast
    refine ⟨place, e, n, w, w', reply, he, hid, hw, hw', hstep, ?_, rfl⟩
    have hentry : (e.object.log.map Prod.snd)[n]? = some (rq r).route.action := by
      rw [List.getElem?_map, hn]
      rfl
    rw [List.map_take] at hw
    exact Option.some.inj ((Runs.getElem?_answers hw hentry).symm.trans hanswer)

/-- **What a request has been replied**, its session has replied. -/
theorem Answering.replied (h : Answering rq s) {r : ℕ} {found : Option (ℕ × ℕ)}
    {response : Response} (hstage : s.stage r = .answered found response) {reply : Reply}
    (hbody : response.body = .reply reply) :
    ∃ (place : ℕ) (e : Entry) (n : ℕ) (w w' : World), s.heap[place]? = some e ∧
      e.id = (rq r).id ∧ e.after n = some w ∧ e.after (n + 1) = some w' ∧
      w.step (rq r).route.action = some w' ∧ w.reply (rq r).route.action = some reply := by
  obtain ⟨place, e, n, w, w', reply', he, hid, hw, hw', hstep, hreply, rfl⟩ :=
    h.responded hstage (by simp [hbody])
  obtain rfl := reply_of_respond hbody
  exact ⟨place, e, n, w, w', he, hid, hw, hw', hstep, hreply⟩

/-- **A request that has been answered with a snapshot** has been answered by a session of its name,
which has been paused there. -/
theorem Answering.visited (h : Answering rq s) {r : ℕ} {found : Option (ℕ × ℕ)}
    {response : Response} (hstage : s.stage r = .answered found response) {snap : StepSnapshot}
    (hbody : response.body = .reply (.state (.paused snap))) : s.Visited (rq r).id snap := by
  obtain ⟨place, e, n, w, w', he, hid, -, hafter, hstep, hreply⟩ := h.replied hstage hbody
  exact ⟨place, e, he, hid, n + 1, w', hafter, World.pausedAt_of_reply hstep hreply⟩

/-- **A request that has been answered with a list** has been answered with the rows of the trace of
a session of its name, or with an empty list. -/
theorem Answering.listed (h : Answering rq s) {r : ℕ} {found : Option (ℕ × ℕ)}
    {response : Response} (hstage : s.stage r = .answered found response)
    (hroute : (rq r).route = .getTraceSteps) {steps : List TraceStep}
    (hbody : response.body = .reply (.trace steps)) :
    steps = [] ∨ ∃ snapshots, s.HasTrace (rq r).id snapshots ∧
      steps = snapshots.map StepSnapshot.row := by
  obtain ⟨place, e, n, w, w', he, hid, hafter, -, -, hreply⟩ := h.replied hstage hbody
  rw [hroute] at hreply
  obtain rfl := Reply.trace.inj (Option.some.inj hreply)
  cases hdata : w.session.data with
  | ready snapshots i result =>
    exact Or.inr ⟨snapshots, ⟨place, e, result, he, hid, n, w, i, hafter, hdata⟩, rfl⟩
  | loading | aborted | error _ => exact Or.inl rfl

end Server

end EvmDebugger
