import EvmDebugger.Lib.Logged
import EvmDebugger.Session.Replies
import Mathlib.Logic.Function.Basic

/-!
# The server

`server.rs`, `app_state.rs` and the collector of `main.rs`: a map from identifiers to sessions, any
number of requests, and a task that removes sessions nobody has used for a while. A handler looks
its session up, which locks the entry of the map for reading; it touches the session, and that is
two things, reading the clock and storing what it said; and then the handlers that only read go on
under the lock, while the others clone the reference, release the entry, and run their command
later on a pool of threads. Between any two of these steps anybody else may take theirs.

The collector makes two passes. In the first it compares the time of the last access with the
clock, as it was when the pass began, and makes a list of identifiers; in the second it removes
them, one by one. To remove an entry, nobody may be reading it.

A session is reached by whoever has a reference, whether it is still in the map or not. So the
sessions are in a heap, and the map is from identifiers to places in it. Each keeps a log
(`Logged`): who has taken its lock to do what.
-/

namespace EvmDebugger

/-! ### Requests and responses -/

/-- The handlers that deal with one session. -/
inductive Route where
  | getSession
  | getTraceSteps
  | stepInto
  | stepOver
  | continueExec
  | abortSession
  deriving DecidableEq

/-- A request. -/
structure Request where
  route : Route
  id : String
  deriving DecidableEq

/-- The body of a response. -/
inductive Body where
  | error (message : String)
  | reply (reply : Reply)
  | status (status : String)
  deriving DecidableEq

/-- A response. -/
structure Response where
  status : ℕ
  body : Body
  deriving DecidableEq

namespace Response

/-- There is no such session. -/
def notFound : Response := ⟨404, .error "session not found"⟩

/-- The pool did not run the command. -/
def internalError : Response := ⟨500, .error "internal error"⟩

end Response

namespace Route

/-- The handlers that answer while they read the entry of the map. -/
def underGuard : Route → Bool
  | getSession | getTraceSteps => true
  | stepInto | stepOver | continueExec | abortSession => false

/-- The handlers that give their command to the pool. -/
def onPool : Route → Bool
  | stepInto | stepOver | continueExec => true
  | getSession | getTraceSteps | abortSession => false

/-- What a handler does to the session, in the end. -/
def action : Route → Action
  | getSession => .currentState
  | getTraceSteps => .getTraceSteps
  | stepInto => .stepInto
  | stepOver => .stepOver
  | continueExec => .continueExec
  | abortSession => .abortWrite

/-- What it does before. -/
def before : Route → List Action
  | abortSession => [.abortStore]
  | getSession | getTraceSteps | stepInto | stepOver | continueExec => []

/-- What it answers. -/
def respond : Route → Reply → Response
  | abortSession, _ => ⟨200, .status "aborted"⟩
  | _, reply => ⟨200, .reply reply⟩

end Route

/-- **How far a request has come.** The session is that at a place of the heap; the time is what the
clock said. -/
inductive Stage where
  | new
  /-- The entry is being read. -/
  | found (place : ℕ)
  | clocked (place time : ℕ)
  | touched (place time : ℕ)
  /-- The reference has been cloned, and the entry released. -/
  | released (place time : ℕ)
  /-- `abort` has stored the flag. -/
  | aborting (place time : ℕ)
  | answered (place : Option (ℕ × ℕ)) (response : Response)
  deriving DecidableEq

namespace Stage

/-- **What a request has done so far**, and to which session. -/
def history (route : Route) : Stage → Option (ℕ × List Action)
  | new | answered none _ => none
  | found place | clocked place _ => some (place, [])
  | touched place time | released place time => some (place, [.touch time])
  | aborting place time => some (place, .touch time :: route.before)
  | answered (some (place, time)) response =>
    some (place, .touch time ::
      if response = .internalError then [] else route.before ++ [route.action])

/-- The request is over. -/
def isAnswered : Stage → Bool
  | answered .. => true
  | new | found _ | clocked .. | touched .. | released .. | aborting .. => false

end Stage

/-! ### Sessions -/

/-- Storing the time of an access. -/
def Action.isTouch : Action → Bool
  | touch _ => true
  | _ => false

/-- **A session in the heap**: what it is called, how and when it was made, and what has been done
to it. -/
structure Entry where
  id : String
  origin : Origin
  created : ℕ
  object : Logged World.step (origin.world created) (Option ℕ)

namespace Entry

/-- A session just made. -/
def new (id : String) (origin : Origin) (created : ℕ) : Entry where
  id := id
  origin := origin
  created := created
  object := .new World.step (origin.world created) (Option ℕ)

/-- Somebody takes the lock: a request, or a task in the background. -/
def act (e : Entry) (who : Option ℕ) (a : Action) : Option Entry :=
  (e.object.act who a).map fun object => { e with object := object }

/-- The session as it was made. -/
def start (e : Entry) : World := e.origin.world e.created

/-- The session as it is. -/
def world (e : Entry) : World := e.object.state

/-- `last_access_secs`. -/
def lastAccess (e : Entry) : ℕ := e.world.session.lastAccessSecs

/-- How often the session has been touched. -/
def touches (e : Entry) : ℕ := e.object.log.countP fun entry => entry.2.isTouch

end Entry

/-- What tasks in the background do to a session: all but a client's commands. -/
def Action.isBackground : Action → Bool
  | waitTake | waitRecv _ | waitPublish _ | send _ | disconnect | currentState | getTraceSteps
  | snapshotsForCache => true
  | stepInto | stepOver | continueExec | abortStore | abortWrite | touch _ => false

/-! ### The server -/

/-- What the collector is doing. Of a session on its list, the number of touches it had when its
last access was read is kept with it. -/
inductive Collector where
  | sleeping
  | scanning (now : ℕ) (keys : List (String × ℕ))
  | removing (keys : List (String × ℕ))
  deriving DecidableEq

/-- The list of sessions to be removed. -/
def Collector.keys : Collector → List (String × ℕ)
  | sleeping => []
  | scanning _ keys | removing keys => keys

/-- **The server.** For each identifier, `readers` counts the requests that are reading its
entry. -/
structure Server where
  now : ℕ
  sessions : String → Option ℕ
  readers : String → ℕ
  heap : List Entry
  stage : ℕ → Stage
  gc : Collector

/-- The steps of the server. -/
inductive ServerAction where
  /-- Time passes. -/
  | tick (secs : ℕ)
  /-- `create_session` puts a session into the map. -/
  | create (id : String) (origin : Origin) (created : ℕ)
  /-- A task in the background takes the lock of a session. -/
  | background (place : ℕ) (a : Action)
  /-- `sessions.get(&id)`. -/
  | lookup (request : ℕ)
  /-- `touch`, the first half. -/
  | readClock (request : ℕ)
  /-- `touch`, the second half. -/
  | storeTouch (request : ℕ)
  /-- `clone`, after which the entry is released. -/
  | release (request : ℕ)
  /-- The next critical section of the command. -/
  | perform (request : ℕ)
  /-- The pool is shut down before it runs the command. -/
  | joinError (request : ℕ)
  /-- The collector reads the clock. -/
  | gcStart
  /-- It reads an entry. -/
  | gcRead (id : String)
  /-- It has read them all. -/
  | gcCollected
  /-- It removes the next one on its list. -/
  | gcRemove
  /-- It goes to sleep. -/
  | gcEnd
  deriving DecidableEq

namespace Server

/-- Nobody is here yet. -/
def init : Server where
  now := 0
  sessions _ := none
  readers _ := 0
  heap := []
  stage _ := .new
  gc := .sleeping

/-- A request comes to another stage. -/
def setStage (s : Server) (r : ℕ) (stage : Stage) : Server :=
  { s with stage := Function.update s.stage r stage }

/-- The number of requests that read an entry changes. -/
def setReaders (s : Server) (id : String) (count : ℕ) : Server :=
  { s with readers := Function.update s.readers id count }

/-- Somebody takes the lock of a session. -/
def act (s : Server) (place : ℕ) (who : Option ℕ) (a : Action) : Option Server :=
  match s.heap[place]? with
  | none => none
  | some e => (e.act who a).map fun e' => { s with heap := s.heap.set place e' }

/-- The last critical section of a request, and its response. -/
def complete (rq : ℕ → Request) (s : Server) (r place time : ℕ) : Option Server :=
  match s.heap[place]? with
  | none => none
  | some e =>
    match e.world.reply (rq r).route.action with
    | none => none
    | some reply =>
      (s.act place (some r) (rq r).route.action).map fun s' =>
        s'.setStage r (.answered (some (place, time)) ((rq r).route.respond reply))

/-- **A step of the server**, with a time to live. -/
def step (ttl : ℕ) (rq : ℕ → Request) (s : Server) : ServerAction → Option Server
  | .tick secs => some { s with now := s.now + secs }
  | .create id origin created =>
    if created ≤ s.now ∧ ∀ e ∈ s.heap, e.id ≠ id then
      some
        { s with
          sessions := Function.update s.sessions id (some s.heap.length)
          heap := s.heap ++ [.new id origin created] }
    else none
  | .background place a => if a.isBackground then s.act place none a else none
  | .lookup r =>
    match s.stage r with
    | .new =>
      match s.sessions (rq r).id with
      | none => some (s.setStage r (.answered none .notFound))
      | some place =>
        -- from here on the entry is locked for reading
        some ((s.setStage r (.found place)).setReaders (rq r).id (s.readers (rq r).id + 1))
    | _ => none
  | .readClock r =>
    match s.stage r with
    | .found place => some (s.setStage r (.clocked place s.now))
    | _ => none
  | .storeTouch r =>
    match s.stage r with
    | .clocked place time =>
      (s.act place (some r) (.touch time)).map (·.setStage r (.touched place time))
    | _ => none
  | .release r =>
    match s.stage r with
    | .touched place time =>
      -- the handlers that only read keep the entry until they have answered
      if (rq r).route.underGuard then none
      else
        some ((s.setStage r (.released place time)).setReaders (rq r).id
          (s.readers (rq r).id - 1))
    | _ => none
  | .perform r =>
    match s.stage r with
    | .touched place time =>
      if (rq r).route.underGuard then
        (s.complete rq r place time).map (·.setReaders (rq r).id (s.readers (rq r).id - 1))
      else none
    | .released place time =>
      -- `abort` is two critical sections, the other commands are one
      if (rq r).route = .abortSession then
        (s.act place (some r) .abortStore).map (·.setStage r (.aborting place time))
      else s.complete rq r place time
    | .aborting place time => s.complete rq r place time
    | _ => none
  | .joinError r =>
    match s.stage r with
    | .released place time =>
      if (rq r).route.onPool then
        some (s.setStage r (.answered (some (place, time)) .internalError))
      else none
    | _ => none
  | .gcStart =>
    match s.gc with
    | .sleeping => some { s with gc := .scanning s.now [] }
    | _ => none
  | .gcRead id =>
    match s.gc with
    | .scanning now keys =>
      match (s.sessions id).bind (s.heap[·]?) with
      | none => none
      | some e =>
        -- `saturating_sub`: an access later than `now` is no time ago
        if ttl < now - e.lastAccess then
          some { s with gc := .scanning now (keys ++ [(id, e.touches)]) }
        else some s
    | _ => none
  | .gcCollected =>
    match s.gc with
    | .scanning _ keys => some { s with gc := .removing keys }
    | _ => none
  | .gcRemove =>
    match s.gc with
    | .removing (key :: keys) =>
      -- `remove` waits for those who read the entry, and looks at nothing else
      if s.readers key.1 = 0 then
        some { s with sessions := Function.update s.sessions key.1 none, gc := .removing keys }
      else none
    | _ => none
  | .gcEnd =>
    match s.gc with
    | .removing [] => some { s with gc := .sleeping }
    | _ => none

/-! ### What a step does -/

variable {ttl : ℕ} {rq : ℕ → Request} {s s' : Server} {place : ℕ} {e e' : Entry}

/-- Somebody takes the lock of a session. -/
theorem act_eq_some {who : Option ℕ} {a : Action} (h : s.act place who a = some s') :
    ∃ e e', s.heap[place]? = some e ∧ e.act who a = some e' ∧
      s' = { s with heap := s.heap.set place e' } := by
  unfold act at h
  split at h
  · exact absurd h (by simp)
  · next e he =>
    obtain ⟨e', he', rfl⟩ := Option.map_eq_some_iff.mp h
    exact ⟨e, e', he, he', rfl⟩

/-- **What a step of the server can do**, by what becomes of the request that takes it, and of the
session. -/
inductive Did (ttl : ℕ) (rq : ℕ → Request) (s : Server) : ServerAction → Server → Prop
  | tick {secs : ℕ} : Did ttl rq s (.tick secs) { s with now := s.now + secs }
  | create {id : String} {origin : Origin} {created : ℕ} (hfresh : ∀ e ∈ s.heap, e.id ≠ id) :
      Did ttl rq s (.create id origin created)
        { s with
          sessions := Function.update s.sessions id (some s.heap.length)
          heap := s.heap ++ [.new id origin created] }
  | background {place : ℕ} {a : Action} {e e' : Entry} (ha : a.isBackground = true)
      (he : s.heap[place]? = some e) (hact : e.act none a = some e') :
      Did ttl rq s (.background place a) { s with heap := s.heap.set place e' }
  /-- A request goes on without touching its session. -/
  | moves {a : ServerAction} {r : ℕ} {stage : Stage} {readers : String → ℕ}
      (hlive : (s.stage r).isAnswered = false)
      (hhistory : stage.history (rq r).route = (s.stage r).history (rq r).route ∨
        (s.stage r).history (rq r).route = none ∧ ∃ place, s.sessions (rq r).id = some place ∧
          stage.history (rq r).route = some (place, [])) :
      Did ttl rq s a { s.setStage r stage with readers := readers }
  /-- A request takes the lock of its session. -/
  | acts {a : ServerAction} {r place : ℕ} {done : List Action} {act : Action} {stage : Stage}
      {readers : String → ℕ} {e e' : Entry}
      (hbefore : (s.stage r).history (rq r).route = some (place, done))
      (hlive : (s.stage r).isAnswered = false)
      (he : s.heap[place]? = some e) (hact : e.act (some r) act = some e')
      (hafter : stage.history (rq r).route = some (place, done ++ [act]))
      (htouch : act.isTouch = true → a = .storeTouch r)
      (hanswer : act.isTouch = true ∨ act = .abortStore ∨
        ∃ time reply, e.world.reply act = some reply ∧
          stage = .answered (some (place, time)) ((rq r).route.respond reply)) :
      Did ttl rq s a
        { s.setStage r stage with heap := s.heap.set place e', readers := readers }
  | gcStart (h : s.gc = .sleeping) :
      Did ttl rq s .gcStart { s with gc := .scanning s.now [] }
  | gcRead {id : String} {now place : ℕ} {keys : List (String × ℕ)} {e : Entry}
      (h : s.gc = .scanning now keys) (hid : s.sessions id = some place)
      (he : s.heap[place]? = some e) (hold : ttl < now - e.lastAccess) :
      Did ttl rq s (.gcRead id) { s with gc := .scanning now (keys ++ [(id, e.touches)]) }
  | gcSkip {id : String} : Did ttl rq s (.gcRead id) s
  | gcCollected {now : ℕ} {keys : List (String × ℕ)} (h : s.gc = .scanning now keys) :
      Did ttl rq s .gcCollected { s with gc := .removing keys }
  | gcRemove {key : String × ℕ} {keys : List (String × ℕ)} (h : s.gc = .removing (key :: keys)) :
      Did ttl rq s .gcRemove
        { s with sessions := Function.update s.sessions key.1 none, gc := .removing keys }
  | gcEnd (h : s.gc = .removing []) : Did ttl rq s .gcEnd { s with gc := .sleeping }

/-- A response of a handler is not an internal error. -/
theorem respond_ne_internalError (route : Route) (reply : Reply) :
    route.respond reply ≠ .internalError := by
  cases route <;> simp [Route.respond, Response.internalError]

/-- **The last critical section of a request** is one of these. -/
theorem did_complete {a : ServerAction} {r time : ℕ} (hlive : (s.stage r).isAnswered = false)
    (hbefore : (s.stage r).history (rq r).route =
      some (place, .touch time :: (rq r).route.before))
    {readers : String → ℕ} (h : s.complete rq r place time = some s') :
    Did ttl rq s a { s' with readers := readers } := by
  unfold complete at h
  split at h
  · exact absurd h (by simp)
  · next e he =>
    split at h
    · exact absurd h (by simp)
    · next reply hreply =>
      obtain ⟨s₁, hact, rfl⟩ := Option.map_eq_some_iff.mp h
      obtain ⟨e₁, e', he₁, hentry, rfl⟩ := act_eq_some hact
      obtain rfl := Option.some.inj (he.symm.trans he₁)
      -- no handler touches the session in the end
      have hnot : (rq r).route.action.isTouch = false := by
        cases (rq r).route <;> rfl
      refine .acts hbefore hlive he hentry ?_ (fun htouch => ?_)
        (Or.inr (Or.inr ⟨time, reply, hreply, rfl⟩))
      · rw [Stage.history, if_neg (respond_ne_internalError _ _)]
        rfl
      · exact absurd (hnot.symm.trans htouch) (by simp)

/-- **A critical section of a command** is one of these: the last, or the first of an abort. -/
theorem did_perform {r : ℕ} (h : s.step ttl rq (.perform r) = some s') :
    Did ttl rq s (.perform r) s' := by
  simp only [step] at h
  split at h
  · next place time hstage =>
    split at h
    · next hguard =>
      obtain ⟨s₁, hcomplete, rfl⟩ := Option.map_eq_some_iff.mp h
      have hnil : (rq r).route.before = [] := by
        cases hroute : (rq r).route <;> first | rfl | simp [hroute, Route.underGuard] at hguard
      exact did_complete (by rw [hstage]; rfl) (by rw [hstage, hnil]; rfl) hcomplete
    · exact absurd h (by simp)
  · next place time hstage =>
    split at h
    · next hroute =>
      obtain ⟨s₁, hact, rfl⟩ := Option.map_eq_some_iff.mp h
      obtain ⟨e, e', he, hentry, rfl⟩ := act_eq_some hact
      exact .acts (by rw [hstage]; rfl) (by rw [hstage]; rfl) he hentry
        (by rw [hroute]; rfl) (fun htouch => absurd htouch (by simp [Action.isTouch]))
        (Or.inr (Or.inl rfl))
    · next hroute =>
      have hnil : (rq r).route.before = [] := by
        cases hr : (rq r).route <;> first | rfl | exact absurd hr hroute
      exact did_complete (by rw [hstage]; rfl) (by rw [hstage, hnil]; rfl) h
  · next place time hstage =>
    exact did_complete (by rw [hstage]; rfl) (by rw [hstage]; rfl) h
  · exact absurd h (by simp)

/-- The collector reads an entry, and puts the session on its list or does not. -/
theorem did_gcRead {id : String} (h : s.step ttl rq (.gcRead id) = some s') :
    Did ttl rq s (.gcRead id) s' := by
  simp only [step] at h
  split at h
  · next now keys hgc =>
    split at h
    · exact absurd h (by simp)
    · next e he =>
      obtain ⟨place, hid, he⟩ := Option.bind_eq_some_iff.mp he
      split at h
      · next hold =>
        obtain rfl := Option.some.inj h
        exact .gcRead hgc hid he hold
      · obtain rfl := Option.some.inj h
        exact .gcSkip
  · exact absurd h (by simp)

/-- **Every step is one of these.** -/
theorem did {a : ServerAction} (h : s.step ttl rq a = some s') : Did ttl rq s a s' := by
  cases a with
  | tick secs =>
    obtain rfl := Option.some.inj h
    exact .tick
  | create id origin created =>
    simp only [step] at h
    split at h
    · next hfresh =>
      obtain rfl := Option.some.inj h
      exact .create hfresh.2
    · exact absurd h (by simp)
  | background place a =>
    simp only [step] at h
    split at h
    · next ha =>
      obtain ⟨e, e', he, hact, rfl⟩ := act_eq_some h
      exact .background ha he hact
    · exact absurd h (by simp)
  | lookup r =>
    simp only [step] at h
    split at h
    · next hstage =>
      split at h
      · obtain rfl := Option.some.inj h
        exact .moves (by rw [hstage]; rfl) (Or.inl (by rw [hstage]; rfl))
      · next place hid =>
        obtain rfl := Option.some.inj h
        exact .moves (by rw [hstage]; rfl)
          (Or.inr ⟨by rw [hstage]; rfl, place, hid, rfl⟩)
    · exact absurd h (by simp)
  | readClock r =>
    simp only [step] at h
    split at h
    · next place hstage =>
      obtain rfl := Option.some.inj h
      exact .moves (by rw [hstage]; rfl) (Or.inl (by rw [hstage]; rfl))
    · exact absurd h (by simp)
  | storeTouch r =>
    simp only [step] at h
    split at h
    · next place time hstage =>
      obtain ⟨s₁, hact, rfl⟩ := Option.map_eq_some_iff.mp h
      obtain ⟨e, e', he, hentry, rfl⟩ := act_eq_some hact
      exact .acts (by rw [hstage]; rfl) (by rw [hstage]; rfl) he hentry rfl (fun _ => rfl)
        (Or.inl rfl)
    · exact absurd h (by simp)
  | release r =>
    simp only [step] at h
    split at h
    · next place time hstage =>
      split at h
      · exact absurd h (by simp)
      · obtain rfl := Option.some.inj h
        exact .moves (by rw [hstage]; rfl) (Or.inl (by rw [hstage]; rfl))
    · exact absurd h (by simp)
  | perform r => exact did_perform h
  | joinError r =>
    simp only [step] at h
    split at h
    · next place time hstage =>
      split at h
      · obtain rfl := Option.some.inj h
        exact .moves (by rw [hstage]; rfl) (Or.inl (by rw [hstage]; rfl))
      · exact absurd h (by simp)
    · exact absurd h (by simp)
  | gcStart =>
    simp only [step] at h
    split at h
    · next hgc =>
      obtain rfl := Option.some.inj h
      exact .gcStart hgc
    · exact absurd h (by simp)
  | gcRead id => exact did_gcRead h
  | gcCollected =>
    simp only [step] at h
    split at h
    · next now keys hgc =>
      obtain rfl := Option.some.inj h
      exact .gcCollected hgc
    · exact absurd h (by simp)
  | gcRemove =>
    simp only [step] at h
    split at h
    · next key keys hgc =>
      split at h
      · obtain rfl := Option.some.inj h
        exact .gcRemove hgc
      · exact absurd h (by simp)
    · exact absurd h (by simp)
  | gcEnd =>
    simp only [step] at h
    split at h
    · next hgc =>
      obtain rfl := Option.some.inj h
      exact .gcEnd hgc
    · exact absurd h (by simp)

end Server

end EvmDebugger
