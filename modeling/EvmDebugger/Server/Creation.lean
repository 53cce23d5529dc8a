import EvmDebugger.Cache.Paths
import EvmDebugger.Replay.OneMessage

/-!
# Making a session

`create_session` may fail in four places: what it was given may not be a hash, or not a URL that is
accepted; the fetcher may not find the transaction; and the trace cache may have a file that it
cannot read. After that it cannot fail any more. It makes a session, from the file or to wait for a
thread that is yet to be spawned, puts it into the map under an identifier that nobody has ever
used, and answers with the state of that session – which it asks the session for, if there was a
file, and which it makes up, if there was none.

Here the calls are many, and they overlap (`EvmDebugger.SessionService.step`). A call waits for the
fetcher, and whatever the fetcher and the trace cache answer it is answered at that moment, to that
call: they are arguments of the action. The sessions are in a heap, each with the task in its
background; so what has been spawned and what has been saved is part of the heap as well. The
semaphore is left out, which makes for more interleavings than there are.

`EvmDebugger.createSession_all_or_nothing`: a call that has failed has left everything alone, in
each of its steps; and one that has not has made one session, in one of them.
-/

namespace EvmDebugger

/-! ### The service -/

/-- What a client asks for. -/
structure CreateSessionRequest where
  txHash : String
  rpcUrl : String
  deriving DecidableEq

/-- What it is answered. -/
structure CreateSessionResponse where
  sessionId : String
  state : SessionState
  traceSteps : List TraceStep
  deriving DecidableEq

/-- What the service is made with: the library that parses URLs, with the text it shows for the URL
that a string is parsed to; the allowlist; the names of trace files; and the executor. -/
structure CreateContext (σ : Type) where
  crate : UrlCrate
  urlText : String → String
  allowlistEnv : Option String
  traceCachePath : String → Option U64 → U64 → String
  executor : CachedTxInfo → String → Replay σ

/-- A session in the heap: one made from a file, or one with a task in the background, which knows
where to save the trace. -/
inductive Hosted (σ : Type) where
  | cached (world : World)
  | replayed (replay : Replay σ) (tracePath : String) (state : Replay.State σ)

namespace Hosted

variable {σ : Type}

/-- The session. -/
def world : Hosted σ → World
  | cached world => world
  | replayed _ _ state => state.world

/-- What has been saved of it, and where. -/
def saved : Hosted σ → List (String × TraceCacheFile)
  | cached _ => []
  | replayed _ tracePath state => state.saved.map fun file => (tracePath, file)

/-- Somebody does something: a client, the task or the thread. -/
def act : Hosted σ → ReplayAction → Option (Hosted σ)
  | cached world, .client action =>
    if action.isCommand then (world.step action).map cached else none
  | cached _, _ => none
  | replayed replay tracePath state, action =>
    (replay.step state action).map (replayed replay tracePath)

end Hosted

/-- How far a call has come. -/
inductive CreateStage where
  | new
  | fetching (canonicalHash rpcUrl : String)
  | loading (info : CachedTxInfo) (rpcUrl tracePath : String)
  | answered (result : Except String CreateSessionResponse)

/-- The actions: a call checks its request; the fetcher answers it; the trace cache does, upon which
it does the rest; a session is removed from the map; and somebody does something to a session. -/
inductive CreateAction where
  | validate (call : ℕ)
  | fetch (call : ℕ) (fetcher : String → String → Except String CachedTxInfo)
  | load (call : ℕ) (cache : String → Except String (Option TraceCacheFile)) (now : ℕ)
  | remove (id : String)
  | act (place : ℕ) (action : ReplayAction)

/-- Whose action it is, if it is that of a call. -/
def CreateAction.call : CreateAction → Option ℕ
  | validate r | fetch r _ | load r _ _ => some r
  | remove _ | act _ _ => none

/-- The task has not called the executor yet. -/
def BackgroundTask.unspawned : BackgroundTask → Bool
  | acquiring | spawning => true
  | _ => false

/-- The executor is called. -/
def ReplayAction.spawns : ReplayAction → Bool
  | spawn _ => true
  | client _ | acquire | evm _ | task | save _ | release => false

/-- The executor is called for the session at a place. -/
def CreateAction.spawnsAt (place : ℕ) : CreateAction → Bool
  | act q action => q == place && action.spawns
  | validate _ | fetch _ _ | load _ _ _ | remove _ => false

/-- The map, the heap and the calls. -/
structure SessionService (σ : Type) where
  sessions : String → Option ℕ
  heap : List (Hosted σ)
  stage : ℕ → CreateStage

namespace SessionService

variable {σ : Type}

/-- Nothing has happened yet. -/
def init : SessionService σ where
  sessions _ := none
  heap := []
  stage _ := .new

/-- A call goes on. -/
def setStage (s : SessionService σ) (r : ℕ) (stage : CreateStage) : SessionService σ :=
  { s with stage := Function.update s.stage r stage }

/-- A session is put into the map. -/
def insert (s : SessionService σ) (id : String) (hosted : Hosted σ) : SessionService σ :=
  { s with
    sessions := Function.update s.sessions id (some s.heap.length)
    heap := s.heap ++ [hosted] }

/-- Everything that has been saved. -/
def saved (s : SessionService σ) : List (String × TraceCacheFile) := s.heap.flatMap Hosted.saved

/-- The session that is made, and the response: what the session shows, if it is made from a file;
else there is nothing to show yet, and a task is spawned. -/
def makeSession (ctx : CreateContext σ) (sessionId : String) (info : CachedTxInfo)
    (rpcUrl tracePath : String) (now : ℕ) :
    Option TraceCacheFile → Hosted σ × CreateSessionResponse
  | some file =>
    let session := World.fromCache file.snapshots file.result now
    (.cached session,
      { sessionId := sessionId
        state := session.session.data.currentStateLocked
        traceSteps := session.session.data.getTraceSteps })
  | none =>
    (.replayed (ctx.executor info rpcUrl) tracePath (Replay.init now),
      { sessionId := sessionId
        state := .loading
        traceSteps := [] })

/-- **One action.** Calls are numbered; each has drawn its identifier before it does anything
else. -/
def step (ctx : CreateContext σ) (rq : ℕ → CreateSessionRequest) (uuid : ℕ → String)
    (s : SessionService σ) : CreateAction → Option (SessionService σ)
  | .validate r =>
    match s.stage r with
    | .new =>
      match canonicalizeTxHash (rq r).txHash with
      | .error message => some (s.setStage r (.answered (.error message)))
      | .ok canonicalHash =>
        match validateRpcUrl ctx.crate ctx.allowlistEnv (rq r).rpcUrl with
        | .error message => some (s.setStage r (.answered (.error message)))
        | .ok _ => some (s.setStage r (.fetching canonicalHash (ctx.urlText (rq r).rpcUrl)))
    | _ => none
  | .fetch r fetcher =>
    match s.stage r with
    | .fetching canonicalHash rpcUrl =>
      match fetcher canonicalHash rpcUrl with
      | .error message => some (s.setStage r (.answered (.error message)))
      | .ok info =>
        some (s.setStage r (.loading info rpcUrl
          (ctx.traceCachePath canonicalHash info.chainId info.blockNumber)))
    | _ => none
  | .load r cache now =>
    match s.stage r with
    | .loading info rpcUrl tracePath =>
      match cache tracePath with
      | .error message => some (s.setStage r (.answered (.error message)))
      | .ok found =>
        -- nobody has been told the identifier, so nobody comes between the map and the response
        let made := makeSession ctx (uuid r) info rpcUrl tracePath now found
        some ((s.insert (uuid r) made.1).setStage r (.answered (.ok made.2)))
    | _ => none
  | .remove id => some { s with sessions := Function.update s.sessions id none }
  | .act place action =>
    match s.heap[place]? with
    | none => none
    | some hosted => (hosted.act action).map fun hosted' =>
        { s with heap := s.heap.set place hosted' }

/-! ### What an action does -/

variable {ctx : CreateContext σ} {rq : ℕ → CreateSessionRequest} {uuid : ℕ → String}
  {s s' : SessionService σ} {a : CreateAction}

/-- A request that is acceptable. -/
theorem step_validate {r : ℕ} (ht : s.stage r = .new) {canonicalHash : String} {url : Url}
    (hhash : canonicalizeTxHash (rq r).txHash = .ok canonicalHash)
    (hurl : validateRpcUrl ctx.crate ctx.allowlistEnv (rq r).rpcUrl = .ok url) :
    step ctx rq uuid s (.validate r) =
      some (s.setStage r (.fetching canonicalHash (ctx.urlText (rq r).rpcUrl))) := by
  rw [step, ht]
  dsimp only
  rw [hhash]
  dsimp only
  rw [hurl]

/-- A request that is refused, for its hash or for its URL. -/
theorem step_validate_refused {r : ℕ} (ht : s.stage r = .new) {message : String}
    (h : canonicalizeTxHash (rq r).txHash = .error message ∨
      ∃ canonicalHash, canonicalizeTxHash (rq r).txHash = .ok canonicalHash ∧
        validateRpcUrl ctx.crate ctx.allowlistEnv (rq r).rpcUrl = .error message) :
    step ctx rq uuid s (.validate r) = some (s.setStage r (.answered (.error message))) := by
  rw [step, ht]
  dsimp only
  rcases h with hhash | ⟨canonicalHash, hhash, hurl⟩
  · rw [hhash]
  · rw [hhash]
    dsimp only
    rw [hurl]

/-- **What one action can do**: a call goes on, or fails, and nothing else happens; or it makes its
session; or something happens that is no call's doing. -/
inductive Step (ctx : CreateContext σ) (uuid : ℕ → String) (s : SessionService σ) :
    CreateAction → SessionService σ → Prop where
  | goes {a : CreateAction} {r : ℕ} {stage : CreateStage} (ha : a.call = some r)
      (hopen : ∀ result, s.stage r ≠ .answered result)
      (hnot : ∀ response, stage ≠ .answered (.ok response)) : Step ctx uuid s a (s.setStage r stage)
  | makes {r now : ℕ} {cache : String → Except String (Option TraceCacheFile)}
      {info : CachedTxInfo} {rpcUrl tracePath : String} {found : Option TraceCacheFile}
      (ht : s.stage r = .loading info rpcUrl tracePath) (hfound : cache tracePath = .ok found) :
      Step ctx uuid s (.load r cache now)
        ((s.insert (uuid r) (makeSession ctx (uuid r) info rpcUrl tracePath now found).1).setStage r
          (.answered (.ok (makeSession ctx (uuid r) info rpcUrl tracePath now found).2)))
  | removes (id : String) :
      Step ctx uuid s (.remove id) { s with sessions := Function.update s.sessions id none }
  | acts {place : ℕ} {action : ReplayAction} {x x' : Hosted σ} (hx : s.heap[place]? = some x)
      (hact : x.act action = some x') :
      Step ctx uuid s (.act place action) { s with heap := s.heap.set place x' }

/-- **The step function does nothing else.** -/
theorem step_cases (h : step ctx rq uuid s a = some s') : Step ctx uuid s a s' := by
  cases a with
  | validate r =>
    rw [step] at h
    split at h
    · next ht =>
      have hopen : ∀ result, s.stage r ≠ .answered result := by simp [ht]
      split at h
      · exact Option.some.inj h ▸ .goes rfl hopen (by simp)
      · split at h <;> exact Option.some.inj h ▸ .goes rfl hopen (by simp)
    · exact absurd h (by simp)
  | fetch r fetcher =>
    rw [step] at h
    split at h
    · next ht =>
      have hopen : ∀ result, s.stage r ≠ .answered result := by simp [ht]
      split at h <;> exact Option.some.inj h ▸ .goes rfl hopen (by simp)
    · exact absurd h (by simp)
  | load r cache now =>
    rw [step] at h
    split at h
    · next ht =>
      split at h
      · exact Option.some.inj h ▸ .goes rfl (by simp [ht]) (by simp)
      · next found hfound => exact Option.some.inj h ▸ .makes ht hfound
    · exact absurd h (by simp)
  | remove id => exact Option.some.inj h ▸ .removes id
  | act place action =>
    rw [step] at h
    split at h
    · exact absurd h (by simp)
    · next x hx =>
      obtain ⟨x', hact, rfl⟩ := Option.map_eq_some_iff.mp h
      exact .acts hx hact

/-! ### All or nothing -/

/-- **The action is not the call's, or it leaves everything alone** but the call itself: the map,
and the sessions with all that has been spawned and saved. -/
def Leaves (ctx : CreateContext σ) (rq : ℕ → CreateSessionRequest) (uuid : ℕ → String) (r : ℕ)
    (s : SessionService σ) (a : CreateAction) : Prop :=
  a.call = some r → ∀ s', step ctx rq uuid s a = some s' →
    s'.sessions = s.sessions ∧ s'.heap = s.heap

/-- **A session has been made**: there is one more, under an identifier that was not in the map;
nothing else in the map has changed, nothing has been saved; and the response is what the session
shows. -/
structure Makes (response : CreateSessionResponse) (s s' : SessionService σ) : Prop where
  fresh : s.sessions response.sessionId = none
  sessions : s'.sessions = Function.update s.sessions response.sessionId (some s.heap.length)
  saved : s'.saved = s.saved
  heap : ∃ hosted, s'.heap = s.heap ++ [hosted] ∧
    hosted.world.reply .currentState = some (.state response.state) ∧
    hosted.world.reply .getTraceSteps = some (.trace response.traceSteps)

/-- **The response is what the session shows**, though only one of the two is asked. -/
theorem reply_makeSession (ctx : CreateContext σ) (sessionId : String) (info : CachedTxInfo)
    (rpcUrl tracePath : String) (now : ℕ) (found : Option TraceCacheFile) :
    let made := makeSession ctx sessionId info rpcUrl tracePath now found
    made.2.sessionId = sessionId ∧ made.1.saved = [] ∧
      made.1.world.reply .currentState = some (.state made.2.state) ∧
      made.1.world.reply .getTraceSteps = some (.trace made.2.traceSteps) := by
  cases found <;> exact ⟨rfl, rfl, rfl, rfl⟩

/-- Who is in the map has been answered that he is. -/
def Named (uuid : ℕ → String) (s : SessionService σ) : Prop :=
  ∀ id place, s.sessions id = some place →
    ∃ r response, uuid r = id ∧ s.stage r = .answered (.ok response)

/-- Whoever has been answered stays answered. -/
theorem Step.answered (h : Step ctx uuid s a s') {r : ℕ}
    {result : Except String CreateSessionResponse} (ht : s.stage r = .answered result) :
    s'.stage r = .answered result := by
  cases h with
  | @goes a r' stage ha hopen hnot =>
    have hne : r ≠ r' := fun heq => hopen result (heq ▸ ht)
    exact (Function.update_of_ne hne _ _).trans ht
  | @makes r' now cache info rpcUrl tracePath found ht' hfound =>
    have hne : r ≠ r' := fun heq => absurd ((heq ▸ ht).symm.trans ht') (by simp)
    exact (Function.update_of_ne hne _ _).trans ht
  | removes id => exact ht
  | acts hx hact => exact ht

/-- **Every action keeps it so.** -/
theorem Named.next (hn : Named uuid s) (h : Step ctx uuid s a s') : Named uuid s' := by
  have hstep := h
  have hold : ∀ id place, s.sessions id = some place →
      ∃ r response, uuid r = id ∧ s'.stage r = .answered (.ok response) := fun id place hid => by
    obtain ⟨r, response, hr, ht⟩ := hn id place hid
    exact ⟨r, response, hr, hstep.answered ht⟩
  cases h with
  | goes ha hopen hnot => exact hold
  | @makes r now cache info rpcUrl tracePath found ht hfound =>
    intro id place hid
    by_cases heq : id = uuid r
    · exact ⟨r, _, heq.symm, Function.update_self _ _ _⟩
    · exact hold id place ((Function.update_of_ne heq _ _).symm.trans hid)
  | removes id =>
    intro id' place hid
    by_cases heq : id' = id
    · rw [heq] at hid
      exact absurd ((Function.update_self _ _ _).symm.trans hid) (by simp)
    · exact hold id' place ((Function.update_of_ne heq _ _).symm.trans hid)
  | acts hx hact => exact hold

/-! ### How often the executor is called -/

/-- The task in the background, if there is one, has not called the executor yet. -/
def pending : Hosted σ → Bool
  | .cached _ => false
  | .replayed _ _ state => state.task.unspawned

/-- **A task that calls the executor has not done so before**, and has done so then. -/
theorem pending_act {x x' : Hosted σ} {action : ReplayAction} (h : x.act action = some x') :
    action.spawns.toNat + (pending x').toNat ≤ (pending x).toNat := by
  cases x with
  | cached world =>
    cases action with
    | client action =>
      rw [Hosted.act] at h
      split at h
      · obtain ⟨w, -, rfl⟩ := Option.map_eq_some_iff.mp h
        exact le_rfl
      · exact absurd h (by simp)
    | _ => exact absurd h (by simp [Hosted.act])
  | replayed replay tracePath state =>
    obtain ⟨state', hstate, rfl⟩ := Option.map_eq_some_iff.mp
      (show (replay.step state action).map (Hosted.replayed replay tracePath) = some x' from h)
    cases Replay.step_cases hstate with
    | take ht hw =>
      show 0 + (BackgroundTask.unspawned
        (if state.world.session.snapRx then .receiving else .rereading)).toNat ≤ _
      split <;> exact Nat.zero_le _
    | acquire ht | spawn ht | spawnFailed ht _ =>
      simp [pending, BackgroundTask.unspawned, ReplayAction.spawns, ht]
    | receive ht | publish ht | rereadSome ht | rereadNone ht | save ht | release ht =>
      exact Nat.zero_le _
    | _ => exact (Nat.zero_add _).le

/-- A session stays where it is, and its task calls the executor once at most. -/
theorem Step.pending (h : Step ctx uuid s a s') {place : ℕ} {x : Hosted σ}
    (hx : s.heap[place]? = some x) :
    ∃ x', s'.heap[place]? = some x' ∧
      (a.spawnsAt place).toNat + (SessionService.pending x').toNat ≤
        (SessionService.pending x).toNat := by
  obtain ⟨hlt, -⟩ := List.getElem?_eq_some_iff.mp hx
  cases h with
  | @goes a r stage ha hopen hnot =>
    refine ⟨x, hx, ?_⟩
    cases a with
    | act q action => exact absurd ha (by simp [CreateAction.call])
    | _ => exact (Nat.zero_add _).le
  | makes ht hfound =>
    exact ⟨x, (List.getElem?_append_left hlt).trans hx, (Nat.zero_add _).le⟩
  | removes id => exact ⟨x, hx, (Nat.zero_add _).le⟩
  | @acts q action y y' hy hact =>
    by_cases heq : q = place
    · subst heq
      obtain rfl := Option.some.inj (hy.symm.trans hx)
      refine ⟨y', List.getElem?_set_self hlt, ?_⟩
      rw [CreateAction.spawnsAt, beq_self_eq_true, Bool.true_and]
      exact pending_act hact
    · refine ⟨x, (List.getElem?_set_ne heq).trans hx, ?_⟩
      rw [CreateAction.spawnsAt, beq_false_of_ne heq]
      exact (Nat.zero_add _).le

/-- **In a whole run, the executor is called once at most for a session**, and only if it is still
to be called. -/
theorem countP_spawnsAt_le {place : ℕ} {x : Hosted σ} (hx : s.heap[place]? = some x)
    {more : List CreateAction} (h : Runs.run (step ctx rq uuid) s more = some s') :
    more.countP (CreateAction.spawnsAt place) ≤ (pending x).toNat := by
  obtain ⟨x', -, hle⟩ := Runs.run_induction
    (motive := fun more s' => ∃ x', s'.heap[place]? = some x' ∧
      more.countP (CreateAction.spawnsAt place) + (pending x').toNat ≤ (pending x).toNat)
    ⟨x, hx, (Nat.zero_add _).le⟩
    (fun as a s t _ ⟨x', hx', hle⟩ hstep => by
      obtain ⟨x'', hx'', hle'⟩ := (step_cases hstep).pending hx'
      have hlast : [a].countP (CreateAction.spawnsAt place) = (a.spawnsAt place).toNat := by
        rw [List.countP_singleton]
        cases a.spawnsAt place <;> rfl
      refine ⟨x'', hx'', ?_⟩
      rw [List.countP_append, hlast]
      omega) h
  omega

/-! ### What a call has done -/

/-- **A call has made its session**, in the course of an interleaving: before and after, it has left
everything alone; in between, it has put one session into the map. The executor is called for that
session once at most, and only if the trace cache had no file. -/
structure Creates (ctx : CreateContext σ) (rq : ℕ → CreateSessionRequest) (uuid : ℕ → String)
    (r : ℕ) (response : CreateSessionResponse) (before : List CreateAction) (s₁ : SessionService σ)
    (cache : String → Except String (Option TraceCacheFile)) (now : ℕ) (s₂ : SessionService σ)
    (after : List CreateAction) (s : SessionService σ) : Prop where
  ran : Runs.run (step ctx rq uuid) init before = some s₁
  untouched : Runs.Along (step ctx rq uuid) (Leaves ctx rq uuid r) init before
  makes : step ctx rq uuid s₁ (.load r cache now) = some s₂ ∧ Makes response s₁ s₂
  runs : Runs.run (step ctx rq uuid) s₂ after = some s
  untouched' : Runs.Along (step ctx rq uuid) (Leaves ctx rq uuid r) s₂ after
  once : after.countP (CreateAction.spawnsAt s₁.heap.length) ≤ 1
  miss : ∃ info rpcUrl tracePath, s₁.stage r = .loading info rpcUrl tracePath ∧
    (after.countP (CreateAction.spawnsAt s₁.heap.length) ≠ 0 → cache tracePath = .ok none)

/-- **All or nothing**, of one call in the course of an interleaving: if it has failed, it has left
everything alone, and if it has been answered, it has made its session. -/
structure AllOrNothing (ctx : CreateContext σ) (rq : ℕ → CreateSessionRequest) (uuid : ℕ → String)
    (r : ℕ) (actions : List CreateAction) (s : SessionService σ) : Prop where
  nothing : ∀ message, s.stage r = .answered (.error message) →
    Runs.Along (step ctx rq uuid) (Leaves ctx rq uuid r) init actions
  all : ∀ response, s.stage r = .answered (.ok response) →
    ∃ before s₁ cache now s₂ after, actions = before ++ .load r cache now :: after ∧
      Creates ctx rq uuid r response before s₁ cache now s₂ after s

/-- **The invariant of a call**: it has left everything alone until it has been answered, and has
made its session when it was. -/
structure History (ctx : CreateContext σ) (rq : ℕ → CreateSessionRequest) (uuid : ℕ → String)
    (r : ℕ) (actions : List CreateAction) (s : SessionService σ) : Prop where
  named : Named uuid s
  quiet : (∀ response, s.stage r ≠ .answered (.ok response)) →
    Runs.Along (step ctx rq uuid) (Leaves ctx rq uuid r) init actions
  made : ∀ response, s.stage r = .answered (.ok response) →
    ∃ before s₁ cache now s₂ after, actions = before ++ .load r cache now :: after ∧
      Creates ctx rq uuid r response before s₁ cache now s₂ after s

/-- A call that has been answered does nothing any more. -/
theorem leaves_of_answered {r : ℕ} {result : Except String CreateSessionResponse}
    (ht : s.stage r = .answered result) : Leaves ctx rq uuid r s a := by
  intro hcall s' hs
  cases step_cases hs with
  | @goes a r' stage ha hopen hnot =>
    obtain rfl := Option.some.inj (ha.symm.trans hcall)
    exact absurd ht (hopen result)
  | makes ht' hfound =>
    obtain rfl := Option.some.inj hcall
    exact absurd (ht'.symm.trans ht) (by simp)
  | removes id => exact absurd hcall (by simp [CreateAction.call])
  | acts hx hact => exact absurd hcall (by simp [CreateAction.call])

/-- **The executor, for the session that a call has made.** -/
theorem executor_of_makes {r now : ℕ} {cache : String → Except String (Option TraceCacheFile)}
    {response : CreateSessionResponse} {s₁ s₂ : SessionService σ} {after : List CreateAction}
    (hstep : step ctx rq uuid s₁ (.load r cache now) = some s₂) (hmakes : Makes response s₁ s₂)
    (hrun : Runs.run (step ctx rq uuid) s₂ after = some s) :
    after.countP (CreateAction.spawnsAt s₁.heap.length) ≤ 1 ∧
      ∃ info rpcUrl tracePath, s₁.stage r = .loading info rpcUrl tracePath ∧
        (after.countP (CreateAction.spawnsAt s₁.heap.length) ≠ 0 → cache tracePath = .ok none) := by
  obtain ⟨hosted, hheap, -⟩ := hmakes.heap
  cases step_cases hstep with
  | goes ha hopen hnot =>
    -- there is one session more than there was
    exact absurd (congrArg List.length hheap) (by simp [setStage])
  | @makes _ _ _ info rpcUrl tracePath found ht hfound =>
    have hle := countP_spawnsAt_le (List.getElem?_concat_length) hrun
    cases found with
    | some file =>
      have hnone : after.countP (CreateAction.spawnsAt s₁.heap.length) = 0 := Nat.le_zero.mp hle
      exact ⟨hnone.trans_le (Nat.zero_le 1), info, rpcUrl, tracePath, ht, absurd hnone⟩
    | none => exact ⟨hle, info, rpcUrl, tracePath, ht, fun _ => hfound⟩

/-- One action more, after the session has been made. -/
theorem Creates.snoc {r now : ℕ} {response : CreateSessionResponse}
    {before after : List CreateAction} {s₁ s₂ : SessionService σ}
    {cache : String → Except String (Option TraceCacheFile)}
    (h : Creates ctx rq uuid r response before s₁ cache now s₂ after s)
    (ht : s.stage r = .answered (.ok response)) (hstep : step ctx rq uuid s a = some s') :
    Creates ctx rq uuid r response before s₁ cache now s₂ (after ++ [a]) s' := by
  have hruns := Runs.run_snoc_eq_some.mpr ⟨s, h.runs, hstep⟩
  obtain ⟨honce, hmiss⟩ := executor_of_makes h.makes.1 h.makes.2 hruns
  refine ⟨h.ran, h.untouched, h.makes, hruns, ?_, honce, hmiss⟩
  exact (Runs.along_append h.runs).mpr ⟨h.untouched', leaves_of_answered ht, fun _ _ => trivial⟩

/-- **A session is made under an identifier of its own**: nobody else has drawn it. -/
theorem makes_of_named (ctx : CreateContext σ) (huuid : Function.Injective uuid)
    (hn : Named uuid s) {r : ℕ} {info : CachedTxInfo} {rpcUrl tracePath : String}
    (ht : s.stage r = .loading info rpcUrl tracePath) (now : ℕ) (found : Option TraceCacheFile) :
    Makes (makeSession ctx (uuid r) info rpcUrl tracePath now found).2 s
      ((s.insert (uuid r) (makeSession ctx (uuid r) info rpcUrl tracePath now found).1).setStage r
        (.answered (.ok (makeSession ctx (uuid r) info rpcUrl tracePath now found).2))) := by
  obtain ⟨hid, hsaved, hstate, htrace⟩ :=
    reply_makeSession ctx (uuid r) info rpcUrl tracePath now found
  refine ⟨?_, by rw [hid]; rfl, ?_, _, rfl, hstate, htrace⟩
  · rw [hid, Option.eq_none_iff_forall_ne_some]
    intro place hplace
    obtain ⟨r', response, hr', ht'⟩ := hn _ _ hplace
    obtain rfl := huuid hr'
    exact absurd (ht.symm.trans ht') (by simp)
  · show (s.heap ++ [_]).flatMap Hosted.saved = s.saved
    rw [List.flatMap_append, List.flatMap_singleton, hsaved, List.append_nil]
    rfl

/-- **Every action keeps the invariant.** -/
theorem History.next (huuid : Function.Injective uuid) {r : ℕ} {actions : List CreateAction}
    (hrun : Runs.run (step ctx rq uuid) init actions = some s)
    (hh : History ctx rq uuid r actions s) (hstep : step ctx rq uuid s a = some s') :
    History ctx rq uuid r (actions ++ [a]) s' := by
  have hcases := step_cases hstep
  refine ⟨hh.named.next hcases, fun hnot => ?_, fun response ht => ?_⟩
  · have hbefore := hh.quiet fun response ht => hnot response (hcases.answered ht)
    refine (Runs.along_append hrun).mpr ⟨hbefore, fun hcall t hstep' => ?_, fun _ _ => trivial⟩
    obtain rfl := Option.some.inj (hstep.symm.trans hstep')
    cases hcases with
    | goes ha hopen hnot' => exact ⟨rfl, rfl⟩
    | makes ht hfound =>
      obtain rfl := Option.some.inj hcall
      exact absurd (Function.update_self _ _ _) (hnot _)
    | removes id => exact absurd hcall (by simp [CreateAction.call])
    | acts hx hact => exact absurd hcall (by simp [CreateAction.call])
  · by_cases hbefore : ∃ response, s.stage r = .answered (.ok response)
    · -- the session has been made before
      obtain ⟨response', ht'⟩ := hbefore
      obtain rfl : response' = response :=
        Except.ok.inj (CreateStage.answered.inj ((hcases.answered ht').symm.trans ht))
      obtain ⟨before, s₁, cache, now, s₂, after, rfl, hcreates⟩ := hh.made _ ht'
      exact ⟨before, s₁, cache, now, s₂, after ++ [a], by simp, hcreates.snoc ht' hstep⟩
    · have hquiet := hh.quiet fun response ht => hbefore ⟨response, ht⟩
      cases hcases with
      | @goes _ r' stage ha hopen hnot =>
        by_cases heq : r = r'
        · subst heq
          exact absurd ((Function.update_self _ _ _).symm.trans ht) (hnot response)
        · exact absurd ⟨response, (Function.update_of_ne heq _ _).symm.trans ht⟩ hbefore
      | @makes r' now cache info rpcUrl tracePath found ht' hfound =>
        by_cases heq : r = r'
        · -- this is where it is made
          subst heq
          obtain rfl : _ = response :=
            Except.ok.inj (CreateStage.answered.inj ((Function.update_self _ _ _).symm.trans ht))
          have hmakes := makes_of_named ctx huuid hh.named ht' now found
          obtain ⟨honce, hmiss⟩ := executor_of_makes hstep hmakes (Runs.run_nil _)
          exact ⟨actions, s, cache, now, _, [], rfl, hrun, hquiet, ⟨hstep, hmakes⟩,
            Runs.run_nil _, trivial, honce, hmiss⟩
        · exact absurd ⟨response, (Function.update_of_ne heq _ _).symm.trans ht⟩ hbefore
      | removes id => exact absurd ⟨response, ht⟩ hbefore
      | acts hx hact => exact absurd ⟨response, ht⟩ hbefore

end SessionService

/-- **`create_session` is all or nothing.** Whatever the requests, the fetchers and the trace
caches, in every interleaving of any number of calls, with each other and with whatever else happens
to the sessions. -/
theorem createSession_all_or_nothing {σ : Type} (ctx : CreateContext σ)
    (rq : ℕ → CreateSessionRequest) {uuid : ℕ → String} (huuid : Function.Injective uuid)
    {actions : List CreateAction} {s : SessionService σ}
    (h : Runs.run (SessionService.step ctx rq uuid) SessionService.init actions = some s) (r : ℕ) :
    SessionService.AllOrNothing ctx rq uuid r actions s := by
  have hh : SessionService.History ctx rq uuid r actions s :=
    Runs.run_induction (motive := fun actions s => SessionService.History ctx rq uuid r actions s)
      { named := fun id place hid => absurd hid (by simp [SessionService.init])
        quiet := fun _ => trivial
        made := fun response ht => absurd ht (by simp [SessionService.init]) }
      (fun _ _ _ _ hrun hh hstep => hh.next huuid hrun hstep) h
  exact ⟨fun message ht => hh.quiet fun response ht' => absurd (ht.symm.trans ht') (by simp),
    hh.made⟩

/-- A service that knows one URL, and has no thread survive its start. -/
def sampleService : CreateContext Unit where
  crate := sampleCrate
  urlText rpcUrl := rpcUrl ++ "/"
  allowlistEnv := none
  traceCachePath := traceCachePath
  executor := spawnEvmThread sampleReplay panickingMachine

/-- Everybody asks for the same transaction. -/
def sameRequest : ℕ → CreateSessionRequest := fun _ =>
  { txHash := hexHash 0
    rpcUrl := "https://93.184.216.34" }

/-- Two calls overlap: the first finds the transaction, but no trace of it, and its task has the
executor called; the fetcher has let down the second. -/
def overlappingRun : List CreateAction :=
  [.validate 0, .validate 1, .fetch 0 (fun _ _ => .ok (listedCall 0 []).info),
    .load 0 (fun _ => .ok none) 7, .act 0 .acquire,
    .fetch 1 (fun _ _ => .error "no such transaction"), .act 0 (.spawn true)]

/-- The request is acceptable. -/
theorem step_validate_sample (uuid : ℕ → String) {s : SessionService Unit} {r : ℕ}
    (ht : s.stage r = .new) :
    SessionService.step sampleService sameRequest uuid s (.validate r) =
      some (s.setStage r (.fetching (hexHash 0)
        (sampleService.urlText (sameRequest r).rpcUrl))) :=
  SessionService.step_validate ht (denotes_hexHash 0).canonicalize
    (show validateRpcUrl sampleCrate none "https://93.184.216.34" = .ok ipv4Url from rfl)

/-- One session has been made, and one call has left everything alone. -/
theorem all_or_nothing_overlappingRun :
    ∃ s, Runs.run (SessionService.step sampleService sameRequest Nat.repr) SessionService.init
        overlappingRun = some s ∧ s.sessions "0" = some 0 ∧
      s.stage 0 = .answered (.ok ⟨"0", .loading, []⟩) ∧
      s.stage 1 = .answered (.error "no such transaction") ∧
      ∀ r, SessionService.AllOrNothing sampleService sameRequest Nat.repr r overlappingRun s := by
  obtain ⟨s, hrun, hfound, hmade, hfailed⟩ : ∃ s,
      Runs.run (SessionService.step sampleService sameRequest Nat.repr) SessionService.init
        overlappingRun = some s ∧ s.sessions "0" = some 0 ∧
      s.stage 0 = .answered (.ok ⟨"0", .loading, []⟩) ∧
      s.stage 1 = .answered (.error "no such transaction") := by
    rw [overlappingRun, Runs.run_cons, step_validate_sample _ rfl, Option.bind_some, Runs.run_cons,
      step_validate_sample _ rfl, Option.bind_some]
    exact ⟨_, rfl, rfl, rfl, rfl⟩
  refine ⟨s, hrun, hfound, hmade, hfailed, fun r => ?_⟩
  exact createSession_all_or_nothing sampleService sameRequest (fun a b => Nat.repr_inj.mp) hrun r

end EvmDebugger
