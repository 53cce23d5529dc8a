import EvmDebugger.Cache.TraceCache
import EvmDebugger.Replay.Abort
import EvmDebugger.Replay.Listing
import EvmDebugger.Replay.Prefix
import EvmDebugger.Server.Creation

/-!
# One directory of traces

All sessions keep their traces in one directory, and a session that is made from a file shows what
some other session has saved – which may have been aborted since, or removed, or may have belonged
to a server that has been shut down. `EvmDebugger.TraceService` is the service of
`EvmDebugger.SessionService` together with that directory: what `load` is answered is what is in a
file, and what is in a file was written there by a task, unless it was there from the beginning.
Files may disappear at any time.

What a session shows has come a long way, then: recorded by an inspector, sent, received, published,
read again, written, and read by another session, and so on. `EvmDebugger.CreateContext.Traced` says
what is left of it in the end. However sessions are made, aborted, saved and evicted, what a session
shows has been recorded by a thread that replayed a record of the very transaction it was asked for
(`EvmDebugger.shown_is_recorded`); so whoever looks at a transaction, in whatever session, sees the
beginning of one and the same trace, if its records have one (`EvmDebugger.shown_agree`).

Which records those are, the fetcher says: `EvmDebugger.Records` is what it may answer, for a hash
and an endpoint, and nothing is assumed of it. That a file does not end up under another hash is a
matter of its name (`EvmDebugger.traceCachePath_inj`).
-/

namespace EvmDebugger

/-! ### The service and its directory -/

/-- **The service, with the files of traces.** `made` is a history: the call that made the session
at that place, and the file that was asked for. -/
structure TraceService (σ : Type) where
  service : SessionService σ
  files : Files String
  made : List (ℕ × String)

/-- The actions: those of the service, in which the trace cache answers what is in its files, if
they can be read; and a file disappears. -/
inductive TraceAction where
  | validate (call : ℕ)
  | fetch (call : ℕ) (fetcher : String → String → Except String CachedTxInfo)
  | load (call : ℕ) (readOk : Bool) (now : ℕ)
  | remove (id : String)
  | act (place : ℕ) (action : ReplayAction)
  | evict (path : String)

namespace TraceService

variable {σ : Type}

/-- A service that has just been started, over the files that are there. -/
def init (files : Files String) : TraceService σ where
  service := .init
  files := files
  made := []

/-- The trace cache, as it answers now. -/
def cache (json : Json TraceCacheFile) (s : TraceService σ) (readOk : Bool) (path : String) :
    Except String (Option TraceCacheFile) :=
  loadTraceCache json path (s.files path).isSome (if readOk then s.files path else none)

/-- The files, after somebody has done something to the session at a place: a task has saved the
trace of its session, or nothing has been written. -/
def filesAfter (json : Json TraceCacheFile) (s : TraceService σ) (place : ℕ) :
    ReplayAction → Files String
  | .save ok =>
    match s.service.heap[place]? with
    | some (.replayed _ tracePath state) =>
      match state.task with
      | .saving snapshots result =>
        (saveTraceCache json s.files tracePath snapshots result ok).1
      | _ => s.files
    | _ => s.files
  | _ => s.files

/-- **One action.** -/
def step (ctx : CreateContext σ) (json : Json TraceCacheFile) (rq : ℕ → CreateSessionRequest)
    (uuid : ℕ → String) (s : TraceService σ) : TraceAction → Option (TraceService σ)
  | .validate r =>
    (SessionService.step ctx rq uuid s.service (.validate r)).map fun service =>
      { s with service := service }
  | .fetch r fetcher =>
    (SessionService.step ctx rq uuid s.service (.fetch r fetcher)).map fun service =>
      { s with service := service }
  | .load r readOk now =>
    match s.service.stage r with
    | .loading _ _ tracePath =>
      (SessionService.step ctx rq uuid s.service (.load r (s.cache json readOk) now)).map
        fun service =>
          { s with
            service := service
            -- a session has been made, unless the file is there and cannot be read
            made := match s.cache json readOk tracePath with
              | .ok _ => s.made ++ [(r, tracePath)]
              | .error _ => s.made }
    | _ => none
  | .remove id =>
    (SessionService.step ctx rq uuid s.service (.remove id)).map fun service =>
      { s with service := service }
  | .act place action =>
    (SessionService.step ctx rq uuid s.service (.act place action)).map fun service =>
      { s with
        service := service
        files := s.filesAfter json place action }
  | .evict path => some { s with files := Function.update s.files path none }

end TraceService

/-! ### Traces of a transaction -/

/-- **What is on record**: for a hash and an endpoint, what the fetcher may answer. -/
abbrev Records := B256 → String → CachedTxInfo → Prop

/-- The fetcher answers with what is on record. -/
def TraceAction.Answers (records : Records) : TraceAction → Prop
  | .fetch _ fetcher =>
    ∀ g rpcUrl info, fetcher (hexHash g) rpcUrl = .ok info → records g rpcUrl info
  | .validate _ | .load .. | .remove _ | .act .. | .evict _ => True

section Traced

variable {σ : Type}

/-- **A trace of the transaction with this hash**, which belongs into this file: a thread that has
replayed a record of it has recorded it. -/
def CreateContext.Traced (ctx : CreateContext σ) (records : Records) (g : B256) (path : String)
    (snapshots : List StepSnapshot) (result : Option ExecutionResultInfo) : Prop :=
  ∃ info rpcUrl, records g rpcUrl info ∧
    path = ctx.traceCachePath (hexHash g) info.chainId info.blockNumber ∧
    (ctx.executor info rpcUrl).Recorded snapshots result

/-- **There is nothing in the files but traces**, each in the file it belongs into. -/
def CreateContext.Genuine (ctx : CreateContext σ) (records : Records) (json : Json TraceCacheFile)
    (files : Files String) : Prop :=
  ∀ path text, files path = some text → ∃ g snapshots result,
    text = json.toStringPretty ⟨snapshots, result⟩ ∧ ctx.Traced records g path snapshots result

/-- What can be read of the files: traces are read back as they were written. -/
def CreateContext.Readable (ctx : CreateContext σ) (records : Records)
    (json : Json TraceCacheFile) : Prop :=
  ∀ g path snapshots result, ctx.Traced records g path snapshots result →
    json.RoundTrips ⟨snapshots, result⟩

variable {ctx : CreateContext σ} {records : Records} {json : Json TraceCacheFile}

/-- **What is loaded is a trace** of the transaction whose file it is. -/
theorem CreateContext.Genuine.load {s : TraceService σ}
    (hpaths : ctx.traceCachePath = EvmDebugger.traceCachePath)
    (h : ctx.Genuine records json s.files) (hjson : ctx.Readable records json) {readOk : Bool}
    {g : B256} {chainId : Option U64} {blockNumber : U64} {file : TraceCacheFile}
    (hload : s.cache json readOk (ctx.traceCachePath (hexHash g) chainId blockNumber) =
      .ok (some file)) :
    ctx.Traced records g (ctx.traceCachePath (hexHash g) chainId blockNumber) file.snapshots
      file.result := by
  obtain ⟨text, hdata, hread⟩ := exists_of_load hload
  cases readOk with
  | false => exact absurd hdata (by simp)
  | true =>
    rw [if_pos rfl] at hdata
    obtain ⟨g', snapshots, result, rfl, htraced⟩ := h _ text hdata
    obtain rfl := Option.some.inj (hread.symm.trans (hjson g' _ snapshots result htraced))
    -- the name of the file says whose it is
    have ⟨info, rpcUrl, _, hpath, _⟩ := htraced
    rw [hpaths] at hpath
    obtain ⟨rfl, -, -⟩ := traceCachePath_inj hpath
    exact htraced

/-- **What is saved is added to the traces.** -/
theorem CreateContext.Genuine.save {files : Files String} (h : ctx.Genuine records json files)
    {g : B256} {path : String} {snapshots : List StepSnapshot}
    {result : Option ExecutionResultInfo} (htraced : ctx.Traced records g path snapshots result)
    (ok : Bool) :
    ctx.Genuine records json (saveTraceCache json files path snapshots result ok).1 := by
  intro path' text htext
  cases ok with
  | false => exact h path' text htext
  | true =>
    have hfiles : (saveTraceCache json files path snapshots result true).1 =
        Function.update files path (some (json.toStringPretty ⟨snapshots, result⟩)) := rfl
    rw [hfiles] at htext
    by_cases heq : path' = path
    · subst heq
      rw [Function.update_self] at htext
      exact ⟨g, snapshots, result, (Option.some.inj htext).symm, htraced⟩
    · rw [Function.update_of_ne heq] at htext
      exact h path' text htext

/-- Fewer files are no less genuine. -/
theorem CreateContext.Genuine.evict {files : Files String} (h : ctx.Genuine records json files)
    (path : String) : ctx.Genuine records json (Function.update files path none) := by
  intro path' text htext
  by_cases heq : path' = path
  · subst heq
    rw [Function.update_self] at htext
    exact absurd htext (by simp)
  · rw [Function.update_of_ne heq] at htext
    exact h path' text htext

end Traced

/-! ### Sessions and the traces they keep -/

namespace Hosted

variable {σ : Type} {ctx : CreateContext σ} {records : Records} {g : B256} {path : String}

/-- **A session that keeps to its transaction**: it was made from a trace of it, or waits for one,
or has got one. -/
inductive Keeps (ctx : CreateContext σ) (records : Records) (g : B256) (path : String) :
    Hosted σ → Prop where
  | cached {snapshots : List StepSnapshot} {result : Option ExecutionResultInfo} {world : World}
      (htraced : ctx.Traced records g path snapshots result)
      (hok : World.Ok (.fromCache snapshots result) world) :
      Keeps ctx records g path (.cached world)
  | replayed {info : CachedTxInfo} {rpcUrl : String} {state : Replay.State σ}
      (hrecord : records g rpcUrl info)
      (hpath : path = ctx.traceCachePath (hexHash g) info.chainId info.blockNumber)
      (hproducing : Replay.Producing (Replay.Halves (ctx.executor info rpcUrl))
        (fun _ => (ctx.executor info rpcUrl).Recorded) state) :
      Keeps ctx records g path (.replayed (ctx.executor info rpcUrl) path state)

/-- **Whatever is done to a session, it keeps to its transaction.** -/
theorem Keeps.act {hosted hosted' : Hosted σ} (h : Keeps ctx records g path hosted)
    {action : ReplayAction} (hact : hosted.act action = some hosted') :
    Keeps ctx records g path hosted' := by
  cases h with
  | cached htraced hok =>
    cases action with
    | client a =>
      rw [Hosted.act] at hact
      split at hact
      · obtain ⟨world', hstep, rfl⟩ := Option.map_eq_some_iff.mp hact
        exact .cached htraced (hok.step hstep)
      · exact absurd hact (by simp)
    | _ => exact absurd hact (by simp [Hosted.act])
  | @replayed info rpcUrl state hrecord hpath hproducing =>
    have hstep : ((ctx.executor info rpcUrl).step state action).map
        (Hosted.replayed (ctx.executor info rpcUrl) path) = some hosted' := by
      cases action <;> exact hact
    obtain ⟨state', hstate, rfl⟩ := Option.map_eq_some_iff.mp hstep
    refine .replayed hrecord hpath (hproducing.next ?_ (Replay.step_cases hstate))
    exact Replay.produces_recorded (ctx.executor info rpcUrl)

/-- **What it shows is a trace of the transaction.** -/
theorem Keeps.traced {hosted : Hosted σ} (h : Keeps ctx records g path hosted)
    {snapshots : List StepSnapshot} {i : ℕ} {result : Option ExecutionResultInfo}
    (hready : hosted.world.session.data = .ready snapshots i result) :
    ctx.Traced records g path snapshots result := by
  cases h with
  | cached htraced hok =>
    obtain ⟨rfl, rfl⟩ := hok.delivered hready
    exact htraced
  | @replayed info rpcUrl state hrecord hpath hproducing =>
    exact ⟨info, rpcUrl, hrecord, hpath, hproducing.carries.data snapshots i result hready⟩

/-- And so is what it is about to save. -/
theorem Keeps.saving {replay : Replay σ} {tracePath : String} {state : Replay.State σ}
    (h : Keeps ctx records g path (.replayed replay tracePath state))
    {snapshots : List StepSnapshot} {result : Option ExecutionResultInfo}
    (ht : state.task = .saving snapshots result) :
    ctx.Traced records g tracePath snapshots result := by
  cases h with
  | @replayed info rpcUrl _ hrecord hpath hproducing =>
    exact ⟨info, rpcUrl, hrecord, hpath, hproducing.carries.saving snapshots result ht⟩

end Hosted

/-- **What a call has found out is right**: the hash is the one that it has been given, the record
is one of that transaction, and the file is the one of that record. -/
def CreateContext.Asks {σ : Type} (ctx : CreateContext σ) (records : Records) (txHash : String) :
    CreateStage → Prop
  | .fetching canonicalHash _ => ∃ g, Denotes txHash g ∧ canonicalHash = hexHash g
  | .loading info rpcUrl tracePath => ∃ g, Denotes txHash g ∧ records g rpcUrl info ∧
      tracePath = ctx.traceCachePath (hexHash g) info.chainId info.blockNumber
  | .new | .answered _ => True

namespace TraceService

variable {σ : Type} {ctx : CreateContext σ} {records : Records} {json : Json TraceCacheFile}
  {rq : ℕ → CreateSessionRequest} {uuid : ℕ → String} {s s' : TraceService σ}

/-- **The invariant of the service**: there is nothing in the files but traces, and every session
keeps to the transaction that its call has asked for. -/
structure Sound (ctx : CreateContext σ) (records : Records) (json : Json TraceCacheFile)
    (rq : ℕ → CreateSessionRequest) (s : TraceService σ) : Prop where
  genuine : ctx.Genuine records json s.files
  length : s.made.length = s.service.heap.length
  asks : ∀ r, ctx.Asks records (rq r).txHash (s.service.stage r)
  keeps : ∀ (place : ℕ) (hosted : Hosted σ) (r : ℕ) (path : String),
    s.service.heap[place]? = some hosted → s.made[place]? = some (r, path) →
      ∃ g, Denotes (rq r).txHash g ∧ hosted.Keeps ctx records g path

theorem sound_init {files : Files String} (h : ctx.Genuine records json files) :
    Sound ctx records json rq (init files) where
  genuine := h
  length := rfl
  asks _ := trivial
  keeps place hosted r path hhosted := absurd hhosted (by simp [init, SessionService.init])

/-- One call comes to another stage. -/
theorem Sound.setStage (h : Sound ctx records json rq s) (r : ℕ) {stage : CreateStage}
    (hstage : ctx.Asks records (rq r).txHash stage) :
    Sound ctx records json rq { s with service := s.service.setStage r stage } where
  genuine := h.genuine
  length := h.length
  asks q := by
    show ctx.Asks records (rq q).txHash (Function.update s.service.stage r stage q)
    by_cases heq : q = r
    · subst heq
      rw [Function.update_self]
      exact hstage
    · rw [Function.update_of_ne heq]
      exact h.asks q
  keeps := h.keeps

/-- A request is checked. -/
theorem Sound.validate (h : Sound ctx records json rq s) {r : ℕ}
    (hs : step ctx json rq uuid s (.validate r) = some s') : Sound ctx records json rq s' := by
  obtain ⟨service, hservice, rfl⟩ := Option.map_eq_some_iff.mp hs
  rw [SessionService.step] at hservice
  split at hservice
  · split at hservice
    · obtain rfl := Option.some.inj hservice
      exact h.setStage r trivial
    · next canonicalHash hhash =>
      split at hservice <;> obtain rfl := Option.some.inj hservice
      · exact h.setStage r trivial
      · exact h.setStage r (denotes_of_canonicalize hhash)
  · exact absurd hservice (by simp)

/-- **A transaction is found**, or is not. -/
theorem Sound.fetch (h : Sound ctx records json rq s) {r : ℕ}
    {fetcher : String → String → Except String CachedTxInfo}
    (hfetcher : (TraceAction.fetch r fetcher).Answers records)
    (hs : step ctx json rq uuid s (.fetch r fetcher) = some s') : Sound ctx records json rq s' := by
  obtain ⟨service, hservice, rfl⟩ := Option.map_eq_some_iff.mp hs
  rw [SessionService.step] at hservice
  split at hservice
  · next canonicalHash rpcUrl hstage =>
    have hasks := h.asks r
    rw [hstage] at hasks
    obtain ⟨g, hg, rfl⟩ := hasks
    split at hservice
    · obtain rfl := Option.some.inj hservice
      exact h.setStage r trivial
    · next info hinfo =>
      obtain rfl := Option.some.inj hservice
      exact h.setStage r ⟨g, hg, hfetcher g rpcUrl info hinfo, rfl⟩
  · exact absurd hservice (by simp)

/-- **A session is made**, from a trace or to wait for one. -/
theorem Sound.load (hpaths : ctx.traceCachePath = traceCachePath)
    (hjson : ctx.Readable records json) (h : Sound ctx records json rq s) {r now : ℕ} {readOk : Bool}
    (hs : step ctx json rq uuid s (.load r readOk now) = some s') :
    Sound ctx records json rq s' := by
  rw [step] at hs
  split at hs
  · next info rpcUrl tracePath hstage =>
    obtain ⟨service, hservice, rfl⟩ := Option.map_eq_some_iff.mp hs
    have hasks := h.asks r
    rw [hstage] at hasks
    obtain ⟨g, hg, hrecord, rfl⟩ := hasks
    rw [SessionService.step, hstage] at hservice
    dsimp only at hservice
    split at hservice
    · next message hcache =>
      obtain rfl := Option.some.inj hservice
      rw [hcache]
      exact h.setStage r trivial
    · next found hcache =>
      obtain rfl := Option.some.inj hservice
      rw [hcache]
      obtain ⟨path, hpath⟩ : ∃ path,
          path = ctx.traceCachePath (hexHash g) info.chainId info.blockNumber := ⟨_, rfl⟩
      have hmade : (SessionService.makeSession ctx (uuid r) info rpcUrl path now found).1.Keeps
          ctx records g path := by
        cases found with
        | some file =>
          exact .cached (hpath ▸ h.genuine.load hpaths hjson hcache)
            (World.ok_world (.fromCache _ _) now)
        | none => exact .replayed hrecord hpath (Replay.producing_init now)
      rw [← hpath]
      refine Sound.setStage (s := { s with
        service := s.service.insert (uuid r) _
        made := s.made ++ [(r, path)] }) ?_ r trivial
      refine ⟨h.genuine, ?_, h.asks, ?_⟩
      · simp [SessionService.insert, h.length]
      · intro place hosted r' path' hhosted hmade'
        rcases Runs.getElem?_snoc hhosted with ⟨hlt, hold⟩ | ⟨rfl, rfl⟩
        · rw [List.getElem?_append_left (h.length ▸ hlt)] at hmade'
          exact h.keeps place hosted r' path' hold hmade'
        · rw [← h.length, List.getElem?_concat_length] at hmade'
          obtain ⟨rfl, rfl⟩ := Prod.mk.inj (Option.some.inj hmade')
          exact ⟨g, hg, hmade⟩
  · exact absurd hs (by simp)

/-- **Somebody does something to a session**, and a trace may be saved. -/
theorem Sound.act (h : Sound ctx records json rq s) {place : ℕ} {action : ReplayAction}
    (hs : step ctx json rq uuid s (.act place action) = some s') :
    Sound ctx records json rq s' := by
  obtain ⟨service, hservice, rfl⟩ := Option.map_eq_some_iff.mp hs
  rw [SessionService.step] at hservice
  split at hservice
  · exact absurd hservice (by simp)
  · next hosted hhosted =>
    obtain ⟨hosted', hact, rfl⟩ := Option.map_eq_some_iff.mp hservice
    have hlt := (List.getElem?_eq_some_iff.mp hhosted).1
    obtain ⟨⟨r, path⟩, hmade⟩ : ∃ made, s.made[place]? = some made :=
      ⟨_, List.getElem?_eq_getElem (h.length ▸ hlt)⟩
    obtain ⟨g, hg, hkeeps⟩ := h.keeps place hosted r path hhosted hmade
    refine ⟨?_, by simp [h.length], h.asks, ?_⟩
    · show ctx.Genuine records json (s.filesAfter json place action)
      unfold filesAfter
      split
      · rw [hhosted]
        split
        · next replay tracePath state heq =>
          obtain rfl := Option.some.inj heq
          split
          · next snapshots result ht => exact h.genuine.save (hkeeps.saving ht) _
          · exact h.genuine
        · exact h.genuine
      · exact h.genuine
    · intro place' hosted'' r' path' hhosted'' hmade'
      by_cases heq : place = place'
      · subst heq
        rw [List.getElem?_set_self hlt] at hhosted''
        obtain rfl := Option.some.inj hhosted''
        obtain ⟨rfl, rfl⟩ := Prod.mk.inj (Option.some.inj (hmade.symm.trans hmade'))
        exact ⟨g, hg, hkeeps.act hact⟩
      · rw [List.getElem?_set_ne heq] at hhosted''
        exact h.keeps place' hosted'' r' path' hhosted'' hmade'

/-- **Every action keeps the invariant.** -/
theorem Sound.next (hpaths : ctx.traceCachePath = traceCachePath)
    (hjson : ctx.Readable records json) (h : Sound ctx records json rq s) {action : TraceAction} (hanswers : action.Answers records)
    (hs : step ctx json rq uuid s action = some s') : Sound ctx records json rq s' := by
  cases action with
  | validate r => exact h.validate hs
  | fetch r fetcher => exact h.fetch hanswers hs
  | load r readOk now => exact h.load hpaths hjson hs
  | remove id =>
    obtain rfl := Option.some.inj hs
    exact ⟨h.genuine, h.length, h.asks, h.keeps⟩
  | act place action => exact h.act hs
  | evict path =>
    obtain rfl := Option.some.inj hs
    exact ⟨h.genuine.evict path, h.length, h.asks, h.keeps⟩

/-- **Every interleaving keeps the invariant.** -/
theorem sound_of_run (hpaths : ctx.traceCachePath = traceCachePath)
    (hjson : ctx.Readable records json) {files : Files String}
    (hfiles : ctx.Genuine records json files) {actions : List TraceAction}
    (hanswers : ∀ action ∈ actions, action.Answers records)
    (h : Runs.run (step ctx json rq uuid) (init files) actions = some s) :
    Sound ctx records json rq s :=
  Runs.run_invariant_along (fun _ _ _ hs ha hstep => hs.next hpaths hjson ha hstep)
    (sound_init hfiles) (Runs.along_of_forall fun a ha _ => hanswers a ha) h

/-- The session at a place was made by a call, for a file, and shows a trace. -/
def Shows (s : TraceService σ) (place r : ℕ) (path : String) (snapshots : List StepSnapshot)
    (result : Option ExecutionResultInfo) : Prop :=
  s.made[place]? = some (r, path) ∧ ∃ hosted i, s.service.heap[place]? = some hosted ∧
    hosted.world.session.data = .ready snapshots i result

/-- **What is shown is a trace of the transaction** that the call has asked for. -/
theorem Sound.traced (h : Sound ctx records json rq s) {place r : ℕ} {path : String}
    {snapshots : List StepSnapshot} {result : Option ExecutionResultInfo}
    (hshows : s.Shows place r path snapshots result) {g : B256} (hg : Denotes (rq r).txHash g) :
    ctx.Traced records g path snapshots result := by
  obtain ⟨hmade, hosted, i, hhosted, hready⟩ := hshows
  obtain ⟨g', hg', hkeeps⟩ := h.keeps place hosted r path hhosted hmade
  obtain rfl := hg'.unique hg
  exact hkeeps.traced hready

end TraceService

/-- **What a session shows has been recorded of its transaction**, in every interleaving of calls,
clients, replays, saves and evictions: by a thread that replayed a record which the fetcher has
answered for the very hash that the session was asked for – if perhaps for another session, or, for
a file that was there from the beginning, before. And there is still nothing else in the files at
the end, if there was nothing else in them to begin with. -/
theorem shown_is_recorded {σ : Type} {ctx : CreateContext σ}
    (hpaths : ctx.traceCachePath = traceCachePath) {records : Records} {json : Json TraceCacheFile}
    (hjson : ctx.Readable records json) {files : Files String}
    (hfiles : ctx.Genuine records json files) (rq : ℕ → CreateSessionRequest) (uuid : ℕ → String)
    {actions : List TraceAction} (hanswers : ∀ action ∈ actions, action.Answers records)
    {s : TraceService σ}
    (h : Runs.run (TraceService.step ctx json rq uuid) (.init files) actions = some s) :
    ctx.Genuine records json s.files ∧ ∀ place r path snapshots result g,
      s.Shows place r path snapshots result → Denotes (rq r).txHash g →
        ctx.Traced records g path snapshots result := by
  have hsound := TraceService.sound_of_run hpaths hjson hfiles hanswers h
  exact ⟨hsound.genuine, fun _ _ _ _ _ _ hshows hg => hsound.traced hshows hg⟩

/-! #### A trace that has been cut short -/

/-- A service whose transactions take two steps. -/
def twoStepsService : CreateContext (List Hook) where
  crate := sampleCrate
  urlText rpcUrl := rpcUrl ++ "/"
  allowlistEnv := none
  traceCachePath := traceCachePath
  executor _ _ := scriptReplay twoSteps (.ok sampleStop)

/-- One transaction is on record, and it is the first of its kind. -/
def oneRecord : Records := fun g _ info => g = 0 ∧ info = (listedCall 0 []).info

/-- The fetcher finds that one and no other. -/
def findsOne (txHash _rpcUrl : String) : Except String CachedTxInfo :=
  if txHash = hexHash 0 then .ok (listedCall 0 []).info else .error "no such transaction"

/-- The file its trace belongs into. -/
def onePath : String := traceCachePath (hexHash 0) (listedCall 0 []).info.chainId
  (listedCall 0 []).info.blockNumber

theorem answers_findsOne (r : ℕ) : (TraceAction.fetch r findsOne).Answers oneRecord := by
  intro g rpcUrl info h
  rw [findsOne] at h
  split at h
  · next heq => exact ⟨hexHash_inj heq, (Except.ok.inj h).symm⟩
  · exact absurd h (by simp)

/-- **What is recorded of it is read back.** -/
theorem readable_twoSteps (records : Records) : twoStepsService.Readable records twoStepsJson := by
  rintro g path snapshots result ⟨info, rpcUrl, -, -, hrecorded⟩
  have hends :
      (scriptReplay twoSteps (.ok sampleStop)).Undisturbed twoStepsTrace (.ok sampleStop) :=
    ⟨twoSteps, rfl, ends_scriptReplay twoSteps (.ok sampleStop) twoSteps (.new none)⟩
  have hbegins : snapshots <+: twoStepsTrace := Replay.Recorded.begins hrecorded hends
  obtain ⟨before, after, evm, i, outcome, -, -, -, hnext, hmsg⟩ := hrecorded
  have houtcome : outcome = .ok sampleStop := by
    cases evm with
    | nil => exact (EvmEvent.done.inj hnext).symm
    | cons hook rest => exact absurd hnext (by simp [twoStepsService, scriptReplay])
  subst houtcome
  obtain ⟨-, rfl⟩ := ChannelMessage.allSnapshots.inj hmsg
  exact roundTrips_twoSteps hbegins

/-- Where there is no file, there is none that is not genuine. -/
theorem genuine_none {σ : Type} {ctx : CreateContext σ} {records : Records}
    {json : Json TraceCacheFile} : ctx.Genuine records json fun _ => none :=
  fun _ _ h => absurd h (by simp)

/-- A request is acceptable to such a service, -/
theorem step_validate_same {json : Json TraceCacheFile} (uuid : ℕ → String)
    {s : TraceService (List Hook)} {r : ℕ} (ht : s.service.stage r = .new) :
    TraceService.step twoStepsService json sameRequest uuid s (.validate r) =
      some { s with
        service := s.service.setStage r (.fetching (hexHash 0)
          (twoStepsService.urlText (sameRequest r).rpcUrl)) } := by
  have haccepted : validateRpcUrl sampleCrate none (sameRequest r).rpcUrl = .ok ipv4Url := rfl
  have hservice : SessionService.step twoStepsService sameRequest uuid s.service (.validate r) =
      some (s.service.setStage r (.fetching (hexHash 0)
        (twoStepsService.urlText (sameRequest r).rpcUrl))) :=
    SessionService.step_validate ht (denotes_hexHash 0).canonicalize haccepted
  rw [TraceService.step, hservice]
  rfl

/-- its transaction is found, -/
theorem step_fetch_same {json : Json TraceCacheFile} (uuid : ℕ → String)
    {s : TraceService (List Hook)} {r : ℕ} {rpcUrl : String}
    (ht : s.service.stage r = .fetching (hexHash 0) rpcUrl) :
    TraceService.step twoStepsService json sameRequest uuid s (.fetch r findsOne) =
      some { s with
        service := s.service.setStage r (.loading (listedCall 0 []).info rpcUrl onePath) } := by
  have hfinds : findsOne (hexHash 0) rpcUrl = .ok (listedCall 0 []).info := if_pos rfl
  rw [TraceService.step, SessionService.step, ht]
  dsimp only
  rw [hfinds]
  rfl

/-- and a session is made for it from a file, if there is one. -/
theorem step_load_same {json : Json TraceCacheFile} (uuid : ℕ → String)
    {s : TraceService (List Hook)} {r : ℕ} (now : ℕ) {info : CachedTxInfo}
    {rpcUrl path text : String} {file : TraceCacheFile}
    (ht : s.service.stage r = .loading info rpcUrl path)
    (htext : s.files path = some text) (hread : json.fromStr text = some file) :
    ∃ s', TraceService.step twoStepsService json sameRequest uuid s (.load r true now) = some s' ∧
      s'.made = s.made ++ [(r, path)] ∧ s'.service.heap =
        s.service.heap ++ [.cached (.fromCache file.snapshots file.result now)] := by
  have hcache : s.cache json true path = .ok (some file) := by
    rw [TraceService.cache, if_pos rfl, htext, loadTraceCache, Option.isSome_some, if_pos rfl,
      hread]
  rw [TraceService.step, ht]
  dsimp only
  rw [SessionService.step, ht]
  dsimp only
  rw [hcache]
  exact ⟨_, rfl, rfl, rfl⟩

/-- Two sessions are made and replayed. The first is aborted after its first step, so late that what
it has recorded is saved all the same; the other one is left alone. -/
def cutShort : List TraceAction :=
  [.load 0 true 7, .load 1 true 8] ++ lateAbort.map (.act 0) ++
    [.act 1 .acquire, .act 1 (.spawn true), .act 1 .task, .act 1 (.evm false), .act 1 (.evm false),
      .act 1 (.evm false), .act 1 (.evm false), .act 1 (.evm false), .act 1 (.evm false),
      .act 1 (.evm false), .act 1 .task, .act 1 .task]

/-- Three calls for the same transaction; two sessions are made for it; then a third, from the
file. -/
def thirdLook : List TraceAction :=
  [.validate 0, .validate 1, .validate 2, .fetch 0 findsOne, .fetch 1 findsOne,
    .fetch 2 findsOne] ++ cutShort ++ [.load 2 true 9]

theorem answers_thirdLook : ∀ action ∈ thirdLook, action.Answers oneRecord := by
  intro action h
  rw [thirdLook, List.append_assoc] at h
  rcases List.mem_append.mp h with h | h
  · simp only [List.mem_cons, List.not_mem_nil, or_false] at h
    obtain rfl | rfl | rfl | rfl | rfl | rfl := h
    · trivial
    · trivial
    · trivial
    · exact answers_findsOne 0
    · exact answers_findsOne 1
    · exact answers_findsOne 2
  · cases action with
    | fetch r fetcher => exact absurd h (by simp [cutShort])
    | _ => trivial

/-- The second session shows both steps, and the third one only the first. -/
theorem exists_thirdLook :
    ∃ s, Runs.run (TraceService.step twoStepsService twoStepsJson sameRequest Nat.repr)
        (.init fun _ => none) thirdLook = some s ∧
      s.Shows 1 1 onePath twoStepsTrace (some sampleStop.info) ∧
      s.Shows 2 2 onePath (twoStepsTrace.take 1) (some sampleStop.info) := by
  obtain ⟨s, hrun, hstage, hfiles, hmade, first, second, hheap, hready⟩ : ∃ s,
      Runs.run (TraceService.step twoStepsService twoStepsJson sameRequest Nat.repr)
        (.init fun _ => none) ([.validate 0, .validate 1, .validate 2, .fetch 0 findsOne,
          .fetch 1 findsOne, .fetch 2 findsOne] ++ cutShort) = some s ∧
      s.service.stage 2 = .loading (listedCall 0 []).info
        (twoStepsService.urlText "https://93.184.216.34") onePath ∧
      s.files = Function.update (fun _ => none) onePath
        (some (twoStepsJson.toStringPretty ⟨twoStepsTrace.take 1, some sampleStop.info⟩)) ∧
      s.made = [(0, onePath), (1, onePath)] ∧
      ∃ first second, s.service.heap = [first, second] ∧
        second.world.session.data = .ready twoStepsTrace 0 (some sampleStop.info) := by
    simp only [List.cons_append, List.nil_append]
    rw [Runs.run_cons, step_validate_same _ rfl, Option.bind_some, Runs.run_cons,
      step_validate_same _ rfl, Option.bind_some, Runs.run_cons, step_validate_same _ rfl,
      Option.bind_some, Runs.run_cons, step_fetch_same _ rfl, Option.bind_some, Runs.run_cons,
      step_fetch_same _ rfl, Option.bind_some, Runs.run_cons, step_fetch_same _ rfl,
      Option.bind_some]
    exact ⟨_, rfl, rfl, rfl, rfl, _, _, rfl, rfl⟩
  have htext : s.files onePath =
      some (twoStepsJson.toStringPretty ⟨twoStepsTrace.take 1, some sampleStop.info⟩) := by
    rw [hfiles, Function.update_self]
  have hread := roundTrips_twoSteps (List.take_prefix 1 twoStepsTrace)
  obtain ⟨s', hstep, hmade', hheap'⟩ := step_load_same Nat.repr 9 hstage htext hread
  rw [hmade] at hmade'
  rw [hheap] at hheap'
  have hthird : s'.service.heap[2]? =
      some (.cached (.fromCache (twoStepsTrace.take 1) (some sampleStop.info) 9)) := by
    rw [hheap']
    rfl
  refine ⟨s', Runs.run_snoc_eq_some.mpr ⟨s, hrun, hstep⟩, ⟨?_, second, 0, ?_, hready⟩, ?_, _, 0,
    hthird, rfl⟩
  · rw [hmade']
    rfl
  · rw [hheap']
    rfl
  · rw [hmade']
    rfl

/-- What the third session shows was recorded for the first one. -/
theorem recorded_thirdLook :
    ∃ s : TraceService (List Hook),
      s.Shows 2 2 onePath (twoStepsTrace.take 1) (some sampleStop.info) ∧
      twoStepsService.Traced oneRecord 0 onePath (twoStepsTrace.take 1) (some sampleStop.info) := by
  obtain ⟨s, hrun, -, hshows⟩ := exists_thirdLook
  have hrecorded := shown_is_recorded rfl (readable_twoSteps oneRecord) genuine_none sameRequest
    Nat.repr answers_thirdLook hrun
  exact ⟨s, hshows, hrecorded.2 2 2 _ _ _ 0 hshows (denotes_hexHash 0)⟩

/-! ### Whoever looks at it -/

/-- **The transaction has one trace**: from whatever record of it, and over whatever endpoint, what
is recorded undisturbed is the beginning of it. -/
def CreateContext.OneTrace {σ : Type} (ctx : CreateContext σ) (records : Records) (g : B256)
    (whole : List StepSnapshot) : Prop :=
  ∀ info rpcUrl evm, records g rpcUrl info → (ctx.executor info rpcUrl).boot = .ok evm →
    ∃ snapshots outcome, (ctx.executor info rpcUrl).Undisturbed snapshots outcome ∧
      snapshots <+: whole

/-- Whoever has called a hook has been started. -/
theorem Replay.Reaches.booted {σ : Type} {R : Replay σ} {events : List (Hook × Bool)} {evm : σ}
    {i : StepDebugInspector} (h : R.Reaches events evm i) : ∃ evm₀, R.boot = .ok evm₀ := by
  induction h with
  | boot hboot => exact ⟨_, hboot⟩
  | hook seen h hnext ih => exact ih

/-- **A trace of a transaction is the beginning of the one that it has.** -/
theorem CreateContext.Traced.begins {σ : Type} {ctx : CreateContext σ} {records : Records}
    {g : B256} {path : String} {snapshots whole : List StepSnapshot}
    {result : Option ExecutionResultInfo} (h : ctx.Traced records g path snapshots result)
    (hone : ctx.OneTrace records g whole) : snapshots <+: whole := by
  obtain ⟨info, rpcUrl, hrecord, -, hrecorded⟩ := h
  have ⟨before, after, evm, i, outcome, hreach, _⟩ := hrecorded
  obtain ⟨evm₀, hboot⟩ := hreach.booted
  obtain ⟨undisturbed, outcome, hu, hbegins⟩ := hone info rpcUrl evm₀ hrecord hboot
  exact (hrecorded.begins hu).trans hbegins

/-- **No two sessions contradict each other.** Of two sessions that have been asked for the same
transaction, in whatever spelling, whenever they were made, and whatever has become of them, one
shows the beginning of what the other one shows. -/
theorem shown_agree {σ : Type} {ctx : CreateContext σ}
    (hpaths : ctx.traceCachePath = traceCachePath) {records : Records} {json : Json TraceCacheFile}
    (hjson : ctx.Readable records json) {files : Files String}
    (hfiles : ctx.Genuine records json files) (rq : ℕ → CreateSessionRequest) (uuid : ℕ → String)
    {actions : List TraceAction} (hanswers : ∀ action ∈ actions, action.Answers records)
    {s : TraceService σ}
    (h : Runs.run (TraceService.step ctx json rq uuid) (.init files) actions = some s)
    {g : B256} {whole : List StepSnapshot} (hone : ctx.OneTrace records g whole)
    {place place' r r' : ℕ} {path path' : String} {snapshots snapshots' : List StepSnapshot}
    {result result' : Option ExecutionResultInfo}
    (hshows : s.Shows place r path snapshots result) (hr : Denotes (rq r).txHash g)
    (hshows' : s.Shows place' r' path' snapshots' result') (hr' : Denotes (rq r').txHash g) :
    snapshots <+: snapshots' ∨ snapshots' <+: snapshots := by
  have hsound := TraceService.sound_of_run hpaths hjson hfiles hanswers h
  exact List.prefix_or_prefix_of_prefix ((hsound.traced hshows hr).begins hone)
    ((hsound.traced hshows' hr').begins hone)

/-- The transaction on record has one trace, of two steps. -/
theorem oneTrace_twoSteps : twoStepsService.OneTrace oneRecord 0 twoStepsTrace :=
  fun _ _ _ _ _ => ⟨twoStepsTrace, .ok sampleStop,
    ⟨twoSteps, rfl, ends_scriptReplay twoSteps (.ok sampleStop) twoSteps (.new none)⟩,
    List.prefix_rfl⟩

/-- The two sessions agree, as far as the shorter trace goes. -/
theorem agree_thirdLook :
    ∃ s : TraceService (List Hook), s.Shows 1 1 onePath twoStepsTrace (some sampleStop.info) ∧
      s.Shows 2 2 onePath (twoStepsTrace.take 1) (some sampleStop.info) ∧
      (twoStepsTrace <+: twoStepsTrace.take 1 ∨ twoStepsTrace.take 1 <+: twoStepsTrace) := by
  obtain ⟨s, hrun, hshows, hshows'⟩ := exists_thirdLook
  exact ⟨s, hshows, hshows', shown_agree rfl (readable_twoSteps oneRecord) genuine_none sameRequest
    Nat.repr answers_thirdLook hrun oneTrace_twoSteps hshows (denotes_hexHash 0) hshows'
    (denotes_hexHash 0)⟩

end EvmDebugger
