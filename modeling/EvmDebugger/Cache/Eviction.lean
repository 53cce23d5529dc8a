import EvmDebugger.Cache.Fetcher

/-!
# Looking up while files are removed

A request looks for a file twice, once in `fetch_tx_info`, where there are two places to look, and
once in `load_trace_cache`. Each time it asks whether the file exists, and if it does, it reads it;
and each time it has an answer to the case that there is none: it asks the endpoint, or replays the
transaction. Meanwhile `cleanup_cache_dir` goes through the directory and removes what is old.

`EvmDebugger.Lookups.step` is one request to the file system, made by one of them. The file that a
request has found is not its own until it has been read. If it is removed before that, the request
fails, though there was an answer to the case that there is no file: the read that does not find it
is an error like any other (`EvmDebugger.Lookups.failed_of_removed`).
`EvmDebugger.lookups_only_miss`: in a run in which no file is removed that somebody has found and
not yet read, a lookup gives what the file says, or misses, and no request fails because a file is
not there.

A request that nobody interferes with does what `fetch_tx_info` and `load_trace_cache` do when they
are taken to be one action each (`EvmDebugger.Lookups.exists_fetch`,
`EvmDebugger.Lookups.exists_load`).
-/

namespace EvmDebugger

/-! ### The state -/

/-- What may be wrong when a file is read, as far as it matters. -/
inductive IoError where
  | notFound
  | other
  deriving DecidableEq

/-- A file of the cache directory: what is in it, and when it was written. -/
structure CacheEntry where
  text : String
  modified : ℕ
  deriving DecidableEq

/-- What lookups depend on, the files apart. -/
structure LookupContext extends FetchContext where
  traceJson : Json TraceCacheFile

/-- What is looked up: `create_session` has made the hash canonical and the URL valid, and gives the
one to both lookups and the other to the first. -/
structure LookupRequest where
  txHash : String
  rpcUrl : String
  deriving DecidableEq

/-- **How far a request has come.** An error comes with the error of the file system that caused
it, if one did. -/
inductive LookupStage where
  | new
  /-- It asks whether the canonical file exists. -/
  | canonical (look : TxLookup)
  /-- It does not; and the one under the name that was given? -/
  | legacy (look : TxLookup)
  /-- A file exists, and is to be read. -/
  | reading (look : TxLookup) (path : String)
  /-- It has been read under the name that was given, and is to be copied. -/
  | copying (look : TxLookup) (data : String) (info : CachedTxInfo)
  /-- There is no file: the endpoint is asked. -/
  | fetching (look : TxLookup)
  | storing (look : TxLookup) (info : CachedTxInfo)
  /-- `fetch_tx_info` has returned; is there a trace? -/
  | fetched (info : CachedTxInfo)
  /-- There is, and it is to be read. -/
  | readingTrace (info : CachedTxInfo) (path : String)
  /-- There is none: the transaction is replayed. -/
  | replaying (info : CachedTxInfo)
  | cached (file : TraceCacheFile)
  | failed (message : String) (cause : Option IoError)
  deriving DecidableEq

namespace LookupStage

/-- The file that has been found, and not yet read. -/
def found : LookupStage → Option String
  | reading _ path | readingTrace _ path => some path
  | _ => none

/-- The record of the transaction, from a file or from the endpoint. -/
def info : LookupStage → Option CachedTxInfo
  | copying _ _ info | storing _ info | fetched info | readingTrace info _ | replaying info =>
    some info
  | _ => none

end LookupStage

/-- What `cleanup_cache_dir` is doing: it has read the clock, and goes through the directory; or it
has found that a file is old, and is about to remove it. -/
inductive Cleaner where
  | sleeping
  | scanning (now : ℕ)
  | removing (now : ℕ) (path : String)
  deriving DecidableEq

/-- The directory, the requests and the cleaner. -/
structure Lookups where
  now : ℕ
  files : Files CacheEntry
  stage : ℕ → LookupStage
  cleaner : Cleaner

/-- The actions: time passes; somebody – a task that saves a trace, another process – writes a file;
a request goes on, and `ok` says whether what it asks of the file system succeeds; the cleaner goes
on. -/
inductive LookupAction where
  | tick (secs : ℕ)
  | write (path text : String)
  | go (request : ℕ) (ok : Bool)
  | cleanStart
  | cleanEntry (path : String)
  | cleanRemove (ok : Bool)
  | cleanEnd
  deriving DecidableEq

namespace Lookups

/-- Nobody has done anything yet. -/
def init (files : Files CacheEntry) : Lookups where
  now := 0
  files := files
  stage _ := .new
  cleaner := .sleeping

/-! ### Requests -/

/-- `Path::exists`: a file of which nothing can be found out does not exist. -/
def pathExists (files : Files CacheEntry) (path : String) (ok : Bool) : Bool :=
  ok && (files path).isSome

/-- `read_to_string`. -/
def readToString (files : Files CacheEntry) (path : String) (ok : Bool) : Except IoError String :=
  match files path with
  | none => .error .notFound
  | some file => if ok then .ok file.text else .error .other

/-- **A request goes on**: `fetch_tx_info`, and then `load_trace_cache`. -/
def next (ctx : LookupContext) (rq : LookupRequest) (now : ℕ) (files : Files CacheEntry)
    (ok : Bool) : LookupStage → Option (Files CacheEntry × LookupStage)
  | .new =>
    match txLookup rq.txHash with
    | .error message => some (files, .failed message none)
    | .ok look => some (files, .canonical look)
  | .canonical look =>
    if pathExists files look.cachePath ok then some (files, .reading look look.cachePath)
    else some (files, .legacy look)
  | .legacy look =>
    if pathExists files look.legacyCachePath ok then
      some (files, .reading look look.legacyCachePath)
    else some (files, .fetching look)
  | .reading look path =>
    match readToString files path ok with
    | .error e => some (files, .failed ("reading cache file " ++ path) (some e))
    | .ok data =>
      match ctx.json.fromStr data with
      | none => some (files, .failed "deserializing cached tx" none)
      | some info =>
        if path ≠ look.cachePath then some (files, .copying look data info)
        else some (files, .fetched info)
  | .copying look data info =>
    -- whether this succeeds is not looked at
    some (files.writeAtomic look.cachePath ⟨data, now⟩ ok, .fetched info)
  | .fetching look =>
    match ctx.give rq.rpcUrl look.hash with
    | .error message => some (files, .failed message none)
    | .ok info => some (files, .storing look info)
  | .storing look info =>
    some (files.writeAtomic look.cachePath ⟨ctx.json.toStringPretty info, now⟩ ok,
      if ok then .fetched info else .failed ("writing cache " ++ look.cachePath) none)
  | .fetched info =>
    let path := traceCachePath rq.txHash info.chainId info.blockNumber
    if pathExists files path ok then some (files, .readingTrace info path)
    else some (files, .replaying info)
  | .readingTrace _ path =>
    match readToString files path ok with
    | .error e => some (files, .failed ("reading " ++ path) (some e))
    | .ok data =>
      match ctx.traceJson.fromStr data with
      | none => some (files, .failed ("deserializing " ++ path) none)
      | some file => some (files, .cached file)
  | .replaying _ | .cached _ | .failed _ _ => none

/-- What has become of a request, and of the files. -/
def settle (s : Lookups) (r : ℕ) (result : Files CacheEntry × LookupStage) : Lookups :=
  { s with
    files := result.1
    stage := Function.update s.stage r result.2 }

/-- **One action.** -/
def step (ttl : ℕ) (ctx : LookupContext) (rq : ℕ → LookupRequest) (s : Lookups) :
    LookupAction → Option Lookups
  | .tick secs => some { s with now := s.now + secs }
  | .write path text => some { s with files := s.files.writeAtomic path ⟨text, s.now⟩ true }
  | .go r ok =>
    (next ctx (rq r) s.now s.files ok (s.stage r)).map (s.settle r)
  | .cleanStart =>
    match s.cleaner with
    | .sleeping => some { s with cleaner := .scanning s.now }
    | _ => none
  | .cleanEntry path =>
    match s.cleaner with
    | .scanning now =>
      match s.files path with
      | none => some s
      | some file =>
        if ttl < now - file.modified then some { s with cleaner := .removing now path } else some s
    | _ => none
  | .cleanRemove ok =>
    match s.cleaner with
    | .removing now path =>
      some { s with
        files := if ok then Function.update s.files path none else s.files
        cleaner := .scanning now }
    | _ => none
  | .cleanEnd =>
    match s.cleaner with
    | .scanning _ => some { s with cleaner := .sleeping }
    | _ => none

@[simp] theorem stage_settle (s : Lookups) (r : ℕ) (result : Files CacheEntry × LookupStage) :
    (s.settle r result).stage r = result.2 := Function.update_self _ _ _

/-- The other requests are where they were. -/
theorem stage_settle_of_ne (s : Lookups) {r q : ℕ} (h : q ≠ r)
    (result : Files CacheEntry × LookupStage) : (s.settle r result).stage q = s.stage q :=
  Function.update_of_ne h _ _

/-! ### A request by itself -/

section Alone

variable {ttl : ℕ} {ctx : LookupContext} {rq : ℕ → LookupRequest} {s s' : Lookups}

/-- What is in the files. -/
def texts (files : Files CacheEntry) : Files String := fun path => (files path).map (·.text)

/-- The texts after a file has been written. -/
theorem texts_writeAtomic (files : Files CacheEntry) (path : String) (file : CacheEntry)
    (ok : Bool) :
    texts (files.writeAtomic path file ok) = (texts files).writeAtomic path file.text ok := by
  cases ok with
  | false => rfl
  | true =>
    funext p
    rw [texts, Files.writeAtomic, Files.writeAtomic, if_pos rfl, if_pos rfl]
    by_cases heq : p = path
    · rw [heq, Function.update_self, Function.update_self, Option.map_some]
    · rw [Function.update_of_ne heq, Function.update_of_ne heq, texts]

/-- **A request goes on by itself**, and nothing else happens. -/
def Alone (ttl : ℕ) (ctx : LookupContext) (rq : ℕ → LookupRequest) (r : ℕ) (s s' : Lookups) :
    Prop :=
  ∃ oks : List Bool, Runs.run (step ttl ctx rq) s (oks.map (.go r)) = some s'

theorem Alone.refl (r : ℕ) (s : Lookups) : Alone ttl ctx rq r s s := ⟨[], rfl⟩

/-- One action, and the rest. -/
theorem Alone.go {r : ℕ} (ok : Bool) {result : Files CacheEntry × LookupStage}
    (h : next ctx (rq r) s.now s.files ok (s.stage r) = some result)
    (hrest : Alone ttl ctx rq r (s.settle r result) s') : Alone ttl ctx rq r s s' := by
  obtain ⟨oks, hrun⟩ := hrest
  refine ⟨ok :: oks, ?_⟩
  rw [List.map_cons, Runs.run_cons, step, h]
  exact hrun

/-- **`fetch_tx_info` has returned**, and has left the files like this. -/
def Returned (s : Lookups) (r : ℕ) (answer : Files String × Except String CachedTxInfo) : Prop :=
  texts s.files = answer.1 ∧
    match answer.2 with
    | .ok info => s.stage r = .fetched info
    | .error message => ∃ cause, s.stage r = .failed message cause

/-- What `fetch_tx_info` returns when it has found a file, and has read it or not. -/
def readAnswer (ctx : FetchContext) (files : Files String) (look : TxLookup) (path : String)
    (writeOk : Bool) : Option String → Files String × Except String CachedTxInfo
  | none => (files, .error ("reading cache file " ++ path))
  | some data =>
    match ctx.json.fromStr data with
    | none => (files, .error "deserializing cached tx")
    | some info =>
      (if path ≠ look.cachePath then files.writeAtomic look.cachePath data writeOk else files,
        .ok info)

/-- `fetch_tx_info`, by what it has found. -/
theorem fetchTxInfo_of_found {ctx : FetchContext} {files : Files String} {call : FetchCall}
    {look : TxLookup} (hlook : txLookup call.txHash = .ok look) {path text : String}
    (hpath : (if (files look.cachePath).isSome then some look.cachePath
      else if (files look.legacyCachePath).isSome then some look.legacyCachePath else none)
        = some path) (hfile : files path = some text) :
    ctx.fetchTxInfo files call =
      readAnswer ctx files look path call.writeOk (if call.readOk then some text else none) := by
  unfold FetchContext.fetchTxInfo
  rw [hlook]
  dsimp only
  rw [hpath]
  dsimp only
  rw [hfile]
  rfl

/-- A request that has found a file reads it, and does with it what `fetch_tx_info` does. -/
theorem Alone.read (ttl : ℕ) (ctx : LookupContext) (rq : ℕ → LookupRequest) {r : ℕ}
    {files : Files CacheEntry} {look : TxLookup} {path : String} {file : CacheEntry}
    (hfiles : s.files = files) (ht : s.stage r = .reading look path)
    (hfile : files path = some file) (readOk writeOk : Bool) :
    ∃ s', Alone ttl ctx rq r s s' ∧
      Returned s' r (readAnswer ctx.toFetchContext (texts files) look path writeOk
        (if readOk then some file.text else none)) := by
  subst hfiles
  cases readOk with
  | false =>
    have hnext : next ctx (rq r) s.now s.files false (s.stage r) =
        some (s.files, .failed ("reading cache file " ++ path) (some .other)) := by
      rw [ht, next, readToString, hfile]
      rfl
    exact ⟨_, .go false hnext (.refl r _), rfl, _, stage_settle _ _ _⟩
  | true =>
    have hread : readToString s.files path true = .ok file.text := by
      rw [readToString, hfile]
      rfl
    rw [if_pos rfl, readAnswer]
    cases hinfo : ctx.json.fromStr file.text with
    | none =>
      have hnext : next ctx (rq r) s.now s.files true (s.stage r) =
          some (s.files, .failed "deserializing cached tx" none) := by
        rw [ht, next, hread]
        dsimp only
        rw [hinfo]
      exact ⟨_, .go true hnext (.refl r _), rfl, _, stage_settle _ _ _⟩
    | some info =>
      dsimp only
      by_cases hne : path ≠ look.cachePath
      · have hnext : next ctx (rq r) s.now s.files true (s.stage r) =
            some (s.files, .copying look file.text info) := by
          rw [ht, next, hread]
          dsimp only
          rw [hinfo]
          exact if_pos hne
        let s₁ := s.settle r (s.files, .copying look file.text info)
        have hcopy : next ctx (rq r) s₁.now s₁.files writeOk (s₁.stage r) =
            some (s.files.writeAtomic look.cachePath ⟨file.text, s.now⟩ writeOk,
              .fetched info) := by
          rw [show s₁.stage r = _ from stage_settle _ _ _]
          rfl
        rw [if_pos hne]
        refine ⟨_, .go true hnext (.go writeOk hcopy (.refl r _)), ?_, stage_settle _ _ _⟩
        exact texts_writeAtomic s.files look.cachePath ⟨file.text, s.now⟩ writeOk
      · have hnext : next ctx (rq r) s.now s.files true (s.stage r) =
            some (s.files, .fetched info) := by
          rw [ht, next, hread]
          dsimp only
          rw [hinfo]
          exact if_neg hne
        rw [if_neg hne]
        exact ⟨_, .go true hnext (.refl r _), rfl, stage_settle _ _ _⟩

/-- A request that has found no file asks the endpoint, as `fetch_tx_info` does. -/
theorem Alone.fetch (ttl : ℕ) (ctx : LookupContext) (rq : ℕ → LookupRequest) {r : ℕ}
    {files : Files CacheEntry} {look : TxLookup} (hfiles : s.files = files)
    (hlook : txLookup (rq r).txHash = .ok look) (ht : s.stage r = .fetching look)
    (hfile : texts files look.cachePath = none)
    (hlegacy : texts files look.legacyCachePath = none) (readOk writeOk : Bool) :
    ∃ s', Alone ttl ctx rq r s s' ∧
      Returned s' r (ctx.fetchTxInfo (texts files)
        ⟨(rq r).txHash, (rq r).rpcUrl, readOk, writeOk⟩) := by
  subst hfiles
  let call : FetchCall := ⟨(rq r).txHash, (rq r).rpcUrl, readOk, writeOk⟩
  have hlook' : txLookup call.txHash = .ok look := hlook
  rw [FetchContext.fetchTxInfo_of_missing hlook' hfile hlegacy, show call.rpcUrl = (rq r).rpcUrl
    from rfl, show call.writeOk = writeOk from rfl]
  cases hgive : ctx.give (rq r).rpcUrl look.hash with
  | error message =>
    have hnext : next ctx (rq r) s.now s.files true (s.stage r) =
        some (s.files, .failed message none) := by rw [ht, next, hgive]
    exact ⟨_, .go true hnext (.refl r _), rfl, _, stage_settle _ _ _⟩
  | ok info =>
    have hnext : next ctx (rq r) s.now s.files true (s.stage r) =
        some (s.files, .storing look info) := by rw [ht, next, hgive]
    let s₁ := s.settle r (s.files, .storing look info)
    have hstore : next ctx (rq r) s₁.now s₁.files writeOk (s₁.stage r) =
        some (s.files.writeAtomic look.cachePath ⟨ctx.json.toStringPretty info, s.now⟩ writeOk,
          if writeOk then .fetched info
            else .failed ("writing cache " ++ look.cachePath) none) := by
      rw [show s₁.stage r = _ from stage_settle _ _ _]
      rfl
    refine ⟨_, .go true hnext (.go writeOk hstore (.refl r _)), ?_, ?_⟩
    · exact texts_writeAtomic s.files _ ⟨ctx.json.toStringPretty info, s.now⟩ writeOk
    · rw [stage_settle]
      cases writeOk with
      | true => rfl
      | false => exact ⟨none, rfl⟩

/-- **A request that nobody interferes with** does what `fetch_tx_info` does, whatever it is
that can be read and written. -/
theorem exists_fetch {r : ℕ} (ht : s.stage r = .new) (readOk writeOk : Bool) :
    ∃ s', Alone ttl ctx rq r s s' ∧
      Returned s' r (ctx.fetchTxInfo (texts s.files)
        ⟨(rq r).txHash, (rq r).rpcUrl, readOk, writeOk⟩) := by
  cases hlook : txLookup (rq r).txHash with
  | error message =>
    have hnext : next ctx (rq r) s.now s.files true (s.stage r) =
        some (s.files, .failed message none) := by rw [ht, next, hlook]
    have hfetch : ctx.fetchTxInfo (texts s.files) ⟨(rq r).txHash, (rq r).rpcUrl, readOk, writeOk⟩
        = (texts s.files, .error message) := by
      unfold FetchContext.fetchTxInfo
      rw [hlook]
    rw [hfetch]
    exact ⟨_, .go true hnext (.refl r _), rfl, _, stage_settle _ _ _⟩
  | ok look =>
    have hnext : next ctx (rq r) s.now s.files true (s.stage r) =
        some (s.files, .canonical look) := by rw [ht, next, hlook]
    let call : FetchCall := ⟨(rq r).txHash, (rq r).rpcUrl, readOk, writeOk⟩
    have hlook' : txLookup call.txHash = .ok look := hlook
    let s₁ := s.settle r (s.files, .canonical look)
    have ht₁ : s₁.stage r = .canonical look := stage_settle _ _ _
    cases hfile : s.files look.cachePath with
    | some file =>
      have htext : texts s.files look.cachePath = some file.text := by
        rw [texts, hfile, Option.map_some]
      have hfind : next ctx (rq r) s₁.now s₁.files true (s₁.stage r) =
          some (s.files, .reading look look.cachePath) := by
        rw [ht₁, next, pathExists, show s₁.files look.cachePath = some file from hfile]
        rfl
      obtain ⟨s', halone, hreturned⟩ := Alone.read ttl ctx rq rfl
        (stage_settle s₁ r (s.files, .reading look look.cachePath)) hfile readOk writeOk
      refine ⟨s', .go true hnext (.go true hfind halone), ?_⟩
      rw [fetchTxInfo_of_found hlook' (by rw [htext]; rfl) htext]
      exact hreturned
    | none =>
      have htext : texts s.files look.cachePath = none := by rw [texts, hfile, Option.map_none]
      have hpass : next ctx (rq r) s₁.now s₁.files true (s₁.stage r) =
          some (s.files, .legacy look) := by
        rw [ht₁, next, pathExists, show s₁.files look.cachePath = none from hfile]
        rfl
      let s₂ := s₁.settle r (s.files, .legacy look)
      have ht₂ : s₂.stage r = .legacy look := stage_settle _ _ _
      cases hlegacy : s.files look.legacyCachePath with
      | some file =>
        have htext' : texts s.files look.legacyCachePath = some file.text := by
          rw [texts, hlegacy, Option.map_some]
        have hfind : next ctx (rq r) s₂.now s₂.files true (s₂.stage r) =
            some (s.files, .reading look look.legacyCachePath) := by
          rw [ht₂, next, pathExists, show s₂.files look.legacyCachePath = some file from hlegacy]
          rfl
        obtain ⟨s', halone, hreturned⟩ := Alone.read ttl ctx rq rfl
          (stage_settle s₂ r (s.files, .reading look look.legacyCachePath)) hlegacy readOk writeOk
        refine ⟨s', .go true hnext (.go true hpass (.go true hfind halone)), ?_⟩
        rw [fetchTxInfo_of_found hlook' (by rw [htext, htext']; rfl) htext']
        exact hreturned
      | none =>
        have htext' : texts s.files look.legacyCachePath = none := by
          rw [texts, hlegacy, Option.map_none]
        have hmiss : next ctx (rq r) s₂.now s₂.files true (s₂.stage r) =
            some (s.files, .fetching look) := by
          rw [ht₂, next, pathExists, show s₂.files look.legacyCachePath = none from hlegacy]
          rfl
        obtain ⟨s', halone, hreturned⟩ := Alone.fetch ttl ctx rq rfl hlook
          (stage_settle s₂ r (s.files, .fetching look)) htext htext' readOk writeOk
        exact ⟨s', .go true hnext (.go true hpass (.go true hmiss halone)), hreturned⟩

/-- **And then what `load_trace_cache` does.** -/
theorem exists_load {r : ℕ} {info : CachedTxInfo} (ht : s.stage r = .fetched info)
    (readOk : Bool) {path : String}
    (hpath : path = traceCachePath (rq r).txHash info.chainId info.blockNumber) :
    ∃ s', Alone ttl ctx rq r s s' ∧ s'.files = s.files ∧
      match loadTraceCache ctx.traceJson path (texts s.files path).isSome
        (if readOk then texts s.files path else none) with
      | .ok none => s'.stage r = .replaying info
      | .ok (some file) => s'.stage r = .cached file
      | .error message => ∃ cause, s'.stage r = .failed message cause := by
  cases hfile : s.files path with
  | none =>
    have htext : texts s.files path = none := by rw [texts, hfile, Option.map_none]
    have hload : loadTraceCache ctx.traceJson path (texts s.files path).isSome
        (if readOk then texts s.files path else none) = .ok none := by
      rw [htext]
      rfl
    have hmiss : next ctx (rq r) s.now s.files true (s.stage r) =
        some (s.files, .replaying info) := by
      rw [ht, next, ← hpath, pathExists, hfile]
      rfl
    rw [hload]
    exact ⟨_, .go true hmiss (.refl r _), rfl, stage_settle _ _ _⟩
  | some file =>
    have htext : texts s.files path = some file.text := by rw [texts, hfile, Option.map_some]
    have hfind : next ctx (rq r) s.now s.files true (s.stage r) =
        some (s.files, .readingTrace info path) := by
      rw [ht, next, ← hpath, pathExists, hfile]
      rfl
    let s₁ := s.settle r (s.files, .readingTrace info path)
    have ht₁ : s₁.stage r = .readingTrace info path := stage_settle _ _ _
    have hfile₁ : s₁.files path = some file := hfile
    rw [htext]
    cases readOk with
    | false =>
      have hread : next ctx (rq r) s₁.now s₁.files false (s₁.stage r) =
          some (s.files, .failed ("reading " ++ path) (some .other)) := by
        rw [ht₁, next, readToString, hfile₁]
        rfl
      exact ⟨_, .go true hfind (.go false hread (.refl r _)), rfl, _, stage_settle _ _ _⟩
    | true =>
      have hread : readToString s₁.files path true = .ok file.text := by
        rw [readToString, hfile₁]
        rfl
      cases htrace : ctx.traceJson.fromStr file.text with
      | none =>
        have hload : loadTraceCache ctx.traceJson path (some file.text).isSome
            (if true then some file.text else none) = .error ("deserializing " ++ path) := by
          simp [loadTraceCache, htrace]
        have hfail : next ctx (rq r) s₁.now s₁.files true (s₁.stage r) =
            some (s.files, .failed ("deserializing " ++ path) none) := by
          rw [ht₁, next, hread]
          dsimp only
          rw [htrace]
          rfl
        rw [hload]
        exact ⟨_, .go true hfind (.go true hfail (.refl r _)), rfl, _, stage_settle _ _ _⟩
      | some trace =>
        have hload : loadTraceCache ctx.traceJson path (some file.text).isSome
            (if true then some file.text else none) = .ok (some trace) := by
          simp [loadTraceCache, htrace]
        have hread' : next ctx (rq r) s₁.now s₁.files true (s₁.stage r) =
            some (s.files, .cached trace) := by
          rw [ht₁, next, hread]
          dsimp only
          rw [htrace]
          rfl
        rw [hload]
        exact ⟨_, .go true hfind (.go true hread' (.refl r _)), rfl, stage_settle _ _ _⟩

end Alone

/-! ### What a request does to the others -/

section Next

variable {ctx : LookupContext} {rq : LookupRequest} {now : ℕ} {files files' : Files CacheEntry}
  {ok : Bool} {stage stage' : LookupStage} {path : String}

/-- Writing removes nothing. -/
theorem writeAtomic_ne_none (file : CacheEntry) (h : files path ≠ none) (path' : String) :
    files.writeAtomic path' file ok path ≠ none := by
  rw [Files.writeAtomic]
  split
  · by_cases heq : path = path'
    · rw [heq, Function.update_self]
      simp
    · rwa [Function.update_of_ne heq]
  · exact h

/-- A file that exists is there. -/
theorem ne_none_of_pathExists (h : pathExists files path ok = true) : files path ≠ none := by
  rw [pathExists, Bool.and_eq_true] at h
  exact Option.isSome_iff_ne_none.mp h.2

/-- Only a file that is not there is not found. -/
theorem readToString_ne_notFound (h : files path ≠ none) :
    readToString files path ok ≠ .error .notFound := by
  rw [readToString]
  split
  · next hnone => exact absurd hnone h
  · cases ok <;> simp

/-- **What a request does to the others, and to itself**: it removes nothing; what it has found is
there; and it fails for want of a file only if what it had found is not there. -/
structure Proceeds (files : Files CacheEntry) (stage : LookupStage) (files' : Files CacheEntry)
    (stage' : LookupStage) : Prop where
  keeps : ∀ path, files path ≠ none → files' path ≠ none
  found : ∀ path, stage'.found = some path → files' path ≠ none
  never : (∀ path, stage.found = some path → files path ≠ none) →
    ∀ message, stage' ≠ .failed message (some .notFound)

/-- Nothing is written, nothing has been found, and nothing has failed for want of a file. -/
theorem Proceeds.of_eq (hfound : stage'.found = none)
    (hnever : ∀ message, stage' ≠ .failed message (some .notFound)) :
    Proceeds files stage files stage' where
  keeps _ h := h
  found path h := absurd (hfound.symm.trans h) (by simp)
  never _ := hnever

/-- A file exists, and has been found. -/
theorem Proceeds.of_exists (hexists : pathExists files path ok = true)
    (hfound : stage'.found = some path) : Proceeds files stage files stage' where
  keeps _ h := h
  found path' hpath' := by
    obtain rfl := Option.some.inj (hfound.symm.trans hpath')
    exact ne_none_of_pathExists hexists
  never _ message hfailed := by
    rw [hfailed] at hfound
    exact absurd hfound (by simp [LookupStage.found])

/-- A file that had been found could not be read. -/
theorem Proceeds.of_error {e : IoError} (hfound : stage.found = some path)
    (he : readToString files path ok = .error e) (message : String) :
    Proceeds files stage files (.failed message (some e)) where
  keeps _ h := h
  found _ h := absurd h (by simp [LookupStage.found])
  never hthere message' hfailed := by
    obtain rfl := Option.some.inj (LookupStage.failed.inj hfailed).2
    exact readToString_ne_notFound (hthere path hfound) he

/-- A file is written, or is not. -/
theorem Proceeds.of_write (file : CacheEntry) (path : String) (hfound : stage'.found = none)
    (hnever : ∀ message, stage' ≠ .failed message (some .notFound)) :
    Proceeds files stage (files.writeAtomic path file ok) stage' where
  keeps _ h := writeAtomic_ne_none file h path
  found path h := absurd (hfound.symm.trans h) (by simp)
  never _ := hnever

/-- **It does nothing else.** -/
theorem next_eq_some (h : next ctx rq now files ok stage = some (files', stage')) :
    Proceeds files stage files' stage' := by
  cases stage with
  | new | fetching look =>
    rw [next] at h
    split at h <;> obtain ⟨rfl, rfl⟩ := Prod.mk.inj (Option.some.inj h) <;>
      exact .of_eq rfl (by simp)
  | canonical look | legacy look | fetched info =>
    rw [next] at h
    split at h
    · next hexists =>
      obtain ⟨rfl, rfl⟩ := Prod.mk.inj (Option.some.inj h)
      exact .of_exists hexists rfl
    · obtain ⟨rfl, rfl⟩ := Prod.mk.inj (Option.some.inj h)
      exact .of_eq rfl (by simp)
  | reading look path =>
    rw [next] at h
    split at h
    · next e he =>
      obtain ⟨rfl, rfl⟩ := Prod.mk.inj (Option.some.inj h)
      exact .of_error rfl he _
    · split at h
      · obtain ⟨rfl, rfl⟩ := Prod.mk.inj (Option.some.inj h)
        exact .of_eq rfl (by simp)
      · split at h <;> obtain ⟨rfl, rfl⟩ := Prod.mk.inj (Option.some.inj h) <;>
          exact .of_eq rfl (by simp)
  | readingTrace info path =>
    rw [next] at h
    split at h
    · next e he =>
      obtain ⟨rfl, rfl⟩ := Prod.mk.inj (Option.some.inj h)
      exact .of_error rfl he _
    · split at h <;> obtain ⟨rfl, rfl⟩ := Prod.mk.inj (Option.some.inj h) <;>
        exact .of_eq rfl (by simp)
  | copying look data info =>
    obtain ⟨rfl, rfl⟩ := Prod.mk.inj (Option.some.inj h)
    exact .of_write ⟨data, now⟩ _ rfl (by simp)
  | storing look info =>
    obtain ⟨rfl, rfl⟩ := Prod.mk.inj (Option.some.inj h)
    refine .of_write ⟨ctx.json.toStringPretty info, now⟩ _ ?_ fun message => ?_
    · cases ok <;> rfl
    · cases ok <;> simp
  | replaying info | cached file | failed message cause => exact absurd h (by simp [next])

end Next

/-! ### Runs in which nothing that has been found is removed -/

variable {ttl : ℕ} {ctx : LookupContext} {rq : ℕ → LookupRequest} {s s' : Lookups}
  {a : LookupAction}

/-- **The cleaner removes nothing that somebody has found** and not yet read. -/
def Undisturbed (s : Lookups) : LookupAction → Prop
  | .cleanRemove true => ∀ now path, s.cleaner = .removing now path →
      ∀ r, (s.stage r).found ≠ some path
  | _ => True

/-- **The invariant**: what has been found is there, and nobody has failed for want of a file. -/
structure Steady (s : Lookups) : Prop where
  found : ∀ r path, (s.stage r).found = some path → s.files path ≠ none
  never : ∀ r message, s.stage r ≠ .failed message (some .notFound)

/-- **What one action can do**: a request goes on; or the requests are where they were, and so are
the files, or one has been written, or one has been removed by the cleaner. -/
theorem step_eq_some (h : step ttl ctx rq s a = some s') :
    (∃ r ok files stage, a = .go r ok ∧
        next ctx (rq r) s.now s.files ok (s.stage r) = some (files, stage) ∧
        s' = s.settle r (files, stage)) ∨
      s'.stage = s.stage ∧
        (s'.files = s.files ∨
          (∃ path file, s'.files = s.files.writeAtomic path file true) ∨
          ∃ now path, a = .cleanRemove true ∧ s.cleaner = .removing now path ∧
            s'.files = Function.update s.files path none) := by
  cases a with
  | tick secs =>
    obtain rfl := Option.some.inj h
    exact Or.inr ⟨rfl, Or.inl rfl⟩
  | write path text =>
    obtain rfl := Option.some.inj h
    exact Or.inr ⟨rfl, Or.inr (Or.inl ⟨path, ⟨text, s.now⟩, rfl⟩)⟩
  | go r ok =>
    obtain ⟨⟨files, stage⟩, hnext, rfl⟩ := Option.map_eq_some_iff.mp h
    exact Or.inl ⟨r, ok, files, stage, rfl, hnext, rfl⟩
  | cleanStart | cleanEnd =>
    rw [step] at h
    split at h
    · obtain rfl := Option.some.inj h
      exact Or.inr ⟨rfl, Or.inl rfl⟩
    · exact absurd h (by simp)
  | cleanEntry path =>
    -- a file is looked at, and may be the one to be removed next
    rw [step] at h
    split at h
    · split at h
      · exact Option.some.inj h ▸ Or.inr ⟨rfl, Or.inl rfl⟩
      · split at h <;> exact Option.some.inj h ▸ Or.inr ⟨rfl, Or.inl rfl⟩
    · exact absurd h (by simp)
  | cleanRemove ok =>
    rw [step] at h
    split at h
    · next now path hremoving =>
      obtain rfl := Option.some.inj h
      cases ok with
      | false => exact Or.inr ⟨rfl, Or.inl rfl⟩
      | true => exact Or.inr ⟨rfl, Or.inr (Or.inr ⟨now, path, rfl, hremoving, rfl⟩)⟩
    · exact absurd h (by simp)

/-- **Every undisturbed action keeps it.** -/
theorem Steady.act (hs : Steady s) (hu : Undisturbed s a) (h : step ttl ctx rq s a = some s') :
    Steady s' := by
  rcases step_eq_some h with ⟨r, ok, files, stage, rfl, hnext, rfl⟩ | ⟨hstage, hfiles⟩
  · have hproceeds := next_eq_some hnext
    constructor
    · intro q path hpath
      by_cases heq : q = r
      · subst heq
        rw [stage_settle] at hpath
        exact hproceeds.found path hpath
      · rw [stage_settle_of_ne s heq] at hpath
        exact hproceeds.keeps path (hs.found q path hpath)
    · intro q message
      by_cases heq : q = r
      · subst heq
        rw [stage_settle]
        exact hproceeds.never (hs.found q) message
      · rw [stage_settle_of_ne s heq]
        exact hs.never q message
  · refine ⟨fun r p hp => ?_, fun r => hstage ▸ hs.never r⟩
    have hthere : s.files p ≠ none := hs.found r p (hstage ▸ hp)
    rcases hfiles with hfiles | ⟨path, file, hfiles⟩ | ⟨now, path, rfl, hremoving, hfiles⟩
    · rwa [hfiles]
    · rw [hfiles]
      exact writeAtomic_ne_none file hthere path
    · -- what is removed is nothing that somebody has found
      have hne : p ≠ path := fun heq => hu now path hremoving r (heq ▸ hstage ▸ hp)
      rwa [hfiles, Function.update_of_ne hne]

/-- **Every run of undisturbed actions keeps it.** -/
theorem steady_of_run {files : Files CacheEntry} {actions : List LookupAction}
    (h : Runs.run (step ttl ctx rq) (init files) actions = some s)
    (hal : Runs.Along (step ttl ctx rq) Undisturbed (init files) actions) : Steady s :=
  Runs.run_invariant_along (fun _ _ _ hs hu hstep => hs.act hu hstep)
    ⟨fun _ _ hp => absurd hp (by simp [init, LookupStage.found]), fun _ _ => by simp [init]⟩ hal h

/-- **A file that has been removed cannot be read**, whoever has found it: of the actions that
disturb, none is harmless, if the request goes on before somebody writes the file again. -/
theorem failed_of_removed {now : ℕ} {path : String} {r : ℕ}
    (hfound : (s.stage r).found = some path) (hremoving : s.cleaner = .removing now path)
    (hstep : step ttl ctx rq s (.cleanRemove true) = some s') (ok : Bool) :
    ∃ s'' message, step ttl ctx rq s' (.go r ok) = some s'' ∧
      s''.stage r = .failed message (some .notFound) := by
  rw [step, hremoving] at hstep
  obtain rfl := Option.some.inj hstep
  let files := Function.update s.files path none
  have hread : readToString files path ok = .error .notFound := by
    rw [readToString, show files path = none from Function.update_self _ _ _]
  -- the one or the other has been found, and is read
  obtain ⟨message, hnext⟩ : ∃ message, next ctx (rq r) s.now files ok (s.stage r) =
      some (files, .failed message (some .notFound)) := by
    cases ht : s.stage r with
    | reading look found | readingTrace info found =>
      obtain rfl : found = path :=
        Option.some.inj ((congrArg LookupStage.found ht).symm.trans hfound)
      rw [next, hread]
      exact ⟨_, rfl⟩
    | _ => exact absurd ((congrArg LookupStage.found ht).symm.trans hfound) nofun
  exact ⟨_, message, congrArg (Option.map _) hnext, stage_settle _ _ _⟩

/-- **An eviction is a miss and nothing else.** When a request reads a file that it has found, the
file is there, and what can be read of it is read from all of it; when there is no file, the request
falls through, to the endpoint or to a replay; and it has not failed because a file is not there. -/
structure OnlyMisses (ttl : ℕ) (ctx : LookupContext) (rq : ℕ → LookupRequest) (s : Lookups)
    (r : ℕ) : Prop where
  tx : ∀ look path, s.stage r = .reading look path → ∃ file, s.files path = some file ∧
    ∀ info, ctx.json.fromStr file.text = some info →
      ∀ s', step ttl ctx rq s (.go r true) = some s' → (s'.stage r).info = some info
  trace : ∀ info path, s.stage r = .readingTrace info path → ∃ file, s.files path = some file ∧
    ∀ trace, ctx.traceJson.fromStr file.text = some trace →
      ∀ s', step ttl ctx rq s (.go r true) = some s' → s'.stage r = .cached trace
  txMiss : ∀ look ok s', s.stage r = .legacy look → s.files look.legacyCachePath = none →
    step ttl ctx rq s (.go r ok) = some s' → s'.stage r = .fetching look
  traceMiss : ∀ info ok s', s.stage r = .fetched info →
    s.files (traceCachePath (rq r).txHash info.chainId info.blockNumber) = none →
    step ttl ctx rq s (.go r ok) = some s' → s'.stage r = .replaying info
  never : ∀ message, s.stage r ≠ .failed message (some .notFound)

/-- What is not there does not exist. -/
theorem pathExists_of_none {files : Files CacheEntry} {path : String} (h : files path = none)
    (ok : Bool) : pathExists files path ok = false := by
  rw [pathExists, h, Option.isSome_none, Bool.and_false]

/-- **Where everything is steady, an eviction is a miss.** -/
theorem Steady.onlyMisses (hs : Steady s) (r : ℕ) : OnlyMisses ttl ctx rq s r where
  tx look path ht := by
    obtain ⟨file, hfile⟩ := Option.ne_none_iff_exists'.mp (hs.found r path (by rw [ht]; rfl))
    refine ⟨file, hfile, fun info hinfo s' hstep => ?_⟩
    obtain ⟨result, hnext, rfl⟩ := Option.map_eq_some_iff.mp hstep
    rw [ht, next, readToString, hfile] at hnext
    simp only [if_true, hinfo] at hnext
    rw [stage_settle]
    split at hnext <;> exact Option.some.inj hnext ▸ rfl
  trace info path ht := by
    obtain ⟨file, hfile⟩ := Option.ne_none_iff_exists'.mp (hs.found r path (by rw [ht]; rfl))
    refine ⟨file, hfile, fun trace htrace s' hstep => ?_⟩
    obtain ⟨result, hnext, rfl⟩ := Option.map_eq_some_iff.mp hstep
    rw [ht, next, readToString, hfile] at hnext
    simp only [if_true, htrace] at hnext
    rw [stage_settle, ← Option.some.inj hnext]
  txMiss look ok s' ht hnone hstep := by
    obtain ⟨result, hnext, rfl⟩ := Option.map_eq_some_iff.mp hstep
    rw [ht, next, pathExists_of_none hnone, if_neg (by simp)] at hnext
    rw [stage_settle, ← Option.some.inj hnext]
  traceMiss info ok s' ht hnone hstep := by
    obtain ⟨result, hnext, rfl⟩ := Option.map_eq_some_iff.mp hstep
    rw [ht, next, pathExists_of_none hnone, if_neg (by simp)] at hnext
    rw [stage_settle, ← Option.some.inj hnext]
  never := hs.never r

end Lookups

/-- **A lookup gives the whole file or misses**, in every run in which no file is removed that
somebody has found and not yet read: whatever the requests, the endpoints and the files, and
whenever the cleaner goes through them. -/
theorem lookups_only_miss (ttl : ℕ) (ctx : LookupContext) (rq : ℕ → LookupRequest)
    (files : Files CacheEntry) {actions : List LookupAction} {s : Lookups}
    (h : Runs.run (Lookups.step ttl ctx rq) (.init files) actions = some s)
    (hal : Runs.Along (Lookups.step ttl ctx rq) Lookups.Undisturbed (.init files) actions)
    (r : ℕ) : s.OnlyMisses ttl ctx rq r :=
  (Lookups.steady_of_run h hal).onlyMisses r

/-! ### A file that is removed, too late and in time -/

/-- Two chains, as before, and the traces of two steps. -/
def sampleLookups : LookupContext where
  toFetchContext := twoChains
  traceJson := twoStepsJson

/-- Everybody looks up the same transaction. -/
def staleRequest : ℕ → LookupRequest := fun _ =>
  { txHash := hexHash 1
    rpcUrl := "https://93.184.216.34" }

/-- It has a file, and the file is old. -/
def staleFiles : Files CacheEntry :=
  Function.update (fun _ => none) (txCachePath (hexHash 1)) (some ⟨keylessText 5, 0⟩)

theorem txLookup_staleRequest (r : ℕ) : txLookup (staleRequest r).txHash =
    .ok ⟨1, txCachePath (hexHash 1), txCachePath (hexHash 1)⟩ := txLookup_hexHash 1

/-- The cleaner finds that the file is old, and removes it. -/
def removal : List LookupAction :=
  [.cleanStart, .cleanEntry (txCachePath (hexHash 1)), .cleanRemove true]

/-- The file is removed before the request has asked whether it exists. -/
def timelyRun : List LookupAction :=
  [.tick 100, .go 0 true] ++ removal ++ [.go 0 true, .go 0 true]

/-- The request misses, and goes on to ask the endpoint. -/
theorem only_misses_timelyRun :
    ∃ s, Runs.run (Lookups.step 60 sampleLookups staleRequest) (.init staleFiles) timelyRun
        = some s ∧
      (∃ look, s.stage 0 = .fetching look) ∧ s.OnlyMisses 60 sampleLookups staleRequest 0 := by
  obtain ⟨s, hrun, hstage⟩ : ∃ s,
      Runs.run (Lookups.step 60 sampleLookups staleRequest) (.init staleFiles) timelyRun
        = some s ∧ ∃ look, s.stage 0 = .fetching look := by
    simp [timelyRun, removal, Lookups.step, Lookups.next, Lookups.init, Lookups.settle,
      Lookups.pathExists, staleFiles, txLookup_staleRequest]
  refine ⟨s, hrun, hstage, lookups_only_miss 60 sampleLookups staleRequest staleFiles hrun ?_ 0⟩
  -- when the file is removed, the request has found nothing yet
  have hnew : LookupStage.found .new = none := rfl
  have hcanonical : ∀ look, LookupStage.found (.canonical look) = none := fun _ => rfl
  simp [timelyRun, removal, Runs.Along, Lookups.Undisturbed, Lookups.step, Lookups.next,
    Lookups.init, Lookups.settle, Lookups.pathExists, staleFiles, txLookup_staleRequest,
    Function.update_apply, apply_ite LookupStage.found, hnew, hcanonical]

/-- The file is removed when the request has found it, and is about to read it. -/
def untimelyRun : List LookupAction :=
  [.tick 100, .go 0 true, .go 0 true] ++ removal ++ [.go 0 true]

/-- **The request fails**, though it had only to ask the endpoint. -/
theorem not_only_misses_untimelyRun :
    ¬∀ s, Runs.run (Lookups.step 60 sampleLookups staleRequest) (.init staleFiles) untimelyRun
        = some s → s.OnlyMisses 60 sampleLookups staleRequest 0 := by
  intro h
  obtain ⟨s, hrun, hstage⟩ : ∃ s,
      Runs.run (Lookups.step 60 sampleLookups staleRequest) (.init staleFiles) untimelyRun
        = some s ∧
      s.stage 0 =
        .failed ("reading cache file " ++ txCachePath (hexHash 1)) (some .notFound) := by
    simp [untimelyRun, removal, Lookups.step, Lookups.next, Lookups.init, Lookups.settle,
      Lookups.pathExists, Lookups.readToString, staleFiles, txLookup_staleRequest]
  exact (h s hrun).never _ hstage

end EvmDebugger
