import EvmDebugger.Cache.Eviction
import EvmDebugger.Cache.Spellings
import EvmDebugger.Server.Creation

/-!
# Files under other names

The file of a transaction is named after its hash, and the hash can be spelled in many ways. There
may be files that are named after another spelling than the canonical one, and `fetch_tx_info`
provides for them: it looks under the name that it was given as well, and what it finds there it
copies to where it belongs (`EvmDebugger.FetchContext.fetchTxInfo_takesOver`).

But it is `create_session` that calls it, and `create_session` has made the hash canonical before.
So the name that `fetch_tx_info` is given is never another one: it looks twice in the same place,
and goes on to ask the endpoint. However the hash was spelled, no file of that name is ever taken
over (`EvmDebugger.not_takesOver_of_legacy`), and in no interleaving does a request come to the
point where a file is copied (`EvmDebugger.Lookups.canonical_of_run`).
-/

namespace EvmDebugger

namespace FetchContext

/-- The same, in a world of other endpoints. -/
def withEndpoint (ctx : FetchContext) (endpoint : String → Endpoint) : FetchContext :=
  { ctx with endpoint := endpoint }

/-- **`create_session`, as far as the record of the transaction**: the hash is made canonical, the
URL is checked, and `fetch_tx_info` is called. -/
def createFetch (ctx : FetchContext) (urlText : String → String) (files : Files String)
    (call : FetchCall) : Files String × Except String CachedTxInfo :=
  match canonicalizeTxHash call.txHash with
  | .error message => (files, .error message)
  | .ok canonicalHash =>
    match validateRpcUrl ctx.crate ctx.allowlistEnv call.rpcUrl with
    | .error message => (files, .error message)
    | .ok _ =>
      ctx.fetchTxInfo files { call with txHash := canonicalHash, rpcUrl := urlText call.rpcUrl }

/-- The files after a list of requests. -/
def filesAfterCreating (ctx : FetchContext) (urlText : String → String) (files : Files String)
    (calls : List FetchCall) : Files String :=
  calls.foldl (fun files call => (ctx.createFetch urlText files call).1) files

/-- **There is a file to be taken over**: there is a record under the name of the string as it is
written, and no file under the name of the hash that it stands for. -/
structure Legacy (ctx : FetchContext) (files : Files String) (s k text : String)
    (info : CachedTxInfo) : Prop where
  accepted : canonicalizeTxHash s = .ok k
  file : files (txCachePath (Text.trim s)) = some text
  record : ctx.json.fromStr text = some info
  absent : files (txCachePath k) = none

/-- **The file is taken over** by somebody who answers a request: he answers with the record in the
file, whatever the endpoints, so he asks none; if the write succeeds, the text is the same under the
canonical name; and from then on, whatever has been asked for in between, a request for the hash is
answered with that record, in whatever spelling. -/
structure TakesOver (ctx : FetchContext) (urlText : String → String)
    (serve : FetchContext → Bool → Files String × Except String CachedTxInfo) (k text : String)
    (info : CachedTxInfo) : Prop where
  unasked : ∀ endpoint writeOk, (serve (ctx.withEndpoint endpoint) writeOk).2 = .ok info
  copied : ∀ endpoint, (serve (ctx.withEndpoint endpoint) true).1 (txCachePath k) = some text
  later : ∀ endpoint endpoint' more call url, canonicalizeTxHash call.txHash = .ok k →
    validateRpcUrl ctx.crate ctx.allowlistEnv call.rpcUrl = .ok url → call.readOk = true →
    ((ctx.withEndpoint endpoint').createFetch urlText
      ((ctx.withEndpoint endpoint').filesAfterCreating urlText
        (serve (ctx.withEndpoint endpoint) true).1 more) call).2 = .ok info

variable (ctx : FetchContext) (urlText : String → String) {files : Files String} {call : FetchCall}
  {s k path text : String} {info : CachedTxInfo}

/-! ### What is in a file stays -/

/-- **`fetch_tx_info` changes no file**: it writes one only where there is none. -/
theorem fetchTxInfo_keeps (h : files path = some text) :
    (ctx.fetchTxInfo files call).1 path = some text := by
  have hwrite : ∀ {p data ok}, files p = none → files.writeAtomic p data ok path = some text := by
    intro p data ok hp
    rw [Files.writeAtomic]
    split
    · have hne : path ≠ p := fun heq => absurd ((heq ▸ h).symm.trans hp) (by simp)
      rw [Function.update_of_ne hne, h]
    · exact h
  cases hlook : txLookup call.txHash with
  | error message =>
    unfold fetchTxInfo
    rw [hlook]
    exact h
  | ok look =>
    cases hfile : files look.cachePath with
    | some data =>
      rw [fetchTxInfo_of_file hlook hfile]
      exact h
    | none =>
      cases hlegacy : files look.legacyCachePath with
      | some data =>
        rw [Lookups.fetchTxInfo_of_found hlook (by rw [hfile, hlegacy]; rfl) hlegacy]
        cases call.readOk with
        | false => exact h
        | true =>
          rw [if_pos rfl, Lookups.readAnswer]
          cases ctx.json.fromStr data with
          | none => exact h
          | some info =>
            dsimp only
            split
            · exact hwrite hfile
            · exact h
      | none =>
        rw [fetchTxInfo_of_missing hlook hfile hlegacy]
        cases ctx.give call.rpcUrl look.hash with
        | error message => exact h
        | ok info => exact hwrite hfile

/-- **Nor does `create_session`.** -/
theorem createFetch_keeps (h : files path = some text) :
    (ctx.createFetch urlText files call).1 path = some text := by
  rw [createFetch]
  split
  · exact h
  · split
    · exact h
    · exact fetchTxInfo_keeps ctx h

/-- **Nor do any requests.** -/
theorem filesAfterCreating_keeps (h : files path = some text) (calls : List FetchCall) :
    ctx.filesAfterCreating urlText files calls path = some text := by
  induction calls generalizing files with
  | nil => exact h
  | cons call calls ih => exact ih (createFetch_keeps ctx urlText h)

/-! ### What the two of them do -/

/-- What is acceptable is fetched. -/
theorem createFetch_of_accepted {url : Url} (hk : canonicalizeTxHash call.txHash = .ok k)
    (hurl : validateRpcUrl ctx.crate ctx.allowlistEnv call.rpcUrl = .ok url) :
    ctx.createFetch urlText files call =
      ctx.fetchTxInfo files { call with txHash := k, rpcUrl := urlText call.rpcUrl } := by
  rw [createFetch, hk]
  dsimp only
  rw [hurl]

/-- A URL that is refused is not looked at any further. -/
theorem createFetch_of_refused {message : String} (hk : canonicalizeTxHash call.txHash = .ok k)
    (hurl : validateRpcUrl ctx.crate ctx.allowlistEnv call.rpcUrl = .error message) :
    ctx.createFetch urlText files call = (files, .error message) := by
  rw [createFetch, hk]
  dsimp only
  rw [hurl]

/-- Asked for a canonical hash, `fetch_tx_info` looks in one place only. -/
theorem txLookup_canonical (call : FetchCall) (h : B256) (rpcUrl : String) :
    txLookup ({ call with txHash := hexHash h, rpcUrl := rpcUrl } : FetchCall).txHash =
      .ok ⟨h, txCachePath (hexHash h), txCachePath (hexHash h)⟩ := txLookup_hexHash h

/-- **`create_session` with a file** under the canonical name. -/
theorem createFetch_of_file {url : Url} (hk : canonicalizeTxHash call.txHash = .ok k)
    (hurl : validateRpcUrl ctx.crate ctx.allowlistEnv call.rpcUrl = .ok url)
    (hfile : files (txCachePath k) = some text) (hread : call.readOk = true)
    (hinfo : ctx.json.fromStr text = some info) :
    ctx.createFetch urlText files call = (files, .ok info) := by
  rw [createFetch_of_accepted ctx urlText hk hurl]
  obtain ⟨h, -, rfl⟩ := denotes_of_canonicalize hk
  rw [fetchTxInfo_of_file (txLookup_canonical call h _) hfile, hread, if_pos rfl, hinfo]

/-- **`create_session` without one**: the endpoint is asked, and nothing else is looked at. -/
theorem createFetch_of_absent {url : Url} {h : B256}
    (hk : canonicalizeTxHash call.txHash = .ok (hexHash h))
    (hurl : validateRpcUrl ctx.crate ctx.allowlistEnv call.rpcUrl = .ok url)
    (habsent : files (txCachePath (hexHash h)) = none) :
    ctx.createFetch urlText files call =
      match ctx.give (urlText call.rpcUrl) h with
      | .error message => (files, .error message)
      | .ok info =>
        (files.writeAtomic (txCachePath (hexHash h)) (ctx.json.toStringPretty info) call.writeOk,
          if call.writeOk then .ok info
          else .error ("writing cache " ++ txCachePath (hexHash h))) := by
  rw [createFetch_of_accepted ctx urlText hk hurl]
  exact fetchTxInfo_of_missing (txLookup_canonical call h _) habsent habsent

/-- What `fetch_tx_info` reads is a spelling that `create_session` accepts. -/
theorem canonicalize_of_txLookup {look : TxLookup} (hlook : txLookup s = .ok look) :
    canonicalizeTxHash s = .ok (hexHash look.hash) := by
  obtain ⟨pre, digits, hs, hpre, hdigits, hk⟩ := exists_txLookup_iff.mp ⟨look, hlook, rfl⟩
  refine canonicalizeTxHash_eq_ok_iff.mpr ⟨pre, digits, hs, ?_, hdigits, hk⟩
  exact List.mem_append_left ["0X"] hpre

/-- **`fetch_tx_info` takes a file over**, if it is given the string as it is written. -/
theorem fetchTxInfo_takesOver (rpcUrl : String) (h : Legacy ctx files s k text info)
    {look : TxLookup} (hlook : txLookup s = .ok look) :
    ctx.TakesOver urlText (fun ctx writeOk => ctx.fetchTxInfo files ⟨s, rpcUrl, true, writeOk⟩)
      k text info := by
  obtain ⟨hpath, hlegacy, -⟩ := txLookup_eq_ok hlook
  obtain rfl := Except.ok.inj (h.accepted.symm.trans (canonicalize_of_txLookup hlook))
  have hfile := h.file
  have habsent := h.absent
  rw [← hpath] at habsent
  rw [← hlegacy] at hfile
  have hne : look.legacyCachePath ≠ look.cachePath := fun heq =>
    absurd ((heq ▸ hfile).symm.trans habsent) (by simp)
  have hfetch : ∀ endpoint writeOk,
      (ctx.withEndpoint endpoint).fetchTxInfo files ⟨s, rpcUrl, true, writeOk⟩ =
        (files.writeAtomic look.cachePath text writeOk, .ok info) := by
    intro endpoint writeOk
    let call : FetchCall := ⟨s, rpcUrl, true, writeOk⟩
    have hlook' : txLookup call.txHash = .ok look := hlook
    have hrecord : (ctx.withEndpoint endpoint).json.fromStr text = some info := h.record
    rw [Lookups.fetchTxInfo_of_found hlook' (by rw [habsent, hfile]; rfl) hfile, if_pos rfl,
      Lookups.readAnswer, hrecord]
    exact Prod.ext (if_pos hne) rfl
  have hcopied : ∀ endpoint, ((ctx.withEndpoint endpoint).fetchTxInfo files
      ⟨s, rpcUrl, true, true⟩).1 (txCachePath (hexHash look.hash)) = some text := by
    intro endpoint
    rw [hfetch, ← hpath]
    exact Files.writeAtomic_self _ _ _
  refine ⟨fun endpoint writeOk => by rw [hfetch], hcopied, ?_⟩
  intro endpoint endpoint' more call url hk hurl hread
  have hstays :=
    filesAfterCreating_keeps (ctx.withEndpoint endpoint') urlText (hcopied endpoint) more
  rw [createFetch_of_file (ctx.withEndpoint endpoint') urlText hk hurl hstays hread h.record]

/-- If `create_session` takes a file over, it answers with the record in it. -/
theorem createFetch_of_takesOver {rpcUrl : String}
    (h : ctx.TakesOver urlText
      (fun ctx writeOk => ctx.createFetch urlText files ⟨s, rpcUrl, true, writeOk⟩) k text info)
    (writeOk : Bool) :
    (ctx.createFetch urlText files ⟨s, rpcUrl, true, writeOk⟩).2 = .ok info :=
  h.unasked ctx.endpoint writeOk

end FetchContext

/-! ### In the course of an interleaving -/

namespace SessionService

variable {σ : Type} {c : CreateContext σ} {rq : ℕ → CreateSessionRequest} {uuid : ℕ → String}
  {s : SessionService σ} {r : ℕ}

@[simp] theorem stage_setStage (s : SessionService σ) (r : ℕ) (stage : CreateStage) :
    (s.setStage r stage).stage r = stage := Function.update_self _ _ _

/-- Where a call is, once it has been answered by its fetcher or has failed before. -/
def Fetched (s : SessionService σ) (r : ℕ) : Except String CachedTxInfo → Prop
  | .error message => s.stage r = .answered (.error message)
  | .ok info => ∃ rpcUrl tracePath, s.stage r = .loading info rpcUrl tracePath

/-- The fetcher answers. -/
theorem exists_fetched {k rpcUrl : String} (ht : s.stage r = .fetching k rpcUrl)
    (fetcher : String → String → Except String CachedTxInfo) :
    ∃ s', step c rq uuid s (.fetch r fetcher) = some s' ∧ s'.Fetched r (fetcher k rpcUrl) := by
  cases hfetch : fetcher k rpcUrl with
  | error message =>
    refine ⟨s.setStage r (.answered (.error message)), ?_, stage_setStage _ _ _⟩
    rw [step, ht]
    dsimp only
    rw [hfetch]
  | ok info =>
    refine ⟨s.setStage r (.loading info rpcUrl
      (c.traceCachePath k info.chainId info.blockNumber)), ?_, _, _, stage_setStage _ _ _⟩
    rw [step, ht]
    dsimp only
    rw [hfetch]

/-- **A call of `create_session` that has `fetch_tx_info` for its fetcher** comes to where it loads
a trace, with the record that `createFetch` gives, or fails as that does. -/
theorem exists_createFetch (ht : s.stage r = .new) (ctx : FetchContext)
    (hcrate : c.crate = ctx.crate) (henv : c.allowlistEnv = ctx.allowlistEnv)
    (files : Files String) (readOk writeOk : Bool) :
    ∃ actions s', (∀ a ∈ actions, a.call = some r) ∧
      Runs.run (step c rq uuid) s actions = some s' ∧
      s'.Fetched r (ctx.createFetch c.urlText files
        ⟨(rq r).txHash, (rq r).rpcUrl, readOk, writeOk⟩).2 := by
  let call : FetchCall := ⟨(rq r).txHash, (rq r).rpcUrl, readOk, writeOk⟩
  have hrefused : ∀ message, ctx.createFetch c.urlText files call = (files, .error message) →
      step c rq uuid s (.validate r) = some (s.setStage r (.answered (.error message))) →
      ∃ actions s', (∀ a ∈ actions, a.call = some r) ∧
        Runs.run (step c rq uuid) s actions = some s' ∧
        s'.Fetched r (ctx.createFetch c.urlText files call).2 := by
    intro message hfetch hstep
    refine ⟨[.validate r], s.setStage r (.answered (.error message)), ?_, ?_, ?_⟩
    · simp [CreateAction.call]
    · rw [Runs.run_cons, hstep, Option.bind_some, Runs.run_nil]
    · rw [hfetch]
      exact stage_setStage _ _ _
  cases hk : canonicalizeTxHash call.txHash with
  | error message =>
    refine hrefused message ?_ (step_validate_refused ht (Or.inl hk))
    rw [FetchContext.createFetch, hk]
  | ok k =>
    cases hurl : validateRpcUrl ctx.crate ctx.allowlistEnv call.rpcUrl with
    | error message =>
      refine hrefused message (FetchContext.createFetch_of_refused ctx c.urlText hk hurl)
        (step_validate_refused ht (Or.inr ⟨k, hk, ?_⟩))
      rw [hcrate, henv]
      exact hurl
    | ok url =>
      have hurl' : validateRpcUrl c.crate c.allowlistEnv (rq r).rpcUrl = .ok url := by
        rw [hcrate, henv]
        exact hurl
      have hvalidate : step c rq uuid s (.validate r) = some _ := step_validate ht hk hurl'
      let fetcher : String → String → Except String CachedTxInfo := fun txHash rpcUrl =>
        (ctx.fetchTxInfo files ⟨txHash, rpcUrl, readOk, writeOk⟩).2
      obtain ⟨s', hfetch, hfetched⟩ : ∃ s',
          step c rq uuid (s.setStage r (.fetching k (c.urlText (rq r).rpcUrl))) (.fetch r fetcher) =
            some s' ∧ s'.Fetched r (fetcher k (c.urlText (rq r).rpcUrl)) :=
        exists_fetched (stage_setStage _ _ _) fetcher
      refine ⟨[.validate r, .fetch r fetcher], s', ?_, ?_, ?_⟩
      · simp [CreateAction.call]
      · rw [Runs.run_cons, hvalidate, Option.bind_some, Runs.run_cons, hfetch, Option.bind_some,
          Runs.run_nil]
      · rw [FetchContext.createFetch_of_accepted ctx c.urlText hk hurl]
        exact hfetched

end SessionService

namespace Lookups

/-- **The two places are one**, and nothing is read or copied from elsewhere. -/
def Canonical : LookupStage → Prop
  | .canonical look | .legacy look | .fetching look | .storing look _ =>
    look.legacyCachePath = look.cachePath
  | .reading look path => look.legacyCachePath = look.cachePath ∧ path = look.cachePath
  | .copying _ _ _ => False
  | _ => True

variable {ttl : ℕ} {ctx : LookupContext} {s : Lookups}

/-- **A request for a canonical hash goes on** in this way. -/
theorem canonical_next {rq : LookupRequest} {now : ℕ} {files files' : Files CacheEntry} {ok : Bool}
    {stage stage' : LookupStage} {h : B256} (hrq : rq.txHash = hexHash h) (hs : Canonical stage)
    (hnext : next ctx rq now files ok stage = some (files', stage')) : Canonical stage' := by
  cases stage with
  | new =>
    rw [next, hrq, txLookup_hexHash] at hnext
    obtain ⟨-, rfl⟩ := Prod.mk.inj (Option.some.inj hnext)
    rfl
  | canonical look =>
    rw [next] at hnext
    split at hnext <;> obtain ⟨-, rfl⟩ := Prod.mk.inj (Option.some.inj hnext)
    · exact ⟨hs, rfl⟩
    · exact hs
  | legacy look =>
    rw [next] at hnext
    split at hnext <;> obtain ⟨-, rfl⟩ := Prod.mk.inj (Option.some.inj hnext)
    · exact ⟨hs, hs⟩
    · exact hs
  | reading look path =>
    rw [next] at hnext
    split at hnext
    · obtain ⟨-, rfl⟩ := Prod.mk.inj (Option.some.inj hnext)
      trivial
    · split at hnext
      · obtain ⟨-, rfl⟩ := Prod.mk.inj (Option.some.inj hnext)
        trivial
      · -- what has been read is the canonical file, so it is not copied
        rw [if_neg fun hne => hne hs.2] at hnext
        obtain ⟨-, rfl⟩ := Prod.mk.inj (Option.some.inj hnext)
        trivial
  | copying look data info => exact hs.elim
  | fetching look =>
    rw [next] at hnext
    split at hnext <;> obtain ⟨-, rfl⟩ := Prod.mk.inj (Option.some.inj hnext)
    · trivial
    · exact hs
  | storing look info =>
    obtain ⟨-, rfl⟩ := Prod.mk.inj (Option.some.inj hnext)
    cases ok <;> trivial
  | fetched info =>
    rw [next] at hnext
    split at hnext <;> obtain ⟨-, rfl⟩ := Prod.mk.inj (Option.some.inj hnext) <;> trivial
  | readingTrace info path =>
    rw [next] at hnext
    split at hnext
    · obtain ⟨-, rfl⟩ := Prod.mk.inj (Option.some.inj hnext)
      trivial
    · split at hnext <;> obtain ⟨-, rfl⟩ := Prod.mk.inj (Option.some.inj hnext) <;> trivial
  | replaying info | cached file | failed message cause => exact absurd hnext (by simp [next])

/-- **In no interleaving is a file taken over**: whoever asks for a canonical hash – and that is
what `create_session` does – looks in the canonical place, and copies nothing. -/
theorem canonical_of_run {rq : ℕ → LookupRequest} (hrq : ∀ r, ∃ h, (rq r).txHash = hexHash h)
    {files : Files CacheEntry} {actions : List LookupAction}
    (h : Runs.run (step ttl ctx rq) (init files) actions = some s) (r : ℕ) :
    Canonical (s.stage r) := by
  refine Runs.run_invariant (motive := fun s => ∀ r, Canonical (s.stage r))
    (fun s a s' hs hstep q => ?_) (fun _ => show Canonical .new from trivial) h r
  rcases step_eq_some hstep with ⟨r, ok, files, stage, -, hnext, rfl⟩ | ⟨hstage, -⟩
  · by_cases heq : q = r
    · subst heq
      obtain ⟨h, hh⟩ := hrq q
      rw [stage_settle]
      exact canonical_next hh (hs q) hnext
    · rw [stage_settle_of_ne s heq]
      exact hs q
  · rw [hstage]
    exact hs q

end Lookups

/-! ### No file is taken over -/

namespace FetchContext

variable {ctx : FetchContext}

/-- Endpoints that do not answer. -/
def silent : String → Endpoint := fun _ =>
  { transactionByHash := fun _ => .timeout
    blockByNumber := fun _ => .timeout }

/-- From them, nothing is known. -/
theorem give_silent (rpcUrl : String) (h : B256) (info : CachedTxInfo) :
    (ctx.withEndpoint silent).give rpcUrl h ≠ .ok info := by
  rw [give]
  split
  · simp
  · simp [withEndpoint, silent, Endpoint.txInfo]

end FetchContext

/-- **`create_session` takes no file over**, in whatever spelling it is asked: where there is no
file under the canonical name, there is no answer without an endpoint. -/
theorem not_takesOver_of_legacy (ctx : FetchContext) (urlText : String → String)
    (files : Files String) (s rpcUrl : String) {k text : String} {info : CachedTxInfo}
    (h : ctx.Legacy files s k text info) :
    ¬ctx.TakesOver urlText
      (fun ctx writeOk => ctx.createFetch urlText files ⟨s, rpcUrl, true, writeOk⟩)
      k text info := by
  intro htakes
  obtain ⟨g, -, rfl⟩ := denotes_of_canonicalize h.accepted
  let silentCtx := ctx.withEndpoint FetchContext.silent
  let call : FetchCall := ⟨s, rpcUrl, true, true⟩
  have haccepted : canonicalizeTxHash call.txHash = .ok (hexHash g) := h.accepted
  have hanswer : (silentCtx.createFetch urlText files call).2 = .ok info :=
    htakes.unasked FetchContext.silent true
  cases hurl : validateRpcUrl silentCtx.crate silentCtx.allowlistEnv call.rpcUrl with
  | error message =>
    rw [FetchContext.createFetch_of_refused silentCtx urlText haccepted hurl] at hanswer
    exact absurd hanswer (by simp)
  | ok url =>
    rw [FetchContext.createFetch_of_absent silentCtx urlText haccepted hurl h.absent] at hanswer
    split at hanswer
    · exact absurd hanswer (by simp)
    · next given hgive => exact FetchContext.give_silent _ g given hgive

/-- A record, under the name of a hash without its prefix. -/
def legacyFiles : Files String :=
  Function.update (fun _ => none) (txCachePath zeroDigits) (some (keylessText 9))

/-- There is something to be taken over. -/
theorem legacy_sample : twoChains.Legacy legacyFiles zeroDigits ("0x" ++ Text.asciiLower zeroDigits)
    (keylessText 9) (keylessInfo 9) := by
  have htrim : Text.trim zeroDigits = zeroDigits :=
    Text.trim_eq_self fun c hc => Text.isWhitespace_of_toDigit (hashDigits_zeroDigits.2 c hc)
  have hne : txCachePath ("0x" ++ Text.asciiLower zeroDigits) ≠ txCachePath zeroDigits := by
    intro heq
    have hchars := congrArg (fun s => s.toList.length) (txCachePath_inj heq)
    simp [Text.toList_asciiLower, hashDigits_zeroDigits.1] at hchars
  refine ⟨?_, ?_, roundTrips_keylessInfo (Or.inr rfl), Function.update_of_ne hne _ _⟩
  · refine canonicalizeTxHash_eq_ok_iff.mpr
      ⟨"", zeroDigits, ?_, by simp, hashDigits_zeroDigits, rfl⟩
    rw [htrim, String.empty_append]
  · rw [htrim]
    exact Function.update_self _ _ _

/-- It is not taken over. -/
theorem not_takesOver_sample :
    ¬twoChains.TakesOver sampleService.urlText
      (fun ctx writeOk =>
        ctx.createFetch sampleService.urlText legacyFiles
          ⟨zeroDigits, "http://[::1]:8545", true, writeOk⟩)
      ("0x" ++ Text.asciiLower zeroDigits) (keylessText 9) (keylessInfo 9) :=
  not_takesOver_of_legacy twoChains sampleService.urlText legacyFiles zeroDigits "http://[::1]:8545"
    legacy_sample

/-- **The endpoint is asked, and answers something else** than what is in the file. -/
theorem not_migrates_sample :
    ¬(twoChains.Legacy legacyFiles zeroDigits ("0x" ++ Text.asciiLower zeroDigits)
          (keylessText 9) (keylessInfo 9) →
        twoChains.TakesOver sampleService.urlText
          (fun ctx writeOk =>
            ctx.createFetch sampleService.urlText legacyFiles
              ⟨zeroDigits, "https://93.184.216.34", true, writeOk⟩)
          ("0x" ++ Text.asciiLower zeroDigits) (keylessText 9) (keylessInfo 9)) := by
  intro h
  obtain ⟨g, -, hg⟩ := denotes_of_canonicalize legacy_sample.accepted
  let call : FetchCall := ⟨zeroDigits, "https://93.184.216.34", true, true⟩
  have hanswer := FetchContext.createFetch_of_takesOver twoChains sampleService.urlText
    (h legacy_sample) true
  have hfetch : (twoChains.createFetch sampleService.urlText legacyFiles call).2 =
      .ok (keylessInfo 5) := by
    have haccepted : canonicalizeTxHash call.txHash = .ok (hexHash g) :=
      legacy_sample.accepted.trans (congrArg Except.ok hg)
    have habsent : legacyFiles (txCachePath (hexHash g)) = none := hg ▸ legacy_sample.absent
    have hurl : validateRpcUrl twoChains.crate twoChains.allowlistEnv call.rpcUrl = .ok ipv4Url :=
      rfl
    have hslash : sampleService.urlText call.rpcUrl = "https://93.184.216.34/" := by decide
    have hgive : twoChains.give (sampleService.urlText call.rpcUrl) g = .ok (keylessInfo 5) := by
      rw [hslash]
      rfl
    rw [FetchContext.createFetch_of_absent twoChains sampleService.urlText haccepted hurl habsent,
      hgive]
    have hwrite : call.writeOk = true := rfl
    dsimp only
    rw [if_pos hwrite]
  have heq : keylessInfo 5 = keylessInfo 9 := Except.ok.inj (hfetch.symm.trans hanswer)
  exact absurd (congrArg CachedTxInfo.blockNumber heq) (by simp [keylessInfo, cachedTxInfo])

end EvmDebugger
