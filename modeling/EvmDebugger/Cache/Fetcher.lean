import EvmDebugger.Cache.Paths
import EvmDebugger.Cache.TraceCache
import EvmDebugger.Lib.Memo
import EvmDebugger.RpcUrl

/-!
# What is known of a transaction

`fetcher.rs`: a transaction and its block are asked for over RPC, what is needed of them is put
into a record of strings and numbers, and the record is kept in a file, so that the next request
for the same hash is answered without asking.

The endpoint a request names is asked only if there is no file, and the name of the file says
nothing of the endpoint, the chain or the block. So the files are a cache (`Memo.serve`) whose key
is the hash alone: `EvmDebugger.fetchTxInfo_refines` relates the two. The same hash may well mean
a transaction in this block of one chain and in that block of another; then everybody is told what
the first one was told. `EvmDebugger.fetch_transparent_iff` says exactly when nobody notices.
-/

namespace EvmDebugger

/-! ### What an endpoint answers -/

/-- An entry of an access list. -/
structure AccessListItem where
  address : Address
  storageKeys : List B256
  deriving DecidableEq

/-- An entry of an authorization list, with its signature. -/
structure SignedAuthorization where
  chainId : U256
  address : Address
  nonce : U64
  yParity : UInt8
  r : U256
  s : U256
  deriving DecidableEq

/-- What transactions of all types have. -/
structure TxCommon where
  nonce : U64
  gasLimit : U64
  value : U256
  input : List UInt8
  deriving DecidableEq

/-- The five types of transactions. The recipient is missing where a contract is created. -/
inductive TxEnvelope where
  | legacy (common : TxCommon) (chainId : Option U64) (gasPrice : U128) (toAddress : Option Address)
  | eip2930 (common : TxCommon) (chainId : U64) (gasPrice : U128) (toAddress : Option Address)
      (accessList : List AccessListItem)
  | eip1559 (common : TxCommon) (chainId : U64) (maxFeePerGas maxPriorityFeePerGas : U128)
      (toAddress : Option Address) (accessList : List AccessListItem)
  | eip4844 (common : TxCommon) (chainId : U64) (maxFeePerGas maxPriorityFeePerGas : U128)
      (toAddress : Address) (accessList : List AccessListItem) (blobVersionedHashes : List B256)
      (maxFeePerBlobGas : U128)
  | eip7702 (common : TxCommon) (chainId : U64) (maxFeePerGas maxPriorityFeePerGas : U128)
      (toAddress : Address) (accessList : List AccessListItem)
      (authorizationList : List SignedAuthorization)
  deriving DecidableEq

namespace TxEnvelope

/-- What transactions of all types have. -/
def common : TxEnvelope → TxCommon
  | legacy common .. | eip2930 common .. | eip1559 common .. | eip4844 common ..
  | eip7702 common .. => common

/-- The number of the type. -/
def txType : TxEnvelope → UInt8
  | legacy .. => 0
  | eip2930 .. => 1
  | eip1559 .. => 2
  | eip4844 .. => 3
  | eip7702 .. => 4

/-- `chain_id()`. -/
def chainId : TxEnvelope → Option U64
  | legacy _ chainId .. => chainId
  | eip2930 _ chainId .. | eip1559 _ chainId .. | eip4844 _ chainId .. | eip7702 _ chainId .. =>
    some chainId

/-- `gas_price()`: only the older types have one. -/
def gasPrice : TxEnvelope → Option U128
  | legacy _ _ gasPrice _ | eip2930 _ _ gasPrice .. => some gasPrice
  | eip1559 .. | eip4844 .. | eip7702 .. => none

/-- `max_fee_per_gas()`. -/
def maxFeePerGas : TxEnvelope → U128
  | legacy _ _ gasPrice _ | eip2930 _ _ gasPrice .. => gasPrice
  | eip1559 _ _ maxFee .. | eip4844 _ _ maxFee .. | eip7702 _ _ maxFee .. => maxFee

/-- `max_priority_fee_per_gas()`. -/
def maxPriorityFeePerGas : TxEnvelope → Option U128
  | legacy .. | eip2930 .. => none
  | eip1559 _ _ _ priorityFee .. | eip4844 _ _ _ priorityFee .. | eip7702 _ _ _ priorityFee .. =>
    some priorityFee

/-- `to()`. -/
def toAddress : TxEnvelope → Option Address
  | legacy _ _ _ toAddress | eip2930 _ _ _ toAddress _ | eip1559 _ _ _ _ toAddress _ => toAddress
  | eip4844 _ _ _ _ toAddress .. | eip7702 _ _ _ _ toAddress .. => some toAddress

/-- `access_list()`, where there is none an empty one. -/
def accessList : TxEnvelope → List AccessListItem
  | legacy .. => []
  | eip2930 _ _ _ _ accessList | eip1559 _ _ _ _ _ accessList
  | eip4844 _ _ _ _ _ accessList .. | eip7702 _ _ _ _ _ accessList _ => accessList

/-- `authorization_list()`, where there is none an empty one. -/
def authorizationList : TxEnvelope → List SignedAuthorization
  | eip7702 _ _ _ _ _ _ authorizationList => authorizationList
  | _ => []

/-- `blob_versioned_hashes()`, where there are none an empty list. -/
def blobVersionedHashes : TxEnvelope → List B256
  | eip4844 _ _ _ _ _ _ blobVersionedHashes _ => blobVersionedHashes
  | _ => []

/-- `max_fee_per_blob_gas()`. -/
def maxFeePerBlobGas : TxEnvelope → Option U128
  | eip4844 _ _ _ _ _ _ _ maxFeePerBlobGas => some maxFeePerBlobGas
  | _ => none

end TxEnvelope

/-- A transaction, as an endpoint returns it. Without a block number it is pending. -/
structure RpcTransaction where
  inner : TxEnvelope
  signer : Address
  blockNumber : Option U64
  deriving DecidableEq

/-- The header of a block, as an endpoint returns it. -/
structure Header where
  beneficiary : Address
  timestamp : U64
  difficulty : U256
  gasLimit : U64
  baseFeePerGas : Option U64
  mixHash : B256
  excessBlobGas : Option U64
  deriving DecidableEq

/-- The answer to a request. -/
inductive RpcAnswer (α : Type) where
  | timeout
  | failed
  | ok (answer : Option α)
  deriving DecidableEq

/-- **An endpoint**: what it answers to the two requests. -/
structure Endpoint where
  transactionByHash : B256 → RpcAnswer RpcTransaction
  blockByNumber : U64 → RpcAnswer Header

/-! ### The record -/

/-- What is kept of a transaction and its block. -/
structure CachedTxInfo where
  caller : String
  gasLimit : U64
  gasPrice : U128
  maxPriorityFeePerGas : Option U128
  value : String
  data : String
  nonce : U64
  toAddress : Option String
  chainId : Option U64
  blockNumber : U64
  blockBeneficiary : String
  blockTimestamp : U64
  blockDifficulty : String
  blockGasLimit : U64
  blockBasefee : U128
  deriving DecidableEq

/-- The record of a transaction and its block. -/
def cachedTxInfo (tx : RpcTransaction) (blockNumber : U64) (header : Header) : CachedTxInfo where
  caller := hexAddress tx.signer
  gasLimit := tx.inner.common.gasLimit
  gasPrice := tx.inner.gasPrice.getD tx.inner.maxFeePerGas
  maxPriorityFeePerGas := tx.inner.maxPriorityFeePerGas
  value := hexValue tx.inner.common.value
  data := "0x" ++ hexEncode tx.inner.common.input
  nonce := tx.inner.common.nonce
  toAddress := tx.inner.toAddress.map hexAddress
  chainId := tx.inner.chainId
  blockNumber := blockNumber
  blockBeneficiary := hexAddress header.beneficiary
  blockTimestamp := header.timestamp
  blockDifficulty := hexValue header.difficulty
  blockGasLimit := header.gasLimit
  blockBasefee := (header.baseFeePerGas.getD 0).zeroExtend 128

/-- What an endpoint makes known of the transaction with a hash: the two requests, with the ways
in which they can fail. -/
def Endpoint.txInfo (endpoint : Endpoint) (hash : B256) : Except String CachedTxInfo :=
  match endpoint.transactionByHash hash with
  | .timeout => .error ("timeout fetching transaction " ++ hexHash hash)
  | .failed => .error ("fetching transaction " ++ hexHash hash)
  | .ok none => .error ("transaction not found: " ++ hexHash hash)
  | .ok (some tx) =>
    match tx.blockNumber with
    | none => .error "transaction is pending (no block number)"
    | some blockNumber =>
      match endpoint.blockByNumber blockNumber with
      | .timeout => .error ("timeout fetching block " ++ blockNumber.toNat.repr)
      | .failed => .error ("fetching block " ++ blockNumber.toNat.repr)
      | .ok none => .error ("block " ++ blockNumber.toNat.repr ++ " not found")
      | .ok (some header) => .ok (cachedTxInfo tx blockNumber header)

/-! ### Fetching -/

/-- What `fetch_tx_info` depends on, the files apart: the library that reads and writes records,
the one that parses URLs, the allowlist of the environment, and the endpoints. -/
structure FetchContext where
  json : Json CachedTxInfo
  crate : UrlCrate
  allowlistEnv : Option String
  endpoint : String → Endpoint

/-- A call of `fetch_tx_info`; whether a file that is there can be read, and whether
`write_atomic` succeeds. -/
structure FetchCall where
  txHash : String
  rpcUrl : String
  readOk : Bool
  writeOk : Bool
  deriving DecidableEq

namespace FetchContext

/-- **What the endpoint gives for a hash**: the URL has to be acceptable, and the endpoint has to
answer. -/
def give (ctx : FetchContext) (rpcUrl : String) (hash : B256) : Except String CachedTxInfo :=
  match validateRpcUrl ctx.crate ctx.allowlistEnv rpcUrl with
  | .error message => .error message
  | .ok _ => (ctx.endpoint rpcUrl).txInfo hash

/-- **`fetch_tx_info`.** -/
def fetchTxInfo (ctx : FetchContext) (files : Files String) (call : FetchCall) :
    Files String × Except String CachedTxInfo :=
  match txLookup call.txHash with
  | .error message => (files, .error message)
  | .ok look =>
    let readPath :=
      if (files look.cachePath).isSome then some look.cachePath
      else if (files look.legacyCachePath).isSome then some look.legacyCachePath
      else none
    match readPath with
    | some path =>
      match if call.readOk then files path else none with
      | none => (files, .error ("reading cache file " ++ path))
      | some data =>
        match ctx.json.fromStr data with
        | none => (files, .error "deserializing cached tx")
        | some info =>
          -- a copy under the canonical name; whether that succeeds is not looked at
          (if path ≠ look.cachePath then files.writeAtomic look.cachePath data call.writeOk
            else files, .ok info)
    | none =>
      -- only here does the endpoint matter, and only now is its URL looked at
      match ctx.give call.rpcUrl look.hash with
      | .error message => (files, .error message)
      | .ok info =>
        (files.writeAtomic look.cachePath (ctx.json.toStringPretty info) call.writeOk,
          if call.writeOk then .ok info else .error ("writing cache " ++ look.cachePath))

/-- The files after a list of calls, from an empty directory. -/
def filesAfter (ctx : FetchContext) (calls : List FetchCall) : Files String :=
  calls.foldl (fun files call => (ctx.fetchTxInfo files call).1) fun _ => none

end FetchContext

/-- The hash a call asks for. -/
def FetchCall.hash (call : FetchCall) : Option B256 := (txLookup call.txHash).toOption.map (·.hash)

/-! ### The files as a cache -/

/-- What a lookup finds out: the hash, the path it names, and that of the string as it was given;
a string that is a hash already stands for itself. -/
theorem txLookup_eq_ok {s : String} {look : TxLookup} (h : txLookup s = .ok look) :
    look.cachePath = txCachePath (hexHash look.hash) ∧
      look.legacyCachePath = txCachePath (Text.trim s) ∧
      ∀ g, Text.trim s = hexHash g → look.hash = g := by
  unfold txLookup at h
  dsimp only at h
  split at h
  · exact absurd h (by simp)
  · next hash hparse =>
    obtain rfl := Except.ok.inj h
    refine ⟨rfl, rfl, fun g hg => ?_⟩
    have hprefix : Text.stripPrefix "0x" (hexHash g) =
        some (String.ofList (Hex.fixed 64 g.toNat)) := Text.stripPrefix_eq_some.mpr rfl
    rw [hg, hprefix, Option.isSome_some, Bool.true_or, if_pos rfl] at hparse
    have hdenotes : Denotes (hexHash g) hash := denotes_of_parse ((trim_hexHash g).symm ▸ hparse)
    exact hdenotes.unique (denotes_hexHash g)

/-- Different hashes have different files. -/
theorem txCachePath_inj {a b : String} (h : txCachePath a = txCachePath b) : a = b :=
  (String.append_right_inj _).mp ((String.append_left_inj _).mp h)

namespace FetchContext

variable {ctx : FetchContext}

/-- A call, as a call of a cache whose key is the hash. -/
def memo (ctx : FetchContext) (call : FetchCall) : Memo.Call (Option B256) CachedTxInfo where
  key := call.hash
  fresh := call.hash.bind fun hash => (ctx.give call.rpcUrl hash).toOption
  readable := call.readOk
  storable := call.writeOk

@[simp] theorem key_memo (ctx : FetchContext) (call : FetchCall) :
    (ctx.memo call).key = call.hash := rfl

/-- **The files hold what the cache holds**, under the names of the hashes, and nothing else. -/
structure Represents (ctx : FetchContext) (files : Files String)
    (t : Option B256 → Option CachedTxInfo) : Prop where
  unparsed : t none = none
  file : ∀ hash, files (txCachePath (hexHash hash)) = (t (some hash)).map ctx.json.toStringPretty
  only : ∀ path, files path ≠ none → ∃ hash, path = txCachePath (hexHash hash)

/-- Nothing is kept under the name a string was given in, if there is nothing under the name of
its hash. -/
theorem Represents.legacy {files : Files String} {t : Option B256 → Option CachedTxInfo}
    (h : Represents ctx files t) {s : String} {look : TxLookup} (hlook : txLookup s = .ok look)
    (hnone : files look.cachePath = none) : files look.legacyCachePath = none := by
  obtain ⟨hpath, hlegacy, hself⟩ := txLookup_eq_ok hlook
  by_contra hsome
  obtain ⟨g, hg⟩ := h.only _ hsome
  have htrim : Text.trim s = hexHash g := txCachePath_inj (hlegacy.symm.trans hg)
  refine hsome ?_
  rw [hg, ← hself g htrim, ← hpath, hnone]

/-- Storing a record. -/
theorem Represents.store {files : Files String} {t : Option B256 → Option CachedTxInfo}
    (h : Represents ctx files t) (hash : B256) (info : CachedTxInfo) :
    Represents ctx
      (files.writeAtomic (txCachePath (hexHash hash)) (ctx.json.toStringPretty info) true)
      (Function.update t (some hash) (some info)) := by
  rw [Files.writeAtomic, if_pos rfl]
  refine ⟨?_, fun g => ?_, fun path hpath => ?_⟩
  · rw [Function.update_of_ne (by simp), h.unparsed]
  · by_cases hg : g = hash
    · subst hg
      rw [Function.update_self, Function.update_self, Option.map_some]
    · -- another hash has another file
      have hne : txCachePath (hexHash g) ≠ txCachePath (hexHash hash) := fun heq =>
        hg (hexHash_inj (txCachePath_inj heq))
      rw [Function.update_of_ne hne, Function.update_of_ne (by simpa using hg), h.file g]
  · by_cases heq : path = txCachePath (hexHash hash)
    · exact ⟨hash, heq⟩
    · rw [Function.update_of_ne heq] at hpath
      exact h.only path hpath

/-- A call that finds a file. -/
theorem fetchTxInfo_of_file {files : Files String} {call : FetchCall} {look : TxLookup}
    (hlook : txLookup call.txHash = .ok look) {text : String}
    (hfile : files look.cachePath = some text) :
    ctx.fetchTxInfo files call =
      (files, if call.readOk then
          match ctx.json.fromStr text with
          | none => .error "deserializing cached tx"
          | some info => .ok info
        else .error ("reading cache file " ++ look.cachePath)) := by
  unfold fetchTxInfo
  rw [hlook]
  dsimp only
  rw [hfile, Option.isSome_some, if_pos rfl]
  dsimp only
  rw [hfile]
  cases call.readOk with
  | false => rfl
  | true =>
    cases hparse : ctx.json.fromStr text with
    | none => simp [hparse]
    | some info => simp [hparse]

/-- A call that finds no file. -/
theorem fetchTxInfo_of_missing {files : Files String} {call : FetchCall} {look : TxLookup}
    (hlook : txLookup call.txHash = .ok look) (hfile : files look.cachePath = none)
    (hlegacy : files look.legacyCachePath = none) :
    ctx.fetchTxInfo files call =
      match ctx.give call.rpcUrl look.hash with
      | .error message => (files, .error message)
      | .ok info =>
        (files.writeAtomic look.cachePath (ctx.json.toStringPretty info) call.writeOk,
          if call.writeOk then .ok info else .error ("writing cache " ++ look.cachePath)) := by
  unfold fetchTxInfo
  rw [hlook]
  dsimp only
  rw [hfile, hlegacy]
  rfl

/-- **One call on the files is one call of the cache.** -/
theorem fetchTxInfo_refines {files : Files String} {t : Option B256 → Option CachedTxInfo}
    (h : Represents ctx files t)
    (hjson : ∀ hash info, t (some hash) = some info → ctx.json.RoundTrips info)
    (call : FetchCall) :
    Represents ctx (ctx.fetchTxInfo files call).1 (Memo.serve t (ctx.memo call)).1 ∧
      ∀ info, (ctx.fetchTxInfo files call).2 = .ok info ↔
        (Memo.serve t (ctx.memo call)).2 = some info := by
  cases hlook : txLookup call.txHash with
  | error message =>
    have hhash : call.hash = none := by rw [FetchCall.hash, hlook]; rfl
    have hfetch : ctx.fetchTxInfo files call = (files, .error message) := by
      unfold fetchTxInfo
      rw [hlook]
    have hserve : Memo.serve t (ctx.memo call) = (t, none) := by
      simp [Memo.serve, memo, hhash, h.unparsed]
    rw [hfetch, hserve]
    exact ⟨h, fun info => by simp⟩
  | ok look =>
    obtain ⟨hpath, -, -⟩ := txLookup_eq_ok hlook
    have hhash : call.hash = some look.hash := by rw [FetchCall.hash, hlook]; rfl
    have hfile := h.file look.hash
    rw [← hpath] at hfile
    cases ht : t (some look.hash) with
    | some info =>
      -- there is a file: it is read, or cannot be
      rw [ht, Option.map_some] at hfile
      rw [fetchTxInfo_of_file hlook hfile, hjson _ _ ht]
      have hserve : Memo.serve t (ctx.memo call) =
          (t, if call.readOk then some info else none) := by
        simp [Memo.serve, memo, hhash, ht]
      rw [hserve]
      refine ⟨h, fun info' => ?_⟩
      cases call.readOk <;> simp
    | none =>
      -- there is none: the endpoint is asked
      rw [ht, Option.map_none] at hfile
      rw [fetchTxInfo_of_missing hlook hfile (h.legacy hlook hfile)]
      cases hgive : ctx.give call.rpcUrl look.hash with
      | error message =>
        have hserve : Memo.serve t (ctx.memo call) = (t, none) := by
          simp [Memo.serve, memo, hhash, ht, hgive, Except.toOption]
        rw [hserve]
        exact ⟨h, fun info => by simp⟩
      | ok info =>
        cases hwrite : call.writeOk with
        | false =>
          have hserve : Memo.serve t (ctx.memo call) = (t, none) := by
            simp [Memo.serve, memo, hhash, ht, hgive, Except.toOption, hwrite]
          rw [hserve]
          exact ⟨h, fun info' => by simp⟩
        | true =>
          have hserve : Memo.serve t (ctx.memo call) =
              (Function.update t (some look.hash) (some info), some info) := by
            simp [Memo.serve, memo, hhash, ht, hgive, Except.toOption, hwrite]
          rw [hserve, hpath]
          exact ⟨h.store look.hash info, fun info' => by simp⟩

/-- What a call stores for a hash, if there is nothing yet. -/
def stored (ctx : FetchContext) (hash : B256) (call : FetchCall) : Option CachedTxInfo :=
  if call.hash = some hash ∧ call.writeOk = true then (ctx.give call.rpcUrl hash).toOption else none

/-- What is stored was given. -/
theorem give_of_stored {hash : B256} {call : FetchCall} {info : CachedTxInfo}
    (h : ctx.stored hash call = some info) : ctx.give call.rpcUrl hash = .ok info := by
  rw [stored] at h
  split at h
  · cases hgive : ctx.give call.rpcUrl hash with
    | error message => simp [hgive, Except.toOption] at h
    | ok info' =>
      simp only [hgive, Except.toOption, Option.some.injEq] at h
      rw [h]
  · exact absurd h (by simp)

theorem stored_memo (ctx : FetchContext) (hash : B256) (call : FetchCall) :
    Memo.Call.stored (some hash) (ctx.memo call) = ctx.stored hash call := by
  by_cases hhash : call.hash = some hash
  · simp [Memo.Call.stored, stored, memo, hhash]
  · simp [Memo.Call.stored, stored, memo, hhash]

/-- **The files after any calls**, as a cache: what they hold for a hash is what the first call to
store anything for it was given. -/
theorem represents_filesAfter (calls : List FetchCall)
    (hjson : ∀ call ∈ calls, ∀ hash info, ctx.give call.rpcUrl hash = .ok info →
      ctx.json.RoundTrips info) :
    Represents ctx (ctx.filesAfter calls) (Memo.table (calls.map ctx.memo)) := by
  induction calls using List.reverseRecOn with
  | nil => exact ⟨rfl, fun hash => rfl, fun path hpath => absurd rfl hpath⟩
  | append_singleton calls call ih =>
    have hbefore := ih fun c hc => hjson c (List.mem_append_left _ hc)
    have hfiles : ctx.filesAfter (calls ++ [call]) =
        (ctx.fetchTxInfo (ctx.filesAfter calls) call).1 := List.foldl_append
    have htable : Memo.table ((calls ++ [call]).map ctx.memo) =
        (Memo.serve (Memo.table (calls.map ctx.memo)) (ctx.memo call)).1 := by
      rw [List.map_append]
      exact List.foldl_append
    rw [hfiles, htable]
    refine (fetchTxInfo_refines hbefore (fun hash info ht => ?_) call).1
    -- whatever is in the cache was given to one of the calls
    rw [Memo.table_eq] at ht
    obtain ⟨c, hc, hstored⟩ := List.exists_of_findSome?_eq_some ht
    obtain ⟨earlier, hearlier, rfl⟩ := List.mem_map.mp hc
    rw [stored_memo] at hstored
    exact hjson earlier (List.mem_append_left _ hearlier) hash info (give_of_stored hstored)

/-- What a call would be given. -/
theorem fresh_memo {call : FetchCall} {info : CachedTxInfo} :
    (ctx.memo call).fresh = some info ↔
      ∃ hash, call.hash = some hash ∧ ctx.give call.rpcUrl hash = .ok info := by
  rw [memo, Option.bind_eq_some_iff]
  refine exists_congr fun hash => and_congr_right fun _ => ?_
  cases ctx.give call.rpcUrl hash <;> simp [Except.toOption]

/-- What the first of some calls has stored for a hash. -/
theorem findSome?_memo (calls : List FetchCall) (hash : B256) :
    (calls.map ctx.memo).findSome? (Memo.Call.stored (some hash)) =
      calls.findSome? (ctx.stored hash) := by
  have hstored : Memo.Call.stored (some hash) ∘ ctx.memo = ctx.stored hash := by
    funext call
    rw [Function.comp_apply, stored_memo]
  rw [List.findSome?_map, hstored]

/-- What is no hash is not stored. -/
theorem stored_none (call : FetchCall) : Memo.Call.stored none (ctx.memo call) = none := by
  rw [Memo.Call.stored, key_memo]
  split
  · next h => simp [memo, h.1]
  · rfl

end FetchContext

/-- **When the cache is transparent.** For any calls, one after the other from an empty directory:
whatever a call returns is what its own endpoint gives for its hash, exactly if each call that can
read would be given what the first call before it to store anything for the same hash was given. -/
theorem fetch_transparent_iff (ctx : FetchContext) (calls : List FetchCall)
    (hjson : ∀ call ∈ calls, ∀ hash info, ctx.give call.rpcUrl hash = .ok info →
      ctx.json.RoundTrips info) :
    (∀ k call info, calls[k]? = some call →
        (ctx.fetchTxInfo (ctx.filesAfter (calls.take k)) call).2 = .ok info →
        ∃ hash, call.hash = some hash ∧ ctx.give call.rpcUrl hash = .ok info) ↔
      ∀ k call hash info, calls[k]? = some call → call.hash = some hash → call.readOk = true →
        (calls.take k).findSome? (ctx.stored hash) = some info →
        ctx.give call.rpcUrl hash = .ok info := by
  have hresult : ∀ k call info, calls[k]? = some call →
      ((ctx.fetchTxInfo (ctx.filesAfter (calls.take k)) call).2 = .ok info ↔
        (Memo.serve (Memo.table ((calls.map ctx.memo).take k)) (ctx.memo call)).2 = some info) := by
    intro k call info hcall
    have hbefore : FetchContext.Represents ctx _ _ :=
      FetchContext.represents_filesAfter (calls.take k) fun c hc =>
        hjson c (List.mem_of_mem_take hc)
    rw [← List.map_take]
    refine (FetchContext.fetchTxInfo_refines hbefore (fun hash info ht => ?_) call).2 info
    rw [Memo.table_eq, FetchContext.findSome?_memo] at ht
    obtain ⟨c, hc, hstored⟩ := List.exists_of_findSome?_eq_some ht
    exact hjson c (List.mem_of_mem_take hc) hash info (FetchContext.give_of_stored hstored)
  have habstract := Memo.transparent_iff (calls.map ctx.memo)
  constructor
  · intro h k call hash info hcall hhash hread hfirst
    have htransparent : Memo.Transparent (calls.map ctx.memo) := by
      intro k c v hc hv
      rw [List.getElem?_map, Option.map_eq_some_iff] at hc
      obtain ⟨call, hcall, rfl⟩ := hc
      exact FetchContext.fresh_memo.mpr (h k call v hcall ((hresult k call v hcall).mpr hv))
    have hmemo : (calls.map ctx.memo)[k]? = some (ctx.memo call) := by
      rw [List.getElem?_map, hcall, Option.map_some]
    have hfirst' : ((calls.map ctx.memo).take k).findSome?
        (Memo.Call.stored (ctx.memo call).key) = some info := by
      rw [← List.map_take, FetchContext.key_memo, hhash, FetchContext.findSome?_memo, hfirst]
    obtain ⟨hash', hhash', hgive⟩ :=
      FetchContext.fresh_memo.mp (habstract.mp htransparent k _ info hmemo hread hfirst')
    obtain rfl := Option.some.inj (hhash.symm.trans hhash')
    exact hgive
  · intro h k call info hcall hok
    have htransparent : Memo.Transparent (calls.map ctx.memo) := by
      refine habstract.mpr fun k c v hc hread hfirst => ?_
      rw [List.getElem?_map, Option.map_eq_some_iff] at hc
      obtain ⟨call, hcall, rfl⟩ := hc
      rw [← List.map_take] at hfirst
      cases hhash : call.hash with
      | none =>
        rw [FetchContext.key_memo, hhash] at hfirst
        obtain ⟨c, hc, hstored⟩ := List.exists_of_findSome?_eq_some hfirst
        obtain ⟨earlier, -, rfl⟩ := List.mem_map.mp hc
        rw [FetchContext.stored_none] at hstored
        exact absurd hstored (by simp)
      | some hash =>
        rw [FetchContext.key_memo, hhash, FetchContext.findSome?_memo] at hfirst
        exact FetchContext.fresh_memo.mpr
          ⟨hash, hhash, h k call hash v hcall hhash hread hfirst⟩
    have hmemo : (calls.map ctx.memo)[k]? = some (ctx.memo call) := by
      rw [List.getElem?_map, hcall, Option.map_some]
    exact FetchContext.fresh_memo.mp
      (htransparent k _ info hmemo ((hresult k call info hcall).mp hok))

/-! ### One hash on two chains -/

/-- A transaction that was signed for no chain in particular, as it is found in a block. -/
def keylessTx (blockNumber : U64) : RpcTransaction where
  inner := .legacy ⟨0, 100000, 0, []⟩ none 100000000000 none
  signer := 0x4c8d290a1b368ac4728d83a9e8321fc3af2b39b1
  blockNumber := some blockNumber

/-- The header of an empty block. -/
def emptyHeader : Header where
  beneficiary := 0
  timestamp := 1700000000
  difficulty := 0
  gasLimit := 30000000
  baseFeePerGas := none
  mixHash := 0
  excessBlobGas := none

/-- An endpoint of a chain that has the transaction in a block. -/
def keylessEndpoint (blockNumber : U64) : Endpoint where
  transactionByHash _ := .ok (some (keylessTx blockNumber))
  blockByNumber _ := .ok (some emptyHeader)

/-- What such an endpoint makes known. -/
def keylessInfo (blockNumber : U64) : CachedTxInfo :=
  cachedTxInfo (keylessTx blockNumber) blockNumber emptyHeader

/-- The text of that record. -/
def keylessText (blockNumber : U64) : String :=
  "\x7b\n  \"caller\": \"0x4c8d290a1b368ac4728d83a9e8321fc3af2b39b1\",\n" ++
  "  \"gas_limit\": 100000,\n  \"gas_price\": 100000000000,\n" ++
  "  \"max_priority_fee_per_gas\": null,\n  \"value\": \"0x0\",\n  \"data\": \"0x\",\n" ++
  "  \"nonce\": 0,\n  \"to\": null,\n  \"chain_id\": null,\n  \"block_number\": " ++
  blockNumber.toNat.repr ++
  (",\n  \"block_beneficiary\": \"0x0000000000000000000000000000000000000000\",\n" ++
  "  \"block_timestamp\": 1700000000,\n  \"block_difficulty\": \"0x0\",\n" ++
  "  \"block_gas_limit\": 30000000,\n  \"block_basefee\": 0\n\x7d")

/-- Different blocks have different texts. -/
theorem keylessText_inj {m n : U64} (h : keylessText m = keylessText n) : m = n := by
  have hrepr := (String.append_right_inj _).mp ((String.append_left_inj _).mp h)
  exact BitVec.eq_of_toNat_eq (Nat.repr_inj.mp hrepr)

/-- The library, as far as it deals with the texts for two blocks. -/
def keylessJson : Json CachedTxInfo where
  toStringPretty info := keylessText info.blockNumber
  fromStr text :=
    if text = keylessText 5 then some (keylessInfo 5)
    else if text = keylessText 9 then some (keylessInfo 9)
    else none

/-- The library reads back the records of both blocks. -/
theorem roundTrips_keylessInfo {n : U64} (h : n = 5 ∨ n = 9) :
    keylessJson.RoundTrips (keylessInfo n) := by
  have hblock : (keylessInfo n).blockNumber = n := rfl
  rw [Json.RoundTrips, keylessJson]
  dsimp only
  rw [hblock]
  rcases h with rfl | rfl
  · rw [if_pos rfl]
  · rw [if_neg fun h => absurd (keylessText_inj h) (by simp), if_pos rfl]

/-- Two endpoints: one has the transaction in block 5, the other, of another chain, in block 9. -/
def twoChains : FetchContext where
  json := keylessJson
  crate := sampleCrate
  allowlistEnv := none
  endpoint url :=
    if url ∈ ["https://93.184.216.34", "https://93.184.216.34/"] then keylessEndpoint 5
    else keylessEndpoint 9

/-- A call for the transaction. -/
def keylessCall (rpcUrl : String) : FetchCall where
  txHash := hexHash 1
  rpcUrl := rpcUrl
  readOk := true
  writeOk := true

theorem give_first (hash : B256) :
    twoChains.give "https://93.184.216.34" hash = .ok (keylessInfo 5) := rfl

theorem give_second (hash : B256) :
    twoChains.give "http://[::1]:8545" hash = .ok (keylessInfo 9) := rfl

/-- The files after a call with the first endpoint. -/
def keylessFiles : Files String :=
  Files.writeAtomic (fun _ => none) (txCachePath (hexHash 1)) (keylessText 5) true

theorem txLookup_keylessCall (rpcUrl : String) : txLookup (keylessCall rpcUrl).txHash =
    .ok ⟨1, txCachePath (hexHash 1), txCachePath (hexHash 1)⟩ := txLookup_hexHash 1

theorem filesAfter_first :
    twoChains.filesAfter [keylessCall "https://93.184.216.34"] = keylessFiles := by
  have hfirst : twoChains.fetchTxInfo (fun _ => none) (keylessCall "https://93.184.216.34") =
      (keylessFiles, .ok (keylessInfo 5)) :=
    (FetchContext.fetchTxInfo_of_missing (txLookup_keylessCall _) rfl rfl).trans rfl
  rw [FetchContext.filesAfter, List.foldl_cons, List.foldl_nil, hfirst]

/-- **After that, every endpoint will do.** -/
theorem fetchTxInfo_again (rpcUrl : String) :
    twoChains.fetchTxInfo keylessFiles (keylessCall rpcUrl) =
      (keylessFiles, .ok (keylessInfo 5)) := by
  have hfile : keylessFiles (txCachePath (hexHash 1)) = some (keylessText 5) :=
    Files.writeAtomic_self _ _ _
  rw [FetchContext.fetchTxInfo_of_file (txLookup_keylessCall _) hfile,
    show twoChains.json.fromStr (keylessText 5) = some (keylessInfo 5) from
      roundTrips_keylessInfo (Or.inl rfl)]
  rfl

/-- Two calls with the same endpoint: the second is told what the endpoint says. -/
theorem fetch_transparent_twice :
    (twoChains.fetchTxInfo keylessFiles (keylessCall "https://93.184.216.34")).2 =
        .ok (keylessInfo 5) ∧
      ∃ hash, (keylessCall "https://93.184.216.34").hash = some hash ∧
        twoChains.give "https://93.184.216.34" hash = .ok (keylessInfo 5) := by
  have hmem : ∀ call ∈ [keylessCall "https://93.184.216.34", keylessCall "https://93.184.216.34"],
      call = keylessCall "https://93.184.216.34" := by
    intro call hcall
    simpa using hcall
  have hagain := congrArg Prod.snd (fetchTxInfo_again "https://93.184.216.34")
  refine ⟨hagain, (fetch_transparent_iff twoChains
    [keylessCall "https://93.184.216.34", keylessCall "https://93.184.216.34"]
    fun call hcall hash info hgive => ?_).mpr ?_ 1 _ _ rfl ?_⟩
  · obtain rfl := hmem call hcall
    obtain rfl : keylessInfo 5 = info := Except.ok.inj ((give_first hash).symm.trans hgive)
    exact roundTrips_keylessInfo (Or.inl rfl)
  · intro k call hash info hcall _ _ hfirst
    obtain rfl := hmem call (List.mem_of_getElem? hcall)
    obtain ⟨c, hc, hstored⟩ := List.exists_of_findSome?_eq_some hfirst
    obtain rfl := hmem c (List.mem_of_mem_take hc)
    exact FetchContext.give_of_stored hstored
  · rw [List.take_succ_cons, List.take_zero, filesAfter_first]
    exact hagain

/-- One call with each endpoint: the second is told what the first endpoint said. -/
theorem not_transparent_twoChains :
    ¬∀ k call info, [keylessCall "https://93.184.216.34", keylessCall "http://[::1]:8545"][k]? =
        some call →
      (twoChains.fetchTxInfo (twoChains.filesAfter
        ([keylessCall "https://93.184.216.34", keylessCall "http://[::1]:8545"].take k))
          call).2 = .ok info →
      ∃ hash, call.hash = some hash ∧ twoChains.give call.rpcUrl hash = .ok info := by
  intro h
  obtain ⟨hash, -, hgive⟩ := h 1 (keylessCall "http://[::1]:8545") (keylessInfo 5) rfl (by
    rw [List.take_succ_cons, List.take_zero, filesAfter_first, fetchTxInfo_again])
  -- that is not what the second endpoint says
  have heq : keylessInfo 9 = keylessInfo 5 := Except.ok.inj ((give_second hash).symm.trans hgive)
  exact absurd (congrArg CachedTxInfo.blockNumber heq) (by simp [keylessInfo, cachedTxInfo])

end EvmDebugger
