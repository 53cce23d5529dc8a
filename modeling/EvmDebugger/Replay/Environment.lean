import EvmDebugger.Cache.Fetcher

/-!
# The environment of a replay

`spawn_evm_thread`, up to the point where the virtual machine starts: from the record of a
transaction and its block, the two are made anew. The record is text where the virtual machine has
words, and the text is read back by whatever the libraries offer: `parse`, `from_str_radix`,
`hex::decode`. On the records that `fetch_tx_info` writes they all succeed, and give back what was
written (`EvmDebugger.Confirmed.replayEnv_eq_ok`).

But the record does not have everything. `EvmDebugger.Confirmed.onChain` is what the virtual
machine was given on the chain; of this, some is kept (`EvmDebugger.Kept`), and some is not
(`EvmDebugger.Dropped`). Two transactions, each with its block, that have in common all that is kept
are replayed in the same environment, whatever else they differ in:
`EvmDebugger.replayEnv_separates_iff`.
-/

namespace EvmDebugger

/-! ### What the virtual machine is given -/

/-- What a transaction calls. -/
inductive TxKind where
  | call (addr : Address)
  | create
  deriving DecidableEq

/-- What the virtual machine is told of a transaction, its type apart. -/
structure TxFields where
  caller : Address
  gasLimit : U64
  gasPrice : U128
  kind : TxKind
  value : U256
  data : List UInt8
  nonce : U64
  chainId : Option U64
  accessList : List AccessListItem
  gasPriorityFee : Option U128
  blobHashes : List B256
  maxFeePerBlobGas : U128
  authorizationList : List SignedAuthorization
  deriving DecidableEq

/-- A transaction under construction: the type may be left open. -/
structure TxEnvBuilder extends TxFields where
  txType : Option UInt8
  deriving DecidableEq

/-- A transaction, as the virtual machine executes it. -/
structure TxEnv extends TxFields where
  txType : UInt8
  deriving DecidableEq

/-- A block, as the virtual machine sees it. -/
structure BlockEnv where
  number : U256
  beneficiary : Address
  timestamp : U256
  gasLimit : U64
  basefee : U64
  difficulty : U256
  prevrandao : Option B256
  blobExcessGas : Option U64
  deriving DecidableEq

/-- What is configured of the virtual machine. -/
structure CfgEnv where
  chainId : U64
  disableNonceCheck : Bool
  disableBalanceCheck : Bool
  deriving DecidableEq

/-- The library: an empty transaction to start from (`TxEnv::builder`), what is made of it in the
end (`build`), and the block that there is unless something is changed. -/
structure Revm where
  builder : TxEnvBuilder
  build : TxEnvBuilder → Except String TxEnv
  block : BlockEnv

/-- Building a transaction fills in its type, and leaves the rest as it is. -/
def Revm.BuildKeeps (revm : Revm) : Prop :=
  ∀ builder tx, revm.build builder = .ok tx → tx.toTxFields = builder.toTxFields

/-- What a replay depends on, the record apart: the libraries, the allowlist of the environment,
and whether the runtime has several threads. -/
structure ReplayContext where
  revm : Revm
  crate : UrlCrate
  allowlistEnv : Option String
  multiThread : Bool

/-- **The environment of a replay**: the endpoint and the block whose state is asked for, the
configuration, the transaction, and its block. -/
structure ReplayEnv where
  url : Url
  prevBlock : U64
  cfg : CfgEnv
  tx : TxEnv
  block : BlockEnv
  deriving DecidableEq

/-! ### Reading the record -/

/-- `parse::<Address>()`. -/
def parseAddress (s : String) : Option Address := (parseFixedBytes 20 s).map (BitVec.ofNat 160)

/-- `U256::from_str_radix(s, 16)`: underscores are ignored, and the number has to fit. -/
def fromStrRadix16 (s : String) : Option U256 :=
  (Hex.read (s.toList.filter (· ≠ '_'))).bind fun n =>
    if n < 2 ^ 256 then some (BitVec.ofNat 256 n) else none

/-- A number of the record; what is not one counts as zero. -/
def parseU256 (s : String) : U256 := (fromStrRadix16 (Text.trimStartMatches "0x" s)).getD 0

/-- The bytes of the record; what are none count as no bytes. -/
def parseBytes (s : String) : List UInt8 :=
  (Hex.decode (Text.trimStartMatches "0x" s).toList).getD []

/-- The recipient of the record. -/
def parseKind : Option String → Except String TxKind
  | none => .ok .create
  | some recipient =>
    match parseAddress recipient with
    | none => .error ("Invalid to address: " ++ recipient)
    | some addr => .ok (.call addr)

/-- **`spawn_evm_thread`**, up to the start of the virtual machine: the environment, or what is sent
instead of a trace. -/
def replayEnv (ctx : ReplayContext) (info : CachedTxInfo) (rpcUrl : String) :
    Except String ReplayEnv :=
  match validateRpcUrl ctx.crate ctx.allowlistEnv rpcUrl with
  | .error e => .error ("Invalid RPC URL: " ++ rpcUrl ++ "; " ++ e)
  | .ok url =>
    if ctx.multiThread = false then
      .error "WrapDatabaseAsync::new failed: need multi-thread runtime"
    else
      match parseAddress info.caller with
      | none => .error ("Invalid caller address: " ++ info.caller)
      | some caller =>
        match parseKind info.toAddress with
        | .error message => .error message
        | .ok kind =>
          -- a transaction signed for no chain is replayed on the first
          let chainId := info.chainId.getD 1
          let builder : TxEnvBuilder :=
            { ctx.revm.builder with
              caller := caller
              gasLimit := info.gasLimit
              gasPrice := info.gasPrice
              gasPriorityFee := info.maxPriorityFeePerGas
              value := parseU256 info.value
              data := parseBytes info.data
              nonce := info.nonce
              kind := kind
              chainId := some chainId }
          match ctx.revm.build builder with
          | .error e => .error ("TxEnv build error: " ++ e)
          | .ok tx =>
            -- the state before the block: that of the one before it
            .ok
              { url := url
                prevBlock := if info.blockNumber = 0 then 0 else info.blockNumber - 1
                cfg :=
                  { chainId := chainId
                    disableNonceCheck := true
                    disableBalanceCheck := true }
                tx := tx
                block :=
                  { ctx.revm.block with
                    number := info.blockNumber.zeroExtend 256
                    beneficiary := (parseAddress info.blockBeneficiary).getD 0
                    timestamp := info.blockTimestamp.zeroExtend 256
                    difficulty := parseU256 info.blockDifficulty
                    gasLimit := info.blockGasLimit
                    basefee := info.blockBasefee.setWidth 64 } }

/-! ### What is written is read back -/

/-- An address is read back. -/
theorem parseAddress_hexAddress (a : Address) : parseAddress (hexAddress a) = some a := by
  have hparse : parseFixedBytes 20 (hexAddress a) = some a.toNat := by
    refine parseFixedBytes_eq_some.mpr ⟨String.ofList (Hex.fixed 40 a.toNat), Or.inr rfl, ?_, ?_⟩
    · rw [String.toList_ofList, Hex.length_fixed]
    · rw [String.toList_ofList]
      exact Hex.read_fixed (a.isLt.trans_eq (by decide))
  rw [parseAddress, hparse, Option.map_some, BitVec.ofNat_toNat, BitVec.setWidth_eq]

/-- Of a prefix and digits, the digits are left. -/
theorem trimStartMatches_digits {digits : List Char} (h : ∀ c ∈ digits, c ≠ 'x') :
    Text.trimStartMatches "0x" ("0x" ++ String.ofList digits) = String.ofList digits := by
  refine Text.trimStartMatches_append (by simp) fun hprefix => ?_
  have hmem : 'x' ∈ (String.ofList digits).toList := hprefix.subset (by simp)
  rw [String.toList_ofList] at hmem
  exact h 'x' hmem rfl

/-- There is no `x` in what is printed of a number. -/
theorem ne_x_of_mem_minimal {n : ℕ} {c : Char} (hc : c ∈ Hex.minimal n) : c ≠ 'x' := by
  rintro rfl
  exact absurd (Hex.isSome_of_read (Hex.read_minimal n) 'x' hc) (by decide)

/-- Nor in what is printed of bytes. -/
theorem ne_x_of_mem_encode {bytes : List UInt8} {c : Char} (hc : c ∈ Hex.encode bytes) :
    c ≠ 'x' := by
  obtain ⟨d, hd, rfl⟩ := Hex.mem_encode hc
  exact (show ∀ d < 16, Nat.digitChar d ≠ 'x' by decide) d hd

/-- **A number is read**, and nothing takes its place. -/
theorem fromStrRadix16_hexValue (v : U256) :
    fromStrRadix16 (Text.trimStartMatches "0x" (hexValue v)) = some v := by
  have hread := Hex.read_minimal v.toNat
  have hfilter : (Hex.minimal v.toNat).filter (· ≠ '_') = Hex.minimal v.toNat := by
    refine List.filter_eq_self.mpr fun c hc => ?_
    rw [decide_eq_true_eq]
    rintro rfl
    exact absurd (Hex.isSome_of_read hread '_' hc) (by decide)
  rw [hexValue, trimStartMatches_digits fun c hc => ne_x_of_mem_minimal hc, fromStrRadix16,
    String.toList_ofList, hfilter, hread, Option.bind_some, if_pos v.isLt, BitVec.ofNat_toNat,
    BitVec.setWidth_eq]

/-- A number is read back. -/
theorem parseU256_hexValue (v : U256) : parseU256 (hexValue v) = v := by
  rw [parseU256, fromStrRadix16_hexValue, Option.getD_some]

/-- **Bytes are decoded**, and nothing takes their place. -/
theorem decode_hexEncode (bytes : List UInt8) :
    Hex.decode (Text.trimStartMatches "0x" ("0x" ++ hexEncode bytes)).toList = some bytes := by
  rw [hexEncode, trimStartMatches_digits fun c hc => ne_x_of_mem_encode hc, String.toList_ofList,
    Hex.decode_encode]

/-- Bytes are read back. -/
theorem parseBytes_hexEncode (bytes : List UInt8) :
    parseBytes ("0x" ++ hexEncode bytes) = bytes := by
  rw [parseBytes, decode_hexEncode, Option.getD_some]

/-- What a transaction calls. -/
def TxKind.ofRecipient : Option Address → TxKind
  | none => .create
  | some addr => .call addr

theorem TxKind.ofRecipient_inj {a b : Option Address} (h : ofRecipient a = ofRecipient b) :
    a = b := by
  cases a <;> cases b <;> simp_all [ofRecipient]

/-- The recipient is read back. -/
theorem parseKind_hexAddress (recipient : Option Address) :
    parseKind (recipient.map hexAddress) = .ok (.ofRecipient recipient) := by
  cases recipient with
  | none => rfl
  | some addr =>
    rw [Option.map_some, parseKind, parseAddress_hexAddress]
    rfl

/-- A number that is extended is not changed. -/
theorem zeroExtend_inj {a b : U64} (h : a.zeroExtend 256 = b.zeroExtend 256) : a = b := by
  have hnat := congrArg BitVec.toNat h
  have ha := a.isLt
  have hb := b.isLt
  rw [BitVec.toNat_setWidth, BitVec.toNat_setWidth] at hnat
  refine BitVec.eq_of_toNat_eq ?_
  omega

/-- What is widened can be narrowed again. -/
theorem setWidth_zeroExtend (fee : U64) : (fee.zeroExtend 128).setWidth 64 = fee := by
  have hlt := fee.isLt
  refine BitVec.eq_of_toNat_eq ?_
  rw [BitVec.toNat_setWidth, BitVec.toNat_setWidth]
  omega

/-! ### Confirmed transactions -/

/-- **A confirmed transaction** and the header of its block. -/
structure Confirmed where
  tx : RpcTransaction
  header : Header
  blockNumber : U64
  mined : tx.blockNumber = some blockNumber

/-- The record of the two. -/
def Confirmed.info (c : Confirmed) : CachedTxInfo := cachedTxInfo c.tx c.blockNumber c.header

/-- **What an endpoint makes known is the record of a confirmed transaction**, of which it answers
the two halves. -/
theorem Endpoint.txInfo_eq_ok {endpoint : Endpoint} {hash : B256} {info : CachedTxInfo} :
    endpoint.txInfo hash = .ok info ↔
      ∃ c : Confirmed, endpoint.transactionByHash hash = .ok (some c.tx) ∧
        endpoint.blockByNumber c.blockNumber = .ok (some c.header) ∧ c.info = info := by
  rw [Endpoint.txInfo]
  constructor
  · intro h
    split at h
    · exact absurd h (by simp)
    · exact absurd h (by simp)
    · exact absurd h (by simp)
    · next tx htx =>
      split at h
      · exact absurd h (by simp)
      · next blockNumber hmined =>
        split at h
        · exact absurd h (by simp)
        · exact absurd h (by simp)
        · exact absurd h (by simp)
        · next header hheader =>
          exact ⟨⟨tx, header, blockNumber, hmined⟩, htx, hheader, Except.ok.inj h⟩
  · rintro ⟨c, htx, hheader, rfl⟩
    rw [htx]
    dsimp only
    rw [c.mined]
    dsimp only
    rw [hheader]
    rfl

/-- **What the record keeps** of a transaction and its block. Where there is no chain, the record
has none either, and the replay takes the first. -/
structure Kept where
  caller : Address
  gasLimit : U64
  gasPrice : U128
  gasPriorityFee : Option U128
  recipient : Option Address
  value : U256
  data : List UInt8
  nonce : U64
  replayChain : U64
  blockNumber : U64
  beneficiary : Address
  timestamp : U64
  difficulty : U256
  blockGasLimit : U64
  basefee : U64
  deriving DecidableEq

/-- **What it does not keep.** -/
structure Dropped where
  txType : UInt8
  chainId : Option U64
  accessList : List AccessListItem
  authorizationList : List SignedAuthorization
  blobHashes : List B256
  maxFeePerBlobGas : U128
  mixHash : B256
  excessBlobGas : Option U64
  deriving DecidableEq

namespace Confirmed

/-- What is kept. -/
def kept (c : Confirmed) : Kept where
  caller := c.tx.signer
  gasLimit := c.tx.inner.common.gasLimit
  gasPrice := c.tx.inner.gasPrice.getD c.tx.inner.maxFeePerGas
  gasPriorityFee := c.tx.inner.maxPriorityFeePerGas
  recipient := c.tx.inner.toAddress
  value := c.tx.inner.common.value
  data := c.tx.inner.common.input
  nonce := c.tx.inner.common.nonce
  replayChain := c.tx.inner.chainId.getD 1
  blockNumber := c.blockNumber
  beneficiary := c.header.beneficiary
  timestamp := c.header.timestamp
  difficulty := c.header.difficulty
  blockGasLimit := c.header.gasLimit
  basefee := c.header.baseFeePerGas.getD 0

/-- What is dropped. -/
def dropped (c : Confirmed) : Dropped where
  txType := c.tx.inner.txType
  chainId := c.tx.inner.chainId
  accessList := c.tx.inner.accessList
  authorizationList := c.tx.inner.authorizationList
  blobHashes := c.tx.inner.blobVersionedHashes
  maxFeePerBlobGas := c.tx.inner.maxFeePerBlobGas.getD 0
  mixHash := c.header.mixHash
  excessBlobGas := c.header.excessBlobGas

/-- **What the virtual machine was given on the chain**: every field that it reads, as the
transaction and the header of the block have it. -/
def onChain (c : Confirmed) : TxEnv × BlockEnv where
  fst :=
    { txType := c.tx.inner.txType
      caller := c.tx.signer
      gasLimit := c.tx.inner.common.gasLimit
      gasPrice := c.tx.inner.gasPrice.getD c.tx.inner.maxFeePerGas
      kind := .ofRecipient c.tx.inner.toAddress
      value := c.tx.inner.common.value
      data := c.tx.inner.common.input
      nonce := c.tx.inner.common.nonce
      chainId := c.tx.inner.chainId
      accessList := c.tx.inner.accessList
      gasPriorityFee := c.tx.inner.maxPriorityFeePerGas
      blobHashes := c.tx.inner.blobVersionedHashes
      maxFeePerBlobGas := c.tx.inner.maxFeePerBlobGas.getD 0
      authorizationList := c.tx.inner.authorizationList }
  snd :=
    { number := c.blockNumber.zeroExtend 256
      beneficiary := c.header.beneficiary
      timestamp := c.header.timestamp.zeroExtend 256
      gasLimit := c.header.gasLimit
      basefee := c.header.baseFeePerGas.getD 0
      difficulty := c.header.difficulty
      prevrandao := some c.header.mixHash
      blobExcessGas := c.header.excessBlobGas }

/-- **What is read on the chain is what is kept and what is dropped.** -/
theorem onChain_eq_iff {c c' : Confirmed} :
    c.onChain = c'.onChain ↔ c.kept = c'.kept ∧ c.dropped = c'.dropped := by
  constructor
  · intro h
    have hrecipient := TxKind.ofRecipient_inj (congrArg (·.1.kind) h)
    have hnumber := zeroExtend_inj (congrArg (·.2.number) h)
    have htime := zeroExtend_inj (congrArg (·.2.timestamp) h)
    have hmix := Option.some.inj (congrArg (·.2.prevrandao) h)
    have hchain : c.tx.inner.chainId = c'.tx.inner.chainId := congrArg (·.1.chainId) h
    rw [kept, kept, Kept.mk.injEq, dropped, dropped, Dropped.mk.injEq]
    exact ⟨⟨congrArg (·.1.caller) h, congrArg (·.1.gasLimit) h, congrArg (·.1.gasPrice) h,
        congrArg (·.1.gasPriorityFee) h, hrecipient, congrArg (·.1.value) h,
        congrArg (·.1.data) h, congrArg (·.1.nonce) h, congrArg (Option.getD · 1) hchain, hnumber,
        congrArg (·.2.beneficiary) h, htime, congrArg (·.2.difficulty) h,
        congrArg (·.2.gasLimit) h, congrArg (·.2.basefee) h⟩,
      congrArg (·.1.txType) h, hchain, congrArg (·.1.accessList) h,
      congrArg (·.1.authorizationList) h, congrArg (·.1.blobHashes) h,
      congrArg (·.1.maxFeePerBlobGas) h, hmix, congrArg (·.2.blobExcessGas) h⟩
  · rintro ⟨hkept, hdropped⟩
    simp only [kept, Kept.mk.injEq] at hkept
    simp only [dropped, Dropped.mk.injEq] at hdropped
    simp only [onChain, hkept, hdropped]

end Confirmed

/-! ### The environment that is built -/

namespace Kept

/-- The transaction that is built from what is kept. -/
def builder (k : Kept) (revm : Revm) : TxEnvBuilder :=
  { revm.builder with
    caller := k.caller
    gasLimit := k.gasLimit
    gasPrice := k.gasPrice
    gasPriorityFee := k.gasPriorityFee
    value := k.value
    data := k.data
    nonce := k.nonce
    kind := .ofRecipient k.recipient
    chainId := some k.replayChain }

/-- The block that is set up from what is kept. -/
def block (k : Kept) (revm : Revm) : BlockEnv :=
  { revm.block with
    number := k.blockNumber.zeroExtend 256
    beneficiary := k.beneficiary
    timestamp := k.timestamp.zeroExtend 256
    difficulty := k.difficulty
    gasLimit := k.blockGasLimit
    basefee := k.basefee }

/-- Of the transaction that is built, the fields that were set can be read off. -/
theorem eq_of_builder {revm : Revm} {k k' : Kept}
    (htx : (k.builder revm).toTxFields = (k'.builder revm).toTxFields)
    (hblock : k.block revm = k'.block revm) : k = k' := by
  have hrecipient := TxKind.ofRecipient_inj (congrArg TxFields.kind htx)
  have hchain := Option.some.inj (congrArg TxFields.chainId htx)
  have hnumber := zeroExtend_inj (congrArg BlockEnv.number hblock)
  have htime := zeroExtend_inj (congrArg BlockEnv.timestamp hblock)
  obtain ⟨⟩ := k
  obtain ⟨⟩ := k'
  rw [Kept.mk.injEq]
  exact ⟨congrArg TxFields.caller htx, congrArg TxFields.gasLimit htx,
    congrArg TxFields.gasPrice htx, congrArg TxFields.gasPriorityFee htx, hrecipient,
    congrArg TxFields.value htx, congrArg TxFields.data htx, congrArg TxFields.nonce htx, hchain,
    hnumber, congrArg BlockEnv.beneficiary hblock, htime, congrArg BlockEnv.difficulty hblock,
    congrArg BlockEnv.gasLimit hblock, congrArg BlockEnv.basefee hblock⟩

end Kept

namespace Confirmed

/-- The environment that is built. -/
def environment (revm : Revm) (c : Confirmed) (url : Url) (tx : TxEnv) : ReplayEnv where
  url := url
  prevBlock := if c.blockNumber = 0 then 0 else c.blockNumber - 1
  cfg := ⟨c.kept.replayChain, true, true⟩
  tx := tx
  block := c.kept.block revm

/-- **The replay of a confirmed transaction.** Whatever stands in its record is read back, so only
three things can go wrong: the URL, the runtime, and the last step of the construction. -/
theorem replayEnv_info (ctx : ReplayContext) (c : Confirmed) (rpcUrl : String) :
    replayEnv ctx c.info rpcUrl =
      match validateRpcUrl ctx.crate ctx.allowlistEnv rpcUrl with
      | .error e => .error ("Invalid RPC URL: " ++ rpcUrl ++ "; " ++ e)
      | .ok url =>
        if ctx.multiThread = false then
          .error "WrapDatabaseAsync::new failed: need multi-thread runtime"
        else
          match ctx.revm.build (c.kept.builder ctx.revm) with
          | .error e => .error ("TxEnv build error: " ++ e)
          | .ok tx => .ok (c.environment ctx.revm url tx) := by
  have hcaller : parseAddress c.info.caller = some c.kept.caller := parseAddress_hexAddress _
  have hkind : parseKind c.info.toAddress = .ok (.ofRecipient c.kept.recipient) :=
    parseKind_hexAddress _
  have hvalue : parseU256 c.info.value = c.kept.value := parseU256_hexValue _
  have hdata : parseBytes c.info.data = c.kept.data := parseBytes_hexEncode _
  have hbeneficiary : parseAddress c.info.blockBeneficiary = some c.kept.beneficiary :=
    parseAddress_hexAddress _
  have hdifficulty : parseU256 c.info.blockDifficulty = c.kept.difficulty := parseU256_hexValue _
  have hbasefee : c.info.blockBasefee.setWidth 64 = c.kept.basefee := setWidth_zeroExtend _
  unfold replayEnv
  rw [hcaller, hkind, hvalue, hdata, hbeneficiary, hdifficulty, hbasefee]
  rfl

/-- When there is an environment, and which. -/
theorem replayEnv_eq_ok {ctx : ReplayContext} {c : Confirmed} {rpcUrl : String} {e : ReplayEnv} :
    replayEnv ctx c.info rpcUrl = .ok e ↔
      ∃ url tx, validateRpcUrl ctx.crate ctx.allowlistEnv rpcUrl = .ok url ∧
        ctx.multiThread = true ∧ ctx.revm.build (c.kept.builder ctx.revm) = .ok tx ∧
        e = c.environment ctx.revm url tx := by
  rw [replayEnv_info]
  constructor
  · intro h
    split at h
    · exact absurd h (by simp)
    · next url hurl =>
      split at h
      · exact absurd h (by simp)
      · next hthreads =>
        split at h
        · exact absurd h (by simp)
        · next tx hbuild =>
          exact ⟨url, tx, hurl, Bool.eq_true_of_not_eq_false hthreads, hbuild,
            (Except.ok.inj h).symm⟩
  · rintro ⟨url, tx, hurl, hthreads, hbuild, rfl⟩
    rw [hurl]
    dsimp only
    rw [hthreads, if_neg (by simp), hbuild]

/-- **Two transactions are replayed in the same environment** exactly if they have in common all
that is kept. -/
theorem sameEnv_iff {ctx : ReplayContext} (hbuild : ctx.revm.BuildKeeps) {c c' : Confirmed}
    {rpcUrl rpcUrl' : String} {e e' : ReplayEnv} (h : replayEnv ctx c.info rpcUrl = .ok e)
    (h' : replayEnv ctx c'.info rpcUrl' = .ok e') :
    e.tx = e'.tx ∧ e.block = e'.block ↔ c.kept = c'.kept := by
  obtain ⟨url, tx, -, -, htx, rfl⟩ := replayEnv_eq_ok.mp h
  obtain ⟨url', tx', -, -, htx', rfl⟩ := replayEnv_eq_ok.mp h'
  constructor
  · rintro ⟨hsame, hblock⟩
    have hfields : tx.toTxFields = tx'.toTxFields := congrArg TxEnv.toTxFields hsame
    rw [hbuild _ _ htx, hbuild _ _ htx'] at hfields
    exact Kept.eq_of_builder hfields hblock
  · intro hkept
    rw [hkept, htx', Except.ok.injEq] at htx
    subst htx
    rw [environment, environment, hkept]
    exact ⟨rfl, rfl⟩

end Confirmed

/-- **When a replay tells two transactions apart.** Of two transactions, each with its block, that
are replayed: that they are replayed in different environments if they differ in anything that the
virtual machine reads, is the case exactly if they differ in something that is kept, or in nothing
that is dropped. -/
theorem replayEnv_separates_iff {ctx : ReplayContext} (hbuild : ctx.revm.BuildKeeps)
    {c c' : Confirmed} {rpcUrl rpcUrl' : String} {e e' : ReplayEnv}
    (h : replayEnv ctx c.info rpcUrl = .ok e) (h' : replayEnv ctx c'.info rpcUrl' = .ok e') :
    (c.onChain ≠ c'.onChain → ¬(e.tx = e'.tx ∧ e.block = e'.block)) ↔
      (c.kept ≠ c'.kept ∨ c.dropped = c'.dropped) := by
  rw [Confirmed.sameEnv_iff hbuild h h', Ne, Confirmed.onChain_eq_iff]
  constructor
  · intro hseparates
    by_cases hkept : c.kept = c'.kept
    · by_contra hnot
      exact hseparates (fun hsame => hnot (Or.inr hsame.2)) hkept
    · exact Or.inl hkept
  · rintro (hkept | hdropped) hdiffer
    · exact hkept
    · exact fun hkept => hdiffer ⟨hkept, hdropped⟩

/-! ### Two transactions that differ in the access list -/

/-- The library, as far as transactions without blobs and authorizations go. -/
def sampleRevm : Revm where
  builder :=
    { caller := 0
      gasLimit := 30000000
      gasPrice := 0
      kind := .call 0
      value := 0
      data := []
      nonce := 0
      chainId := some 1
      accessList := []
      gasPriorityFee := none
      blobHashes := []
      maxFeePerBlobGas := 0
      authorizationList := []
      txType := none }
  build b :=
    .ok { b.toTxFields with
          txType := b.txType.getD
            (if b.gasPriorityFee.isSome then 2 else if b.accessList = [] then 0 else 1) }
  block :=
    { number := 0
      beneficiary := 0
      timestamp := 1
      gasLimit := BitVec.allOnes 64
      basefee := 0
      difficulty := 0
      prevrandao := some 0
      blobExcessGas := some 0 }

theorem sampleRevm_buildKeeps : sampleRevm.BuildKeeps := by
  intro builder tx h
  obtain rfl := Except.ok.inj h
  rfl

/-- A replay of it. -/
def sampleReplay : ReplayContext where
  revm := sampleRevm
  crate := sampleCrate
  allowlistEnv := none
  multiThread := true

/-- A call with a nonce and an access list. -/
def listedCall (nonce : U64) (accessList : List AccessListItem) : Confirmed where
  tx :=
    { inner := .eip1559 ⟨nonce, 100000, 0, []⟩ 1 30000000000 1000000000 (some 7) accessList
      signer := 0x4c8d290a1b368ac4728d83a9e8321fc3af2b39b1
      blockNumber := some 17000000 }
  header := emptyHeader
  blockNumber := 17000000
  mined := rfl

/-- The environment it is replayed in. -/
theorem exists_replayEnv_listedCall (nonce : U64) (accessList : List AccessListItem) :
    ∃ e, replayEnv sampleReplay (listedCall nonce accessList).info "https://93.184.216.34" =
      .ok e :=
  ⟨_, Confirmed.replayEnv_eq_ok.mpr ⟨ipv4Url, _, rfl, rfl, rfl, rfl⟩⟩

/-- Two calls that differ in the nonce are told apart, though they differ in the access list as
well. -/
theorem separates_nonce :
    ∃ e e', replayEnv sampleReplay (listedCall 0 []).info "https://93.184.216.34" = .ok e ∧
      replayEnv sampleReplay (listedCall 1 [⟨7, [0]⟩]).info "https://93.184.216.34" = .ok e' ∧
      ((listedCall 0 []).onChain ≠ (listedCall 1 [⟨7, [0]⟩]).onChain →
        ¬(e.tx = e'.tx ∧ e.block = e'.block)) := by
  obtain ⟨e, he⟩ := exists_replayEnv_listedCall 0 []
  obtain ⟨e', he'⟩ := exists_replayEnv_listedCall 1 [⟨7, [0]⟩]
  refine ⟨e, e', he, he', (replayEnv_separates_iff sampleRevm_buildKeeps he he').mpr ?_⟩
  refine Or.inl fun hkept => ?_
  exact absurd (congrArg Kept.nonce hkept) (by simp [Confirmed.kept, listedCall, TxEnvelope.common])

/-- Two calls that differ in the access list only are not. -/
theorem not_separates_accessList :
    ¬∀ e e', replayEnv sampleReplay (listedCall 0 []).info "https://93.184.216.34" = .ok e →
      replayEnv sampleReplay (listedCall 0 [⟨7, [0]⟩]).info "https://93.184.216.34" = .ok e' →
      (listedCall 0 []).onChain ≠ (listedCall 0 [⟨7, [0]⟩]).onChain →
      ¬(e.tx = e'.tx ∧ e.block = e'.block) := by
  intro h
  obtain ⟨e, he⟩ := exists_replayEnv_listedCall 0 []
  have hinfo : (listedCall 0 []).info = (listedCall 0 [⟨7, [0]⟩]).info := rfl
  refine h e e he (hinfo ▸ he) (fun hsame => ?_) ⟨rfl, rfl⟩
  have hlist : ([] : List AccessListItem) = [⟨7, [0]⟩] := congrArg (·.1.accessList) hsame
  exact absurd hlist (by simp)

end EvmDebugger
