import EvmDebugger.Replay.Environment

/-!
# Reading the record back, field by field

The fetcher writes numbers, addresses and bytes as text, each in a way of its own, and widens the
base fee; the executor reads them back, with a reader for each. A reader that fails does not stop
the executor: a number is then zero, and bytes are none. So a drift between the two would go
unnoticed, and another transaction would be replayed.

`EvmDebugger.decodes_of_txInfo` says that there is none. Each reader succeeds on what was written,
and so nothing is ever put in the place of anything; the one prefix that was put in front is taken
away, and nothing else; and what the virtual machine is set up with is what the endpoint answered.
-/

namespace EvmDebugger

/-- Of the text, one prefix is taken away. -/
def OnePrefix (s : String) : Prop := s = "0x" ++ Text.trimStartMatches "0x" s

/-- **The record can be read back**: from each field of the record, what it was written from. -/
structure Decodes (info : CachedTxInfo) (c : Confirmed) : Prop where
  caller : parseAddress info.caller = some c.tx.signer
  recipient : parseKind info.toAddress = .ok (.ofRecipient c.tx.inner.toAddress)
  value : fromStrRadix16 (Text.trimStartMatches "0x" info.value) = some c.tx.inner.common.value
  data : Hex.decode (Text.trimStartMatches "0x" info.data).toList = some c.tx.inner.common.input
  beneficiary : parseAddress info.blockBeneficiary = some c.header.beneficiary
  difficulty : fromStrRadix16 (Text.trimStartMatches "0x" info.blockDifficulty) =
    some c.header.difficulty
  basefee : info.blockBasefee.setWidth 64 = c.header.baseFeePerGas.getD 0
  prefixes : OnePrefix info.value ∧ OnePrefix info.data ∧ OnePrefix info.blockDifficulty

/-- **The virtual machine is given what the endpoint answered.** -/
structure SetUp (e : ReplayEnv) (c : Confirmed) : Prop where
  caller : e.tx.caller = c.tx.signer
  kind : e.tx.kind = .ofRecipient c.tx.inner.toAddress
  value : e.tx.value = c.tx.inner.common.value
  data : e.tx.data = c.tx.inner.common.input
  beneficiary : e.block.beneficiary = c.header.beneficiary
  difficulty : e.block.difficulty = c.header.difficulty
  basefee : e.block.basefee = c.header.baseFeePerGas.getD 0

/-- From a number, one prefix is taken away. -/
theorem onePrefix_hexValue (v : U256) : OnePrefix (hexValue v) := by
  rw [OnePrefix, hexValue, trimStartMatches_digits fun c hc => ne_x_of_mem_minimal hc]

/-- From bytes, one prefix is taken away: theirs may begin with a zero, but not with the prefix. -/
theorem onePrefix_hexEncode (bytes : List UInt8) : OnePrefix ("0x" ++ hexEncode bytes) := by
  rw [OnePrefix, hexEncode, trimStartMatches_digits fun c hc => ne_x_of_mem_encode hc]

namespace Confirmed

/-- **The record of a confirmed transaction can be read back.** -/
theorem decodes (c : Confirmed) : Decodes c.info c where
  caller := parseAddress_hexAddress _
  recipient := parseKind_hexAddress _
  value := fromStrRadix16_hexValue _
  data := decode_hexEncode _
  beneficiary := parseAddress_hexAddress _
  difficulty := fromStrRadix16_hexValue _
  basefee := setWidth_zeroExtend _
  prefixes := ⟨onePrefix_hexValue _, onePrefix_hexEncode _, onePrefix_hexValue _⟩

/-- **And what is read is what the machine is set up with**, where building a transaction keeps
what it is given. -/
theorem setUp {ctx : ReplayContext} (hbuild : ctx.revm.BuildKeeps) {c : Confirmed}
    {rpcUrl : String} {e : ReplayEnv} (h : replayEnv ctx c.info rpcUrl = .ok e) : SetUp e c := by
  obtain ⟨url, tx, -, -, htx, rfl⟩ := replayEnv_eq_ok.mp h
  have hfields : tx.toTxFields = (c.kept.builder ctx.revm).toTxFields := hbuild _ _ htx
  exact
    { caller := congrArg TxFields.caller hfields
      kind := congrArg TxFields.kind hfields
      value := congrArg TxFields.value hfields
      data := congrArg TxFields.data hfields
      beneficiary := rfl
      difficulty := rfl
      basefee := rfl }

end Confirmed

/-- **Nothing is lost on the way from the endpoint to the virtual machine.** Whatever an endpoint
makes known of a hash is the record of a transaction and a header that it answered. From that
record everything that was written as text, or widened, is read back as it was; and a replay from
it is set up with just that. -/
theorem decodes_of_txInfo {endpoint : Endpoint} {hash : B256} {info : CachedTxInfo}
    (h : endpoint.txInfo hash = .ok info) :
    ∃ c : Confirmed, endpoint.transactionByHash hash = .ok (some c.tx) ∧
      endpoint.blockByNumber c.blockNumber = .ok (some c.header) ∧ Decodes info c ∧
      ∀ ctx rpcUrl e, ctx.revm.BuildKeeps → replayEnv ctx info rpcUrl = .ok e → SetUp e c := by
  obtain ⟨c, htx, hheader, rfl⟩ := Endpoint.txInfo_eq_ok.mp h
  refine ⟨c, htx, hheader, c.decodes, ?_⟩
  intro ctx rpcUrl e hbuild he
  exact Confirmed.setUp hbuild he

/-- An endpoint that knows of one transaction: the creation of a contract whose code begins with a
zero. -/
def creationEndpoint : Endpoint where
  transactionByHash _ :=
    .ok (some
      { inner := .legacy ⟨7, 100000, 0, [0x00, 0x60]⟩ (some 1) 30000000000 none
        signer := 0x4c8d290a1b368ac4728d83a9e8321fc3af2b39b1
        blockNumber := some 17000000 })
  blockByNumber _ := .ok (some emptyHeader)

/-- The record of the creation is read back. -/
theorem decodes_creation :
    ∃ info c, creationEndpoint.txInfo 0 = .ok info ∧ Decodes info c ∧
      ∀ rpcUrl e, replayEnv sampleReplay info rpcUrl = .ok e → SetUp e c := by
  have hinfo : creationEndpoint.txInfo 0 = .ok _ := rfl
  obtain ⟨c, -, -, hdecodes, hsetUp⟩ := decodes_of_txInfo hinfo
  exact ⟨_, c, hinfo, hdecodes, fun rpcUrl e he =>
    hsetUp sampleReplay rpcUrl e sampleRevm_buildKeeps he⟩

end EvmDebugger
