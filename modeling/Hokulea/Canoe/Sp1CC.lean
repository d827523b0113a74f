/-
`canoe/sp1-cc`: the three programs that have to agree on a canoe
proof's journals.

- `main` of `client`, the zkVM guest: it executes the contract call of
  each input over a state sketch and commits to one journal each;
- `toJournalsBytes` of `verifier`: it rebuilds the journals from the
  claims of a witness, with constants of its own for genesis and fork;
- `canoeProofStdin` of `host`: it loads the state for the calls and
  hands sketch and inputs to the guest.

The programs meet in libraries that are not part of this repository;
`Libraries` and `HostExecutor` hold what they call of them. Every
`assert`, `expect` and `panic` is a `none`.

# The types of the libraries

- `γ`: rsp's `Genesis`, an enumeration of known chains and a variant
  for custom ones;
- `η`: a block header;
- `ι`: `EvmSketchInput`, the sketch as the guest reads it.
-/
import Hokulea.Canoe.Provider

namespace Hokulea.Sp1CC

open Bytes

-- ========================================== what the libraries offer

/-- `ContractInput::new_call` -/
structure ContractInput where
  contractAddress : Address
  callerAddress : Address
  call : CertVerifierCall
  deriving DecidableEq

/-- `AnchorType`: a block hash, or an anchor in the beacon chain. -/
inductive AnchorType where
  | blockHash
  | timestamp
  | slot
  deriving DecidableEq, Repr

/-- `ContractPublicValues`, the fields the guest reads. -/
structure ContractPublicValues where
  contractOutput : Bytes
  anchorHash : B256
  anchorType : AnchorType
  chainConfigHash : B256
  deriving DecidableEq

/-- `ClientExecutor`: `chainId` is that of its `chain_spec`. -/
structure ClientExecutor (η : Type) where
  header : η
  chainId : Nat
  execute : ContractInput → Option ContractPublicValues

/-- The chain specifications `derive_chain_spec_id` chooses from. -/
inductive ChainSpec where
  | mainnet
  | sepolia
  | holesky
  | kurtosis
  deriving DecidableEq, Repr

/-- What guest, host and verifier call of alloy, bincode, reth, rsp and
the sp1-cc client executor. -/
structure Libraries (γ η ι : Type) where
  keccak256 : Bytes → B256
  /-- `<StatusCode as SolType>::abi_decode` -/
  abiDecodeStatusCode : Bytes → Option StatusCode
  /-- `bincode::serialize` -/
  serializeJournals : List Journal → Option Bytes
  serializeGenesis : γ → Option Bytes
  /-- `bincode::deserialize::<EvmSketchInput>` -/
  deserializeSketch : Bytes → Option ι
  /-- `Genesis::try_from` -/
  genesisTryFrom : Nat → Option γ
  /-- `EvmSketchInput::genesis` -/
  genesis : ι → γ
  /-- `ClientExecutor::eth`, which checks the state of the sketch
  against its header's state root. -/
  eth : ι → Option (ClientExecutor η)
  number : η → Nat
  timestamp : η → Nat
  hashSlow : η → B256
  /-- The name of `spec_by_timestamp_and_block_number`. -/
  specByTimestampAndBlockNumber : ChainSpec → Nat → Nat → String

variable {γ η ι : Type} (L : Libraries γ η ι)

namespace Libraries

/-- Whether the bytes a contract returned say `SUCCESS`; bytes that do
not decode do not. -/
def returnsSuccess (contractOutput : Bytes) : Bool :=
  match L.abiDecodeStatusCode contractOutput with
  | some returns => returns == .success
  | none => false

end Libraries

/-- The call that evaluates a commitment at a verifier's address. -/
def certCall (verifierAddress : Address) (c : AltDACommitment) :
    ContractInput :=
  -- `Address::default()` is the caller
  ⟨verifierAddress, address 0, CertVerifierCall.build c⟩

/-- All inputs are for the chain and the head of the first. -/
def sharesHead (first : CanoeInput) (canoeInputs : List CanoeInput) : Bool :=
  canoeInputs.all fun canoeInput =>
    canoeInput.l1ChainId == first.l1ChainId
      && canoeInput.l1HeadBlockNumber == first.l1HeadBlockNumber
      && canoeInput.l1HeadBlockHash == first.l1HeadBlockHash

-- ========================================================= the guest

/-- One round of the guest's loop: execute, check, journal. -/
def guestJournal (executor : ClientExecutor η) (rspGenesisHash : B256)
    (l1HeadBlockNumber : Nat) (l1HeadBlockHash : B256)
    (canoeInput : CanoeInput) : Option Journal := do
  let publicVals ← executor.execute
    (certCall canoeInput.verifierAddress canoeInput.altdaCommitment)
  let returns := L.returnsSuccess publicVals.contractOutput
  if publicVals.anchorType ≠ .blockHash then none
  if canoeInput.claimedValidity ≠ returns then none
  if publicVals.anchorHash ≠ l1HeadBlockHash then none
  return {
    blockNumber := l1HeadBlockNumber
    certVerifierAddress := canoeInput.verifierAddress
    input := canoeInput.altdaCommitment.toRlpBytes
    blockhash := publicVals.anchorHash
    output := returns
    l1ChainId := executor.chainId
    chainSpecHash := rspGenesisHash
    chainConfigHash := publicVals.chainConfigHash }

/-- `main` of the client: the committed bytes. -/
def main (stateSketchBytes : Bytes) (canoeInputs : List CanoeInput) :
    Option Bytes := do
  let stateSketch ← L.deserializeSketch stateSketchBytes
  let first ← canoeInputs.head?
  if !sharesHead first canoeInputs then none
  let rspGenesisBytes ← L.serializeGenesis (L.genesis stateSketch)
  let rspGenesisHash := L.keccak256 rspGenesisBytes
  let executor ← L.eth stateSketch
  if first.l1HeadBlockNumber ≠ L.number executor.header then none
  if first.l1ChainId ≠ executor.chainId then none
  let journals ← canoeInputs.mapM
    (guestJournal L executor rspGenesisHash first.l1HeadBlockNumber
      first.l1HeadBlockHash)
  L.serializeJournals journals

-- ====================================================== the verifier

/-- `derive_chain_spec_id`, the fork by its name. -/
def deriveChainSpecId (l1ChainId l1HeadBlockTimestamp l1HeadBlockNumber : Nat) :
    Option String :=
  if l1ChainId = 1 then
    some (L.specByTimestampAndBlockNumber .mainnet l1HeadBlockTimestamp
      l1HeadBlockNumber)
  else if l1ChainId = 11155111 then
    some (L.specByTimestampAndBlockNumber .sepolia l1HeadBlockTimestamp
      l1HeadBlockNumber)
  else if l1ChainId = 17000 then
    some (L.specByTimestampAndBlockNumber .holesky l1HeadBlockTimestamp
      l1HeadBlockNumber)
  else if l1ChainId = 3151908 then
    some (L.specByTimestampAndBlockNumber .kurtosis l1HeadBlockTimestamp
      l1HeadBlockNumber)
  -- unsupported chain id
  else none

/-- `hash_chain_config`: `abi_encode_packed` of a `uint256` and a
string. -/
def hashChainConfig (chainId : Nat) (activeForkName : String) : B256 :=
  L.keccak256 (beBytes 32 chainId ++ activeForkName.toUTF8.data.toList)

/-- `derive_chain_config_hash` -/
def deriveChainConfigHash
    (l1ChainId l1HeadBlockTimestamp l1HeadBlockNumber : Nat) : Option B256 := do
  let specId ←
    deriveChainSpecId L l1ChainId l1HeadBlockTimestamp l1HeadBlockNumber
  return hashChainConfig L l1ChainId specId

/-- `rsp_genesis_hash` -/
def rspGenesisHash (chainId : Nat) : Option B256 := do
  let genesis ← L.genesisTryFrom chainId
  let rspGenesisBytes ← L.serializeGenesis genesis
  return L.keccak256 rspGenesisBytes

/-- The journal a claim should have. -/
def verifierJournal (pair : AltDACommitment × CertValidity) :
    Option Journal := do
  let chainConfigHashDerive ← deriveChainConfigHash L pair.2.l1ChainId
    pair.2.l1HeadBlockTimestamp pair.2.l1HeadBlockNumber
  let rspGenesisHash ← rspGenesisHash L pair.2.l1ChainId
  return {
    certVerifierAddress := pair.2.verifierAddress
    input := pair.1.toRlpBytes
    blockhash := pair.2.l1HeadBlockHash
    output := pair.2.claimedValidity
    l1ChainId := pair.2.l1ChainId
    blockNumber := pair.2.l1HeadBlockNumber
    chainSpecHash := rspGenesisHash
    chainConfigHash := chainConfigHashDerive }

/-- `CanoeSp1CCVerifier::to_journals_bytes` -/
def toJournalsBytes (certValidityPairs : List (AltDACommitment × CertValidity)) :
    Option Bytes := do
  let journals ← certValidityPairs.mapM (verifierJournal L)
  L.serializeJournals journals

/-- `CanoeSp1CCVerifier` inside the zkVM. `verifySp1Proof` is
`verify_sp1_proof` with the pinned verification key: it aborts unless
a proof of the committed digest was handed to the zkVM. -/
def canoeSp1CCVerifier (sha256 : Bytes → Bytes)
    (verifySp1Proof : Bytes → Option Unit) : CanoeVerifier where
  validateCertReceipt pairs _ := do
    if pairs.isEmpty then none
    let journalsBytes ← toJournalsBytes L pairs
    verifySp1Proof (sha256 journalsBytes)
    return .ok ()
  toJournalsBytes := toJournalsBytes L

-- ========================================================== the host

/-- `EvmSketch`: a sketch under construction; `loaded` are the calls
whose state it has fetched. -/
structure EvmSketch (γ η : Type) where
  genesis : γ
  header : η
  loaded : List ContractInput

/-- What the host calls of sp1-cc's host executor, for one L1 node, and
the genesis configurations it carries. -/
structure HostExecutor (γ η ι : Type) where
  /-- `EvmSketch::builder` at a block, with a genesis. -/
  build : Nat → γ → Except String (EvmSketch γ η)
  callRaw : EvmSketch γ η → ContractInput → Except String Bytes
  finalize : EvmSketch γ η → Except String ι
  /-- `bincode::serialize` -/
  serializeSketch : ι → Option Bytes
  /-- `Genesis::Custom` of `HOLESKY_GENESIS` -/
  holeskyGenesis : γ
  /-- `Genesis::Custom` of `KURTOSIS_DEVNET_GENESIS` -/
  kurtosisDevnetGenesis : γ

variable (H : HostExecutor γ η ι)

/-- The genesis of the sketch. -/
def hostGenesis (l1ChainId : Nat) : Option γ :=
  match L.genesisTryFrom l1ChainId with
  | some genesis => some genesis
  | none =>
      if l1ChainId = 17000 then some H.holeskyGenesis
      else if l1ChainId = 3151908 then some H.kurtosisDevnetGenesis
      else none

/-- The loop that populates the state: call, and compare with the
claim. -/
def populate (sketch : EvmSketch γ η) :
    List CanoeInput → Option (Except String (EvmSketch γ η))
  | [] => some (.ok sketch)
  | canoeInput :: canoeInputs =>
      let contractInput :=
        certCall canoeInput.verifierAddress canoeInput.altdaCommitment
      match H.callRaw sketch contractInput with
      | .error e => some (.error e)
      | .ok returnsBytes => do
          let returns ← L.abiDecodeStatusCode returnsBytes
          if (returns == .success) ≠ canoeInput.claimedValidity then none
          populate { sketch with loaded := sketch.loaded ++ [contractInput] }
            canoeInputs

/-- The part of `canoe_proof_stdin` after the sketch is built. -/
def sketchStdin (first : CanoeInput) (canoeInputs : List CanoeInput)
    (sketch : EvmSketch γ η) :
    Option (Except String (Bytes × List CanoeInput)) := do
  if first.l1HeadBlockHash ≠ L.hashSlow sketch.header then none
  match ← populate L H sketch canoeInputs with
  | .error e => return .error e
  | .ok sketch =>
      match H.finalize sketch with
      | .error e => return .error e
      | .ok evmStateSketch =>
          let inputBytes ← H.serializeSketch evmStateSketch
          return .ok (inputBytes, canoeInputs)

/-- `canoe_proof_stdin`: what the guest reads. -/
def canoeProofStdin (canoeInputs : List CanoeInput) :
    Option (Except String (Bytes × List CanoeInput)) := do
  let first ← canoeInputs.head?
  if !sharesHead first canoeInputs then none
  let genesis ← hostGenesis L H first.l1ChainId
  match H.build first.l1HeadBlockNumber genesis with
  | .error e => return .error e
  | .ok sketch => sketchStdin L H first canoeInputs sketch

end Hokulea.Sp1CC
