/-
`canoe/steel/verifier` and `canoe/steel/apps`: the two ends of a steel
proof that are not the guest.

- `toJournalsBytes` of the verifier rebuilds the journals from the claims
  of a witness. Steel's own schedule of forks may lag behind that of
  reth; a fork it names is let through when it is the derived one or one
  of an allowed list;
- `validateCertReceipt` compares them with what was proven: inside the
  zkVM through `env::verify`, elsewhere against a receipt;
- `getSteelProof` of the host preflights the calls and runs the prover.

`Risc0` and `Host` hold what these call of risc0 and steel, over receipts
`ρ` and preflight environments `υ`. The image id of the guest is pinned,
so it does not appear.
-/
import Hokulea.Canoe.Steel

namespace Hokulea.Steel

open Bytes
open Sp1CC (sharesHead deriveChainSpecId)

variable {γ η κ ι θ ρ υ : Type}

-- ========================================================= the verifier

/-- What the verifier calls of risc0, for the pinned image id. -/
structure Risc0 (ρ : Type) where
  /-- `env::verify`, inside the zkVM. -/
  envVerify : Bytes → Except String Unit
  /-- `serde_json::from_slice::<Receipt>` -/
  fromSlice : Bytes → Except String ρ
  /-- `Receipt::verify` -/
  verify : ρ → Except String Unit
  /-- `receipt.journal.bytes` -/
  journal : ρ → Bytes

/-- `target_os`: the zkVM, or any other. -/
inductive TargetOs where
  | zkvm
  | other
  deriving DecidableEq, Repr

/-- `get_allowed_steel_spec_id` -/
def getAllowedSteelSpecId (chainId : Nat) : Option (List String) :=
  if chainId = 1 then some ["Prague", "Osaka"]
  else if chainId = 11155111 then some ["Prague", "Osaka"]
  else if chainId = 17000 then some ["Prague", "Osaka"]
  else if chainId = 3151908 then some ["Prague", "Osaka"]
  -- unsupported chain id
  else none

section Verifier

variable (S : Sp1CC.Libraries γ η κ) (L : Libraries ι θ)

/-- `get_steel_active_fork` -/
def getSteelActiveFork (chainId timestamp blockNumber : Nat) :
    Option String := do
  let spec ← chainSpec chainId
  L.activeFork spec blockNumber timestamp

/-- The assertion on a steel fork that is not the derived one. -/
def allowFork (chainId : Nat) (steelActiveFork derivedActiveFork : String) :
    Option Unit :=
  if steelActiveFork ≠ derivedActiveFork then do
    let allowed ← getAllowedSteelSpecId chainId
    if allowed.contains steelActiveFork then some () else none
  else some ()

/-- The journal a claim should have. -/
def verifierJournal (pair : AltDACommitment × CertValidity) :
    Option Journal := do
  let steelActiveFork ← getSteelActiveFork L pair.2.l1ChainId
    pair.2.l1HeadBlockTimestamp pair.2.l1HeadBlockNumber
  let derivedActiveFork ← deriveChainSpecId S pair.2.l1ChainId
    pair.2.l1HeadBlockTimestamp pair.2.l1HeadBlockNumber
  allowFork pair.2.l1ChainId steelActiveFork derivedActiveFork
  return {
    blockNumber := pair.2.l1HeadBlockNumber
    certVerifierAddress := pair.2.verifierAddress
    input := pair.1.toRlpBytes
    blockhash := pair.2.l1HeadBlockHash
    output := pair.2.claimedValidity
    l1ChainId := pair.2.l1ChainId
    chainConfigHash := L.keccak256 steelActiveFork.toUTF8.data.toList
    chainSpecHash := b256 0 }

/-- `to_journals_bytes` -/
def toJournalsBytes (certValidityPairs : List (AltDACommitment × CertValidity)) :
    Option Bytes := do
  let journals ← certValidityPairs.mapM (verifierJournal S L)
  L.serializeJournals journals

variable (R : Risc0 ρ) (targetOs : TargetOs)

/-- The part of `validate_cert_receipt` after the journals are rebuilt. -/
def checkReceipt (journalsBytes : Bytes) (canoeProofBytes : Option Bytes) :
    Except HokuleaCanoeVerificationError Unit :=
  match targetOs with
  | .zkvm =>
      match R.envVerify journalsBytes with
      | .error e => .error (.invalidProofAndJournal e)
      | .ok () => .ok ()
  | .other =>
      match canoeProofBytes with
      | none => .error .missingProof
      | some bytes =>
          match R.fromSlice bytes with
          | .error e => .error (.unableToDeserializeReceipt e)
          | .ok canoeReceipt =>
              match R.verify canoeReceipt with
              | .error e => .error (.invalidProofAndJournal e)
              | .ok () =>
                  if R.journal canoeReceipt ≠ journalsBytes then
                    .error .inconsistentPublicJournal
                  else .ok ()

/-- `validate_cert_receipt` -/
def validateCertReceipt
    (certValidityPairs : List (AltDACommitment × CertValidity))
    (canoeProofBytes : Option Bytes) :
    Option (Except HokuleaCanoeVerificationError Unit) := do
  let journalsBytes ← toJournalsBytes S L certValidityPairs
  return checkReceipt R targetOs journalsBytes canoeProofBytes

/-- `CanoeSteelVerifierForDevnetTesting` -/
def canoeSteelVerifierForDevnetTesting : CanoeVerifier where
  validateCertReceipt := validateCertReceipt S L R targetOs
  toJournalsBytes := toJournalsBytes S L

/-- `CanoeSteelVerifier`: it panics on a claim for the Kurtosis devnet. -/
def canoeSteelVerifier : CanoeVerifier where
  validateCertReceipt pairs proof :=
    if pairs.any fun (_, certValidity) => certValidity.l1ChainId == 3151908
    then none
    else validateCertReceipt S L R targetOs pairs proof
  toJournalsBytes := toJournalsBytes S L

end Verifier

-- ============================================================= the host

/-- What the host calls of steel and risc0, for one L1 node. -/
structure Host (υ ι ρ : Type) where
  /-- `EthEvmEnv::builder` at a block. -/
  build : EthChainSpec → Nat → Except String υ
  /-- `env.header().seal()` -/
  headerSeal : υ → B256
  /-- `Contract::preflight` and its call: the `uint8`, and the
  environment that has loaded the state for it. -/
  preflight : υ → Address → CertVerifierCall → Except String (Nat × υ)
  /-- `into_input` -/
  intoInput : υ → Except String ι
  /-- `prove_with_ctx` on the guest. -/
  prove : ι → List CanoeInput → Except String ρ

section Host

variable (H : Host υ ι ρ)

/-- The chain specification of the host. -/
def hostChainSpec (l1ChainId : Nat) : EthChainSpec :=
  if l1ChainId = 1 then .mainnet
  else if l1ChainId = 11155111 then .sepolia
  else if l1ChainId = 17000 then .holesky
  else .single l1ChainId

/-- The loop that preflights the calls and compares with the claims. -/
def preflightInputs (env : υ) : List CanoeInput → Option (Except String υ)
  | [] => some (.ok env)
  | canoeInput :: canoeInputs =>
      match H.preflight env canoeInput.verifierAddress
        (CertVerifierCall.build canoeInput.altdaCommitment) with
      | .error e => some (.error e)
      | .ok (status, env) =>
          if canoeInput.claimedValidity
            ≠ (status == StatusCode.success.asU8) then none
          else preflightInputs env canoeInputs

/-- The part of `get_steel_proof` after the environment is built. -/
def proveInputs (first : CanoeInput) (canoeInputs : List CanoeInput)
    (env : υ) : Option (Except String ρ) := do
  if H.headerSeal env ≠ first.l1HeadBlockHash then none
  match ← preflightInputs H env canoeInputs with
  | .error e => return .error e
  | .ok env =>
      match H.intoInput env with
      | .error e => return .error e
      | .ok evmInput => return H.prove evmInput canoeInputs

/-- `get_steel_proof` -/
def getSteelProof (canoeInputs : List CanoeInput) :
    Option (Except String ρ) := do
  let first ← canoeInputs.head?
  if !sharesHead first canoeInputs then none
  match H.build (hostChainSpec first.l1ChainId) first.l1HeadBlockNumber with
  | .error e => return .error e
  | .ok env => proveInputs H first canoeInputs env

/-- `create_certs_validity_proof`: without inputs there is no proof. -/
def createCertsValidityProof (canoeInputs : List CanoeInput) :
    Option (Option (Except String ρ)) := do
  if canoeInputs.isEmpty then return none
  let proof ← getSteelProof H canoeInputs
  return some proof

end Host

end Hokulea.Steel
