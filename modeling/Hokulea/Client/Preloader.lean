/-
The programs around the two runs of a derivation: `example/preloader`,
`crates/zkvm-verification`, `create_kzg_proofs_for_eigenda_preimage` of
`crates/compute-proof` and `from_boot_info_to_canoe_proof` of
`crates/witgen`.

The first run records a preimage, KZG and canoe proofs make a witness of
it, and the second run derives from the witness inside the zkVM. A program
is `none` when it panics.
-/
import Hokulea.Canoe.Provider
import Hokulea.Client.FaultProof
import Hokulea.Kzg.ComputeProof
import Hokulea.Proof.Preloaded
import Hokulea.Witgen.Recorder

namespace Hokulea

open Bytes

/-- The errors `run_witgen_and_zk_verification` can return. -/
inductive PreloaderError where
  | faultProof (e : FaultProofProgramError)
  | bootInfo (e : String)
  | oracle (e : String)
  | decodeHeader
  | address (e : CanoeVerifierAddressFetcherError)
  | canoe (e : String)
  | witness (e : EigenDAWitnessError)
  deriving DecidableEq

/-- `CanoeProvider::create_certs_validity_proof`, over receipts `ω`. -/
abbrev CanoeProvider (ω : Type) :=
  List CanoeInput → Option (Option (Except String ω))

/-- `CanoeNoOpProvider`: its receipt is the unit. -/
def canoeNoOpProvider : CanoeProvider Unit :=
  fun _ => some (some (.ok ()))

namespace Preloader

variable {σ π ε ω : Type}

-- ====================================================== the KZG proofs

section Kzg

variable {κ β ρ ς ε : Type} (K : KzgProver κ β ρ ς ε) (srs : ς)

/-- One proof: the loop body of `create_kzg_proofs_for_eigenda_preimage`. -/
def createKzgProof (encodedPayload : EncodedPayload) : Option B512 := do
  match ← (K.computeKzgProofWithSrs encodedPayload.encodedPayload srs).run with
  | .error _ => none
  | .ok kzgProof =>
      -- `FixedBytes::from_slice`
      if h : kzgProof.length = 64 then return ⟨kzgProof, h⟩ else none

/-- `create_kzg_proofs_for_eigenda_preimage` -/
def createKzgProofsForEigendaPreimage (preimage : EigenDAPreimage) :
    Option (List B512) :=
  preimage.encodedPayloads.mapM fun (_, encodedPayload) =>
    createKzgProof K srs encodedPayload

end Kzg

-- ======================================================== both programs

section Programs

variable (K : Kona σ) (P : EigenDAPreimageProvider π ε) (n : Nat)
  (A : CanoeVerifierAddressFetcher)

/-- `run_preimage_client` -/
def runPreimageClient (p : π) :
    Option (Except FaultProofProgramError EigenDAPreimage) := do
  let (r, s) ← FpClient.runFpClient K
    (OracleEigenDAPreimageProviderWithPreimage.recorder P) n ⟨p, {}⟩
  return r.map fun () => s.preimage

/-- `from_boot_info_to_canoe_proof` -/
def fromBootInfoToCanoeProof (boot : BootInfo) (preimage : EigenDAPreimage)
    (canoeProvider : CanoeProvider ω) :
    Option (Except PreloaderError (Option ω)) :=
  match K.getHeaderRlp boot.l1Head with
  | .error e => some (.error (.oracle e))
  | .ok headerRlp =>
      match K.decodeHeader headerRlp with
      | none => some (.error .decodeHeader)
      | some l1HeadHeader =>
          match fromEigendaPreimageToCanoeInputs A boot.l1ChainId boot.l1Head
            l1HeadHeader.number preimage.validities with
          | .error e => some (.error (.address e))
          | .ok canoeInputs => do
              match ← canoeProvider canoeInputs with
              | none => return .ok none
              | some (.error e) => return .error (.canoe e)
              | some (.ok proof) => return .ok (some proof)

/-- `prepare_witness` past its first run, given the KZG proofs. -/
def proveWitness (canoeProvider : CanoeProvider ω) (toVec : ω → Option Bytes)
    (boot : BootInfo) (preimage : EigenDAPreimage) (kzgProofs : List B512) :
    Option (Except PreloaderError EigenDAWitness) := do
  match ← fromBootInfoToCanoeProof K A boot preimage canoeProvider with
  | .error e => return .error e
  | .ok none =>
      return (EigenDAWitness.fromPreimage preimage kzgProofs none).mapError
        .witness
  | .ok (some proof) =>
      let canoeProofBytes ← toVec proof
      return (EigenDAWitness.fromPreimage preimage kzgProofs
        (some canoeProofBytes)).mapError .witness

/-- `prepare_witness`; `toVec` is `serde_json::to_vec`. -/
def prepareWitness
    (createKzgProofs : EigenDAPreimage → Option (List B512))
    (canoeProvider : CanoeProvider ω) (toVec : ω → Option Bytes) (p : π) :
    Option (Except PreloaderError EigenDAWitness) := do
  match ← runPreimageClient K P n p with
  | .error e => return .error (.faultProof e)
  | .ok preimage =>
      match K.bootInfo with
      | .error e => return .error (.bootInfo e)
      | .ok boot =>
          let kzgProofs ← createKzgProofs preimage
          proveWitness K A canoeProvider toVec boot preimage kzgProofs

variable (V : CanoeVerifier) (batchVerify : BatchVerify)

/-- `eigenda_witness_to_preloaded_provider` -/
def eigendaWitnessToPreloadedProvider (boot : BootInfo) (w : EigenDAWitness) :
    Option PreloadedEigenDAPreimageProvider := do
  let header ← (K.headerByHash boot.l1Head).toOption
  PreloadedEigenDAPreimageProvider.fromWitness w
    ⟨boot.l1Head, header.number, header.timestamp, boot.l1ChainId⟩ V A
    batchVerify

/-- `run_within_zkvm_assume_oracle_verified` -/
def runWithinZkvmAssumeOracleVerified (w : EigenDAWitness) :
    Option (Except PreloaderError Unit) :=
  match K.bootInfo with
  | .error e => some (.error (.bootInfo e))
  | .ok boot => do
      let preloaded ← eigendaWitnessToPreloadedProvider K A V batchVerify boot w
      let (r, _) ← FpClient.runFpClient K
        PreloadedEigenDAPreimageProvider.provider n preloaded
      return r.mapError .faultProof

/-- `run_witgen_and_zk_verification` -/
def runWitgenAndZkVerification
    (createKzgProofs : EigenDAPreimage → Option (List B512))
    (canoeProvider : CanoeProvider ω) (toVec : ω → Option Bytes) (p : π) :
    Option (Except PreloaderError Unit) := do
  match ← prepareWitness K P n A createKzgProofs canoeProvider toVec p with
  | .error e => return .error e
  | .ok wit =>
      runWithinZkvmAssumeOracleVerified K n A V batchVerify wit

end Programs

end Preloader

end Hokulea
