/-
What a canoe proof is asked about: `canoe/bindings` (the contract's
types and the committed journal), `canoe/provider` (`CanoeInput`,
`CertVerifierCall`), the `to_sol` conversions of `crates/eigenda-cert`
and the prover's `from_eigenda_preimage_to_canoe_inputs`.
-/
import Hokulea.Lib.Abi
import Hokulea.Canoe.Verifier

namespace Hokulea

open Bytes

-- ================================================== canoe/bindings

/-- `Journal`, what a canoe proof commits to for one certificate. -/
structure Journal where
  blockNumber : Nat
  blockhash : B256
  certVerifierAddress : Address
  input : Bytes
  output : Bool
  l1ChainId : Nat
  chainConfigHash : B256
  chainSpecHash : B256
  deriving DecidableEq

/-- `StatusCode`; `invalid` is the variant the `sol!` macro adds for a
byte that names no status. -/
inductive StatusCode where
  | nullError
  | success
  | unusedHistoricalInvalidInclusionProof
  | unusedHistoricalSecurityAssumptionsNotMet
  | unusedHistoricalBlobQuorumsNotSubset
  | unusedHistoricalRequiredQuorumsNotSubset
  | invalidCert
  | internalError
  | invalid
  deriving DecidableEq, Repr

/-- `StatusCode as u8` -/
def StatusCode.asU8 : StatusCode → Nat
  | .nullError => 0
  | .success => 1
  | .unusedHistoricalInvalidInclusionProof => 2
  | .unusedHistoricalSecurityAssumptionsNotMet => 3
  | .unusedHistoricalBlobQuorumsNotSubset => 4
  | .unusedHistoricalRequiredQuorumsNotSubset => 5
  | .invalidCert => 6
  | .internalError => 7
  | .invalid => 255

-- ======================================================== to_sol

open Abi (Value)

/-- `uint256` -/
def U256.toSol (x : U256) : Value := .word x

/-- `uint32` -/
def U32.toSol (x : U32) : Value := .word (x.setWidth 256)

/-- `uint16` -/
def U16.toSol (x : U16) : Value := .word (x.setWidth 256)

/-- `bytes32` -/
def B256.toSol (x : B256) : Value := .word (BitVec.ofNat 256 (beNat x.val))

/-- `uint32[]` -/
def u32sToSol (xs : List U32) : Value := .array (xs.map U32.toSol)

def G1Point.toSol (p : G1Point) : Value :=
  .tuple [U256.toSol p.x, U256.toSol p.y]

/-- `uint256[2] X; uint256[2] Y` -/
def G2Point.toSol (p : G2Point) : Value :=
  .tuple [.tuple [U256.toSol p.x.c0, U256.toSol p.x.c1],
    .tuple [U256.toSol p.y.c0, U256.toSol p.y.c1]]

def BlobCommitment.toSol (b : BlobCommitment) : Value :=
  .tuple [b.commitment.toSol, b.lengthCommitment.toSol, b.lengthProof.toSol,
    U32.toSol b.length]

def BlobHeaderV2.toSol (b : BlobHeaderV2) : Value :=
  .tuple [U16.toSol b.version, .bytes b.quorumNumbers, b.commitment.toSol,
    B256.toSol b.paymentHeaderHash]

def BlobCertificate.toSol (b : BlobCertificate) : Value :=
  .tuple [b.blobHeader.toSol, .bytes b.signature, u32sToSol b.relayKeys]

def BatchHeaderV2.toSol (b : BatchHeaderV2) : Value :=
  .tuple [B256.toSol b.batchRoot, U32.toSol b.referenceBlockNumber]

def BlobInclusionInfo.toSol (b : BlobInclusionInfo) : Value :=
  .tuple [b.blobCertificate.toSol, U32.toSol b.blobIndex,
    .bytes b.inclusionProof]

def NonSignerStakesAndSignature.toSol (n : NonSignerStakesAndSignature) :
    Value :=
  .tuple [u32sToSol n.nonSignerQuorumBitmapIndices,
    .array (n.nonSignerPubkeys.map G1Point.toSol),
    .array (n.quorumApks.map G1Point.toSol),
    n.apkG2.toSol, n.sigma.toSol,
    u32sToSol n.quorumApkIndices, u32sToSol n.totalStakeIndices,
    .array (n.nonSignerStakeIndices.map u32sToSol)]

def EigenDACertV3.toSol (c : EigenDACertV3) : Value :=
  .tuple [c.batchHeaderV2.toSol, c.blobInclusionInfo.toSol,
    c.nonsignerStakeAndSignature.toSol, .bytes c.signedQuorumNumbers]

def EigenDACertV4.toSol (c : EigenDACertV4) : Value :=
  .tuple [c.batchHeaderV2.toSol, c.blobInclusionInfo.toSol,
    c.nonsignerStakeAndSignature.toSol, .bytes c.signedQuorumNumbers,
    U16.toSol c.offchainDerivationVersion]

-- ================================================== canoe/provider

/-- `CertVerifierCall`: its one variant, a `checkDACertCall`. -/
structure CertVerifierCall where
  abiEncodedCert : Bytes
  deriving DecidableEq

/-- `CertVerifierCall::build`: a V2 certificate is called as V3. -/
def CertVerifierCall.build (c : AltDACommitment) : CertVerifierCall :=
  match c.versionedCert with
  | .v2 v2Cert =>
      let v3Cert : EigenDACertV3 :=
        { batchHeaderV2 := v2Cert.batchHeaderV2
          blobInclusionInfo := v2Cert.blobInclusionInfo
          nonsignerStakeAndSignature := v2Cert.nonsignerStakeAndSignature
          signedQuorumNumbers := v2Cert.signedQuorumNumbers }
      ⟨v3Cert.toSol.abiEncode⟩
  | .v3 cert => ⟨cert.toSol.abiEncode⟩
  | .v4 cert => ⟨cert.toSol.abiEncode⟩

/-- `CanoeInput` -/
structure CanoeInput where
  altdaCommitment : AltDACommitment
  claimedValidity : Bool
  l1HeadBlockHash : B256
  l1HeadBlockNumber : Nat
  l1ChainId : Nat
  verifierAddress : Address
  deriving DecidableEq

-- =================================== from preimage to canoe inputs

/-- The canoe input of one validity. -/
def canoeInput (A : CanoeVerifierAddressFetcher) (l1ChainId : Nat)
    (l1HeadBlockHash : B256) (l1HeadBlockNumber : Nat)
    (entry : AltDACommitment × Bool) :
    Except CanoeVerifierAddressFetcherError CanoeInput :=
  match A.fetchAddress l1ChainId entry.1.versionedCert with
  | .error e => .error e
  | .ok verifierAddress => .ok
      { altdaCommitment := entry.1
        claimedValidity := entry.2
        l1HeadBlockHash
        l1HeadBlockNumber
        l1ChainId
        verifierAddress }

/-- `from_eigenda_preimage_to_canoe_inputs` -/
def fromEigendaPreimageToCanoeInputs (A : CanoeVerifierAddressFetcher)
    (l1ChainId : Nat) (l1HeadBlockHash : B256) (l1HeadBlockNumber : Nat) :
    List (AltDACommitment × Bool) →
      Except CanoeVerifierAddressFetcherError (List CanoeInput)
  | [] => .ok []
  | entry :: validities =>
      match canoeInput A l1ChainId l1HeadBlockHash l1HeadBlockNumber entry with
      | .error e => .error e
      | .ok input =>
          match fromEigendaPreimageToCanoeInputs A l1ChainId l1HeadBlockHash
            l1HeadBlockNumber validities with
          | .error e => .error e
          | .ok inputs => .ok (input :: inputs)

end Hokulea
