/-
The altda commitment of `altda_commitment.rs`: two header bytes, a
version byte and the certificate's RLP. Parsing (`tryFrom`), the bytes
form used for the digest, the hint, the proxy query and the canoe
journal (`toRlpBytes`), the preimage address template, and the
accessors the derivation reads.

`keccak256` is a parameter: nothing here depends on which hash it is.
-/
import Hokulea.EigendaCert.Types

namespace Hokulea

open Bytes Rlp

/-- `AltDACommitmentParseError` -/
inductive AltDACommitmentParseError where
  | insufficientData
  | unsupportedCommitmentType
  | unsupportedDaLayerType
  | unsupportedCertVersionType (version : UInt8)
  | invalidRlpCert (e : Rlp.Error)
  deriving DecidableEq, Repr

/-- The text of a parse error. -/
def AltDACommitmentParseError.toString : AltDACommitmentParseError → String
  | insufficientData => "Insufficient altda commitment data"
  | unsupportedCommitmentType => "Unsupported commitment type"
  | unsupportedDaLayerType => "Unsupported da layer type"
  | unsupportedCertVersionType version =>
      "Unsupported cert version type " ++ Nat.repr version.toNat
  | invalidRlpCert e => "Unable to decode rlp cert: " ++ e.toString

/-- `AltDACommitment` -/
structure AltDACommitment where
  commitmentType : UInt8
  daLayerByte : UInt8
  versionedCert : EigenDAVersionedCert
  deriving DecidableEq, Repr

namespace AltDACommitment

/-- A certificate's RLP read with `c`; what follows the item is
dropped, as the slice it was read from is. -/
def decodeCert {α : Type} (c : Codec α) (toVersioned : α → EigenDAVersionedCert)
    (buf : Bytes) :
    Except AltDACommitmentParseError EigenDAVersionedCert :=
  match c.decode buf with
  | .error e => .error (.invalidRlpCert e)
  | .ok (cert, _) => .ok (toVersioned cert)

/-- `TryFrom<&[u8]> for AltDACommitment` -/
def tryFrom (value : Bytes) :
    Except AltDACommitmentParseError AltDACommitment :=
  match value with
  | commitmentType :: daLayerByte :: version :: b :: rest =>
      if commitmentType ≠ 1 then .error .unsupportedCommitmentType
      else if daLayerByte ≠ 0 then .error .unsupportedDaLayerType
      else
        let versionedCert :=
          if version = 1 then
            decodeCert EigenDACertV2.rlp .v2 (b :: rest)
          else if version = 2 then
            decodeCert EigenDACertV3.rlp .v3 (b :: rest)
          else if version = 3 then
            decodeCert EigenDACertV4.rlp .v4 (b :: rest)
          else .error (.unsupportedCertVersionType version)
        match versionedCert with
        | .error e => .error e
        | .ok cert => .ok ⟨commitmentType, daLayerByte, cert⟩
  -- fewer than four bytes
  | _ => .error .insufficientData

/-- `to_rlp_bytes` -/
def toRlpBytes (c : AltDACommitment) : Bytes :=
  let (version, certRlpBytes) : UInt8 × Bytes :=
    match c.versionedCert with
    | .v2 cert => (1, EigenDACertV2.rlp.encode cert)
    | .v3 cert => (2, EigenDACertV3.rlp.encode cert)
    | .v4 cert => (3, EigenDACertV4.rlp.encode cert)
  [c.commitmentType, c.daLayerByte, version] ++ certRlpBytes

/-- The blob commitment inside the certificate, whatever its
version. -/
def blobCommitment (c : AltDACommitment) : BlobCommitment :=
  match c.versionedCert with
  | .v2 cert => cert.blobInclusionInfo.blobCertificate.blobHeader.commitment
  | .v3 cert => cert.blobInclusionInfo.blobCertificate.blobHeader.commitment
  | .v4 cert => cert.blobInclusionInfo.blobCertificate.blobHeader.commitment

/-- `get_num_field_element` -/
def getNumFieldElement (c : AltDACommitment) : Nat :=
  c.blobCommitment.length.toNat

/-- `get_rbn` -/
def getRbn (c : AltDACommitment) : Nat :=
  match c.versionedCert with
  | .v2 cert => cert.batchHeaderV2.referenceBlockNumber.toNat
  | .v3 cert => cert.batchHeaderV2.referenceBlockNumber.toNat
  | .v4 cert => cert.batchHeaderV2.referenceBlockNumber.toNat

/-- `get_kzg_commitment` -/
def getKzgCommitment (c : AltDACommitment) : G1Point :=
  ⟨c.blobCommitment.commitment.x, c.blobCommitment.commitment.y⟩

section Digest

variable (keccak256 : Bytes → B256)

/-- `to_digest` -/
def toDigest (c : AltDACommitment) : B256 :=
  keccak256 c.toRlpBytes

/-- `digest_template`: the digest in the first 32 of 80 bytes. -/
def digestTemplate (c : AltDACommitment) : Bytes :=
  (c.toDigest keccak256).val ++ List.replicate 48 0

@[simp] theorem length_digestTemplate (c : AltDACommitment) :
    (c.digestTemplate keccak256).length = 80 := by
  simp [digestTemplate, (c.toDigest keccak256).property]

end Digest

/-- The field-element count is a `u32`. -/
theorem getNumFieldElement_lt (c : AltDACommitment) :
    c.getNumFieldElement < 2 ^ 32 :=
  c.blobCommitment.length.isLt

/-- The reference block number is a `u32`, so adding a recency window
to it cannot overflow a `u64`. -/
theorem getRbn_lt (c : AltDACommitment) : c.getRbn < 2 ^ 32 := by
  unfold getRbn
  split <;> exact BitVec.isLt _

/-- A V4 commitment whose every field is zero or empty, its blob index
and its field-element count excepted. -/
def zeroCommitment (blobIndex length : U32) : AltDACommitment :=
  let zero32 : B256 := ⟨List.replicate 32 0, by simp⟩
  let g1 : G1Point := ⟨0, 0⟩
  let g2 : G2Point := ⟨⟨0, 0⟩, ⟨0, 0⟩⟩
  ⟨1, 0, .v4
    { batchHeaderV2 := ⟨zero32, 0⟩
      blobInclusionInfo :=
        ⟨⟨⟨0, [], ⟨g1, g2, g2, length⟩, zero32⟩, [], []⟩, blobIndex, []⟩
      nonsignerStakeAndSignature := ⟨[], [], [], g2, g1, [], [], []⟩
      signedQuorumNumbers := []
      offchainDerivationVersion := 0 }⟩

end AltDACommitment

end Hokulea
