/-
`batch.rs`: the batched KZG verification.

The challenge that weighs the items is hashed from the transcript of
the whole batch; `compute_r_powers` writes it into a buffer sized in
advance. The pairing equation itself, `verifyEquation`, is the part of
`verify_kzg_proof_batch` after the powers are computed, a function of
the powers.
-/
import Hokulea.Kzg.Helpers
import Hokulea.Proof.Preloaded

namespace Hokulea

open Bytes

/-- `g1_point_to_affine` -/
def g1PointToAffine (commitment : G1Point) : Except KzgError AffineG1 := do
  let x ← (Fq.fromBeBytesModOrder (beBytes 32 commitment.x.toNat)).mapError
    fun _ => KzgError.serializationError
  let y ← (Fq.fromBeBytesModOrder (beBytes 32 commitment.y.toNat)).mapError
    fun _ => KzgError.serializationError
  (AffineG1.new x y).mapError
    fun _ => KzgError.notOnCurveError "commitment not on curve"

/-- `proof_bytes_to_affine` -/
def proofBytesToAffine (proof : B512) : Except KzgError AffineG1 := do
  let x ← (Fq.fromBeBytesModOrder (proof.val.take 32)).mapError
    fun _ => KzgError.serializationError
  let y ← (Fq.fromBeBytesModOrder (proof.val.drop 32)).mapError
    fun _ => KzgError.serializationError
  (AffineG1.new x y).mapError
    fun _ => KzgError.notOnCurveError "proof not on curve"

/-- The four writes of one iteration of `compute_r_powers`. -/
def writeItem (commitment : AffineG1) (z y : Fr) (proof : AffineG1)
    (buf : Bytes) (offset : Nat) : Option (Bytes × Nat) := do
  let buf ← writeAt buf offset (serializeG1Compressed commitment)
  let offset := offset + BYTES_PER_FIELD_ELEMENT
  let buf ← writeAt buf offset (serializeFrLe z)
  let offset := offset + BYTES_PER_FIELD_ELEMENT
  let buf ← writeAt buf offset (serializeFrLe y)
  let offset := offset + BYTES_PER_FIELD_ELEMENT
  let buf ← writeAt buf offset (serializeG1Compressed proof)
  let offset := offset + BYTES_PER_FIELD_ELEMENT
  return (buf, offset)

/-- The loop of `compute_r_powers` from the item `i` on, `count` items
left; the four lists are indexed. -/
def writeItems (commitments : List AffineG1) (zs ys : List Fr)
    (proofs : List AffineG1) :
    Nat → Nat → Bytes → Nat → Option (Bytes × Nat)
  | 0, _, buf, offset => some (buf, offset)
  | count + 1, i, buf, offset => do
      let (buf, offset) ← writeItem (← commitments[i]?) (← zs[i]?) (← ys[i]?)
        (← proofs[i]?) buf offset
      writeItems commitments zs ys proofs count (i + 1) buf offset

/-- The length slots: one chunk of the target slice for each length, as
far as both go. -/
def writeLengths : Nat → List Nat → Nat → Bytes → Option Bytes
  | 0, _, _, buf => some buf
  | _, [], _, buf => some buf
  | slots + 1, length :: lengths, offset, buf => do
      let buf ← writeAt buf offset (beBytes 8 length)
      writeLengths slots lengths (offset + 8) buf

/-- `compute_r_powers` -/
def computeRPowers (sha256 : Bytes → B256) (commitments : List AffineG1)
    (zs ys : List Fr) (proofs : List AffineG1) (blobLengths : List Nat) :
    Outcome (List Fr) := do
  let n := commitments.length
  let initialDataLength := 40
  let inputSize := initialDataLength
    + n * (BYTES_PER_FIELD_ELEMENT + 2 * BYTES_PER_FIELD_ELEMENT
      + BYTES_PER_FIELD_ELEMENT + 8)
  let buf := List.replicate inputSize 0
  let buf ← writeAt buf 0 RANDOM_CHALLENGE_KZG_BATCH_DOMAIN
  let buf ← writeAt buf 32 (usizeToBeBytes n)
  let buf ← writeLengths n blobLengths 24 buf
  let (buf, offset) ← writeItems commitments zs ys proofs n 0 buf (40 + n * 8)
  if offset ≠ inputSize then
    throw .invalidInputLength
  let r ← hashToFieldElement sha256 buf
  return computePowers r n

/-- `Cᵢ - yᵢ·G` in affine form, the sentinel for the identity. -/
def cMinusY (commitment : AffineG1) (y : Fr) : Option AffineG1 :=
  let ysEncrypted : G1 := y • G1.one
  let diff := commitment.toG1 - ysEncrypted
  if diff = 0 then some AffineG1.default else AffineG1.fromJacobian diff

/-- The polynomial of one blob. -/
def blobPolynomial (blob : Bytes) : Except KzgError PolynomialEvalForm := do
  PolynomialEvalForm.new (← toFrArrayCanonical blob)

section Pairing

variable {G2 Gt : Type*} [AddCommGroup G2] [Module Fr G2] [CommGroup Gt]
  [DecidableEq Gt]

/-- `verify_kzg_proof_batch` once the powers are computed: the three
sums and the pairing check. -/
def verifyEquation (E : Pairing G2 Gt) (commitments : List AffineG1)
    (zs ys : List Fr) (proofs : List AffineG1) (rPowers : List Fr) :
    Outcome Bool := do
  let proofLincomb ← g1Lincomb proofs rPowers
  let diffs ← (commitments.zip ys).mapM fun (c, y) => cMinusY c y
  let rTimesZ := List.zipWith (fun r z => r * z) rPowers zs
  let proofZLincomb ← g1Lincomb proofs rTimesZ
  let cMinusYLincomb ← g1Lincomb diffs rPowers
  let rhsG1 := cMinusYLincomb + proofZLincomb
  return pairingsVerify E proofLincomb E.tau rhsG1 E.one

/-- `verify_kzg_proof_batch` -/
def verifyKzgProofBatch (sha256 : Bytes → B256) (E : Pairing G2 Gt)
    (commitments : List AffineG1) (zs ys : List Fr) (proofs : List AffineG1)
    (blobLengths : List Nat) : Outcome Bool := do
  if !(commitments.length = zs.length && zs.length = ys.length
      && ys.length = proofs.length) then
    throw (.genericError "length's of the input are not the same")
  commitments.forM fun c => validateG1Point c.toG1
  proofs.forM fun p => validateG1Point p.toG1
  let rPowers ← computeRPowers sha256 commitments zs ys proofs blobLengths
  verifyEquation E commitments zs ys proofs rPowers

/-- `verify_blob_kzg_proof_batch` -/
def verifyBlobKzgProofBatch (sha256 : Bytes → B256) (E : Pairing G2 Gt)
    (blobs : List Bytes) (commitments : List G1Point) (proofs : List B512) :
    Outcome Bool := do
  let polys ← blobs.mapM fun b => blobPolynomial b
  let commitmentsAff ← commitments.mapM fun c => g1PointToAffine c
  let proofsAff ← proofs.mapM fun p => proofBytesToAffine p
  if commitmentsAff.length ≠ polys.length
      || proofsAff.length ≠ polys.length then
    throw (.genericError "length's of the input are not the same")
  if polys.isEmpty then
    return true
  let (zs, ys) ← computeChallengesAndEvaluatePolynomial sha256 polys
    commitmentsAff
  let blobLengths := polys.map fun poly => poly.len
  verifyKzgProofBatch sha256 E commitmentsAff zs ys proofsAff blobLengths

/-- `batch_verify`, the substrate-bn backend. -/
def batchVerify (sha256 : Bytes → B256) (E : Pairing G2 Gt) : BatchVerify :=
  fun blobs commitments proofs =>
    (verifyBlobKzgProofBatch sha256 E blobs commitments proofs).run.map
      fun r => r.toOption.getD false

end Pairing

-- ===================================================== the other backend

/-- The reference crate that the arkworks backend calls. -/
structure ArkVerifier (β ε : Type) where
  /-- `Blob::new` -/
  blobNew : Bytes → Except ε β
  /-- `rust_kzg_bn254_verifier::batch::verify_blob_kzg_proof_batch` -/
  verifyBlobKzgProofBatch :
    List β → List AffineG1 → List AffineG1 → Except ε Bool

/-- `G1Affine::new` on coordinates read modulo the field order; it
panics off the curve. -/
def arkAffine (x y : Bytes) : Option AffineG1 :=
  (AffineG1.new (beNat x : Fq) (beNat y : Fq)).toOption

/-- `batch_verify`, the arkworks backend. -/
def batchVerifyArk {β ε : Type} (K : ArkVerifier β ε) : BatchVerify :=
  fun blobs commitments proofs => do
    let libBlobs ← blobs.mapM fun b => (K.blobNew b).toOption
    let libCommitments ← commitments.mapM fun c =>
      arkAffine (beBytes 32 c.x.toNat) (beBytes 32 c.y.toNat)
    let libProofs ← proofs.mapM fun p =>
      arkAffine (p.val.take 32) (p.val.drop 32)
    return (K.verifyBlobKzgProofBatch libBlobs libCommitments
      libProofs).toOption.getD false

end Hokulea
