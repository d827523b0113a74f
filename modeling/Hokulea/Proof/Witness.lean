/-
`EigenDAPreimage` and `EigenDAWitness` of `eigenda_witness.rs`: what a
derivation run was answered, and the same with its proofs.
-/
import Hokulea.Eigenda.EncodedPayload

namespace Hokulea

open Bytes

/-- `FixedBytes<64>`, a KZG proof's two coordinates. -/
abbrev B512 := { s : Bytes // s.length = 64 }

/-- `EigenDAPreimage` -/
structure EigenDAPreimage where
  validities : List (AltDACommitment × Bool) := []
  encodedPayloads : List (AltDACommitment × EncodedPayload) := []
  deriving DecidableEq

/-- `EigenDAWitnessError` -/
inductive EigenDAWitnessError where
  | missingCanoeProof
  | mismatchKzgProof
  deriving DecidableEq, Repr

/-- `EigenDAWitness` -/
structure EigenDAWitness where
  validities : List (AltDACommitment × Bool)
  encodedPayloads : List (AltDACommitment × EncodedPayload × B512)
  canoeProofBytes : Option Bytes
  deriving DecidableEq

namespace EigenDAWitness

/-- `from_preimage_unchecked` -/
def fromPreimageUnchecked (preimage : EigenDAPreimage) (kzgProofs : List B512)
    (canoeProofBytes : Option Bytes) : EigenDAWitness where
  validities := preimage.validities
  encodedPayloads :=
    (preimage.encodedPayloads.zip kzgProofs).map
      fun ((c, payload), proof) => (c, payload, proof)
  canoeProofBytes := canoeProofBytes

/-- `from_preimage` -/
def fromPreimage (preimage : EigenDAPreimage) (kzgProofs : List B512)
    (canoeProof : Option Bytes) :
    Except EigenDAWitnessError EigenDAWitness :=
  if !preimage.validities.isEmpty && canoeProof.isNone then
    .error .missingCanoeProof
  else if kzgProofs.length ≠ preimage.encodedPayloads.length then
    .error .mismatchKzgProof
  else .ok (fromPreimageUnchecked preimage kzgProofs canoeProof)

/-- `into_preimage` -/
def intoPreimage (self : EigenDAWitness) :
    EigenDAPreimage × List B512 × Option Bytes :=
  let (encodedPayloads, kzgProofs) :=
    (self.encodedPayloads.map
      fun (c, payload, proof) => ((c, payload), proof)).unzip
  (⟨self.validities, encodedPayloads⟩, kzgProofs, self.canoeProofBytes)

/-- A witness made from a preimage holds the preimage: nothing dropped
by the zip. -/
theorem fromPreimage_inv {preimage : EigenDAPreimage} {kzgProofs : List B512}
    {canoeProof : Option Bytes} {w : EigenDAWitness}
    (h : fromPreimage preimage kzgProofs canoeProof = .ok w) :
    w.validities = preimage.validities
      ∧ w.encodedPayloads.map (fun e => (e.1, e.2.1))
        = preimage.encodedPayloads := by
  unfold fromPreimage at h
  split at h
  · cases h
  split at h
  · cases h
  next hlen =>
    have hlen' : preimage.encodedPayloads.length ≤ kzgProofs.length := by
      omega
    injection h with h
    subst h
    refine ⟨rfl, ?_⟩
    unfold fromPreimageUnchecked
    rw [List.map_map]
    exact List.map_fst_zip hlen'

/-- It is taken apart into what it was made from. -/
theorem intoPreimage_fromPreimage {preimage : EigenDAPreimage}
    {kzgProofs : List B512} {canoeProof : Option Bytes} {w : EigenDAWitness}
    (h : fromPreimage preimage kzgProofs canoeProof = .ok w) :
    w.intoPreimage = (preimage, kzgProofs, canoeProof) := by
  unfold fromPreimage at h
  split at h
  · cases h
  split at h
  · cases h
  next hlen =>
    have hlen' : preimage.encodedPayloads.length = kzgProofs.length :=
      (not_not.mp hlen).symm
    injection h with h
    subst h
    have hunzip := List.unzip_zip hlen'
    unfold intoPreimage fromPreimageUnchecked
    simp [Function.comp_def, hunzip]

/-- A witness that was taken apart is put together again, unless it has
claims and no receipt for them. -/
theorem fromPreimage_intoPreimage (w : EigenDAWitness) :
    fromPreimage w.intoPreimage.1 w.intoPreimage.2.1 w.intoPreimage.2.2
      = if !w.validities.isEmpty && w.canoeProofBytes.isNone then
          .error .missingCanoeProof
        else .ok w := by
  obtain ⟨validities, encodedPayloads, canoeProofBytes⟩ := w
  have hzip : ∀ l : List (AltDACommitment × EncodedPayload × B512),
      ((l.map fun e => (e.1, e.2.1)).zip (l.map fun e => e.2.2)).map
        (fun x => (x.1.1, x.1.2, x.2)) = l := by
    intro l
    induction l with
    | nil => rfl
    | cons e l ih =>
        rw [List.map_cons, List.map_cons, List.zip_cons_cons, List.map_cons, ih]
  unfold fromPreimage intoPreimage fromPreimageUnchecked
  simp [List.unzip_eq_map, Function.comp_def, hzip]

end EigenDAWitness

end Hokulea
