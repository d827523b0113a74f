/-
`kzg_proof.rs`: the opening proof the host puts into the witness.

The prover library is a parameter; of a proof that was computed this
module only says which of its calls succeeded, and that the bytes are
the coordinates of the point it returned.
-/
import Hokulea.Kzg.Batch

namespace Hokulea

open Bytes

/-- `BigUint::to_bytes_be`; zero is one byte. -/
def biguintToBytesBe (n : Nat) : Bytes :=
  if n = 0 then [0] else beTrim (Nat.log 256 n + 1) n

/-- `convert_biguint_to_be_32_bytes` -/
def convertBiguintToBe32Bytes (biguint : Nat) : Option Bytes :=
  let beBytes := biguintToBytesBe biguint
  if beBytes.length ≤ 32 then
    writeAt (List.replicate 32 0) (32 - beBytes.length) beBytes
  else none

/-- The prover library: the state of `KZG` is `κ`, blobs `β`,
polynomials `ρ`, setups `ς`, errors `ε`. -/
structure KzgProver (κ β ρ ς ε : Type) where
  /-- `KZG::new` -/
  new : κ
  /-- `calculate_and_store_roots_of_unity` -/
  calculateAndStoreRootsOfUnity : κ → Nat → Except ε κ
  /-- `Blob::new` -/
  blobNew : Bytes → Except ε β
  /-- `to_polynomial_eval_form` -/
  toPolynomialEvalForm : β → Except ε ρ
  /-- `commit_eval_form` -/
  commitEvalForm : κ → ρ → ς → Except ε AffineG1
  /-- `compute_blob_proof` -/
  computeBlobProof : κ → β → AffineG1 → ς → Except ε AffineG1

namespace KzgProver

variable {κ β ρ ς ε : Type} (K : KzgProver κ β ρ ς ε)

/-- `compute_kzg_proof_with_srs` -/
def computeKzgProofWithSrs (encodedPayload : Bytes) (srs : ς) :
    ExceptT ε Option Bytes := do
  let kzg ← (K.calculateAndStoreRootsOfUnity K.new
    encodedPayload.length).toOption
  let blob ← (K.blobNew encodedPayload).toOption
  let inputPoly ← K.toPolynomialEvalForm blob
  let commitment ← K.commitEvalForm kzg inputPoly srs
  let proof ← K.computeBlobProof kzg blob commitment srs
  let proofXBytes ← convertBiguintToBe32Bytes proof.x.val
  let proofYBytes ← convertBiguintToBe32Bytes proof.y.val
  return proofXBytes ++ proofYBytes

/-- The library calls of one proof, all of them successful. -/
structure Steps (srs : ς) (encodedPayload : Bytes)
    (commitment proof : AffineG1) : Prop where
  calls : ∃ kzg blob inputPoly,
    K.calculateAndStoreRootsOfUnity K.new encodedPayload.length = .ok kzg
      ∧ K.blobNew encodedPayload = .ok blob
      ∧ K.toPolynomialEvalForm blob = .ok inputPoly
      ∧ K.commitEvalForm kzg inputPoly srs = .ok commitment
      ∧ K.computeBlobProof kzg blob commitment srs = .ok proof

-- ====================================================== the conversion

theorem beNat_biguintToBytesBe (n : Nat) : beNat (biguintToBytesBe n) = n := by
  unfold biguintToBytesBe
  by_cases hn : n = 0
  · subst hn
    rfl
  · rw [if_neg hn]
    exact beNat_beTrim (Nat.lt_pow_succ_log_self (by norm_num) n)

/-- A number below `2^256` is padded to its 32 bytes. -/
theorem convertBiguintToBe32Bytes_eq {n : Nat} (h : n < 256 ^ 32) :
    convertBiguintToBe32Bytes n = some (beBytes 32 n) := by
  have hlen : (biguintToBytesBe n).length ≤ 32 := by
    unfold biguintToBytesBe
    by_cases hn : n = 0
    · rw [if_pos hn]
      decide
    · rw [if_neg hn]
      apply le_trans (length_beTrim_le _ n)
      exact Nat.log_lt_of_lt_pow hn h
  have hpad := beBytes_eq_replicate_append hlen
  rw [beNat_biguintToBytesBe] at hpad
  unfold convertBiguintToBe32Bytes
  simp only
  rw [if_pos hlen, writeAt_eq_some (by simp; omega), hpad, List.take_replicate,
    List.drop_replicate, Nat.min_eq_left (Nat.sub_le _ _),
    Nat.sub_add_cancel hlen, Nat.sub_self, List.replicate_zero,
    List.append_nil]

/-- A computation that succeeds succeeds at its first step. -/
theorem bind_eq_ok {α γ : Type} {x : ExceptT ε Option α}
    {f : α → ExceptT ε Option γ} {c : γ} (h : x >>= f = some (.ok c)) :
    ∃ a, x = some (.ok a) ∧ f a = some (.ok c) := by
  match x, h with
  | some (.ok a), h => exact ⟨a, rfl, h⟩
  | some (.error e), h => cases h
  | none, h => cases h

theorem lift_toOption_eq_ok {α : Type} {x : Except ε α} {a : α}
    (h : (liftM x.toOption : ExceptT ε Option α) = some (.ok a)) :
    x = .ok a := by
  cases x with
  | error e => cases h
  | ok b =>
      cases h
      rfl

theorem lift_eq_ok {α : Type} {x : Except ε α} {a : α}
    (h : (liftM x : ExceptT ε Option α) = some (.ok a)) : x = .ok a := by
  cases x with
  | error e => cases h
  | ok b =>
      cases h
      rfl

/-- A proof that was computed is the two coordinates of the point the
library returned. -/
theorem computeKzgProofWithSrs_inv {encodedPayload proofBytes : Bytes}
    {srs : ς} (h : K.computeKzgProofWithSrs encodedPayload srs
      = some (.ok proofBytes)) :
    ∃ commitment proof, K.Steps srs encodedPayload commitment proof
      ∧ proofBytes = proof.x.toBigEndian ++ proof.y.toBigEndian := by
  have hcoord : ∀ a : Fq,
      convertBiguintToBe32Bytes a.val = some a.toBigEndian := fun a =>
    convertBiguintToBe32Bytes_eq (lt_trans (ZMod.val_lt a) Fq.modulus_lt)
  unfold computeKzgProofWithSrs at h
  obtain ⟨kzg, hkzg, h⟩ := bind_eq_ok h
  obtain ⟨blob, hblob, h⟩ := bind_eq_ok h
  obtain ⟨inputPoly, hpoly, h⟩ := bind_eq_ok h
  obtain ⟨commitment, hcommit, h⟩ := bind_eq_ok h
  obtain ⟨proof, hproof, h⟩ := bind_eq_ok h
  obtain ⟨proofXBytes, hx, h⟩ := bind_eq_ok h
  obtain ⟨proofYBytes, hy, h⟩ := bind_eq_ok h
  rw [hcoord] at hx hy
  have hx : proof.x.toBigEndian = proofXBytes :=
    Except.ok.inj (Option.some.inj hx)
  have hy : proof.y.toBigEndian = proofYBytes :=
    Except.ok.inj (Option.some.inj hy)
  have h : proofXBytes ++ proofYBytes = proofBytes :=
    Except.ok.inj (Option.some.inj h)
  refine ⟨commitment, proof, ⟨kzg, blob, inputPoly, ?_, ?_, ?_, ?_, ?_⟩, ?_⟩
  · exact lift_toOption_eq_ok hkzg
  · exact lift_toOption_eq_ok hblob
  · exact lift_eq_ok hpoly
  · exact lift_eq_ok hcommit
  · exact lift_eq_ok hproof
  · rw [← h, hx, hy]

end KzgProver

end Hokulea
