/-
Honest witnesses and the KZG check.

An honest item carries the commitment of its payload's polynomial and
the opening of it that the prover computes. The batched equation holds
for such items whatever they are; what decides is the conversion of the
two points from their coordinates. The identity has the coordinates
`(0, 0)`, which are not on the curve, so a batch passes exactly when no
commitment and no opening in it is the identity.

# Degenerate payloads

The commitment is the identity when the polynomial vanishes at the
setup's scalar: the payload of zeros, the encoding of the empty payload.
The opening is the identity when the quotient does, which it does for
every constant polynomial.
-/
import Hokulea.Kzg.ComputeProof
import Hokulea.Proofs.BatchEquation
import Hokulea.Proofs.BlobParsing
import Hokulea.Proofs.Evaluation
import Hokulea.Proofs.PayloadCodec

namespace Hokulea

open Bytes

-- ========================================================== the payload

/-- A payload read as a polynomial in evaluation form, on the roots of
unity of the table. -/
noncomputable def EncodedPayload.polynomial (self : EncodedPayload) :
    Polynomial Fr :=
  EvalForm.ofEvals (tableRoot (Nat.clog 2 self.numFieldElement))
    ((chunksExact BYTES_PER_FIELD_ELEMENT self.encodedPayload).map
      fun chunk => ((beNat chunk : Nat) : Fr))

/-- A payload that the decoder accepts, within the size of the setup, is
read as its own polynomial: there is nothing to pad. -/
theorem EncodedPayload.blobPolynomial_eq {payload : EncodedPayload}
    {data : Bytes} (hdecode : payload.decode = some (.ok data))
    (hsize : divCeil payload.encodedPayload.length BYTES_PER_FIELD_ELEMENT
      ≤ MAINNET_SRS_G1_SIZE) :
    ∃ poly, blobPolynomial payload.encodedPayload = .ok poly
      ∧ 0 < poly.size ∧ poly.polynomial = payload.polynomial := by
  obtain ⟨r, hr, hok⟩ := decode_ok_iff payload
  rw [hr] at hdecode
  cases hdecode
  obtain ⟨k, hk, hpayload⟩ := (hok data).mp rfl
  have hlen : payload.encodedPayload.length
      = 2 ^ k * BYTES_PER_FIELD_ELEMENT := by
    rw [hpayload, length_encodeV0 hk, Nat.mul_comm]
  have hmod : payload.encodedPayload.length % BYTES_PER_FIELD_ELEMENT = 0 := by
    rw [hlen, Nat.mul_mod_left]
  have hcount : payload.numFieldElement = 2 ^ k := by
    unfold numFieldElement
    rw [hlen, Nat.mul_div_cancel _ (by norm_num)]
  have hle : 2 ^ k ≤ MAINNET_SRS_G1_SIZE := by
    rwa [divCeil, if_pos hmod, hlen, Nat.mul_div_cancel _ (by norm_num)]
      at hsize
  have hfs : ((chunksExact BYTES_PER_FIELD_ELEMENT
      payload.encodedPayload).map
        fun chunk => ((beNat chunk : Nat) : Fr)).length = 2 ^ k := by
    rw [List.length_map, length_chunksExact]
    exact hcount
  unfold blobPolynomial
  rw [toFrArrayCanonical_eq hmod]
  refine ⟨_, dif_neg (by rw [hfs]; exact not_lt.mpr hle), ?_, ?_⟩
  · show 0 < _ * BYTES_PER_FIELD_ELEMENT / BYTES_PER_FIELD_ELEMENT
    rw [Nat.mul_div_cancel _ (by norm_num), hfs]
    exact Nat.two_pow_pos k
  · have hpow : nextPowerOfTwo (2 ^ k) = 2 ^ k := by
      rw [nextPowerOfTwo, Nat.clog_pow 2 k (by norm_num)]
    unfold PolynomialEvalForm.polynomial PolynomialEvalForm.root
      PolynomialEvalForm.size polynomial
    simp only
    rw [Nat.mul_div_cancel _ (by norm_num), hfs, hcount, hpow, Nat.sub_self,
      List.replicate_zero, List.append_nil]

-- =================================================== points on the wire

/-- The coordinates of a point as a certificate carries them. -/
def G1Point.ofAffine (p : AffineG1) : G1Point :=
  ⟨BitVec.ofNat 256 p.x.val, BitVec.ofNat 256 p.y.val⟩

/-- The coordinates of a point as a proof carries them. -/
def AffineG1.toBytes (p : AffineG1) : B512 :=
  ⟨p.x.toBigEndian ++ p.y.toBigEndian, by
    rw [List.length_append, Fq.length_toBigEndian, Fq.length_toBigEndian]⟩

/-- A coordinate fits a machine word. -/
theorem toNat_coordinate (a : Fq) : (BitVec.ofNat 256 a.val).toNat = a.val := by
  rw [BitVec.toNat_ofNat]
  exact Nat.mod_eq_of_lt (lt_trans (ZMod.val_lt a) (by decide +kernel))

/-- A commitment is converted back unless it is the identity. -/
theorem g1PointToAffine_ofAffine (p : AffineG1) :
    g1PointToAffine (G1Point.ofAffine p)
      = if p.toG1 = 0 then
          .error (.notOnCurveError "commitment not on curve")
        else .ok p := by
  have hcoord := Fq.fromBeBytesModOrder_toBigEndian
  unfold Fq.toBigEndian at hcoord
  unfold g1PointToAffine G1Point.ofAffine
  simp only [toNat_coordinate, hcoord]
  show (AffineG1.new p.x p.y).mapError _ = _
  rw [AffineG1.new_coordinates]
  split
  · rfl
  · rfl

/-- So is a proof. -/
theorem proofBytesToAffine_toBytes (p : AffineG1) :
    proofBytesToAffine p.toBytes
      = if p.toG1 = 0 then .error (.notOnCurveError "proof not on curve")
        else .ok p := by
  have htake : p.toBytes.val.take 32 = p.x.toBigEndian :=
    List.take_left' (Fq.length_toBigEndian _)
  have hdrop : p.toBytes.val.drop 32 = p.y.toBigEndian :=
    List.drop_left' (Fq.length_toBigEndian _)
  unfold proofBytesToAffine
  rw [htake, hdrop, Fq.fromBeBytesModOrder_toBigEndian,
    Fq.fromBeBytesModOrder_toBigEndian]
  show (AffineG1.new p.x p.y).mapError _ = _
  rw [AffineG1.new_coordinates]
  split
  · rfl
  · rfl

/-- The arkworks conversion panics at the identity. -/
theorem arkAffine_toBigEndian (p : AffineG1) :
    arkAffine p.x.toBigEndian p.y.toBigEndian
      = if p.toG1 = 0 then none else some p := by
  have hcoord : ∀ a : Fq, ((beNat a.toBigEndian : Nat) : Fq) = a := by
    intro a
    unfold Fq.toBigEndian
    rw [beNat_beBytes (lt_trans (ZMod.val_lt a) Fq.modulus_lt),
      ZMod.natCast_zmod_val]
  unfold arkAffine
  rw [hcoord, hcoord, AffineG1.new_coordinates]
  split
  · rfl
  · rfl

/-- The identity is the point with two zero words. -/
theorem ofAffine_eq_zero_iff {p : AffineG1} :
    G1Point.ofAffine p = ⟨0, 0⟩ ↔ p.toG1 = 0 := by
  have hword : ∀ a : Fq, BitVec.ofNat 256 a.val = 0 ↔ a = 0 := by
    intro a
    rw [← BitVec.toNat_inj, toNat_coordinate, ← ZMod.val_eq_zero]
    rfl
  unfold G1Point.ofAffine
  rw [G1Point.mk.injEq, hword, hword, AffineG1.toG1_eq_zero_iff]

/-- The identity is the point of 64 zero bytes. -/
theorem toBytes_eq_zero_iff {p : AffineG1} :
    p.toBytes.val = List.replicate 64 0 ↔ p.toG1 = 0 := by
  have hcoord : ∀ a : Fq,
      a.toBigEndian = List.replicate 32 0 ↔ a = 0 := by
    intro a
    constructor
    · intro h
      have hval := beNat_beBytes (lt_trans (ZMod.val_lt a) Fq.modulus_lt)
      unfold Fq.toBigEndian at h
      rw [h, beNat_replicate_zero] at hval
      exact (ZMod.val_eq_zero a).mp hval.symm
    · intro h
      rw [h]
      decide +kernel
  have hsplit : (List.replicate 64 0 : Bytes)
      = List.replicate 32 0 ++ List.replicate 32 0 := rfl
  rw [AffineG1.toG1_eq_zero_iff, ← hcoord, ← hcoord, hsplit]
  show p.x.toBigEndian ++ p.y.toBigEndian = _ ↔ _
  constructor
  · intro h
    exact List.append_inj h (by rw [Fq.length_toBigEndian]; rfl)
  · rintro ⟨hx, hy⟩
    rw [hx, hy]

-- ========================================================= honest items

/-- An item of an honest witness: the blob, its polynomial, the two
points, and the challenge they are opened at. -/
structure HonestItem (sha256 : Bytes → B256) (τ : Fr) where
  blob : Bytes
  poly : PolynomialEvalForm
  commitment : AffineG1
  proof : AffineG1
  z : Fr
  form : blobPolynomial blob = .ok poly
  size_pos : 0 < poly.size
  commits : commitment.toG1 = poly.polynomial.eval τ • G1.one
  challenge : computeChallenge sha256 poly commitment = pure z
  opens : proof.toG1 = (EvalForm.opening poly.polynomial z).eval τ • G1.one

namespace HonestItem

variable {sha256 : Bytes → B256} {τ : Fr}

/-- The evaluation the verifier computes. -/
noncomputable def y (self : HonestItem sha256 τ) : Fr :=
  self.poly.polynomial.eval self.z

/-- An honest item has no defect. -/
theorem defect_eq_zero (self : HonestItem sha256 τ) :
    defect τ self.commitment self.z self.y self.proof = 0 := by
  unfold defect y
  rw [self.commits, self.opens, smul_smul, EvalForm.eval_opening, sub_smul,
    sub_self]

/-- No point of the item is the identity. -/
def Finite (self : HonestItem sha256 τ) : Prop :=
  self.commitment.toG1 ≠ 0 ∧ self.proof.toG1 ≠ 0

theorem challengesAndEvaluations_eq (items : List (HonestItem sha256 τ)) :
    challengesAndEvaluations sha256
        ((items.map poly).zip (items.map commitment))
      = pure (items.map fun it => (it.z, it.y)) := by
  induction items with
  | nil => rfl
  | cons it items ih =>
      rw [List.map_cons, List.map_cons, List.zip_cons_cons,
        challengesAndEvaluations]
      simp only [it.challenge, it.poly.evaluate_eq it.size_pos, ih, pure_bind,
        List.map_cons]
      rfl

theorem defects_eq_zero (items : List (HonestItem sha256 τ)) :
    ∀ x ∈ defects τ (items.map commitment) (items.map z) (items.map y)
      (items.map proof), x = 0 := by
  induction items with
  | nil => intro x hx; cases hx
  | cons it items ih =>
      intro x hx
      simp only [List.map_cons, defects] at hx
      rcases List.mem_cons.mp hx with rfl | hx
      · exact it.defect_eq_zero
      · exact ih x hx

variable {G2 Gt : Type*} [AddCommGroup G2] [Module Fr G2] [CommGroup Gt]
  [DecidableEq Gt]

/-- The checks on the converted points pass, for every batch. -/
theorem verifyKzgProofBatch_eq (E : Pairing G2 Gt) (hτ : E.tau = τ • E.one)
    {items : List (HonestItem sha256 τ)} (hne : items ≠ [])
    {blobLengths : List Nat} (hlengths : blobLengths.length = items.length) :
    verifyKzgProofBatch sha256 E (items.map commitment) (items.map z)
        (items.map y) (items.map proof) blobLengths
      = pure true := by
  have hlen : ∀ {α : Type} (f : HonestItem sha256 τ → α),
      (items.map f).length = items.length := fun f => List.length_map f
  obtain ⟨r, hr⟩ : ∃ r, computeRPowers sha256 (items.map commitment)
      (items.map z) (items.map y) (items.map proof) blobLengths
        = pure (computePowers r items.length) := by
    have h := computeRPowers_eq sha256 (by rw [hlen z, hlen commitment])
      (by rw [hlen y, hlen commitment]) (by rw [hlen proof, hlen commitment])
      (by rw [hlengths, hlen commitment])
    rw [hlen commitment] at h
    exact ⟨_, h⟩
  have hequation := verifyEquation_computePowers E hτ
    (List.length_pos_iff.mpr hne)
    ⟨hlen commitment, hlen z, hlen y, hlen proof⟩ r
  rw [powerSum_eq_zero r (defects_eq_zero items)] at hequation
  have hvalid : ∀ ps : List AffineG1, ps.forM
      (fun p => (liftM (validateG1Point p.toG1) : Outcome Unit)) = pure () := by
    intro ps
    induction ps with
    | nil => rfl
    | cons p ps ih =>
        show (liftM (validateG1Point p.toG1) >>= fun _ => ps.forM _) = _
        rw [validateG1Point_eq, Outcome.lift_ok, pure_bind]
        exact ih
  unfold verifyKzgProofBatch
  simp only [hlen, decide_true, Bool.and_self, Bool.not_true, hvalid, hr,
    hequation, pure_bind]
  rfl

theorem mapM_blobPolynomial (items : List (HonestItem sha256 τ)) :
    (items.map blob).mapM
        (fun b => (liftM (blobPolynomial b) : Outcome PolynomialEvalForm))
      = pure (items.map poly) :=
  Outcome.mapM_ok fun it _ => it.form

/-- The batch is accepted when no point in it is the identity. -/
theorem batchVerify_of_finite (E : Pairing G2 Gt) (hτ : E.tau = τ • E.one)
    {items : List (HonestItem sha256 τ)} (hne : items ≠ [])
    (hfinite : ∀ it ∈ items, it.Finite) :
    batchVerify sha256 E (items.map blob)
        (items.map fun it => G1Point.ofAffine it.commitment)
        (items.map fun it => it.proof.toBytes)
      = some true := by
  have hcommitments : (items.map fun it => G1Point.ofAffine it.commitment).mapM
      (fun c => (liftM (g1PointToAffine c) : Outcome AffineG1))
      = pure (items.map commitment) :=
    Outcome.mapM_ok fun it hit => by
      rw [g1PointToAffine_ofAffine, if_neg (hfinite it hit).1]
  have hproofs : (items.map fun it => it.proof.toBytes).mapM
      (fun p => (liftM (proofBytesToAffine p) : Outcome AffineG1))
      = pure (items.map proof) :=
    Outcome.mapM_ok fun it hit => by
      rw [proofBytesToAffine_toBytes, if_neg (hfinite it hit).2]
  have hnonempty : (items.map poly).isEmpty = false := by
    rw [List.isEmpty_eq_false_iff]
    simpa using hne
  have hbatch := verifyKzgProofBatch_eq E hτ hne
    (show ((items.map poly).map fun poly => poly.len).length = items.length by
      rw [List.length_map, List.length_map])
  have hchallenges : computeChallengesAndEvaluatePolynomial sha256
      (items.map poly) (items.map commitment)
      = pure (items.map z, items.map y) := by
    unfold computeChallengesAndEvaluatePolynomial
    simp only [challengesAndEvaluations_eq, List.length_map, pure_bind,
      List.map_map, Function.comp_def, ne_eq, not_true_eq_false, decide_false,
      Bool.false_and, Bool.false_eq_true, if_false]
  have hverify : verifyBlobKzgProofBatch sha256 E (items.map blob)
      (items.map fun it => G1Point.ofAffine it.commitment)
      (items.map fun it => it.proof.toBytes) = pure true := by
    unfold verifyBlobKzgProofBatch
    simp only [mapM_blobPolynomial, hcommitments, hproofs, hchallenges,
      hnonempty, hbatch, List.length_map, pure_bind,
      ne_eq, not_true_eq_false, decide_false, Bool.or_self,
      Bool.false_eq_true, if_false]
  unfold batchVerify
  simp only [hverify]
  rfl

/-- The batch is rejected when one is. -/
theorem batchVerify_of_not_finite (E : Pairing G2 Gt)
    {items : List (HonestItem sha256 τ)}
    (hnot : ∃ it ∈ items, ¬it.Finite) :
    batchVerify sha256 E (items.map blob)
        (items.map fun it => G1Point.ofAffine it.commitment)
        (items.map fun it => it.proof.toBytes)
      = some false := by
  obtain ⟨it, hit, hnot⟩ := hnot
  have hthrow : ∃ e, verifyBlobKzgProofBatch sha256 E (items.map blob)
      (items.map fun it => G1Point.ofAffine it.commitment)
      (items.map fun it => it.proof.toBytes) = throw e := by
    unfold verifyBlobKzgProofBatch
    simp only [mapM_blobPolynomial, pure_bind]
    by_cases hcommit : ∀ it ∈ items, it.commitment.toG1 ≠ 0
    · have hcommitments :
          (items.map fun it => G1Point.ofAffine it.commitment).mapM
            (fun c => (liftM (g1PointToAffine c) : Outcome AffineG1))
          = pure (items.map commitment) :=
        Outcome.mapM_ok fun it hit => by
          rw [g1PointToAffine_ofAffine, if_neg (hcommit it hit)]
      have hzero : it.proof.toG1 = 0 := by
        by_contra hproof
        exact hnot ⟨hcommit it hit, hproof⟩
      obtain ⟨e, he⟩ := Outcome.mapM_error (f := proofBytesToAffine)
        (List.mem_map_of_mem (f := fun it => it.proof.toBytes) hit)
        (by rw [proofBytesToAffine_toBytes, if_pos hzero])
      refine ⟨e, ?_⟩
      rw [hcommitments, pure_bind, he]
      rfl
    · push Not at hcommit
      obtain ⟨it, hit, hzero⟩ := hcommit
      obtain ⟨e, he⟩ := Outcome.mapM_error (f := g1PointToAffine)
        (List.mem_map_of_mem
          (f := fun it => G1Point.ofAffine it.commitment) hit)
        (by rw [g1PointToAffine_ofAffine, if_pos hzero])
      refine ⟨e, ?_⟩
      rw [he]
      rfl
  obtain ⟨e, he⟩ := hthrow
  unfold batchVerify
  simp only [he]
  rfl

end HonestItem

-- ============================================================ the prover

/-- What the library documents, for a setup with the scalar `τ`. -/
structure KzgProver.Honest {κ β ρ ς ε : Type} (K : KzgProver κ β ρ ς ε)
    (sha256 : Bytes → B256) (τ : Fr) (srs : ς) : Prop where
  /-- Roots of unity are stored up to the size of the setup. -/
  size : ∀ {kzg : κ} {len : Nat},
    K.calculateAndStoreRootsOfUnity K.new len = .ok kzg →
      divCeil len BYTES_PER_FIELD_ELEMENT ≤ MAINNET_SRS_G1_SIZE
  /-- The commitment is the polynomial at the setup's scalar. -/
  commit : ∀ {encodedPayload : Bytes} {poly : PolynomialEvalForm}
    {commitment proof : AffineG1},
    blobPolynomial encodedPayload = .ok poly →
    K.Steps srs encodedPayload commitment proof →
      commitment.toG1 = poly.polynomial.eval τ • G1.one
  /-- The proof is the quotient at the setup's scalar, for the point
  that the verifier computes too. -/
  opens : ∀ {encodedPayload : Bytes} {poly : PolynomialEvalForm}
    {commitment proof : AffineG1} {z : Fr},
    blobPolynomial encodedPayload = .ok poly →
    K.Steps srs encodedPayload commitment proof →
    computeChallenge sha256 poly commitment = pure z →
      proof.toG1 = (EvalForm.opening poly.polynomial z).eval τ • G1.one

/-- A payload that the decoder accepts and the prover proves is an
honest item. -/
theorem KzgProver.Honest.item {κ β ρ ς ε : Type} {K : KzgProver κ β ρ ς ε}
    {sha256 : Bytes → B256} {τ : Fr} {srs : ς} (hK : K.Honest sha256 τ srs)
    {payload : EncodedPayload} {data : Bytes} {proof : B512}
    (hdecode : payload.decode = some (.ok data))
    (hproof : K.computeKzgProofWithSrs payload.encodedPayload srs
      = some (.ok proof.val)) :
    ∃ it : HonestItem sha256 τ, it.blob = payload.encodedPayload
      ∧ it.commitment
        = AffineG1.ofG1 (payload.polynomial.eval τ • G1.one)
      ∧ it.proof.toBytes = proof := by
  obtain ⟨commitment, point, hsteps, hbytes⟩ :=
    K.computeKzgProofWithSrs_inv hproof
  obtain ⟨kzg, blob, inputPoly, hkzg, -⟩ := hsteps.calls
  obtain ⟨poly, hform, hsize, hpoly⟩ :=
    EncodedPayload.blobPolynomial_eq hdecode (hK.size hkzg)
  have hcommit := hK.commit hform hsteps
  have hchallenge := computeChallenge_eq sha256 poly commitment
  refine ⟨⟨payload.encodedPayload, poly, commitment, point, _, hform, hsize,
    hcommit, hchallenge, hK.opens hform hsteps hchallenge⟩, rfl, ?_, ?_⟩
  · show commitment = _
    rw [← hpoly, ← hcommit, AffineG1.ofG1_toG1]
  · exact Subtype.ext hbytes.symm

/-- A batch as the caller passes it, entry by entry. -/
def HonestItem.entry {sha256 : Bytes → B256} {τ : Fr}
    (self : HonestItem sha256 τ) : Bytes × G1Point × B512 :=
  (self.blob, G1Point.ofAffine self.commitment, self.proof.toBytes)

/-- A batch whose entries are honest is a batch of honest items. -/
theorem exists_honestItems {sha256 : Bytes → B256} {τ : Fr}
    {batch : List (Bytes × G1Point × B512)}
    (h : ∀ b ∈ batch, ∃ it : HonestItem sha256 τ, it.entry = b) :
    ∃ items : List (HonestItem sha256 τ), items.map HonestItem.entry = batch := by
  induction batch with
  | nil => exact ⟨[], rfl⟩
  | cons b batch ih =>
      obtain ⟨it, hit⟩ := h b (by simp)
      obtain ⟨items, hitems⟩ := ih fun c hc => h c (by simp [hc])
      exact ⟨it :: items, by rw [List.map_cons, hit, hitems]⟩

/-- One failing element fails the list. -/
theorem mapM_eq_none {α β : Type} {f : α → Option β} {l : List α} {x : α}
    (hx : x ∈ l) (hf : f x = none) : l.mapM f = none := by
  induction l with
  | nil => cases hx
  | cons y l ih =>
      rw [List.mapM_cons]
      rcases List.mem_cons.mp hx with rfl | hx
      · rw [hf]
        rfl
      · cases f y with
        | none => rfl
        | some b =>
            rw [ih hx]
            rfl

section Backends

variable {G2 Gt : Type*} [AddCommGroup G2] [Module Fr G2] [CommGroup Gt]
  [DecidableEq Gt] (E : Pairing G2 Gt) {sha256 : Bytes → B256} {τ : Fr}
  {batch : List (Bytes × G1Point × B512)}

/-- No point of the batch is the identity. -/
def NoIdentity (batch : List (Bytes × G1Point × B512)) : Prop :=
  ∀ b ∈ batch, b.2.1 ≠ ⟨0, 0⟩ ∧ b.2.2.val ≠ List.replicate 64 0

theorem noIdentity_iff {items : List (HonestItem sha256 τ)} :
    NoIdentity (items.map HonestItem.entry) ↔ ∀ it ∈ items, it.Finite := by
  unfold NoIdentity
  rw [List.forall_mem_map]
  apply forall₂_congr
  intro it _
  show G1Point.ofAffine it.commitment ≠ ⟨0, 0⟩
    ∧ it.proof.toBytes.val ≠ List.replicate 64 0 ↔ _
  rw [ne_eq, ne_eq, ofAffine_eq_zero_iff, toBytes_eq_zero_iff]
  rfl

/-- The substrate-bn backend accepts the batches without an identity. -/
theorem batchVerify_entries (hτ : E.tau = τ • E.one) (hne : batch ≠ [])
    (h : ∀ b ∈ batch, ∃ it : HonestItem sha256 τ, it.entry = b) :
    batchVerify sha256 E (batch.map fun b => b.1) (batch.map fun b => b.2.1)
        (batch.map fun b => b.2.2)
      = some true ↔ NoIdentity batch := by
  obtain ⟨items, rfl⟩ := exists_honestItems h
  have hitems : items ≠ [] := by simpa using hne
  simp only [List.map_map, Function.comp_def, HonestItem.entry]
  rw [noIdentity_iff]
  by_cases hfinite : ∀ it ∈ items, it.Finite
  · rw [HonestItem.batchVerify_of_finite E hτ hitems hfinite]
    exact iff_of_true rfl hfinite
  · have hnot := hfinite
    push Not at hnot
    rw [HonestItem.batchVerify_of_not_finite E hnot]
    exact iff_of_false (by simp) hfinite

/-- The arkworks backend panics on the others. -/
theorem batchVerifyArk_entries {β ε : Type} (A : ArkVerifier β ε)
    (h : ∀ b ∈ batch, ∃ it : HonestItem sha256 τ, it.entry = b)
    (hnot : ¬NoIdentity batch) :
    batchVerifyArk A (batch.map fun b => b.1) (batch.map fun b => b.2.1)
        (batch.map fun b => b.2.2)
      = none := by
  obtain ⟨items, rfl⟩ := exists_honestItems h
  rw [noIdentity_iff] at hnot
  push Not at hnot
  obtain ⟨it, hit, hnot⟩ := hnot
  simp only [List.map_map, Function.comp_def, HonestItem.entry]
  unfold batchVerifyArk
  cases (items.map fun it => it.blob).mapM fun b => (A.blobNew b).toOption with
  | none => rfl
  | some libBlobs =>
      by_cases hcommit : it.commitment.toG1 = 0
      · have hnone := mapM_eq_none
          (f := fun c : G1Point =>
            arkAffine (beBytes 32 c.x.toNat) (beBytes 32 c.y.toNat))
          (List.mem_map_of_mem
            (f := fun it => G1Point.ofAffine it.commitment) hit)
          (by
            have h := arkAffine_toBigEndian it.commitment
            rw [if_pos hcommit] at h
            unfold Fq.toBigEndian at h
            unfold G1Point.ofAffine
            rw [toNat_coordinate, toNat_coordinate]
            exact h)
        rw [hnone]
        rfl
      · have hproof : it.proof.toG1 = 0 := by
          by_contra hne
          exact hnot ⟨hcommit, hne⟩
        have hnone := mapM_eq_none
          (f := fun p : B512 =>
            arkAffine (p.val.take 32) (p.val.drop 32))
          (List.mem_map_of_mem (f := fun it => it.proof.toBytes) hit)
          (by
            have h := arkAffine_toBigEndian it.proof
            rw [if_pos hproof] at h
            unfold AffineG1.toBytes
            rw [List.take_left' (Fq.length_toBigEndian _),
              List.drop_left' (Fq.length_toBigEndian _)]
            exact h)
        rw [hnone]
        cases (items.map fun it => G1Point.ofAffine it.commitment).mapM
            fun c => arkAffine (beBytes 32 c.x.toNat) (beBytes 32 c.y.toNat)
          with
        | none => rfl
        | some libCommitments => rfl

end Backends

/-- The entries of a batch that decodes, is committed to and is proved
are honest. -/
theorem KzgProver.Honest.entries {κ β ρ ς ε : Type}
    {K : KzgProver κ β ρ ς ε} {sha256 : Bytes → B256} {τ : Fr} {srs : ς}
    (hK : K.Honest sha256 τ srs)
    {batch : List (EncodedPayload × G1Point × B512)}
    (hdecode : ∀ b ∈ batch, ∃ data, b.1.decode = some (.ok data))
    (hcommit : ∀ b ∈ batch, b.2.1 = G1Point.ofAffine
      (AffineG1.ofG1 (b.1.polynomial.eval τ • G1.one)))
    (hproof : ∀ b ∈ batch, K.computeKzgProofWithSrs b.1.encodedPayload srs
      = some (.ok b.2.2.val)) :
    ∀ b ∈ batch.map fun b => (b.1.encodedPayload, b.2.1, b.2.2),
      ∃ it : HonestItem sha256 τ, it.entry = b := by
  rw [List.forall_mem_map]
  intro b hb
  obtain ⟨data, hdata⟩ := hdecode b hb
  obtain ⟨it, hblob, hcommitment, hbytes⟩ := hK.item hdata (hproof b hb)
  refine ⟨it, ?_⟩
  unfold HonestItem.entry
  rw [hblob, hcommitment, hbytes, hcommit b hb]

/-- What `from_witness` makes of honest payload entries: without an
identity among their points the KZG check changes nothing, with one the
witness is rejected, whatever else it holds. -/
theorem fromWitness_honest {G2 Gt : Type*} [AddCommGroup G2] [Module Fr G2]
    [CommGroup Gt] [DecidableEq Gt] (E : Pairing G2 Gt) {κ β ρ ς ε : Type}
    {K : KzgProver κ β ρ ς ε} {sha256 : Bytes → B256} {τ : Fr} {srs : ς}
    (hτ : E.tau = τ • E.one) (hK : K.Honest sha256 τ srs)
    {w : EigenDAWitness} (hne : w.encodedPayloads ≠ [])
    (hdecode : ∀ e ∈ w.encodedPayloads, ∃ data,
      e.2.1.decode = some (.ok data))
    (hcommit : ∀ e ∈ w.encodedPayloads, e.1.getKzgCommitment
      = G1Point.ofAffine (AffineG1.ofG1 (e.2.1.polynomial.eval τ • G1.one)))
    (hproof : ∀ e ∈ w.encodedPayloads,
      K.computeKzgProofWithSrs e.2.1.encodedPayload srs
        = some (.ok e.2.2.val))
    (head : L1Head) (V : CanoeVerifier) (A : CanoeVerifierAddressFetcher) :
    PreloadedEigenDAPreimageProvider.fromWitness w head V A
        (batchVerify sha256 E)
      = if ∀ e ∈ w.encodedPayloads, e.1.getKzgCommitment ≠ ⟨0, 0⟩
          ∧ e.2.2.val ≠ List.replicate 64 0
        then PreloadedEigenDAPreimageProvider.fromWitness w head V A
          fun _ _ _ => some true
        else none := by
  have hentries := @KzgProver.Honest.entries _ _ _ _ _ K sha256 τ srs hK
    (w.encodedPayloads.map fun e => (e.2.1, e.1.getKzgCommitment, e.2.2))
    (by rwa [List.forall_mem_map]) (by rwa [List.forall_mem_map])
    (by rwa [List.forall_mem_map])
  have hverify := batchVerify_entries E hτ (by simpa using hne) hentries
  simp only [NoIdentity, List.forall_mem_map, List.map_map,
    Function.comp_def] at hverify
  by_cases hcond : ∀ e ∈ w.encodedPayloads, e.1.getKzgCommitment ≠ ⟨0, 0⟩
      ∧ e.2.2.val ≠ List.replicate 64 0
  · rw [if_pos hcond]
    unfold PreloadedEigenDAPreimageProvider.fromWitness
    rw [hverify.mpr hcond]
  · rw [if_neg hcond]
    cases hpre : PreloadedEigenDAPreimageProvider.fromWitness w head V A
        (batchVerify sha256 E) with
    | none => rfl
    | some pre =>
        have hkzg :=
          (PreloadedEigenDAPreimageProvider.fromWitness_inv hpre).kzg
        exact absurd (hverify.mp hkzg) hcond

namespace KzgProver

/-- A prover that evaluates at the setup's scalar, which it knows. -/
noncomputable def ideal (sha256 : Bytes → B256) (τ : Fr) :
    KzgProver Unit Bytes PolynomialEvalForm Unit KzgError where
  new := ()
  calculateAndStoreRootsOfUnity _ len :=
    if divCeil len BYTES_PER_FIELD_ELEMENT ≤ MAINNET_SRS_G1_SIZE then .ok ()
    else .error .invalidInputLength
  blobNew blob := .ok blob
  toPolynomialEvalForm := blobPolynomial
  commitEvalForm _ poly _ :=
    .ok (AffineG1.ofG1 (poly.polynomial.eval τ • G1.one))
  computeBlobProof _ blob commitment _ := do
    let poly ← blobPolynomial blob
    let z := ((beNat (sha256 (challengeInput poly commitment)).val : Nat) : Fr)
    return AffineG1.ofG1 ((EvalForm.opening poly.polynomial z).eval τ • G1.one)

theorem ideal_honest (sha256 : Bytes → B256) (τ : Fr) :
    (ideal sha256 τ).Honest sha256 τ () where
  size {kzg len} h := by
    by_contra hlt
    have h : (if divCeil len BYTES_PER_FIELD_ELEMENT ≤ MAINNET_SRS_G1_SIZE then
      (.ok () : Except KzgError Unit) else .error .invalidInputLength)
      = .ok kzg := h
    rw [if_neg hlt] at h
    cases h
  commit {encodedPayload poly commitment proof} hform hsteps := by
    obtain ⟨kzg, blob, inputPoly, -, hblob, hpoly, hcommit, -⟩ := hsteps.calls
    have hblob : encodedPayload = blob := Except.ok.inj hblob
    have hpoly : blobPolynomial blob = .ok inputPoly := hpoly
    rw [← hblob, hform] at hpoly
    cases hpoly
    have hcommit := Except.ok.inj hcommit
    rw [← hcommit, AffineG1.toG1_ofG1]
  opens {encodedPayload poly commitment proof z} hform hsteps hz := by
    obtain ⟨kzg, blob, inputPoly, -, hblob, -, -, hproof⟩ := hsteps.calls
    have hblob : encodedPayload = blob := Except.ok.inj hblob
    subst hblob
    have hproof : (do
      let poly ← blobPolynomial encodedPayload
      return AffineG1.ofG1 ((EvalForm.opening poly.polynomial
        ((beNat (sha256 (challengeInput poly commitment)).val : Nat)
          : Fr)).eval τ • G1.one)) = Except.ok proof := hproof
    rw [hform] at hproof
    have hproof := Except.ok.inj hproof
    rw [computeChallenge_eq] at hz
    have hz := Except.ok.inj (Option.some.inj hz)
    rw [← hproof, AffineG1.toG1_ofG1, hz]

/-- It computes a proof of every blob within the setup. -/
theorem ideal_compute {sha256 : Bytes → B256} {τ : Fr} {blob : Bytes}
    {poly : PolynomialEvalForm} (hform : blobPolynomial blob = .ok poly)
    (hsize : divCeil blob.length BYTES_PER_FIELD_ELEMENT
      ≤ MAINNET_SRS_G1_SIZE) :
    ∃ z : Fr, z = ((beNat (sha256 (challengeInput poly (AffineG1.ofG1
        (poly.polynomial.eval τ • G1.one)))).val : Nat) : Fr)
      ∧ (ideal sha256 τ).computeKzgProofWithSrs blob ()
        = some (.ok (AffineG1.ofG1
            ((EvalForm.opening poly.polynomial z).eval τ
              • G1.one)).toBytes.val) := by
  have hcoord : ∀ a : Fq,
      convertBiguintToBe32Bytes a.val = some a.toBigEndian := fun a =>
    convertBiguintToBe32Bytes_eq (lt_trans (ZMod.val_lt a) Fq.modulus_lt)
  refine ⟨_, rfl, ?_⟩
  unfold computeKzgProofWithSrs ideal
  simp only [if_pos hsize, Except.toOption, Outcome.lift_some,
    Outcome.lift_ok, pure_bind, hform, hcoord]
  rfl

end KzgProver

-- ======================================================= two payloads

/-- The SHA-256 digests of the transcripts of the two payloads below,
told apart by their lengths: the challenge of the one, and the challenge
and the batch of the other. -/
def transcriptDigest (msg : Bytes) : B256 :=
  if msg.length = 96 then b256
    72454402233909553482546073421653107759277327632161185590891962978566435824411
  else if msg.length = 128 then b256
    54202354903215585869436311106173164281920770857908925372430062036419401449218
  else b256
    34397422974240794277502753576393458373628150428932787529142261294714143996577

/-- The encoding of the empty payload is one field element, zero. -/
def emptyPayload : EncodedPayload := ⟨EncodedPayload.encodeV0 0 []⟩

theorem decode_emptyPayload : emptyPayload.decode = some (.ok []) := by
  decide +kernel

theorem polynomial_emptyPayload : emptyPayload.polynomial = 0 := by
  have hfs : ((chunksExact BYTES_PER_FIELD_ELEMENT
      emptyPayload.encodedPayload).map
        fun chunk => ((beNat chunk : Nat) : Fr)) = List.replicate 1 0 := by
    decide +kernel
  unfold EncodedPayload.polynomial
  rw [hfs, EvalForm.ofEvals_replicate_zero]

/-- The payload of one byte, in two field elements. -/
def oneBytePayload : EncodedPayload := ⟨EncodedPayload.encodeV0 1 [7]⟩

theorem decode_oneBytePayload : oneBytePayload.decode = some (.ok [7]) := by
  decide +kernel

/-- Its header and its one element, as scalars. -/
def oneByteEvals : List Fr := [(2 ^ 208 : Nat), (7 * 2 ^ 240 : Nat)]

theorem polynomial_oneBytePayload :
    oneBytePayload.polynomial
      = EvalForm.ofEvals (tableRoot 1) oneByteEvals := by
  have hfs : ((chunksExact BYTES_PER_FIELD_ELEMENT
      oneBytePayload.encodedPayload).map
        fun chunk => ((beNat chunk : Nat) : Fr)) = oneByteEvals := by
    decide +kernel
  have hcount : oneBytePayload.numFieldElement = 2 := by decide +kernel
  unfold EncodedPayload.polynomial
  rw [hfs, hcount]
  rfl

theorem isPrimitiveRoot_two : IsPrimitiveRoot (tableRoot 1) 2 :=
  isPrimitiveRoot_roots (k := 1) (by norm_num)

/-- At the setup's scalar one, the polynomial is its first element. -/
theorem eval_oneBytePayload :
    oneBytePayload.polynomial.eval 1 = ((2 ^ 208 : Nat) : Fr) := by
  have h := @EvalForm.eval_ofEvals_pow _ _ _ oneByteEvals
    isPrimitiveRoot_two 0 (by decide)
  rw [pow_zero] at h
  rw [polynomial_oneBytePayload, h]
  rfl

/-- Nowhere else does it take this value: it is a line through two
elements that differ. -/
theorem opening_oneBytePayload {z : Fr} (hz : z ≠ 1) :
    (EvalForm.opening oneBytePayload.polynomial z).eval 1 ≠ 0 := by
  have hdegree := @EvalForm.degree_ofEvals_lt _ _ _ oneByteEvals
    isPrimitiveRoot_two
  rw [← polynomial_oneBytePayload] at hdegree
  have hnat : oneBytePayload.polynomial.natDegree ≤ 1 := by
    by_cases hp : oneBytePayload.polynomial = 0
    · rw [hp, Polynomial.natDegree_zero]
      exact Nat.zero_le 1
    · exact Nat.lt_succ_iff.mp
        ((Polynomial.natDegree_lt_iff_degree_lt hp).mpr hdegree)
  obtain ⟨a, b, hline⟩ :=
    Polynomial.exists_eq_X_add_C_of_natDegree_le_one hnat
  have hsecond := @EvalForm.eval_ofEvals_pow _ _ _ oneByteEvals
    isPrimitiveRoot_two 1 (by decide)
  have hfirst := eval_oneBytePayload
  rw [← polynomial_oneBytePayload] at hsecond
  intro hzero
  have hopen := EvalForm.eval_opening oneBytePayload.polynomial z 1
  rw [hzero, mul_zero] at hopen
  rw [hline] at hopen hfirst hsecond
  simp only [Polynomial.eval_add, Polynomial.eval_mul, Polynomial.eval_C,
    Polynomial.eval_X] at hopen hfirst hsecond
  have ha : a = 0 := by
    have hprod : a * (z - 1) = 0 := by linear_combination hopen
    exact (mul_eq_zero.mp hprod).resolve_right (sub_ne_zero.mpr hz)
  rw [ha, zero_mul, zero_add] at hfirst hsecond
  rw [hfirst] at hsecond
  exact absurd hsecond (by decide +kernel)

end Hokulea
