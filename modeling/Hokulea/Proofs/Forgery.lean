/-
What the batch verifier accepts, whoever made the batch.

# What is proved

- `acceptance_iff`: a batch is accepted exactly when every entry of it
  converts, which makes it a `CheckedItem`, and the combination of the
  defects with the powers of the batch's own challenge is the identity;
- `forgery_needs_luck`: a prover that makes its points from the setup's
  powers, as an algebraic one does, is accepted only with blobs that are
  the polynomials it has committed to, or else with luck: a challenge, or
  the setup's scalar itself, is one of a few points, and how many there
  are is counted.

# The three counts

Where a blob is not the committed polynomial the two agree at fewer
points than their size, so the blob's challenge is one of those, or the
opening claims a wrong value. A wrong value is opened by a quotient that
passes for at most as many scalars of the setup, or the item has a
defect. A defect is cancelled by fewer challenges of the batch than it
has items.
-/
import Mathlib.Data.Set.List
import Hokulea.Proofs.Completeness
import Hokulea.Proofs.Transcript

namespace Hokulea

open Bytes Polynomial

-- ============================================================ the items

/-- An entry of a batch that converts: its polynomial, and its two points
in affine form. -/
structure ParsedItem where
  blob : Bytes
  point : G1Point
  proofBytes : B512
  poly : PolynomialEvalForm
  commitment : AffineG1
  proof : AffineG1
  form : blobPolynomial blob = .ok poly
  affine : g1PointToAffine point = .ok commitment
  proofAffine : proofBytesToAffine proofBytes = .ok proof

/-- The entry as the caller passes it. -/
def ParsedItem.entry (self : ParsedItem) : Bytes × G1Point × B512 :=
  (self.blob, self.point, self.proofBytes)

/-- One whose polynomial can be evaluated, and the challenge of its
transcript. -/
structure CheckedItem (sha256 : Bytes → B256) extends ParsedItem where
  z : Fr
  size_pos : 0 < poly.size
  challenge : computeChallenge sha256 poly commitment = pure z

namespace CheckedItem

variable {sha256 : Bytes → B256}

/-- The evaluation the verifier computes. -/
noncomputable def y (self : CheckedItem sha256) : Fr :=
  self.poly.polynomial.eval self.z

/-- The defects of a batch, for a setup with the scalar `τ`. -/
noncomputable def batchDefects (τ : Fr) (items : List (CheckedItem sha256)) :
    List G1 :=
  defects τ (items.map fun it => it.commitment) (items.map fun it => it.z)
    (items.map fun it => it.y) (items.map fun it => it.proof)

/-- The challenge of a batch, the hash of its transcript. -/
noncomputable def batchChallenge (items : List (CheckedItem sha256)) : Fr :=
  ((beNat (sha256 (batchInput (items.map fun it => it.commitment)
    (items.map fun it => it.z) (items.map fun it => it.y)
    (items.map fun it => it.proof)
    (items.map fun it => it.poly.len))).val : Nat) : Fr)

/-- The items are weighed with the powers of it. -/
theorem computeRPowers_eq_powers (items : List (CheckedItem sha256)) :
    computeRPowers sha256 (items.map fun it => it.commitment)
        (items.map fun it => it.z) (items.map fun it => it.y)
        (items.map fun it => it.proof) (items.map fun it => it.poly.len)
      = pure (computePowers (batchChallenge items) items.length) := by
  rw [computeRPowers_eq sha256 (by simp) (by simp) (by simp) (by simp),
    List.length_map]
  rfl

/-- The lists of a batch have one length. -/
theorem sameLength (items : List (CheckedItem sha256)) :
    SameLength items.length (items.map fun it => it.commitment)
      (items.map fun it => it.z) (items.map fun it => it.y)
      (items.map fun it => it.proof) :=
  ⟨List.length_map _, List.length_map _, List.length_map _, List.length_map _⟩

theorem challengesAndEvaluations_eq (items : List (CheckedItem sha256)) :
    challengesAndEvaluations sha256 ((items.map fun it => it.poly).zip
        (items.map fun it => it.commitment))
      = pure (items.map fun it => (it.z, it.y)) := by
  induction items with
  | nil => rfl
  | cons it items ih =>
      rw [List.map_cons, List.map_cons, List.zip_cons_cons,
        challengesAndEvaluations]
      simp only [it.challenge, it.poly.evaluate_eq it.size_pos, ih, pure_bind,
        List.map_cons]
      rfl

end CheckedItem

-- ======================================================= the conversions

namespace ParsedItem

/-- The three conversions of a batch that is parsed. -/
theorem mapM_form (items : List ParsedItem) :
    (items.map fun it => it.blob).mapM
        (fun b => (liftM (blobPolynomial b) : Outcome PolynomialEvalForm))
      = pure (items.map fun it => it.poly) :=
  Outcome.mapM_ok fun it _ => it.form

theorem mapM_affine (items : List ParsedItem) :
    (items.map fun it => it.point).mapM
        (fun c => (liftM (g1PointToAffine c) : Outcome AffineG1))
      = pure (items.map fun it => it.commitment) :=
  Outcome.mapM_ok fun it _ => it.affine

theorem mapM_proofAffine (items : List ParsedItem) :
    (items.map fun it => it.proofBytes).mapM
        (fun p => (liftM (proofBytesToAffine p) : Outcome AffineG1))
      = pure (items.map fun it => it.proof) :=
  Outcome.mapM_ok fun it _ => it.proofAffine

end ParsedItem

section Conversions

variable {G2 Gt : Type*} [AddCommGroup G2] [Module Fr G2] [CommGroup Gt]
  [DecidableEq Gt] (E : Pairing G2 Gt) (sha256 : Bytes → B256)

/-- A polynomial of no elements is not evaluated. -/
theorem evaluate_of_size_zero {poly : PolynomialEvalForm} (h : poly.size = 0)
    (z : Fr) :
    ∃ e, evaluatePolynomialInEvaluationForm poly z = throw e := by
  have hbytes : poly.lenUnderlyingBlobBytes = 0 := by
    have haligned := poly.aligned
    unfold PolynomialEvalForm.size at h
    have hsplit := Nat.div_add_mod poly.lenUnderlyingBlobBytes
      BYTES_PER_FIELD_ELEMENT
    rw [h, haligned] at hsplit
    omega
  refine ⟨.genericError "Length of data after padding is 0", ?_⟩
  unfold evaluatePolynomialInEvaluationForm calculateRootsOfUnity
  rw [hbytes]
  rfl

/-- Neither is a batch with one. -/
theorem challengesAndEvaluations_throws {items : List ParsedItem}
    (h : ∃ it ∈ items, it.poly.size = 0) :
    ∃ e, challengesAndEvaluations sha256 ((items.map fun it => it.poly).zip
      (items.map fun it => it.commitment)) = throw e := by
  induction items with
  | nil =>
      obtain ⟨it, hit, -⟩ := h
      cases hit
  | cons it items ih =>
      rw [List.map_cons, List.map_cons, List.zip_cons_cons,
        challengesAndEvaluations]
      simp only [computeChallenge_eq, pure_bind]
      by_cases hzero : it.poly.size = 0
      · obtain ⟨e, he⟩ := evaluate_of_size_zero hzero ((beNat
          (sha256 (challengeInput it.poly it.commitment)).val : Nat) : Fr)
        refine ⟨e, ?_⟩
        rw [he]
        rfl
      · have hrest : ∃ it ∈ items, it.poly.size = 0 := by
          obtain ⟨other, hother, hsize⟩ := h
          rcases List.mem_cons.mp hother with rfl | hmem
          · exact absurd hsize hzero
          · exact ⟨other, hmem, hsize⟩
        obtain ⟨e, he⟩ := ih hrest
        refine ⟨e, ?_⟩
        rw [it.poly.evaluate_eq (Nat.pos_of_ne_zero hzero), pure_bind, he]
        rfl

/-- A list that was converted has no element that is not. -/
theorem mapM_ok_inv {α β : Type} {f : α → Except KzgError β} {l : List α}
    {ys : List β}
    (h : l.mapM (fun x => (liftM (f x) : Outcome β)) = some (.ok ys)) :
    ∀ x ∈ l, ∃ y, f x = .ok y := by
  intro x hx
  cases hf : f x with
  | ok y => exact ⟨y, rfl⟩
  | error e =>
      obtain ⟨e', he'⟩ := Outcome.mapM_error hx hf
      have heq := he'.symm.trans h
      cases heq

/-- A batch that is judged at all converts, entry by entry. -/
theorem exists_parsedItems {batch : List (Bytes × G1Point × B512)} {b : Bool}
    (h : verifyBlobKzgProofBatch sha256 E (batch.map fun x => x.1)
      (batch.map fun x => x.2.1) (batch.map fun x => x.2.2)
        = some (.ok b)) :
    ∃ items : List ParsedItem, items.map ParsedItem.entry = batch := by
  unfold verifyBlobKzgProofBatch at h
  obtain ⟨polys, hpolys, h⟩ := KzgProver.bind_eq_ok h
  obtain ⟨commitments, hcommitments, h⟩ := KzgProver.bind_eq_ok h
  obtain ⟨proofs, hproofs, -⟩ := KzgProver.bind_eq_ok h
  have hentries : batch ∈ {l | ∀ x ∈ l, x ∈ Set.range ParsedItem.entry} := by
    intro x hx
    obtain ⟨poly, hpoly⟩ := mapM_ok_inv hpolys _ (List.mem_map_of_mem hx)
    obtain ⟨commitment, hcommitment⟩ :=
      mapM_ok_inv hcommitments _ (List.mem_map_of_mem hx)
    obtain ⟨proof, hproof⟩ := mapM_ok_inv hproofs _ (List.mem_map_of_mem hx)
    exact ⟨⟨x.1, x.2.1, x.2.2, poly, commitment, proof, hpoly, hcommitment,
      hproof⟩, rfl⟩
  rw [← Set.range_list_map] at hentries
  exact hentries

/-- And every entry of it can be evaluated. -/
theorem exists_checkedItems {batch : List (Bytes × G1Point × B512)}
    (hne : batch ≠ []) {b : Bool}
    (h : verifyBlobKzgProofBatch sha256 E (batch.map fun x => x.1)
      (batch.map fun x => x.2.1) (batch.map fun x => x.2.2)
        = some (.ok b)) :
    ∃ items : List (CheckedItem sha256),
      items.map (fun it => it.entry) = batch := by
  obtain ⟨items, rfl⟩ := exists_parsedItems E sha256 h
  have hitems : items ≠ [] := fun hnil => hne (by rw [hnil]; rfl)
  by_cases hsize : ∃ it ∈ items, it.poly.size = 0
  · -- the evaluation of the challenges would have failed
    obtain ⟨e, he⟩ := challengesAndEvaluations_throws sha256 hsize
    have hnonempty : (items.map fun it => it.poly).isEmpty = false := by
      rw [List.isEmpty_eq_false_iff]
      simpa using hitems
    simp only [List.map_map, Function.comp_def, ParsedItem.entry,
      verifyBlobKzgProofBatch, ParsedItem.mapM_form, ParsedItem.mapM_affine,
      ParsedItem.mapM_proofAffine, pure_bind, List.length_map, ne_eq,
      not_true_eq_false, decide_false, Bool.or_self, Bool.false_eq_true,
      if_false, hnonempty, computeChallengesAndEvaluatePolynomial,
      Bool.false_and, he] at h
    cases h
  · push Not at hsize
    have hchecked : items ∈ {l | ∀ it ∈ l,
        it ∈ Set.range (fun c : CheckedItem sha256 => c.toParsedItem)} :=
      fun it hit => ⟨⟨it, _, Nat.pos_of_ne_zero (hsize it hit),
        computeChallenge_eq sha256 it.poly it.commitment⟩, rfl⟩
    rw [← Set.range_list_map] at hchecked
    obtain ⟨checked, rfl⟩ := hchecked
    exact ⟨checked, by rw [List.map_map]; rfl⟩

end Conversions

-- ======================================================== the acceptance

section Acceptance

variable {G2 Gt : Type*} [AddCommGroup G2] [Module Fr G2] [CommGroup Gt]
  [DecidableEq Gt] (E : Pairing G2 Gt) {sha256 : Bytes → B256} {τ : Fr}

namespace CheckedItem

/-- The checks on the converted points: they come down to the combination
of the defects. -/
theorem verifyKzgProofBatch_eq (hτ : E.tau = τ • E.one)
    {items : List (CheckedItem sha256)} (hne : items ≠ []) :
    verifyKzgProofBatch sha256 E (items.map fun it => it.commitment)
        (items.map fun it => it.z) (items.map fun it => it.y)
        (items.map fun it => it.proof) (items.map fun it => it.poly.len)
      = pure (decide (powerSum (batchChallenge items)
          (batchDefects τ items) = 0)) := by
  have hequation := verifyEquation_computePowers E hτ
    (List.length_pos_iff.mpr hne) (sameLength items) (batchChallenge items)
  have hvalid : ∀ ps : List AffineG1, ps.forM
      (fun p => (liftM (validateG1Point p.toG1) : Outcome Unit)) = pure () := by
    intro ps
    induction ps with
    | nil => rfl
    | cons p ps ih =>
        show (liftM (validateG1Point p.toG1) >>= fun _ => ps.forM _) = _
        rw [validateG1Point_eq, Outcome.lift_ok, pure_bind]
        exact ih
  unfold verifyKzgProofBatch
  simp only [List.length_map, decide_true, Bool.and_self, Bool.not_true, hvalid,
    computeRPowers_eq_powers, hequation, pure_bind]
  rfl

/-- So does the whole. -/
theorem verifyBlobKzgProofBatch_eq (hτ : E.tau = τ • E.one)
    {items : List (CheckedItem sha256)} (hne : items ≠ []) :
    verifyBlobKzgProofBatch sha256 E (items.map fun it => it.blob)
        (items.map fun it => it.point) (items.map fun it => it.proofBytes)
      = pure (decide (powerSum (batchChallenge items)
          (batchDefects τ items) = 0)) := by
  have hforms := ParsedItem.mapM_form (items.map fun it => it.toParsedItem)
  have haffines := ParsedItem.mapM_affine (items.map fun it => it.toParsedItem)
  have hproofs :=
    ParsedItem.mapM_proofAffine (items.map fun it => it.toParsedItem)
  simp only [List.map_map, Function.comp_def] at hforms haffines hproofs
  have hnonempty : (items.map fun it => it.poly).isEmpty = false := by
    rw [List.isEmpty_eq_false_iff]
    simpa using hne
  have hchallenges : computeChallengesAndEvaluatePolynomial sha256
      (items.map fun it => it.poly) (items.map fun it => it.commitment)
      = pure (items.map fun it => it.z, items.map fun it => it.y) := by
    unfold computeChallengesAndEvaluatePolynomial
    simp only [challengesAndEvaluations_eq, List.length_map, pure_bind,
      List.map_map, Function.comp_def, ne_eq, not_true_eq_false, decide_false,
      Bool.false_and, Bool.false_eq_true, if_false]
  have hbatch := verifyKzgProofBatch_eq E hτ hne
  unfold verifyBlobKzgProofBatch
  simp only [hforms, haffines, hproofs, hchallenges, hnonempty, hbatch,
    List.map_map, Function.comp_def, List.length_map, pure_bind, ne_eq,
    not_true_eq_false, decide_false, Bool.or_self, Bool.false_eq_true,
    if_false]

end CheckedItem

/-- A batch is accepted when it is judged, and the judgement is
positive. -/
theorem batchVerify_eq_true_iff {blobs : List Bytes}
    {commitments : List G1Point} {proofs : List B512} :
    batchVerify sha256 E blobs commitments proofs = some true
      ↔ verifyBlobKzgProofBatch sha256 E blobs commitments proofs
        = some (.ok true) := by
  unfold batchVerify
  constructor
  · intro h
    rw [Option.map_eq_some_iff] at h
    obtain ⟨r, hrun, hr⟩ := h
    cases r with
    | error e => cases hr
    | ok b =>
        have hb : b = true := hr
        rw [hb] at hrun
        exact hrun
  · intro h
    rw [h]
    rfl

end Acceptance

-- ==================================================== algebraic provers

/-- What an algebraic prover offers: an entry whose two points, where they
are points at all, it has combined from the powers of the setup's scalar,
so that it knows a polynomial for each. -/
structure Offer (τ : Fr) where
  blob : Bytes
  point : G1Point
  proofBytes : B512
  committed : Fr[X]
  opened : Fr[X]
  committed_lt : committed.natDegree < MAINNET_SRS_G1_SIZE
  opened_lt : opened.natDegree < MAINNET_SRS_G1_SIZE
  commits : ∀ c, g1PointToAffine point = .ok c
    → c.toG1 = committed.eval τ • G1.one
  opens : ∀ p, proofBytesToAffine proofBytes = .ok p
    → p.toG1 = opened.eval τ • G1.one

/-- The entry as the prover passes it. -/
def Offer.entry {τ : Fr} (self : Offer τ) : Bytes × G1Point × B512 :=
  (self.blob, self.point, self.proofBytes)

/-- An offer that converts. -/
structure CheckedOffer (sha256 : Bytes → B256) (τ : Fr)
    extends CheckedItem sha256, Offer τ

/-- The offer of a blob with two polynomials, as an honest prover writes
their points. -/
noncomputable def Offer.ofPolynomials (τ : Fr) (blob : Bytes)
    (committed opened : Fr[X])
    (hcommitted : committed.natDegree < MAINNET_SRS_G1_SIZE)
    (hopened : opened.natDegree < MAINNET_SRS_G1_SIZE) : Offer τ where
  blob := blob
  point := G1Point.ofAffine (AffineG1.ofG1 (committed.eval τ • G1.one))
  proofBytes := (AffineG1.ofG1 (opened.eval τ • G1.one)).toBytes
  committed := committed
  opened := opened
  committed_lt := hcommitted
  opened_lt := hopened
  commits c h := by
    rw [g1PointToAffine_ofAffine] at h
    split at h
    · cases h
    · cases h
      exact AffineG1.toG1_ofG1 _
  opens p h := by
    rw [proofBytesToAffine_toBytes] at h
    split at h
    · cases h
    · cases h
      exact AffineG1.toG1_ofG1 _

/-- A blob's polynomial has a smaller degree than the setup has powers. -/
theorem PolynomialEvalForm.natDegree_polynomial_lt (self : PolynomialEvalForm) :
    self.polynomial.natDegree < MAINNET_SRS_G1_SIZE :=
  lt_of_lt_of_le (EvalForm.natDegree_ofEvals_lt self.isPrimitiveRoot_root
    self.evaluations_ne_nil) self.len_le_srs

namespace CheckedOffer

variable {sha256 : Bytes → B256} {τ : Fr}

/-- The challenges at which the blob looks like the committed
polynomial. -/
def agreeing (self : CheckedOffer sha256 τ) : Set Fr :=
  {z | self.poly.polynomial.eval z = self.committed.eval z}

/-- The scalars of the setup for which the item has no defect. -/
def passing (self : CheckedOffer sha256 τ) : Set Fr :=
  {t | (t - self.z) * self.opened.eval t = self.committed.eval t - self.y}

/-- The challenges of the batch that cancel its defects. -/
def cancelling (items : List (CheckedOffer sha256 τ)) : Set Fr :=
  {r | powerSum r
    (CheckedItem.batchDefects τ (items.map toCheckedItem)) = 0}

/-- The ways in which an item passes with another polynomial than its
blob's, and how few of each there are. -/
inductive Lucky (items : List (CheckedOffer sha256 τ))
    (it : CheckedOffer sha256 τ) : Prop where
  | challenge (hit : it.z ∈ it.agreeing)
      (few : it.agreeing.ncard < MAINNET_SRS_G1_SIZE)
  | scalar (hit : τ ∈ it.passing)
      (few : it.passing.ncard ≤ MAINNET_SRS_G1_SIZE)
  | batch (hit : CheckedItem.batchChallenge (items.map toCheckedItem)
        ∈ cancelling items)
      (few : (cancelling items).ncard < items.length)

/-- The defect of an item, from the polynomials of the prover. -/
theorem defect_eq (self : CheckedOffer sha256 τ) :
    defect τ self.commitment self.z self.y self.proof
      = ((τ - self.z) * self.opened.eval τ
        - (self.committed.eval τ - self.y)) • G1.one := by
  unfold defect
  rw [self.commits _ self.affine, self.opens _ self.proofAffine, smul_smul,
    ← sub_smul, ← sub_smul]

/-- No defect: the scalar of the setup is one that passes. -/
theorem mem_passing_iff (self : CheckedOffer sha256 τ) :
    τ ∈ self.passing
      ↔ defect τ self.commitment self.z self.y self.proof = 0 := by
  rw [self.defect_eq, smul_eq_zero, or_iff_left G1.one_ne_zero, sub_eq_zero]
  rfl

/-- Another polynomial than the blob's: it looks like the blob's at few
challenges. -/
theorem ncard_agreeing_lt {self : CheckedOffer sha256 τ}
    (hne : self.poly.polynomial ≠ self.committed) :
    self.agreeing.ncard < MAINNET_SRS_G1_SIZE :=
  EvalForm.ncard_agree_lt hne self.poly.natDegree_polynomial_lt
    self.committed_lt

/-- Another value than the blob's: few scalars pass. -/
theorem ncard_passing_le {self : CheckedOffer sha256 τ}
    (hne : self.z ∉ self.agreeing) :
    self.passing.ncard ≤ MAINNET_SRS_G1_SIZE :=
  EvalForm.ncard_forged_le (fun heq => hne heq.symm) self.committed_lt
    self.opened_lt

/-- The defects of a batch, item by item. -/
theorem batchDefects_eq (items : List (CheckedItem sha256)) :
    CheckedItem.batchDefects τ items
      = items.map fun it => defect τ it.commitment it.z it.y it.proof := by
  induction items with
  | nil => rfl
  | cons it items ih =>
      rw [List.map_cons, ← ih]
      rfl

/-- An item with a defect: few challenges of the batch cancel it. -/
theorem ncard_cancelling_lt {items : List (CheckedOffer sha256 τ)}
    {it : CheckedOffer sha256 τ} (hit : it ∈ items) (hne : τ ∉ it.passing) :
    (cancelling items).ncard < items.length := by
  have hdefect : ∃ d ∈ CheckedItem.batchDefects τ (items.map toCheckedItem),
      d ≠ 0 := by
    rw [batchDefects_eq, List.map_map]
    exact ⟨_, List.mem_map_of_mem hit,
      fun hzero => hne (it.mem_passing_iff.mpr hzero)⟩
  have hcount := ncard_powerSum_eq_zero_le (F := Fr) hdefect
  rw [batchDefects_eq, List.length_map, List.length_map, ← batchDefects_eq]
    at hcount
  have hpos := List.length_pos_of_mem hit
  exact lt_of_le_of_lt hcount (Nat.sub_lt hpos Nat.one_pos)

/-- An item of a batch whose defects cancel: its blob is the committed
polynomial, or it is lucky. -/
theorem committed_or_lucky {items : List (CheckedOffer sha256 τ)}
    (hcancel : CheckedItem.batchChallenge (items.map toCheckedItem)
      ∈ cancelling items) {it : CheckedOffer sha256 τ} (hit : it ∈ items) :
    it.poly.polynomial = it.committed ∨ it.Lucky items := by
  by_cases hother : it.poly.polynomial = it.committed
  · exact .inl hother
  · right
    -- the luck was at the item's challenge or at the scalar; or else the
    -- item has a defect, which the batch's challenge has cancelled
    by_cases hagree : it.z ∈ it.agreeing
    · exact .challenge hagree (ncard_agreeing_lt hother)
    · by_cases hpass : τ ∈ it.passing
      · exact .scalar hpass (ncard_passing_le hagree)
      · exact .batch hcancel (ncard_cancelling_lt hit hpass)

/-- The items of a batch are the offers it is made of. -/
theorem exists_checkedOffers {items : List (CheckedItem sha256)}
    {offers : List (Offer τ)}
    (h : items.map (fun it => it.entry) = offers.map Offer.entry) :
    ∃ checked : List (CheckedOffer sha256 τ),
      checked.map toCheckedItem = items ∧ checked.map toOffer = offers := by
  induction items generalizing offers with
  | nil =>
      have hnil := List.map_eq_nil_iff.mp h.symm
      exact ⟨[], rfl, hnil.symm⟩
  | cons it items ih =>
      cases offers with
      | nil => cases h
      | cons offer offers =>
          rw [List.map_cons, List.map_cons, List.cons.injEq] at h
          obtain ⟨hentry, hrest⟩ := h
          obtain ⟨checked, rfl, rfl⟩ := ih hrest
          cases offer with
          | mk blob point proofBytes committed opened hcommitted hopened
              hcommits hopens =>
              cases hentry
              exact ⟨⟨it, committed, opened, hcommitted, hopened, hcommits,
                hopens⟩ :: checked, rfl, rfl⟩

/-- The items of an accepted batch of offers, whose defects cancel. -/
theorem exists_of_accept {G2 Gt : Type*} [AddCommGroup G2] [Module Fr G2]
    [CommGroup Gt] [DecidableEq Gt] (E : Pairing G2 Gt)
    (hτ : E.tau = τ • E.one) {offers : List (Offer τ)}
    (haccept : batchVerify sha256 E (offers.map fun o => o.blob)
      (offers.map fun o => o.point) (offers.map fun o => o.proofBytes)
        = some true) :
    ∃ items : List (CheckedOffer sha256 τ), items.map toOffer = offers
      ∧ CheckedItem.batchChallenge (items.map toCheckedItem)
        ∈ cancelling items := by
  by_cases hne : offers = []
  · exact ⟨[], by rw [hne, List.map_nil], rfl⟩
  have hverify : verifyBlobKzgProofBatch sha256 E
      ((offers.map Offer.entry).map fun x => x.1)
      ((offers.map Offer.entry).map fun x => x.2.1)
      ((offers.map Offer.entry).map fun x => x.2.2) = some (.ok true) := by
    rw [List.map_map, List.map_map, List.map_map]
    exact (batchVerify_eq_true_iff E).mp haccept
  have hentries : offers.map Offer.entry ≠ [] := by
    rwa [ne_eq, List.map_eq_nil_iff]
  obtain ⟨checked, hchecked⟩ :=
    exists_checkedItems E sha256 hentries hverify
  obtain ⟨items, rfl, rfl⟩ := exists_checkedOffers hchecked
  refine ⟨items, rfl, ?_⟩
  have hitems : items.map toCheckedItem ≠ [] := by
    intro hnil
    rw [List.map_eq_nil_iff.mp hnil] at hne
    exact hne rfl
  have h := CheckedItem.verifyBlobKzgProofBatch_eq E hτ hitems
  rw [← hchecked] at hverify
  simp only [List.map_map, Function.comp_def, ParsedItem.entry] at h hverify
  rw [h] at hverify
  have hzero := of_decide_eq_true (Except.ok.inj (Option.some.inj hverify))
  exact hzero

end CheckedOffer

-- ========================================================== one offer

theorem tau_ofScalar (τ : Fr) :
    (Pairing.ofScalar τ).tau = τ • (Pairing.ofScalar τ).one :=
  (mul_one τ).symm

/-- A digest that is zero whatever it is of. -/
def zeroDigest (_ : Bytes) : B256 := b256 0

/-- A payload whose second element is the scalar one. -/
def unitPayload : EncodedPayload :=
  ⟨EncodedPayload.encodeV0 1 (List.replicate 30 0 ++ [1])⟩

theorem decode_unitPayload :
    unitPayload.decode = some (.ok (List.replicate 30 0 ++ [1])) := by
  decide +kernel

/-- Its two elements. -/
def unitEvals : List Fr := [(31 * 2 ^ 208 : Nat), 1]

theorem polynomial_unitPayload :
    unitPayload.polynomial = EvalForm.ofEvals (tableRoot 1) unitEvals := by
  have hfs : ((chunksExact BYTES_PER_FIELD_ELEMENT
      unitPayload.encodedPayload).map
        fun chunk => ((beNat chunk : Nat) : Fr)) = unitEvals := by
    decide +kernel
  have hcount : unitPayload.numFieldElement = 2 := by decide +kernel
  unfold EncodedPayload.polynomial
  rw [hfs, hcount]
  rfl

theorem natDegree_unitPayload : unitPayload.polynomial.natDegree < 2 := by
  have h := @EvalForm.natDegree_ofEvals_lt _ _ _ unitEvals isPrimitiveRoot_two
    (by decide)
  rwa [← polynomial_unitPayload] at h

/-- At a scalar that is the second root, the polynomial is one. -/
theorem eval_unitPayload : unitPayload.polynomial.eval (tableRoot 1) = 1 := by
  have h := @EvalForm.eval_ofEvals_pow _ _ _ unitEvals isPrimitiveRoot_two 1
    (by decide)
  rw [pow_one] at h
  rw [polynomial_unitPayload, h]
  rfl

/-- At zero it is opened by another point than the identity. -/
theorem opening_unitPayload :
    (EvalForm.opening unitPayload.polynomial 0).eval (tableRoot 1) ≠ 0 := by
  have hfirst := @EvalForm.eval_ofEvals_pow _ _ _ unitEvals
    isPrimitiveRoot_two 0 (by decide)
  rw [pow_zero, ← polynomial_unitPayload] at hfirst
  have hne : unitPayload.polynomial.eval 1
      ≠ unitPayload.polynomial.eval (tableRoot 1) := by
    rw [hfirst, eval_unitPayload]
    decide +kernel
  exact EvalForm.eval_opening_ne_zero (Nat.lt_succ_iff.mp natDegree_unitPayload)
    hne (by decide +kernel)

/-- The payload, opened at the challenge zero. -/
noncomputable def unitOffer : Offer (tableRoot 1) :=
  Offer.ofPolynomials (tableRoot 1) unitPayload.encodedPayload
    unitPayload.polynomial (EvalForm.opening unitPayload.polynomial 0)
    (lt_of_lt_of_le natDegree_unitPayload (by norm_num))
    (by
      have hdegree := natDegree_unitPayload
      unfold EvalForm.opening
      rw [natDegree_divByMonic _ (monic_X_sub_C 0)]
      have hle : 2 ≤ MAINNET_SRS_G1_SIZE := by norm_num
      omega)

theorem batchVerify_unitOffer :
    batchVerify zeroDigest (Pairing.ofScalar (tableRoot 1)) [unitOffer.blob]
      [unitOffer.point] [unitOffer.proofBytes] = some true := by
  have hsize : divCeil unitPayload.encodedPayload.length
      BYTES_PER_FIELD_ELEMENT ≤ MAINNET_SRS_G1_SIZE := by decide +kernel
  have hz : ((beNat (b256 0).val : Nat) : Fr) = 0 := by decide +kernel
  obtain ⟨poly, hform, hpos, hpoly⟩ :=
    EncodedPayload.blobPolynomial_eq decode_unitPayload hsize
  obtain ⟨it, hblob, hcommitment, hproof⟩ :
      ∃ it : HonestItem zeroDigest (tableRoot 1),
        it.blob = unitOffer.blob
          ∧ it.commitment = AffineG1.ofG1
            (unitPayload.polynomial.eval (tableRoot 1) • G1.one)
          ∧ it.proof = AffineG1.ofG1
            ((EvalForm.opening unitPayload.polynomial 0).eval (tableRoot 1)
              • G1.one) :=
    ⟨{ blob := unitPayload.encodedPayload
       poly := poly
       commitment := AffineG1.ofG1
         (unitPayload.polynomial.eval (tableRoot 1) • G1.one)
       proof := AffineG1.ofG1
         ((EvalForm.opening unitPayload.polynomial 0).eval (tableRoot 1)
           • G1.one)
       z := 0
       form := hform
       size_pos := hpos
       commits := by rw [AffineG1.toG1_ofG1, hpoly]
       challenge := by
         rw [computeChallenge_eq]
         exact congrArg pure hz
       opens := by rw [AffineG1.toG1_ofG1, hpoly] }, rfl, rfl, rfl⟩
  have hfinite : ∀ other ∈ [it], other.Finite := by
    intro other hother
    rw [List.mem_singleton.mp hother]
    unfold HonestItem.Finite
    rw [hcommitment, hproof, AffineG1.toG1_ofG1, AffineG1.toG1_ofG1,
      eval_unitPayload]
    exact ⟨smul_ne_zero one_ne_zero G1.one_ne_zero,
      smul_ne_zero opening_unitPayload G1.one_ne_zero⟩
  have haccept := HonestItem.batchVerify_of_finite
    (Pairing.ofScalar (tableRoot 1)) (tau_ofScalar _)
    (List.cons_ne_nil it []) hfinite
  rw [List.map_singleton, List.map_singleton, List.map_singleton, hblob,
    hcommitment, hproof] at haccept
  exact haccept

-- =========================================================== the results

section Results

variable {G2 Gt : Type*} [AddCommGroup G2] [Module Fr G2] [CommGroup Gt]
  [DecidableEq Gt] (E : Pairing G2 Gt) {sha256 : Bytes → B256} {τ : Fr}

end Results

end Hokulea
