/-
What a witness binds the zkVM to, where batches are verified over
substrate-bn.

# What is proved

`decoded_runs_agree`: two accepted witnesses, from two algebraic provers,
lead any driver to the same answers if all their payloads decode; or one
of the provers was lucky, in one of the ways that are counted, or their
polynomials for one point meet at the scalar of the setup, as they do at
few.

# How

An item that was not lucky holds the polynomial that its prover has
committed to, at the certificate's own point and of the certificate's own
size. So two of them, for one certificate, hold one list of scalars, and a
payload that decodes is determined by its scalars. What the provider
answers is then a function of the certificate (`Answering`), and both runs
are the run over that function.
-/
import Hokulea.Proofs.Binding
import Hokulea.Proofs.Twins

namespace Hokulea

open Bytes Machine Polynomial AltDACommitment EigenDADataSource
  PreloadedEigenDAPreimageProvider

-- ============================================================ two items

namespace Offer

variable {τ : Fr}

/-- The scalars of the setup for which the polynomials of two offers have
one commitment. -/
def meeting (self other : Offer τ) : Set Fr :=
  {t | self.committed.eval t = other.committed.eval t}

/-- Two offers of one point whose polynomials meet at the scalar of the
setup, and few scalars at which they do. -/
structure Colliding (self other : Offer τ) : Prop where
  hit : τ ∈ self.meeting other
  few : (self.meeting other).ncard < MAINNET_SRS_G1_SIZE

end Offer

-- ======================================================= one polynomial

/-- The size of a parsed polynomial is that of its blob. -/
theorem size_of_blobPolynomial {blob : Bytes} {poly : PolynomialEvalForm}
    (h : blobPolynomial blob = .ok poly) :
    blob.length % BYTES_PER_FIELD_ELEMENT = 0
      ∧ poly.size = blob.length / BYTES_PER_FIELD_ELEMENT := by
  have hmod := (evaluations_of_blobPolynomial h).1
  unfold blobPolynomial at h
  rw [toFrArrayCanonical_eq hmod] at h
  have hnew : PolynomialEvalForm.new _ = .ok poly := h
  obtain ⟨-, -, hbytes⟩ := PolynomialEvalForm.new_eq_ok_iff.mp hnew
  rw [List.length_map, length_chunksExact] at hbytes
  refine ⟨hmod, ?_⟩
  unfold PolynomialEvalForm.size
  rw [hbytes, Nat.mul_div_cancel _ (by norm_num)]

/-- Two canonical blobs of one size that are parsed as one polynomial are
one blob. -/
theorem blob_eq_of_polynomial {blob blob' : Bytes}
    {poly poly' : PolynomialEvalForm} (h : blobPolynomial blob = .ok poly)
    (h' : blobPolynomial blob' = .ok poly')
    (hsize : blob.length / BYTES_PER_FIELD_ELEMENT
      = blob'.length / BYTES_PER_FIELD_ELEMENT)
    (hpoly : poly.polynomial = poly'.polynomial)
    (hcanonical : CanonicalChunks blob) (hcanonical' : CanonicalChunks blob') :
    blob = blob' := by
  obtain ⟨hmod, hself⟩ := size_of_blobPolynomial h
  obtain ⟨hmod', hother⟩ := size_of_blobPolynomial h'
  have hsizes : poly.size = poly'.size := by
    rw [hself, hother, hsize]
  have hroot : poly.root = poly'.root := by
    unfold PolynomialEvalForm.root
    rw [hsizes]
  have hlength : poly.evaluations.length = poly'.evaluations.length := by
    rw [poly.padded, poly'.padded]
    exact congrArg nextPowerOfTwo hsizes
  -- the evaluations are the values at the powers of the root
  have hevals : poly.evaluations = poly'.evaluations := by
    apply List.ext_getElem hlength
    intro i hi hi'
    rw [← EvalForm.eval_ofEvals_pow poly.isPrimitiveRoot_root hi,
      ← EvalForm.eval_ofEvals_pow poly'.isPrimitiveRoot_root hi', hroot]
    have hvalue := congrArg (eval (poly.root ^ i)) hpoly
    unfold PolynomialEvalForm.polynomial at hvalue
    rw [hroot] at hvalue
    exact hvalue
  have hbytes : blob.length = blob'.length := by
    rw [← Nat.div_mul_cancel (Nat.dvd_of_mod_eq_zero hmod),
      ← Nat.div_mul_cancel (Nat.dvd_of_mod_eq_zero hmod'), hsize]
  exact eq_of_evaluations hbytes hcanonical hcanonical' h h' hevals

-- ===================================================== what commits to it

/-- The affine point that coordinates are read as, each reduced by the
modulus. -/
structure G1Point.ReadsAs (point : G1Point) (c : AffineG1) : Prop where
  x : ((point.x.toNat : Nat) : Fq) = c.x
  y : ((point.y.toNat : Nat) : Fq) = c.y

/-- It is one point. -/
theorem G1Point.ReadsAs.unique {point : G1Point} {c c' : AffineG1}
    (h : point.ReadsAs c) (h' : point.ReadsAs c') : c = c' := by
  have hx := h.x.symm.trans h'.x
  have hy := h.y.symm.trans h'.y
  cases c with
  | mk x y _ =>
      cases c' with
      | mk x' y' _ =>
          cases hx
          cases hy
          rfl

/-- The verifier's conversion reads a point so. -/
theorem readsAs_of_affine {point : G1Point} {c : AffineG1}
    (h : g1PointToAffine point = .ok c) : point.ReadsAs c := by
  have hread : ∀ n : Nat, n < 2 ^ 256 →
      Fq.fromBeBytesModOrder (beBytes 32 n) = .ok ((n : Nat) : Fq) := by
    intro n hn
    unfold Fq.fromBeBytesModOrder
    rw [if_pos (length_beBytes 32 n), beNat_beBytes hn]
  have hnew : (AffineG1.new ((point.x.toNat : Nat) : Fq)
      ((point.y.toNat : Nat) : Fq)).mapError
        (fun _ => KzgError.notOnCurveError "commitment not on curve")
      = .ok c := by
    unfold g1PointToAffine at h
    rw [hread _ point.x.isLt, hread _ point.y.isLt] at h
    exact h
  unfold AffineG1.new at hnew
  split at hnew
  next hcurve =>
    cases hnew
    exact ⟨rfl, rfl⟩
  next => cases hnew

/-- So are the coordinates of a point that was written. -/
theorem readsAs_ofAffine (c : AffineG1) : (G1Point.ofAffine c).ReadsAs c := by
  have hcoord : ∀ a : Fq,
      (((BitVec.ofNat 256 a.val).toNat : Nat) : Fq) = a := by
    intro a
    rw [toNat_coordinate, ZMod.natCast_zmod_val]
  exact ⟨hcoord c.x, hcoord c.y⟩

/-- Two polynomials with one commitment: they are one, or they meet at the
scalar of the setup, as they do at few. -/
theorem eq_or_meeting {τ : Fr} {p q : Fr[X]}
    (hp : p.natDegree < MAINNET_SRS_G1_SIZE)
    (hq : q.natDegree < MAINNET_SRS_G1_SIZE)
    (h : p.eval τ • G1.one = q.eval τ • G1.one) :
    p = q ∨ p.eval τ = q.eval τ
      ∧ {t | p.eval t = q.eval t}.ncard < MAINNET_SRS_G1_SIZE := by
  by_cases heq : p = q
  · exact .inl heq
  · have hsmul : (p.eval τ - q.eval τ) • G1.one = 0 := by
      rw [sub_smul, h, sub_self]
    have hzero := (smul_eq_zero.mp hsmul).resolve_right G1.one_ne_zero
    exact .inr ⟨sub_eq_zero.mp hzero, EvalForm.ncard_agree_lt heq hp hq⟩

/-- A payload of its commitment's length, canonical, and read as a
polynomial that the commitment commits to. -/
structure CommitsTo (τ : Fr) (p : Fr[X])
    (entry : AltDACommitment × EncodedPayload) : Prop where
  counted : entry.2.numFieldElement = entry.1.getNumFieldElement
  canonical : CanonicalChunks entry.2.encodedPayload
  form : ∃ poly, blobPolynomial entry.2.encodedPayload = .ok poly
    ∧ poly.polynomial = p
  point : ∃ c, entry.1.getKzgCommitment.ReadsAs c
    ∧ c.toG1 = p.eval τ • G1.one

namespace CommitsTo

variable {τ : Fr} {p q : Fr[X]} {e e' : AltDACommitment × EncodedPayload}

theorem natDegree_lt (h : CommitsTo τ p e) :
    p.natDegree < MAINNET_SRS_G1_SIZE := by
  obtain ⟨poly, -, rfl⟩ := h.form
  exact poly.natDegree_polynomial_lt

/-- For one point and size there is one such payload, or two polynomials
that meet. -/
theorem payload_eq_or_meeting (h : CommitsTo τ p e) (h' : CommitsTo τ q e')
    (hpoint : e.1.getKzgCommitment = e'.1.getKzgCommitment)
    (hsize : e.1.getNumFieldElement = e'.1.getNumFieldElement) :
    e.2.encodedPayload = e'.2.encodedPayload ∨ p.eval τ = q.eval τ
      ∧ {t | p.eval t = q.eval t}.ncard < MAINNET_SRS_G1_SIZE := by
  obtain ⟨c, hc, hp⟩ := h.point
  obtain ⟨c', hc', hq⟩ := h'.point
  rw [← hpoint] at hc'
  have hcommits : p.eval τ • G1.one = q.eval τ • G1.one := by
    rw [← hp, ← hq, hc.unique hc']
  rcases eq_or_meeting h.natDegree_lt h'.natDegree_lt hcommits with rfl | hmeet
  · left
    obtain ⟨poly, hform, hpoly⟩ := h.form
    obtain ⟨poly', hform', hpoly'⟩ := h'.form
    have hcount : e.2.numFieldElement = e'.2.numFieldElement := by
      rw [h.counted, h'.counted, hsize]
    exact blob_eq_of_polynomial hform hform' hcount (hpoly.trans hpoly'.symm)
      h.canonical h'.canonical
  · exact .inr hmeet

end CommitsTo

-- ======================================================= two witnesses

/-- The entry of a batch that an entry of a witness is. -/
def batchEntry (e : AltDACommitment × EncodedPayload × B512) :
    Bytes × G1Point × B512 :=
  (e.2.1.encodedPayload, e.1.getKzgCommitment, e.2.2)

section Provers

variable (sha256 : Bytes → B256) {τ : Fr}

/-- An offer that is judged in its batch, and there is lucky. -/
def LuckyIn (offers : List (Offer τ)) : Prop :=
  ∃ items : List (CheckedOffer sha256 τ), items.map CheckedOffer.toOffer = offers
    ∧ ∃ it ∈ items, it.Lucky items

/-- One of two provers was lucky, or two of their offers collide. -/
inductive Forged (offers offers' : List (Offer τ)) : Prop where
  | first (h : LuckyIn sha256 offers)
  | second (h : LuckyIn sha256 offers')
  | collision (o o' : Offer τ) (ho : o ∈ offers ++ offers')
      (ho' : o' ∈ offers ++ offers') (h : o.Colliding o')

variable {sha256}

/-- In an accepted witness, every canonical payload is the polynomial of
an offer, or there was luck. -/
theorem commitsTo_or_luckyIn {G2 Gt : Type*} [AddCommGroup G2] [Module Fr G2]
    [CommGroup Gt] [DecidableEq Gt] {E : Pairing G2 Gt}
    (hτ : E.tau = τ • E.one) {head : L1Head} {V : CanoeVerifier}
    {A : CanoeVerifierAddressFetcher} {w : EigenDAWitness}
    {pre : PreloadedEigenDAPreimageProvider}
    (h : fromWitness w head V A (batchVerify sha256 E) = some pre)
    (hcanonical : ∀ e ∈ w.encodedPayloads,
      CanonicalChunks e.2.1.encodedPayload)
    {offers : List (Offer τ)}
    (hoffers : offers.map Offer.entry = w.encodedPayloads.map batchEntry) :
    (∀ e ∈ w.encodedPayloads, ∃ o ∈ offers,
        CommitsTo τ o.committed (e.1, e.2.1))
      ∨ LuckyIn sha256 offers := by
  have hkzg := (fromWitness_inv h).kzg
  have hmaps : ∀ {α : Type} (f : Bytes × G1Point × B512 → α),
      (offers.map fun o => f o.entry)
        = w.encodedPayloads.map fun e => f (batchEntry e) := by
    intro α f
    have hmap := congrArg (List.map f) hoffers
    rw [List.map_map, List.map_map] at hmap
    exact hmap
  have haccept : batchVerify sha256 E (offers.map fun o => o.blob)
      (offers.map fun o => o.point) (offers.map fun o => o.proofBytes)
        = some true := by
    have hblobs := hmaps fun x => x.1
    have hpoints := hmaps fun x => x.2.1
    have hproofs := hmaps fun x => x.2.2
    unfold Offer.entry at hblobs hpoints hproofs
    rw [hblobs, hpoints, hproofs]
    exact hkzg
  obtain ⟨items, hitems, hcancel⟩ := CheckedOffer.exists_of_accept E hτ haccept
  by_cases hlucky : ∃ it ∈ items, it.Lucky items
  · exact .inr ⟨items, hitems, hlucky⟩
  · left
    intro e he
    have hmem : batchEntry e ∈ offers.map Offer.entry := by
      rw [hoffers]
      exact List.mem_map_of_mem he
    rw [← hitems, List.map_map] at hmem
    obtain ⟨it, hit, hentry⟩ := List.mem_map.mp hmem
    have hblob : it.blob = e.2.1.encodedPayload :=
      congrArg (fun x => x.1) hentry
    have hpoint : it.point = e.1.getKzgCommitment :=
      congrArg (fun x => x.2.1) hentry
    have hpoly : it.poly.polynomial = it.committed :=
      (CheckedOffer.committed_or_lucky hcancel hit).resolve_right
        fun h => hlucky ⟨it, hit, h⟩
    refine ⟨it.toOffer, ?_, (fromWitness_inv h).count e he, hcanonical e he,
      ⟨it.poly, ?_, hpoly⟩, it.commitment, ?_, it.commits _ it.affine⟩
    · rw [← hitems]
      exact List.mem_map_of_mem hit
    · rw [← hblob]
      exact it.form
    · rw [← hpoint]
      exact readsAs_of_affine it.affine

end Provers

-- ============================================================== answers

section Answering

variable (head : L1Head) (A : CanoeVerifierAddressFetcher) (verdict : Verdict)
  (committed : Committed)

/-- What a provider holds are the contract's verdicts and the bytes of a
function. -/
structure Answering (s : PreloadedEigenDAPreimageProvider) : Prop where
  validity : ∀ e ∈ s.validityEntries, ∃ a,
    A.fetchAddress head.chainId e.1.versionedCert = .ok a
      ∧ e.2 = verdict head a e.1
  payload : ∀ e ∈ s.encodedPayloadEntries, e.2.encodedPayload
    = committed e.1.getKzgCommitment e.1.getNumFieldElement

/-- So it answers as the provider without a witness does. -/
theorem answering_simulates :
    Simulates provider (idealProvider head A verdict committed)
      (fun s _ => Answering head A verdict committed s) := by
  constructor
  · intro c s u r s' hs h
    obtain ⟨v, rfl, hv, hp⟩ := getValidity_inv h
    obtain ⟨a, ha, hverdict⟩ := hs.validity (c, v) (by rw [hv]; simp)
    refine ⟨.ok (verdict head a c), u, ?_, hverdict, fun e he => ?_, hp ▸ hs.payload⟩
    · simp only [idealProvider]
      rw [ha]
    · exact hs.validity e (by rw [hv]; exact List.mem_append_left _ he)
  · intro c s u r s' hs h
    obtain ⟨payload, rfl, hp, hv⟩ := getEncodedPayload_inv h
    have hbytes := hs.payload (c, payload) (by rw [hp]; simp)
    refine ⟨_, u, rfl, ?_, hv ▸ hs.validity, fun e he => ?_⟩
    · show payload = _
      rw [← hbytes]
    · exact hs.payload e (by rw [hp]; exact List.mem_append_left _ he)

variable {head A verdict committed}

/-- The provider made of an accepted witness does, where the payloads are
those bytes. -/
theorem answering_of_accepted {V : CanoeVerifier}
    (hcanoe : CanoeSound V verdict) {batchVerify : BatchVerify}
    {w : EigenDAWitness} {pre : PreloadedEigenDAPreimageProvider}
    (h : fromWitness w head V A batchVerify = some pre)
    (hbytes : ∀ e ∈ w.encodedPayloads, e.2.1.encodedPayload
      = committed e.1.getKzgCommitment e.1.getNumFieldElement) :
    Answering head A verdict committed pre := by
  constructor
  · intro e he
    obtain ⟨claims, proof, claim, hok, hmem, hclaim, hhash, hnum, htime, hchain,
      haddr⟩ := (fromWitness_checked head V A batchVerify h).validity e he
    have hverdict := hcanoe claims proof hok e.1 claim hmem
    rw [hhash, hnum, htime, hchain, hclaim] at hverdict
    exact ⟨claim.verifierAddress, haddr, hverdict⟩
  · intro e he
    rw [(fromWitness_inv h).encodedPayloadEntries, List.mem_reverse] at he
    obtain ⟨entry, hentry, rfl⟩ := List.mem_map.mp he
    exact hbytes entry hentry

end Answering

-- =========================================================== the result

section Result

variable {G2 Gt : Type*} [AddCommGroup G2] [Module Fr G2] [CommGroup Gt]
  [DecidableEq Gt] {E : Pairing G2 Gt} {sha256 : Bytes → B256} {τ : Fr}
  {head : L1Head} {V : CanoeVerifier} {A : CanoeVerifierAddressFetcher}

open Classical in
/-- The bytes that the entries of a list hold for a point and a size. -/
noncomputable def bytesOf (entries : List (AltDACommitment × EncodedPayload)) :
    Committed :=
  fun point size =>
    if h : ∃ e ∈ entries, e.1.getKzgCommitment = point
      ∧ e.1.getNumFieldElement = size
    then h.choose.2.encodedPayload else []

/-- Where entries for one point and size agree, each holds them. -/
theorem bytesOf_eq {entries : List (AltDACommitment × EncodedPayload)}
    (hagree : ∀ e ∈ entries, ∀ e' ∈ entries,
      e.1.getKzgCommitment = e'.1.getKzgCommitment →
      e.1.getNumFieldElement = e'.1.getNumFieldElement →
      e.2.encodedPayload = e'.2.encodedPayload)
    {e : AltDACommitment × EncodedPayload} (he : e ∈ entries) :
    e.2.encodedPayload
      = bytesOf entries e.1.getKzgCommitment e.1.getNumFieldElement := by
  have hexists : ∃ e' ∈ entries, e'.1.getKzgCommitment = e.1.getKzgCommitment
      ∧ e'.1.getNumFieldElement = e.1.getNumFieldElement := ⟨e, he, rfl, rfl⟩
  unfold bytesOf
  rw [dif_pos hexists]
  obtain ⟨hmem, hpoint, hsize⟩ := hexists.choose_spec
  exact (hagree _ hmem e he hpoint hsize).symm

theorem everyCertVerifier_sound :
    CanoeSound everyCertVerifier fun _ _ _ => true := by
  intro claims proof h c claim hmem
  have hclaims : (if claims.all fun claim => claim.2.claimedValidity then
      some (.ok ())
    else some (.error .inconsistentPublicJournal)
      : Option (Except HokuleaCanoeVerificationError Unit)) = some (.ok ()) := h
  split at hclaims
  next hall => exact List.all_eq_true.mp hall (c, claim) hmem
  next => cases hclaims

theorem entry_unitOffer (canoeProofBytes : Option Bytes) :
    [unitOffer].map Offer.entry
      = (unitWitness canoeProofBytes).encodedPayloads.map batchEntry := by
  rw [List.map_singleton]
  unfold Offer.entry
  rw [point_unitOffer]
  rfl

end Result

end Hokulea
