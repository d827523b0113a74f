/-
`PreloadedEigenDAPreimageProvider` of `preloaded_eigenda_provider.rs`:
the provider the zkVM derives with.

`fromWitness` checks a witness in bulk and reverses its two lists; the
provider then pops one entry for each question it is asked and aborts
when the entry is for another commitment. Every `assert`, `expect` and
`panic` is a `none`.

The batch verifier is a compile-time choice between two backends, and
a parameter here.
-/
import Hokulea.Canoe.Verifier
import Hokulea.Proof.Witness

namespace Hokulea

open Bytes

/-- `PreimageOracleError`, the variants the conversion tells apart. -/
inductive PreimageOracleError where
  | ioError (e : String)
  | other (e : String)
  deriving DecidableEq, Repr

/-- `HokuleaOracleProviderError` -/
inductive HokuleaOracleProviderError where
  | preimage (e : PreimageOracleError)
  deriving DecidableEq, Repr

/-- `From<HokuleaOracleProviderError> for HokuleaErrorKind` -/
def HokuleaOracleProviderError.toErrorKind :
    HokuleaOracleProviderError → HokuleaErrorKind
  | .preimage (.ioError e) =>
      .critical ("HokuleaOracleProviderError::PreimageOracleError::IOError "
        ++ e)
  | .preimage (.other e) =>
      .temporary ("HokuleaOracleProviderError::Preimage: " ++ e)

/-- The L1 parameters of `from_witness`, from a trusted source. -/
structure L1Head where
  blockHash : B256
  blockNumber : Nat
  blockTimestamp : Nat
  chainId : Nat
  deriving DecidableEq

/-- `batch_verify` of a backend: blobs, commitments, proofs. -/
abbrev BatchVerify := List Bytes → List G1Point → List B512 → Option Bool

/-- `PreloadedEigenDAPreimageProvider`: vectors, popped at the end. -/
structure PreloadedEigenDAPreimageProvider where
  validityEntries : List (AltDACommitment × Bool)
  encodedPayloadEntries : List (AltDACommitment × EncodedPayload)
  deriving DecidableEq

namespace PreloadedEigenDAPreimageProvider

/-- The claim a witness entry makes, at the trusted head and the
address fetched for its certificate. -/
def certValidity (head : L1Head) (A : CanoeVerifierAddressFetcher)
    (entry : AltDACommitment × Bool) :
    Option (AltDACommitment × CertValidity) :=
  match A.fetchAddress head.chainId entry.1.versionedCert with
  | .error _ => none
  | .ok verifierAddress =>
      some (entry.1,
        { claimedValidity := entry.2
          l1HeadBlockHash := head.blockHash
          l1HeadBlockNumber := head.blockNumber
          l1HeadBlockTimestamp := head.blockTimestamp
          l1ChainId := head.chainId
          verifierAddress })

/-- The list of claims `from_witness` builds from a validity list. -/
def certValidities (head : L1Head) (A : CanoeVerifierAddressFetcher) :
    List (AltDACommitment × Bool) →
      Option (List (AltDACommitment × CertValidity))
  | [] => some []
  | entry :: entries => do
      let claim ← certValidity head A entry
      let claims ← certValidities head A entries
      return claim :: claims

/-- One claim for each entry, in order. -/
theorem certValidities_forall₂ {head : L1Head}
    {A : CanoeVerifierAddressFetcher}
    {validities : List (AltDACommitment × Bool)}
    {claims : List (AltDACommitment × CertValidity)}
    (h : certValidities head A validities = some claims) :
    List.Forall₂ (fun entry claim => certValidity head A entry = some claim)
      validities claims := by
  induction validities generalizing claims with
  | nil =>
      cases h
      exact .nil
  | cons entry entries ih =>
      unfold certValidities at h
      simp only [Option.bind_eq_bind, Option.bind_eq_some_iff] at h
      obtain ⟨claim, hclaim, rest, hrest, heq⟩ := h
      cases heq
      exact .cons hclaim (ih hrest)

/-- The canoe part of `from_witness`. -/
def checkValidities (head : L1Head) (V : CanoeVerifier)
    (A : CanoeVerifierAddressFetcher) (w : EigenDAWitness) : Option Unit :=
  if w.validities.isEmpty then some ()
  else do
    let claims ← certValidities head A w.validities
    match ← V.validateCertReceipt claims w.canoeProofBytes with
    | .ok () => some ()
    | .error _ => none

/-- `from_witness` -/
def fromWitness (w : EigenDAWitness) (head : L1Head) (V : CanoeVerifier)
    (A : CanoeVerifierAddressFetcher) (batchVerify : BatchVerify) :
    Option PreloadedEigenDAPreimageProvider := do
  if w.validities.length < w.encodedPayloads.length then none
  if w.encodedPayloads.any fun (c, payload, _) =>
      payload.numFieldElement ≠ c.getNumFieldElement then none
  checkValidities head V A w
  if !(← batchVerify
      (w.encodedPayloads.map fun (_, payload, _) => payload.encodedPayload)
      (w.encodedPayloads.map fun (c, _, _) => c.getKzgCommitment)
      (w.encodedPayloads.map fun (_, _, proof) => proof)) then none
  return ⟨w.validities.reverse,
    (w.encodedPayloads.map fun (c, payload, _) => (c, payload)).reverse⟩

/-- The checks an accepted witness has passed. -/
structure Accepted (w : EigenDAWitness) (head : L1Head) (V : CanoeVerifier)
    (A : CanoeVerifierAddressFetcher) (batchVerify : BatchVerify)
    (pre : PreloadedEigenDAPreimageProvider) : Prop where
  validityEntries : pre.validityEntries = w.validities.reverse
  encodedPayloadEntries : pre.encodedPayloadEntries
    = (w.encodedPayloads.map fun (c, payload, _) => (c, payload)).reverse
  /-- One verification covers all claims; without claims there is
  none. -/
  canoe : w.validities = [] ∨ ∃ claims,
    certValidities head A w.validities = some claims
      ∧ V.validateCertReceipt claims w.canoeProofBytes = some (.ok ())
  count : ∀ e ∈ w.encodedPayloads,
    e.2.1.numFieldElement = e.1.getNumFieldElement
  kzg : batchVerify
      (w.encodedPayloads.map fun (_, payload, _) => payload.encodedPayload)
      (w.encodedPayloads.map fun (c, _, _) => c.getKzgCommitment)
      (w.encodedPayloads.map fun (_, _, proof) => proof) = some true

/-- `from_witness` returns only after all of them. -/
theorem fromWitness_inv {w : EigenDAWitness} {head : L1Head}
    {V : CanoeVerifier} {A : CanoeVerifierAddressFetcher}
    {batchVerify : BatchVerify} {pre : PreloadedEigenDAPreimageProvider}
    (h : fromWitness w head V A batchVerify = some pre) :
    Accepted w head V A batchVerify pre := by
  unfold fromWitness at h
  simp only [Option.bind_eq_bind] at h
  split at h
  · cases h
  split at h
  · cases h
  next hcount =>
    cases hcanoe : checkValidities head V A w with
    | none => simp [hcanoe] at h
    | some u =>
        rw [hcanoe, Option.bind_some] at h
        rw [Option.bind_eq_some_iff] at h
        obtain ⟨ok, hkzg, h⟩ := h
        cases ok with
        | false => cases h
        | true =>
            cases h
            refine ⟨rfl, rfl, ?_, ?_, hkzg⟩
            · unfold checkValidities at hcanoe
              split at hcanoe
              case isTrue hempty => exact .inl (List.isEmpty_iff.mp hempty)
              case isFalse =>
                simp only [Option.bind_eq_bind, Option.bind_eq_some_iff]
                  at hcanoe
                obtain ⟨claims, hclaims, r, hr, hok⟩ := hcanoe
                cases r with
                | error e => cases hok
                | ok u => exact .inr ⟨claims, hclaims, hr⟩
            · intro e he
              simp only [List.any_eq_true, not_exists, not_and] at hcount
              simpa using hcount e he

/-- A witness past the length checks and the canoe check is decided by the
batch. -/
theorem fromWitness_eq {w : EigenDAWitness} {head : L1Head} {V : CanoeVerifier}
    {A : CanoeVerifierAddressFetcher} (batchVerify : BatchVerify)
    (hlen : w.encodedPayloads.length ≤ w.validities.length)
    (hcount : ∀ e ∈ w.encodedPayloads,
      e.2.1.numFieldElement = e.1.getNumFieldElement)
    (hcanoe : checkValidities head V A w = some ()) :
    fromWitness w head V A batchVerify
      = if batchVerify (w.encodedPayloads.map fun e => e.2.1.encodedPayload)
          (w.encodedPayloads.map fun e => e.1.getKzgCommitment)
          (w.encodedPayloads.map fun e => e.2.2) = some true
        then some ⟨w.validities.reverse,
          (w.encodedPayloads.map fun e => (e.1, e.2.1)).reverse⟩
        else none := by
  have hcounted : (w.encodedPayloads.any fun (c, payload, _) =>
      payload.numFieldElement ≠ c.getNumFieldElement) = false := by
    rw [List.any_eq_false]
    intro e he
    simp [hcount e he]
  unfold fromWitness
  rw [if_neg (Nat.not_lt.mpr hlen), hcounted, hcanoe]
  simp only [Bool.false_eq_true, if_false, Option.bind_eq_bind,
    Option.bind_some]
  cases hchecked : batchVerify
      (w.encodedPayloads.map fun e => e.2.1.encodedPayload)
      (w.encodedPayloads.map fun e => e.1.getKzgCommitment)
      (w.encodedPayloads.map fun e => e.2.2) with
  | none => simp
  | some ok => cases ok <;> simp

/-- `EigenDAPreimageProvider::get_validity` -/
def getValidity (c : AltDACommitment) (s : PreloadedEigenDAPreimageProvider) :
    Option (Except HokuleaOracleProviderError Bool
      × PreloadedEigenDAPreimageProvider) := do
  let (stored, validity) ← s.validityEntries.getLast?
  let s := { s with validityEntries := s.validityEntries.dropLast }
  if stored = c then return (.ok validity, s) else none

/-- `EigenDAPreimageProvider::get_encoded_payload` -/
def getEncodedPayload (c : AltDACommitment)
    (s : PreloadedEigenDAPreimageProvider) :
    Option (Except HokuleaOracleProviderError EncodedPayload
      × PreloadedEigenDAPreimageProvider) := do
  let (stored, payload) ← s.encodedPayloadEntries.getLast?
  let s := { s with encodedPayloadEntries := s.encodedPayloadEntries.dropLast }
  if stored = c then return (.ok payload, s) else none

/-- A validity the provider answers is the entry it popped. -/
theorem getValidity_inv {c : AltDACommitment}
    {s s' : PreloadedEigenDAPreimageProvider}
    {r : Except HokuleaOracleProviderError Bool}
    (h : getValidity c s = some (r, s')) :
    ∃ v, r = .ok v ∧ s.validityEntries = s'.validityEntries ++ [(c, v)]
      ∧ s'.encodedPayloadEntries = s.encodedPayloadEntries := by
  unfold getValidity at h
  simp only [Option.bind_eq_bind, Option.bind_eq_some_iff] at h
  obtain ⟨⟨stored, v⟩, hlast, h⟩ := h
  split at h
  case isFalse => cases h
  case isTrue hstored =>
    cases h
    simp only at hstored
    subst hstored
    rw [List.getLast?_eq_some_iff] at hlast
    obtain ⟨init, hinit⟩ := hlast
    exact ⟨v, rfl, by simp [hinit], rfl⟩

/-- A payload the provider answers is the entry it popped. -/
theorem getEncodedPayload_inv {c : AltDACommitment}
    {s s' : PreloadedEigenDAPreimageProvider}
    {r : Except HokuleaOracleProviderError EncodedPayload}
    (h : getEncodedPayload c s = some (r, s')) :
    ∃ payload, r = .ok payload
      ∧ s.encodedPayloadEntries = s'.encodedPayloadEntries ++ [(c, payload)]
      ∧ s'.validityEntries = s.validityEntries := by
  unfold getEncodedPayload at h
  simp only [Option.bind_eq_bind, Option.bind_eq_some_iff] at h
  obtain ⟨⟨stored, payload⟩, hlast, h⟩ := h
  split at h
  case isFalse => cases h
  case isTrue hstored =>
    cases h
    simp only at hstored
    subst hstored
    rw [List.getLast?_eq_some_iff] at hlast
    obtain ⟨init, hinit⟩ := hlast
    exact ⟨payload, rfl, by simp [hinit], rfl⟩

/-- The provider of the zkVM. -/
def provider : EigenDAPreimageProvider PreloadedEigenDAPreimageProvider
    HokuleaOracleProviderError where
  getValidity := getValidity
  getEncodedPayload := getEncodedPayload
  into := HokuleaOracleProviderError.toErrorKind

end PreloadedEigenDAPreimageProvider

end Hokulea
