/-
`EigenDAPreimageProvider` of `traits.rs` and `EigenDAPreimageSource` of
`eigenda_preimage.rs`: where a commitment's validity and payload come
from, the recency rule, and the parsing of L1 data.

A provider is its two operations over a state of its own. An operation
that panics is `none`; one that returns hands back its answer and the
next state.
-/
import Hokulea.Eigenda.EncodedPayload

namespace Hokulea

open Bytes

/-- `EigenDAPreimageProvider`, its error type with the conversion the
trait demands. -/
structure EigenDAPreimageProvider (π ε : Type) where
  getValidity : AltDACommitment → π → Option (Except ε Bool × π)
  getEncodedPayload :
    AltDACommitment → π → Option (Except ε EncodedPayload × π)
  into : ε → HokuleaErrorKind

/-- `get_recency_window` -/
def getRecencyWindow (offchainDerivationVersion : U16) :
    Except HokuleaStatelessError Nat :=
  if offchainDerivationVersion = 0 then .ok 14400
  else .error (.unsupportedOffchainDerivationVersion offchainDerivationVersion)

/-- `recency_check`. Its sum cannot overflow: the reference block
number is a `u32`. -/
def recencyCheck (l1InclusionBn rbn recencyWindow : Nat) :
    Except HokuleaStatelessError Unit :=
  if recencyWindow = 0 then .ok ()
  else if rbn + recencyWindow < l1InclusionBn then
    .error (.recencyCheckError .notRecentCert)
  else .ok ()

/-- The part of `EigenDAPreimageSource::next` between its two provider
calls. -/
def checkRecency (c : AltDACommitment) (l1InclusionBn : Nat) :
    Except HokuleaStatelessError Unit := do
  let recencyWindow ←
    match c.versionedCert with
    | .v2 _ => .ok 0
    | .v3 _ => .ok 0
    | .v4 cert => getRecencyWindow cert.offchainDerivationVersion
  recencyCheck l1InclusionBn c.getRbn recencyWindow

namespace EigenDAPreimageSource

variable {π ε : Type}

/-- `EigenDAPreimageSource::next`: validity, recency, payload. -/
def next (P : EigenDAPreimageProvider π ε) (c : AltDACommitment)
    (l1InclusionBn : Nat) (s : π) :
    Option (Except HokuleaErrorKind EncodedPayload × π) := do
  let (validity, s) ← P.getValidity c s
  match validity with
  | .error e => return (.error (P.into e), s)
  | .ok false => return (.error HokuleaPreimageError.invalidCert.toErrorKind, s)
  | .ok true =>
      match checkRecency c l1InclusionBn with
      | .error e => return (.error e.toErrorKind, s)
      | .ok () =>
          let (payload, s) ← P.getEncodedPayload c s
          match payload with
          | .error e => return (.error (P.into e), s)
          | .ok encodedPayload => return (.ok encodedPayload, s)

/-- What one attempt at a commitment can come to, by the answers it
got. -/
inductive Attempted (P : EigenDAPreimageProvider π ε) (c : AltDACommitment)
    (l1InclusionBn : Nat) (s : π) :
    Except HokuleaErrorKind EncodedPayload → π → Prop
  /-- The validity could not be had. -/
  | unanswered {e : ε} {s' : π} (hv : P.getValidity c s = some (.error e, s')) :
      Attempted P c l1InclusionBn s (.error (P.into e)) s'
  | invalid {s' : π} (hv : P.getValidity c s = some (.ok false, s')) :
      Attempted P c l1InclusionBn s
        (.error HokuleaPreimageError.invalidCert.toErrorKind) s'
  /-- Rejected by the recency rule. -/
  | rejected {e : HokuleaStatelessError} {s' : π}
      (hv : P.getValidity c s = some (.ok true, s'))
      (hr : checkRecency c l1InclusionBn = .error e) :
      Attempted P c l1InclusionBn s (.error e.toErrorKind) s'
  /-- The payload could not be had. -/
  | failed {e : ε} {s₁ s' : π} (hv : P.getValidity c s = some (.ok true, s₁))
      (hr : checkRecency c l1InclusionBn = .ok ())
      (hp : P.getEncodedPayload c s₁ = some (.error e, s')) :
      Attempted P c l1InclusionBn s (.error (P.into e)) s'
  | answered {encodedPayload : EncodedPayload} {s₁ s' : π}
      (hv : P.getValidity c s = some (.ok true, s₁))
      (hr : checkRecency c l1InclusionBn = .ok ())
      (hp : P.getEncodedPayload c s₁ = some (.ok encodedPayload, s')) :
      Attempted P c l1InclusionBn s (.ok encodedPayload) s'

/-- An attempt that returns comes to one of those. -/
theorem next_cases {P : EigenDAPreimageProvider π ε} {c : AltDACommitment}
    {l1InclusionBn : Nat} {s s' : π} {r : Except HokuleaErrorKind EncodedPayload}
    (h : next P c l1InclusionBn s = some (r, s')) :
    Attempted P c l1InclusionBn s r s' := by
  unfold next at h
  simp only [Option.bind_eq_bind, Option.bind_eq_some_iff] at h
  obtain ⟨⟨rv, s₁⟩, hv, h⟩ := h
  rcases rv with e | v
  · cases h
    exact .unanswered hv
  · cases v with
    | false =>
        cases h
        exact .invalid hv
    | true =>
        simp only at h
        cases hr : checkRecency c l1InclusionBn with
        | error e =>
            rw [hr] at h
            cases h
            exact .rejected hv hr
        | ok u =>
            simp only [hr, Option.bind_eq_some_iff] at h
            obtain ⟨⟨rp, s₂⟩, hp, h⟩ := h
            rcases rp with e | ep
            · cases h
              exact .failed hv hr hp
            · cases h
              exact .answered hv hr hp

/-- The provider panics in an attempt: on the validity, or on the
payload of a commitment that is valid and recent. -/
def Panicked (P : EigenDAPreimageProvider π ε) (c : AltDACommitment)
    (l1InclusionBn : Nat) (s : π) : Prop :=
  P.getValidity c s = none
    ∨ ∃ s₁, P.getValidity c s = some (.ok true, s₁)
      ∧ checkRecency c l1InclusionBn = .ok () ∧ P.getEncodedPayload c s₁ = none

/-- Only a provider's panic keeps an attempt from returning. -/
theorem next_eq_none_iff {P : EigenDAPreimageProvider π ε}
    {c : AltDACommitment} {l1InclusionBn : Nat} {s : π} :
    next P c l1InclusionBn s = none ↔ Panicked P c l1InclusionBn s := by
  unfold next Panicked
  rcases hv : P.getValidity c s with _ | ⟨rv, s₁⟩
  · simp
  rcases rv with e | v
  · simp
  cases v with
  | false => simp
  | true =>
      cases hr : checkRecency c l1InclusionBn with
      | error e => simp
      | ok u =>
          rcases hp : P.getEncodedPayload c s₁ with _ | ⟨rp, s₂⟩
          · simp [hp]
          · cases rp <;> simp [hp]

/-- And each of those is what the attempt returns. -/
theorem next_of_attempted {P : EigenDAPreimageProvider π ε}
    {c : AltDACommitment} {l1InclusionBn : Nat} {s s' : π}
    {r : Except HokuleaErrorKind EncodedPayload}
    (h : Attempted P c l1InclusionBn s r s') :
    next P c l1InclusionBn s = some (r, s') := by
  unfold next
  cases h with
  | unanswered hv =>
      rw [hv]
      rfl
  | invalid hv =>
      rw [hv]
      rfl
  | rejected hv hr =>
      rw [hv, Option.bind_eq_bind, Option.bind_some, hr]
      rfl
  | failed hv hr hp =>
      rw [hv, Option.bind_eq_bind, Option.bind_some, hr]
      simp only [hp]
      rfl
  | answered hv hr hp =>
      rw [hv, Option.bind_eq_bind, Option.bind_some, hr]
      simp only [hp]
      rfl

/-- `parse`: the derivation version byte dropped, the rest read as a
commitment. -/
def parse (data : Bytes) : Except HokuleaStatelessError AltDACommitment :=
  if data.length ≤ 2 then .error .insufficientLengthAltDACommimtment
  else
    match AltDACommitment.tryFrom (data.drop 1) with
    | .ok c => .ok c
    | .error e => .error (.parseError e)

end EigenDAPreimageSource

end Hokulea
