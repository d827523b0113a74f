/-
`OracleEigenDAPreimageProviderWithPreimage` of `witness_provider.rs`:
a provider around another that appends every answer it passes on to an
`EigenDAPreimage`. Errors are passed on and leave no entry.
-/
import Hokulea.Eigenda.Preimage
import Hokulea.Proof.Witness

namespace Hokulea

/-- `OracleEigenDAPreimageProviderWithPreimage`, its state: the inner
provider's and the record. -/
structure OracleEigenDAPreimageProviderWithPreimage (π : Type) where
  provider : π
  preimage : EigenDAPreimage

namespace OracleEigenDAPreimageProviderWithPreimage

variable {π ε : Type} (P : EigenDAPreimageProvider π ε)

/-- `EigenDAPreimageProvider::get_validity` -/
def getValidity (c : AltDACommitment)
    (s : OracleEigenDAPreimageProviderWithPreimage π) :
    Option (Except ε Bool × OracleEigenDAPreimageProviderWithPreimage π) := do
  match ← P.getValidity c s.provider with
  | (.ok validity, p) =>
      let validities := s.preimage.validities ++ [(c, validity)]
      return (.ok validity, ⟨p, { s.preimage with validities }⟩)
  | (.error e, p) => return (.error e, { s with provider := p })

/-- `EigenDAPreimageProvider::get_encoded_payload` -/
def getEncodedPayload (c : AltDACommitment)
    (s : OracleEigenDAPreimageProviderWithPreimage π) :
    Option (Except ε EncodedPayload
      × OracleEigenDAPreimageProviderWithPreimage π) := do
  match ← P.getEncodedPayload c s.provider with
  | (.ok payload, p) =>
      let encodedPayloads := s.preimage.encodedPayloads ++ [(c, payload)]
      return (.ok payload, ⟨p, { s.preimage with encodedPayloads }⟩)
  | (.error e, p) => return (.error e, { s with provider := p })

/-- The recording provider. -/
def recorder :
    EigenDAPreimageProvider (OracleEigenDAPreimageProviderWithPreimage π) ε where
  getValidity := getValidity P
  getEncodedPayload := getEncodedPayload P
  into := P.into

end OracleEigenDAPreimageProviderWithPreimage

end Hokulea
