/-
`OracleEigenDAPreimageProvider` of `crates/proof`: the provider of the
client program, which hints a commitment to the host and reads its
validity and its field elements from the preimage oracle, one key at a
time.

# Keys

A key is made in three steps: 80 bytes of address, their keccak256,
and the 32 bytes kona's `PreimageKey` makes of the hash for a generic
key. The last two are parameters.
-/
import Hokulea.Eigenda.Preimage
import Hokulea.Proof.Preloaded

namespace Hokulea

open Bytes

/-- `RESERVED_EIGENDA_API_BYTE_INDEX` -/
def RESERVED_EIGENDA_API_BYTE_INDEX : Nat := 32

/-- `RESERVED_EIGENDA_API_BYTE_FOR_VALIDITY` -/
def RESERVED_EIGENDA_API_BYTE_FOR_VALIDITY : UInt8 := 1

/-- The two functions keys are made with: keccak256, and
`PreimageKey::new(_, GlobalGeneric).into()`. -/
structure KeyScheme where
  keccak256 : Bytes → B256
  preimageKey : B256 → B256

/-- The key of an 80-byte address. -/
def KeyScheme.key (K : KeyScheme) (address : Bytes) : B256 :=
  K.preimageKey (K.keccak256 address)

/-- `CommsClient`, the channel to the host: hints are written, values
read. `getExact` fills a buffer of the given length. -/
structure CommsClient (σ : Type) where
  write : String → σ → Except PreimageOracleError Unit × σ
  get : B256 → σ → Except PreimageOracleError Bytes × σ
  getExact : B256 → (len : Nat) → σ →
    Except PreimageOracleError { s : Bytes // s.length = len } × σ

/-- `hex::encode` -/
def hexEncode (bs : Bytes) : String :=
  String.ofList (bs.flatMap fun b =>
    [Nat.digitChar (b.toNat / 16), Nat.digitChar (b.toNat % 16)])

/-- `ExtendedHintType::EigenDACert.encode_with` -/
def encodeEigenDACertHint (data : Bytes) : String :=
  "eigenda-certificate " ++ hexEncode data

/-- `index.to_be_bytes()` copied over the last eight bytes of an
address. -/
def withIndex (template : Bytes) (i : Nat) : Bytes :=
  template.take 72 ++ beBytes 8 i

/-- The interface byte of an address overwritten. -/
def withInterface (template : Bytes) (b : UInt8) : Bytes :=
  template.set RESERVED_EIGENDA_API_BYTE_INDEX b

namespace OracleEigenDAPreimageProvider

variable {σ : Type} (K : KeyScheme) (O : CommsClient σ)

/-- `EigenDAPreimageProvider::get_validity`. A value that is not one
byte, `0` or `1`, is a panic. -/
def getValidity (c : AltDACommitment) (s : σ) :
    Option (Except HokuleaOracleProviderError Bool × σ) :=
  match O.write (encodeEigenDACertHint c.toRlpBytes) s with
  | (.error e, s) => some (.error (.preimage e), s)
  | (.ok (), s) =>
      let addressTemplate := withInterface (c.digestTemplate K.keccak256)
        RESERVED_EIGENDA_API_BYTE_FOR_VALIDITY
      match O.get (K.key addressTemplate) s with
      | (.error e, s) => some (.error (.preimage e), s)
      | (.ok [0], s) => some (.ok false, s)
      | (.ok [1], s) => some (.ok true, s)
      | (.ok _, _) => none

/-- `fetch_encoded_payload`: each element of `idxs` read into its place
of the buffer. -/
def fetchEncodedPayload (fieldElementKey : Bytes) :
    List Nat → Bytes → σ → Option (Except HokuleaOracleProviderError Bytes × σ)
  | [], encodedPayload, s => some (.ok encodedPayload, s)
  | idxFe :: idxs, encodedPayload, s =>
      match O.getExact (K.key (withIndex fieldElementKey idxFe)) 32 s with
      | (.error e, s) => some (.error (.preimage e), s)
      | (.ok fieldElement, s) => do
          let encodedPayload ←
            writeAt encodedPayload (idxFe * 32) fieldElement.val
          fetchEncodedPayload fieldElementKey idxs encodedPayload s

/-- `EigenDAPreimageProvider::get_encoded_payload` -/
def getEncodedPayload (c : AltDACommitment) (s : σ) :
    Option (Except HokuleaOracleProviderError EncodedPayload × σ) :=
  match O.write (encodeEigenDACertHint c.toRlpBytes) s with
  | (.error e, s) => some (.error (.preimage e), s)
  | (.ok (), s) => do
      let blobLengthFe := c.getNumFieldElement
      let buffer := List.replicate (blobLengthFe * BYTES_PER_FIELD_ELEMENT) 0
      match ← fetchEncodedPayload K O (c.digestTemplate K.keccak256)
        (List.range blobLengthFe) buffer s with
      | (.error e, s) => return (.error e, s)
      | (.ok encodedPayload, s) => return (.ok ⟨encodedPayload⟩, s)

/-- The provider of the client program. -/
def provider : EigenDAPreimageProvider σ HokuleaOracleProviderError where
  getValidity := getValidity K O
  getEncodedPayload := getEncodedPayload K O
  into := HokuleaOracleProviderError.toErrorKind

end OracleEigenDAPreimageProvider

end Hokulea
