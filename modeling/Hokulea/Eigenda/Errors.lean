/-
The errors of `crates/eigenda/src/errors.rs` and how they are turned
into the three actions a derivation can take: discard the commitment,
retry later, or stop.

A stateless error comes from parsing, the recency rule or payload
decoding; a preimage error from a validity answered `false`. All but
one stateless error discard; the exception is an offchain derivation
version this program does not know, which is critical.
-/
import Hokulea.EigendaCert.AltDACommitment

namespace Hokulea

/-- `HokuleaErrorKind` -/
inductive HokuleaErrorKind where
  | discard (e : String)
  | temporary (e : String)
  | critical (e : String)
  deriving DecidableEq, Repr

/-- `EncodedPayloadDecodingError` -/
inductive EncodedPayloadDecodingError where
  | invalidLengthEncodedPayload (length : Nat)
  | invalidPowerOfTwoLength (numFieldElements : Nat)
  | invalidHeaderFirstByte (b : UInt8)
  | payloadTooShortForHeader (expected actual : Nat)
  | unknownEncodingVersion (version : UInt8)
  | decodedPayloadBodyTooShort (actual claimed : Nat)
  | invalidFirstByteFieldElementPadding (b : UInt8)
  | invalidEncodedPayloadBodyPadding (b : UInt8)
  | invalidEncodedPayloadHeaderPadding (b : UInt8)
  deriving DecidableEq, Repr

/-- A byte as `{:#04x}` prints it. -/
def hexByte (b : UInt8) : String :=
  "0x" ++ String.ofList
    [Nat.digitChar (b.toNat / 16), Nat.digitChar (b.toNat % 16)]

/-- The text of a decoding error. -/
def EncodedPayloadDecodingError.toString :
    EncodedPayloadDecodingError → String
  | invalidLengthEncodedPayload length =>
      "invalid number of bytes in the encoded payload " ++ Nat.repr length
        ++ ", that is not multiple of bytes per field element"
  | invalidPowerOfTwoLength numFieldElements =>
      "encoded payload must be a power of 2 field elements (32 bytes chunks),"
        ++ " but got " ++ Nat.repr numFieldElements ++ " field elements"
  | invalidHeaderFirstByte b =>
      "encoded payload header first byte must be 0x00, but got " ++ hexByte b
  | payloadTooShortForHeader expected actual =>
      "encoded payload must be at least " ++ Nat.repr expected
        ++ " bytes long to contain a header, but got " ++ Nat.repr actual
        ++ " bytes"
  | unknownEncodingVersion version =>
      "unknown encoded payload header version: " ++ Nat.repr version.toNat
  | decodedPayloadBodyTooShort actual claimed =>
      "length of unpadded data " ++ Nat.repr actual
        ++ " is less than length claimed in encoded payload header "
        ++ Nat.repr claimed
  | invalidFirstByteFieldElementPadding b =>
      "non-zero byte encountered in the first byte of multiples of 32 bytes: "
        ++ Nat.repr b.toNat
  | invalidEncodedPayloadBodyPadding b =>
      "non-zero padding byte encountered in the encoded payload body: "
        ++ Nat.repr b.toNat
  | invalidEncodedPayloadHeaderPadding b =>
      "non-zero padding byte encountered in the encoded payload header: "
        ++ Nat.repr b.toNat

/-- `HokuleaRecencyCheckError` -/
inductive HokuleaRecencyCheckError where
  | notRecentCert
  deriving DecidableEq, Repr

/-- The text of a recency error. -/
def HokuleaRecencyCheckError.toString : HokuleaRecencyCheckError → String
  | notRecentCert => "da cert is not recent enough"

/-- `HokuleaStatelessError` -/
inductive HokuleaStatelessError where
  | insufficientLengthAltDACommimtment
  | parseError (e : AltDACommitmentParseError)
  | decodingError (e : EncodedPayloadDecodingError)
  | recencyCheckError (e : HokuleaRecencyCheckError)
  | unsupportedOffchainDerivationVersion (version : U16)
  deriving DecidableEq, Repr

/-- `HokuleaPreimageError` -/
inductive HokuleaPreimageError where
  | invalidCert
  deriving DecidableEq, Repr

/-- `From<HokuleaStatelessError> for HokuleaErrorKind` -/
def HokuleaStatelessError.toErrorKind :
    HokuleaStatelessError → HokuleaErrorKind
  | insufficientLengthAltDACommimtment =>
      .discard "Insufficient EigenDA Cert Length"
  | parseError e => .discard e.toString
  | decodingError e => .discard e.toString
  | recencyCheckError e => .discard e.toString
  | unsupportedOffchainDerivationVersion version =>
      .critical ("cannot support offchain derivation version"
        ++ Nat.repr version.toNat)

/-- `From<HokuleaPreimageError> for HokuleaErrorKind` -/
def HokuleaPreimageError.toErrorKind : HokuleaPreimageError → HokuleaErrorKind
  | invalidCert =>
      .discard "da cert is invalid or inconsistent offchain code version"

/-- A stateless error never asks for a retry. -/
theorem HokuleaStatelessError.toErrorKind_ne_temporary
    (e : HokuleaStatelessError) (text : String) :
    e.toErrorKind ≠ .temporary text := by
  cases e <;> simp [toErrorKind]

end Hokulea
