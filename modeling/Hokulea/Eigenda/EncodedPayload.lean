/-
`EncodedPayload` of `eigenda_data.rs` and its decoder.

An encoded payload is a power-of-two number of 32-byte field elements.
The first is a header: a zero byte, the encoding version, the payload
length as a big-endian `u32`, and zeros. The rest carry the payload,
31 bytes each behind a zero byte, zero-padded at the end.

The decoder is translated check by check. Indexing and slicing are
`Option`: `none` is the panic of the source.
-/
import Hokulea.Eigenda.Errors

namespace Hokulea

open Bytes

/-- `PAYLOAD_ENCODING_VERSION_0` -/
def PAYLOAD_ENCODING_VERSION_0 : UInt8 := 0

/-- `BYTES_PER_FIELD_ELEMENT` -/
abbrev BYTES_PER_FIELD_ELEMENT : Nat := 32

/-- `ENCODED_PAYLOAD_HEADER_LEN_BYTES` -/
abbrev ENCODED_PAYLOAD_HEADER_LEN_BYTES : Nat := 32

/-- `EncodedPayload` -/
structure EncodedPayload where
  encodedPayload : Bytes
  deriving DecidableEq, Repr

/-- `is_power_of_two` -/
def isPowerOfTwo (n : Nat) : Bool :=
  n ≠ 0 && n &&& (n - 1) = 0

/-- `for b in bs { if *b != 0x00 { return … } }`: the byte the loop
returns on. -/
def firstNonzero (bs : Bytes) : Option UInt8 :=
  bs.find? (· ≠ 0)

namespace EncodedPayload

/-- `num_field_element`, a floored division. -/
def numFieldElement (self : EncodedPayload) : Nat :=
  self.encodedPayload.length / BYTES_PER_FIELD_ELEMENT

/-- `check_len_invariant` -/
def checkLenInvariant (self : EncodedPayload) :
    Except HokuleaStatelessError Unit :=
  let len := self.encodedPayload.length
  if len < ENCODED_PAYLOAD_HEADER_LEN_BYTES then
    .error (.decodingError (.payloadTooShortForHeader
      ENCODED_PAYLOAD_HEADER_LEN_BYTES len))
  else if len % BYTES_PER_FIELD_ELEMENT ≠ 0 then
    .error (.decodingError (.invalidLengthEncodedPayload len))
  else if !isPowerOfTwo (len / BYTES_PER_FIELD_ELEMENT) then
    .error (.decodingError (.invalidPowerOfTwoLength
      (len / BYTES_PER_FIELD_ELEMENT)))
  else .ok ()

/-- `decode_header`: the claimed payload length. -/
def decodeHeader (self : EncodedPayload) :
    Option (Except HokuleaStatelessError Nat) := do
  let bs := self.encodedPayload
  if bs.length < ENCODED_PAYLOAD_HEADER_LEN_BYTES then
    return .error (.decodingError (.payloadTooShortForHeader
      ENCODED_PAYLOAD_HEADER_LEN_BYTES bs.length))
  let b0 ← bs[0]?
  if b0 ≠ 0 then
    return .error (.decodingError (.invalidHeaderFirstByte b0))
  let version ← bs[1]?
  if version ≠ PAYLOAD_ENCODING_VERSION_0 then
    return .error (.decodingError (.unknownEncodingVersion version))
  let payloadLength := beNat [← bs[2]?, ← bs[3]?, ← bs[4]?, ← bs[5]?]
  let padding ← slice bs 6 ENCODED_PAYLOAD_HEADER_LEN_BYTES
  match firstNonzero padding with
  | some b =>
      return .error (.decodingError (.invalidEncodedPayloadHeaderPadding b))
  | none => return .ok payloadLength

/-- The loop of `check_and_remove_zero_padding_for_field_elements`,
`decodedBody` its accumulator. -/
def removeZeroPadding :
    List Bytes → Bytes → Option (Except HokuleaStatelessError Bytes)
  | [], decodedBody => some (.ok decodedBody)
  | chunk :: chunks, decodedBody => do
      let b ← chunk[0]?
      if b ≠ 0 then
        return .error (.decodingError (.invalidFirstByteFieldElementPadding b))
      removeZeroPadding chunks (decodedBody ++ (← slice chunk 1 32))

/-- `check_and_remove_zero_padding_for_field_elements` -/
def checkAndRemoveZeroPaddingForFieldElements (encodedBody : Bytes) :
    Option (Except HokuleaStatelessError Bytes) :=
  if encodedBody.length % BYTES_PER_FIELD_ELEMENT ≠ 0 then
    some (.error (.decodingError (.invalidLengthEncodedPayload
      encodedBody.length)))
  else
    removeZeroPadding (chunksExact BYTES_PER_FIELD_ELEMENT encodedBody) []

/-- `decode_payload` -/
def decodePayload (self : EncodedPayload) (payloadLen : Nat) :
    Option (Except HokuleaStatelessError Bytes) := do
  let bs := self.encodedPayload
  let body ← slice bs ENCODED_PAYLOAD_HEADER_LEN_BYTES bs.length
  match ← checkAndRemoveZeroPaddingForFieldElements body with
  | .error e => return .error e
  | .ok decodedBody =>
      if decodedBody.length < payloadLen then
        return .error (.decodingError (.decodedPayloadBodyTooShort
          decodedBody.length payloadLen))
      let padding ← slice decodedBody payloadLen decodedBody.length
      match firstNonzero padding with
      | some b =>
          return .error (.decodingError (.invalidEncodedPayloadBodyPadding b))
      | none => return .ok (← slice decodedBody 0 payloadLen)

/-- `decode` -/
def decode (self : EncodedPayload) :
    Option (Except HokuleaStatelessError Bytes) := do
  match self.checkLenInvariant with
  | .error e => return .error e
  | .ok () =>
      match ← self.decodeHeader with
      | .error e => return .error e
      | .ok payloadLen => self.decodePayload payloadLen

end EncodedPayload

end Hokulea
