/-
`fetch_eigenda_hint` of `bin/host`: what a hinted commitment leaves in
the host's key-value store.

A call takes the hint's bytes, the proxy's reply to them and the
store. It may return, fail or panic; the store is shared, so what was
written before a failure or a panic stays.
-/
import Hokulea.Host.EigendaPreimage
import Hokulea.Proof.EigendaProvider

namespace Hokulea

open Bytes

/-- `SharedKeyValueStore` -/
abbrev KeyValueStore := B256 → Option Bytes

/-- `KeyValueStore::set`, which does not fail. -/
def KeyValueStore.set (kv : KeyValueStore) (key : B256) (value : Bytes) :
    KeyValueStore :=
  Function.update kv key (some value)

namespace Handler

variable (K : KeyScheme)

/-- `store_cert_validity` -/
def storeCertValidity (c : AltDACommitment) (isValid : Bool)
    (kv : KeyValueStore) : KeyValueStore :=
  let validityAddress := withInterface (c.digestTemplate K.keccak256)
    RESERVED_EIGENDA_API_BYTE_FOR_VALIDITY
  kv.set (K.key validityAddress) [if isValid then 1 else 0]

/-- The check of `store_encoded_payload` on one chunk: the upper three
bits of its first byte are zero. -/
def chunkAccepted (chunk : Bytes) : Bool :=
  chunk.headD 0 &&& 0b11100000 == 0

/-- The value stored for element `i`. Below `fetch_num_element` the
slice is within the payload. -/
def fieldElement (encodedPayload : Bytes) (i : Nat) : Bytes :=
  let fetchNumElement := encodedPayload.length / BYTES_PER_FIELD_ELEMENT
  if i < fetchNumElement then (encodedPayload.drop (i * 32)).take 32
  else List.replicate 32 0

/-- The loop of `store_encoded_payload`. -/
def storeFieldElements (fieldElementKey encodedPayload : Bytes) :
    List Nat → KeyValueStore → KeyValueStore
  | [], kv => kv
  | i :: is, kv =>
      storeFieldElements fieldElementKey encodedPayload is
        (kv.set (K.key (withIndex fieldElementKey i))
          (fieldElement encodedPayload i))

/-- `store_encoded_payload`: asserts the length, checks the chunks,
then writes one key for each element of the commitment. -/
def storeEncodedPayload (c : AltDACommitment) (encodedPayload : Bytes)
    (kv : KeyValueStore) : Option (Except String Unit) × KeyValueStore :=
  let blobLengthFe := c.getNumFieldElement
  if encodedPayload.length % 32 ≠ 0 ∨ encodedPayload = [] then (none, kv)
  else if !(chunksExact BYTES_PER_FIELD_ELEMENT encodedPayload).all
      chunkAccepted then
    (some (.error "invalid field element encoding"), kv)
  else
    (some (.ok ()), storeFieldElements K (c.digestTemplate K.keccak256)
      encodedPayload (List.range blobLengthFe) kv)

/-- `fetch_eigenda_hint`. The first component is `none` on a panic. -/
def fetchEigendaHint (altdaCommitmentBytes : Bytes) (reply : ProxyReply)
    (kv : KeyValueStore) : Option (Except String Unit) × KeyValueStore :=
  match AltDACommitment.tryFrom altdaCommitmentBytes with
  | .error e =>
      (some (.error ("failed to parse AltDACommitment: " ++ e.toString)), kv)
  | .ok c =>
      match fetchDataFromProxy reply with
      | .error e => (some (.error e), kv)
      | .ok stage =>
          let kv := storeCertValidity K c stage.isValidCert kv
          if !stage.isValidCert then (some (.ok ()), kv)
          else if !stage.passRecencyCheck then (some (.ok ()), kv)
          else storeEncodedPayload K c stage.encodedPayload kv

/-- The preimage oracle over a store: a missing key, or a value of
another length, is an error that asks for a retry. Hints change
nothing: the store is filled. -/
def storeOracle : CommsClient KeyValueStore where
  write _ kv := (.ok (), kv)
  get key kv :=
    match kv key with
    | some value => (.ok value, kv)
    | none => (.error (.other "Key not found."), kv)
  getExact key len kv :=
    match kv key with
    | some value =>
        if h : value.length = len then (.ok ⟨value, h⟩, kv)
        else (.error (.other "Buffer length mismatch."), kv)
    | none => (.error (.other "Key not found."), kv)

end Handler

end Hokulea
