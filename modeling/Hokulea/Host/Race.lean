/-
The host at work on many hints at once, with the client reading along.

# Handlers

`fetch_eigenda_hint` awaits the proxy, then the store's lock for the
validity, then the lock for the body. Between the awaits any other
handler may run, kona's included, and a handler may never come back: a
`set` of the store can fail, and a task can be dropped. So a handler is
the list of sets it has yet to make, and a step of the host makes one of
them. The locks make some orders impossible; every order they leave is
among these.

# The client

`raceOracle` is the channel to such a host. Before each value is read
the host does the next batch of its schedule, so a schedule is one order
in which host and client may run.
-/
import Hokulea.Host.Handler

namespace Hokulea

open Bytes

namespace Handler

variable (K : KeyScheme)

-- ========================================================== the writes

/-- One `set` of the store, still to be made. -/
abbrev Write := B256 × Bytes

/-- Sets made one after another. -/
def applyWrites (writes : List Write) (kv : KeyValueStore) : KeyValueStore :=
  writes.foldl (fun kv w => kv.set w.1 w.2) kv

/-- The set of `store_cert_validity`. -/
def validityWrite (c : AltDACommitment) (isValid : Bool) : Write :=
  let validityAddress := withInterface (c.digestTemplate K.keccak256)
    RESERVED_EIGENDA_API_BYTE_FOR_VALIDITY
  (K.key validityAddress, [if isValid then 1 else 0])

/-- The sets of `store_encoded_payload`: none if one of its checks
fails. -/
def payloadWrites (c : AltDACommitment) (encodedPayload : Bytes) :
    List Write :=
  if encodedPayload.length % 32 ≠ 0 ∨ encodedPayload = [] then []
  else if !(chunksExact BYTES_PER_FIELD_ELEMENT encodedPayload).all
      chunkAccepted then []
  else (List.range c.getNumFieldElement).map fun i =>
    (K.key (withIndex (c.digestTemplate K.keccak256) i),
      fieldElement encodedPayload i)

/-- The sets `fetch_eigenda_hint` makes once it has the proxy's reply,
in their order. -/
def hintWrites (altdaCommitmentBytes : Bytes) (reply : ProxyReply) :
    List Write :=
  match AltDACommitment.tryFrom altdaCommitmentBytes with
  | .error _ => []
  | .ok c =>
      match fetchDataFromProxy reply with
      | .error _ => []
      | .ok stage =>
          validityWrite K c stage.isValidCert
            :: if !stage.isValidCert then []
              else if !stage.passRecencyCheck then []
              else payloadWrites K c stage.encodedPayload

-- ============================================================ the host

/-- The host: the store its handlers share, and for each handler at work
the sets it has yet to make. -/
structure Host where
  kv : KeyValueStore
  handlers : List (List Write)

/-- What the host may do next. -/
inductive HostStep where
  /-- a handler has the proxy's reply to its hint -/
  | reply (altdaCommitmentBytes : Bytes) (reply : ProxyReply)
  /-- a handler makes its next set -/
  | set (i : Nat)
  /-- a handler is given up -/
  | drop (i : Nat)
  /-- a handler of kona's makes a set -/
  | kona (w : Write)

/-- One step of the host. -/
def Host.step (h : Host) : HostStep → Host
  | .reply altdaCommitmentBytes reply =>
      { h with handlers := h.handlers
          ++ [hintWrites K altdaCommitmentBytes reply] }
  | .set i =>
      match h.handlers[i]? with
      | some (w :: ws) => ⟨h.kv.set w.1 w.2, h.handlers.set i ws⟩
      | _ => h
  | .drop i => { h with handlers := h.handlers.eraseIdx i }
  | .kona w => { h with kv := h.kv.set w.1 w.2 }

/-- Many steps of the host. -/
def Host.run (h : Host) (steps : List HostStep) : Host :=
  steps.foldl (Host.step K) h

-- ============================================================ the race

/-- A host and the batches of steps it has ahead of it. -/
structure Race where
  host : Host
  schedule : List (List HostStep)

/-- The host does the next batch, if there is one. -/
def Race.advance (s : Race) : Race :=
  ⟨s.host.run K (s.schedule.headD []), s.schedule.tail⟩

/-- The preimage oracle over the host at work: before each value is
read, the host does its next batch. -/
def raceOracle : CommsClient Race where
  write _ s := (.ok (), s)
  get key s :=
    let s := s.advance K
    ((storeOracle.get key s.host.kv).1, s)
  getExact key len s :=
    let s := s.advance K
    ((storeOracle.getExact key len s.host.kv).1, s)

end Handler

end Hokulea
