/-
The two host-side routes from a proxy's reply to the derivation.

# The routes

- `onlineRoute`: the derivation reads from the provider that asks the
  proxy itself, and gets the body of the reply as it is;
- `oracleRoute`: the reply is put into the store by a hint, and the
  derivation reads validity and elements from there.

# What is proved

`onlineRoute_eq` and `oracleRoute_eq` evaluate the routes on every
reply; `routes_agree_iff` compares them. They part where the host's
checks refuse a body, where a body is not as long as its commitment
says and only one of the two lengths is an encoding, and on a teapot
that calls a certificate stale which the client's own rule lets pass:
the host stores no element, so the client asks again for ever, and the
online provider hands over the empty body, which is discarded.

`served_iff`: of the bodies EigenDA can commit to, exactly those are
stored whose elements all begin with three zero bits.
-/
import Hokulea.Kzg.Bn254
import Hokulea.Proofs.Derivation
import Hokulea.Proofs.HintStore

namespace Hokulea

open Bytes EncodedPayload

-- ========================================================== outcomes

/-- What the derivation does with a commitment. -/
inductive RouteOutcome where
  | payload (p : Bytes)
  | discard
  | retry
  | critical
  deriving DecidableEq

/-- The action an error asks for. -/
def RouteOutcome.ofKind : HokuleaErrorKind → RouteOutcome
  | .discard _ => .discard
  | .temporary _ => .retry
  | .critical _ => .critical

/-- A payload is decoded; one that does not decode is discarded. -/
def decodeOutcome (encodedPayload : EncodedPayload) : Option RouteOutcome :=
  match encodedPayload.decode with
  | some (.ok p) => some (.payload p)
  | some (.error _) => some .discard
  | none => none

/-- `EigenDAPreimageSource::next`, then `EncodedPayload::decode`. -/
def routeOutcome {π ε : Type} (P : EigenDAPreimageProvider π ε)
    (c : AltDACommitment) (l1InclusionBn : Nat) (s : π) :
    Option RouteOutcome := do
  match ← EigenDAPreimageSource.next P c l1InclusionBn s with
  | (.error kind, _) => return .ofKind kind
  | (.ok encodedPayload, _) => decodeOutcome encodedPayload

/-- The online provider, the proxy giving one reply. -/
def onlineRoute (reply : ProxyReply) (c : AltDACommitment)
    (l1InclusionBn : Nat) : Option RouteOutcome :=
  routeOutcome
    (OnlineEigenDAPreimageProvider.provider fun _ (s : Unit) => (reply, s))
    c l1InclusionBn ⟨(), none⟩

/-- The oracle provider, over the store filled from that reply. A hint
that fails or panics is retried. -/
def oracleRoute (K : KeyScheme) (reply : ProxyReply) (c : AltDACommitment)
    (l1InclusionBn : Nat) (kv : KeyValueStore) : Option RouteOutcome :=
  match Handler.fetchEigendaHint K c.toRlpBytes reply kv with
  | (some (.ok ()), kv) =>
      routeOutcome (OracleEigenDAPreimageProvider.provider K Handler.storeOracle)
        c l1InclusionBn kv
  | _ => some .retry

/-- The bytes are the encoding of some payload. -/
def IsEncoding (b : Bytes) : Prop :=
  ∃ k p, Admissible k p ∧ b = encodeV0 k p

/-- The client's own recency rule refuses the commitment. -/
def RecencyRefused (c : AltDACommitment) (l1InclusionBn : Nat) : Prop :=
  ∃ e, checkRecency c l1InclusionBn = .error e

/-- When the routes meet, in terms of the reply: it makes no stage; or
the commitment is of the type and layer a hint is parsed to, and

- a teapot that calls it stale meets a commitment the client refuses
  too, or one of no elements;
- a body passes the host's checks, and the client refuses the
  commitment, or the body and the body at the commitment's length are
  both encodings or neither is. -/
def RoutesMeet (c : AltDACommitment) (l1InclusionBn : Nat)
    (reply : ProxyReply) : Prop :=
  ∀ stage, StageOf reply stage →
    c.commitmentType = 1 ∧ c.daLayerByte = 0
    ∧ (stage.isValidCert = true → stage.passRecencyCheck = false →
        RecencyRefused c l1InclusionBn ∨ c.getNumFieldElement = 0)
    ∧ (stage.isValidCert = true → stage.passRecencyCheck = true →
        Storable stage ∧ (RecencyRefused c l1InclusionBn
          ∨ (IsEncoding stage.encodedPayload
            ↔ IsEncoding (fitElements c.getNumFieldElement
              stage.encodedPayload))))

-- ========================================================== decoding

/-- A body decodes to a payload or is discarded, by whether it is an
encoding. -/
theorem decodeOutcome_cases (b : Bytes) :
    (∃ k p, Admissible k p ∧ b = encodeV0 k p
        ∧ decodeOutcome ⟨b⟩ = some (.payload p))
      ∨ ¬ IsEncoding b ∧ decodeOutcome ⟨b⟩ = some .discard := by
  obtain ⟨r, hr, hok⟩ := decode_ok_iff ⟨b⟩
  cases r with
  | ok p =>
      obtain ⟨k, hk, hb⟩ := (hok p).mp rfl
      exact .inl ⟨k, p, hk, hb, by simp [decodeOutcome, hr]⟩
  | error e =>
      refine .inr ⟨?_, by simp [decodeOutcome, hr]⟩
      intro h
      obtain ⟨k, p, hk, hb⟩ := h
      have := (hok p).mpr ⟨k, hk, hb⟩
      cases this

/-- The empty body is no encoding. -/
theorem decodeOutcome_nil : decodeOutcome ⟨[]⟩ = some .discard := by
  decide

/-- The header names one length. -/
theorem headerV0_inj {m n : Nat} (hm : m < 2 ^ 32) (hn : n < 2 ^ 32)
    (h : headerV0 m = headerV0 n) : m = n := by
  have hbytes : beBytes 4 m = beBytes 4 n := by
    unfold headerV0 at h
    rw [List.append_assoc, List.append_assoc] at h
    exact (List.append_inj (List.append_cancel_left h) (by simp)).1
  calc m = beNat (beBytes 4 m) := (beNat_beBytes (by omega)).symm
    _ = beNat (beBytes 4 n) := by rw [hbytes]
    _ = n := beNat_beBytes (by omega)

/-- Groups are padded one by one, so a whole number of them can be
split off. -/
theorem padFieldElements_append {m n : Nat} {a b : Bytes}
    (ha : a.length = m * 31) (hb : b.length = n * 31) :
    padFieldElements (a ++ b) = padFieldElements a ++ padFieldElements b := by
  have hchunks : chunksExact 31 (a ++ b) = chunksExact 31 a ++ chunksExact 31 b := by
    have hall : ∀ c ∈ chunksExact 31 a ++ chunksExact 31 b, c.length = 31 := by
      intro c hc
      rcases List.mem_append.mp hc with hc | hc
      · exact length_of_mem_chunksExact hc
      · exact length_of_mem_chunksExact hc
    calc chunksExact 31 (a ++ b)
        = chunksExact 31 (chunksExact 31 a ++ chunksExact 31 b).flatten := by
          rw [List.flatten_append, flatten_chunksExact (by omega) ha,
            flatten_chunksExact (by omega) hb]
      _ = chunksExact 31 a ++ chunksExact 31 b :=
          chunksExact_flatten (by omega) hall
  rw [padFieldElements, hchunks, List.flatMap_append]
  rfl

/-- Padding can be undone. -/
theorem padFieldElements_inj {n : Nat} {a b : Bytes} (ha : a.length = 31 * n)
    (hb : b.length = 31 * n) (h : padFieldElements a = padFieldElements b) :
    a = b := by
  obtain ⟨r, -, hok⟩ := checkAndRemoveZeroPadding_ok_iff (padFieldElements a)
    (length_padFieldElements ha)
  have hra := (hok a).mpr ⟨ha, rfl⟩
  have hrb := (hok b).mpr ⟨hb, h⟩
  rw [hra] at hrb
  exact Except.ok.inj hrb

/-- An encoding that begins with another encodes the same payload. -/
theorem payload_of_take {k k' : Nat} {p p' : Bytes} (hp : Admissible k p)
    (hp' : Admissible k' p') (hk : k' ≤ k)
    (h : (encodeV0 k p).take (32 * 2 ^ k') = encodeV0 k' p') : p = p' := by
  have hpos : 0 < 2 ^ k' := Nat.two_pow_pos k'
  have hpow : 2 ^ k' ≤ 2 ^ k := Nat.pow_le_pow_right (by omega) hk
  have hd : (zeroExtend (31 * (2 ^ k - 1)) p).length = 31 * (2 ^ k - 1) :=
    length_zeroExtend hp.2
  have hd' : (zeroExtend (31 * (2 ^ k' - 1)) p').length = 31 * (2 ^ k' - 1) :=
    length_zeroExtend hp'.2
  -- the headers
  have hsplit : 32 * 2 ^ k' = (headerV0 p.length).length + 32 * (2 ^ k' - 1) := by
    rw [length_headerV0]
    omega
  unfold encodeV0 at h
  rw [hsplit, List.take_append, List.take_of_length_le (by omega),
    Nat.add_sub_cancel_left] at h
  obtain ⟨hheader, hbody⟩ := List.append_inj h (by simp)
  have hlen : p.length = p'.length := headerV0_inj hp.1 hp'.1 hheader
  -- the bodies
  have htake : ((zeroExtend (31 * (2 ^ k - 1)) p).take (31 * (2 ^ k' - 1))).length
      = 31 * (2 ^ k' - 1) := by
    rw [List.length_take, hd]
    omega
  have hdrop : ((zeroExtend (31 * (2 ^ k - 1)) p).drop (31 * (2 ^ k' - 1))).length
      = (2 ^ k - 2 ^ k') * 31 := by
    rw [List.length_drop, hd]
    omega
  have hpad := @padFieldElements_append (2 ^ k' - 1) (2 ^ k - 2 ^ k') _ _
    (htake.trans (Nat.mul_comm _ _)) hdrop
  rw [List.take_append_drop] at hpad
  rw [hpad, ← length_padFieldElements htake, List.take_left] at hbody
  have hgroups := padFieldElements_inj htake hd' hbody
  -- the payloads are what both begin with
  have hstart := congrArg (List.take p.length) hgroups
  unfold zeroExtend at hstart
  rw [List.take_take, Nat.min_eq_left (by rw [hlen]; exact hp'.2),
    List.take_left, hlen, List.take_left] at hstart
  exact hstart

/-- A body and the body at another length encode the same payload, if
both are encodings. -/
theorem payload_of_fitElements {k k' n : Nat} {p p' : Bytes}
    (hp : Admissible k p) (hp' : Admissible k' p')
    (h : fitElements n (encodeV0 k p) = encodeV0 k' p') : p = p' := by
  have hlen := length_encodeV0 hp
  have hlen' := length_encodeV0 hp'
  have hn : n = 2 ^ k' := by
    rw [← h, fitElements, length_zeroExtend (List.length_take_le _ _)] at hlen'
    omega
  subst hn
  by_cases hk : k' ≤ k
  · have hpow : 2 ^ k' ≤ 2 ^ k := Nat.pow_le_pow_right (by omega) hk
    apply payload_of_take hp hp' hk
    rw [← h, fitElements, zeroExtend, List.length_take, hlen,
      Nat.min_eq_left (by omega), Nat.sub_self, List.replicate_zero,
      List.append_nil]
  · have hpow : 2 ^ k ≤ 2 ^ k' := Nat.pow_le_pow_right (by omega) (by omega)
    have hfull : (encodeV0 k p).take (32 * 2 ^ k') = encodeV0 k p :=
      List.take_of_length_le (by omega)
    refine (payload_of_take hp' hp (by omega) ?_).symm
    rw [← h, fitElements, hfull, zeroExtend, ← hlen, List.take_left]

/-- Two bodies, one of them the other at another length, have one
outcome when both are encodings or neither is. -/
theorem decodeOutcome_fitElements_iff (n : Nat) (b : Bytes) :
    decodeOutcome ⟨b⟩ = decodeOutcome ⟨fitElements n b⟩
      ↔ (IsEncoding b ↔ IsEncoding (fitElements n b)) := by
  rcases decodeOutcome_cases b with hb | hb <;>
    rcases decodeOutcome_cases (fitElements n b) with hf | hf
  · obtain ⟨k, p, hk, hb, hdb⟩ := hb
    obtain ⟨k', p', hk', hf, hdf⟩ := hf
    have heq : p = p' := payload_of_fitElements hk hk' (by rw [← hb]; exact hf)
    rw [hdb, hdf, heq]
    exact iff_of_true rfl
      (iff_of_true ⟨k, p, hk, hb⟩ ⟨k', p', hk', hf⟩)
  · obtain ⟨k, p, hk, hb, hdb⟩ := hb
    rw [hdb, hf.2]
    exact iff_of_false (by simp) fun h => hf.1 (h.mp ⟨k, p, hk, hb⟩)
  · obtain ⟨k', p', hk', hf, hdf⟩ := hf
    rw [hb.2, hdf]
    exact iff_of_false (by simp) fun h => hb.1 (h.mpr ⟨k', p', hk', hf⟩)
  · rw [hb.2, hf.2]
    exact iff_of_true rfl (iff_of_false hb.1 hf.1)

-- ============================================================ routes

/-- What the derivation does once the certificate is found valid: the
client's rule first, then what the payload call answers. -/
def recentOutcome (c : AltDACommitment) (l1InclusionBn : Nat)
    (answer : Option RouteOutcome) : Option RouteOutcome :=
  match checkRecency c l1InclusionBn with
  | .error e => some (.ofKind e.toErrorKind)
  | .ok () => answer

/-- A refused commitment is never retried, nor does it give a
payload. -/
theorem recentOutcome_cases (c : AltDACommitment) (l1InclusionBn : Nat) :
    RecencyRefused c l1InclusionBn
        ∧ (∀ answer answer', recentOutcome c l1InclusionBn answer
          = recentOutcome c l1InclusionBn answer')
        ∧ (∀ answer, recentOutcome c l1InclusionBn answer ≠ some .retry)
      ∨ ¬ RecencyRefused c l1InclusionBn
        ∧ ∀ answer, recentOutcome c l1InclusionBn answer = answer := by
  unfold recentOutcome RecencyRefused
  cases h : checkRecency c l1InclusionBn with
  | error e =>
      refine .inl ⟨⟨e, rfl⟩, fun _ _ => rfl, fun _ hretry => ?_⟩
      change some (RouteOutcome.ofKind e.toErrorKind) = some .retry at hretry
      cases hkind : e.toErrorKind with
      | temporary text => exact e.toErrorKind_ne_temporary text hkind
      | discard text =>
          rw [hkind] at hretry
          cases hretry
      | critical text =>
          rw [hkind] at hretry
          cases hretry
  | ok u => exact .inr ⟨by simp, fun _ => rfl⟩

/-- The online route, on every reply. -/
theorem onlineRoute_eq (reply : ProxyReply) (c : AltDACommitment)
    (l1InclusionBn : Nat) :
    onlineRoute reply c l1InclusionBn
      = match fetchDataFromProxy reply with
        | .error _ => some .retry
        | .ok stage =>
            if stage.isValidCert then
              recentOutcome c l1InclusionBn
                (decodeOutcome ⟨stage.encodedPayload⟩)
            else some .discard := by
  cases hfetch : fetchDataFromProxy reply with
  | error e =>
      simp [onlineRoute, routeOutcome, EigenDAPreimageSource.next,
        OnlineEigenDAPreimageProvider.provider,
        OnlineEigenDAPreimageProvider.getValidity,
        OnlineEigenDAPreimageProvider.getOrFetchPayload,
        OnlineEigenDAPreimageProvider.cached, hfetch, RouteOutcome.ofKind]
  | ok stage =>
      obtain ⟨isValidCert, passRecencyCheck, encodedPayload⟩ := stage
      cases isValidCert with
      | false =>
          simp [onlineRoute, routeOutcome, EigenDAPreimageSource.next,
            OnlineEigenDAPreimageProvider.provider,
            OnlineEigenDAPreimageProvider.getValidity,
            OnlineEigenDAPreimageProvider.getOrFetchPayload,
            OnlineEigenDAPreimageProvider.cached, hfetch, RouteOutcome.ofKind,
            HokuleaPreimageError.toErrorKind]
      | true =>
          -- the payload call is answered from the cache
          cases hrecent : checkRecency c l1InclusionBn <;>
            simp [onlineRoute, routeOutcome, EigenDAPreimageSource.next,
              OnlineEigenDAPreimageProvider.provider,
              OnlineEigenDAPreimageProvider.getValidity,
              OnlineEigenDAPreimageProvider.getEncodedPayload,
              OnlineEigenDAPreimageProvider.getOrFetchPayload,
              OnlineEigenDAPreimageProvider.cached, hfetch, hrecent,
              recentOutcome]

section Oracle

variable {K : KeyScheme} {c : AltDACommitment} {kv : KeyValueStore}

/-- Without a body, the first element read asks for a retry; a
commitment of no elements reads none. -/
theorem getEncodedPayload_storeOracle_none {verdict : Option Bool}
    (h : Holds K c kv verdict none) :
    OracleEigenDAPreimageProvider.getEncodedPayload K Handler.storeOracle c kv
      = if c.getNumFieldElement = 0 then some (.ok ⟨[]⟩, kv)
        else some (.error (.preimage (.other "Key not found.")), kv) := by
  unfold OracleEigenDAPreimageProvider.getEncodedPayload
  have hwrite : Handler.storeOracle.write (encodeEigenDACertHint c.toRlpBytes) kv
      = (.ok (), kv) := rfl
  simp only [hwrite, Option.bind_eq_bind]
  cases hn : c.getNumFieldElement with
  | zero => rfl
  | succ n =>
      have hmissing := h.elements 0 (by omega)
      unfold elementKey at hmissing
      rw [List.range_succ_eq_map, OracleEigenDAPreimageProvider.fetchEncodedPayload]
      simp [Handler.storeOracle, hmissing]

/-- What the client makes of the body of a page for `n` elements. -/
def bodyOutcome (n : Nat) : Option Bytes → Option RouteOutcome
  | some b => decodeOutcome ⟨fitElements n b⟩
  | none => if n = 0 then some .discard else some .retry

/-- The derivation on a page that holds a verdict. -/
theorem routeOutcome_storeOracle {verdict : Bool} {body : Option Bytes}
    (h : Holds K c kv (some verdict) body)
    (hbody : ∀ b, body = some b → b.length % 32 = 0) (l1InclusionBn : Nat) :
    routeOutcome (OracleEigenDAPreimageProvider.provider K Handler.storeOracle)
        c l1InclusionBn kv
      = if verdict then
          recentOutcome c l1InclusionBn
            (bodyOutcome c.getNumFieldElement body)
        else some .discard := by
  have hvalidity : (OracleEigenDAPreimageProvider.provider K
      Handler.storeOracle).getValidity c kv = some (.ok verdict, kv) :=
    getValidity_storeOracle h
  unfold routeOutcome EigenDAPreimageSource.next
  simp only [hvalidity, Option.bind_eq_bind, Option.bind_some]
  cases verdict with
  | false => rfl
  | true =>
      unfold recentOutcome
      cases hrecent : checkRecency c l1InclusionBn with
      | error e => rfl
      | ok u =>
          cases body with
          | some b =>
              have hread : (OracleEigenDAPreimageProvider.provider K
                  Handler.storeOracle).getEncodedPayload c kv
                  = some (.ok ⟨fitElements c.getNumFieldElement b⟩, kv) :=
                getEncodedPayload_storeOracle h (hbody b rfl)
              simp [hread, bodyOutcome]
          | none =>
              have hread : (OracleEigenDAPreimageProvider.provider K
                  Handler.storeOracle).getEncodedPayload c kv = _ :=
                getEncodedPayload_storeOracle_none h
              unfold bodyOutcome
              by_cases hn : c.getNumFieldElement = 0
              · rw [if_pos hn] at hread
                simp only [hread, Option.bind_some, hn, if_true]
                exact decodeOutcome_nil
              · rw [if_neg hn] at hread
                simp only [hread, Option.bind_some, hn, if_true, if_false]
                rfl

/-- A hint that returns is followed by the derivation. -/
theorem oracleRoute_of_returns {reply : ProxyReply}
    (h : (Handler.fetchEigendaHint K c.toRlpBytes reply kv).1 = some (.ok ()))
    (l1InclusionBn : Nat) :
    oracleRoute K reply c l1InclusionBn kv
      = routeOutcome (OracleEigenDAPreimageProvider.provider K
          Handler.storeOracle) c l1InclusionBn
          (Handler.fetchEigendaHint K c.toRlpBytes reply kv).2 := by
  unfold oracleRoute
  split
  next hrun => rw [hrun]
  next hnot => exact (hnot _ (Prod.ext h rfl)).elim

/-- One that fails or panics is retried. -/
theorem oracleRoute_of_not_returns {reply : ProxyReply}
    (h : (Handler.fetchEigendaHint K c.toRlpBytes reply kv).1 ≠ some (.ok ()))
    (l1InclusionBn : Nat) :
    oracleRoute K reply c l1InclusionBn kv = some .retry := by
  unfold oracleRoute
  split
  next hrun => exact absurd (by rw [hrun]) h
  next => rfl

/-- The oracle route, on every reply to a commitment a hint is parsed
to. -/
theorem oracleRoute_eq (hS : CollisionFree K {c}) (ht : c.commitmentType = 1)
    (hd : c.daLayerByte = 0) (hfresh : Holds K c kv none none)
    (reply : ProxyReply) (l1InclusionBn : Nat) :
    oracleRoute K reply c l1InclusionBn kv
      = match fetchDataFromProxy reply with
        | .error _ => some .retry
        | .ok stage =>
            if stage.isValidCert then
              if stage.passRecencyCheck then
                if Storable stage then
                  recentOutcome c l1InclusionBn (bodyOutcome
                    c.getNumFieldElement (some stage.encodedPayload))
                else some .retry
              else
                recentOutcome c l1InclusionBn
                  (bodyOutcome c.getNumFieldElement none)
            else some .discard := by
  have hparse := AltDACommitment.tryFrom_toRlpBytes_self ht hd
    (hS.addressable c rfl)
  have hparsed : ∀ d, AltDACommitment.tryFrom c.toRlpBytes = .ok d →
      d ∈ ({c} : Set AltDACommitment) := by
    intro d hd
    rw [hparse] at hd
    exact (Except.ok.inj hd).symm
  have hpage := @holds_fetchEigendaHint K _ c hS rfl (c.toRlpBytes, reply)
    hparsed _ _ _ hfresh
  cases hfetch : fetchDataFromProxy reply with
  | error e =>
      apply oracleRoute_of_not_returns
      simp [Handler.fetchEigendaHint, hparse, hfetch]
  | ok stage =>
      have hstage : stageOf c (c.toRlpBytes, reply) = some stage := by
        simp [stageOf, hparse, hfetch, Except.toOption]
      have hbody : ∀ b, bodyOf c (c.toRlpBytes, reply) = some b →
          b.length % 32 = 0 := fun b => length_bodyOf
      simp only [verdictOf, bodyOf, hstage, Option.map_some, Option.or_none]
        at hpage hbody
      have hreturns : _ ↔ (_ → _ → Storable stage) :=
        @fetchEigendaHint_returns_iff K _ _ kv _ _ hparse hfetch
      simp only
      by_cases hserved : stage.isValidCert = true →
          stage.passRecencyCheck = true → Storable stage
      · -- the hint returns, and the derivation reads the page
        rw [oracleRoute_of_returns (hreturns.mpr hserved),
          routeOutcome_storeOracle hpage hbody]
        by_cases hvalid : stage.isValidCert = true
        case neg => simp [hvalid]
        by_cases hrecent : stage.passRecencyCheck = true
        · simp [hvalid, hrecent, hserved hvalid hrecent]
        · have hnot : ¬ Storable stage := fun h => hrecent h.2.1
          simp [hvalid, hrecent, hnot]
      · -- the hint fails or panics on the body
        obtain ⟨hvalid, hrecent, hnot⟩ : stage.isValidCert = true
            ∧ stage.passRecencyCheck = true ∧ ¬ Storable stage := by
          simpa using hserved
        rw [oracleRoute_of_not_returns (mt hreturns.mp hserved)]
        simp [hvalid, hrecent, hnot]

/-- No hint is parsed to a commitment of another type or layer. -/
theorem oracleRoute_unparsed
    (h : ¬ (c.commitmentType = 1 ∧ c.daLayerByte = 0)) (reply : ProxyReply)
    (l1InclusionBn : Nat) :
    oracleRoute K reply c l1InclusionBn kv = some .retry := by
  unfold oracleRoute Handler.fetchEigendaHint
  cases hparse : AltDACommitment.tryFrom c.toRlpBytes with
  | error e => rfl
  | ok d =>
      obtain ⟨ht, hd, rest, hbytes, -⟩ := AltDACommitment.tryFrom_inv hparse
      obtain ⟨ctail, hc⟩ := c.toRlpBytes_eq_cons
      obtain ⟨dtail, hdtail⟩ := d.toRlpBytes_eq_cons
      rw [hc, hdtail, ht, hd] at hbytes
      obtain ⟨htype, hrest⟩ := List.cons.inj hbytes
      exact absurd ⟨htype, (List.cons.inj hrest).1⟩ h

/-- A stage is never retried by the online route. -/
theorem onlineRoute_ne_retry {reply : ProxyReply} {stage : ProxyDerivationStage}
    (hstage : StageOf reply stage) (l1InclusionBn : Nat) :
    onlineRoute reply c l1InclusionBn ≠ some .retry := by
  rw [onlineRoute_eq, fetchDataFromProxy_eq_ok_iff.mpr hstage]
  simp only
  by_cases hvalid : stage.isValidCert = true
  case neg => simp [hvalid]
  rw [if_pos hvalid]
  rcases recentOutcome_cases c l1InclusionBn with hc | hc
  · exact hc.2.2 _
  · rw [hc.2]
    rcases decodeOutcome_cases stage.encodedPayload with hb | hb
    · obtain ⟨k, p, -, -, hdecode⟩ := hb
      simp [hdecode]
    · simp [hb.2]

/-- A stale certificate: the online route discards the empty body, the
other retries its first element. -/
theorem stale_agree_iff (l1InclusionBn : Nat) :
    recentOutcome c l1InclusionBn (decodeOutcome ⟨[]⟩)
        = recentOutcome c l1InclusionBn
          (bodyOutcome c.getNumFieldElement none)
      ↔ RecencyRefused c l1InclusionBn ∨ c.getNumFieldElement = 0 := by
  rcases recentOutcome_cases c l1InclusionBn with hc | hc
  · exact iff_of_true (hc.2.1 _ _) (.inl hc.1)
  · rw [hc.2, hc.2, decodeOutcome_nil, bodyOutcome]
    by_cases hn : c.getNumFieldElement = 0 <;> simp [hc.1, hn]

/-- A body that was stored: the routes decode it at two lengths. -/
theorem body_agree_iff (l1InclusionBn : Nat) (b : Bytes) :
    recentOutcome c l1InclusionBn (decodeOutcome ⟨b⟩)
        = recentOutcome c l1InclusionBn
          (bodyOutcome c.getNumFieldElement (some b))
      ↔ RecencyRefused c l1InclusionBn
        ∨ (IsEncoding b ↔ IsEncoding (fitElements c.getNumFieldElement b)) := by
  rcases recentOutcome_cases c l1InclusionBn with hc | hc
  · exact iff_of_true (hc.2.1 _ _) (.inl hc.1)
  · rw [hc.2, hc.2, bodyOutcome, decodeOutcome_fitElements_iff]
    simp [hc.1]

/-- The two routes come to one outcome exactly when they meet. -/
theorem routes_agree_iff (hS : CollisionFree K {c})
    (hfresh : Holds K c kv none none) (reply : ProxyReply)
    (l1InclusionBn : Nat) :
    onlineRoute reply c l1InclusionBn = oracleRoute K reply c l1InclusionBn kv
      ↔ RoutesMeet c l1InclusionBn reply := by
  cases hfetch : fetchDataFromProxy reply with
  | error e =>
      -- both retry, and there is no stage to ask anything of
      have honline : onlineRoute reply c l1InclusionBn = some .retry := by
        rw [onlineRoute_eq, hfetch]
      have horacle : oracleRoute K reply c l1InclusionBn kv = some .retry := by
        by_cases hkind : c.commitmentType = 1 ∧ c.daLayerByte = 0
        · rw [oracleRoute_eq hS hkind.1 hkind.2 hfresh, hfetch]
        · exact oracleRoute_unparsed hkind reply l1InclusionBn
      exact iff_of_true (honline.trans horacle.symm) fun stage hstage =>
        absurd hstage (not_stageOf hfetch stage)
  | ok stage =>
      have hstage := fetchDataFromProxy_eq_ok_iff.mp hfetch
      have hmeet : RoutesMeet c l1InclusionBn reply ↔ _ :=
        ⟨fun h => h stage hstage, fun h other hother =>
          (hstage.unique hother) ▸ h⟩
      rw [hmeet]
      by_cases hkind : c.commitmentType = 1 ∧ c.daLayerByte = 0
      case neg =>
        rw [oracleRoute_unparsed hkind]
        exact iff_of_false (onlineRoute_ne_retry hstage _)
          fun h => hkind ⟨h.1, h.2.1⟩
      rw [oracleRoute_eq hS hkind.1 hkind.2 hfresh, onlineRoute_eq, hfetch]
      simp only [hkind.1, hkind.2, true_and]
      by_cases hvalid : stage.isValidCert = true
      case neg => simp [hvalid]
      by_cases hrecent : stage.passRecencyCheck = true
      · by_cases hstorable : Storable stage
        · simp only [hvalid, hrecent, hstorable, if_true, forall_const,
            true_and, Bool.true_eq_false, false_imp_iff]
          exact body_agree_iff _ _
        · -- the online route never retries
          have hne := onlineRoute_ne_retry (c := c) hstage l1InclusionBn
          rw [onlineRoute_eq, hfetch] at hne
          simp only [hvalid, if_true] at hne
          simp only [hvalid, hrecent, hstorable, if_true, if_false,
            forall_const, false_and, and_false, iff_false]
          exact hne
      · have hnil : stage.encodedPayload = [] := by
          cases hstage <;> simp_all
        simp only [hvalid, hrecent, if_true, forall_const, hnil,
          Bool.false_eq_true, if_false, false_imp_iff, and_true]
        exact stale_agree_iff _

end Oracle

-- -------------------------------------------- two runs on one element

/-- A teapot that calls a certificate stale. -/
def staleReply : ProxyReply :=
  .response ⟨418, .error "", .ok ⟨STATUS_CODE_RECENCY_ERROR, ""⟩, ""⟩

theorem fetchDataFromProxy_staleReply :
    fetchDataFromProxy staleReply = .ok ⟨true, false, []⟩ :=
  fetchDataFromProxy_eq_ok_iff.mpr (.stale rfl rfl)

theorem fetchDataFromProxy_emptyReply :
    fetchDataFromProxy emptyReply = .ok ⟨true, true, List.replicate 32 0⟩ :=
  fetchDataFromProxy_eq_ok_iff.mpr (.success rfl rfl)

theorem holds_empty (K : KeyScheme) (c : AltDACommitment) :
    Holds K c (fun _ => none) none none :=
  ⟨rfl, fun _ _ => rfl⟩

/-- The encoding of the empty payload, on both routes. -/
theorem routes_agree_emptyReply :
    onlineRoute emptyReply oneElement 0
      = oracleRoute testKeyScheme emptyReply oneElement 0 fun _ => none := by
  refine (routes_agree_iff testKeyScheme_collisionFree (holds_empty _ _)
    emptyReply 0).mpr fun stage hstage => ?_
  have hfetch := fetchDataFromProxy_eq_ok_iff.mpr hstage
  rw [fetchDataFromProxy_emptyReply] at hfetch
  rw [← Except.ok.inj hfetch]
  refine ⟨rfl, rfl, nofun, fun _ _ => ⟨by decide, .inr ?_⟩⟩
  have hfit : fitElements oneElement.getNumFieldElement (List.replicate 32 0)
      = List.replicate 32 0 := by
    decide
  rw [hfit]

/-- The teapot, on a commitment that the client's rule lets pass: one
route discards, the other asks again for ever. -/
theorem routes_part_staleReply :
    onlineRoute staleReply oneElement 0 = some .discard
      ∧ oracleRoute testKeyScheme staleReply oneElement 0 (fun _ => none)
        = some .retry
      ∧ onlineRoute staleReply oneElement 0
        ≠ oracleRoute testKeyScheme staleReply oneElement 0 fun _ => none := by
  have honline : onlineRoute staleReply oneElement 0 = some .discard := by
    rw [onlineRoute_eq, fetchDataFromProxy_staleReply]
    decide
  have horacle : oracleRoute testKeyScheme staleReply oneElement 0 (fun _ => none)
      = some .retry := by
    rw [oracleRoute_eq testKeyScheme_collisionFree rfl rfl (holds_empty _ _),
      fetchDataFromProxy_staleReply]
    decide
  refine ⟨honline, horacle, ?_⟩
  rw [honline, horacle]
  decide

-- ============================================================ served

/-- A body that EigenDA can commit to for a commitment. -/
structure Committable (c : AltDACommitment) (body : Bytes) : Prop where
  ne_nil : body ≠ []
  le : body.length ≤ BYTES_PER_FIELD_ELEMENT * c.getNumFieldElement
  whole : body.length % BYTES_PER_FIELD_ELEMENT = 0
  canonical : ∀ chunk ∈ chunksExact BYTES_PER_FIELD_ELEMENT body,
    beNat chunk < Fr.modulus

/-- The hint returns, every key the client asks for is there, and the
derivation decides, at every block. -/
structure Served (K : KeyScheme) (c : AltDACommitment) (reply : ProxyReply)
    (kv : KeyValueStore) : Prop where
  returns : (Handler.fetchEigendaHint K c.toRlpBytes reply kv).1 = some (.ok ())
  validity : ((Handler.fetchEigendaHint K c.toRlpBytes reply kv).2
    (validityKey K c)).isSome
  elements : ∀ i < c.getNumFieldElement,
    ((Handler.fetchEigendaHint K c.toRlpBytes reply kv).2
      (elementKey K c i)).isSome
  decides : ∀ l1InclusionBn, ∃ outcome,
    oracleRoute K reply c l1InclusionBn kv = some outcome ∧ outcome ≠ .retry

/-- Three zero bits on top, in terms of the number. -/
theorem and_top_eq_zero (b : UInt8) :
    (b &&& 0b11100000 == 0) = decide (b.toNat < 2 ^ 5) := by
  have hall : ∀ n : Fin 256, (UInt8.ofNat n &&& 0b11100000 == 0)
      = decide (n.val < 2 ^ 5) := by
    decide +kernel
  have h := hall ⟨b.toNat, b.toNat_lt⟩
  rwa [UInt8.ofNat_toNat] at h

/-- The host's check bounds an element by a power of two below the
modulus. -/
theorem chunkAccepted_iff {chunk : Bytes} (h : chunk.length = 32) :
    Handler.chunkAccepted chunk = true ↔ beNat chunk < 2 ^ 253 := by
  obtain ⟨b, tail, rfl⟩ :=
    List.exists_cons_of_length_pos (l := chunk) (by omega)
  have htail : tail.length = 31 := by simpa using h
  have hlt := beNat_lt tail
  have hbytes : beNat (b :: tail) = b.toNat * 2 ^ 248 + beNat tail := by
    rw [← List.singleton_append, beNat_append, beNat_singleton, htail]
    norm_num
  rw [Handler.chunkAccepted, List.headD_cons, and_top_eq_zero,
    decide_eq_true_iff, hbytes]
  rw [htail] at hlt
  omega

/-- Such a body passes the host's checks exactly when all its elements
are below that power. -/
theorem Committable.storable_iff {c : AltDACommitment} {body : Bytes}
    (hbody : Committable c body) :
    Storable ⟨true, true, body⟩
      ↔ ∀ chunk ∈ chunksExact BYTES_PER_FIELD_ELEMENT body,
          beNat chunk < 2 ^ 253 := by
  have hall : (chunksExact BYTES_PER_FIELD_ELEMENT body).all
        Handler.chunkAccepted = true
      ↔ ∀ chunk ∈ chunksExact BYTES_PER_FIELD_ELEMENT body,
        beNat chunk < 2 ^ 253 := by
    rw [List.all_eq_true]
    exact forall₂_congr fun chunk hchunk =>
      chunkAccepted_iff (length_of_mem_chunksExact hchunk)
  simp [Storable, hbody.ne_nil, hbody.whole, hall]

/-- A stored body overwrites the page, whatever the store held. -/
theorem holds_of_storable {K : KeyScheme} {c : AltDACommitment}
    (hS : CollisionFree K {c}) {reply : ProxyReply}
    {stage : ProxyDerivationStage}
    (hparse : AltDACommitment.tryFrom c.toRlpBytes = .ok c)
    (hfetch : fetchDataFromProxy reply = .ok stage) (hstorable : Storable stage)
    (kv : KeyValueStore) :
    Holds K c (Handler.fetchEigendaHint K c.toRlpBytes reply kv).2
      (some stage.isValidCert) (some stage.encodedPayload) := by
  have hstageOf : stageOf c (c.toRlpBytes, reply) = some stage := by
    simp [stageOf, hparse, hfetch, Except.toOption]
  rcases fetchEigendaHint_store (K := K) (c.toRlpBytes, reply) kv with
    hnone | hsome
  · have hstage := hnone.2 c
    rw [hstageOf] at hstage
    cases hstage
  · obtain ⟨d, other, hparse', hstage, hkv⟩ := hsome
    rw [hparse] at hparse'
    injection hparse' with hcd
    subst hcd
    rw [hstageOf] at hstage
    injection hstage with hother
    subst hother
    have hverdict : Handler.storeCertValidity K c stage.isValidCert kv
        (validityKey K c)
        = (some stage.isValidCert).map fun v => [if v then 1 else 0] :=
      Function.update_self _ _ _
    rw [hkv, if_pos hstorable]
    exact holds_storeFieldElements hS rfl hverdict _

/-- On a page with a verdict and a body the derivation decides. -/
theorem routeOutcome_decides {K : KeyScheme} {c : AltDACommitment}
    {kv : KeyValueStore} {verdict : Bool} {body : Bytes}
    (h : Holds K c kv (some verdict) (some body))
    (hwhole : body.length % 32 = 0) (l1InclusionBn : Nat) :
    ∃ outcome, routeOutcome
        (OracleEigenDAPreimageProvider.provider K Handler.storeOracle) c
        l1InclusionBn kv = some outcome
      ∧ outcome ≠ .retry := by
  have hbody : ∀ b, some body = some b → b.length % 32 = 0 := by
    intro b hb
    rw [← Option.some.inj hb]
    exact hwhole
  rw [routeOutcome_storeOracle h hbody]
  cases verdict with
  | false => exact ⟨.discard, rfl, nofun⟩
  | true =>
      rw [if_pos rfl, bodyOutcome]
      rcases recentOutcome_cases c l1InclusionBn with hc | hc
      · obtain ⟨⟨e, he⟩, -, hne⟩ := hc
        refine ⟨.ofKind e.toErrorKind, by rw [recentOutcome, he], ?_⟩
        intro hretry
        apply hne none
        rw [recentOutcome, he]
        exact congrArg some hretry
      · rw [hc.2]
        rcases decodeOutcome_cases (fitElements c.getNumFieldElement body) with
          hfit | hfit
        · obtain ⟨k, p, -, -, hdecode⟩ := hfit
          exact ⟨_, hdecode, nofun⟩
        · exact ⟨_, hfit.2, nofun⟩

/-- Of the bodies EigenDA can commit to, exactly those are served whose
elements are all below `2 ^ 253`. -/
theorem served_iff {K : KeyScheme} {c : AltDACommitment}
    (hS : CollisionFree K {c}) (ht : c.commitmentType = 1)
    (hd : c.daLayerByte = 0) {r : Response} {body : Bytes}
    (hs : r.isSuccess = true) (hb : r.bytes = .ok body)
    (hbody : Committable c body) (kv : KeyValueStore) :
    Served K c (.response r) kv
      ↔ ∀ chunk ∈ chunksExact BYTES_PER_FIELD_ELEMENT body,
          beNat chunk < 2 ^ 253 := by
  have hparse := AltDACommitment.tryFrom_toRlpBytes_self ht hd
    (hS.addressable c rfl)
  have hfetch : fetchDataFromProxy (.response r) = .ok ⟨true, true, body⟩ :=
    fetchDataFromProxy_eq_ok_iff.mpr (.success hs hb)
  have hreturns : _ ↔ (_ → _ → Storable ⟨true, true, body⟩) :=
    @fetchEigendaHint_returns_iff K _ _ kv _ _ hparse hfetch
  rw [← hbody.storable_iff]
  constructor
  · intro h
    exact hreturns.mp h.returns rfl rfl
  · intro hstorable
    have hret := hreturns.mpr fun _ _ => hstorable
    have hpage := holds_of_storable hS hparse hfetch hstorable kv
    refine ⟨hret, by simp [hpage.validity], fun i hi => by
      simp [hpage.elements i hi], fun l1InclusionBn => ?_⟩
    rw [oracleRoute_of_returns hret]
    exact routeOutcome_decides hpage hbody.whole l1InclusionBn

/-- The encoding of the empty payload is served. -/
theorem served_emptyReply :
    Served testKeyScheme oneElement emptyReply fun _ => none :=
  (served_iff testKeyScheme_collisionFree rfl rfl rfl rfl
    ⟨by decide, by decide, by decide, by decide +kernel⟩ _).mpr
    (by decide +kernel)

/-- One element, the power of two itself: a scalar all the same. -/
def topBitReply : ProxyReply :=
  .response ⟨200, .ok (0x20 :: List.replicate 31 0), .error "", ""⟩

/-- EigenDA can commit to it, and the host refuses it at every
attempt. -/
theorem not_served_topBitReply :
    Committable oneElement (0x20 :: List.replicate 31 0)
      ∧ (Handler.fetchEigendaHint testKeyScheme oneElement.toRlpBytes
          topBitReply fun _ => none).1
        = some (.error "invalid field element encoding")
      ∧ ¬ Served testKeyScheme oneElement topBitReply fun _ => none := by
  have hrefused : (Handler.fetchEigendaHint testKeyScheme
      oneElement.toRlpBytes topBitReply fun _ => none).1
      = some (.error "invalid field element encoding") := by
    have hfetch : fetchDataFromProxy topBitReply
        = .ok ⟨true, true, 0x20 :: List.replicate 31 0⟩ :=
      fetchDataFromProxy_eq_ok_iff.mpr (.success rfl rfl)
    simp only [Handler.fetchEigendaHint, tryFrom_oneElement, hfetch,
      Handler.storeEncodedPayload]
    decide +kernel
  refine ⟨⟨by decide, by decide, by decide, by decide +kernel⟩, hrefused,
    fun h => ?_⟩
  have hreturns := h.returns
  rw [hrefused] at hreturns
  cases hreturns

end Hokulea
