/-
The host's store and the client's reader, against one abstract book.

# The book

For each commitment the store keeps at most a verdict and a body:
`verdictOf` and `bodyOf` say what one hint contributes, `lastVerdict`
and `lastBody` what is left after many. `Holds` is the refinement: the
validity key and the element keys of a commitment say what its page of
the book says, all element keys or none.

# What is proved

- `elementKey_inj`, `validityKey_inj`, `validityKey_ne_elementKey`: one
  key, one commitment, one element, as long as the hashes at hand do
  not collide (`CollisionFree`);
- `holds_fetchEigendaHint`: one hint turns one page; a hint for another
  commitment turns none;
- `getEncodedPayload_storeOracle`, `getValidity_storeOracle`: the
  client reads the page back;
- `store_consistent`: so over every sequence of hints.
-/
import Hokulea.Host.Handler
import Hokulea.Proofs.Parsing
import Hokulea.Proofs.PayloadCodec

namespace Hokulea

open Bytes EncodedPayload

-- =========================================================== the keys

section Keys

variable (K : KeyScheme)

/-- The key of a commitment's validity. -/
def validityKey (c : AltDACommitment) : B256 :=
  K.key (withInterface (c.digestTemplate K.keccak256)
    RESERVED_EIGENDA_API_BYTE_FOR_VALIDITY)

/-- The key of one of its field elements. -/
def elementKey (c : AltDACommitment) (i : Nat) : B256 :=
  K.key (withIndex (c.digestTemplate K.keccak256) i)

/-- The addresses that occur for a set of commitments. -/
def Occurs (S : Set AltDACommitment) (address : Bytes) : Prop :=
  ∃ c ∈ S,
    address = withInterface (c.digestTemplate K.keccak256)
      RESERVED_EIGENDA_API_BYTE_FOR_VALIDITY
    ∨ ∃ i < c.getNumFieldElement,
      address = withIndex (c.digestTemplate K.keccak256) i

/-- No two of the digests, and no two of the keys, that occur for these
commitments collide. -/
structure CollisionFree (S : Set AltDACommitment) : Prop where
  addressable : ∀ c ∈ S, c.Addressable
  digest : ∀ c ∈ S, ∀ d ∈ S,
    c.toDigest K.keccak256 = d.toDigest K.keccak256 →
    c.toRlpBytes = d.toRlpBytes
  key : ∀ a b, Occurs K S a → Occurs K S b → K.key a = K.key b → a = b

end Keys

section Injectivity

variable {K : KeyScheme}

/-- An address for an element: digest, zeros, index. -/
theorem withIndex_digestTemplate (c : AltDACommitment) (i : Nat) :
    withIndex (c.digestTemplate K.keccak256) i
      = (c.toDigest K.keccak256).val
        ++ (0 :: (List.replicate 39 0 ++ beBytes 8 i)) := by
  have hlen : (c.toDigest K.keccak256).val.length = 32 :=
    (c.toDigest K.keccak256).property
  have htake : (List.replicate 48 (0 : UInt8)).take 40 = 0 :: List.replicate 39 0 :=
    rfl
  unfold withIndex AltDACommitment.digestTemplate
  rw [List.take_append, hlen, List.take_of_length_le (by omega), htake]
  simp only [List.append_assoc, List.cons_append]

/-- The address for the validity: digest, interface byte, zeros. -/
theorem withInterface_digestTemplate (c : AltDACommitment) (b : UInt8) :
    withInterface (c.digestTemplate K.keccak256) b
      = (c.toDigest K.keccak256).val ++ (b :: List.replicate 47 0) := by
  have hlen : (c.toDigest K.keccak256).val.length = 32 :=
    (c.toDigest K.keccak256).property
  unfold withInterface AltDACommitment.digestTemplate
    RESERVED_EIGENDA_API_BYTE_INDEX
  rw [List.set_append_right _ _ (by omega), hlen]
  rfl

variable {S : Set AltDACommitment} {c d : AltDACommitment}

/-- One digest, one commitment. -/
theorem eq_of_digest (hS : CollisionFree K S) (hc : c ∈ S) (hd : d ∈ S)
    (h : (c.toDigest K.keccak256).val = (d.toDigest K.keccak256).val) : c = d :=
  AltDACommitment.toRlpBytes_inj (hS.addressable c hc) (hS.addressable d hd)
    (hS.digest c hc d hd (Subtype.ext h))

/-- One validity key, one commitment. -/
theorem validityKey_inj (hS : CollisionFree K S) (hc : c ∈ S) (hd : d ∈ S)
    (h : validityKey K c = validityKey K d) : c = d := by
  have haddress := hS.key _ _ ⟨c, hc, .inl rfl⟩ ⟨d, hd, .inl rfl⟩ h
  rw [withInterface_digestTemplate, withInterface_digestTemplate] at haddress
  exact eq_of_digest hS hc hd (List.append_inj_left haddress
    ((c.toDigest K.keccak256).property.trans
      (d.toDigest K.keccak256).property.symm))

/-- One element key, one commitment and one index. -/
theorem elementKey_inj (hS : CollisionFree K S) (hc : c ∈ S) (hd : d ∈ S)
    {i j : Nat} (hi : i < c.getNumFieldElement) (hj : j < d.getNumFieldElement)
    (h : elementKey K c i = elementKey K d j) : c = d ∧ i = j := by
  have haddress := hS.key _ _ ⟨c, hc, .inr ⟨i, hi, rfl⟩⟩
    ⟨d, hd, .inr ⟨j, hj, rfl⟩⟩ h
  rw [withIndex_digestTemplate, withIndex_digestTemplate] at haddress
  obtain ⟨hdigest, hindex⟩ := List.append_inj haddress
    ((c.toDigest K.keccak256).property.trans
      (d.toDigest K.keccak256).property.symm)
  have hbytes : beBytes 8 i = beBytes 8 j :=
    List.append_cancel_left (List.cons.inj hindex).2
  have hi' := c.getNumFieldElement_lt
  have hj' := d.getNumFieldElement_lt
  refine ⟨eq_of_digest hS hc hd hdigest, ?_⟩
  calc i = beNat (beBytes 8 i) := (beNat_beBytes (by omega)).symm
    _ = beNat (beBytes 8 j) := by rw [hbytes]
    _ = j := beNat_beBytes (by omega)

/-- The interface byte keeps validity apart from elements. -/
theorem validityKey_ne_elementKey (hS : CollisionFree K S) (hc : c ∈ S)
    (hd : d ∈ S) {i : Nat} (hi : i < d.getNumFieldElement) :
    validityKey K c ≠ elementKey K d i := by
  intro h
  have haddress := hS.key _ _ ⟨c, hc, .inl rfl⟩ ⟨d, hd, .inr ⟨i, hi, rfl⟩⟩ h
  rw [withInterface_digestTemplate, withIndex_digestTemplate] at haddress
  have htail := List.append_inj_right haddress
    ((c.toDigest K.keccak256).property.trans
      (d.toDigest K.keccak256).property.symm)
  have hbyte := (List.cons.inj htail).1
  exact absurd hbyte (by decide)

end Injectivity

-- =========================================================== the book

/-- A hint: the bytes the client sent, and the proxy's reply to them. -/
abbrev EigenDAHint := Bytes × ProxyReply

/-- The stage a hint makes for a commitment, if it is for it. -/
def stageOf (c : AltDACommitment) (hint : EigenDAHint) :
    Option ProxyDerivationStage :=
  match AltDACommitment.tryFrom hint.1 with
  | .error _ => none
  | .ok d => if d = c then (fetchDataFromProxy hint.2).toOption else none

/-- Stages whose body is stored: the certificate was found valid and
recent, and the body passes the host's checks. -/
def Storable (stage : ProxyDerivationStage) : Prop :=
  stage.isValidCert = true ∧ stage.passRecencyCheck = true
    ∧ stage.encodedPayload.length % 32 = 0 ∧ stage.encodedPayload ≠ []
    ∧ (chunksExact BYTES_PER_FIELD_ELEMENT stage.encodedPayload).all
        Handler.chunkAccepted = true

instance (stage : ProxyDerivationStage) : Decidable (Storable stage) :=
  inferInstanceAs (Decidable (_ ∧ _))

/-- The verdict a hint enters for a commitment. -/
def verdictOf (c : AltDACommitment) (hint : EigenDAHint) : Option Bool :=
  (stageOf c hint).map (·.isValidCert)

/-- The body it enters. -/
def bodyOf (c : AltDACommitment) (hint : EigenDAHint) : Option Bytes :=
  match stageOf c hint with
  | some stage => if Storable stage then some stage.encodedPayload else none
  | none => none

/-- The verdict of the last reply for a commitment that made a
stage. -/
def lastVerdict (c : AltDACommitment) (hints : List EigenDAHint) :
    Option Bool :=
  (hints.filterMap (verdictOf c)).getLast?

/-- The last body stored for it. -/
def lastBody (c : AltDACommitment) (hints : List EigenDAHint) : Option Bytes :=
  (hints.filterMap (bodyOf c)).getLast?

/-- The store agrees with a page of the book. -/
structure Holds (K : KeyScheme) (c : AltDACommitment) (kv : KeyValueStore)
    (verdict : Option Bool) (body : Option Bytes) : Prop where
  validity : kv (validityKey K c)
    = verdict.map fun v => [if v then 1 else 0]
  elements : ∀ i < c.getNumFieldElement,
    kv (elementKey K c i) = body.map fun b => Handler.fieldElement b i

/-- Many hints, one after another, whatever each returns. -/
def runHints (K : KeyScheme) (hints : List EigenDAHint) (kv : KeyValueStore) :
    KeyValueStore :=
  hints.foldl (fun kv hint => (Handler.fetchEigendaHint K hint.1 hint.2 kv).2) kv

/-- A hint that is not parsed to a commitment enters no stage for
it. -/
theorem stageOf_eq_none {c : AltDACommitment} {hint : EigenDAHint}
    (h : AltDACommitment.tryFrom hint.1 ≠ .ok c) : stageOf c hint = none := by
  unfold stageOf
  split
  · rfl
  next d hd =>
    rw [if_neg]
    intro hdc
    exact h (by rw [hd, hdc])

/-- A body that is entered is that of a storable stage. -/
theorem bodyOf_eq_some_iff {c : AltDACommitment} {hint : EigenDAHint}
    {body : Bytes} :
    bodyOf c hint = some body
      ↔ ∃ stage, stageOf c hint = some stage ∧ Storable stage
        ∧ stage.encodedPayload = body := by
  unfold bodyOf
  cases stageOf c hint with
  | none => simp
  | some stage =>
      by_cases hstorable : Storable stage
      · simp [hstorable]
      · simp [hstorable]

/-- It is a whole number of elements. -/
theorem length_bodyOf {c : AltDACommitment} {hint : EigenDAHint} {body : Bytes}
    (h : bodyOf c hint = some body) : body.length % 32 = 0 := by
  obtain ⟨stage, -, hstorable, rfl⟩ := bodyOf_eq_some_iff.mp h
  exact hstorable.2.2.1

-- ========================================================== the writer

section Writer

variable {K : KeyScheme}

/-- The element loop writes no other keys. -/
theorem storeFieldElements_other {template body : Bytes} {k : B256}
    {is : List Nat} {kv : KeyValueStore}
    (h : ∀ i ∈ is, k ≠ K.key (withIndex template i)) :
    Handler.storeFieldElements K template body is kv k = kv k := by
  induction is generalizing kv with
  | nil => rfl
  | cons i is ih =>
      unfold Handler.storeFieldElements
      rw [ih fun j hj => h j (by simp [hj])]
      exact Function.update_of_ne (h i (by simp)) _ _

/-- It writes each element under its key, the keys being different. -/
theorem storeFieldElements_mem {template body : Bytes} {i : Nat}
    {is : List Nat} {kv : KeyValueStore} (hi : i ∈ is) (hnodup : is.Nodup)
    (hinj : ∀ j ∈ is, K.key (withIndex template i) = K.key (withIndex template j) →
      i = j) :
    Handler.storeFieldElements K template body is kv (K.key (withIndex template i))
      = some (Handler.fieldElement body i) := by
  induction is generalizing kv with
  | nil => cases hi
  | cons j is ih =>
      obtain ⟨hnot, hnodup⟩ := List.nodup_cons.mp hnodup
      unfold Handler.storeFieldElements
      rcases List.mem_cons.mp hi with rfl | hi
      · rw [storeFieldElements_other]
        · exact Function.update_self _ _ _
        · intro k hk heq
          have hik := hinj k (by simp [hk]) heq
          rw [hik] at hnot
          exact hnot hk
      · exact ih hi hnodup fun k hk => hinj k (by simp [hk])

/-- A body that is to be stored is written, or refused by the host's
checks, which leave the store as it was. -/
theorem storeEncodedPayload_cases {stage : ProxyDerivationStage}
    (hvalid : stage.isValidCert = true) (hrecent : stage.passRecencyCheck = true)
    (d : AltDACommitment) (kv : KeyValueStore) :
    Storable stage
        ∧ Handler.storeEncodedPayload K d stage.encodedPayload kv
          = (some (.ok ()),
            Handler.storeFieldElements K (d.digestTemplate K.keccak256)
              stage.encodedPayload (List.range d.getNumFieldElement) kv)
      ∨ ¬ Storable stage
        ∧ ∃ r, r ≠ some (.ok ())
          ∧ Handler.storeEncodedPayload K d stage.encodedPayload kv = (r, kv) := by
  unfold Handler.storeEncodedPayload Storable
  by_cases hlen : stage.encodedPayload.length % 32 = 0
  case neg => exact .inr ⟨by simp [hlen], none, nofun, by simp [hlen]⟩
  by_cases hempty : stage.encodedPayload = []
  case pos => exact .inr ⟨by simp [hempty], none, nofun, by simp [hempty]⟩
  by_cases hall : (chunksExact BYTES_PER_FIELD_ELEMENT
      stage.encodedPayload).all Handler.chunkAccepted = true
  · exact .inl ⟨⟨hvalid, hrecent, hlen, hempty, hall⟩, by
      simp [hlen, hempty, hall]⟩
  · exact .inr ⟨fun h => hall h.2.2.2.2,
      some (.error "invalid field element encoding"), nofun, by
      simp [hlen, hempty, hall]⟩

/-- What one hint does to the store: nothing, or it enters its stage
for the commitment it parses to. -/
theorem fetchEigendaHint_store (hint : EigenDAHint) (kv : KeyValueStore) :
    (Handler.fetchEigendaHint K hint.1 hint.2 kv).2 = kv
        ∧ (∀ c, stageOf c hint = none)
      ∨ ∃ d stage, AltDACommitment.tryFrom hint.1 = .ok d
        ∧ stageOf d hint = some stage
        ∧ (Handler.fetchEigendaHint K hint.1 hint.2 kv).2
          = if Storable stage then
              Handler.storeFieldElements K (d.digestTemplate K.keccak256)
                stage.encodedPayload (List.range d.getNumFieldElement)
                (Handler.storeCertValidity K d stage.isValidCert kv)
            else Handler.storeCertValidity K d stage.isValidCert kv := by
  unfold Handler.fetchEigendaHint stageOf
  cases hparse : AltDACommitment.tryFrom hint.1 with
  | error e => exact .inl ⟨rfl, fun c => rfl⟩
  | ok d =>
      cases hfetch : fetchDataFromProxy hint.2 with
      | error e =>
          refine .inl ⟨rfl, fun c => ?_⟩
          simp [Except.toOption]
      | ok stage =>
          refine .inr ⟨d, stage, rfl, by simp [Except.toOption], ?_⟩
          simp only
          by_cases hvalid : stage.isValidCert = true
          case neg => simp [Storable, hvalid]
          by_cases hrecent : stage.passRecencyCheck = true
          case neg => simp [Storable, hvalid, hrecent]
          rcases storeEncodedPayload_cases (K := K) hvalid hrecent d
            (Handler.storeCertValidity K d stage.isValidCert kv) with h | h
          · obtain ⟨hstorable, hstore⟩ := h
            rw [if_pos hstorable, hstore]
            simp [hvalid, hrecent]
          · obtain ⟨hnot, r, -, hstore⟩ := h
            rw [if_neg hnot, hstore]
            simp [hvalid, hrecent]

/-- When the hint returns: a stage that asks for its body to be stored
has a body that can be. -/
theorem fetchEigendaHint_returns_iff {bytes : Bytes} {reply : ProxyReply}
    {kv : KeyValueStore} {d : AltDACommitment} {stage : ProxyDerivationStage}
    (hparse : AltDACommitment.tryFrom bytes = .ok d)
    (hfetch : fetchDataFromProxy reply = .ok stage) :
    (Handler.fetchEigendaHint K bytes reply kv).1 = some (.ok ())
      ↔ (stage.isValidCert = true → stage.passRecencyCheck = true →
          Storable stage) := by
  unfold Handler.fetchEigendaHint
  simp only [hparse, hfetch]
  by_cases hvalid : stage.isValidCert = true
  case neg => simp [hvalid]
  by_cases hrecent : stage.passRecencyCheck = true
  case neg => simp [hvalid, hrecent]
  rcases storeEncodedPayload_cases (K := K) hvalid hrecent d
    (Handler.storeCertValidity K d stage.isValidCert kv) with h | h
  · obtain ⟨hstorable, hstore⟩ := h
    rw [hstore]
    simp [hvalid, hrecent, hstorable]
  · obtain ⟨hnot, r, hr, hstore⟩ := h
    rw [hstore]
    simp [hvalid, hrecent, hnot, hr]

variable {S : Set AltDACommitment} {c : AltDACommitment}

/-- A verdict that is written is held, and the body stays. -/
theorem holds_storeCertValidity (hS : CollisionFree K S) (hc : c ∈ S) (v : Bool)
    {kv : KeyValueStore} {verdict : Option Bool} {body : Option Bytes}
    (h : Holds K c kv verdict body) :
    Holds K c (Handler.storeCertValidity K c v kv) (some v) body where
  validity := Function.update_self _ _ _
  elements i hi := by
    rw [← h.elements i hi]
    exact Function.update_of_ne (validityKey_ne_elementKey hS hc hc hi).symm _ _

/-- A body that is written is held, whatever was there in its place. -/
theorem holds_storeFieldElements (hS : CollisionFree K S) (hc : c ∈ S)
    {kv : KeyValueStore} {verdict : Option Bool}
    (h : kv (validityKey K c) = verdict.map fun v => [if v then 1 else 0])
    (body : Bytes) :
    Holds K c (Handler.storeFieldElements K (c.digestTemplate K.keccak256) body
      (List.range c.getNumFieldElement) kv) verdict (some body) where
  validity := by
    rw [← h]
    exact storeFieldElements_other fun i hi =>
      validityKey_ne_elementKey hS hc hc (List.mem_range.mp hi)
  elements i hi :=
    storeFieldElements_mem (List.mem_range.mpr hi) List.nodup_range
      fun j hj heq => (elementKey_inj hS hc hc hi (List.mem_range.mp hj) heq).2

/-- A verdict for another commitment is written elsewhere. -/
theorem holds_storeCertValidity_other (hS : CollisionFree K S) (hc : c ∈ S)
    {d : AltDACommitment} (hd : d ∈ S) (hdc : d ≠ c) (v : Bool)
    {kv : KeyValueStore} {verdict : Option Bool} {body : Option Bytes}
    (h : Holds K c kv verdict body) :
    Holds K c (Handler.storeCertValidity K d v kv) verdict body where
  validity := by
    rw [← h.validity]
    exact Function.update_of_ne
      (fun heq => hdc (validityKey_inj hS hc hd heq).symm) _ _
  elements i hi := by
    rw [← h.elements i hi]
    exact Function.update_of_ne (validityKey_ne_elementKey hS hd hc hi).symm _ _

/-- So is a body. -/
theorem holds_storeFieldElements_other (hS : CollisionFree K S) (hc : c ∈ S)
    {d : AltDACommitment} (hd : d ∈ S) (hdc : d ≠ c) (written : Bytes)
    {kv : KeyValueStore} {verdict : Option Bool} {body : Option Bytes}
    (h : Holds K c kv verdict body) :
    Holds K c (Handler.storeFieldElements K (d.digestTemplate K.keccak256)
      written (List.range d.getNumFieldElement) kv) verdict body where
  validity := by
    rw [← h.validity]
    exact storeFieldElements_other fun i hi =>
      validityKey_ne_elementKey hS hc hd (List.mem_range.mp hi)
  elements i hi := by
    rw [← h.elements i hi]
    exact storeFieldElements_other fun j hj heq =>
      hdc (elementKey_inj hS hc hd hi (List.mem_range.mp hj) heq).1.symm

/-- One hint, one page: the store after it holds what the hint enters
for `c`, and what it held before where the hint enters nothing. -/
theorem holds_fetchEigendaHint (hS : CollisionFree K S) (hc : c ∈ S)
    {hint : EigenDAHint}
    (hhint : ∀ d, AltDACommitment.tryFrom hint.1 = .ok d → d ∈ S)
    {kv : KeyValueStore} {verdict : Option Bool} {body : Option Bytes}
    (h : Holds K c kv verdict body) :
    Holds K c (Handler.fetchEigendaHint K hint.1 hint.2 kv).2
      ((verdictOf c hint).or verdict) ((bodyOf c hint).or body) := by
  rcases fetchEigendaHint_store (K := K) hint kv with hnone | hsome
  · obtain ⟨hkv, hstage⟩ := hnone
    simpa [hkv, verdictOf, bodyOf, hstage c] using h
  · obtain ⟨d, stage, hparse, hstage, hkv⟩ := hsome
    have hd := hhint d hparse
    rw [hkv]
    by_cases hdc : d = c
    · subst hdc
      have hverdict := holds_storeCertValidity hS hd stage.isValidCert h
      simp only [verdictOf, bodyOf, hstage, Option.map_some, Option.some_or]
      by_cases hstorable : Storable stage
      · rw [if_pos hstorable, if_pos hstorable]
        exact holds_storeFieldElements hS hd hverdict.validity _
      · rw [if_neg hstorable, if_neg hstorable]
        exact hverdict
    · -- a hint for another commitment
      have hother : stageOf c hint = none := by
        apply stageOf_eq_none
        intro hparse'
        rw [hparse] at hparse'
        exact hdc (Except.ok.inj hparse')
      have hverdict :=
        holds_storeCertValidity_other hS hc hd hdc stage.isValidCert h
      simp only [verdictOf, bodyOf, hother, Option.map_none, Option.none_or]
      by_cases hstorable : Storable stage
      · rw [if_pos hstorable]
        exact holds_storeFieldElements_other hS hc hd hdc _ hverdict
      · rw [if_neg hstorable]
        exact hverdict

/-- Many hints: the last verdict and the last body are what is left. -/
theorem holds_runHints (hS : CollisionFree K S) (hc : c ∈ S)
    {hints : List EigenDAHint}
    (hhints : ∀ hint ∈ hints, ∀ d,
      AltDACommitment.tryFrom hint.1 = .ok d → d ∈ S)
    {kv : KeyValueStore} {verdict : Option Bool} {body : Option Bytes}
    (h : Holds K c kv verdict body) :
    Holds K c (runHints K hints kv) ((lastVerdict c hints).or verdict)
      ((lastBody c hints).or body) := by
  induction hints generalizing kv verdict body with
  | nil => simpa [runHints, lastVerdict, lastBody] using h
  | cons hint hints ih =>
      have hstep := holds_fetchEigendaHint hS hc (hhints hint (by simp)) h
      have hrest := ih (fun x hx => hhints x (by simp [hx])) hstep
      have hlast : ∀ {α : Type} (f : EigenDAHint → Option α) (a : Option α),
          ((hint :: hints).filterMap f).getLast?.or a
            = (hints.filterMap f).getLast?.or ((f hint).or a) := by
        intro α f a
        rw [List.filterMap_cons]
        cases f hint with
        | none => rfl
        | some x =>
            rw [List.getLast?_cons]
            cases (hints.filterMap f).getLast? <;> rfl
      unfold lastVerdict lastBody at hrest ⊢
      rw [hlast, hlast]
      exact hrest

end Writer

-- ========================================================== the reader

/-- A body cut to `n` elements, or filled up with zeros. -/
def fitElements (n : Nat) (body : Bytes) : Bytes :=
  zeroExtend (32 * n) (body.take (32 * n))

section Reader

variable {K : KeyScheme}

/-- The elements stored for a body, put together again. -/
theorem flatMap_fieldElement {body : Bytes} (hbody : body.length % 32 = 0)
    (n : Nat) :
    (List.range n).flatMap (Handler.fieldElement body) = fitElements n body := by
  induction n with
  | zero => simp [fitElements, zeroExtend]
  | succ n ih =>
      rw [List.range_succ, List.flatMap_append, ih, List.flatMap_singleton]
      unfold Handler.fieldElement fitElements zeroExtend
      by_cases hn : n < body.length / 32
      · -- a stored element
        have hfull : 32 * (n + 1) ≤ body.length := by omega
        have hnone : 32 * n - (body.take (32 * n)).length = 0 := by
          rw [List.length_take]
          omega
        have hnone' : 32 * (n + 1) - (body.take (32 * (n + 1))).length = 0 := by
          rw [List.length_take]
          omega
        simp only [BYTES_PER_FIELD_ELEMENT, hn, if_true]
        rw [hnone, hnone', List.replicate_zero, List.append_nil, List.append_nil,
          Nat.mul_comm n 32, show 32 * (n + 1) = 32 * n + 32 by omega,
          List.take_add]
      · -- a zero element
        have hshort : body.length ≤ 32 * n := by omega
        simp only [BYTES_PER_FIELD_ELEMENT, hn, if_false]
        rw [List.take_of_length_le hshort, List.take_of_length_le (by omega),
          List.append_assoc, List.replicate_append_replicate]
        congr 2
        omega

/-- Elements have 32 bytes. -/
theorem length_fieldElement {body : Bytes} (i : Nat) :
    (Handler.fieldElement body i).length = 32 := by
  unfold Handler.fieldElement
  simp only [BYTES_PER_FIELD_ELEMENT]
  split
  · rw [List.length_take, List.length_drop]
    omega
  · exact List.length_replicate

/-- The read loop puts the stored elements in their places: it is at
element `j` of a buffer that is filled below it. -/
theorem fetchEncodedPayload_storeOracle {template body : Bytes}
    {kv : KeyValueStore} {j m : Nat} {done : Bytes} (hdone : done.length = 32 * j)
    (h : ∀ i, j ≤ i → i < j + m →
      kv (K.key (withIndex template i)) = some (Handler.fieldElement body i)) :
    OracleEigenDAPreimageProvider.fetchEncodedPayload K Handler.storeOracle
        template (List.range' j m) (done ++ List.replicate (32 * m) 0) kv
      = some (.ok (done ++ (List.range' j m).flatMap (Handler.fieldElement body)),
          kv) := by
  induction m generalizing j done with
  | zero => simp [OracleEigenDAPreimageProvider.fetchEncodedPayload]
  | succ m ih =>
      have hlen := @length_fieldElement body j
      have hread : Handler.storeOracle.getExact (K.key (withIndex template j)) 32 kv
          = (.ok ⟨Handler.fieldElement body j, hlen⟩, kv) := by
        simp [Handler.storeOracle, h j (le_refl j) (by omega), hlen]
      have hwrite : writeAt (done ++ List.replicate (32 * (m + 1)) 0) (j * 32)
          (Handler.fieldElement body j)
          = some (done ++ Handler.fieldElement body j
            ++ List.replicate (32 * m) 0) := by
        rw [writeAt_eq_some (by
          rw [List.length_append, hdone, hlen, List.length_replicate]; omega),
          Nat.mul_comm j 32, ← hdone, List.take_left, hlen,
          List.drop_append, List.drop_of_length_le (by omega), List.nil_append,
          List.drop_replicate]
        congr 3
        omega
      rw [List.range'_succ, OracleEigenDAPreimageProvider.fetchEncodedPayload]
      simp only [hread, hwrite, Option.bind_eq_bind, Option.bind_some]
      rw [@ih (j + 1) (done ++ Handler.fieldElement body j)
        (by rw [List.length_append, hdone, hlen]; omega)
        (fun i hi hi' => h i (by omega) (by omega))]
      simp

variable {c : AltDACommitment} {kv : KeyValueStore}

/-- The client reads the body of the page, cut or filled up to the
commitment's length. -/
theorem getEncodedPayload_storeOracle {verdict : Option Bool} {body : Bytes}
    (h : Holds K c kv verdict (some body)) (hbody : body.length % 32 = 0) :
    OracleEigenDAPreimageProvider.getEncodedPayload K Handler.storeOracle c kv
      = some (.ok ⟨fitElements c.getNumFieldElement body⟩, kv) := by
  have hloop := @fetchEncodedPayload_storeOracle K
    (c.digestTemplate K.keccak256) body kv 0 c.getNumFieldElement [] rfl
    fun i _ hi => h.elements i (by omega)
  rw [← List.range_eq_range', List.nil_append, List.nil_append,
    flatMap_fieldElement hbody] at hloop
  unfold OracleEigenDAPreimageProvider.getEncodedPayload
  have hwrite : Handler.storeOracle.write (encodeEigenDACertHint c.toRlpBytes) kv
      = (.ok (), kv) := rfl
  simp only [hwrite, BYTES_PER_FIELD_ELEMENT, Option.bind_eq_bind]
  rw [Nat.mul_comm c.getNumFieldElement 32, hloop]
  rfl

/-- The client reads the verdict of the page. -/
theorem getValidity_storeOracle {verdict : Bool} {body : Option Bytes}
    (h : Holds K c kv (some verdict) body) :
    OracleEigenDAPreimageProvider.getValidity K Handler.storeOracle c kv
      = some (.ok verdict, kv) := by
  have hvalidity := h.validity
  unfold validityKey at hvalidity
  cases verdict <;>
    simp [OracleEigenDAPreimageProvider.getValidity, Handler.storeOracle,
      hvalidity]

/-- Without a verdict, the client asks again. -/
theorem getValidity_storeOracle_none {body : Option Bytes}
    (h : Holds K c kv none body) :
    OracleEigenDAPreimageProvider.getValidity K Handler.storeOracle c kv
      = some (.error (.preimage (.other "Key not found.")), kv) := by
  have hvalidity := h.validity
  unfold validityKey at hvalidity
  simp [OracleEigenDAPreimageProvider.getValidity, Handler.storeOracle,
    hvalidity]

end Reader

-- ===================================================== the whole map

section Map

variable {K : KeyScheme} {S : Set AltDACommitment} {c : AltDACommitment}

/-- A body that was stored is a whole number of elements. -/
theorem length_lastBody {hints : List EigenDAHint} {body : Bytes}
    (h : lastBody c hints = some body) : body.length % 32 = 0 := by
  have hmem := List.mem_of_getLast? h
  obtain ⟨hint, -, hbody⟩ := List.mem_filterMap.mp hmem
  exact length_bodyOf hbody

/-- A body came with the verdict `true`, so there is a verdict. -/
theorem lastVerdict_of_lastBody {hints : List EigenDAHint} {body : Bytes}
    (h : lastBody c hints = some body) : ∃ v, lastVerdict c hints = some v := by
  obtain ⟨hint, hmem, hbody⟩ := List.mem_filterMap.mp (List.mem_of_getLast? h)
  obtain ⟨stage, hstage, -⟩ := bodyOf_eq_some_iff.mp hbody
  have hverdict : stage.isValidCert ∈ hints.filterMap (verdictOf c) :=
    List.mem_filterMap.mpr ⟨hint, hmem, by simp [verdictOf, hstage]⟩
  exact Option.ne_none_iff_exists'.mp
    (mt List.getLast?_eq_none_iff.mp (List.ne_nil_of_mem hverdict))

/-- A body that fits is only filled up. -/
theorem fitElements_of_le {n : Nat} {body : Bytes} (h : body.length ≤ 32 * n) :
    fitElements n body = zeroExtend (32 * n) body := by
  rw [fitElements, List.take_of_length_le h]

/-- The store and its reader are one map, after every sequence of
hints: for each commitment all of its element keys are there or none;
its validity key holds the last verdict; a stored body that fits is
read back as it was, filled up with zeros; and hints for other
commitments change none of its keys. -/
theorem store_consistent (hS : CollisionFree K S) {hints : List EigenDAHint}
    (hhints : ∀ hint ∈ hints, ∀ d,
      AltDACommitment.tryFrom hint.1 = .ok d → d ∈ S)
    (hc : c ∈ S) {kv₀ : KeyValueStore} (hfresh : Holds K c kv₀ none none) :
    ((∀ i < c.getNumFieldElement, runHints K hints kv₀ (elementKey K c i) = none)
      ∨ ∀ i < c.getNumFieldElement,
          (runHints K hints kv₀ (elementKey K c i)).isSome)
    ∧ runHints K hints kv₀ (validityKey K c)
        = (lastVerdict c hints).map (fun v => [if v then 1 else 0])
    ∧ (∀ body, lastBody c hints = some body →
        body.length ≤ 32 * c.getNumFieldElement →
        OracleEigenDAPreimageProvider.getEncodedPayload K Handler.storeOracle c
            (runHints K hints kv₀)
          = some (.ok ⟨zeroExtend (32 * c.getNumFieldElement) body⟩,
              runHints K hints kv₀)
        ∧ ∃ v, lastVerdict c hints = some v
          ∧ OracleEigenDAPreimageProvider.getValidity K Handler.storeOracle c
              (runHints K hints kv₀) = some (.ok v, runHints K hints kv₀))
    ∧ ∀ hint : EigenDAHint, AltDACommitment.tryFrom hint.1 ≠ .ok c →
        (∀ d, AltDACommitment.tryFrom hint.1 = .ok d → d ∈ S) →
        lastVerdict c (hints ++ [hint]) = lastVerdict c hints
        ∧ lastBody c (hints ++ [hint]) = lastBody c hints
        ∧ runHints K (hints ++ [hint]) kv₀ (validityKey K c)
          = runHints K hints kv₀ (validityKey K c)
        ∧ ∀ i < c.getNumFieldElement,
            runHints K (hints ++ [hint]) kv₀ (elementKey K c i)
              = runHints K hints kv₀ (elementKey K c i) := by
  have hrun := holds_runHints hS hc hhints hfresh
  rw [Option.or_none, Option.or_none] at hrun
  refine ⟨?_, hrun.validity, ?_, ?_⟩
  · cases hbody : lastBody c hints with
    | none =>
        refine .inl fun i hi => ?_
        rw [hrun.elements i hi, hbody]
        rfl
    | some body =>
        refine .inr fun i hi => ?_
        rw [hrun.elements i hi, hbody]
        rfl
  · intro body hbody hle
    obtain ⟨v, hv⟩ := lastVerdict_of_lastBody hbody
    rw [hbody, hv] at hrun
    rw [← fitElements_of_le hle]
    exact ⟨getEncodedPayload_storeOracle hrun (length_lastBody hbody), v, hv,
      getValidity_storeOracle hrun⟩
  · intro hint hother hhint
    have hstage : stageOf c hint = none := stageOf_eq_none hother
    have hpage := holds_fetchEigendaHint hS hc hhint hrun
    have hnew : runHints K (hints ++ [hint]) kv₀
        = (Handler.fetchEigendaHint K hint.1 hint.2 (runHints K hints kv₀)).2 := by
      simp [runHints]
    simp only [verdictOf, bodyOf, hstage, Option.map_none, Option.none_or] at hpage
    refine ⟨by simp [lastVerdict, verdictOf, hstage],
      by simp [lastBody, bodyOf, hstage], ?_, fun i hi => ?_⟩
    · rw [hnew, hpage.validity, hrun.validity]
    · rw [hnew, hpage.elements i hi, hrun.elements i hi]

end Map

-- ------------------------------------------- a concrete key scheme

/-- A V4 commitment to one field element. -/
def oneElement : AltDACommitment :=
  .zeroCommitment 0 1

/-- Its digest. -/
def oneElementDigest : B256 :=
  b256 0x46b6e711556877f363ede2f85513b736edfa7dfc64405e3fd89e020dab63ac6f

/-- Keys as they are made for that commitment: keccak256 of its bytes
form, of its validity address and of its element's address. -/
def testKeyScheme : KeyScheme where
  keccak256 s :=
    if s = oneElement.toRlpBytes then oneElementDigest
    else if s = oneElementDigest.val ++ (1 :: List.replicate 47 0) then
      b256 0xbdb57fa91cd6e5743ecc5656b440d6127730693dfa7dd7677c070b02af26d7c3
    else if s = oneElementDigest.val ++ List.replicate 48 0 then
      b256 0x48c75b921d92ec948741aecb550711ed9683fc562aaa9ba370525be2271877b1
    else b256 0
  preimageKey h := ⟨3 :: h.val.drop 1, by simp [h.property]⟩

theorem testKeyScheme_collisionFree :
    CollisionFree testKeyScheme {oneElement} where
  addressable c hc := by
    rw [Set.mem_singleton_iff.mp hc]
    decide +kernel
  digest c hc d hd _ := by
    rw [Set.mem_singleton_iff.mp hc, Set.mem_singleton_iff.mp hd]
  key a b ha hb h := by
    have hcases : ∀ a, Occurs testKeyScheme {oneElement} a →
        a = withInterface (oneElement.digestTemplate testKeyScheme.keccak256) 1
        ∨ a = withIndex (oneElement.digestTemplate testKeyScheme.keccak256) 0 := by
      intro a ha
      obtain ⟨c, hc, ha⟩ := ha
      rw [Set.mem_singleton_iff.mp hc] at ha
      rcases ha with ha | ⟨i, hi, ha⟩
      · exact .inl ha
      · have hzero : i = 0 := by
          have hone : oneElement.getNumFieldElement = 1 := by decide
          omega
        rw [hzero] at ha
        exact .inr ha
    have hne : testKeyScheme.key
          (withInterface (oneElement.digestTemplate testKeyScheme.keccak256) 1)
        ≠ testKeyScheme.key
          (withIndex (oneElement.digestTemplate testKeyScheme.keccak256) 0) := by
      decide +kernel
    rcases hcases a ha with ha | ha <;> rcases hcases b hb with hb | hb
    · rw [ha, hb]
    · rw [ha, hb] at h
      exact absurd h hne
    · rw [ha, hb] at h
      exact absurd h.symm hne
    · rw [ha, hb]

/-- The encoding of the empty payload, as a reply of the proxy. -/
def emptyReply : ProxyReply :=
  .response ⟨200, .ok (List.replicate 32 0), .error "", ""⟩

theorem tryFrom_oneElement :
    AltDACommitment.tryFrom oneElement.toRlpBytes = .ok oneElement :=
  AltDACommitment.tryFrom_toRlpBytes_self rfl rfl
    (testKeyScheme_collisionFree.addressable _ rfl)

/-- One hint on an empty store: the element is read back. -/
theorem store_consistent_oneElement :
    (OracleEigenDAPreimageProvider.getEncodedPayload testKeyScheme
        Handler.storeOracle oneElement
        (runHints testKeyScheme [(oneElement.toRlpBytes, emptyReply)]
          fun _ => none)).map (·.1)
      = some (.ok ⟨List.replicate 32 0⟩) := by
  have hhints : ∀ hint ∈ [(oneElement.toRlpBytes, emptyReply)], ∀ d,
      AltDACommitment.tryFrom hint.1 = .ok d →
      d ∈ ({oneElement} : Set AltDACommitment) := by
    intro hint hhint d hd
    rw [List.mem_singleton.mp hhint, tryFrom_oneElement] at hd
    exact (Except.ok.inj hd).symm
  have hempty : Holds testKeyScheme oneElement (fun _ => none) none none :=
    ⟨rfl, fun _ _ => rfl⟩
  obtain ⟨-, -, h, -⟩ := store_consistent testKeyScheme_collisionFree hhints
    (Set.mem_singleton oneElement) hempty
  have hstage : stageOf oneElement (oneElement.toRlpBytes, emptyReply)
      = some ⟨true, true, List.replicate 32 0⟩ := by
    simp [stageOf, tryFrom_oneElement, emptyReply, fetchDataFromProxy,
      Response.isSuccess, Except.toOption]
  have hstorable : Storable ⟨true, true, List.replicate 32 0⟩ := by decide
  have hbody : lastBody oneElement [(oneElement.toRlpBytes, emptyReply)]
      = some (List.replicate 32 0) := by
    simp only [lastBody, bodyOf, hstage, List.filterMap_cons,
      List.filterMap_nil, if_pos hstorable]
    rfl
  obtain ⟨hread, -⟩ := h _ hbody (by decide)
  rw [hread]
  rfl

end Hokulea
