/-
The client against a host at work: safety and liveness over every order
in which the two may run.

# The invariant

The proxy is taken to be consistent: whatever it replies about a
commitment of the set, the verdict is one and the body that is stored is
one (`HostStep.Consistent`). Then each set that any handler has yet to
make, and each value already in the store, says of the commitments what
is so (`Agrees`, `Sound`). No order of steps can break that: not a
handler given up halfway, not two handlers for one commitment, not
kona's own.

# What is proved

- `applyWrites_hintWrites`, `run_alone`: the sets of a handler are those
  of `fetch_eigenda_hint`, and a handler left alone is one call of it;
- `sound_run`: the invariant over every run of the host;
- `race_stableOn`: so the client reads a verdict or a whole body, or is
  told that a key is missing; a body is never put together from two;
- `race_prefix`: what is derived from a chain of blocks is a prefix of
  their images, whatever the schedule;
- `race_image`: and all of it after enough calls, when the schedule ends
  with everything served that the blocks ask for.
-/
import Hokulea.Host.Race
import Hokulea.Proofs.HintStore
import Hokulea.Proofs.BlockScope

namespace Hokulea

open Bytes Machine

namespace Handler

-- ============================================ the writes of one hint

section Writes

variable {K : KeyScheme}

/-- The element loop makes the sets of its elements. -/
theorem storeFieldElements_eq (template body : Bytes) (is : List Nat)
    (kv : KeyValueStore) :
    storeFieldElements K template body is kv
      = applyWrites (is.map fun i =>
        (K.key (withIndex template i), fieldElement body i)) kv := by
  induction is generalizing kv with
  | nil => rfl
  | cons i is ih =>
      unfold storeFieldElements
      rw [ih]
      rfl

/-- `store_encoded_payload` makes the sets of its payload. -/
theorem applyWrites_payloadWrites (c : AltDACommitment) (body : Bytes)
    (kv : KeyValueStore) :
    (storeEncodedPayload K c body kv).2
      = applyWrites (payloadWrites K c body) kv := by
  unfold storeEncodedPayload payloadWrites
  by_cases hlen : body.length % 32 ≠ 0 ∨ body = []
  · simp only [if_pos hlen]
    rfl
  by_cases hall : (!(chunksExact BYTES_PER_FIELD_ELEMENT body).all
      chunkAccepted) = true
  · simp only [if_neg hlen, if_pos hall]
    rfl
  · simp only [if_neg hlen, if_neg hall]
    exact storeFieldElements_eq _ _ _ _

/-- `fetch_eigenda_hint` makes the sets of its hint, whatever it
returns. -/
theorem applyWrites_hintWrites (bytes : Bytes) (reply : ProxyReply)
    (kv : KeyValueStore) :
    (fetchEigendaHint K bytes reply kv).2
      = applyWrites (hintWrites K bytes reply) kv := by
  unfold fetchEigendaHint hintWrites
  cases AltDACommitment.tryFrom bytes with
  | error e => rfl
  | ok c =>
      cases fetchDataFromProxy reply with
      | error e => rfl
      | ok stage =>
          simp only
          by_cases hvalid : stage.isValidCert = true
          case neg =>
            simp only [Bool.not_eq_true] at hvalid
            simp only [hvalid, Bool.not_false, if_true]
            rfl
          by_cases hrecent : stage.passRecencyCheck = true
          case neg =>
            simp only [Bool.not_eq_true] at hrecent
            simp only [hvalid, hrecent, Bool.not_true, Bool.not_false,
              Bool.false_eq_true, if_false, if_true]
            rfl
          simp only [hvalid, hrecent, Bool.not_true, Bool.false_eq_true,
            if_false]
          exact applyWrites_payloadWrites _ _ _

/-- A handler makes its sets one by one. -/
theorem run_sets (writes : List Write) (kv : KeyValueStore) :
    Host.run K ⟨kv, [writes]⟩ (List.replicate writes.length (.set 0))
      = ⟨applyWrites writes kv, [[]]⟩ := by
  induction writes generalizing kv with
  | nil => rfl
  | cons w ws ih =>
      rw [List.length_cons, List.replicate_succ]
      exact ih (kv.set w.1 w.2)

/-- A handler left alone is one call of `fetch_eigenda_hint`. -/
theorem run_alone (bytes : Bytes) (reply : ProxyReply) (kv : KeyValueStore) :
    Host.run K ⟨kv, []⟩ (.reply bytes reply
        :: List.replicate (hintWrites K bytes reply).length (.set 0))
      = ⟨(fetchEigendaHint K bytes reply kv).2, [[]]⟩ := by
  rw [applyWrites_hintWrites]
  exact run_sets _ kv

/-- What the sets of a hint are: the verdict and the elements it enters
for the commitment it parses to. -/
theorem mem_hintWrites {bytes : Bytes} {reply : ProxyReply} {w : Write}
    (h : w ∈ hintWrites K bytes reply) :
    ∃ d, AltDACommitment.tryFrom bytes = .ok d
      ∧ ((∃ v, verdictOf d (bytes, reply) = some v
          ∧ w = (validityKey K d, [if v then 1 else 0]))
        ∨ ∃ body, bodyOf d (bytes, reply) = some body
          ∧ ∃ i < d.getNumFieldElement,
            w = (elementKey K d i, fieldElement body i)) := by
  unfold hintWrites at h
  cases hparse : AltDACommitment.tryFrom bytes with
  | error e => simp [hparse] at h
  | ok d =>
      cases hfetch : fetchDataFromProxy reply with
      | error e => simp [hparse, hfetch] at h
      | ok stage =>
          have hstage : stageOf d (bytes, reply) = some stage := by
            simp [stageOf, hparse, hfetch, Except.toOption]
          simp only [hparse, hfetch, List.mem_cons] at h
          refine ⟨d, rfl, ?_⟩
          rcases h with rfl | h
          · exact .inl ⟨stage.isValidCert, by simp [verdictOf, hstage], rfl⟩
          right
          -- the body is written: all the checks have passed
          by_cases hvalid : stage.isValidCert = true
          case neg => simp [hvalid] at h
          by_cases hrecent : stage.passRecencyCheck = true
          case neg => simp [hvalid, hrecent] at h
          simp only [hvalid, hrecent, Bool.not_true, Bool.false_eq_true,
            if_false] at h
          unfold payloadWrites at h
          by_cases hlen : stage.encodedPayload.length % 32 ≠ 0
            ∨ stage.encodedPayload = []
          · simp [if_pos hlen] at h
          by_cases hall : (chunksExact BYTES_PER_FIELD_ELEMENT
              stage.encodedPayload).all chunkAccepted = true
          case neg => simp [hall] at h
          rw [not_or, not_not] at hlen
          have hstorable : Storable stage :=
            ⟨hvalid, hrecent, hlen.1, hlen.2, hall⟩
          have hlen' : ¬ (stage.encodedPayload.length % 32 ≠ 0
              ∨ stage.encodedPayload = []) := by
            rw [not_or, not_not]
            exact hlen
          simp only [if_neg hlen', hall, Bool.not_true, Bool.false_eq_true,
            if_false, List.mem_map, List.mem_range] at h
          obtain ⟨i, hi, rfl⟩ := h
          exact ⟨stage.encodedPayload,
            bodyOf_eq_some_iff.mpr ⟨stage, hstage, hstorable, rfl⟩, i, hi, rfl⟩

end Writes

-- ======================================================= the invariant

section Invariant

variable (K : KeyScheme) (S : Set AltDACommitment)
  (verdict : AltDACommitment → Bool) (body : AltDACommitment → Bytes)

/-- What is set under a key of the commitments is what is so of them. -/
structure Agrees (w : Write) : Prop where
  validity : ∀ c ∈ S, w.1 = validityKey K c →
    w.2 = [if verdict c then 1 else 0]
  element : ∀ c ∈ S, ∀ i < c.getNumFieldElement, w.1 = elementKey K c i →
    (body c).length % 32 = 0 ∧ w.2 = fieldElement (body c) i

/-- The steps of a host with a consistent proxy, beside handlers of kona's
that use keys of their own. -/
def HostStep.Consistent : HostStep → Prop
  | .reply bytes r =>
      (∀ d, AltDACommitment.tryFrom bytes = .ok d → d ∈ S)
        ∧ ∀ c ∈ S, (∀ v, verdictOf c (bytes, r) = some v → v = verdict c)
          ∧ ∀ x, bodyOf c (bytes, r) = some x → x = body c
  | .set _ => True
  | .drop _ => True
  | .kona w => ∀ c ∈ S, w.1 ≠ validityKey K c
      ∧ ∀ i < c.getNumFieldElement, w.1 ≠ elementKey K c i

/-- The store agrees, and so do the sets that are yet to be made. -/
structure Sound (h : Host) : Prop where
  kv : ∀ key value, h.kv key = some value →
    Agrees K S verdict body (key, value)
  handlers : ∀ ws ∈ h.handlers, ∀ w ∈ ws, Agrees K S verdict body w

variable {K S verdict body}

/-- The sets of a hint agree when its reply is consistent: a key belongs
to one commitment, as a verdict or as one element. -/
theorem agrees_hintWrites (hS : CollisionFree K S) {bytes : Bytes}
    {reply : ProxyReply}
    (h : HostStep.Consistent K S verdict body (.reply bytes reply)) :
    ∀ w ∈ hintWrites K bytes reply, Agrees K S verdict body w := by
  intro w hw
  obtain ⟨hparsed, hreply⟩ := h
  obtain ⟨d, hparse, ⟨v, hv, rfl⟩ | ⟨x, hx, i, hi, rfl⟩⟩ := mem_hintWrites hw
  · have hd := hparsed d hparse
    constructor
    · intro c hc hkey
      rw [← validityKey_inj hS hd hc hkey, ← (hreply d hd).1 v hv]
    · intro c hc j hj hkey
      exact absurd hkey (validityKey_ne_elementKey hS hd hc hj)
  · have hd := hparsed d hparse
    constructor
    · intro c hc hkey
      exact absurd hkey.symm (validityKey_ne_elementKey hS hc hd hi)
    · intro c hc j hj hkey
      obtain ⟨rfl, rfl⟩ := elementKey_inj hS hd hc hi hj hkey
      rw [← (hreply d hd).2 x hx]
      exact ⟨length_bodyOf hx, rfl⟩

/-- A store that agrees is kept so by a set that agrees. -/
theorem agrees_set {kv : KeyValueStore} {w : Write}
    (hkv : ∀ key value, kv key = some value →
      Agrees K S verdict body (key, value))
    (hw : Agrees K S verdict body w) :
    ∀ key value, (kv.set w.1 w.2) key = some value →
      Agrees K S verdict body (key, value) := by
  intro key value h
  unfold KeyValueStore.set at h
  by_cases hkey : key = w.1
  · rw [hkey, Function.update_self] at h
    rw [hkey, ← Option.some.inj h]
    exact hw
  · rw [Function.update_of_ne hkey] at h
    exact hkv key value h

/-- One step of the host keeps the invariant. -/
theorem sound_step (hS : CollisionFree K S) {h : Host} {step : HostStep}
    (hs : Sound K S verdict body h)
    (hstep : HostStep.Consistent K S verdict body step) :
    Sound K S verdict body (h.step K step) := by
  cases step with
  | reply bytes reply =>
      refine ⟨hs.kv, fun ws hws => ?_⟩
      rcases List.mem_append.mp hws with hold | hnew
      · exact hs.handlers ws hold
      · rw [List.mem_singleton.mp hnew]
        exact agrees_hintWrites hS hstep
  | set i =>
      cases hi : h.handlers[i]? with
      | none => simpa only [Host.step, hi] using hs
      | some writes =>
          have hwrites := hs.handlers _ (List.mem_of_getElem? hi)
          cases writes with
          | nil => simpa only [Host.step, hi] using hs
          | cons w ws =>
              have hset : h.step K (.set i)
                  = ⟨h.kv.set w.1 w.2, h.handlers.set i ws⟩ := by
                simp only [Host.step, hi]
              rw [hset]
              refine ⟨agrees_set hs.kv (hwrites w List.mem_cons_self),
                fun ws' hws' => ?_⟩
              rcases List.mem_or_eq_of_mem_set hws' with hold | rfl
              · exact hs.handlers ws' hold
              · exact fun x hx => hwrites x (List.mem_cons_of_mem w hx)
  | drop i =>
      exact ⟨hs.kv, fun ws hws =>
        hs.handlers ws (List.mem_of_mem_eraseIdx hws)⟩
  | kona w =>
      refine ⟨agrees_set hs.kv ⟨fun c hc hkey => ?_, fun c hc i hi hkey => ?_⟩,
        hs.handlers⟩
      · exact absurd hkey (hstep c hc).1
      · exact absurd hkey ((hstep c hc).2 i hi)

/-- So does every run. -/
theorem sound_run (hS : CollisionFree K S) {h : Host} {steps : List HostStep}
    (hs : Sound K S verdict body h)
    (hsteps : ∀ x ∈ steps, HostStep.Consistent K S verdict body x) :
    Sound K S verdict body (h.run K steps) := by
  induction steps generalizing h with
  | nil => exact hs
  | cons x steps ih =>
      show Sound K S verdict body ((h.step K x).run K steps)
      apply ih
      · exact sound_step hS hs (hsteps x List.mem_cons_self)
      · exact fun y hy => hsteps y (List.mem_cons_of_mem x hy)

end Invariant

-- ========================================================== the client

section Client

variable (K : KeyScheme) (S : Set AltDACommitment)
  (verdict : AltDACommitment → Bool) (body : AltDACommitment → Bytes)
  (Q : Host → Prop)

/-- A race that keeps the invariant to the end of its schedule, where `Q`
holds of the host. -/
structure OnSchedule (s : Race) : Prop where
  sound : Sound K S verdict body s.host
  consistent : ∀ batch ∈ s.schedule, ∀ x ∈ batch,
    HostStep.Consistent K S verdict body x
  final : Q (s.host.run K s.schedule.flatten)

variable {K S verdict body Q}

/-- The next batch is one of those. -/
theorem onSchedule_advance (hS : CollisionFree K S) {s : Race}
    (hs : OnSchedule K S verdict body Q s) :
    OnSchedule K S verdict body Q (s.advance K) := by
  obtain ⟨host, schedule⟩ := s
  cases schedule with
  | nil => exact hs
  | cons batch schedule =>
      refine ⟨sound_run hS hs.sound (hs.consistent batch List.mem_cons_self),
        fun b hb => hs.consistent b (List.mem_cons_of_mem batch hb), ?_⟩
      have hfinal := hs.final
      rw [List.flatten_cons, Host.run, List.foldl_append] at hfinal
      exact hfinal

/-- It shortens the schedule. -/
theorem length_advance (s : Race) :
    (s.advance K).schedule.length = s.schedule.length - 1 :=
  List.length_tail

/-- What a value read for a validity says, or that there is none. -/
theorem getValidity_race (hS : CollisionFree K S) {s : Race}
    (hs : OnSchedule K S verdict body Q s) {c : AltDACommitment} (hc : c ∈ S) :
    (((s.advance K).host.kv (validityKey K c)).isSome
        ∧ OracleEigenDAPreimageProvider.getValidity K (raceOracle K) c s
          = some (.ok (verdict c), s.advance K))
      ∨ (s.advance K).host.kv (validityKey K c) = none
        ∧ OracleEigenDAPreimageProvider.getValidity K (raceOracle K) c s
          = some (.error (.preimage (.other "Key not found.")), s.advance K) := by
  have hnext := onSchedule_advance hS hs
  have hwrite : (raceOracle K).write (encodeEigenDACertHint c.toRlpBytes) s
      = (.ok (), s) := rfl
  have hget : (raceOracle K).get (validityKey K c) s
      = ((storeOracle.get (validityKey K c) (s.advance K).host.kv).1,
        s.advance K) := rfl
  unfold validityKey at hget
  unfold OracleEigenDAPreimageProvider.getValidity
  simp only [hwrite, hget, storeOracle]
  cases hkv : (s.advance K).host.kv (validityKey K c) with
  | none =>
      right
      unfold validityKey at hkv
      simp only [hkv, true_and]
  | some value =>
      left
      have hvalue := (hnext.sound.kv _ _ hkv).validity c hc rfl
      simp only at hvalue
      subst hvalue
      refine ⟨rfl, ?_⟩
      unfold validityKey at hkv
      cases hv : verdict c <;> simp [hkv, hv]

/-- An element written where the filled part of a buffer ends. -/
theorem writeAt_next {done element : Bytes} {j m : Nat}
    (hdone : done.length = 32 * j) (helement : element.length = 32) :
    writeAt (done ++ List.replicate (32 * (m + 1)) 0) (j * 32) element
      = some (done ++ element ++ List.replicate (32 * m) 0) := by
  have hzeros : List.replicate (32 * (m + 1)) (0 : UInt8)
      = List.replicate 32 0 ++ List.replicate (32 * m) 0 := by
    rw [List.replicate_append_replicate]
    congr 1
    omega
  rw [hzeros, ← List.append_assoc]
  apply writeAt_middle
  · rw [hdone, Nat.mul_comm]
  · rw [helement, List.length_replicate]

/-- The read loop over a race: it fails at a key that is missing, or has
put the elements of the one body in their places. It is at element `j` of
a buffer that is filled below it. -/
theorem fetchEncodedPayload_race (hS : CollisionFree K S)
    {c : AltDACommitment} (hc : c ∈ S) {j m : Nat} {done : Bytes} {s : Race}
    (hs : OnSchedule K S verdict body Q s) (hdone : done.length = 32 * j)
    (hjm : j + m ≤ c.getNumFieldElement) :
    ∃ r s', OracleEigenDAPreimageProvider.fetchEncodedPayload K (raceOracle K)
        (c.digestTemplate K.keccak256) (List.range' j m)
        (done ++ List.replicate (32 * m) 0) s = some (r, s')
      ∧ OnSchedule K S verdict body Q s'
      ∧ s'.schedule.length ≤ s.schedule.length
      ∧ ((r = .ok (done ++ (List.range' j m).flatMap (fieldElement (body c)))
          ∧ (0 < m → (body c).length % 32 = 0))
        ∨ r = .error (.preimage (.other "Key not found."))
          ∧ (∃ i < c.getNumFieldElement,
            s'.host.kv (elementKey K c i) = none)
          ∧ (s'.schedule.length < s.schedule.length ∨ s'.schedule = [])) := by
  induction m generalizing j done s with
  | zero =>
      refine ⟨_, s, rfl, hs, le_refl _, .inl ⟨?_, nofun⟩⟩
      simp
  | succ m ih =>
      have hnext := onSchedule_advance hS hs
      have hlength := @length_advance K s
      rw [List.range'_succ, OracleEigenDAPreimageProvider.fetchEncodedPayload]
      have hget : (raceOracle K).getExact
            (K.key (withIndex (c.digestTemplate K.keccak256) j)) 32 s
          = ((storeOracle.getExact (elementKey K c j) 32
            (s.advance K).host.kv).1, s.advance K) := rfl
      cases hkv : (s.advance K).host.kv (elementKey K c j) with
      | none =>
          -- the key is missing: the loop ends here
          simp only [hget, storeOracle, hkv]
          refine ⟨_, _, rfl, hnext, by omega, .inr ⟨rfl, ⟨j, by omega, hkv⟩, ?_⟩⟩
          cases hschedule : s.schedule with
          | nil =>
              right
              rw [hschedule] at hlength
              exact List.length_eq_zero_iff.mp hlength
          | cons b bs =>
              left
              rw [hschedule] at hlength
              rw [hlength, List.length_cons]
              omega
      | some value =>
          obtain ⟨hwhole, hvalue⟩ :=
            (hnext.sound.kv _ _ hkv).element c hc j (by omega) rfl
          simp only at hvalue
          subst hvalue
          have hlen := @length_fieldElement (body c) j
          simp only [hget, storeOracle, hkv, hlen, dite_true]
          have hwrite : writeAt (done ++ List.replicate (32 * (m + 1)) 0)
              (j * 32) (fieldElement (body c) j)
              = some (done ++ fieldElement (body c) j
                ++ List.replicate (32 * m) 0) :=
            writeAt_next hdone hlen
          simp only [hwrite, Option.bind_eq_bind, Option.bind_some]
          obtain ⟨r, s', hloop, hs', hle, hr⟩ :=
            @ih (j + 1) (done ++ fieldElement (body c) j) (s.advance K) hnext
              (by rw [List.length_append, hdone, hlen]; omega) (by omega)
          refine ⟨r, s', hloop, hs', by omega, ?_⟩
          rcases hr with ⟨rfl, -⟩ | ⟨rfl, hmissing, hlt | hnil⟩
          · left
            refine ⟨?_, fun _ => hwhole⟩
            rw [List.flatMap_cons, List.append_assoc]
          · exact .inr ⟨rfl, hmissing, .inl (by omega)⟩
          · exact .inr ⟨rfl, hmissing, .inr hnil⟩

/-- What is read for a payload: the one body, cut or filled up, or that a
key is missing. -/
theorem getEncodedPayload_race (hS : CollisionFree K S) {s : Race}
    (hs : OnSchedule K S verdict body Q s) {c : AltDACommitment} (hc : c ∈ S) :
    ∃ r s', OracleEigenDAPreimageProvider.getEncodedPayload K (raceOracle K) c s
        = some (r, s')
      ∧ OnSchedule K S verdict body Q s'
      ∧ s'.schedule.length ≤ s.schedule.length
      ∧ (r = .ok ⟨fitElements c.getNumFieldElement (body c)⟩
        ∨ r = .error (.preimage (.other "Key not found."))
          ∧ (∃ i < c.getNumFieldElement,
            s'.host.kv (elementKey K c i) = none)
          ∧ (s'.schedule.length < s.schedule.length ∨ s'.schedule = [])) := by
  obtain ⟨r, s', hloop, hs', hle, hr⟩ := @fetchEncodedPayload_race K S verdict
    body Q hS c hc 0 c.getNumFieldElement [] s hs rfl (by omega)
  rw [← List.range_eq_range', List.nil_append] at hloop hr
  have hwrite : (raceOracle K).write (encodeEigenDACertHint c.toRlpBytes) s
      = (.ok (), s) := rfl
  unfold OracleEigenDAPreimageProvider.getEncodedPayload
  simp only [hwrite, BYTES_PER_FIELD_ELEMENT, Option.bind_eq_bind]
  rw [Nat.mul_comm c.getNumFieldElement 32, hloop, Option.bind_some]
  rcases hr with ⟨rfl, hwhole⟩ | ⟨rfl, hmissing, hlater⟩
  · refine ⟨_, s', rfl, hs', hle, .inl ?_⟩
    have hread : (List.range c.getNumFieldElement).flatMap
        (fieldElement (body c)) = fitElements c.getNumFieldElement (body c) := by
      rcases Nat.eq_zero_or_pos c.getNumFieldElement with hzero | hpos
      · rw [hzero]
        rfl
      · exact flatMap_fieldElement (hwhole hpos) _
    rw [hread]
  · exact ⟨_, s', rfl, hs', hle, .inr ⟨rfl, hmissing, hlater⟩⟩

/-- The client of a host at work is stable on the commitments: no body is
put together from two. -/
theorem race_stableOn (hS : CollisionFree K S) :
    (OracleEigenDAPreimageProvider.provider K (raceOracle K)).StableOn S
      (OnSchedule K S verdict body Q) verdict
      fun c => ⟨fitElements c.getNumFieldElement (body c)⟩ where
  getValidity c hc s hs := by
    have hnext := onSchedule_advance hS hs
    rcases getValidity_race hS hs hc with ⟨-, hread⟩ | ⟨-, hread⟩
    · exact ⟨_, _, hread, hnext, .inl rfl⟩
    · exact ⟨_, _, hread, hnext, .inr ⟨_, _, rfl, rfl⟩⟩
  getEncodedPayload c hc s hs := by
    obtain ⟨r, s', hread, hs', -, rfl | ⟨rfl, -, -⟩⟩ :=
      getEncodedPayload_race hS hs hc
    · exact ⟨_, s', hread, hs', .inl rfl⟩
    · exact ⟨_, s', hread, hs', .inr ⟨_, _, rfl, rfl⟩⟩

-- ------------------------------------------------- what ends served

/-- Everything that is asked for at a block number is in the store: the
verdicts, and the elements of what is valid and recent. -/
def AllServed (K : KeyScheme) (verdict : AltDACommitment → Bool)
    (A : Set AltDACommitment) (bn : Nat) (h : Host) : Prop :=
  ∀ c ∈ A, (h.kv (validityKey K c)).isSome
    ∧ (verdict c = true → checkRecency c bn = .ok () →
      ∀ i < c.getNumFieldElement, (h.kv (elementKey K c i)).isSome)

/-- A race whose schedule is done is at its end. -/
theorem final_of_done {s : Race} (hs : OnSchedule K S verdict body Q s)
    (hdone : s.schedule = []) : Q s.host := by
  have hfinal := hs.final
  rw [hdone] at hfinal
  exact hfinal

/-- When everything ends served, the client is told that a key is missing
at most once for each batch of the schedule. -/
theorem race_failsAtMost (hS : CollisionFree K S) {A : Set AltDACommitment}
    (hA : A ⊆ S) {bn : Nat} (hQ : ∀ h, Q h → AllServed K verdict A bn h) :
    (OracleEigenDAPreimageProvider.provider K (raceOracle K)).FailsAtMost A bn
      (OnSchedule K S verdict body Q) fun s => s.schedule.length where
  getValidity c hc s r s' hs hread := by
    have hnext := onSchedule_advance hS hs
    have hlength := @length_advance K s
    rcases getValidity_race hS hs (hA hc) with ⟨-, hok⟩ | ⟨hmissing, herror⟩
    · have heq := Option.some.inj (hread.symm.trans hok)
      cases heq
      exact ⟨by omega, nofun⟩
    · have heq := Option.some.inj (hread.symm.trans herror)
      cases heq
      refine ⟨by omega, fun e he => ?_⟩
      cases hschedule : s.schedule with
      | nil =>
          rw [hschedule] at hlength
          have hserved := hQ _
            (final_of_done hnext (List.length_eq_zero_iff.mp hlength))
          have hsome := (hserved c hc).1
          rw [hmissing] at hsome
          cases hsome
      | cons b bs =>
          rw [hschedule] at hlength
          rw [hlength, List.length_cons]
          omega
  getEncodedPayload c hc s r s₁ s' hs hvalid hrecent hread := by
    have hnext := onSchedule_advance hS hs
    have hlength := @length_advance K s
    rcases getValidity_race hS hs (hA hc) with ⟨-, hok⟩ | ⟨-, herror⟩
    case inr =>
      have heq := Option.some.inj (hvalid.symm.trans herror)
      cases heq
    have heq := Option.some.inj (hvalid.symm.trans hok)
    have htrue : verdict c = true :=
      (Except.ok.inj (congrArg Prod.fst heq)).symm
    have hstate : s₁ = s.advance K := congrArg Prod.snd heq
    subst hstate
    obtain ⟨r', s'', hread', hs', hle, hr⟩ :=
      getEncodedPayload_race hS hnext (hA hc)
    cases Option.some.inj (hread.symm.trans hread')
    refine ⟨by omega, fun e he => ?_⟩
    rcases hr with rfl | ⟨-, ⟨i, hi, hmissing⟩, hlt | hdone⟩
    · cases he
    · omega
    · have hserved := hQ _ (final_of_done hs' hdone)
      have hsome := (hserved c hc).2 htrue hrecent i hi
      rw [hmissing] at hsome
      cases hsome

end Client

-- ========================================================= the results

section Results

variable {σ : Type} (E : EthereumDataSource σ) (batcherAddr : Address)
  {K : KeyScheme} {S : Set AltDACommitment}
  {verdict : AltDACommitment → Bool} {body : AltDACommitment → Bytes}

open EigenDADataSource

/-- What a chain of blocks contributes, each body cut or filled up to the
length of its commitment. -/
def chainImage (verdict : AltDACommitment → Bool)
    (body : AltDACommitment → Bytes) (blocks : List BlockInfo) : List Bytes :=
  blocks.flatMap (blockImage E batcherAddr verdict fun c =>
    ⟨fitElements c.getNumFieldElement (body c)⟩)

/-- Safety: in whatever order the host's handlers and the client run, and
whichever handlers are given up, the bytes derived from a chain of blocks
are a prefix of the blocks' images, and all of them once every block has
reported its end. -/
theorem race_prefix (hS : CollisionFree K S) (phases : List (BlockInfo × Nat))
    (hasked : ∀ block ∈ phases.map Prod.fst, asked E batcherAddr block ⊆ S)
    (host : Host) (hhost : Sound K S verdict body host)
    (schedule : List (List HostStep))
    (hschedule : ∀ batch ∈ schedule, ∀ x ∈ batch,
      HostStep.Consistent K S verdict body x)
    (eth : σ) :
    ∃ outs s', drivePhases (fun block => next E
          (OracleEigenDAPreimageProvider.provider K (raceOracle K)) block
          batcherAddr) isEof phases ⟨E.clear eth, ⟨host, schedule⟩, none⟩
        = some (outs, s')
      ∧ outs.flatMap okBytes
        <+: chainImage E batcherAddr verdict body (phases.map Prod.fst)
      ∧ (outs.countP isEof = phases.length → outs.flatMap okBytes
        = chainImage E batcherAddr verdict body (phases.map Prod.fst)) := by
  have hstable := @race_stableOn K S verdict body (fun _ => True) hS
  exact chain_prefix E _ batcherAddr phases
    (fun block hblock => hstable.mono (hasked block hblock))
    ⟨hhost, hschedule, trivial⟩ ⟨rfl, eth, rfl⟩

/-- Liveness: a schedule that ends with everything served that the blocks
ask for delays the derivation by as many calls as it has batches. -/
theorem race_image (hS : CollisionFree K S) (phases : List (BlockInfo × Nat))
    (hasked : ∀ block ∈ phases.map Prod.fst, asked E batcherAddr block ⊆ S)
    (hsupported : ∀ block ∈ phases.map Prod.fst,
      ∀ c ∈ asked E batcherAddr block, verdict c = true → ∀ version,
        checkRecency c block.number
          ≠ .error (.unsupportedOffchainDerivationVersion version))
    (ethLeft : σ → Nat) (hE : ∀ block ∈ phases.map Prod.fst,
      E.FailsAtMost block batcherAddr ethLeft)
    (host : Host) (hhost : Sound K S verdict body host)
    (schedule : List (List HostStep))
    (hschedule : ∀ batch ∈ schedule, ∀ x ∈ batch,
      HostStep.Consistent K S verdict body x)
    (hserved : ∀ block ∈ phases.map Prod.fst, AllServed K verdict
      (asked E batcherAddr block) block.number (host.run K schedule.flatten))
    (eth : σ)
    (hn : ∀ phase ∈ phases, schedule.length + ethLeft (E.clear eth)
      + ((phases.map Prod.fst).map fun b =>
        (E.items b batcherAddr).length).sum < phase.2) :
    ∃ outs s', drivePhases (fun block => next E
          (OracleEigenDAPreimageProvider.provider K (raceOracle K)) block
          batcherAddr) isEof phases ⟨E.clear eth, ⟨host, schedule⟩, none⟩
        = some (outs, s')
      ∧ outs.flatMap okBytes
        = chainImage E batcherAddr verdict body (phases.map Prod.fst) := by
  have hstable := @race_stableOn K S verdict body (fun h =>
    ∀ block ∈ phases.map Prod.fst, AllServed K verdict
      (asked E batcherAddr block) block.number h) hS
  obtain ⟨outs, s', hd, -, himage⟩ := chain_image E _ batcherAddr phases
    (s := ⟨E.clear eth, ⟨host, schedule⟩, none⟩) (fun block hblock => hstable.mono (hasked block hblock))
    (fun block hblock => race_failsAtMost hS (hasked block hblock)
      fun h hQ => hQ block hblock)
    hE hsupported ⟨hhost, hschedule, hserved⟩ ⟨rfl, eth, rfl⟩ hn
  exact ⟨outs, s', hd, himage⟩

end Results

-- ============================================================ an example

/-- The two sets of a hint for the commitment to one element. -/
theorem hintWrites_oneElement :
    hintWrites testKeyScheme oneElement.toRlpBytes emptyReply
      = [(validityKey testKeyScheme oneElement, [1]),
        (elementKey testKeyScheme oneElement 0, List.replicate 32 0)] := by
  have hfetch : fetchDataFromProxy emptyReply
      = .ok ⟨true, true, List.replicate 32 0⟩ := rfl
  have hone : oneElement.getNumFieldElement = 1 := by decide
  have hbody : payloadWrites testKeyScheme oneElement (List.replicate 32 0)
      = [(elementKey testKeyScheme oneElement 0, List.replicate 32 0)] := by
    unfold payloadWrites
    rw [hone]
    rfl
  unfold hintWrites
  simp only [tryFrom_oneElement, hfetch, Bool.not_true, Bool.false_eq_true,
    if_false, hbody]
  rfl

/-- The reply to it is consistent. -/
theorem consistent_oneElement :
    HostStep.Consistent testKeyScheme {oneElement} (fun _ => true)
      (fun _ => List.replicate 32 0)
      (.reply oneElement.toRlpBytes emptyReply) := by
  have hstage : stageOf oneElement (oneElement.toRlpBytes, emptyReply)
      = some ⟨true, true, List.replicate 32 0⟩ := by
    simp only [stageOf, tryFrom_oneElement, if_true]
    rfl
  refine ⟨fun d hd => ?_, fun c hc => ?_⟩
  · rw [tryFrom_oneElement] at hd
    exact (Except.ok.inj hd).symm
  · rw [Set.mem_singleton_iff.mp hc]
    constructor
    · intro v hv
      rw [verdictOf, hstage] at hv
      exact (Option.some.inj hv).symm
    · intro x hx
      obtain ⟨stage, hstage', -, rfl⟩ := bodyOf_eq_some_iff.mp hx
      rw [hstage] at hstage'
      rw [← Option.some.inj hstage']

/-- Two blocks of that commitment. -/
def twoBlocks : List (BlockInfo × Nat) := [(testBlock 3, 6), (testBlock 4, 6)]

/-- They ask for nothing else. -/
theorem asked_oneElement : ∀ block ∈ twoBlocks.map Prod.fst,
    EigenDADataSource.asked (listSource [1 :: oneElement.toRlpBytes])
      testAddress block ⊆ {oneElement} := by
  rintro block - c ⟨d, hd, hc⟩
  rw [List.mem_singleton.mp hd, EigenDAPreimageSource.parse] at hc
  by_cases hlen : (1 :: oneElement.toRlpBytes).length ≤ 2
  · rw [if_pos hlen] at hc
    cases hc
  · rw [if_neg hlen, List.drop_one, List.tail_cons, tryFrom_oneElement] at hc
    exact (Except.ok.inj hc).symm

/-- Nothing in them is of an unsupported version. -/
theorem supported_oneElement : ∀ block ∈ twoBlocks.map Prod.fst,
    ∀ c ∈ EigenDADataSource.asked (listSource [1 :: oneElement.toRlpBytes])
      testAddress block, true = true → ∀ version, checkRecency c block.number
        ≠ .error (.unsupportedOffchainDerivationVersion version) := by
  intro block hblock c hc _ version
  have hrecent : ∀ b ∈ twoBlocks.map Prod.fst,
      checkRecency oneElement b.number = .ok () := by decide
  rw [Set.mem_singleton_iff.mp (asked_oneElement block hblock hc),
    hrecent block hblock]
  exact nofun

/-- Their source never fails. -/
theorem neverFails_oneElement : ∀ block ∈ twoBlocks.map Prod.fst,
    (listSource [1 :: oneElement.toRlpBytes]).FailsAtMost block testAddress
      fun _ => 0 := by
  intro block _
  refine ⟨fun s r s' h => ⟨le_refl _, fun e he hne => ?_⟩, fun _ => le_refl _⟩
  subst he
  cases s with
  | nil =>
      cases h
      exact absurd rfl hne
  | cons d ds => cases h

/-- A host that knows nothing yet. -/
def idleHost : Host := ⟨fun _ => none, []⟩

theorem sound_idleHost {K : KeyScheme} {S : Set AltDACommitment}
    {verdict : AltDACommitment → Bool} {body : AltDACommitment → Bytes} :
    Sound K S verdict body idleHost :=
  ⟨nofun, nofun⟩

/-- Two handlers for one commitment; the first is given up between its two
sets, the second goes on while the client reads. -/
def racingHandlers : List (List HostStep) :=
  [[.reply oneElement.toRlpBytes emptyReply,
      .reply oneElement.toRlpBytes emptyReply, .set 0, .drop 0],
    [.set 0], [.set 0]]

theorem consistent_racingHandlers : ∀ batch ∈ racingHandlers, ∀ x ∈ batch,
    HostStep.Consistent testKeyScheme {oneElement} (fun _ => true)
      (fun _ => List.replicate 32 0) x := by
  simp only [racingHandlers, List.forall_mem_cons, List.not_mem_nil,
    false_imp_iff, implies_true, and_true]
  exact ⟨⟨consistent_oneElement, consistent_oneElement, trivial, trivial⟩,
    trivial, trivial⟩

/-- What the client derives from the two blocks against those handlers. -/
def racingRun (budget : Nat) :
    Option (List (Except PipelineErrorKind Bytes)
      × EigenDADataSource (List Bytes) Race) :=
  drivePhases (fun block => EigenDADataSource.next
      (listSource [1 :: oneElement.toRlpBytes])
      (OracleEigenDAPreimageProvider.provider testKeyScheme
        (raceOracle testKeyScheme)) block testAddress)
    EigenDADataSource.isEof [(testBlock 3, budget), (testBlock 4, budget)]
    ⟨[1 :: oneElement.toRlpBytes], ⟨idleHost, racingHandlers⟩, none⟩

/-- What is in them. -/
abbrev racingImage : List Bytes :=
  chainImage (listSource [1 :: oneElement.toRlpBytes]) testAddress
    (fun _ => true) (fun _ => List.replicate 32 0) [testBlock 3, testBlock 4]

/-- On any budget, what is derived is a prefix. -/
theorem race_prefix_racingHandlers : ∃ outs s', racingRun 2 = some (outs, s')
      ∧ outs.flatMap EigenDADataSource.okBytes <+: racingImage
      ∧ (outs.countP EigenDADataSource.isEof = 2 →
        outs.flatMap EigenDADataSource.okBytes = racingImage) :=
  race_prefix (listSource [1 :: oneElement.toRlpBytes]) testAddress
    testKeyScheme_collisionFree [(testBlock 3, 2), (testBlock 4, 2)]
    asked_oneElement idleHost sound_idleHost racingHandlers
    consistent_racingHandlers []

/-- On six calls for each block, it is everything. -/
theorem race_image_racingHandlers : ∃ outs s', racingRun 6 = some (outs, s')
      ∧ outs.flatMap EigenDADataSource.okBytes = racingImage := by
  have hone : oneElement.getNumFieldElement = 1 := by decide
  have hserved : ∀ block ∈ twoBlocks.map Prod.fst, AllServed testKeyScheme
      (fun _ => true) (EigenDADataSource.asked
        (listSource [1 :: oneElement.toRlpBytes]) testAddress block)
      block.number (idleHost.run testKeyScheme racingHandlers.flatten) := by
    intro block hblock c hc
    rw [Set.mem_singleton_iff.mp (asked_oneElement block hblock hc), hone]
    have hvalidity : validityKey testKeyScheme oneElement
        ≠ elementKey testKeyScheme oneElement 0 :=
      validityKey_ne_elementKey testKeyScheme_collisionFree rfl rfl (by omega)
    refine ⟨?_, fun _ _ i hi => ?_⟩
    · simp [racingHandlers, Host.run, Host.step, idleHost,
        hintWrites_oneElement, KeyValueStore.set, hvalidity]
    · rw [show i = 0 by omega]
      simp [racingHandlers, Host.run, Host.step, idleHost,
        hintWrites_oneElement, KeyValueStore.set]
  exact race_image (listSource [1 :: oneElement.toRlpBytes]) testAddress
    testKeyScheme_collisionFree twoBlocks asked_oneElement
    supported_oneElement (fun _ => 0) neverFails_oneElement idleHost sound_idleHost racingHandlers
    consistent_racingHandlers hserved [] (by decide)

end Handler

end Hokulea
