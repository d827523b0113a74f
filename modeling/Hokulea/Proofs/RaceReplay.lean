/-
From a host at work to the zkVM.

# What is proved

`race_replays`: the client derives a chain of blocks beside the host's
handlers, whatever their order, and everything it is answered is
recorded. If no batch of the schedule ends with the verdict of a recent
and valid certificate in the store and its body not, then whatever
witness is made of the record, the zkVM derives from it what the client
has derived, the image of the blocks.

# Why the condition

An answer that a key is missing is no harm for a verdict: it leaves no
entry. But the verdict is recorded before its body is asked for, and once
more when the client comes back, so a body that is missing makes the
record one entry too long, and the run over it panics.

# How

The recorder answers as the provider it is around (`stableOn_recording`).
What an attempt at one commitment keeps, a chain of blocks keeps
(`chain_keeps`): that no payload was refused, since the store of a host
at work only grows (`isSome_run`).
-/
import Hokulea.Proofs.Race
import Hokulea.Proofs.Replay

namespace Hokulea

open Bytes Machine AltDACommitment EigenDADataSource

-- =========================================================== recording

section Recording

variable {π ε : Type} {P : EigenDAPreimageProvider π ε}
  {S : Set AltDACommitment} {bn : Nat} {Inv : π → Prop}
  {validity : AltDACommitment → Bool}
  {payload : AltDACommitment → EncodedPayload}

/-- The recorder answers for a validity what its provider does. -/
theorem getValidity_recording (P : EigenDAPreimageProvider π ε)
    (c : AltDACommitment)
    (q : OracleEigenDAPreimageProviderWithPreimage (π × List ProviderEvent)) :
    ((recording P).getValidity c q).map (fun x => (x.1, x.2.provider.1))
      = P.getValidity c q.provider.1 := by
  cases hv : P.getValidity c q.provider.1 with
  | none =>
      simp [OracleEigenDAPreimageProviderWithPreimage.recorder,
        OracleEigenDAPreimageProviderWithPreimage.getValidity, traced, hv]
  | some x =>
      obtain ⟨r, p⟩ := x
      cases r <;>
        simp [OracleEigenDAPreimageProviderWithPreimage.recorder,
          OracleEigenDAPreimageProviderWithPreimage.getValidity, traced, hv]

/-- And for a payload. -/
theorem getEncodedPayload_recording (P : EigenDAPreimageProvider π ε)
    (c : AltDACommitment)
    (q : OracleEigenDAPreimageProviderWithPreimage (π × List ProviderEvent)) :
    ((recording P).getEncodedPayload c q).map (fun x => (x.1, x.2.provider.1))
      = P.getEncodedPayload c q.provider.1 := by
  cases hp : P.getEncodedPayload c q.provider.1 with
  | none =>
      simp [OracleEigenDAPreimageProviderWithPreimage.recorder,
        OracleEigenDAPreimageProviderWithPreimage.getEncodedPayload, traced, hp]
  | some x =>
      obtain ⟨r, p⟩ := x
      cases r <;>
        simp [OracleEigenDAPreimageProviderWithPreimage.recorder,
          OracleEigenDAPreimageProviderWithPreimage.getEncodedPayload, traced,
          hp]

/-- So it is as stable as its provider, -/
theorem stableOn_recording (hP : P.StableOn S Inv validity payload) :
    (recording P).StableOn S (fun q => Inv q.provider.1) validity payload where
  getValidity c hc q hq := by
    obtain ⟨r, p, hv, hp, hr⟩ := hP.getValidity c hc q.provider.1 hq
    rw [← getValidity_recording, Option.map_eq_some_iff] at hv
    obtain ⟨⟨_, q'⟩, hv, heq⟩ := hv
    cases heq
    exact ⟨_, q', hv, hp, hr⟩
  getEncodedPayload c hc q hq := by
    obtain ⟨r, p, hv, hp, hr⟩ := hP.getEncodedPayload c hc q.provider.1 hq
    rw [← getEncodedPayload_recording, Option.map_eq_some_iff] at hv
    obtain ⟨⟨_, q'⟩, hv, heq⟩ := hv
    cases heq
    exact ⟨_, q', hv, hp, hr⟩

/-- and fails as often. -/
theorem failsAtMost_recording {left : π → Nat}
    (hfails : P.FailsAtMost S bn Inv left) :
    (recording P).FailsAtMost S bn (fun q => Inv q.provider.1)
      fun q => left q.provider.1 where
  getValidity c hc q r q' hq hv := by
    have hP := getValidity_recording P c q
    rw [hv] at hP
    exact hfails.getValidity c hc _ r _ hq hP.symm
  getEncodedPayload c hc q r q₁ q' hq hv hr hp := by
    have hP := getValidity_recording P c q
    have hP' := getEncodedPayload_recording P c q₁
    rw [hv] at hP
    rw [hp] at hP'
    exact hfails.getEncodedPayload c hc _ r _ _ hq hP.symm hr hP'.symm

/-- After the verdict of what is valid and recent, the payload is there. -/
structure EigenDAPreimageProvider.UnbrokenOn
    (P : EigenDAPreimageProvider π ε) (S : Set AltDACommitment) (bn : Nat)
    (Inv : π → Prop) : Prop where
  getEncodedPayload : ∀ c ∈ S, ∀ p p₁ r p', Inv p →
    P.getValidity c p = some (.ok true, p₁) → checkRecency c bn = .ok () →
    P.getEncodedPayload c p₁ = some (r, p') → ∃ ep, r = .ok ep

/-- What is kept of a recorder: its provider's invariant, and a log that
can be replayed. -/
structure RecordableLog (Inv : π → Prop)
    (q : OracleEigenDAPreimageProviderWithPreimage (π × List ProviderEvent)) :
    Prop where
  inv : Inv q.provider.1
  log : ∀ event ∈ q.provider.2, Recordable event

/-- An event at the end of the log. -/
theorem RecordableLog.snoc
    {q q' : OracleEigenDAPreimageProviderWithPreimage (π × List ProviderEvent)}
    (hq : RecordableLog Inv q) {dV : Validities} {dL : Payloads}
    {event : ProviderEvent} (h : Records q q' dV dL [event])
    (hinv : Inv q'.provider.1) (hevent : Recordable event) :
    RecordableLog Inv q' := by
  refine ⟨hinv, fun e he => ?_⟩
  rw [h.log] at he
  rcases List.mem_append.mp he with hold | hnew
  · exact hq.log e hold
  · rw [List.mem_singleton.mp hnew]
    exact hevent

/-- An attempt keeps it. -/
theorem attempt_recordable (hP : P.StableOn S Inv validity payload)
    (hunbroken : P.UnbrokenOn S bn Inv) {c : AltDACommitment} (hc : c ∈ S)
    {q q' : OracleEigenDAPreimageProviderWithPreimage (π × List ProviderEvent)}
    {r : Except HokuleaErrorKind EncodedPayload} (hq : RecordableLog Inv q)
    (h : EigenDAPreimageSource.next (recording P) c bn q = some (r, q')) :
    RecordableLog Inv q' := by
  have hvalidity : ∀ {rv q₁}, (recording P).getValidity c q = some (rv, q₁) →
      RecordableLog Inv q₁ := by
    intro rv q₁ hv
    obtain ⟨_, _, hv', hinv, hr⟩ :=
      (stableOn_recording hP).getValidity c hc q hq.inv
    cases Option.some.inj (hv.symm.trans hv')
    apply hq.snoc (getValidity_records P hv) hinv
    rcases hr with rfl | ⟨e, text, rfl, he⟩
    · trivial
    · have hinto : P.into e = .temporary text := he
      simp only [Except.mapError, hinto, Recordable]
  cases EigenDAPreimageSource.next_cases h with
  | unanswered hv => exact hvalidity hv
  | invalid hv => exact hvalidity hv
  | rejected hv hr => exact hvalidity hv
  | @failed e q₁ _ hv hr hp =>
      have hinner := getValidity_recording P c q
      have hinner' := getEncodedPayload_recording P c q₁
      rw [hv] at hinner
      rw [hp] at hinner'
      obtain ⟨ep, hep⟩ := hunbroken.getEncodedPayload c hc _ _ _ _ hq.inv
        hinner.symm hr hinner'.symm
      cases hep
  | @answered ep q₁ _ hv hr hp =>
      have hq₁ := hvalidity hv
      obtain ⟨_, _, hp', hinv, -⟩ :=
        (stableOn_recording hP).getEncodedPayload c hc q₁ hq₁.inv
      cases Option.some.inj (hp.symm.trans hp')
      exact hq₁.snoc (getEncodedPayload_records P hp) hinv trivial

end Recording

namespace Handler

variable {K : KeyScheme} {S : Set AltDACommitment}
  {verdict : AltDACommitment → Bool} {body : AltDACommitment → Bytes}
  {Q : Host → Prop}

-- ================================================= the store only grows

/-- A key that is in the store stays there, whatever the host does. -/
theorem isSome_step {h : Host} {key : B256} (hkey : (h.kv key).isSome)
    (x : HostStep) : ((h.step K x).kv key).isSome := by
  have hset : ∀ w : Write, ((h.kv.set w.1 w.2) key).isSome := by
    intro w
    unfold KeyValueStore.set
    by_cases heq : key = w.1
    · rw [heq, Function.update_self]
      rfl
    · rw [Function.update_of_ne heq]
      exact hkey
  cases x with
  | reply bytes reply => exact hkey
  | set i =>
      cases hi : h.handlers[i]? with
      | none => simpa only [Host.step, hi] using hkey
      | some writes =>
          cases writes with
          | nil => simpa only [Host.step, hi] using hkey
          | cons w ws => simpa only [Host.step, hi] using hset w
  | drop i => exact hkey
  | kona w => exact hset w

/-- So it does over any run. -/
theorem isSome_run {h : Host} {key : B256} (hkey : (h.kv key).isSome)
    (steps : List HostStep) : ((h.run K steps).kv key).isSome := by
  induction steps generalizing h with
  | nil => exact hkey
  | cons x steps ih =>
      show (((h.step K x).run K steps).kv key).isSome
      exact ih (isSome_step hkey x)

-- ======================================================= what reads keep

/-- What every batch keeps, the read loop keeps. -/
theorem fetchEncodedPayload_keeps {J : Race → Prop}
    (hJ : ∀ s, J s → J (s.advance K)) {template buffer : Bytes}
    {idxs : List Nat} {s s' : Race}
    {r : Except HokuleaOracleProviderError Bytes} (hs : J s)
    (h : OracleEigenDAPreimageProvider.fetchEncodedPayload K (raceOracle K)
      template idxs buffer s = some (r, s')) : J s' := by
  induction idxs generalizing buffer s with
  | nil =>
      cases h
      exact hs
  | cons idx idxs ih =>
      have hread : ((raceOracle K).getExact (K.key (withIndex template idx)) 32
          s).2 = s.advance K := rfl
      unfold OracleEigenDAPreimageProvider.fetchEncodedPayload at h
      generalize (raceOracle K).getExact (K.key (withIndex template idx)) 32 s
        = x at hread h
      obtain ⟨answer, s₁⟩ := x
      simp only at hread
      subst hread
      cases answer with
      | error e =>
          cases h
          exact hJ s hs
      | ok element =>
          simp only [Option.bind_eq_bind, Option.bind_eq_some_iff] at h
          obtain ⟨filled, -, h⟩ := h
          exact ih (hJ s hs) h

/-- So does the read of a verdict, -/
theorem getValidity_keeps {J : Race → Prop}
    (hJ : ∀ s, J s → J (s.advance K)) {c : AltDACommitment} {s s' : Race}
    {r : Except HokuleaOracleProviderError Bool} (hs : J s)
    (h : OracleEigenDAPreimageProvider.getValidity K (raceOracle K) c s
      = some (r, s')) : J s' := by
  have hwrite : (raceOracle K).write (encodeEigenDACertHint c.toRlpBytes) s
      = (.ok (), s) := rfl
  have hread : ((raceOracle K).get (validityKey K c) s).2 = s.advance K := rfl
  unfold validityKey at hread
  unfold OracleEigenDAPreimageProvider.getValidity at h
  simp only [hwrite] at h
  generalize (raceOracle K).get (K.key (withInterface
    (c.digestTemplate K.keccak256) RESERVED_EIGENDA_API_BYTE_FOR_VALIDITY)) s
    = x at hread h
  obtain ⟨answer, s₁⟩ := x
  simp only at hread
  subst hread
  split at h
  next heq =>
    cases heq
    cases h
    exact hJ s hs
  next heq =>
    cases heq
    cases h
    exact hJ s hs
  next heq =>
    cases heq
    cases h
    exact hJ s hs
  next => cases h

/-- and of a payload. -/
theorem getEncodedPayload_keeps {J : Race → Prop}
    (hJ : ∀ s, J s → J (s.advance K)) {c : AltDACommitment} {s s' : Race}
    {r : Except HokuleaOracleProviderError EncodedPayload} (hs : J s)
    (h : OracleEigenDAPreimageProvider.getEncodedPayload K (raceOracle K) c s
      = some (r, s')) : J s' := by
  have hwrite : (raceOracle K).write (encodeEigenDACertHint c.toRlpBytes) s
      = (.ok (), s) := rfl
  unfold OracleEigenDAPreimageProvider.getEncodedPayload at h
  simp only [hwrite, Option.bind_eq_bind, Option.bind_eq_some_iff] at h
  obtain ⟨⟨answer, s₁⟩, hloop, h⟩ := h
  have hs₁ := fetchEncodedPayload_keeps hJ hs hloop
  cases answer <;> cases h <;> exact hs₁

-- ===================================================== verdict and body

/-- No verdict of the valid and recent without its body. -/
def Whole (K : KeyScheme) (verdict : AltDACommitment → Bool)
    (A : Set AltDACommitment) (bn : Nat) (h : Host) : Prop :=
  ∀ c ∈ A, (h.kv (validityKey K c)).isSome → verdict c = true →
    checkRecency c bn = .ok () →
    ∀ i < c.getNumFieldElement, (h.kv (elementKey K c i)).isSome

/-- What holds of the host now, and after each batch it has ahead. -/
def Along (K : KeyScheme) (W : Host → Prop) (s : Race) : Prop :=
  ∀ n, W (s.host.run K (s.schedule.take n).flatten)

/-- The next batch is one of those. -/
theorem along_advance {W : Host → Prop} {s : Race} (h : Along K W s) :
    Along K W (s.advance K) := by
  obtain ⟨host, schedule⟩ := s
  cases schedule with
  | nil => exact h
  | cons batch schedule =>
      intro n
      have hn := h (n + 1)
      simp only [List.take_succ_cons, List.flatten_cons, Host.run,
        List.foldl_append] at hn
      exact hn

/-- It holds now. -/
theorem Along.now {W : Host → Prop} {s : Race} (h : Along K W s) : W s.host :=
  h 0

section Serving

variable {σ : Type} (E : EthereumDataSource σ) (batcherAddr : Address)
  (K : KeyScheme) (S : Set AltDACommitment)
  (verdict : AltDACommitment → Bool) (body : AltDACommitment → Bytes)
  (blocks : List BlockInfo)

/-- A race that serves a chain of blocks: all they ask for at its end, and
on the way to it no verdict without its body. -/
def Serving (s : Race) : Prop :=
  OnSchedule K S verdict body (fun h => ∀ block ∈ blocks,
      AllServed K verdict (asked E batcherAddr block) block.number h) s
    ∧ Along K (fun h => ∀ block ∈ blocks,
      Whole K verdict (asked E batcherAddr block) block.number h) s

variable {K S verdict body blocks}

/-- Its client is stable, -/
theorem serving_stableOn (hS : CollisionFree K S) :
    (OracleEigenDAPreimageProvider.provider K (raceOracle K)).StableOn S
      (Serving E batcherAddr K S verdict body blocks) verdict
      fun c => ⟨fitElements c.getNumFieldElement (body c)⟩ :=
  (race_stableOn hS).keeping
    (getValidity_keeps (J := Along K _) fun _ => along_advance)
    (getEncodedPayload_keeps (J := Along K _) fun _ => along_advance)

/-- fails no more often than the schedule has batches, -/
theorem serving_failsAtMost (hS : CollisionFree K S) {block : BlockInfo}
    (hblock : block ∈ blocks) (hasked : asked E batcherAddr block ⊆ S) :
    (OracleEigenDAPreimageProvider.provider K (raceOracle K)).FailsAtMost
      (asked E batcherAddr block) block.number
      (Serving E batcherAddr K S verdict body blocks)
      fun s => s.schedule.length :=
  (race_failsAtMost hS hasked fun _ hserved => hserved block hblock).restrict
    fun _ hs => hs.1

/-- and is never refused a payload after its verdict. -/
theorem serving_unbrokenOn (hS : CollisionFree K S) {block : BlockInfo}
    (hblock : block ∈ blocks) (hasked : asked E batcherAddr block ⊆ S) :
    (OracleEigenDAPreimageProvider.provider K (raceOracle K)).UnbrokenOn
      (asked E batcherAddr block) block.number
      (Serving E batcherAddr K S verdict body blocks) where
  getEncodedPayload c hc s s₁ r s' hs hv hrecent hp := by
    rcases getValidity_race hS hs.1 (hasked hc) with ⟨hthere, hok⟩ | ⟨-, herror⟩
    case inr =>
      cases Option.some.inj (hv.symm.trans herror)
    have heq := Option.some.inj (hv.symm.trans hok)
    have htrue : verdict c = true :=
      (Except.ok.inj (congrArg Prod.fst heq)).symm
    have hstate : s₁ = s.advance K := congrArg Prod.snd heq
    subst hstate
    -- the elements are in the store, and stay there while they are read
    have hwhole := (along_advance hs.2).now block hblock c hc hthere htrue
      hrecent
    have hstays : ∀ i < c.getNumFieldElement,
        (s'.host.kv (elementKey K c i)).isSome := by
      intro i hi
      have hkeep : ∀ s : Race, (s.host.kv (elementKey K c i)).isSome →
          ((s.advance K).host.kv (elementKey K c i)).isSome :=
        fun s h => isSome_run h (s.schedule.headD [])
      exact getEncodedPayload_keeps hkeep (hwhole i hi) hp
    obtain ⟨r', s'', hread, -, -, hr⟩ :=
      getEncodedPayload_race hS (onSchedule_advance hS hs.1) (hasked hc)
    cases Option.some.inj (hp.symm.trans hread)
    rcases hr with rfl | ⟨-, ⟨i, hi, hmissing⟩, -⟩
    · exact ⟨_, rfl⟩
    · have hsome := hstays i hi
      rw [hmissing] at hsome
      cases hsome

end Serving

end Handler

-- ======================================================= the second run

section Second

open PreloadedEigenDAPreimageProvider

variable {σ σ' : Type} (E : EthereumDataSource σ) (E' : EthereumDataSource σ')
  (batcherAddr : Address)

/-- What the zkVM derives from a chain of blocks over a provider: on no
budget it panics, on any it has returned a prefix of these bytes, and on
some it has returned them all, if its source does not fail. -/
structure Rederives (pre : PreloadedEigenDAPreimageProvider)
    (blocks : List BlockInfo) (l : List Bytes) : Prop where
  safe : ∀ eth phases, phases.map Prod.fst = blocks →
    ∃ outs s, deriveBlocks E' provider batcherAddr phases
        ⟨E'.clear eth, pre, none⟩ = some (outs, s)
      ∧ outs.flatMap okBytes <+: l
  whole : Unfailing E' → ∀ eth, ∃ n outs s,
    deriveBlocks E' provider batcherAddr (blocks.map (·, n))
        ⟨E'.clear eth, pre, none⟩ = some (outs, s)
      ∧ outs.flatMap okBytes = l

variable {E' batcherAddr}

/-- It does so when the provider holds what the work consumes. -/
theorem rederives_of_replays {pre : PreloadedEigenDAPreimageProvider}
    {blocks : List BlockInfo} {l : List Bytes}
    (h : ∀ eth, Replays E' batcherAddr blocks ⟨E'.clear eth, pre, none⟩ l) :
    Rederives E' batcherAddr pre blocks l := by
  constructor
  · rintro eth phases rfl
    obtain ⟨outs, s, hrun, hprefix, -⟩ := deriveBlocks_replays (h eth)
    exact ⟨outs, s, hrun, hprefix⟩
  · intro hE' eth
    let n := replayMeasure E' batcherAddr blocks ⟨E'.clear eth, pre, none⟩ + 1
    have hblocks : (blocks.map (·, n)).map Prod.fst = blocks := by
      rw [List.map_map]
      exact List.map_id blocks
    have hstart : Replays E' batcherAddr ((blocks.map (·, n)).map Prod.fst)
        ⟨E'.clear eth, pre, none⟩ l := hblocks.symm ▸ h eth
    obtain ⟨outs, s, hrun, -, hall⟩ := deriveBlocks_replays hstart
    have hcount := deriveBlocks_stops hE' (Nat.lt_succ_self _) hrun
    exact ⟨n, outs, s, hrun, hall (by rw [hcount, List.length_map])⟩

variable {E}

/-- The provider made of a witness does, when the log of the first run can
be replayed and the sources have the same items. -/
theorem rederives_of_recorded {π ε : Type} {P : EigenDAPreimageProvider π ε}
    {phases : List (BlockInfo × Nat)} {eth : σ} {p : π}
    {outs : List (Except PipelineErrorKind Bytes)}
    {s : EigenDADataSource σ
      (OracleEigenDAPreimageProviderWithPreimage (π × List ProviderEvent))}
    (hrun : deriveBlocks E (recording P) batcherAddr phases
      ⟨E.clear eth, ⟨(p, []), {}⟩, none⟩ = some (outs, s))
    (hend : outs.countP isEof = phases.length)
    (hlog : ∀ event ∈ s.eigendaSource.provider.2, Recordable event)
    (hitems : ∀ block ∈ phases.map Prod.fst,
      E'.items block batcherAddr = E.items block batcherAddr)
    {kzgProofs : List B512} {canoeProof : Option Bytes} {w : EigenDAWitness}
    (hw : EigenDAWitness.fromPreimage s.eigendaSource.preimage kzgProofs
      canoeProof = .ok w)
    {head : L1Head} {V : CanoeVerifier} {A : CanoeVerifierAddressFetcher}
    {batchVerify : BatchVerify} {pre : PreloadedEigenDAPreimageProvider}
    (hpre : fromWitness w head V A batchVerify = some pre) :
    Rederives E' batcherAddr pre (phases.map Prod.fst)
      (outs.flatMap okBytes) := by
  have hderives := run_derives hrun hend hlog
  apply rederives_of_replays
  intro eth'
  refine ⟨_, _, fromWitness_fromPreimage hw hpre, ?_⟩
  rw [work_clear, List.flatMap_congr fun block hblock => by
    rw [hitems block hblock]]
  exact hderives

/-- The log of a chain can be, where no payload is refused after its
verdict. -/
theorem recordable_chain {π ε : Type} {P : EigenDAPreimageProvider π ε}
    {Inv : π → Prop} {validity : AltDACommitment → Bool}
    {payload : AltDACommitment → EncodedPayload}
    {phases : List (BlockInfo × Nat)}
    (hP : ∀ block ∈ phases.map Prod.fst,
      P.StableOn (asked E batcherAddr block) Inv validity payload)
    (hunbroken : ∀ block ∈ phases.map Prod.fst,
      P.UnbrokenOn (asked E batcherAddr block) block.number Inv)
    {eth : σ} {p : π} (hp : Inv p)
    {outs : List (Except PipelineErrorKind Bytes)}
    {s : EigenDADataSource σ
      (OracleEigenDAPreimageProviderWithPreimage (π × List ProviderEvent))}
    (hrun : deriveBlocks E (recording P) batcherAddr phases
      ⟨E.clear eth, ⟨(p, []), {}⟩, none⟩ = some (outs, s)) :
    ∀ event ∈ s.eigendaSource.provider.2, Recordable event := by
  obtain ⟨left, hpath, -⟩ := drivePhases_path hrun
  have hkept := chain_keeps E (recording P) batcherAddr
    (J := RecordableLog Inv)
    (fun block hblock _ _ _ _ hc hq h => attempt_recordable (hP block hblock)
      (hunbroken block hblock) hc hq h)
    ⟨rfl, eth, rfl⟩ ⟨hp, fun _ h => absurd h List.not_mem_nil⟩ hpath
  exact hkept.log

end Second

-- =========================================================== the result

namespace Handler

section Result

variable {σ σ' : Type} (E : EthereumDataSource σ) (E' : EthereumDataSource σ')
  (batcherAddr : Address) {K : KeyScheme} {S : Set AltDACommitment}
  {verdict : AltDACommitment → Bool} {body : AltDACommitment → Bytes}

/-- From the host's handlers to the zkVM. A client derives a chain of
blocks beside them, and is recorded; the schedule ends with everything
served, and no batch of it with a verdict that has no body. Then the
client derives the image of the blocks, and from a witness of its record
the zkVM derives the image. -/
theorem race_replays (hS : CollisionFree K S) (phases : List (BlockInfo × Nat))
    (hasked : ∀ block ∈ phases.map Prod.fst, asked E batcherAddr block ⊆ S)
    (hsupported : ∀ block ∈ phases.map Prod.fst,
      ∀ c ∈ asked E batcherAddr block, verdict c = true → ∀ version,
        checkRecency c block.number
          ≠ .error (.unsupportedOffchainDerivationVersion version))
    (ethLeft : σ → Nat) (hE : ∀ block ∈ phases.map Prod.fst,
      E.FailsAtMost block batcherAddr ethLeft)
    (host : Host) (hhost : Sound K S verdict body host)
    (schedule : List (List HostStep))
    (hschedule : ∀ batch ∈ schedule, ∀ x ∈ batch,
      HostStep.Consistent K S verdict body x)
    (hserved : ∀ block ∈ phases.map Prod.fst, AllServed K verdict
      (asked E batcherAddr block) block.number (host.run K schedule.flatten))
    (hwhole : ∀ n, ∀ block ∈ phases.map Prod.fst, Whole K verdict
      (asked E batcherAddr block) block.number
      (host.run K (schedule.take n).flatten))
    (eth : σ)
    (hn : ∀ phase ∈ phases, schedule.length + ethLeft (E.clear eth)
      + ((phases.map Prod.fst).map fun b =>
        (E.items b batcherAddr).length).sum < phase.2)
    (hitems : ∀ block ∈ phases.map Prod.fst,
      E'.items block batcherAddr = E.items block batcherAddr) :
    ∃ outs s, deriveBlocks E
          (recording (OracleEigenDAPreimageProvider.provider K (raceOracle K)))
          batcherAddr phases
          ⟨E.clear eth, ⟨(⟨host, schedule⟩, []), {}⟩, none⟩ = some (outs, s)
      ∧ outs.flatMap okBytes
        = chainImage E batcherAddr verdict body (phases.map Prod.fst)
      ∧ ∀ kzgProofs canoeProof w head V A batchVerify pre,
        EigenDAWitness.fromPreimage s.eigendaSource.preimage kzgProofs
          canoeProof = .ok w →
        PreloadedEigenDAPreimageProvider.fromWitness w head V A batchVerify
          = some pre →
        Rederives E' batcherAddr pre (phases.map Prod.fst)
          (chainImage E batcherAddr verdict body (phases.map Prod.fst)) := by
  have hstart : Serving E batcherAddr K S verdict body (phases.map Prod.fst)
      ⟨host, schedule⟩ := ⟨⟨hhost, hschedule, hserved⟩, hwhole⟩
  have hP := fun block hblock =>
    (@serving_stableOn σ E batcherAddr K S verdict body (phases.map Prod.fst)
      hS).mono (hasked block hblock)
  obtain ⟨outs, s, hrun, hend, himage⟩ := chain_image E
    (recording (OracleEigenDAPreimageProvider.provider K (raceOracle K)))
    batcherAddr phases
    (s := ⟨E.clear eth, ⟨(⟨host, schedule⟩, []), {}⟩, none⟩)
    (fun block hblock => stableOn_recording (hP block hblock))
    (fun block hblock => failsAtMost_recording
      (serving_failsAtMost E batcherAddr hS hblock (hasked block hblock)))
    hE hsupported hstart ⟨rfl, eth, rfl⟩ hn
  have hlog := recordable_chain hP
    (fun block hblock => serving_unbrokenOn E batcherAddr hS hblock
      (hasked block hblock)) hstart hrun
  refine ⟨outs, s, hrun, himage, ?_⟩
  intro kzgProofs canoeProof w head V A batchVerify pre hw hpre
  have h := rederives_of_recorded hrun hend hlog hitems hw hpre
  rw [himage] at h
  exact h

end Result

-- ============================================================ an example

/-- Two handlers for one commitment: the first is given up before its
sets, the second makes both before the client reads on. -/
def wholeHandlers : List (List HostStep) :=
  [[], [.reply oneElement.toRlpBytes emptyReply,
      .reply oneElement.toRlpBytes emptyReply, .drop 0], [.set 0, .set 0]]

theorem consistent_wholeHandlers : ∀ batch ∈ wholeHandlers, ∀ x ∈ batch,
    HostStep.Consistent testKeyScheme {oneElement} (fun _ => true)
      (fun _ => List.replicate 32 0) x := by
  simp only [wholeHandlers, List.forall_mem_cons, List.not_mem_nil,
    false_imp_iff, implies_true, and_true, true_and]
  exact ⟨⟨consistent_oneElement, consistent_oneElement, trivial⟩,
    trivial, trivial⟩

/-- The store after them. -/
theorem run_wholeHandlers :
    ((idleHost.run testKeyScheme wholeHandlers.flatten).kv
        (validityKey testKeyScheme oneElement)).isSome
      ∧ ((idleHost.run testKeyScheme wholeHandlers.flatten).kv
        (elementKey testKeyScheme oneElement 0)).isSome := by
  have hvalidity : validityKey testKeyScheme oneElement
      ≠ elementKey testKeyScheme oneElement 0 :=
    validityKey_ne_elementKey testKeyScheme_collisionFree rfl rfl (by decide)
  constructor
  · simp [wholeHandlers, Host.run, Host.step, idleHost, hintWrites_oneElement,
      KeyValueStore.set, hvalidity]
  · simp [wholeHandlers, Host.run, Host.step, idleHost, hintWrites_oneElement,
      KeyValueStore.set]

/-- Before the last batch it is empty. -/
theorem whole_wholeHandlers (n : Nat) (block : BlockInfo)
    (hblock : block ∈ twoBlocks.map Prod.fst) :
    Whole testKeyScheme (fun _ => true)
      (asked (listSource [1 :: oneElement.toRlpBytes]) testAddress block)
      block.number
      (idleHost.run testKeyScheme (wholeHandlers.take n).flatten) := by
  intro c hc hthere _ _ i hi
  rw [Set.mem_singleton_iff.mp (asked_oneElement block hblock hc)]
    at hthere hi ⊢
  have hone : oneElement.getNumFieldElement = 1 := by decide
  have hall : 3 ≤ n := by
    by_contra hlt
    have hempty : (idleHost.run testKeyScheme
        (wholeHandlers.take n).flatten).kv
          (validityKey testKeyScheme oneElement) = none := by
      rcases n with _ | _ | _ | n
      · rfl
      · rfl
      · rfl
      · omega
    rw [hempty] at hthere
    cases hthere
  have htake : wholeHandlers.take n = wholeHandlers :=
    List.take_of_length_le hall
  rw [htake, show i = 0 by omega]
  exact run_wholeHandlers.2

/-- The two blocks are derived beside those handlers, and from the record
of that again. -/
theorem race_replays_wholeHandlers :
    ∃ outs s, deriveBlocks (listSource [1 :: oneElement.toRlpBytes])
          (recording (OracleEigenDAPreimageProvider.provider testKeyScheme
            (raceOracle testKeyScheme)))
          testAddress twoBlocks ⟨[1 :: oneElement.toRlpBytes],
            ⟨(⟨idleHost, wholeHandlers⟩, []), {}⟩, none⟩ = some (outs, s)
      ∧ outs.flatMap okBytes = racingImage
      ∧ ∀ kzgProofs canoeProof w head V A batchVerify pre,
        EigenDAWitness.fromPreimage s.eigendaSource.preimage kzgProofs
          canoeProof = .ok w →
        PreloadedEigenDAPreimageProvider.fromWitness w head V A batchVerify
          = some pre →
        Rederives (listSource [1 :: oneElement.toRlpBytes]) testAddress pre
          (twoBlocks.map Prod.fst) racingImage := by
  have hserved : ∀ block ∈ twoBlocks.map Prod.fst, AllServed testKeyScheme
      (fun _ => true) (asked (listSource [1 :: oneElement.toRlpBytes])
        testAddress block)
      block.number (idleHost.run testKeyScheme wholeHandlers.flatten) := by
    intro block hblock c hc
    have hone : oneElement.getNumFieldElement = 1 := by decide
    rw [Set.mem_singleton_iff.mp (asked_oneElement block hblock hc), hone]
    refine ⟨run_wholeHandlers.1, fun _ _ i hi => ?_⟩
    rw [show i = 0 by omega]
    exact run_wholeHandlers.2
  exact race_replays (listSource [1 :: oneElement.toRlpBytes])
    (listSource [1 :: oneElement.toRlpBytes]) testAddress
    testKeyScheme_collisionFree twoBlocks asked_oneElement
    supported_oneElement (fun _ => 0) neverFails_oneElement idleHost
    sound_idleHost wholeHandlers consistent_wholeHandlers hserved
    whole_wholeHandlers [] (by decide) fun _ _ => rfl

end Handler

end Hokulea
