/-
Recording a derivation and replaying it.

# The two runs

The first run derives over `recorder`, which appends every answer it
passes on to two lists. The lists become a witness, the witness a
preloaded provider, and the second run derives over that. The recorder
appends on every answered call; the preloaded provider pops once for
every attempt.

# What is proved

`replay_of_record`: when no attempt of the first run fails after its
validity was recorded, the second run never panics, over any L1 source
with the same blocks and any budgets, and returns the same bytes.

`replay_panics`: an attempt that fails in `get_encoded_payload` and is
retried leaves a second validity entry behind, and the second run
panics on it at the next commitment.

# How

`Derives W V L outs` says that working off `W` consumes exactly the
validities `V` and the payloads `L` and returns `outs`. It is read in
both directions: a recorded run builds it from its end backwards
(`Prepends`), and a replay is driven by it from its start forwards.
-/
import Hokulea.Eigenda.TestUtils
import Hokulea.Proof.Preloaded
import Hokulea.Proofs.Parsing
import Hokulea.Proofs.PayloadCodec
import Hokulea.Proofs.Simulation
import Hokulea.Witgen.Recorder

namespace Hokulea

open Bytes Machine AltDACommitment EigenDADataSource

-- ========================================================== derivations

/-- What a derivation has to work off: a commitment it keeps or an item
it has yet to read, with the number of the block either is from. -/
inductive Work where
  | kept (bn : Nat) (c : AltDACommitment)
  | item (bn : Nat) (d : Bytes)

/-- Recorded validities, oldest first. -/
abbrev Validities := List (AltDACommitment × Bool)

/-- Recorded payloads, oldest first. -/
abbrev Payloads := List (AltDACommitment × EncodedPayload)

/-- Working off `W` consumes the validities and the payloads, in order
and to the last, and returns the bytes. -/
inductive Derives : List Work → Validities → Payloads → List Bytes → Prop
  | finished : Derives [] [] [] []
  | skipped {bn : Nat} {d : Bytes} {W : List Work} {V : Validities}
      {L : Payloads} {outs : List Bytes}
      (hd : d = [] ∨ (d.head? = some ALTDA_DERIVATION_VERSION
        ∧ ∃ e, EigenDAPreimageSource.parse d = .error e))
      (h : Derives W V L outs) : Derives (.item bn d :: W) V L outs
  | passed {bn : Nat} {d : Bytes} {W : List Work} {V : Validities}
      {L : Payloads} {outs : List Bytes}
      (hd : d ≠ [] ∧ d.head? ≠ some ALTDA_DERIVATION_VERSION)
      (h : Derives W V L outs) : Derives (.item bn d :: W) V L (d :: outs)
  | fetched {bn : Nat} {d : Bytes} {c : AltDACommitment} {W : List Work}
      {V : Validities} {L : Payloads} {outs : List Bytes}
      (hd : d.head? = some ALTDA_DERIVATION_VERSION)
      (hc : EigenDAPreimageSource.parse d = .ok c)
      (h : Derives (.kept bn c :: W) V L outs) :
      Derives (.item bn d :: W) V L outs
  | invalid {bn : Nat} {c : AltDACommitment} {W : List Work}
      {V : Validities} {L : Payloads} {outs : List Bytes}
      (h : Derives W V L outs) :
      Derives (.kept bn c :: W) ((c, false) :: V) L outs
  /-- Rejected by the recency rule and dropped. -/
  | dropped {bn : Nat} {c : AltDACommitment} {e : HokuleaStatelessError}
      {text : String} {W : List Work} {V : Validities} {L : Payloads}
      {outs : List Bytes} (he : checkRecency c bn = .error e)
      (htext : e.toErrorKind = .discard text) (h : Derives W V L outs) :
      Derives (.kept bn c :: W) ((c, true) :: V) L outs
  /-- Rejected by the recency rule and kept. -/
  | stuck {bn : Nat} {c : AltDACommitment} {e : HokuleaStatelessError}
      {text : String} {W : List Work} {V : Validities} {L : Payloads}
      {outs : List Bytes} (he : checkRecency c bn = .error e)
      (htext : e.toErrorKind = .critical text)
      (h : Derives (.kept bn c :: W) V L outs) :
      Derives (.kept bn c :: W) ((c, true) :: V) L outs
  | undecodable {bn : Nat} {c : AltDACommitment} {ep : EncodedPayload}
      {e : HokuleaStatelessError} {W : List Work} {V : Validities}
      {L : Payloads} {outs : List Bytes} (hr : checkRecency c bn = .ok ())
      (hdec : ep.decode = some (.error e)) (h : Derives W V L outs) :
      Derives (.kept bn c :: W) ((c, true) :: V) ((c, ep) :: L) outs
  | decoded {bn : Nat} {c : AltDACommitment} {ep : EncodedPayload}
      {payload : Bytes} {W : List Work} {V : Validities} {L : Payloads}
      {outs : List Bytes} (hr : checkRecency c bn = .ok ())
      (hdec : ep.decode = some (.ok payload)) (h : Derives W V L outs) :
      Derives (.kept bn c :: W) ((c, true) :: V) ((c, ep) :: L)
        (payload :: outs)

/-- A skipped item costs nothing. -/
theorem derives_skipped_iff {bn : Nat} {d : Bytes} {W : List Work}
    {V : Validities} {L : Payloads} {outs : List Bytes}
    (hd : d = [] ∨ (d.head? = some ALTDA_DERIVATION_VERSION
      ∧ ∃ e, EigenDAPreimageSource.parse d = .error e)) :
    Derives (.item bn d :: W) V L outs ↔ Derives W V L outs := by
  constructor
  · intro h
    cases h with
    | skipped _ h => exact h
    | passed hd' _ =>
        rcases hd with hd | hd
        · exact absurd hd hd'.1
        · exact absurd hd.1 hd'.2
    | fetched hd' hc _ =>
        rcases hd with rfl | ⟨-, e, he⟩
        · cases hd'
        · rw [hc] at he
          cases he
  · exact .skipped hd

/-- An item that is passed on gives its bytes. -/
theorem derives_passed_iff {bn : Nat} {d : Bytes} {W : List Work}
    {V : Validities} {L : Payloads} {outs : List Bytes}
    (hd : d ≠ [] ∧ d.head? ≠ some ALTDA_DERIVATION_VERSION) :
    Derives (.item bn d :: W) V L outs
      ↔ ∃ outs', outs = d :: outs' ∧ Derives W V L outs' := by
  constructor
  · intro h
    cases h with
    | skipped hd' _ =>
        rcases hd' with hd' | hd'
        · exact absurd hd' hd.1
        · exact absurd hd'.1 hd.2
    | passed _ h => exact ⟨_, rfl, h⟩
    | fetched hd' _ _ => exact absurd hd' hd.2
  · intro h
    obtain ⟨outs', rfl, h⟩ := h
    exact .passed hd h

/-- An item that is a commitment leaves it to be worked off. -/
theorem derives_fetched_iff {bn : Nat} {d : Bytes} {c : AltDACommitment}
    {W : List Work} {V : Validities} {L : Payloads} {outs : List Bytes}
    (hd : d.head? = some ALTDA_DERIVATION_VERSION)
    (hc : EigenDAPreimageSource.parse d = .ok c) :
    Derives (.item bn d :: W) V L outs
      ↔ Derives (.kept bn c :: W) V L outs := by
  constructor
  · intro h
    cases h with
    | skipped hd' _ =>
        rcases hd' with rfl | ⟨-, e, he⟩
        · cases hd
        · rw [hc] at he
          cases he
    | passed hd' _ => exact absurd hd hd'.2
    | fetched _ hc' h =>
        rw [hc] at hc'
        cases hc'
        exact h
  · exact .fetched hd hc

/-- Whatever finishes the work `W'` finishes `W`, with these entries
and bytes in front. -/
def Prepends (W W' : List Work) (dV : Validities) (dL : Payloads)
    (out : List Bytes) : Prop :=
  ∀ V L outs, Derives W' V L outs →
    Derives W (dV ++ V) (dL ++ L) (out ++ outs)

theorem Prepends.refl (W : List Work) : Prepends W W [] [] [] :=
  fun _ _ _ h => h

theorem Prepends.trans {W W' W'' : List Work} {dV dV' : Validities}
    {dL dL' : Payloads} {out out' : List Bytes}
    (h : Prepends W W' dV dL out) (h' : Prepends W' W'' dV' dL' out') :
    Prepends W W'' (dV ++ dV') (dL ++ dL') (out ++ out') := by
  intro V L outs hd
  simpa only [List.append_assoc] using h _ _ _ (h' V L outs hd)

section Work

variable {σ π : Type} (E : EthereumDataSource σ) (batcherAddr : Address)

/-- The work of a state in the first of the blocks: the kept
commitment, the items left, the items of the blocks to come. -/
def work (blocks : List BlockInfo) (s : EigenDADataSource σ π) :
    List Work :=
  match blocks with
  | [] => []
  | block :: rest =>
      (s.altdaCommitment.map (.kept block.number)).toList
        ++ (E.remaining block batcherAddr s.ethereumSource).map
          (.item block.number)
        ++ rest.flatMap fun block' =>
          (E.items block' batcherAddr).map (.item block'.number)

/-- The work of a cleared state: the items of all blocks. -/
theorem work_clear (blocks : List BlockInfo) (eth : σ) (p : π) :
    work E batcherAddr blocks ⟨E.clear eth, p, none⟩
      = blocks.flatMap fun block =>
        (E.items block batcherAddr).map (.item block.number) := by
  cases blocks with
  | nil => rfl
  | cons block rest => simp [work, E.remaining_clear]

/-- What a round leaves of the blocks: an end that is reported ends the
first of them. -/
def blocksLeft (o : EigenDADataSource.Outcome) (blocks : List BlockInfo) :
    List BlockInfo :=
  match o with
  | .done r => if isEof r then blocks.tail else blocks
  | .again => blocks

/-- The bytes a round returns. -/
def roundBytes (o : EigenDADataSource.Outcome) : List Bytes :=
  match o with
  | .done r => okBytes r
  | .again => []

-- ========================================================= the items

/-- At the end of a block the work is that of the blocks after it. -/
theorem work_exhausted {block : BlockInfo} {eth₀ : σ}
    (hrem : E.remaining block batcherAddr eth₀ = []) (rest : List BlockInfo)
    (eth : σ) (p : π) :
    work E batcherAddr (block :: rest) ⟨eth₀, p, none⟩
      = work E batcherAddr rest ⟨E.clear eth, p, none⟩ := by
  rw [work_clear]
  simp [work, hrem]

/-- Reading an item takes it off the work. -/
theorem work_item {block : BlockInfo} {eth eth' : σ} {d : Bytes}
    (hrem : E.remaining block batcherAddr eth
      = d :: E.remaining block batcherAddr eth')
    (rest : List BlockInfo) (p : π) :
    work E batcherAddr (block :: rest) ⟨eth, p, none⟩
      = .item block.number d
        :: work E batcherAddr (block :: rest) ⟨eth', p, none⟩ := by
  simp [work, hrem]

/-- A kept commitment is in front of the rest of the work. -/
theorem work_kept (block : BlockInfo) (rest : List BlockInfo) (eth : σ) (p : π)
    (c : AltDACommitment) :
    work E batcherAddr (block :: rest) ⟨eth, p, some c⟩
      = .kept block.number c
        :: work E batcherAddr (block :: rest) ⟨eth, p, none⟩ := by
  simp [work]

/-- The provider has no part in the work. -/
theorem work_provider {π' : Type} (blocks : List BlockInfo) (eth : σ) (p : π)
    (p' : π') (kept : Option AltDACommitment) :
    work E batcherAddr blocks ⟨eth, p, kept⟩
      = work E batcherAddr blocks ⟨eth, p', kept⟩ := by
  cases blocks <;> rfl

variable {E batcherAddr}

/-- The work before and after a fetch that returns, related both ways:
what finishes the one finishes the other. -/
theorem fetched_work {block : BlockInfo} {rest : List BlockInfo}
    {s s' : EigenDADataSource σ π} {r : Except PipelineErrorKind Bytes}
    (hs : s.altdaCommitment = none)
    (h : Fetched E block batcherAddr s (some r) s') {V : Validities}
    {L : Payloads} {l : List Bytes} :
    Derives (work E batcherAddr (block :: rest) s) V L l
      ↔ ∃ l', l = okBytes r ++ l' ∧ Derives
        (work E batcherAddr (blocksLeft (.done r) (block :: rest)) s') V L l' := by
  obtain ⟨eth₀, p, kept⟩ := s
  simp only at hs
  subst hs
  cases h with
  | exhausted eth hrem =>
      simp [work_exhausted E batcherAddr hrem rest eth, okBytes, blocksLeft,
        isEof]
  | failed e eth he hnext hrem =>
      have hwork : work E batcherAddr (block :: rest) ⟨eth₀, p, none⟩
          = work E batcherAddr (block :: rest) ⟨eth, p, none⟩ := by
        simp only at hrem
        simp [work, hrem]
      simp [hwork, okBytes, blocksLeft, isEof, he]
  | skipped d eth hrem hd =>
      rw [work_item E batcherAddr hrem, derives_skipped_iff hd]
      simp [okBytes, blocksLeft, isEof]
  | passed d eth hrem hd =>
      rw [work_item E batcherAddr hrem, derives_passed_iff hd]
      rfl

/-- The same of a fetch that keeps a commitment. -/
theorem fetched_kept_work {block : BlockInfo} {rest : List BlockInfo}
    {s s' : EigenDADataSource σ π} (hs : s.altdaCommitment = none)
    (h : Fetched E block batcherAddr s none s') {V : Validities}
    {L : Payloads} {l : List Bytes} :
    Derives (work E batcherAddr (block :: rest) s) V L l
      ↔ Derives (work E batcherAddr (block :: rest) s') V L l := by
  obtain ⟨eth₀, p, kept⟩ := s
  simp only at hs
  subst hs
  cases h with
  | kept d c eth hrem hd hc =>
      rw [work_item E batcherAddr hrem, work_kept]
      exact derives_fetched_iff hd hc

end Work

-- ======================================================== recording

/-- The entry an event leaves among the validities. -/
def validityEntry : ProviderEvent → Option (AltDACommitment × Bool)
  | .validity c (.ok v) => some (c, v)
  | _ => none

/-- The entry it leaves among the payloads. -/
def payloadEntry : ProviderEvent → Option (AltDACommitment × EncodedPayload)
  | .encodedPayload c (.ok ep) => some (c, ep)
  | _ => none

/-- What a recorder has recorded after these events. -/
def recordOf (events : List ProviderEvent) : EigenDAPreimage :=
  ⟨events.filterMap validityEntry, events.filterMap payloadEntry⟩

/-- An answer the first run may get: anything but a failure to get a
payload, or a validity error that drops the commitment. -/
def Recordable : ProviderEvent → Prop
  | .validity _ (.error (.discard _)) => False
  | .encodedPayload _ (.error _) => False
  | _ => True

/-- One attempt at a commitment: what the preimage source answers, and
the entries that leaves in the record. -/
inductive Attempt (c : AltDACommitment) (bn : Nat) :
    Except HokuleaErrorKind EncodedPayload → Validities → Payloads → Prop
  | unanswered (k : HokuleaErrorKind) (hk : ∀ e, k ≠ .discard e) :
      Attempt c bn (.error k) [] []
  | invalid :
      Attempt c bn (.error HokuleaPreimageError.invalidCert.toErrorKind)
        [(c, false)] []
  | rejected (e : HokuleaStatelessError) (he : checkRecency c bn = .error e) :
      Attempt c bn (.error e.toErrorKind) [(c, true)] []
  | answered (ep : EncodedPayload) (hr : checkRecency c bn = .ok ()) :
      Attempt c bn (.ok ep) [(c, true)] [(c, ep)]

section Recording

variable {σ π ε : Type}

/-- What a part of the run adds to the record and to the log. -/
structure Records
    (s s' : OracleEigenDAPreimageProviderWithPreimage (π × List ProviderEvent))
    (dV : Validities) (dL : Payloads) (dlog : List ProviderEvent) : Prop where
  validities : s'.preimage.validities = s.preimage.validities ++ dV
  encodedPayloads :
    s'.preimage.encodedPayloads = s.preimage.encodedPayloads ++ dL
  log : s'.provider.2 = s.provider.2 ++ dlog

theorem Records.trans
    {s s' s'' :
      OracleEigenDAPreimageProviderWithPreimage (π × List ProviderEvent)}
    {dV dV' : Validities} {dL dL' : Payloads} {dlog dlog' : List ProviderEvent}
    (h : Records s s' dV dL dlog) (h' : Records s' s'' dV' dL' dlog') :
    Records s s'' (dV ++ dV') (dL ++ dL') (dlog ++ dlog') := by
  constructor
  · rw [h'.validities, h.validities, List.append_assoc]
  · rw [h'.encodedPayloads, h.encodedPayloads, List.append_assoc]
  · rw [h'.log, h.log, List.append_assoc]

variable (P : EigenDAPreimageProvider π ε)

/-- The provider of the first run: the recorder around the logging
inner provider. -/
abbrev recording := OracleEigenDAPreimageProviderWithPreimage.recorder (traced P)

/-- A validity question: an answer is recorded, an error is not. -/
theorem getValidity_records {c : AltDACommitment}
    {s s' : OracleEigenDAPreimageProviderWithPreimage (π × List ProviderEvent)}
    {r : Except ε Bool} (h : (recording P).getValidity c s = some (r, s')) :
    Records s s' (recordOf [.validity c (r.mapError P.into)]).validities []
      [.validity c (r.mapError P.into)] := by
  simp only [OracleEigenDAPreimageProviderWithPreimage.recorder,
    OracleEigenDAPreimageProviderWithPreimage.getValidity, traced,
    Option.bind_eq_bind, Option.bind_eq_some_iff] at h
  obtain ⟨⟨r₁, p⟩, ⟨⟨r₂, p₂⟩, hr₂, heq⟩, h⟩ := h
  cases heq
  cases r₂ <;> cases h <;> constructor <;>
    simp [recordOf, validityEntry, payloadEntry, Except.mapError]

/-- A payload question: an answer is recorded, an error is not. -/
theorem getEncodedPayload_records {c : AltDACommitment}
    {s s' : OracleEigenDAPreimageProviderWithPreimage (π × List ProviderEvent)}
    {r : Except ε EncodedPayload}
    (h : (recording P).getEncodedPayload c s = some (r, s')) :
    Records s s' []
      (recordOf [.encodedPayload c (r.mapError P.into)]).encodedPayloads
      [.encodedPayload c (r.mapError P.into)] := by
  simp only [OracleEigenDAPreimageProviderWithPreimage.recorder,
    OracleEigenDAPreimageProviderWithPreimage.getEncodedPayload, traced,
    Option.bind_eq_bind, Option.bind_eq_some_iff] at h
  obtain ⟨⟨r₁, p⟩, ⟨⟨r₂, p₂⟩, hr₂, heq⟩, h⟩ := h
  cases heq
  cases r₂ <;> cases h <;> constructor <;>
    simp [recordOf, validityEntry, payloadEntry, Except.mapError]

/-- An attempt records what it was answered, and where every answer is
recordable it is one of the four kinds. -/
theorem preimageNext_records {c : AltDACommitment} {bn : Nat}
    {s s' : OracleEigenDAPreimageProviderWithPreimage (π × List ProviderEvent)}
    {r : Except HokuleaErrorKind EncodedPayload}
    (h : EigenDAPreimageSource.next (recording P) c bn s = some (r, s')) :
    ∃ dV dL dlog, Records s s' dV dL dlog
      ∧ ((∀ e ∈ dlog, Recordable e) → Attempt c bn r dV dL) := by
  cases EigenDAPreimageSource.next_cases h with
  | @unanswered e _ hv =>
      refine ⟨_, _, _, getValidity_records P hv, fun hclean =>
        .unanswered _ fun text htext => ?_⟩
      have := hclean _ (List.mem_singleton_self _)
      have hinto : P.into e = .discard text := htext
      simp [Except.mapError, hinto, Recordable] at this
  | invalid hv => exact ⟨_, _, _, getValidity_records P hv, fun _ => .invalid⟩
  | rejected hv hr =>
      exact ⟨_, _, _, getValidity_records P hv, fun _ => .rejected _ hr⟩
  | @failed e _ _ hv _ hp =>
      refine ⟨_, _, _, (getValidity_records P hv).trans
        (getEncodedPayload_records P hp), fun hclean => ?_⟩
      exact absurd (hclean (.encodedPayload c (.error (P.into e)))
        (by simp [Except.mapError])) id
  | answered hv hr hp =>
      exact ⟨_, _, _, (getValidity_records P hv).trans
        (getEncodedPayload_records P hp), fun _ => .answered _ hr⟩

variable (E : EthereumDataSource σ) (batcherAddr : Address)

/-- What the derivation makes of an attempt works the commitment off,
with the entries the attempt left, or keeps it. -/
theorem attempt_prepends {block : BlockInfo} (rest : List BlockInfo)
    {π' : Type} {c : AltDACommitment} {s s' : EigenDADataSource σ π'} {p : π'}
    {r : Except HokuleaErrorKind EncodedPayload} {o : EigenDADataSource.Outcome}
    {dV : Validities} {dL : Payloads} (hc : s.altdaCommitment = some c)
    (ha : Attempt c block.number r dV dL) (hp : Processed s p r o s') :
    Prepends (work E batcherAddr (block :: rest) s)
      (work E batcherAddr (blocksLeft o (block :: rest)) s') dV dL
      (roundBytes o) := by
  obtain ⟨eth, p₀, kept⟩ := s
  simp only at hc
  subst hc
  rw [work_kept]
  have hprov := work_provider E batcherAddr (block :: rest) eth p₀ p none
  intro V L outs hd
  -- by the answer of the attempt, then by what is made of it
  cases ha with
  | unanswered k hk =>
      cases hp with
      | temporary e => rwa [← work_kept, work_provider _ _ _ _ _ p]
      | critical e => rwa [← work_kept, work_provider _ _ _ _ _ p]
      | discard e => exact absurd rfl (hk e)
  | invalid =>
      cases hp with
      | discard e => exact .invalid (hprov ▸ hd)
  | rejected e he =>
      generalize hkind : e.toErrorKind = k at hp
      cases hp with
      | temporary text => exact absurd hkind (e.toErrorKind_ne_temporary text)
      | critical text =>
          have hkept : Derives (work E batcherAddr (block :: rest)
              ⟨eth, p, some c⟩) V L outs := hd
          rw [work_provider _ _ _ _ _ p₀, work_kept] at hkept
          exact .stuck he hkind hkept
      | discard text => exact .dropped he hkind (hprov ▸ hd)
  | answered ep hr =>
      cases hp with
      | undecodable _ e hdec => exact .undecodable hr hdec (hprov ▸ hd)
      | decoded _ payload hdec => exact .decoded hr hdec (hprov ▸ hd)

/-- A round of the first run: what it records is what the work it did
consumes. -/
theorem nextBody_records {block : BlockInfo} (rest : List BlockInfo)
    {s s' : EigenDADataSource σ
      (OracleEigenDAPreimageProviderWithPreimage (π × List ProviderEvent))}
    {o : EigenDADataSource.Outcome}
    (h : nextBody E (recording P) block batcherAddr s = some (o, s')) :
    ∃ dV dL dlog, Records s.eigendaSource s'.eigendaSource dV dL dlog
      ∧ ((∀ e ∈ dlog, Recordable e) →
        Prepends (work E batcherAddr (block :: rest) s)
          (work E batcherAddr (blocksLeft o (block :: rest)) s') dV dL
          (roundBytes o)) := by
  have hprocess : ∀ {c s₁}, s₁.altdaCommitment = some c →
      process (recording P) block c s₁ = some (o, s') →
      ∃ dV dL dlog, Records s₁.eigendaSource s'.eigendaSource dV dL dlog
        ∧ ((∀ e ∈ dlog, Recordable e) →
          Prepends (work E batcherAddr (block :: rest) s₁)
            (work E batcherAddr (blocksLeft o (block :: rest)) s') dV dL
            (roundBytes o)) := by
    intro c s₁ hc hp
    obtain ⟨r, p, hn, hcase⟩ := process_cases (recording P) block hp
    obtain ⟨dV, dL, dlog, hrec, hattempt⟩ := preimageNext_records P hn
    have hprov : s'.eigendaSource = p := by cases hcase <;> rfl
    exact ⟨dV, dL, dlog, hprov ▸ hrec, fun hclean =>
      attempt_prepends E batcherAddr rest hc (hattempt hclean) hcase⟩
  cases hs : s.altdaCommitment with
  | some c =>
      rw [nextBody_kept E (recording P) block batcherAddr hs] at h
      exact hprocess hs h
  | none =>
      obtain ⟨r, s₁, hf, hb⟩ | ⟨c, s₁, hf, hc, hb⟩ :=
        nextBody_fetch E (recording P) block batcherAddr hs
      · rw [hb] at h
        cases h
        refine ⟨[], [], [], ?_, fun _ V L outs hd => ?_⟩
        · have : s'.eigendaSource = s.eigendaSource := by cases hf <;> rfl
          rw [this]
          constructor <;> simp
        · exact (fetched_work hs hf).mpr ⟨outs, rfl, hd⟩
      · rw [hb] at h
        have hprov : s₁.eigendaSource = s.eigendaSource := by cases hf; rfl
        obtain ⟨dV, dL, dlog, hrec, hprep⟩ := hprocess hc h
        refine ⟨dV, dL, dlog, hprov ▸ hrec, fun hclean V L outs hd => ?_⟩
        exact (fetched_kept_work hs hf).mpr (hprep hclean V L outs hd)

/-- A call of the first run: its rounds, one after the other. -/
theorem next_records {block : BlockInfo} (rest : List BlockInfo)
    {s s' : EigenDADataSource σ
      (OracleEigenDAPreimageProviderWithPreimage (π × List ProviderEvent))}
    {r : Except PipelineErrorKind Bytes}
    (h : next E (recording P) block batcherAddr s = some (r, s')) :
    ∃ dV dL dlog, Records s.eigendaSource s'.eigendaSource dV dL dlog
      ∧ ((∀ e ∈ dlog, Recordable e) →
        Prepends (work E batcherAddr (block :: rest) s)
          (work E batcherAddr (blocksLeft (.done r) (block :: rest)) s') dV dL
          (okBytes r)) := by
  induction rounds_of_next E (recording P) block batcherAddr h with
  | done hb => exact nextBody_records P E batcherAddr rest hb
  | again hb more ih =>
      rw [next_eq, hb] at h
      obtain ⟨dV, dL, dlog, hrec, hprep⟩ :=
        nextBody_records P E batcherAddr rest hb
      obtain ⟨dV', dL', dlog', hrec', hprep'⟩ := ih h
      refine ⟨_, _, _, hrec.trans hrec', fun hclean => ?_⟩
      exact (hprep fun e he => hclean e (List.mem_append_left _ he)).trans
        (hprep' fun e he => hclean e (List.mem_append_right _ he))

/-- The whole first run: its record is what its work consumes. -/
theorem run_records {blocks blocks' : List BlockInfo}
    {s s' : EigenDADataSource σ
      (OracleEigenDAPreimageProviderWithPreimage (π × List ProviderEvent))}
    {outs : List (Except PipelineErrorKind Bytes)}
    (h : Path (PhaseStep (fun block => next E (recording P) block batcherAddr)
      isEof) (blocks, s) outs (blocks', s')) :
    ∃ dV dL dlog, Records s.eigendaSource s'.eigendaSource dV dL dlog
      ∧ ((∀ e ∈ dlog, Recordable e) →
        Prepends (work E batcherAddr blocks s) (work E batcherAddr blocks' s')
          dV dL (outs.flatMap okBytes)) := by
  generalize hstart : (blocks, s) = start at h
  generalize hstop : (blocks', s') = stop at h
  induction h generalizing blocks s with
  | nil =>
      cases hstart
      cases hstop
      exact ⟨[], [], [], by constructor <;> simp, fun _ => .refl _⟩
  | @cons _ mid _ r outs hstep _ ih =>
      subst hstart
      obtain ⟨block, rest, hblocks, hcall, hleft⟩ := hstep
      obtain ⟨left, s₁⟩ := mid
      simp only at hblocks hcall hleft
      subst hblocks
      obtain ⟨dV, dL, dlog, hrec, hprep⟩ :=
        next_records P E batcherAddr rest hcall
      have hleft' : blocksLeft (.done r) (block :: rest) = left := hleft.symm
      rw [hleft'] at hprep
      obtain ⟨dV', dL', dlog', hrec', hprep'⟩ := ih rfl hstop
      refine ⟨_, _, _, hrec.trans hrec', fun hclean => ?_⟩
      exact (hprep fun e he => hclean e (List.mem_append_left _ he)).trans
        (hprep' fun e he => hclean e (List.mem_append_right _ he))

end Recording

-- ======================================================== replaying

section Replaying

open PreloadedEigenDAPreimageProvider

variable {σ : Type} (E : EthereumDataSource σ) (batcherAddr : Address)

/-- A preloaded provider that holds the entries, the oldest on top. -/
def holding (V : Validities) (L : Payloads) :
    PreloadedEigenDAPreimageProvider :=
  ⟨V.reverse, L.reverse⟩

/-- The oldest validity is popped when it is asked for. -/
theorem getValidity_holding (c : AltDACommitment) (v : Bool) (V : Validities)
    (L : Payloads) :
    provider.getValidity c (holding ((c, v) :: V) L)
      = some (.ok v, holding V L) := by
  simp [provider, getValidity, holding]

/-- The oldest payload is popped when it is asked for. -/
theorem getEncodedPayload_holding (c : AltDACommitment) (ep : EncodedPayload)
    (V : Validities) (L : Payloads) :
    provider.getEncodedPayload c (holding V ((c, ep) :: L))
      = some (.ok ep, holding V L) := by
  simp [provider, getEncodedPayload, holding]

/-- What is still to be returned: the entries held are those the work
consumes. -/
def Replays (blocks : List BlockInfo)
    (s : EigenDADataSource σ PreloadedEigenDAPreimageProvider)
    (l : List Bytes) : Prop :=
  ∃ V L, s.eigendaSource = holding V L
    ∧ Derives (work E batcherAddr blocks s) V L l

/-- An attempt at a kept commitment finds its entries on top. -/
theorem process_replays {block : BlockInfo} {rest : List BlockInfo}
    {c : AltDACommitment}
    {s : EigenDADataSource σ PreloadedEigenDAPreimageProvider}
    {l : List Bytes} (hc : s.altdaCommitment = some c)
    (hs : Replays E batcherAddr (block :: rest) s l) :
    ∃ o s', process provider block c s = some (o, s')
      ∧ ∃ l', l = roundBytes o ++ l'
        ∧ Replays E batcherAddr (blocksLeft o (block :: rest)) s' l' := by
  obtain ⟨eth, p, kept⟩ := s
  simp only at hc
  subst hc
  obtain ⟨V, L, hp, hd⟩ := hs
  simp only at hp
  subst hp
  rw [work_kept] at hd
  cases hd with
  | @invalid _ _ _ V _ _ h =>
      refine ⟨.again, ⟨eth, holding V L, none⟩, ?_, l, rfl, V, L, rfl, h⟩
      simp [process, EigenDAPreimageSource.next, getValidity_holding,
        HokuleaPreimageError.toErrorKind]
  | @dropped _ _ e text _ V _ _ he htext h =>
      refine ⟨.again, ⟨eth, holding V L, none⟩, ?_, l, rfl, V, L, rfl, h⟩
      simp [process, EigenDAPreimageSource.next, getValidity_holding, he, htext]
  | @stuck _ _ e text _ V _ _ he htext h =>
      refine ⟨.done (.error (.critical (.provider text))),
        ⟨eth, holding V L, some c⟩, ?_, l, rfl, V, L, rfl, ?_⟩
      · simp [process, EigenDAPreimageSource.next, getValidity_holding, he,
          htext]
      · show Derives (work E batcherAddr (block :: rest) _) V L l
        rw [work_kept]
        exact h
  | @undecodable _ _ ep e _ V L _ hr hdec h =>
      refine ⟨.again, ⟨eth, holding V L, none⟩, ?_, l, rfl, V, L, rfl, h⟩
      simp [process, EigenDAPreimageSource.next, getValidity_holding, hr,
        getEncodedPayload_holding, hdec]
  | @decoded _ _ ep payload _ V L outs hr hdec h =>
      refine ⟨.done (.ok payload), ⟨eth, holding V L, none⟩, ?_, outs, rfl, V, L,
        rfl, h⟩
      simp [process, EigenDAPreimageSource.next, getValidity_holding, hr,
        getEncodedPayload_holding, hdec]

/-- A round of the second run returns, and is driven by the work. -/
theorem nextBody_replays {block : BlockInfo} {rest : List BlockInfo}
    {s : EigenDADataSource σ PreloadedEigenDAPreimageProvider}
    {l : List Bytes} (hs : Replays E batcherAddr (block :: rest) s l) :
    ∃ o s', nextBody E provider block batcherAddr s = some (o, s')
      ∧ ∃ l', l = roundBytes o ++ l'
        ∧ Replays E batcherAddr (blocksLeft o (block :: rest)) s' l' := by
  cases hkept : s.altdaCommitment with
  | some c =>
      rw [nextBody_kept E provider block batcherAddr hkept]
      exact process_replays E batcherAddr hkept hs
  | none =>
      obtain ⟨V, L, hp, hd⟩ := hs
      obtain ⟨r, s₁, hf, hb⟩ | ⟨c, s₁, hf, hc, hb⟩ :=
        nextBody_fetch E provider block batcherAddr hkept
      · obtain ⟨l', hl, hd'⟩ := (fetched_work hkept hf).mp hd
        have hprov : s₁.eigendaSource = s.eigendaSource := by cases hf <;> rfl
        exact ⟨.done r, s₁, hb, l', hl, V, L, hprov.trans hp, hd'⟩
      · have hprov : s₁.eigendaSource = s.eigendaSource := by cases hf; rfl
        rw [hb]
        exact process_replays E batcherAddr hc
          ⟨V, L, hprov.trans hp, (fetched_kept_work hkept hf).mp hd⟩

/-- A call of the second run. -/
theorem next_replays {block : BlockInfo} {rest : List BlockInfo}
    {s : EigenDADataSource σ PreloadedEigenDAPreimageProvider}
    {l : List Bytes} (hs : Replays E batcherAddr (block :: rest) s l) :
    ∃ r s' l', next E provider block batcherAddr s = some (r, s')
      ∧ l = okBytes r ++ l'
      ∧ Replays E batcherAddr (if isEof r then rest else block :: rest) s' l' := by
  have hbody : ∀ s, Replays E batcherAddr (block :: rest) s l →
      ∃ o s', nextBody E provider block batcherAddr s = some (o, s')
        ∧ match o with
          | .done r => ∃ l', l = okBytes r ++ l' ∧ Replays E batcherAddr
              (if isEof r then rest else block :: rest) s' l'
          | .again => Replays E batcherAddr (block :: rest) s' l := by
    intro s hs
    obtain ⟨o, s', hb, l', hl, hr⟩ := nextBody_replays E batcherAddr hs
    cases o with
    | done r => exact ⟨_, s', hb, l', hl, hr⟩
    | again =>
        have hl' : l = l' := hl
        exact ⟨_, s', hb, hl' ▸ hr⟩
  obtain ⟨r, s', hn, l', hl, hr⟩ := next_post E provider block batcherAddr
    hbody hs
  exact ⟨r, s', l', hn, hl, hr⟩

-- ------------------------------------------------- reaching the end

/-- The work left and the validities left to pop. -/
def replayMeasure (blocks : List BlockInfo)
    (s : EigenDADataSource σ PreloadedEigenDAPreimageProvider) : Nat :=
  (work E batcherAddr blocks s).length + s.eigendaSource.validityEntries.length

/-- Every attempt pops a validity. -/
theorem preimageNext_pops {c : AltDACommitment} {bn : Nat}
    {s s' : PreloadedEigenDAPreimageProvider}
    {r : Except HokuleaErrorKind EncodedPayload}
    (h : EigenDAPreimageSource.next provider c bn s = some (r, s')) :
    s'.validityEntries.length < s.validityEntries.length := by
  have hpop : ∀ {s₁ : PreloadedEigenDAPreimageProvider} {rv},
      getValidity c s = some (rv, s₁) →
      s₁.validityEntries.length < s.validityEntries.length := by
    intro s₁ rv hv
    obtain ⟨v, -, hpop, -⟩ := getValidity_inv hv
    rw [hpop]
    simp
  have hkeep : ∀ {s₁ : PreloadedEigenDAPreimageProvider} {rp},
      getEncodedPayload c s₁ = some (rp, s') →
      s'.validityEntries = s₁.validityEntries := by
    intro s₁ rp hp
    obtain ⟨ep, -, -, hkeep⟩ := getEncodedPayload_inv hp
    exact hkeep
  cases EigenDAPreimageSource.next_cases h with
  | unanswered hv => exact hpop hv
  | invalid hv => exact hpop hv
  | rejected hv hr => exact hpop hv
  | failed hv hr hp =>
      rw [hkeep hp]
      exact hpop hv
  | answered hv hr hp =>
      rw [hkeep hp]
      exact hpop hv

/-- Processing a kept commitment pops a validity and adds no work. -/
theorem process_shrinks {block : BlockInfo} (rest : List BlockInfo)
    {c : AltDACommitment}
    {s s' : EigenDADataSource σ PreloadedEigenDAPreimageProvider}
    {o : EigenDADataSource.Outcome}
    (hc : s.altdaCommitment = some c)
    (h : process provider block c s = some (o, s')) :
    replayMeasure E batcherAddr (blocksLeft o (block :: rest)) s'
      < replayMeasure E batcherAddr (block :: rest) s := by
  obtain ⟨r, p, hn, hcase⟩ := process_cases provider block h
  have hpop := preimageNext_pops hn
  have hleft : blocksLeft o (block :: rest) = block :: rest := by
    cases hcase <;> rfl
  obtain ⟨eth, p₀, kept⟩ := s
  simp only at hc hpop
  subst hc
  have hprov := congrArg List.length
    (work_provider E batcherAddr (block :: rest) eth p p₀ none)
  rw [hleft]
  unfold replayMeasure
  rw [work_kept, List.length_cons]
  cases hcase with
  | temporary e => rw [work_kept, List.length_cons]; dsimp only; omega
  | critical e => rw [work_kept, List.length_cons]; dsimp only; omega
  | discard e => dsimp only; omega
  | undecodable ep e hdec => dsimp only; omega
  | decoded ep payload hdec => dsimp only; omega

/-- An Ethereum source that never fails but at the end of a block. -/
def Unfailing : Prop :=
  ∀ b a s e s', E.next b a s = (.error e, s') → e = eof

/-- What a round takes off the measure: nothing if it reports the end of
a block, else at least one. -/
def roundCost : EigenDADataSource.Outcome → Nat
  | .done r => if isEof r then 0 else 1
  | .again => 1

theorem roundCost_le_one (o : EigenDADataSource.Outcome) : roundCost o ≤ 1 := by
  unfold roundCost
  split
  · split <;> omega
  · omega

/-- A fetch over an unfailing source reads an item or reports the end of
the block. -/
theorem fetched_shrinks (hE : Unfailing E) {block : BlockInfo}
    (rest : List BlockInfo)
    {s s' : EigenDADataSource σ PreloadedEigenDAPreimageProvider}
    {r : Except PipelineErrorKind Bytes} (hs : s.altdaCommitment = none)
    (h : Fetched E block batcherAddr s (some r) s') :
    replayMeasure E batcherAddr (blocksLeft (.done r) (block :: rest)) s'
        + roundCost (.done r)
      ≤ replayMeasure E batcherAddr (block :: rest) s := by
  obtain ⟨eth₀, p, kept⟩ := s
  simp only at hs
  subst hs
  cases h with
  | exhausted eth hrem =>
      show replayMeasure E batcherAddr rest _ + 0 ≤ _
      unfold replayMeasure
      rw [work_exhausted E batcherAddr hrem rest eth]
      exact le_refl _
  | failed e eth he hnext hrem => exact absurd (hE _ _ _ _ _ hnext) he
  | skipped d eth hrem hd =>
      show replayMeasure E batcherAddr (block :: rest) _ + 1 ≤ _
      unfold replayMeasure
      rw [work_item E batcherAddr hrem, List.length_cons]
      dsimp only
      omega
  | passed d eth hrem hd =>
      show replayMeasure E batcherAddr (block :: rest) _ + 1 ≤ _
      unfold replayMeasure
      rw [work_item E batcherAddr hrem, List.length_cons]
      dsimp only
      omega

/-- A fetch that keeps a commitment leaves the measure as it is. -/
theorem fetched_kept_measure {block : BlockInfo} (rest : List BlockInfo)
    {s s' : EigenDADataSource σ PreloadedEigenDAPreimageProvider}
    (hs : s.altdaCommitment = none)
    (h : Fetched E block batcherAddr s none s') :
    replayMeasure E batcherAddr (block :: rest) s'
      = replayMeasure E batcherAddr (block :: rest) s := by
  obtain ⟨eth₀, p, kept⟩ := s
  simp only at hs
  subst hs
  cases h with
  | kept d c eth hrem hd hparse =>
      unfold replayMeasure
      rw [work_item E batcherAddr hrem, work_kept]
      rfl

/-- A round over an unfailing source reads an item or makes an attempt,
or reports the end of the block. -/
theorem nextBody_shrinks (hE : Unfailing E) {block : BlockInfo}
    (rest : List BlockInfo)
    {s s' : EigenDADataSource σ PreloadedEigenDAPreimageProvider}
    {o : EigenDADataSource.Outcome}
    (h : nextBody E provider block batcherAddr s = some (o, s')) :
    replayMeasure E batcherAddr (blocksLeft o (block :: rest)) s' + roundCost o
      ≤ replayMeasure E batcherAddr (block :: rest) s := by
  have hcost := roundCost_le_one o
  cases hs : s.altdaCommitment with
  | some c =>
      rw [nextBody_kept E provider block batcherAddr hs] at h
      have hlt := process_shrinks E batcherAddr rest hs h
      omega
  | none =>
      obtain ⟨r, s₁, hf, hb⟩ | ⟨c, s₁, hf, hc, hb⟩ :=
        nextBody_fetch E provider block batcherAddr hs
      · rw [hb] at h
        cases h
        exact fetched_shrinks E batcherAddr hE rest hs hf
      · rw [hb] at h
        have hlt := process_shrinks E batcherAddr rest hc h
        rw [fetched_kept_measure E batcherAddr rest hs hf] at hlt
        omega

/-- A call over an unfailing source. -/
theorem next_shrinks (hE : Unfailing E) {block : BlockInfo}
    (rest : List BlockInfo)
    {s s' : EigenDADataSource σ PreloadedEigenDAPreimageProvider}
    {r : Except PipelineErrorKind Bytes}
    (h : next E provider block batcherAddr s = some (r, s')) :
    replayMeasure E batcherAddr (blocksLeft (.done r) (block :: rest)) s'
        + roundCost (.done r)
      ≤ replayMeasure E batcherAddr (block :: rest) s := by
  induction rounds_of_next E provider block batcherAddr h with
  | done hb => exact nextBody_shrinks E batcherAddr hE rest hb
  | again hb more ih =>
      rw [next_eq, hb] at h
      have hround := nextBody_shrinks E batcherAddr hE rest hb
      exact (ih h).trans ((Nat.le_add_right _ _).trans hround)

end Replaying

-- =========================================================== both runs

section Runs

open PreloadedEigenDAPreimageProvider

variable {σ σ' π ε : Type}

/-- A derivation of blocks, each with a budget of calls: a block is
called for until its end is reported, then the next one. -/
def deriveBlocks (E : EthereumDataSource σ) (P : EigenDAPreimageProvider π ε)
    (batcherAddr : Address) (blocks : List (BlockInfo × Nat))
    (s : EigenDADataSource σ π) :
    Option (List (Except PipelineErrorKind Bytes) × EigenDADataSource σ π) :=
  drivePhases (fun block => next E P block batcherAddr) isEof blocks s

/-- A first run that went to the end of its blocks consumed, working off
their items, exactly what it has recorded. -/
theorem run_derives {E : EthereumDataSource σ} {P : EigenDAPreimageProvider π ε}
    {batcherAddr : Address} {blocks : List (BlockInfo × Nat)} {eth : σ} {p : π}
    {outs : List (Except PipelineErrorKind Bytes)}
    {s : EigenDADataSource σ
      (OracleEigenDAPreimageProviderWithPreimage (π × List ProviderEvent))}
    (hrun : deriveBlocks E (recording P) batcherAddr blocks
      ⟨E.clear eth, ⟨(p, []), {}⟩, none⟩ = some (outs, s))
    (hend : outs.countP isEof = blocks.length)
    (hanswers : ∀ e ∈ s.eigendaSource.provider.2, Recordable e) :
    Derives ((blocks.map Prod.fst).flatMap fun block =>
        (E.items block batcherAddr).map (.item block.number))
      s.eigendaSource.preimage.validities
      s.eigendaSource.preimage.encodedPayloads (outs.flatMap okBytes) := by
  obtain ⟨left, hpath, hcount⟩ := drivePhases_path hrun
  have hleft : left = [] := List.length_eq_zero_iff.mp (by omega)
  subst hleft
  obtain ⟨dV, dL, dlog, hrec, hprep⟩ := run_records P E batcherAddr hpath
  have hlog : s.eigendaSource.provider.2 = dlog := by simpa using hrec.log
  have hd := hprep (fun e he => hanswers e (hlog ▸ he)) [] [] [] .finished
  rw [work_clear] at hd
  rw [hrec.validities, hrec.encodedPayloads]
  simpa using hd

/-- The provider made from the witness of a record holds the record. -/
theorem fromWitness_fromPreimage {preimage : EigenDAPreimage}
    {kzgProofs : List B512} {canoeProof : Option Bytes} {w : EigenDAWitness}
    {head : L1Head} {V : CanoeVerifier} {A : CanoeVerifierAddressFetcher}
    {batchVerify : BatchVerify} {pre : PreloadedEigenDAPreimageProvider}
    (hw : EigenDAWitness.fromPreimage preimage kzgProofs canoeProof = .ok w)
    (hpre : fromWitness w head V A batchVerify = some pre) :
    pre = holding preimage.validities preimage.encodedPayloads := by
  obtain ⟨hval, hpay⟩ := EigenDAWitness.fromPreimage_inv hw
  have hacc := fromWitness_inv hpre
  have hvalidities := hacc.validityEntries
  have hpayloads := hacc.encodedPayloadEntries
  obtain ⟨v, l⟩ := pre
  simp only at hvalidities hpayloads
  rw [hvalidities, hpayloads, hval, hpay]
  rfl

/-- The second run, whatever its budgets: it returns, and what it has
returned is in front of what is still to be returned. -/
theorem deriveBlocks_replays {E : EthereumDataSource σ} {batcherAddr : Address}
    {blocks : List (BlockInfo × Nat)}
    {s : EigenDADataSource σ PreloadedEigenDAPreimageProvider} {l : List Bytes}
    (hs : Replays E batcherAddr (blocks.map Prod.fst) s l) :
    ∃ outs s', deriveBlocks E provider batcherAddr blocks s = some (outs, s')
      ∧ outs.flatMap okBytes <+: l
      ∧ (outs.countP isEof = blocks.length → outs.flatMap okBytes = l) := by
  have hnone : ∀ s l, Replays E batcherAddr [] s l → l = [] := by
    intro s l hs
    obtain ⟨V, L, -, hd⟩ := hs
    cases hd
    rfl
  obtain ⟨outs, s', hrun, hprefix, -, hall⟩ := drivePhases_pending
    (fun block rest s l hs => next_replays E batcherAddr hs) hnone blocks hs
  exact ⟨outs, s', hrun, hprefix, hall⟩

/-- Over an unfailing source a budget above the measure is enough for
every block. -/
theorem deriveBlocks_stops {E : EthereumDataSource σ} (hE : Unfailing E)
    {batcherAddr : Address} {blocks : List BlockInfo} {n : Nat}
    {s s' : EigenDADataSource σ PreloadedEigenDAPreimageProvider}
    {outs : List (Except PipelineErrorKind Bytes)}
    (hn : replayMeasure E batcherAddr blocks s < n)
    (hrun : deriveBlocks E provider batcherAddr (blocks.map (·, n)) s
      = some (outs, s')) :
    outs.countP isEof = blocks.length := by
  refine drivePhases_stops (replayMeasure E batcherAddr)
    (fun block rest s r s' h => ?_) hn hrun
  have hcall := next_shrinks E batcherAddr hE rest h
  by_cases heof : isEof r = true
  · simp only [blocksLeft, roundCost, heof, if_true] at hcall
    rw [if_pos heof]
    exact hcall
  · simp only [blocksLeft, roundCost, heof, Bool.false_eq_true, if_false]
      at hcall
    rw [if_neg heof]
    exact Nat.lt_of_succ_le hcall

/-- Record and replay. The first run derives `blocks` over the recorder
around any inner provider, from a cleared source to the end of the last
block, and every answer of the inner provider was recordable. The
record becomes a witness, the witness a provider. Then a second run
over a source with the same blocks never panics, whatever its budgets
and its failures, and has returned a prefix of the first run's bytes,
all of them once it reached the end; over an unfailing source there is
a budget on which it does. -/
theorem replay_of_record (E : EthereumDataSource σ) (E' : EthereumDataSource σ')
    (P : EigenDAPreimageProvider π ε) (batcherAddr : Address)
    (blocks : List (BlockInfo × Nat)) (eth : σ) (eth' : σ') (p : π)
    (outs : List (Except PipelineErrorKind Bytes))
    (s : EigenDADataSource σ
      (OracleEigenDAPreimageProviderWithPreimage (π × List ProviderEvent)))
    (hrun : deriveBlocks E (recording P) batcherAddr blocks
      ⟨E.clear eth, ⟨(p, []), {}⟩, none⟩ = some (outs, s))
    (hend : outs.countP isEof = blocks.length)
    (hanswers : ∀ e ∈ s.eigendaSource.provider.2, Recordable e)
    (kzgProofs : List B512) (canoeProof : Option Bytes) (w : EigenDAWitness)
    (hw : EigenDAWitness.fromPreimage s.eigendaSource.preimage kzgProofs
      canoeProof = .ok w)
    (head : L1Head) (V : CanoeVerifier) (A : CanoeVerifierAddressFetcher)
    (batchVerify : BatchVerify) (pre : PreloadedEigenDAPreimageProvider)
    (hpre : fromWitness w head V A batchVerify = some pre)
    (hitems : ∀ b ∈ blocks, E'.items b.1 batcherAddr = E.items b.1 batcherAddr) :
    (∀ blocks', blocks'.map Prod.fst = blocks.map Prod.fst →
      ∃ outs' s', deriveBlocks E' provider batcherAddr blocks'
          ⟨E'.clear eth', pre, none⟩ = some (outs', s')
        ∧ outs'.flatMap okBytes <+: outs.flatMap okBytes
        ∧ (outs'.countP isEof = blocks'.length →
          outs'.flatMap okBytes = outs.flatMap okBytes))
    ∧ (Unfailing E' → ∃ n outs' s', deriveBlocks E' provider batcherAddr
        (blocks.map fun b => (b.1, n)) ⟨E'.clear eth', pre, none⟩
          = some (outs', s')
      ∧ outs'.countP isEof = blocks.length
      ∧ outs'.flatMap okBytes = outs.flatMap okBytes) := by
  have hderives := run_derives hrun hend hanswers
  have hhold := fromWitness_fromPreimage hw hpre
  -- both sources start with the same work
  have hwork : (blocks.map Prod.fst).flatMap (fun block =>
        (E'.items block batcherAddr).map (Work.item block.number))
      = (blocks.map Prod.fst).flatMap fun block =>
        (E.items block batcherAddr).map (Work.item block.number) := by
    refine List.flatMap_congr fun block hblock => ?_
    obtain ⟨b, hb, rfl⟩ := List.mem_map.mp hblock
    rw [hitems b hb]
  have hstart : Replays E' batcherAddr (blocks.map Prod.fst)
      ⟨E'.clear eth', pre, none⟩ (outs.flatMap okBytes) := by
    refine ⟨_, _, hhold, ?_⟩
    rw [work_clear, hwork]
    exact hderives
  refine ⟨fun blocks' hblocks' => ?_, fun hE' => ?_⟩
  · exact deriveBlocks_replays (hblocks' ▸ hstart)
  · let n := replayMeasure E' batcherAddr (blocks.map Prod.fst)
      ⟨E'.clear eth', pre, none⟩ + 1
    have hblocks : (blocks.map fun b => (b.1, n))
        = (blocks.map Prod.fst).map (·, n) := by
      rw [List.map_map]
      rfl
    have hfst : (blocks.map fun b => (b.1, n)).map Prod.fst
        = blocks.map Prod.fst := by
      rw [List.map_map]
      rfl
    obtain ⟨outs', s', hrun', -, hall⟩ :=
      deriveBlocks_replays (hfst.symm ▸ hstart)
    have hcount : outs'.countP isEof = (blocks.map Prod.fst).length :=
      deriveBlocks_stops hE' (Nat.lt_succ_self _) (hblocks ▸ hrun')
    rw [List.length_map] at hcount
    exact ⟨n, outs', s', hrun', hcount, hall (by simpa using hcount)⟩

-- ---------------------------------------------------- concrete runs

/-- Two commitments, alike but for the blob index. -/
def firstCommitment : AltDACommitment := zeroCommitment 0 2

def secondCommitment : AltDACommitment := zeroCommitment 1 2

/-- A payload of one byte, in two field elements. -/
def onePayload : EncodedPayload := ⟨EncodedPayload.encodeV0 1 [7]⟩

theorem onePayload_decode : onePayload.decode = some (.ok [7]) :=
  EncodedPayload.decode_encodeV0 ⟨by decide, by decide⟩

/-- The block that holds their calldata. -/
def twoItems : List Bytes :=
  [calldata firstCommitment, calldata secondCommitment]

theorem parse_first :
    EigenDAPreimageSource.parse (calldata firstCommitment)
      = .ok firstCommitment :=
  parse_calldata rfl rfl (by decide +kernel)

theorem parse_second :
    EigenDAPreimageSource.parse (calldata secondCommitment)
      = .ok secondCommitment :=
  parse_calldata rfl rfl (by decide +kernel)

/-- Both are recent enough at the block. -/
theorem recent_first : checkRecency firstCommitment 3 = .ok () := by
  decide +kernel

theorem recent_second : checkRecency secondCommitment 3 = .ok () := by
  decide +kernel

/-- Reading the block's first or second item starts its attempt. -/
theorem nextBody_twoItems (P : EigenDAPreimageProvider π ε) (p : π)
    (items : List Bytes) :
    nextBody (listSource items) P (testBlock 3) testAddress ⟨twoItems, p, none⟩
        = process P (testBlock 3) firstCommitment
          ⟨[calldata secondCommitment], p, some firstCommitment⟩
      ∧ nextBody (listSource items) P (testBlock 3) testAddress
          ⟨[calldata secondCommitment], p, none⟩
        = process P (testBlock 3) secondCommitment
          ⟨[], p, some secondCommitment⟩ :=
  ⟨nextBody_commitment _ _ _ _ rfl rfl parse_first,
    nextBody_commitment _ _ _ _ rfl rfl parse_second⟩

/-- The inner provider: everything is valid, every payload is the one
byte, and the marked calls fail. -/
abbrev flaky : EigenDAPreimageProvider (List Bool) TestHokuleaProviderError :=
  flakyProvider (fun _ => true) (fun _ => onePayload)

/-- An attempt at either commitment whose payload can be had. -/
theorem process_flaky_ok {c : AltDACommitment} (eth : List Bytes)
    (R : EigenDAPreimage) (hr : checkRecency c 3 = .ok ()) :
    process (OracleEigenDAPreimageProviderWithPreimage.recorder flaky)
        (testBlock 3) c ⟨eth, ⟨[], R⟩, some c⟩
      = some (.done (.ok [7]), ⟨eth, ⟨[], ⟨R.validities ++ [(c, true)],
        R.encodedPayloads ++ [(c, onePayload)]⟩⟩, none⟩) := by
  simp [process, EigenDAPreimageSource.next,
    OracleEigenDAPreimageProviderWithPreimage.recorder,
    OracleEigenDAPreimageProviderWithPreimage.getValidity,
    OracleEigenDAPreimageProviderWithPreimage.getEncodedPayload, flaky,
    flakyProvider, testBlock, hr, onePayload_decode]

/-- The end of the block. -/
theorem nextBody_twoItems_end (P : EigenDAPreimageProvider π ε) (p : π) :
    nextBody (listSource twoItems) P (testBlock 3) testAddress ⟨[], p, none⟩
      = some (.done (.error eof), ⟨twoItems, p, none⟩) :=
  rfl

/-- The head the second run trusts. -/
def testHead : L1Head := ⟨b256 0, 3, 0, 1⟩

/-- A proof that is not looked at. -/
def testProof : B512 := ⟨List.replicate 64 0, List.length_replicate⟩

/-- An attempt over the logging inner provider, its payload at hand. -/
theorem process_recording_ok {c : AltDACommitment} (eth : List Bytes)
    (log : List ProviderEvent) (R : EigenDAPreimage)
    (hr : checkRecency c 3 = .ok ()) :
    process (recording flaky) (testBlock 3) c ⟨eth, ⟨([], log), R⟩, some c⟩
      = some (.done (.ok [7]), ⟨eth, ⟨([], log ++ [.validity c (.ok true),
          .encodedPayload c (.ok onePayload)]), ⟨R.validities ++ [(c, true)],
        R.encodedPayloads ++ [(c, onePayload)]⟩⟩, none⟩) := by
  simp [process, EigenDAPreimageSource.next, recording, traced,
    OracleEigenDAPreimageProviderWithPreimage.recorder,
    OracleEigenDAPreimageProviderWithPreimage.getValidity,
    OracleEigenDAPreimageProviderWithPreimage.getEncodedPayload, flaky,
    flakyProvider, testBlock, hr, onePayload_decode, Except.mapError]

/-- A first run whose first validity question fails. -/
theorem recording_run :
    deriveBlocks (listSource twoItems) (recording flaky) testAddress
      [(testBlock 3, 4)] ⟨twoItems, ⟨([true], []), {}⟩, none⟩
    = some ([.error (.temporary (.provider "Preimage temporary error")),
        .ok [7], .ok [7], .error eof],
      ⟨twoItems, ⟨([], [.validity firstCommitment
            (.error (.temporary "Preimage temporary error")),
          .validity firstCommitment (.ok true),
          .encodedPayload firstCommitment (.ok onePayload),
          .validity secondCommitment (.ok true),
          .encodedPayload secondCommitment (.ok onePayload)]),
        ⟨[(firstCommitment, true), (secondCommitment, true)],
          [(firstCommitment, onePayload), (secondCommitment, onePayload)]⟩⟩,
        none⟩) := by
  have h1 : next (listSource twoItems) (recording flaky) (testBlock 3)
        testAddress ⟨twoItems, ⟨([true], []), {}⟩, none⟩
      = some (.error (.temporary (.provider "Preimage temporary error")),
        ⟨[calldata secondCommitment], ⟨([], [.validity firstCommitment
          (.error (.temporary "Preimage temporary error"))]), {}⟩,
          some firstCommitment⟩) := by
    apply next_of_done
    rw [(nextBody_twoItems (recording flaky) _ _).1]
    simp [process, EigenDAPreimageSource.next, recording, traced,
      OracleEigenDAPreimageProviderWithPreimage.recorder,
      OracleEigenDAPreimageProviderWithPreimage.getValidity, flaky,
      flakyProvider, TestHokuleaProviderError.toErrorKind, Except.mapError]
  have h2 := next_of_done (listSource twoItems) (recording flaky)
    (testBlock 3) testAddress
    ((nextBody_kept _ _ _ _ rfl).trans (process_recording_ok
      [calldata secondCommitment] [.validity firstCommitment
        (.error (.temporary "Preimage temporary error"))] {} recent_first))
  have h3 := next_of_done (listSource twoItems) (recording flaky)
    (testBlock 3) testAddress
    ((nextBody_twoItems (recording flaky) ⟨_, _⟩ twoItems).2.trans
      (process_recording_ok [] [.validity firstCommitment
          (.error (.temporary "Preimage temporary error")),
          .validity firstCommitment (.ok true),
          .encodedPayload firstCommitment (.ok onePayload)]
        ⟨[(firstCommitment, true)], [(firstCommitment, onePayload)]⟩
        recent_second))
  have h4 := next_of_done _ _ _ _
    (nextBody_twoItems_end (recording flaky) ⟨([], [.validity firstCommitment
            (.error (.temporary "Preimage temporary error")),
          .validity firstCommitment (.ok true),
          .encodedPayload firstCommitment (.ok onePayload),
          .validity secondCommitment (.ok true),
          .encodedPayload secondCommitment (.ok onePayload)]),
        ⟨[(firstCommitment, true), (secondCommitment, true)],
          [(firstCommitment, onePayload), (secondCommitment, onePayload)]⟩⟩)
  simp only [List.nil_append, List.cons_append] at h2 h3
  simp [deriveBlocks, drivePhases, drive, h1, h2, h3, h4, isEof]

/-- That run is replayed to its end, with its bytes. -/
theorem replay_of_recording_run :
    ∃ n outs s, deriveBlocks (listSource twoItems) provider testAddress
        [(testBlock 3, n)] ⟨twoItems, holding
          [(firstCommitment, true), (secondCommitment, true)]
          [(firstCommitment, onePayload), (secondCommitment, onePayload)],
          none⟩ = some (outs, s)
      ∧ outs.countP isEof = 1
      ∧ outs.flatMap okBytes = [[7], [7]] := by
  have hunfailing : Unfailing (listSource twoItems) := by
    intro b a s e s' h
    cases s <;> cases h
    rfl
  refine (replay_of_record (listSource twoItems) (listSource twoItems) flaky
    testAddress [(testBlock 3, 4)] twoItems twoItems [true] _ _ recording_run
    rfl ?_ [testProof, testProof] (some []) _ rfl testHead canoeNoOpVerifier
    (staticAddressFetcher testAddress) (fun _ _ _ => some true) _ ?_
    (fun _ _ => rfl)).2 hunfailing
  · simp [Recordable]
  · decide +kernel

/-- What the first run of `replay_panics` has recorded at its end: the
first commitment twice. -/
def doubledRecord : EigenDAPreimage where
  validities := [(firstCommitment, true), (firstCommitment, true),
    (secondCommitment, true)]
  encodedPayloads := [(firstCommitment, onePayload),
    (secondCommitment, onePayload)]

/-- The first run, whose second call to the inner provider fails. -/
theorem flaky_run :
    deriveBlocks (listSource twoItems)
      (OracleEigenDAPreimageProviderWithPreimage.recorder flaky) testAddress
      [(testBlock 3, 4)] ⟨twoItems, ⟨[false, true], {}⟩, none⟩
    = some ([.error (.temporary (.provider "Preimage temporary error")),
        .ok [7], .ok [7], .error eof],
      ⟨twoItems, ⟨[], doubledRecord⟩, none⟩) := by
  let R := OracleEigenDAPreimageProviderWithPreimage.recorder flaky
  -- the payload of the first commitment cannot be had, its validity is kept
  have h1 : next (listSource twoItems) R (testBlock 3) testAddress
        ⟨twoItems, ⟨[false, true], {}⟩, none⟩
      = some (.error (.temporary (.provider "Preimage temporary error")),
        ⟨[calldata secondCommitment],
          ⟨[], { validities := [(firstCommitment, true)] }⟩,
          some firstCommitment⟩) := by
    apply next_of_done
    rw [(nextBody_twoItems R _ _).1]
    simp [R, process, EigenDAPreimageSource.next,
      OracleEigenDAPreimageProviderWithPreimage.recorder,
      OracleEigenDAPreimageProviderWithPreimage.getValidity,
      OracleEigenDAPreimageProviderWithPreimage.getEncodedPayload, flaky,
      flakyProvider, testBlock, recent_first, TestHokuleaProviderError.toErrorKind]
  have h2 : next (listSource twoItems) R (testBlock 3) testAddress
        ⟨[calldata secondCommitment],
          ⟨[], { validities := [(firstCommitment, true)] }⟩,
          some firstCommitment⟩
      = some (.ok [7], ⟨[calldata secondCommitment], ⟨[],
          { validities := [(firstCommitment, true), (firstCommitment, true)]
            encodedPayloads := [(firstCommitment, onePayload)] }⟩, none⟩) := by
    apply next_of_done
    rw [nextBody_kept _ _ _ _ rfl]
    exact process_flaky_ok _ _ recent_first
  have h3 : next (listSource twoItems) R (testBlock 3) testAddress
        ⟨[calldata secondCommitment], ⟨[],
          { validities := [(firstCommitment, true), (firstCommitment, true)]
            encodedPayloads := [(firstCommitment, onePayload)] }⟩, none⟩
      = some (.ok [7], ⟨[], ⟨[], doubledRecord⟩, none⟩) := by
    apply next_of_done
    rw [(nextBody_twoItems R _ _).2]
    exact process_flaky_ok _ _ recent_second
  have h4 := next_of_done _ _ _ _
    (nextBody_twoItems_end R ⟨[], doubledRecord⟩)
  simp only [R] at h1 h2 h3 h4
  simp [deriveBlocks, drivePhases, drive, h1, h2, h3, h4, isEof]

/-- One temporary failure of `get_encoded_payload`: the first run goes
to the end of the block, its record makes a witness and a provider,
and the second run panics at the second commitment. -/
theorem replay_panics :
    ∃ outs s w pre,
      deriveBlocks (listSource twoItems)
          (OracleEigenDAPreimageProviderWithPreimage.recorder flaky)
          testAddress [(testBlock 3, 4)]
          ⟨twoItems, ⟨[false, true], {}⟩, none⟩ = some (outs, s)
        ∧ outs.countP isEof = 1
        ∧ EigenDAWitness.fromPreimage s.eigendaSource.preimage
          [testProof, testProof] (some []) = .ok w
        ∧ fromWitness w testHead canoeNoOpVerifier
          (staticAddressFetcher testAddress) (fun _ _ _ => some true) = some pre
        ∧ deriveBlocks (listSource twoItems) provider testAddress
          [(testBlock 3, 4)] ⟨twoItems, pre, none⟩ = none := by
  refine ⟨_, _, _, holding doubledRecord.validities
    doubledRecord.encodedPayloads, flaky_run, rfl, rfl, ?_, ?_⟩
  · decide +kernel
  · have h1 : next (listSource twoItems) provider (testBlock 3) testAddress
          ⟨twoItems, holding doubledRecord.validities
            doubledRecord.encodedPayloads, none⟩
        = some (.ok [7], ⟨[calldata secondCommitment],
          holding [(firstCommitment, true), (secondCommitment, true)]
            [(secondCommitment, onePayload)], none⟩) := by
      apply next_of_done
      rw [(nextBody_twoItems provider _ _).1]
      simp [process, EigenDAPreimageSource.next, doubledRecord,
        getValidity_holding, getEncodedPayload_holding, testBlock, recent_first,
        onePayload_decode]
    -- the second entry of the first commitment is on top
    have h2 : next (listSource twoItems) provider (testBlock 3) testAddress
          ⟨[calldata secondCommitment],
            holding [(firstCommitment, true), (secondCommitment, true)]
              [(secondCommitment, onePayload)], none⟩
        = none := by
      have hne : firstCommitment ≠ secondCommitment := by decide
      rw [next_eq, (nextBody_twoItems provider _ _).2]
      simp [process, EigenDAPreimageSource.next, provider, getValidity, holding,
        hne]
    simp [deriveBlocks, drivePhases, drive, h1, h2, isEof]

end Runs

end Hokulea
