/-
The shape of a record.

# Moments

A run is a chain of the commands a pipeline gives the data source. The
log of its provider tells every answer in order, and the record is the
log with the errors left out (`recordOf`). So what the record is at
some moment of a run, between two calls or within one, is `recordOf` of
a prefix of the log. A provider that panics ends the run; up to there
it is a provider that fails instead.

# What is proved

`record_shape`: within a call a payload is asked for only right after
its commitment was found valid, and when it is recent (`Disciplined`).
At every moment the payloads are for a subsequence of the commitments
recorded as valid. Over the oracle provider every payload has as many
elements as its commitment says, so the length assertions of
`from_witness` hold of every record.
-/
import Hokulea.Proofs.HintStore
import Hokulea.Proofs.Replay

namespace Hokulea

open Bytes Machine AltDACommitment EigenDADataSource

-- ======================================================== the events

/-- Attempt after attempt: a payload is asked for only right after its
commitment was found valid, and when it is recent. -/
inductive Disciplined (recent : AltDACommitment → Prop) :
    List ProviderEvent → Prop
  | nil : Disciplined recent []
  | validity {c : AltDACommitment} {answer : Except HokuleaErrorKind Bool}
      {events : List ProviderEvent} (h : Disciplined recent events) :
      Disciplined recent (.validity c answer :: events)
  | payload {c : AltDACommitment}
      {answer : Except HokuleaErrorKind EncodedPayload}
      {events : List ProviderEvent} (hr : recent c)
      (h : Disciplined recent events) :
      Disciplined recent
        (.validity c (.ok true) :: .encodedPayload c answer :: events)

/-- The payloads are for a subsequence of the commitments recorded as
valid. -/
def Shaped (preimage : EigenDAPreimage) : Prop :=
  (preimage.encodedPayloads.map (·.1)).Sublist
    ((preimage.validities.filter (·.2)).map (·.1))

/-- A shaped record has at least as many validities as payloads. -/
theorem Shaped.length_le {preimage : EigenDAPreimage} (h : Shaped preimage) :
    preimage.encodedPayloads.length ≤ preimage.validities.length := by
  have hle := List.Sublist.length_le h
  rw [List.length_map, List.length_map] at hle
  calc preimage.encodedPayloads.length
      ≤ (preimage.validities.filter (·.2)).length := hle
    _ ≤ preimage.validities.length := List.length_filter_le _ _

namespace Disciplined

variable {recent : AltDACommitment → Prop} {events : List ProviderEvent}

/-- One call's events after another's. -/
theorem append {more : List ProviderEvent} (h : Disciplined recent events)
    (hmore : Disciplined recent more) :
    Disciplined recent (events ++ more) := by
  induction h with
  | nil => exact hmore
  | validity _ ih => exact .validity ih
  | payload hr _ ih => exact .payload hr ih

/-- The rule may be forgotten. -/
theorem mono {recent' : AltDACommitment → Prop} (h : Disciplined recent events)
    (hrecent : ∀ c, recent c → recent' c) : Disciplined recent' events := by
  induction h with
  | nil => exact .nil
  | validity _ ih => exact .validity ih
  | payload hr _ ih => exact .payload (hrecent _ hr) ih

/-- Up to any moment the events are disciplined too. -/
theorem before {early : List ProviderEvent} (h : Disciplined recent events)
    (hearly : early <+: events) : Disciplined recent early := by
  induction h generalizing early with
  | nil =>
      rw [List.prefix_nil.mp hearly]
      exact .nil
  | validity _ ih =>
      rcases List.prefix_cons_iff.mp hearly with rfl | ⟨early', rfl, hearly'⟩
      · exact .nil
      · exact .validity (ih hearly')
  | payload hr _ ih =>
      rcases List.prefix_cons_iff.mp hearly with rfl | ⟨early', rfl, hearly'⟩
      · exact .nil
      -- the moment may be between the two answers
      rcases List.prefix_cons_iff.mp hearly' with rfl | ⟨early'', rfl, h''⟩
      · exact .validity .nil
      · exact .payload hr (ih h'')

/-- A disciplined log makes a shaped record. -/
theorem shaped (h : Disciplined recent events) : Shaped (recordOf events) := by
  unfold Shaped recordOf
  induction h with
  | nil => exact List.Sublist.slnil
  | @validity c answer events _ ih =>
      rcases answer with e | v
      · exact ih
      · cases v with
        | false => exact ih
        | true => exact ih.cons c
  | @payload c answer events _ _ ih =>
      rcases answer with e | ep
      · exact ih.cons c
      · exact ih.cons_cons c

end Disciplined

-- ========================================================== the runs

section Runs

variable {σ π ε : Type}

/-- A command, and the state after it. -/
def Commanded {π' : Type} (E : EthereumDataSource σ)
    (P : EigenDAPreimageProvider π' ε) (s : EigenDADataSource σ π')
    (x : Command) (s' : EigenDADataSource σ π') : Prop :=
  ∃ r, call E P x s = some (r, s')

/-- A call that returns, as a command. -/
theorem commanded_next {π' : Type} {E : EthereumDataSource σ}
    {P : EigenDAPreimageProvider π' ε} {block : BlockInfo}
    {batcherAddr : Address} {s s' : EigenDADataSource σ π'}
    {r : Except PipelineErrorKind Bytes}
    (h : next E P block batcherAddr s = some (r, s')) :
    Commanded E P s (.next block batcherAddr) s' :=
  ⟨some r, by rw [call, h, Option.map_some]⟩

/-- A new data source over a recorder, and nothing recorded yet. -/
def recordingFrom (eth : σ) (p : π) :
    EigenDADataSource σ
      (OracleEigenDAPreimageProviderWithPreimage (π × List ProviderEvent)) :=
  ⟨eth, ⟨(p, []), {}⟩, none⟩

/-- The log a recording data source has kept. -/
def eventLog (s : EigenDADataSource σ
      (OracleEigenDAPreimageProviderWithPreimage (π × List ProviderEvent))) :
    List ProviderEvent :=
  s.eigendaSource.provider.2

/-- What a part of a run adds: disciplined events, and their record. -/
def Adds (recent : AltDACommitment → Prop)
    (s s' : OracleEigenDAPreimageProviderWithPreimage (π × List ProviderEvent)) :
    Prop :=
  ∃ events, Records s s' (recordOf events).validities
    (recordOf events).encodedPayloads events ∧ Disciplined recent events

theorem Adds.refl (recent : AltDACommitment → Prop)
    (s : OracleEigenDAPreimageProviderWithPreimage (π × List ProviderEvent)) :
    Adds recent s s :=
  ⟨[], ⟨(List.append_nil _).symm, (List.append_nil _).symm,
    (List.append_nil _).symm⟩, .nil⟩

theorem Adds.trans {recent : AltDACommitment → Prop}
    {s s' s'' :
      OracleEigenDAPreimageProviderWithPreimage (π × List ProviderEvent)}
    (h : Adds recent s s') (h' : Adds recent s' s'') : Adds recent s s'' := by
  obtain ⟨events, hrec, hdisc⟩ := h
  obtain ⟨events', hrec', hdisc'⟩ := h'
  refine ⟨events ++ events', ?_, hdisc.append hdisc'⟩
  have hboth := hrec.trans hrec'
  unfold recordOf at hboth ⊢
  rw [List.filterMap_append, List.filterMap_append]
  exact hboth

variable (P : EigenDAPreimageProvider π ε)

/-- An attempt adds its one or two answers. -/
theorem preimageNext_adds {c : AltDACommitment} {bn : Nat}
    {s s' : OracleEigenDAPreimageProviderWithPreimage (π × List ProviderEvent)}
    {r : Except HokuleaErrorKind EncodedPayload}
    (h : EigenDAPreimageSource.next (recording P) c bn s = some (r, s')) :
    Adds (fun c => checkRecency c bn = .ok ()) s s' := by
  cases EigenDAPreimageSource.next_cases h with
  | unanswered hv => exact ⟨_, getValidity_records P hv, .validity .nil⟩
  | invalid hv => exact ⟨_, getValidity_records P hv, .validity .nil⟩
  | rejected hv _ => exact ⟨_, getValidity_records P hv, .validity .nil⟩
  | @failed e _ _ hv hr hp =>
      exact ⟨[.validity c (.ok true), .encodedPayload c (.error (P.into e))],
        (getValidity_records P hv).trans (getEncodedPayload_records P hp),
        .payload hr .nil⟩
  | @answered ep _ _ hv hr hp =>
      exact ⟨[.validity c (.ok true), .encodedPayload c (.ok ep)],
        (getValidity_records P hv).trans (getEncodedPayload_records P hp),
        .payload hr .nil⟩

variable (E : EthereumDataSource σ)

/-- What a relation of provider states owes to hold of a whole run: it
holds of every attempt. -/
theorem run_provider {π' : Type} {P : EigenDAPreimageProvider π' ε}
    {R : π' → π' → Prop}
    (hrefl : ∀ p, R p p) (htrans : ∀ {p p' p''}, R p p' → R p' p'' → R p p'')
    (hattempt : ∀ {c bn p r p'},
      EigenDAPreimageSource.next P c bn p = some (r, p') → R p p')
    {s s' : EigenDADataSource σ π'} {commands : List Command}
    (h : Path (Commanded E P) s commands s') :
    R s.eigendaSource s'.eigendaSource := by
  refine Path.relates (R := fun s s' => R s.eigendaSource s'.eigendaSource)
    (fun s => hrefl _) htrans ?_ h
  intro s x s' hx
  obtain ⟨r, hcall⟩ := hx
  cases x with
  | clear =>
      cases hcall
      exact hrefl _
  | next block batcherAddr =>
      unfold call at hcall
      rw [Option.map_eq_some_iff] at hcall
      obtain ⟨⟨r', s₁⟩, hn, heq⟩ := hcall
      cases heq
      exact next_provider E P block batcherAddr hrefl htrans hattempt hn

/-- A whole run: its record is that of its log, and the log is
disciplined. -/
theorem run_adds {eth : σ} {p : π} {commands : List Command}
    {s : EigenDADataSource σ
      (OracleEigenDAPreimageProviderWithPreimage (π × List ProviderEvent))}
    (h : Path (Commanded E (recording P)) (recordingFrom eth p) commands s) :
    s.eigendaSource.preimage = recordOf (eventLog s)
      ∧ Disciplined (fun _ => True) (eventLog s) := by
  have hadds : Adds (fun _ => True) (recordingFrom eth p).eigendaSource
      s.eigendaSource := by
    refine run_provider E (Adds.refl _) Adds.trans ?_ h
    intro c bn p r p' hn
    obtain ⟨events, hrec, hdisc⟩ := preimageNext_adds P hn
    exact ⟨events, hrec, hdisc.mono fun _ _ => trivial⟩
  obtain ⟨events, hrec, hdisc⟩ := hadds
  have hlog : eventLog s = events := hrec.log
  have hvalidities : s.eigendaSource.preimage.validities
      = (recordOf events).validities := hrec.validities
  have hpayloads : s.eigendaSource.preimage.encodedPayloads
      = (recordOf events).encodedPayloads := hrec.encodedPayloads
  rw [hlog]
  refine ⟨?_, hdisc⟩
  calc s.eigendaSource.preimage
      = ⟨s.eigendaSource.preimage.validities,
          s.eigendaSource.preimage.encodedPayloads⟩ := rfl
    _ = recordOf events := by rw [hvalidities, hpayloads]

end Runs

-- ========================================================= the counts

section Counts

variable {τ : Type} {K : KeyScheme} {O : CommsClient τ}

/-- The read loop fills its buffer and keeps its length. -/
theorem length_fetchEncodedPayload {template buffer filled : Bytes}
    {is : List Nat} {t t' : τ}
    (h : OracleEigenDAPreimageProvider.fetchEncodedPayload K O template is
      buffer t = some (.ok filled, t')) : filled.length = buffer.length := by
  induction is generalizing buffer t with
  | nil =>
      cases h
      rfl
  | cons i is ih =>
      unfold OracleEigenDAPreimageProvider.fetchEncodedPayload at h
      split at h
      · cases h
      · simp only [Option.bind_eq_bind, Option.bind_eq_some_iff] at h
        obtain ⟨buffer', hwrite, h⟩ := h
        rw [ih h, length_writeAt hwrite]

/-- A payload of the oracle provider has as many elements as its
commitment says, whatever the oracle answers. -/
theorem numFieldElement_getEncodedPayload {c : AltDACommitment}
    {ep : EncodedPayload} {t t' : τ}
    (h : OracleEigenDAPreimageProvider.getEncodedPayload K O c t
      = some (.ok ep, t')) :
    ep.numFieldElement = c.getNumFieldElement := by
  unfold OracleEigenDAPreimageProvider.getEncodedPayload at h
  split at h
  · cases h
  · simp only [Option.bind_eq_bind, Option.bind_eq_some_iff] at h
    obtain ⟨⟨r, t₁⟩, hfetch, h⟩ := h
    rcases r with e | filled
    · cases h
    · cases h
      rw [EncodedPayload.numFieldElement, length_fetchEncodedPayload hfetch,
        List.length_replicate, Nat.mul_div_cancel _ (by decide)]

/-- Every payload of a record has as many elements as its commitment
says. -/
def Counted (preimage : EigenDAPreimage) : Prop :=
  ∀ e ∈ preimage.encodedPayloads,
    e.2.numFieldElement = e.1.getNumFieldElement

/-- A recorded answer is an answer of the inner provider. -/
theorem counted_getEncodedPayload {c : AltDACommitment}
    {s s' : OracleEigenDAPreimageProviderWithPreimage (τ × List ProviderEvent)}
    {r : Except HokuleaOracleProviderError EncodedPayload}
    (h : (recording (OracleEigenDAPreimageProvider.provider K O)).getEncodedPayload
      c s = some (r, s')) (hs : Counted s.preimage) : Counted s'.preimage := by
  simp only [OracleEigenDAPreimageProviderWithPreimage.recorder,
    OracleEigenDAPreimageProviderWithPreimage.getEncodedPayload, traced,
    Option.bind_eq_bind, Option.bind_eq_some_iff] at h
  obtain ⟨⟨r₁, p⟩, ⟨⟨r₂, p₂⟩, hr₂, heq⟩, h⟩ := h
  cases heq
  rcases r₂ with e | ep
  · cases h
    exact hs
  · cases h
    intro e he
    rcases List.mem_append.mp he with he | he
    · exact hs e he
    · rw [List.mem_singleton.mp he]
      exact numFieldElement_getEncodedPayload hr₂

/-- An attempt over the oracle provider keeps the record counted. -/
theorem counted_preimageNext {c : AltDACommitment} {bn : Nat}
    {s s' : OracleEigenDAPreimageProviderWithPreimage (τ × List ProviderEvent)}
    {r : Except HokuleaErrorKind EncodedPayload}
    (h : EigenDAPreimageSource.next
      (recording (OracleEigenDAPreimageProvider.provider K O)) c bn s
      = some (r, s')) (hs : Counted s.preimage) : Counted s'.preimage := by
  -- a validity question leaves the payloads alone
  have hvalidity : ∀ {r s'},
      (recording (OracleEigenDAPreimageProvider.provider K O)).getValidity c s
        = some (r, s') → Counted s'.preimage := by
    intro r s' hv e he
    rw [(getValidity_records _ hv).encodedPayloads, List.append_nil] at he
    exact hs e he
  cases EigenDAPreimageSource.next_cases h with
  | unanswered hv => exact hvalidity hv
  | invalid hv => exact hvalidity hv
  | rejected hv _ => exact hvalidity hv
  | failed hv _ hp => exact counted_getEncodedPayload hp (hvalidity hv)
  | answered hv _ hp => exact counted_getEncodedPayload hp (hvalidity hv)

end Counts

-- ========================================================= the shape

/-- What a run owes to its record. -/
structure WellRecorded {σ π ε : Type} (E : EthereumDataSource σ)
    (P : EigenDAPreimageProvider π ε)
    (s : EigenDADataSource σ
      (OracleEigenDAPreimageProviderWithPreimage (π × List ProviderEvent))) :
    Prop where
  /-- the next call asks for a payload only right after its commitment
  was found valid, and when it is recent -/
  disciplined : ∀ block batcherAddr r s',
    next E (recording P) block batcherAddr s = some (r, s') →
    ∃ events, eventLog s' = eventLog s ++ events
      ∧ Disciplined (fun c => checkRecency c block.number = .ok ()) events
  /-- the record is that of the answers so far -/
  recorded : s.eigendaSource.preimage = recordOf (eventLog s)
  /-- and was shaped at every moment up to now -/
  shaped : ∀ events, events <+: eventLog s →
    Shaped (recordOf events)
      ∧ (recordOf events).encodedPayloads.length
        ≤ (recordOf events).validities.length

/-- The length assertions of `from_witness`, on a witness made of a
record. -/
def LengthAssertions (w : EigenDAWitness) : Prop :=
  w.encodedPayloads.length ≤ w.validities.length
    ∧ ∀ e ∈ w.encodedPayloads, e.2.1.numFieldElement = e.1.getNumFieldElement

/-- A shaped and counted record passes them, with any proofs. -/
theorem lengthAssertions_of_shaped {preimage : EigenDAPreimage}
    (hshaped : Shaped preimage) (hcounted : Counted preimage)
    (kzgProofs : List B512) (canoeProof : Option Bytes) :
    LengthAssertions
      (EigenDAWitness.fromPreimageUnchecked preimage kzgProofs canoeProof) := by
  constructor
  · have hle := hshaped.length_le
    simp only [EigenDAWitness.fromPreimageUnchecked, List.length_map,
      List.length_zip]
    omega
  · intro e he
    obtain ⟨⟨⟨c, ep⟩, proof⟩, hmem, rfl⟩ := List.mem_map.mp he
    exact hcounted _ (List.of_mem_zip hmem).1

/-- Every record a derivation makes is shaped at every moment; over the
oracle provider its payloads are counted as well, and it passes the
length assertions. -/
theorem record_shape {σ : Type} (E : EthereumDataSource σ) (eth : σ) :
    (∀ {π ε : Type} (P : EigenDAPreimageProvider π ε) (p : π)
        (commands : List Command)
        (s : EigenDADataSource σ (OracleEigenDAPreimageProviderWithPreimage
          (π × List ProviderEvent))),
      Path (Commanded E (recording P)) (recordingFrom eth p) commands s →
        WellRecorded E P s)
    ∧ ∀ {τ : Type} (K : KeyScheme) (O : CommsClient τ) (t : τ)
        (commands : List Command)
        (s : EigenDADataSource σ (OracleEigenDAPreimageProviderWithPreimage
          (τ × List ProviderEvent))),
      Path (Commanded E (recording (OracleEigenDAPreimageProvider.provider K O)))
        (recordingFrom eth t) commands s →
      Counted s.eigendaSource.preimage
        ∧ ∀ kzgProofs canoeProof, LengthAssertions
          (EigenDAWitness.fromPreimageUnchecked s.eigendaSource.preimage
            kzgProofs canoeProof) := by
  constructor
  · intro π ε P p commands s hrun
    obtain ⟨hrecorded, hdisc⟩ := run_adds P E hrun
    refine ⟨fun block batcherAddr r s' hn => ?_, hrecorded,
      fun events hevents => ?_⟩
    · obtain ⟨events, hrec, hdisc'⟩ := next_provider E (recording P) block
        batcherAddr (Adds.refl _) Adds.trans (preimageNext_adds P) hn
      exact ⟨events, hrec.log, hdisc'⟩
    · have hshaped := (hdisc.before hevents).shaped
      exact ⟨hshaped, hshaped.length_le⟩
  · intro τ K O t commands s hrun
    have hcounted : Counted s.eigendaSource.preimage := by
      refine run_provider E
        (R := fun p p' => Counted p.preimage → Counted p'.preimage)
        (fun _ h => h) ?_ counted_preimageNext hrun nofun
      intro p p' p'' h h' hp
      exact h' (h hp)
    obtain ⟨hrecorded, hdisc⟩ := run_adds _ E hrun
    have hshaped : Shaped s.eigendaSource.preimage := by
      rw [hrecorded]
      exact hdisc.shaped
    exact ⟨hcounted, lengthAssertions_of_shaped hshaped hcounted⟩

-- ------------------------------------- a payload that is asked twice

/-- The first commitment's payload fails once: its validity is recorded
twice, its payload once. -/
theorem commanded_twice :
    Path (Commanded (listSource twoItems) (recording flaky))
      (recordingFrom twoItems [false, true])
      [.next (testBlock 3) testAddress, .next (testBlock 3) testAddress]
      ⟨[calldata secondCommitment], ⟨([], [.validity firstCommitment (.ok true),
          .encodedPayload firstCommitment
            (.error (.temporary "Preimage temporary error")),
          .validity firstCommitment (.ok true),
          .encodedPayload firstCommitment (.ok onePayload)]),
        ⟨[(firstCommitment, true), (firstCommitment, true)],
          [(firstCommitment, onePayload)]⟩⟩, none⟩ := by
  have h1 : next (listSource twoItems) (recording flaky) (testBlock 3)
        testAddress (recordingFrom twoItems [false, true])
      = some (.error (.temporary (.provider "Preimage temporary error")),
        ⟨[calldata secondCommitment],
          ⟨([], [.validity firstCommitment (.ok true),
            .encodedPayload firstCommitment
              (.error (.temporary "Preimage temporary error"))]),
            { validities := [(firstCommitment, true)] }⟩,
          some firstCommitment⟩) := by
    apply next_of_done
    unfold recordingFrom
    rw [(nextBody_twoItems (recording flaky) _ _).1]
    simp [process, EigenDAPreimageSource.next, recording, traced,
      OracleEigenDAPreimageProviderWithPreimage.recorder,
      OracleEigenDAPreimageProviderWithPreimage.getValidity,
      OracleEigenDAPreimageProviderWithPreimage.getEncodedPayload, flaky,
      flakyProvider, TestHokuleaProviderError.toErrorKind, Except.mapError,
      testBlock, recent_first]
  have h2 := next_of_done (listSource twoItems) (recording flaky)
    (testBlock 3) testAddress ((nextBody_kept _ _ _ _ rfl).trans
      (process_recording_ok [calldata secondCommitment]
        [.validity firstCommitment (.ok true), .encodedPayload firstCommitment
          (.error (.temporary "Preimage temporary error"))]
        { validities := [(firstCommitment, true)] } recent_first))
  exact .cons (commanded_next h1) (.cons (commanded_next h2) (.nil _))

/-- The record of that run is shaped; so is that of a run over the
oracle provider, before its first command. -/
theorem record_shape_twice :
    WellRecorded (listSource twoItems) flaky
        ⟨[calldata secondCommitment],
          ⟨([], [.validity firstCommitment (.ok true),
            .encodedPayload firstCommitment
              (.error (.temporary "Preimage temporary error")),
            .validity firstCommitment (.ok true),
            .encodedPayload firstCommitment (.ok onePayload)]),
          ⟨[(firstCommitment, true), (firstCommitment, true)],
            [(firstCommitment, onePayload)]⟩⟩, none⟩
      ∧ LengthAssertions (EigenDAWitness.fromPreimageUnchecked {} [] none) :=
  ⟨(record_shape (listSource twoItems) twoItems).1 flaky [false, true] _ _
      commanded_twice,
    ((record_shape (listSource twoItems) twoItems).2 testKeyScheme
      Handler.storeOracle (fun _ => none) [] _ (.nil _)).2 [] none⟩

end Hokulea
