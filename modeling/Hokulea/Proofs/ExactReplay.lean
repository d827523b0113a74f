/-
Replaying a dialogue answer by answer.

# What is proved

`replay_exact`: the driver of a derivation is arbitrary. It picks each
call by the answers so far, clears the source when it likes and changes
blocks when it likes. When no answer of the provider in the first run
was an error, the second run, over the witness made from the record,
gives the same driver the same answers to the last one, leaves both
sources alike, and uses up the witness to the last entry.

# How

The entries a replay holds at some point are those the first run has
yet to record, and these are known only at its end. So the argument
goes backwards (`TracedBack`): from the state after a call and what the
replay holds there, to the state before it and one entry more.
-/
import Hokulea.Proofs.Replay

namespace Hokulea

open Bytes Machine AltDACommitment EigenDADataSource

variable {σ π π' ε ε' : Type}

-- ========================================================== providers

/-- Whatever `P` answered on its way to a state, `P'` answers on its way
to any state that one is related to. -/
structure TracedBack (P : EigenDAPreimageProvider π ε)
    (P' : EigenDAPreimageProvider π' ε') (Q : π → π' → Prop) : Prop where
  getValidity : ∀ {c p r p₁ q₁}, Q p₁ q₁ → P.getValidity c p = some (r, p₁) →
    ∃ r' q, P'.getValidity c q = some (r', q₁)
      ∧ SameAnswer P.into P'.into r r' ∧ Q p q
  getEncodedPayload : ∀ {c p r p₁ q₁}, Q p₁ q₁ →
    P.getEncodedPayload c p = some (r, p₁) →
    ∃ r' q, P'.getEncodedPayload c q = some (r', q₁)
      ∧ SameAnswer P.into P'.into r r' ∧ Q p q

-- ========================================================== the sources

section Sources

variable {P : EigenDAPreimageProvider π ε}
  {P' : EigenDAPreimageProvider π' ε'} {Q : π → π' → Prop}

/-- An attempt, from its last question back to its first. -/
theorem preimageNext_tracedBack (hback : TracedBack P P' Q)
    {c : AltDACommitment} {bn : Nat} {p p₁ : π} {q₁ : π'}
    {r : Except HokuleaErrorKind EncodedPayload} (hq₁ : Q p₁ q₁)
    (h : EigenDAPreimageSource.next P c bn p = some (r, p₁)) :
    ∃ q, EigenDAPreimageSource.next P' c bn q = some (r, q₁) ∧ Q p q := by
  cases EigenDAPreimageSource.next_cases h with
  | unanswered hv =>
      obtain ⟨r', q, hv', hsame, hq⟩ := hback.getValidity hq₁ hv
      obtain ⟨e', he', hinto⟩ := hsame.eq_error
      rw [he'] at hv'
      rw [hinto]
      exact ⟨q, EigenDAPreimageSource.next_of_attempted (.unanswered hv'), hq⟩
  | invalid hv =>
      obtain ⟨r', q, hv', hsame, hq⟩ := hback.getValidity hq₁ hv
      rw [hsame.eq_ok] at hv'
      exact ⟨q, EigenDAPreimageSource.next_of_attempted (.invalid hv'), hq⟩
  | rejected hv hr =>
      obtain ⟨r', q, hv', hsame, hq⟩ := hback.getValidity hq₁ hv
      rw [hsame.eq_ok] at hv'
      exact ⟨q, EigenDAPreimageSource.next_of_attempted (.rejected hv' hr), hq⟩
  | failed hv hr hp =>
      obtain ⟨r₂, q₂, hp', hsame₂, hq₂⟩ := hback.getEncodedPayload hq₁ hp
      obtain ⟨r', q, hv', hsame, hq⟩ := hback.getValidity hq₂ hv
      obtain ⟨e', he', hinto⟩ := hsame₂.eq_error
      rw [hsame.eq_ok] at hv'
      rw [he'] at hp'
      rw [hinto]
      exact ⟨q, EigenDAPreimageSource.next_of_attempted (.failed hv' hr hp'),
        hq⟩
  | answered hv hr hp =>
      obtain ⟨r₂, q₂, hp', hsame₂, hq₂⟩ := hback.getEncodedPayload hq₁ hp
      obtain ⟨r', q, hv', hsame, hq⟩ := hback.getValidity hq₂ hv
      rw [hsame.eq_ok] at hv'
      rw [hsame₂.eq_ok] at hp'
      exact ⟨q, EigenDAPreimageSource.next_of_attempted (.answered hv' hr hp'),
        hq⟩

namespace EigenDADataSource

variable (E : EthereumDataSource σ) (block : BlockInfo)
  (batcherAddr : Address)

/-- Processing a commitment makes the same of the same answer. -/
theorem process_tracedBack (hback : TracedBack P P' Q) {c : AltDACommitment}
    {s s₁ : EigenDADataSource σ π} {q₁ : π'} {out : Outcome}
    (hq₁ : Q s₁.eigendaSource q₁) (h : process P block c s = some (out, s₁)) :
    ∃ q, process P' block c (s.withProvider q)
        = some (out, s₁.withProvider q₁) ∧ Q s.eigendaSource q := by
  obtain ⟨r, p, hn, hcase⟩ := process_cases P block h
  have hp : s₁.eigendaSource = p := by cases hcase <;> rfl
  obtain ⟨q, hn', hq⟩ := preimageNext_tracedBack hback (hp ▸ hq₁) hn
  refine ⟨q, ?_, hq⟩
  unfold process withProvider
  simp only [Option.bind_eq_bind, hn', Option.bind_some]
  cases hcase with
  | temporary e => rfl
  | critical e => rfl
  | discard e => rfl
  | undecodable ep e hdec => simp [hdec]
  | decoded ep payload hdec => simp [hdec]

/-- One round: the fetch does not look at the provider, so it is the
same from whatever the processing asks for. -/
theorem nextBody_tracedBack (hback : TracedBack P P' Q)
    {s s₁ : EigenDADataSource σ π} {q₁ : π'} {out : Outcome}
    (hq₁ : Q s₁.eigendaSource q₁)
    (h : nextBody E P block batcherAddr s = some (out, s₁)) :
    ∃ q, nextBody E P' block batcherAddr (s.withProvider q)
        = some (out, s₁.withProvider q₁) ∧ Q s.eigendaSource q := by
  have hfetch := fun q : π' => fetch_withProvider E block batcherAddr s q
  have heig := fetch_eigendaSource E block batcherAddr s
  have hkept : ∀ q : π', (s.withProvider q).altdaCommitment
      = s.altdaCommitment := fun _ => rfl
  unfold nextBody at h ⊢
  simp only [hkept, hfetch]
  cases hs : s.altdaCommitment with
  | some c =>
      simp only [hs, Option.isNone_some, Bool.false_eq_true, if_false, hkept]
        at h ⊢
      exact process_tracedBack block hback hq₁ h
  | none =>
      simp only [hs, Option.isNone_none, if_true] at h ⊢
      generalize fetch E block batcherAddr s = f at h heig ⊢
      obtain ⟨returned, t⟩ := f
      cases returned with
      | some r =>
          cases h
          exact ⟨q₁, rfl, heig ▸ hq₁⟩
      | none =>
          have hkt : ∀ q : π', (t.withProvider q).altdaCommitment
              = t.altdaCommitment := fun _ => rfl
          simp only [hkt] at h heig ⊢
          cases ht : t.altdaCommitment with
          | none => simp [ht] at h
          | some c =>
              simp only [ht] at h ⊢
              rw [← heig]
              exact process_tracedBack block hback hq₁ h

/-- One call: its rounds, from the last to the first. -/
theorem next_tracedBack (hback : TracedBack P P' Q)
    {s s' : EigenDADataSource σ π} {q' : π'}
    {r : Except PipelineErrorKind Bytes} (hq' : Q s'.eigendaSource q')
    (h : next E P block batcherAddr s = some (r, s')) :
    ∃ q, next E P' block batcherAddr (s.withProvider q)
        = some (r, s'.withProvider q') ∧ Q s.eigendaSource q := by
  induction rounds_of_next E P block batcherAddr h with
  | done hb =>
      obtain ⟨q, hb', hq⟩ := nextBody_tracedBack E block batcherAddr hback hq' hb
      exact ⟨q, by rw [next_eq, hb'], hq⟩
  | again hb rest ih =>
      rw [next_eq, hb] at h
      obtain ⟨q₁, hrest, hq₁⟩ := ih hq' h
      obtain ⟨q, hb', hq⟩ := nextBody_tracedBack E block batcherAddr hback hq₁ hb
      exact ⟨q, by rw [next_eq, hb']; exact hrest, hq⟩

/-- A dialogue with a source over `P` was the dialogue with a source
over `P'`, begun where the end traces back to. -/
theorem dialogue_tracedBack (hback : TracedBack P P' Q)
    (driver : List (Option (Except PipelineErrorKind Bytes)) →
      Option Command) (n : Nat)
    {answers outs : List (Option (Except PipelineErrorKind Bytes))}
    {s s' : EigenDADataSource σ π} {q' : π'} (hq' : Q s'.eigendaSource q')
    (h : converse (call E P) driver n answers s = some (outs, s')) :
    ∃ q, converse (call E P') driver n answers (s.withProvider q)
        = some (outs, s'.withProvider q') ∧ Q s.eigendaSource q := by
  have hcall : ∀ x (s : EigenDADataSource σ π) r s'
      (t' : EigenDADataSource σ π'),
      (∃ q', t' = s'.withProvider q' ∧ Q s'.eigendaSource q') →
      call E P x s = some (r, s') →
      ∃ t, call E P' x t = some (r, t')
        ∧ ∃ q, t = s.withProvider q ∧ Q s.eigendaSource q := by
    intro x s r s' t' hrel hx
    obtain ⟨q', rfl, hq'⟩ := hrel
    cases x with
    | clear =>
        cases hx
        exact ⟨s.withProvider q', rfl, q', rfl, hq'⟩
    | next block batcherAddr =>
        unfold call at hx ⊢
        rw [Option.map_eq_some_iff] at hx
        obtain ⟨⟨r', s₁⟩, hn, heq⟩ := hx
        cases heq
        obtain ⟨q, hn', hq⟩ := next_tracedBack E block batcherAddr hback hq' hn
        exact ⟨_, by simp only [hn', Option.map_some], q, rfl, hq⟩
  obtain ⟨t, ht, q, rfl, hq⟩ :=
    converse_traced_back hcall driver n ⟨q', rfl, hq'⟩ h
  exact ⟨q, ht, hq⟩

end EigenDADataSource

end Sources

-- ========================================================== the record

/-- The provider's answer was not an error. -/
def ProviderEvent.Answered : ProviderEvent → Prop
  | .validity _ answer => ∃ v, answer = .ok v
  | .encodedPayload _ answer => ∃ ep, answer = .ok ep

/-- What a replay of `record` holds when the first run is at `p`: the
entries `p` has yet to record, where no answer so far was an error. -/
structure YetToRecord (record : EigenDAPreimage)
    (p : OracleEigenDAPreimageProviderWithPreimage (π × List ProviderEvent))
    (q : PreloadedEigenDAPreimageProvider) : Prop where
  answered : ∀ event ∈ p.provider.2, event.Answered
  entries : ∃ V L, q = holding V L
    ∧ record.validities = p.preimage.validities ++ V
    ∧ record.encodedPayloads = p.preimage.encodedPayloads ++ L

/-- The recorder traces back to the preloaded provider: an entry that was
appended last is the one that is popped first. -/
theorem recording_tracedBack (P : EigenDAPreimageProvider π ε)
    (record : EigenDAPreimage) :
    TracedBack (recording P) PreloadedEigenDAPreimageProvider.provider
      (YetToRecord record) := by
  constructor
  · intro c p r p₁ q₁ hq h
    have hrec := getValidity_records P h
    obtain ⟨V, L, rfl, hV, hL⟩ := hq.entries
    -- the answer is the last of the log
    obtain ⟨v, hv⟩ := hq.answered (.validity c (r.mapError P.into))
      (by rw [hrec.log]; simp)
    cases r with
    | error e => cases hv
    | ok v =>
        refine ⟨.ok v, holding ((c, v) :: V) L, getValidity_holding c v V L,
          rfl, fun event he => ?_, _, _, rfl, ?_, ?_⟩
        · exact hq.answered event (by rw [hrec.log]; simp [he])
        · rw [hV, hrec.validities]
          simp [recordOf, validityEntry, Except.mapError]
        · rw [hL, hrec.encodedPayloads, List.append_nil]
  · intro c p r p₁ q₁ hq h
    have hrec := getEncodedPayload_records P h
    obtain ⟨V, L, rfl, hV, hL⟩ := hq.entries
    obtain ⟨ep, hep⟩ := hq.answered (.encodedPayload c (r.mapError P.into))
      (by rw [hrec.log]; simp)
    cases r with
    | error e => cases hep
    | ok ep =>
        refine ⟨.ok ep, holding V ((c, ep) :: L),
          getEncodedPayload_holding c ep V L, rfl, fun event he => ?_, _, _,
          rfl, ?_, ?_⟩
        · exact hq.answered event (by rw [hrec.log]; simp [he])
        · rw [hV, hrec.validities, List.append_nil]
        · rw [hL, hrec.encodedPayloads]
          simp [recordOf, payloadEntry, Except.mapError]

-- =========================================================== whole runs

section Runs

variable (E : EthereumDataSource σ) (P : EigenDAPreimageProvider π ε)
  (driver : List (Option (Except PipelineErrorKind Bytes)) → Option Command)
  (n : Nat)

/-- A first run without provider errors is the run over what it has
recorded, from that record to nothing left of it. -/
theorem dialogue_of_record {eth : σ} {p : π}
    {outs : List (Option (Except PipelineErrorKind Bytes))}
    {s : EigenDADataSource σ
      (OracleEigenDAPreimageProviderWithPreimage (π × List ProviderEvent))}
    (hrun : converse (call E (recording P)) driver n []
      ⟨eth, ⟨(p, []), {}⟩, none⟩ = some (outs, s))
    (hanswered : ∀ event ∈ s.eigendaSource.provider.2, event.Answered) :
    converse (call E PreloadedEigenDAPreimageProvider.provider) driver n []
        ⟨eth, holding s.eigendaSource.preimage.validities
          s.eigendaSource.preimage.encodedPayloads, none⟩
      = some (outs, s.withProvider (holding [] [])) := by
  have hend : YetToRecord s.eigendaSource.preimage s.eigendaSource
      (holding [] []) :=
    ⟨hanswered, [], [], rfl, (List.append_nil _).symm, (List.append_nil _).symm⟩
  obtain ⟨q, hrun', hq⟩ := dialogue_tracedBack E
    (recording_tracedBack P s.eigendaSource.preimage) driver n hend hrun
  obtain ⟨V, L, rfl, hV, hL⟩ := hq.entries
  -- nothing was recorded at the start, so everything is yet to come
  have hV' : V = s.eigendaSource.preimage.validities := by simpa using hV.symm
  have hL' : L = s.eigendaSource.preimage.encodedPayloads := by
    simpa using hL.symm
  rw [← hV', ← hL']
  exact hrun'

/-- Whatever the driver does, a first run without provider errors is
replayed over its witness answer by answer: the same answers, both
sources left alike, and no entry of the witness left over. -/
theorem replay_exact (eth : σ) (p : π)
    (outs : List (Option (Except PipelineErrorKind Bytes)))
    (s : EigenDADataSource σ
      (OracleEigenDAPreimageProviderWithPreimage (π × List ProviderEvent)))
    (hrun : converse (call E (recording P)) driver n []
      ⟨eth, ⟨(p, []), {}⟩, none⟩ = some (outs, s))
    (hanswered : ∀ event ∈ s.eigendaSource.provider.2, event.Answered)
    (kzgProofs : List B512) (canoeProof : Option Bytes) (w : EigenDAWitness)
    (hw : EigenDAWitness.fromPreimage s.eigendaSource.preimage kzgProofs
      canoeProof = .ok w)
    (head : L1Head) (V : CanoeVerifier) (A : CanoeVerifierAddressFetcher)
    (batchVerify : BatchVerify) (pre : PreloadedEigenDAPreimageProvider)
    (hpre : PreloadedEigenDAPreimageProvider.fromWitness w head V A batchVerify
      = some pre) :
    converse (call E PreloadedEigenDAPreimageProvider.provider) driver n []
        ⟨eth, pre, none⟩
      = some (outs, ⟨s.ethereumSource, ⟨[], []⟩, s.altdaCommitment⟩) := by
  rw [fromWitness_fromPreimage hw hpre]
  exact dialogue_of_record E P driver n hrun hanswered

end Runs

-- ============================================================= an example

/-- Two calls, a reset of the source, and a third call. -/
def resettingDriver
    (answers : List (Option (Except PipelineErrorKind Bytes))) :
    Option Command :=
  if answers.length = 2 then some .clear
  else if answers.length < 4 then some (.next (testBlock 3) testAddress)
  else none

/-- The log of one commitment that was answered. -/
def answeredLog (c : AltDACommitment) : List ProviderEvent :=
  [.validity c (.ok true), .encodedPayload c (.ok onePayload)]

/-- What the first run of that driver records: the first commitment twice,
for it is read again after the reset. -/
def resetRecord : EigenDAPreimage where
  validities := [(firstCommitment, true), (secondCommitment, true),
    (firstCommitment, true)]
  encodedPayloads := [(firstCommitment, onePayload),
    (secondCommitment, onePayload), (firstCommitment, onePayload)]

/-- The first run of that driver. -/
theorem resetting_run :
    converse (call (listSource twoItems) (recording flaky)) resettingDriver 4 []
        ⟨twoItems, ⟨([], []), {}⟩, none⟩
      = some ([some (.ok [7]), some (.ok [7]), none, some (.ok [7])],
        ⟨[calldata secondCommitment], ⟨([], answeredLog firstCommitment
          ++ answeredLog secondCommitment ++ answeredLog firstCommitment),
          resetRecord⟩, none⟩) := by
  have h1 := next_of_done (listSource twoItems) (recording flaky) (testBlock 3)
    testAddress ((nextBody_twoItems (recording flaky) ⟨([], []), {}⟩ twoItems).1.trans
      (process_recording_ok [calldata secondCommitment] [] {} recent_first))
  have h2 := next_of_done (listSource twoItems) (recording flaky) (testBlock 3)
    testAddress ((nextBody_twoItems (recording flaky) ⟨_, _⟩ twoItems).2.trans
      (process_recording_ok [] (answeredLog firstCommitment)
        ⟨[(firstCommitment, true)], [(firstCommitment, onePayload)]⟩
        recent_second))
  have h3 := next_of_done (listSource twoItems) (recording flaky) (testBlock 3)
    testAddress ((nextBody_twoItems (recording flaky) ⟨_, _⟩ twoItems).1.trans
      (process_recording_ok [calldata secondCommitment]
        (answeredLog firstCommitment ++ answeredLog secondCommitment)
        ⟨[(firstCommitment, true), (secondCommitment, true)],
          [(firstCommitment, onePayload), (secondCommitment, onePayload)]⟩
        recent_first))
  have hclear : ∀ {π : Type} (eth : List Bytes) (p : π),
      clear (listSource twoItems) ⟨eth, p, none⟩ = ⟨twoItems, p, none⟩ :=
    fun _ _ => rfl
  simp only [List.nil_append, List.cons_append, answeredLog] at h1 h2 h3
  simp [converse, resettingDriver, call, h1, h2, h3, hclear, resetRecord,
    answeredLog]

/-- And its replay: the three payloads, and nothing of the witness left. -/
theorem replay_of_resetting_run :
    converse (call (listSource twoItems)
        PreloadedEigenDAPreimageProvider.provider) resettingDriver 4 []
        ⟨twoItems, holding resetRecord.validities resetRecord.encodedPayloads,
          none⟩
      = some ([some (.ok [7]), some (.ok [7]), none, some (.ok [7])],
        ⟨[calldata secondCommitment], ⟨[], []⟩, none⟩) :=
  replay_exact (listSource twoItems) flaky resettingDriver 4 twoItems [] _ _
    resetting_run (by simp [answeredLog, ProviderEvent.Answered])
    [testProof, testProof, testProof] (some []) _ rfl testHead
    canoeNoOpVerifier (staticAddressFetcher testAddress)
    (fun _ _ _ => some true) _ (by decide +kernel)

end Hokulea
