/-
Replacing the provider under a data source.

When one provider answers whatever another does, with the same answers
(`Simulates`), a data source over the one does what a data source over
the other does, call by call and dialogue by dialogue:
`next_simulates`, `dialogue_simulates`.

`traced` is the provider that also keeps a log of what it answered. It
simulates the provider it wraps, and its log is how a theorem speaks
of every answer a provider gave in a run.
-/
import Hokulea.Lib.Machine
import Hokulea.Eigenda.DataSource

namespace Hokulea

open Bytes Machine

variable {σ π π' ε ε' : Type}

-- ========================================================== providers

/-- The same answer, up to the error types: errors are alike when the
derivation takes them for the same. -/
def SameAnswer {α : Type} (into : ε → HokuleaErrorKind)
    (into' : ε' → HokuleaErrorKind) : Except ε α → Except ε' α → Prop
  | .ok a, .ok a' => a = a'
  | .error e, .error e' => into e = into' e'
  | _, _ => False

/-- The same answer as a value is that value. -/
theorem SameAnswer.eq_ok {α : Type} {into : ε → HokuleaErrorKind}
    {into' : ε' → HokuleaErrorKind} {a : α} {r : Except ε' α}
    (h : SameAnswer into into' (.ok a) r) : r = .ok a := by
  cases r with
  | error e => cases h
  | ok a' => exact congrArg Except.ok (Eq.symm h)

/-- The same answer as an error is an error taken for the same. -/
theorem SameAnswer.eq_error {α : Type} {into : ε → HokuleaErrorKind}
    {into' : ε' → HokuleaErrorKind} {e : ε} {r : Except ε' α}
    (h : SameAnswer into into' (.error e) r) :
    ∃ e', r = .error e' ∧ into e = into' e' := by
  cases r with
  | error e' => exact ⟨e', rfl, h⟩
  | ok a => cases h

/-- Whatever `P` answers, `P'` answers too, from related states to
related states. -/
structure Simulates (P : EigenDAPreimageProvider π ε)
    (P' : EigenDAPreimageProvider π' ε') (Q : π → π' → Prop) : Prop where
  getValidity : ∀ {c p q r p₁}, Q p q → P.getValidity c p = some (r, p₁) →
    ∃ r' q₁, P'.getValidity c q = some (r', q₁)
      ∧ SameAnswer P.into P'.into r r' ∧ Q p₁ q₁
  getEncodedPayload : ∀ {c p q r p₁}, Q p q →
    P.getEncodedPayload c p = some (r, p₁) →
    ∃ r' q₁, P'.getEncodedPayload c q = some (r', q₁)
      ∧ SameAnswer P.into P'.into r r' ∧ Q p₁ q₁

-- ======================================================= the sources

section Sources

variable {P : EigenDAPreimageProvider π ε}
  {P' : EigenDAPreimageProvider π' ε'} {Q : π → π' → Prop}

/-- The preimage source asks both providers the same questions. -/
theorem preimageNext_simulates (hsim : Simulates P P' Q)
    {c : AltDACommitment} {bn : Nat} {p p₁ : π} {q : π'}
    {r : Except HokuleaErrorKind EncodedPayload} (hq : Q p q)
    (h : EigenDAPreimageSource.next P c bn p = some (r, p₁)) :
    ∃ q₁, EigenDAPreimageSource.next P' c bn q = some (r, q₁) ∧ Q p₁ q₁ := by
  cases EigenDAPreimageSource.next_cases h with
  | unanswered hv =>
      obtain ⟨r', q₁, hv', hsame, hq₁⟩ := hsim.getValidity hq hv
      obtain ⟨e', he', hinto⟩ := hsame.eq_error
      rw [he'] at hv'
      rw [hinto]
      exact ⟨q₁, EigenDAPreimageSource.next_of_attempted (.unanswered hv'), hq₁⟩
  | invalid hv =>
      obtain ⟨r', q₁, hv', hsame, hq₁⟩ := hsim.getValidity hq hv
      rw [hsame.eq_ok] at hv'
      exact ⟨q₁, EigenDAPreimageSource.next_of_attempted (.invalid hv'), hq₁⟩
  | rejected hv hr =>
      obtain ⟨r', q₁, hv', hsame, hq₁⟩ := hsim.getValidity hq hv
      rw [hsame.eq_ok] at hv'
      exact ⟨q₁, EigenDAPreimageSource.next_of_attempted (.rejected hv' hr), hq₁⟩
  | failed hv hr hp =>
      obtain ⟨r', q₁, hv', hsame, hq₁⟩ := hsim.getValidity hq hv
      obtain ⟨r₂, q₂, hp', hsame₂, hq₂⟩ := hsim.getEncodedPayload hq₁ hp
      obtain ⟨e', he', hinto⟩ := hsame₂.eq_error
      rw [hsame.eq_ok] at hv'
      rw [he'] at hp'
      rw [hinto]
      exact ⟨q₂, EigenDAPreimageSource.next_of_attempted (.failed hv' hr hp'),
        hq₂⟩
  | answered hv hr hp =>
      obtain ⟨r', q₁, hv', hsame, hq₁⟩ := hsim.getValidity hq hv
      obtain ⟨r₂, q₂, hp', hsame₂, hq₂⟩ := hsim.getEncodedPayload hq₁ hp
      rw [hsame.eq_ok] at hv'
      rw [hsame₂.eq_ok] at hp'
      exact ⟨q₂, EigenDAPreimageSource.next_of_attempted (.answered hv' hr hp'),
        hq₂⟩

namespace EigenDADataSource

/-- The same state over another provider. -/
def withProvider (s : EigenDADataSource σ π) (q : π') :
    EigenDADataSource σ π' :=
  ⟨s.ethereumSource, q, s.altdaCommitment⟩

variable (E : EthereumDataSource σ) (block : BlockInfo)
  (batcherAddr : Address)

/-- Processing a commitment makes the same of the same answer. -/
theorem process_simulates (hsim : Simulates P P' Q) {c : AltDACommitment}
    {s s₁ : EigenDADataSource σ π} {q : π'} {out : Outcome}
    (hq : Q s.eigendaSource q) (h : process P block c s = some (out, s₁)) :
    ∃ q₁, process P' block c (s.withProvider q)
        = some (out, s₁.withProvider q₁) ∧ Q s₁.eigendaSource q₁ := by
  obtain ⟨r, p, hn, hcase⟩ := process_cases P block h
  obtain ⟨q₁, hn', hq₁⟩ := preimageNext_simulates hsim hq hn
  refine ⟨q₁, ?_⟩
  unfold process withProvider
  simp only [Option.bind_eq_bind, hn', Option.bind_some]
  cases hcase with
  | temporary e => exact ⟨rfl, hq₁⟩
  | critical e => exact ⟨rfl, hq₁⟩
  | discard e => exact ⟨rfl, hq₁⟩
  | undecodable ep e hdec => exact ⟨by simp [hdec], hq₁⟩
  | decoded ep payload hdec => exact ⟨by simp [hdec], hq₁⟩

/-- Fetching does not look at the provider. -/
theorem fetch_withProvider (s : EigenDADataSource σ π) (q : π') :
    fetch E block batcherAddr (s.withProvider q)
      = ((fetch E block batcherAddr s).1,
        (fetch E block batcherAddr s).2.withProvider q) := by
  unfold fetch withProvider clear
  simp only
  split
  · split <;> rfl
  · split
    · rfl
    · split
      · rfl
      · split <;> rfl

/-- Fetching leaves the provider's state alone. -/
theorem fetch_eigendaSource (s : EigenDADataSource σ π) :
    (fetch E block batcherAddr s).2.eigendaSource = s.eigendaSource := by
  unfold fetch clear
  simp only
  split
  · split <;> rfl
  · split
    · rfl
    · split
      · rfl
      · split <;> rfl

/-- One round over the simulating provider. -/
theorem nextBody_simulates (hsim : Simulates P P' Q)
    {s s₁ : EigenDADataSource σ π} {q : π'} {out : Outcome}
    (hq : Q s.eigendaSource q)
    (h : nextBody E P block batcherAddr s = some (out, s₁)) :
    ∃ q₁, nextBody E P' block batcherAddr (s.withProvider q)
        = some (out, s₁.withProvider q₁) ∧ Q s₁.eigendaSource q₁ := by
  have hfetch := fetch_withProvider E block batcherAddr s q
  have heig := fetch_eigendaSource E block batcherAddr s
  have hkept : (s.withProvider q).altdaCommitment = s.altdaCommitment := rfl
  unfold nextBody at h ⊢
  rw [hkept, hfetch]
  cases hs : s.altdaCommitment with
  | some c =>
      simp only [hs, Option.isNone_some, Bool.false_eq_true, if_false, hkept]
        at h ⊢
      exact process_simulates block hsim hq h
  | none =>
      simp only [hs, Option.isNone_none, if_true] at h ⊢
      generalize fetch E block batcherAddr s = f at h heig ⊢
      obtain ⟨returned, t⟩ := f
      cases returned with
      | some r =>
          cases h
          exact ⟨q, rfl, heig ▸ hq⟩
      | none =>
          have hkt : (t.withProvider q).altdaCommitment
              = t.altdaCommitment := rfl
          simp only [hkt] at h heig ⊢
          cases ht : t.altdaCommitment with
          | none => simp [ht] at h
          | some c =>
              simp only [ht] at h ⊢
              exact process_simulates block hsim (heig ▸ hq) h

/-- One call over the simulating provider: the same rounds. -/
theorem next_simulates (hsim : Simulates P P' Q)
    {s s' : EigenDADataSource σ π} {q : π'}
    {r : Except PipelineErrorKind Bytes} (hq : Q s.eigendaSource q)
    (h : next E P block batcherAddr s = some (r, s')) :
    ∃ q', next E P' block batcherAddr (s.withProvider q)
        = some (r, s'.withProvider q') ∧ Q s'.eigendaSource q' := by
  induction rounds_of_next E P block batcherAddr h generalizing q with
  | done hb =>
      obtain ⟨q₁, hb', hq₁⟩ := nextBody_simulates E block batcherAddr hsim hq hb
      exact ⟨q₁, by rw [next_eq, hb'], hq₁⟩
  | again hb rest ih =>
      obtain ⟨q₁, hb', hq₁⟩ := nextBody_simulates E block batcherAddr hsim hq hb
      rw [next_eq, hb] at h
      rw [next_eq, hb']
      exact ih hq₁ h

-- ========================================================== dialogues

/-- What a pipeline can ask of the source. -/
inductive Command where
  | next (block : BlockInfo) (batcherAddr : Address)
  | clear

/-- The source answering a command; `clear` answers nothing. -/
def call {ε : Type} (P : EigenDAPreimageProvider π ε) (x : Command)
    (s : EigenDADataSource σ π) :
    Option (Option (Except PipelineErrorKind Bytes)
      × EigenDADataSource σ π) :=
  match x with
  | .next block batcherAddr =>
      (next E P block batcherAddr s).map fun (r, s') => (some r, s')
  | .clear => some (none, s.clear E)

/-- A dialogue with a source over `P` goes the same way with a source
over a provider that simulates it. -/
theorem dialogue_simulates (hsim : Simulates P P' Q)
    (driver : List (Option (Except PipelineErrorKind Bytes)) →
      Option Command) (n : Nat)
    {answers outs : List (Option (Except PipelineErrorKind Bytes))}
    {s s' : EigenDADataSource σ π} {q : π'} (hq : Q s.eigendaSource q)
    (h : converse (call E P) driver n answers s = some (outs, s')) :
    ∃ q', converse (call E P') driver n answers (s.withProvider q)
        = some (outs, s'.withProvider q') ∧ Q s'.eigendaSource q' := by
  have hcall : ∀ x (s : EigenDADataSource σ π) (t : EigenDADataSource σ π') r s',
      (∃ q, t = s.withProvider q ∧ Q s.eigendaSource q) →
      call E P x s = some (r, s') →
      ∃ t', call E P' x t = some (r, t')
        ∧ ∃ q', t' = s'.withProvider q' ∧ Q s'.eigendaSource q' := by
    intro x s t r s' hrel hx
    obtain ⟨q, rfl, hq⟩ := hrel
    cases x with
    | clear =>
        cases hx
        exact ⟨_, rfl, q, rfl, hq⟩
    | next block batcherAddr =>
        unfold call at hx ⊢
        rw [Option.map_eq_some_iff] at hx
        obtain ⟨⟨r', s₁⟩, hn, heq⟩ := hx
        cases heq
        obtain ⟨q', hn', hq'⟩ := next_simulates E block batcherAddr hsim hq hn
        exact ⟨_, by simp only [hn', Option.map_some], q', rfl, hq'⟩
  obtain ⟨t', ht', q', rfl, hq'⟩ :=
    converse_simulates hcall driver n ⟨q, rfl, hq⟩ h
  exact ⟨q', ht', hq'⟩

end EigenDADataSource

end Sources

-- ============================================================= traces

/-- An answer a provider gave, an error as the derivation takes it. -/
inductive ProviderEvent where
  | validity (c : AltDACommitment) (answer : Except HokuleaErrorKind Bool)
  | encodedPayload (c : AltDACommitment)
      (answer : Except HokuleaErrorKind EncodedPayload)

/-- The provider that keeps a log of its answers, oldest first. -/
def traced (P : EigenDAPreimageProvider π ε) :
    EigenDAPreimageProvider (π × List ProviderEvent) ε where
  getValidity c s := do
    let (r, p) ← P.getValidity c s.1
    return (r, p, s.2 ++ [.validity c (r.mapError P.into)])
  getEncodedPayload c s := do
    let (r, p) ← P.getEncodedPayload c s.1
    return (r, p, s.2 ++ [.encodedPayload c (r.mapError P.into)])
  into := P.into

/-- Keeping a log changes no answer. When `I` holds of the states the
provider goes through and `good` of the answers it gives from such
states, the whole log is good. -/
theorem traced_simulates (P : EigenDAPreimageProvider π ε) {I : π → Prop}
    {good : ProviderEvent → Prop}
    (hvalidity : ∀ {c p r p₁}, I p → P.getValidity c p = some (r, p₁) →
      I p₁ ∧ good (.validity c (r.mapError P.into)))
    (hpayload : ∀ {c p r p₁}, I p → P.getEncodedPayload c p = some (r, p₁) →
      I p₁ ∧ good (.encodedPayload c (r.mapError P.into))) :
    Simulates P (traced P)
      (fun p q => q.1 = p ∧ I p ∧ ∀ event ∈ q.2, good event) := by
  have same : ∀ {α : Type} (r : Except ε α),
      SameAnswer P.into (traced P).into r r := by
    intro α r
    cases r <;> rfl
  have snoc : ∀ {log : List ProviderEvent} {event : ProviderEvent},
      (∀ e ∈ log, good e) → good event → ∀ e ∈ log ++ [event], good e := by
    intro log event hlog hev e he
    rcases List.mem_append.mp he with h | h
    · exact hlog e h
    · rw [List.mem_singleton.mp h]
      exact hev
  constructor
  · intro c p q r p₁ hq h
    obtain ⟨rfl, hI, hlog⟩ := hq
    obtain ⟨hI₁, hgood⟩ := hvalidity hI h
    exact ⟨r, _, by simp [traced, h]; rfl, same r, rfl, hI₁, snoc hlog hgood⟩
  · intro c p q r p₁ hq h
    obtain ⟨rfl, hI, hlog⟩ := hq
    obtain ⟨hI₁, hgood⟩ := hpayload hI h
    exact ⟨r, _, by simp [traced, h]; rfl, same r, rfl, hI₁, snoc hlog hgood⟩

end Hokulea
