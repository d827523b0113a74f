/-
One call of `EigenDADataSource::next`: how often it calls itself, and
what it leaves behind.

# The further calls

A call that discards the commitment it took calls `next` again. It has
then used up the kept commitment or an item, so `measure` bounds every
chain of such calls (`Path.length_add_le`), whatever the provider
answers on the way.

# What is left

The last of the calls reads nothing more, and there are two ways to
its end: an early return, made before any commitment is kept, and the
answer to an attempt. A commitment outlives only an attempt whose
error is temporary or critical, and it is the one attempted.

A provider that panics is what remains: it takes the call down with it
(`next_eq_none_iff`), and nothing else does.
-/
import Hokulea.Lib.Machine
import Hokulea.Proofs.PayloadCodec
import Hokulea.Eigenda.DataSource

namespace Hokulea

open Bytes Machine

namespace EigenDADataSource

variable {σ π ε : Type}

section OneCall

variable (E : EthereumDataSource σ) (P : EigenDAPreimageProvider π ε)
  (block : BlockInfo) (batcherAddr : Address)

-- ============================================================ one round

/-- The commitment a call takes up, and the state it takes it up in:
the one that is kept, or that of the next item. -/
inductive Takes (s : EigenDADataSource σ π) :
    AltDACommitment → EigenDADataSource σ π → Prop
  | kept {c : AltDACommitment} (hs : s.altdaCommitment = some c) : Takes s c s
  | fetched {c : AltDACommitment} {s₁ : EigenDADataSource σ π}
      (hs : s.altdaCommitment = none)
      (hf : fetch E block batcherAddr s = (none, s₁))
      (hc : s₁.altdaCommitment = some c) : Takes s c s₁

/-- The call discards the commitment it takes up, and calls `next`
again. -/
def Discards (s : EigenDADataSource σ π) (c : AltDACommitment)
    (s' : EigenDADataSource σ π) : Prop :=
  ∃ s₁, Takes E block batcherAddr s c s₁
    ∧ process P block c s₁ = some (.again, s')

/-- The EigenDA source raises a temporary or a critical error for the
commitment the call takes up, and the call ends in it. -/
inductive Raises (s : EigenDADataSource σ π) (c : AltDACommitment) :
    Except PipelineErrorKind Bytes → Prop
  | temporary {s₁ : EigenDADataSource σ π} {p : π} {e : String}
      (ht : Takes E block batcherAddr s c s₁)
      (hn : EigenDAPreimageSource.next P c block.number s₁.eigendaSource
        = some (.error (.temporary e), p)) :
      Raises s c (.error (.temporary (.provider e)))
  | critical {s₁ : EigenDADataSource σ π} {p : π} {e : String}
      (ht : Takes E block batcherAddr s c s₁)
      (hn : EigenDAPreimageSource.next P c block.number s₁.eigendaSource
        = some (.error (.critical e), p)) :
      Raises s c (.error (.critical (.provider e)))

/-- The provider panics on the commitment the call takes up. -/
def ProviderPanics (s : EigenDADataSource σ π) : Prop :=
  ∃ c s₁, Takes E block batcherAddr s c s₁
    ∧ EigenDAPreimageSource.Panicked P c block.number s₁.eigendaSource

/-- What a call that began in `s` and did not call itself has returned
and left behind. -/
structure CleanReturn (s : EigenDADataSource σ π)
    (r : Except PipelineErrorKind Bytes) (s' : EigenDADataSource σ π) :
    Prop where
  /-- A commitment is kept exactly if the EigenDA source raised the
  error for it. -/
  kept_iff : ∀ c, s'.altdaCommitment = some c
    ↔ Raises E P block batcherAddr s c r
  ok : ∀ d, r = .ok d → s'.altdaCommitment = none
  eof : r = .error eof → s'.altdaCommitment = none
  notEnoughData : r = .error (.temporary .notEnoughData) →
    s'.altdaCommitment = none
  /-- An error of the Ethereum source is returned as it is. -/
  ethereum : ∀ e eth, s.altdaCommitment = none →
    E.next block batcherAddr s.ethereumSource = (.error e, eth) →
    r = .error e ∧ s'.altdaCommitment = none

variable {E P block batcherAddr}

/-- A call takes up one commitment at most. -/
theorem Takes.unique {s s₁ s₂ : EigenDADataSource σ π} {c d : AltDACommitment}
    (h : Takes E block batcherAddr s c s₁)
    (h' : Takes E block batcherAddr s d s₂) : c = d ∧ s₁ = s₂ := by
  cases h with
  | kept hs =>
      cases h' with
      | kept hs' =>
          rw [hs] at hs'
          exact ⟨Option.some.inj hs', rfl⟩
      | fetched hs' _ _ =>
          rw [hs] at hs'
          cases hs'
  | fetched hs hf hc =>
      cases h' with
      | kept hs' =>
          rw [hs] at hs'
          cases hs'
      | fetched _ hf' hc' =>
          rw [hf] at hf'
          obtain ⟨-, rfl⟩ := Prod.mk.inj hf'
          rw [hc] at hc'
          exact ⟨Option.some.inj hc', rfl⟩

/-- In the state it is taken up in, the commitment is kept. -/
theorem Takes.altdaCommitment_eq {s s₁ : EigenDADataSource σ π}
    {c : AltDACommitment} (h : Takes E block batcherAddr s c s₁) :
    s₁.altdaCommitment = some c := by
  cases h with
  | kept hs => exact hs
  | fetched _ _ hc => exact hc

/-- The rest of the body is the processing of that commitment. -/
theorem Takes.nextBody_eq {s s₁ : EigenDADataSource σ π} {c : AltDACommitment}
    (h : Takes E block batcherAddr s c s₁) :
    nextBody E P block batcherAddr s = process P block c s₁ := by
  cases h with
  | kept hs => exact nextBody_kept E P block batcherAddr hs
  | fetched hs hf hc => simp [nextBody, hs, hf, hc]

/-- A call that returns early takes up none. -/
theorem not_takes {s s₁ : EigenDADataSource σ π} {c : AltDACommitment}
    {r : Except PipelineErrorKind Bytes} (hs : s.altdaCommitment = none)
    (hf : (fetch E block batcherAddr s).1 = some r) :
    ¬ Takes E block batcherAddr s c s₁ := by
  intro ht
  cases ht with
  | kept hs' =>
      rw [hs] at hs'
      cases hs'
  | fetched _ hf' _ =>
      rw [hf'] at hf
      cases hf

/-- An error is raised for a commitment the call takes up. -/
theorem Raises.takes {s : EigenDADataSource σ π} {c : AltDACommitment}
    {r : Except PipelineErrorKind Bytes}
    (h : Raises E P block batcherAddr s c r) :
    ∃ s₁, Takes E block batcherAddr s c s₁ := by
  cases h with
  | temporary ht _ => exact ⟨_, ht⟩
  | critical ht _ => exact ⟨_, ht⟩

/-- Where the commitment the error was raised for is kept, it is the
only one to be either. -/
theorem Raises.kept_iff {s s' : EigenDADataSource σ π} {c d : AltDACommitment}
    {r : Except PipelineErrorKind Bytes}
    (h : Raises E P block batcherAddr s d r)
    (hkept : s'.altdaCommitment = some d) :
    s'.altdaCommitment = some c ↔ Raises E P block batcherAddr s c r := by
  rw [hkept]
  constructor
  · intro hc
    rw [← Option.some.inj hc]
    exact h
  · intro h'
    obtain ⟨s₁, ht⟩ := h.takes
    obtain ⟨s₂, ht'⟩ := h'.takes
    rw [(ht.unique ht').1]

variable (E P block batcherAddr)

/-- A call takes up a commitment, or it returns early with none
kept. -/
theorem takes_or_returns (s : EigenDADataSource σ π) :
    (∃ c s₁, Takes E block batcherAddr s c s₁)
      ∨ (s.altdaCommitment = none ∧ ∃ r s',
        fetch E block batcherAddr s = (some r, s')
          ∧ s'.altdaCommitment = none
          ∧ nextBody E P block batcherAddr s = some (.done r, s')) := by
  cases hs : s.altdaCommitment with
  | some c => exact .inl ⟨c, s, .kept hs⟩
  | none =>
      have hcases := fetch_cases E block batcherAddr hs
      cases hf : fetch E block batcherAddr s with
      | mk returned s' =>
          rw [hf] at hcases
          cases returned with
          | none =>
              have hkept : ∃ c, s'.altdaCommitment = some c := by
                cases hcases
                exact ⟨_, rfl⟩
              obtain ⟨c, hc⟩ := hkept
              exact .inl ⟨c, s', .fetched hs hf hc⟩
          | some r =>
              have hnone : s'.altdaCommitment = none := by
                cases hcases <;> rfl
              exact .inr ⟨rfl, r, s', rfl, hnone, by simp [nextBody, hs, hf]⟩

/-- The body calls `next` again exactly on a discard. -/
theorem nextBody_again_iff {s s' : EigenDADataSource σ π} :
    nextBody E P block batcherAddr s = some (.again, s')
      ↔ ∃ c, Discards E P block batcherAddr s c s' := by
  constructor
  · intro h
    rcases takes_or_returns E P block batcherAddr s with htakes | hreturns
    · obtain ⟨c, s₁, ht⟩ := htakes
      rw [ht.nextBody_eq] at h
      exact ⟨c, s₁, ht, h⟩
    · obtain ⟨-, r, s₁, -, -, hb⟩ := hreturns
      rw [hb] at h
      cases h
  · intro h
    obtain ⟨c, s₁, ht, hp⟩ := h
    rw [ht.nextBody_eq]
    exact hp

/-- Processing is as total as the attempt: the decoder does not
panic. -/
theorem process_eq_none {c : AltDACommitment} {s : EigenDADataSource σ π}
    (h : process P block c s = none) :
    EigenDAPreimageSource.next P c block.number s.eigendaSource = none := by
  unfold process at h
  rcases hn : EigenDAPreimageSource.next P c block.number s.eigendaSource with
    _ | ⟨r, p⟩
  · rfl
  rw [hn, Option.bind_eq_bind, Option.bind_some] at h
  cases r with
  | error e => cases e <;> cases h
  | ok encodedPayload =>
      obtain ⟨decoded, hdecode, -⟩ := EncodedPayload.decode_ok_iff encodedPayload
      simp only [hdecode] at h
      cases decoded <;> cases h

/-- The body panics only with the provider. -/
theorem nextBody_eq_none {s : EigenDADataSource σ π}
    (h : nextBody E P block batcherAddr s = none) :
    ProviderPanics E P block batcherAddr s := by
  rcases takes_or_returns E P block batcherAddr s with htakes | hreturns
  · obtain ⟨c, s₁, ht⟩ := htakes
    rw [ht.nextBody_eq] at h
    exact ⟨c, s₁, ht,
      EigenDAPreimageSource.next_eq_none_iff.mp (process_eq_none P block h)⟩
  · obtain ⟨-, r, s', -, -, hb⟩ := hreturns
    rw [hb] at h
    cases h

/-- What is kept after a call that does not call itself. -/
theorem kept_iff_raises {s s' : EigenDADataSource σ π}
    {r : Except PipelineErrorKind Bytes}
    (h : nextBody E P block batcherAddr s = some (.done r, s'))
    (c : AltDACommitment) :
    s'.altdaCommitment = some c ↔ Raises E P block batcherAddr s c r := by
  rcases takes_or_returns E P block batcherAddr s with htakes | hreturns
  · obtain ⟨d, s₁, ht⟩ := htakes
    have hkept := ht.altdaCommitment_eq
    rw [ht.nextBody_eq] at h
    obtain ⟨answer, p, hn, hcase⟩ := process_cases P block h
    cases hcase with
    | temporary e => exact (Raises.temporary ht hn).kept_iff hkept
    | critical e => exact (Raises.critical ht hn).kept_iff hkept
    | decoded ep payload hdec => exact iff_of_false nofun nofun
  · -- an early return: nothing was taken up
    obtain ⟨hs, r', s₁, hf, hnone, hb⟩ := hreturns
    rw [hb] at h
    obtain ⟨-, rfl⟩ := Prod.mk.inj (Option.some.inj h)
    refine iff_of_false (by simp [hnone]) fun hr => ?_
    obtain ⟨s₂, ht⟩ := hr.takes
    exact not_takes hs (by rw [hf]) ht

/-- An error of the Ethereum source is returned early. -/
theorem nextBody_ethereum {s s' : EigenDADataSource σ π}
    {r : Except PipelineErrorKind Bytes} {e : PipelineErrorKind} {eth : σ}
    (hs : s.altdaCommitment = none)
    (hnext : E.next block batcherAddr s.ethereumSource = (.error e, eth))
    (h : nextBody E P block batcherAddr s = some (.done r, s')) :
    r = .error e ∧ s'.altdaCommitment = none := by
  have hf : (fetch E block batcherAddr s).1 = some (.error e) := by
    unfold fetch
    rw [hnext]
    by_cases he : e = eof <;> simp [he]
  rcases takes_or_returns E P block batcherAddr s with htakes | hreturns
  · obtain ⟨c, s₁, ht⟩ := htakes
    exact absurd ht (not_takes hs hf)
  · obtain ⟨-, r', s₁, hf', hnone, hb⟩ := hreturns
    rw [hf'] at hf
    rw [hb] at h
    obtain ⟨hr, rfl⟩ := Prod.mk.inj (Option.some.inj h)
    injection hr with hr
    injection hf with hf
    exact ⟨hr ▸ hf, hnone⟩

/-- A call that does not call itself leaves a clean state. -/
theorem cleanReturn {s s' : EigenDADataSource σ π}
    {r : Except PipelineErrorKind Bytes}
    (h : nextBody E P block batcherAddr s = some (.done r, s')) :
    CleanReturn E P block batcherAddr s r s' := by
  have hkept := kept_iff_raises E P block batcherAddr h
  have hnone : (∀ c, ¬ Raises E P block batcherAddr s c r) →
      s'.altdaCommitment = none := by
    intro hnot
    apply Option.eq_none_iff_forall_ne_some.mpr
    intro c hc
    exact hnot c ((hkept c).mp hc)
  constructor
  · exact hkept
  · intro d hr
    subst hr
    exact hnone fun c => nofun
  · intro hr
    subst hr
    exact hnone fun c => nofun
  · intro hr
    subst hr
    exact hnone fun c => nofun
  · intro e eth hs hnext
    exact nextBody_ethereum E P block batcherAddr hs hnext h

-- ========================================================== the whole call

/-- A discard uses up an item or the kept commitment. -/
theorem Discards.measure_lt {s s' : EigenDADataSource σ π}
    {c : AltDACommitment} (h : Discards E P block batcherAddr s c s') :
    s'.measure E block batcherAddr < s.measure E block batcherAddr :=
  nextBody_again_lt E P block batcherAddr
    ((nextBody_again_iff E P block batcherAddr).mpr ⟨c, h⟩)

/-- A call comes to what the last of its further calls comes to. -/
theorem next_eq_of_path {s s' : EigenDADataSource σ π}
    {dropped : List AltDACommitment}
    (h : Path (Discards E P block batcherAddr) s dropped s') :
    next E P block batcherAddr s = next E P block batcherAddr s' := by
  refine h.relates (R := fun s s' =>
    next E P block batcherAddr s = next E P block batcherAddr s')
    (fun _ => rfl) (fun h h' => h.trans h') fun hdiscards => ?_
  rw [next_eq, (nextBody_again_iff E P block batcherAddr).mpr ⟨_, hdiscards⟩]

/-- One call, from any state and whatever the provider answers: every
chain of discards has at most one commitment more than there are items
left, and the chain that ends does so in a call that returns with a
clean state, or in a panic of the provider. -/
theorem next_returns_clean (s : EigenDADataSource σ π) :
    (∀ dropped s₁, Path (Discards E P block batcherAddr) s dropped s₁ →
      dropped.length
        ≤ (E.remaining block batcherAddr s.ethereumSource).length + 1)
    ∧ ∃ dropped s₁, Path (Discards E P block batcherAddr) s dropped s₁
      ∧ ((∃ r s', next E P block batcherAddr s = some (r, s')
            ∧ nextBody E P block batcherAddr s₁ = some (.done r, s')
            ∧ CleanReturn E P block batcherAddr s₁ r s')
        ∨ (next E P block batcherAddr s = none
            ∧ ProviderPanics E P block batcherAddr s₁)) := by
  constructor
  · intro dropped s₁ hpath
    have hlen := hpath.length_add_le (measure E block batcherAddr)
      (Discards.measure_lt E P block batcherAddr)
    have hmeasure : s.measure E block batcherAddr
        ≤ (E.remaining block batcherAddr s.ethereumSource).length + 1 := by
      unfold measure
      split <;> omega
    omega
  · obtain ⟨dropped, s₁, hpath, hend⟩ := exists_path_to_end
      (measure E block batcherAddr) (Discards.measure_lt E P block batcherAddr) s
    refine ⟨dropped, s₁, hpath, ?_⟩
    rw [next_eq_of_path E P block batcherAddr hpath, next_eq]
    rcases hb : nextBody E P block batcherAddr s₁ with _ | ⟨o, s'⟩
    · exact .inr ⟨rfl, nextBody_eq_none E P block batcherAddr hb⟩
    cases o with
    | done r =>
        exact .inl ⟨r, s', rfl, rfl, cleanReturn E P block batcherAddr hb⟩
    | again =>
        obtain ⟨c, hdiscards⟩ :=
          (nextBody_again_iff E P block batcherAddr).mp hb
        exact absurd hdiscards (hend c s')

end OneCall

end EigenDADataSource

end Hokulea
