/-
`EigenDADataSource` of `eigenda.rs`: the source of batcher data the
derivation pipeline reads a block from.

# State

`altdaCommitment` keeps a commitment between calls: it has been taken
off the Ethereum source, which no longer has it, and stays here while
its validity or payload cannot be had.

# One call

`next` takes the kept commitment, or else the next item of the
Ethereum source, and processes it. A commitment that is to be
discarded makes the source call itself again for the item after it.
`nextBody` is the body up to that tail call; `next` closes the
recursion. Each round of it consumes an item or the kept commitment,
which is why it ends.

# The Ethereum source

kona's `EthereumDataSource` is outside this repository. It is a
structure here, with what the data source relies on as fields: the
items of a block come one by one, other errors consume nothing, and an
exhausted block is reported as `Eof`.
-/
import Mathlib.Order.Basic
import Hokulea.Eigenda.Preimage

namespace Hokulea

open Bytes

-- ============================================================== kona

/-- `PipelineError`, the variants that matter here. -/
inductive PipelineError where
  | eof
  | notEnoughData
  | provider (e : String)
  | other (e : String)
  deriving DecidableEq, Repr

/-- `PipelineErrorKind` -/
inductive PipelineErrorKind where
  | temporary (e : PipelineError)
  | critical (e : PipelineError)
  | reset (e : String)
  deriving DecidableEq, Repr

/-- `PipelineError::Eof.temp()` -/
abbrev eof : PipelineErrorKind := .temporary .eof

/-- `BlockInfo`, an L1 block. -/
structure BlockInfo where
  hash : B256
  number : Nat
  parentHash : B256
  timestamp : Nat
  deriving DecidableEq, Repr

/-- `Address` -/
abbrev Address := { s : Bytes // s.length = 20 }

/-- `EthereumDataSource` over states `σ`: the items a block still
holds, and how reading consumes them. -/
structure EthereumDataSource (σ : Type) where
  next : BlockInfo → Address → σ → Except PipelineErrorKind Bytes × σ
  clear : σ → σ
  /-- The items not yet read, in order. -/
  remaining : BlockInfo → Address → σ → List Bytes
  /-- The items of a whole block. -/
  items : BlockInfo → Address → List Bytes
  next_ok : ∀ {b a s d s'}, next b a s = (.ok d, s') →
    remaining b a s = d :: remaining b a s'
  next_eof : ∀ {b a s s'}, next b a s = (.error eof, s') →
    remaining b a s = []
  next_error : ∀ {b a s e s'}, next b a s = (.error e, s') →
    remaining b a s' = remaining b a s
  remaining_clear : ∀ b a s, remaining b a (clear s) = items b a

/-- `ALTDA_DERIVATION_VERSION` -/
def ALTDA_DERIVATION_VERSION : UInt8 := 1

-- ======================================================= the source

/-- `EigenDADataSource`: the states of its two sources and the kept
commitment. -/
structure EigenDADataSource (σ π : Type) where
  ethereumSource : σ
  eigendaSource : π
  altdaCommitment : Option AltDACommitment

namespace EigenDADataSource

variable {σ π ε : Type}

/-- How far the body of `next` gets: it returns, or it calls `next`
again. -/
inductive Outcome where
  | done (r : Except PipelineErrorKind Bytes)
  | again

section Next

variable (E : EthereumDataSource σ) (P : EigenDAPreimageProvider π ε)
  (block : BlockInfo) (batcherAddr : Address)

/-- `clear` -/
def clear (s : EigenDADataSource σ π) : EigenDADataSource σ π :=
  { s with altdaCommitment := none, ethereumSource := E.clear s.ethereumSource }

/-- The block of `next` that runs when no commitment is kept: an early
return, or `none` with the commitment set. -/
def fetch (s : EigenDADataSource σ π) :
    Option (Except PipelineErrorKind Bytes) × EigenDADataSource σ π :=
  match E.next block batcherAddr s.ethereumSource with
  | (.error e, eth) =>
      let s := { s with ethereumSource := eth }
      if e = eof then (some (.error e), s.clear E) else (some (.error e), s)
  | (.ok localData, eth) =>
      let s := { s with ethereumSource := eth }
      match localData with
      | [] => (some (.error (.temporary .notEnoughData)), s)
      | b :: rest =>
          if b ≠ ALTDA_DERIVATION_VERSION then (some (.ok (b :: rest)), s)
          else
            match EigenDAPreimageSource.parse (b :: rest) with
            | .ok c => (none, { s with altdaCommitment := some c })
            | .error _ => (some (.error (.temporary .notEnoughData)), s)

/-- The rest of `next`, on the commitment it kept. -/
def process (c : AltDACommitment) (s : EigenDADataSource σ π) :
    Option (Outcome × EigenDADataSource σ π) := do
  let (r, p) ← EigenDAPreimageSource.next P c block.number s.eigendaSource
  let s := { s with eigendaSource := p }
  match r with
  | .error (.temporary e) =>
      return (.done (.error (.temporary (.provider e))), s)
  | .error (.discard _) => return (.again, { s with altdaCommitment := none })
  | .error (.critical e) =>
      return (.done (.error (.critical (.provider e))), s)
  | .ok encodedPayload =>
      match ← encodedPayload.decode with
      | .ok payload =>
          return (.done (.ok payload), { s with altdaCommitment := none })
      | .error _ => return (.again, { s with altdaCommitment := none })

/-- The body of `next` up to its call of itself. -/
def nextBody (s : EigenDADataSource σ π) :
    Option (Outcome × EigenDADataSource σ π) :=
  let (returned, s) :=
    if s.altdaCommitment.isNone then fetch E block batcherAddr s
    else (none, s)
  match returned with
  | some r => some (.done r, s)
  | none =>
      match s.altdaCommitment with
      -- `expect("should have altda commitment")`
      | none => none
      | some c => process P block c s

/-- The items and the kept commitment a call can still consume. -/
def measure (s : EigenDADataSource σ π) : Nat :=
  (E.remaining block batcherAddr s.ethereumSource).length
    + if s.altdaCommitment.isSome then 1 else 0

-- ------------------------------------------- what the parts can do

/-- What `fetch` can do when no commitment is kept. -/
inductive Fetched (s : EigenDADataSource σ π) :
    Option (Except PipelineErrorKind Bytes) → EigenDADataSource σ π → Prop
  /-- The block is exhausted; the source is cleared. -/
  | exhausted (eth : σ)
      (hrem : E.remaining block batcherAddr s.ethereumSource = []) :
      Fetched s (some (.error eof))
        ⟨E.clear eth, s.eigendaSource, none⟩
  /-- The Ethereum source fails, and keeps its items. -/
  | failed (e : PipelineErrorKind) (eth : σ) (he : e ≠ eof)
      (hnext : E.next block batcherAddr s.ethereumSource = (.error e, eth))
      (hrem : E.remaining block batcherAddr eth
        = E.remaining block batcherAddr s.ethereumSource) :
      Fetched s (some (.error e)) ⟨eth, s.eigendaSource, none⟩
  /-- An item that is empty, or marked as a commitment and not one. -/
  | skipped (d : Bytes) (eth : σ)
      (hrem : E.remaining block batcherAddr s.ethereumSource
        = d :: E.remaining block batcherAddr eth)
      (hd : d = [] ∨ (d.head? = some ALTDA_DERIVATION_VERSION
        ∧ ∃ e, EigenDAPreimageSource.parse d = .error e)) :
      Fetched s (some (.error (.temporary .notEnoughData)))
        ⟨eth, s.eigendaSource, none⟩
  /-- An item that is not meant for altda. -/
  | passed (d : Bytes) (eth : σ)
      (hrem : E.remaining block batcherAddr s.ethereumSource
        = d :: E.remaining block batcherAddr eth)
      (hd : d ≠ [] ∧ d.head? ≠ some ALTDA_DERIVATION_VERSION) :
      Fetched s (some (.ok d)) ⟨eth, s.eigendaSource, none⟩
  /-- A commitment, now kept. -/
  | kept (d : Bytes) (c : AltDACommitment) (eth : σ)
      (hrem : E.remaining block batcherAddr s.ethereumSource
        = d :: E.remaining block batcherAddr eth)
      (hd : d.head? = some ALTDA_DERIVATION_VERSION)
      (hc : EigenDAPreimageSource.parse d = .ok c) :
      Fetched s none ⟨eth, s.eigendaSource, some c⟩

/-- `fetch` does one of those things. -/
theorem fetch_cases {s : EigenDADataSource σ π} (h : s.altdaCommitment = none) :
    Fetched E block batcherAddr s (fetch E block batcherAddr s).1
      (fetch E block batcherAddr s).2 := by
  obtain ⟨eth, p, kept⟩ := s
  simp only at h
  subst h
  simp only [fetch]
  cases hn : E.next block batcherAddr eth with
  | mk r eth' =>
      cases r with
      | error e =>
          simp only
          split
          case isTrue he =>
            subst he
            exact .exhausted eth' (E.next_eof hn)
          case isFalse he => exact .failed e eth' he hn (E.next_error hn)
      | ok d =>
          have hrem := E.next_ok hn
          cases d with
          | nil => exact .skipped [] eth' hrem (.inl rfl)
          | cons b rest =>
              simp only
              split
              case isTrue hb =>
                exact .passed (b :: rest) eth' hrem ⟨by simp, by simpa using hb⟩
              case isFalse hb =>
                have hhead : (b :: rest).head?
                    = some ALTDA_DERIVATION_VERSION := by simpa using hb
                split
                case h_1 c hc => exact .kept _ c eth' hrem hhead hc
                case h_2 e he =>
                  exact .skipped _ eth' hrem (.inr ⟨hhead, e, he⟩)

/-- What `process` makes of the preimage source's answer; the decoder's
verdict on a payload is the last case distinction. -/
inductive Processed (s : EigenDADataSource σ π) (p : π) :
    Except HokuleaErrorKind EncodedPayload → Outcome →
      EigenDADataSource σ π → Prop
  | temporary (e : String) :
      Processed s p (.error (.temporary e))
        (.done (.error (.temporary (.provider e))))
        { s with eigendaSource := p }
  | critical (e : String) :
      Processed s p (.error (.critical e))
        (.done (.error (.critical (.provider e))))
        { s with eigendaSource := p }
  | discard (e : String) :
      Processed s p (.error (.discard e)) .again
        ⟨s.ethereumSource, p, none⟩
  | undecodable (ep : EncodedPayload) (e : HokuleaStatelessError)
      (hdec : ep.decode = some (.error e)) :
      Processed s p (.ok ep) .again ⟨s.ethereumSource, p, none⟩
  | decoded (ep : EncodedPayload) (payload : Bytes)
      (hdec : ep.decode = some (.ok payload)) :
      Processed s p (.ok ep) (.done (.ok payload))
        ⟨s.ethereumSource, p, none⟩

/-- `process` asks the preimage source and does one of those things
with the answer. -/
theorem process_cases {c : AltDACommitment} {s s' : EigenDADataSource σ π}
    {o : Outcome} (h : process P block c s = some (o, s')) :
    ∃ r p, EigenDAPreimageSource.next P c block.number s.eigendaSource
        = some (r, p) ∧ Processed s p r o s' := by
  simp only [process, Option.bind_eq_bind] at h
  cases hn : EigenDAPreimageSource.next P c block.number s.eigendaSource with
  | none => simp [hn] at h
  | some q =>
      obtain ⟨r, p⟩ := q
      refine ⟨r, p, rfl, ?_⟩
      rw [hn, Option.bind_some] at h
      cases r with
      | error e =>
          cases e <;> cases h <;> constructor
      | ok ep =>
          simp only at h
          cases hd : ep.decode with
          | none => simp [hd] at h
          | some r =>
              rw [hd, Option.bind_some] at h
              cases r with
              | error e => cases h; exact .undecodable ep e hd
              | ok payload => cases h; exact .decoded ep payload hd

/-- With a commitment kept, the body is `process` on it. -/
theorem nextBody_kept {s : EigenDADataSource σ π} {c : AltDACommitment}
    (h : s.altdaCommitment = some c) :
    nextBody E P block batcherAddr s = process P block c s := by
  simp [nextBody, h]

/-- With none kept, the body is `fetch`: its early return, or `process`
on the commitment it set. -/
theorem nextBody_fetch {s : EigenDADataSource σ π}
    (h : s.altdaCommitment = none) :
    (∃ r s', Fetched E block batcherAddr s (some r) s'
      ∧ nextBody E P block batcherAddr s = some (.done r, s'))
    ∨ (∃ c s', Fetched E block batcherAddr s none s'
      ∧ s'.altdaCommitment = some c
      ∧ nextBody E P block batcherAddr s = process P block c s') := by
  have hf := fetch_cases E block batcherAddr h
  simp only [nextBody, h, Option.isNone_none, if_true]
  generalize fetch E block batcherAddr s = q at hf ⊢
  obtain ⟨returned, s'⟩ := q
  cases returned with
  | some r => exact .inl ⟨r, s', hf, rfl⟩
  | none =>
      cases hf with
      | kept d c eth hrem hd hc =>
          exact .inr ⟨c, _, .kept d c eth hrem hd hc, rfl, rfl⟩

/-- An item that parses is processed at once. -/
theorem nextBody_commitment {eth eth' : σ} {p : π} {d : Bytes}
    {c : AltDACommitment} (hd : d.head? = some ALTDA_DERIVATION_VERSION)
    (hnext : E.next block batcherAddr eth = (.ok d, eth'))
    (hc : EigenDAPreimageSource.parse d = .ok c) :
    nextBody E P block batcherAddr ⟨eth, p, none⟩
      = process P block c ⟨eth', p, some c⟩ := by
  cases d with
  | nil => cases hd
  | cons b rest =>
      injection hd with hb
      subst hb
      simp [nextBody, fetch, hnext, hc]

/-- A round that ends in another one has used up an item or the kept
commitment. -/
theorem nextBody_again_lt {s s' : EigenDADataSource σ π}
    (h : nextBody E P block batcherAddr s = some (.again, s')) :
    s'.measure E block batcherAddr < s.measure E block batcherAddr := by
  -- a discard drops the commitment and leaves the items alone
  have hprocess : ∀ {c s₁}, process P block c s₁ = some (.again, s') →
      s₁.altdaCommitment = some c →
      s'.measure E block batcherAddr < s₁.measure E block batcherAddr := by
    intro c s₁ hp hc
    obtain ⟨r, p, -, hcase⟩ := process_cases P block hp
    cases hcase <;> simp [measure, hc]
  cases hs : s.altdaCommitment with
  | some c =>
      rw [nextBody_kept E P block batcherAddr hs] at h
      exact hprocess h hs
  | none =>
      obtain ⟨r, s₁, -, hb⟩ | ⟨c, s₁, hf, hc, hb⟩ :=
        nextBody_fetch E P block batcherAddr hs
      · rw [hb] at h
        cases h
      · rw [hb] at h
        refine lt_of_lt_of_le (hprocess h hc) ?_
        cases hf with
        | kept d c' eth hrem hd hparse => simp [measure, hrem, hs]

-- ------------------------------------------------------------- next

/-- `next` -/
def next (s : EigenDADataSource σ π) :
    Option (Except PipelineErrorKind Bytes × EigenDADataSource σ π) :=
  match _h : nextBody E P block batcherAddr s with
  | none => none
  | some (.done r, s') => some (r, s')
  | some (.again, s') => next s'
termination_by s.measure E block batcherAddr
decreasing_by exact nextBody_again_lt E P block batcherAddr _h

/-- A call of `next`, round by round. -/
theorem next_eq (s : EigenDADataSource σ π) :
    next E P block batcherAddr s
      = match nextBody E P block batcherAddr s with
        | none => none
        | some (.done r, s') => some (r, s')
        | some (.again, s') => next E P block batcherAddr s' := by
  rw [next]
  split <;> simp_all

/-- A call whose first round returns. -/
theorem next_of_done {s s' : EigenDADataSource σ π}
    {r : Except PipelineErrorKind Bytes}
    (h : nextBody E P block batcherAddr s = some (.done r, s')) :
    next E P block batcherAddr s = some (r, s') := by
  rw [next_eq, h]

/-- The rounds of a call that returns. -/
inductive Rounds : EigenDADataSource σ π → Except PipelineErrorKind Bytes →
    EigenDADataSource σ π → Prop
  | done {s s' : EigenDADataSource σ π} {r : Except PipelineErrorKind Bytes}
      (h : nextBody E P block batcherAddr s = some (.done r, s')) :
      Rounds s r s'
  | again {s s₁ s' : EigenDADataSource σ π}
      {r : Except PipelineErrorKind Bytes}
      (h : nextBody E P block batcherAddr s = some (.again, s₁))
      (rest : Rounds s₁ r s') : Rounds s r s'

/-- A call that returned went through rounds: what every round keeps,
the call keeps. -/
theorem rounds_of_next {s s' : EigenDADataSource σ π}
    {r : Except PipelineErrorKind Bytes}
    (h : next E P block batcherAddr s = some (r, s')) :
    Rounds E P block batcherAddr s r s' := by
  induction hm : s.measure E block batcherAddr using Nat.strong_induction_on
    generalizing s with
  | _ m ih =>
      rw [next_eq] at h
      cases hb : nextBody E P block batcherAddr s with
      | none => simp [hb] at h
      | some q =>
          obtain ⟨o, s₁⟩ := q
          rw [hb] at h
          cases o with
          | done r₁ =>
              cases h
              exact .done hb
          | again =>
              refine .again hb (ih _ ?_ h rfl)
              exact hm ▸ nextBody_again_lt E P block batcherAddr hb

/-- What every attempt at a commitment of the block does to the
provider, a call does. -/
theorem next_provider {R : π → π → Prop} (hrefl : ∀ p, R p p)
    (htrans : ∀ {p p' p''}, R p p' → R p' p'' → R p p'')
    (hattempt : ∀ {c p r p'},
      EigenDAPreimageSource.next P c block.number p = some (r, p') → R p p')
    {s s' : EigenDADataSource σ π} {r : Except PipelineErrorKind Bytes}
    (h : next E P block batcherAddr s = some (r, s')) :
    R s.eigendaSource s'.eigendaSource := by
  have hprocess : ∀ {c o} {s s' : EigenDADataSource σ π},
      process P block c s = some (o, s') →
      R s.eigendaSource s'.eigendaSource := by
    intro c o s s' hp
    obtain ⟨r, p, hn, hcase⟩ := process_cases P block hp
    have hprov : s'.eigendaSource = p := by cases hcase <;> rfl
    exact hprov ▸ hattempt hn
  have hround : ∀ {o} {s s' : EigenDADataSource σ π},
      nextBody E P block batcherAddr s = some (o, s') →
      R s.eigendaSource s'.eigendaSource := by
    intro o s s' hb
    cases hs : s.altdaCommitment with
    | some c =>
        rw [nextBody_kept E P block batcherAddr hs] at hb
        exact hprocess hb
    | none =>
        obtain ⟨r, s₁, hf, hbody⟩ | ⟨c, s₁, hf, -, hbody⟩ :=
          nextBody_fetch E P block batcherAddr hs
        · rw [hbody] at hb
          cases hb
          have hprov : s'.eigendaSource = s.eigendaSource := by cases hf <;> rfl
          exact hprov ▸ hrefl _
        · rw [hbody] at hb
          have hprov : s₁.eigendaSource = s.eigendaSource := by cases hf; rfl
          exact hprov ▸ hprocess hb
  induction rounds_of_next E P block batcherAddr h with
  | done hb => exact hround hb
  | again hb _ ih =>
      rw [next_eq, hb] at h
      exact htrans (hround hb) (ih h)

/-- A call that is to return with `Post`: each round from `Pre` returns
with `Post`, or goes on from `Pre`. -/
theorem next_post {Pre : EigenDADataSource σ π → Prop}
    {Post : Except PipelineErrorKind Bytes → EigenDADataSource σ π → Prop}
    (hbody : ∀ s, Pre s → ∃ o s',
      nextBody E P block batcherAddr s = some (o, s')
        ∧ match o with
          | .done r => Post r s'
          | .again => Pre s')
    {s : EigenDADataSource σ π} (hs : Pre s) :
    ∃ r s', next E P block batcherAddr s = some (r, s') ∧ Post r s' := by
  induction hm : s.measure E block batcherAddr using Nat.strong_induction_on
    generalizing s with
  | _ m ih =>
      obtain ⟨o, s₁, hb, hpost⟩ := hbody s hs
      rw [next_eq, hb]
      cases o with
      | done r => exact ⟨r, s₁, rfl, hpost⟩
      | again =>
          exact ih _ (hm ▸ nextBody_again_lt E P block batcherAddr hb) hpost rfl

end Next

-- ------------------------------------------------ what a caller sees

/-- The bytes a call returned, if it did. -/
def okBytes (r : Except PipelineErrorKind Bytes) : List Bytes :=
  match r with
  | .ok d => [d]
  | .error _ => []

/-- The block's end was reported. -/
def isEof (r : Except PipelineErrorKind Bytes) : Bool :=
  match r with
  | .ok _ => false
  | .error e => e = eof

end EigenDADataSource

end Hokulea
