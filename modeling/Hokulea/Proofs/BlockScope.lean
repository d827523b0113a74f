/-
Deriving a chain of blocks from a provider that is stable on the
commitments of those blocks, and on no others.

A provider that reads a store by hashed keys can only be trusted for
commitments whose keys do not collide. So what is asked of it is asked
for the commitments that a block's items parse into (`asked`).

# What is proved

- `chain_prefix`: the bytes derived so far are a prefix of the images of
  the blocks in their order, and all of them once every block has
  reported its end. Nothing of a block reaches into the next: the end of
  a block leaves the source cleared (`cleared_of_eof`);
- `chain_image`: when the two sources fail only finitely often, and
  nothing in the blocks is of an unsupported version, enough calls derive
  all of it.

# How

For the first, the provider is made stable everywhere by answering for
the other commitments itself (`onlyFor`); a source within the set cannot
tell the difference. For the second, one measure: what is left to read,
and the failures still to come.
-/
import Hokulea.Proofs.Derivation
import Hokulea.Proofs.Simulation

namespace Hokulea

open Bytes Machine AltDACommitment

-- ================================================= stable on a set

section Providers

variable {π ε : Type}

/-- `Stable`, for the commitments of a set. -/
structure EigenDAPreimageProvider.StableOn (P : EigenDAPreimageProvider π ε)
    (S : Set AltDACommitment) (Inv : π → Prop)
    (validity : AltDACommitment → Bool)
    (payload : AltDACommitment → EncodedPayload) : Prop where
  getValidity : ∀ c ∈ S, ∀ p, Inv p → ∃ r p',
    P.getValidity c p = some (r, p') ∧ Inv p' ∧ (r = .ok (validity c)
      ∨ ∃ e text, r = .error e ∧ P.into e = .temporary text)
  getEncodedPayload : ∀ c ∈ S, ∀ p, Inv p → ∃ r p',
    P.getEncodedPayload c p = some (r, p') ∧ Inv p' ∧ (r = .ok (payload c)
      ∨ ∃ e text, r = .error e ∧ P.into e = .temporary text)

/-- A smaller set asks for less. -/
theorem EigenDAPreimageProvider.StableOn.mono
    {P : EigenDAPreimageProvider π ε} {S T : Set AltDACommitment}
    {Inv : π → Prop} {validity : AltDACommitment → Bool}
    {payload : AltDACommitment → EncodedPayload}
    (hP : P.StableOn S Inv validity payload) (hST : T ⊆ S) :
    P.StableOn T Inv validity payload where
  getValidity c hc := hP.getValidity c (hST hc)
  getEncodedPayload c hc := hP.getEncodedPayload c (hST hc)

/-- What every answer keeps may be asked of the states besides. -/
theorem EigenDAPreimageProvider.StableOn.keeping
    {P : EigenDAPreimageProvider π ε} {S : Set AltDACommitment}
    {Inv J : π → Prop} {validity : AltDACommitment → Bool}
    {payload : AltDACommitment → EncodedPayload}
    (hP : P.StableOn S Inv validity payload)
    (hvalidity : ∀ {c p r p'}, J p → P.getValidity c p = some (r, p') → J p')
    (hpayload : ∀ {c p r p'}, J p →
      P.getEncodedPayload c p = some (r, p') → J p') :
    P.StableOn S (fun p => Inv p ∧ J p) validity payload where
  getValidity c hc p hp := by
    obtain ⟨r, p', hv, hinv, hr⟩ := hP.getValidity c hc p hp.1
    exact ⟨r, p', hv, ⟨hinv, hvalidity hp.2 hv⟩, hr⟩
  getEncodedPayload c hc p hp := by
    obtain ⟨r, p', hv, hinv, hr⟩ := hP.getEncodedPayload c hc p hp.1
    exact ⟨r, p', hv, ⟨hinv, hpayload hp.2 hv⟩, hr⟩

/-- What the derivation asks for costs nothing when it is answered, and
one of the failures `left` when it is not. -/
structure EigenDAPreimageProvider.FailsAtMost
    (P : EigenDAPreimageProvider π ε) (S : Set AltDACommitment) (bn : Nat)
    (Inv : π → Prop) (left : π → Nat) : Prop where
  getValidity : ∀ c ∈ S, ∀ p r p', Inv p →
    P.getValidity c p = some (r, p') →
    left p' ≤ left p ∧ ∀ e, r = .error e → left p' < left p
  getEncodedPayload : ∀ c ∈ S, ∀ p r p₁ p', Inv p →
    P.getValidity c p = some (.ok true, p₁) → checkRecency c bn = .ok () →
    P.getEncodedPayload c p₁ = some (r, p') →
    left p' ≤ left p ∧ ∀ e, r = .error e → left p' < left p

/-- Fewer states fail no more often. -/
theorem EigenDAPreimageProvider.FailsAtMost.restrict
    {P : EigenDAPreimageProvider π ε} {S : Set AltDACommitment} {bn : Nat}
    {Inv Inv' : π → Prop} {left : π → Nat} (hP : P.FailsAtMost S bn Inv left)
    (hInv : ∀ p, Inv' p → Inv p) : P.FailsAtMost S bn Inv' left where
  getValidity c hc p r p' hp := hP.getValidity c hc p r p' (hInv p hp)
  getEncodedPayload c hc p r p₁ p' hp :=
    hP.getEncodedPayload c hc p r p₁ p' (hInv p hp)

/-- The Ethereum source fails `left` more times at most. -/
structure EthereumDataSource.FailsAtMost {σ : Type}
    (E : EthereumDataSource σ) (block : BlockInfo) (batcherAddr : Address)
    (left : σ → Nat) : Prop where
  next : ∀ s r s', E.next block batcherAddr s = (r, s') →
    left s' ≤ left s ∧ ∀ e, r = .error e → e ≠ eof → left s' < left s
  clear : ∀ s, left (E.clear s) ≤ left s

open Classical in
/-- The provider, asked only for the commitments of a set. -/
noncomputable def onlyFor (S : Set AltDACommitment)
    (validity : AltDACommitment → Bool)
    (payload : AltDACommitment → EncodedPayload)
    (P : EigenDAPreimageProvider π ε) : EigenDAPreimageProvider π ε where
  getValidity c p :=
    if c ∈ S then P.getValidity c p else some (.ok (validity c), p)
  getEncodedPayload c p :=
    if c ∈ S then P.getEncodedPayload c p else some (.ok (payload c), p)
  into := P.into

/-- What it answers outside the set is what it should answer. -/
theorem stable_onlyFor {P : EigenDAPreimageProvider π ε}
    {S : Set AltDACommitment} {Inv : π → Prop}
    {validity : AltDACommitment → Bool}
    {payload : AltDACommitment → EncodedPayload}
    (hP : P.StableOn S Inv validity payload) :
    (onlyFor S validity payload P).Stable Inv validity payload where
  getValidity c p hp := by
    by_cases hc : c ∈ S
    · simpa [onlyFor, hc] using hP.getValidity c hc p hp
    · exact ⟨.ok (validity c), p, by simp [onlyFor, hc], hp, .inl rfl⟩
  getEncodedPayload c p hp := by
    by_cases hc : c ∈ S
    · simpa [onlyFor, hc] using hP.getEncodedPayload c hc p hp
    · exact ⟨.ok (payload c), p, by simp [onlyFor, hc], hp, .inl rfl⟩

/-- Within the set it is the provider. -/
theorem preimageNext_onlyFor {P : EigenDAPreimageProvider π ε}
    {S : Set AltDACommitment} {validity : AltDACommitment → Bool}
    {payload : AltDACommitment → EncodedPayload} {c : AltDACommitment}
    (hc : c ∈ S) (bn : Nat) (p : π) :
    EigenDAPreimageSource.next (onlyFor S validity payload P) c bn p
      = EigenDAPreimageSource.next P c bn p := by
  simp only [EigenDAPreimageSource.next, onlyFor, if_pos hc]

end Providers

namespace EigenDADataSource

variable {σ π ε : Type} (E : EthereumDataSource σ)
  (P : EigenDAPreimageProvider π ε) (block : BlockInfo)
  (batcherAddr : Address) {S : Set AltDACommitment} {Inv : π → Prop}
  {validity : AltDACommitment → Bool}
  {payload : AltDACommitment → EncodedPayload}

-- ============================================== staying within the set

/-- The commitment that is kept, and every one that is yet to be read, is
of the set. -/
structure Within (S : Set AltDACommitment) (s : EigenDADataSource σ π) :
    Prop where
  kept : ∀ c, s.altdaCommitment = some c → c ∈ S
  items : ∀ d ∈ E.remaining block batcherAddr s.ethereumSource, ∀ c,
    EigenDAPreimageSource.parse d = .ok c → c ∈ S

/-- A cleared source is within the set when its block is. -/
theorem within_clear (hitems : ∀ d ∈ E.items block batcherAddr, ∀ c,
      EigenDAPreimageSource.parse d = .ok c → c ∈ S)
    (s : EigenDADataSource σ π) :
    Within E block batcherAddr S (s.clear E) where
  kept c hc := by cases hc
  items d hd c hc := by
    apply hitems d ?_ c hc
    rw [← E.remaining_clear block batcherAddr s.ethereumSource]
    exact hd

/-- A fetch stays within the set. The end of the block clears the source,
so what comes after it is the block again. -/
theorem within_fetched (hitems : ∀ d ∈ E.items block batcherAddr, ∀ c,
      EigenDAPreimageSource.parse d = .ok c → c ∈ S)
    {s s' : EigenDADataSource σ π}
    {o : Option (Except PipelineErrorKind Bytes)}
    (hs : Within E block batcherAddr S s)
    (h : Fetched E block batcherAddr s o s') :
    Within E block batcherAddr S s' := by
  -- an item that was read is off the list, the others stay
  have htail : ∀ {d : Bytes} {eth : σ},
      E.remaining block batcherAddr s.ethereumSource
        = d :: E.remaining block batcherAddr eth →
      ∀ x ∈ E.remaining block batcherAddr eth, ∀ c,
        EigenDAPreimageSource.parse x = .ok c → c ∈ S := by
    intro d eth hrem x hx c hc
    exact hs.items x (by rw [hrem]; exact List.mem_cons_of_mem d hx) c hc
  cases h with
  | exhausted eth hrem =>
      refine ⟨nofun, fun d hd c hc => hitems d ?_ c hc⟩
      rw [← E.remaining_clear block batcherAddr eth]
      exact hd
  | failed e eth he hnext hrem =>
      exact ⟨nofun, fun d hd c hc => hs.items d (hrem ▸ hd) c hc⟩
  | skipped d eth hrem hd => exact ⟨nofun, htail hrem⟩
  | passed d eth hrem hd => exact ⟨nofun, htail hrem⟩
  | kept d c eth hrem hd hc =>
      refine ⟨fun c' hc' => ?_, htail hrem⟩
      cases hc'
      exact hs.items d (by rw [hrem]; exact List.mem_cons_self) c hc

/-- Processing keeps the items, and the commitment or none. -/
theorem within_processed {s s' : EigenDADataSource σ π} {p : π}
    {r : Except HokuleaErrorKind EncodedPayload} {o : Outcome}
    (hs : Within E block batcherAddr S s) (h : Processed s p r o s') :
    Within E block batcherAddr S s' := by
  cases h with
  | temporary e => exact ⟨hs.kept, hs.items⟩
  | critical e => exact ⟨hs.kept, hs.items⟩
  | discard e => exact ⟨nofun, hs.items⟩
  | undecodable ep e hdec => exact ⟨nofun, hs.items⟩
  | decoded ep d hdec => exact ⟨nofun, hs.items⟩

/-- A round within the set: it is one over `onlyFor`, and stays within the
set. -/
theorem nextBody_within (hitems : ∀ d ∈ E.items block batcherAddr, ∀ c,
      EigenDAPreimageSource.parse d = .ok c → c ∈ S)
    {s : EigenDADataSource σ π} (hs : Within E block batcherAddr S s) :
    nextBody E P block batcherAddr s
        = nextBody E (onlyFor S validity payload P) block batcherAddr s
      ∧ ∀ o s', nextBody E P block batcherAddr s = some (o, s') →
        Within E block batcherAddr S s' := by
  -- the processing of a commitment of the set
  have hprocess : ∀ {c} {t : EigenDADataSource σ π},
      t.altdaCommitment = some c → Within E block batcherAddr S t →
      process P block c t
          = process (onlyFor S validity payload P) block c t
        ∧ ∀ o s', process P block c t = some (o, s') →
          Within E block batcherAddr S s' := by
    intro c t hc ht
    constructor
    · unfold process
      rw [preimageNext_onlyFor (ht.kept c hc)]
    · intro o s' h
      obtain ⟨r, p, -, hcase⟩ := process_cases P block h
      exact within_processed E block batcherAddr ht hcase
  cases hkept : s.altdaCommitment with
  | some c =>
      rw [nextBody_kept E P block batcherAddr hkept,
        nextBody_kept E _ block batcherAddr hkept]
      exact hprocess hkept hs
  | none =>
      have hfetched := fetch_cases E block batcherAddr hkept
      have hwithin := within_fetched E block batcherAddr hitems hs hfetched
      simp only [nextBody, hkept, Option.isNone_none, if_true]
      generalize fetch E block batcherAddr s = q at hfetched hwithin ⊢
      obtain ⟨returned, t⟩ := q
      cases returned with
      | some r =>
          refine ⟨rfl, fun o s' h => ?_⟩
          cases h
          exact hwithin
      | none =>
          cases hfetched with
          | kept d c eth hrem hd hc => exact hprocess rfl hwithin

-- ============================================================== safety

/-- A round within the set returns: it accounts for its answer, or leaves
the pending list as it is. -/
theorem nextBody_scoped (hP : P.StableOn S Inv validity payload)
    (hitems : ∀ d ∈ E.items block batcherAddr, ∀ c,
      EigenDAPreimageSource.parse d = .ok c → c ∈ S)
    {s : EigenDADataSource σ π} (hinv : Inv s.eigendaSource)
    (hs : Within E block batcherAddr S s) :
    ∃ o s', nextBody E P block batcherAddr s = some (o, s')
      ∧ Within E block batcherAddr S s'
      ∧ ((∃ r, o = .done r ∧ Accounts E block batcherAddr Inv validity payload
          (pending E block batcherAddr validity payload s) r s')
        ∨ (o = .again ∧ Inv s'.eigendaSource
          ∧ pending E block batcherAddr validity payload s'
            = pending E block batcherAddr validity payload s)) := by
  obtain ⟨hsame, hstays⟩ := @nextBody_within σ π ε E P block batcherAddr S
    validity payload hitems s hs
  obtain ⟨o, s', hb, ho⟩ := nextBody_pending E (onlyFor S validity payload P)
    block batcherAddr (stable_onlyFor hP) hinv
  rw [← hsame] at hb
  refine ⟨o, s', hb, hstays o s' hb, ?_⟩
  cases o with
  | done r => exact .inl ⟨r, rfl, ho⟩
  | again => exact .inr ⟨rfl, ho⟩

/-- A source as it is after `clear`. -/
def Cleared (s : EigenDADataSource σ π) : Prop :=
  s.altdaCommitment = none ∧ ∃ eth, s.ethereumSource = E.clear eth

/-- The end of a block is reported by a fetch, which clears the source and
leaves the provider alone. -/
theorem cleared_of_eof {s s' : EigenDADataSource σ π}
    (h : nextBody E P block batcherAddr s = some (.done (.error eof), s')) :
    s'.eigendaSource = s.eigendaSource ∧ Cleared E s' := by
  -- processing reports errors of the provider only
  have hprocess : ∀ {c} {t : EigenDADataSource σ π},
      process P block c t ≠ some (.done (.error eof), s') := by
    intro c t hp
    obtain ⟨r, p, -, hcase⟩ := process_cases P block hp
    cases hcase
  cases hkept : s.altdaCommitment with
  | some c =>
      rw [nextBody_kept E P block batcherAddr hkept] at h
      exact absurd h hprocess
  | none =>
      obtain ⟨r, s₁, hf, hb⟩ | ⟨c, s₁, hf, hc, hb⟩ :=
        nextBody_fetch E P block batcherAddr hkept
      · rw [hb] at h
        cases h
        cases hf with
        | exhausted eth hrem => exact ⟨rfl, rfl, eth, rfl⟩
        | failed e eth he hnext hrem => exact absurd rfl he
      · rw [hb] at h
        exact absurd h hprocess

/-- One call within the set accounts for its answer. It stays within the
set, or reports the end of the block and leaves the source cleared. -/
theorem next_within (hP : P.StableOn S Inv validity payload)
    (hitems : ∀ d ∈ E.items block batcherAddr, ∀ c,
      EigenDAPreimageSource.parse d = .ok c → c ∈ S)
    {s : EigenDADataSource σ π} {l : List Bytes}
    (hinv : Inv s.eigendaSource) (hs : Within E block batcherAddr S s)
    (hl : pending E block batcherAddr validity payload s = l) :
    ∃ r s' l', next E P block batcherAddr s = some (r, s')
      ∧ l = okBytes r ++ l' ∧ Inv s'.eigendaSource
      ∧ ((isEof r = true ∧ l' = [] ∧ Cleared E s')
        ∨ (isEof r = false ∧ Within E block batcherAddr S s'
          ∧ pending E block batcherAddr validity payload s' = l')) := by
  obtain ⟨r, s', hn, l', hl', hpost⟩ :=
    @next_post σ π ε E P block batcherAddr
      (fun s => Inv s.eigendaSource ∧ Within E block batcherAddr S s
        ∧ pending E block batcherAddr validity payload s = l)
      (fun r s' => ∃ l', l = okBytes r ++ l' ∧ Inv s'.eigendaSource
        ∧ ((isEof r = true ∧ l' = [] ∧ Cleared E s')
          ∨ (isEof r = false ∧ Within E block batcherAddr S s'
            ∧ pending E block batcherAddr validity payload s' = l')))
      (fun s hround => by
        obtain ⟨hinv, hs, hl⟩ := hround
        obtain ⟨o, s', hb, hwithin, ⟨r, rfl, l', hl', hacc⟩ | ⟨rfl, hinv', hpend⟩⟩ :=
          nextBody_scoped E P block batcherAddr hP hitems hinv hs
        · refine ⟨.done r, s', hb, l', hl ▸ hl', ?_⟩
          cases heof : isEof r with
          | true =>
              rw [if_pos heof] at hacc
              have hr : r = .error eof := by
                cases r with
                | ok d => cases heof
                | error e => rw [of_decide_eq_true heof]
              rw [hr] at hb
              obtain ⟨hprov, hcleared⟩ := cleared_of_eof E P block batcherAddr hb
              exact ⟨hprov ▸ hinv, .inl ⟨rfl, hacc, hcleared⟩⟩
          | false =>
              simp only [heof, Bool.false_eq_true, if_false] at hacc
              exact ⟨hacc.1, .inr ⟨rfl, hwithin, hacc.2⟩⟩
        · exact ⟨.again, s', hb, hinv', hwithin, hpend.trans hl⟩)
      s ⟨hinv, hs, hl⟩
  exact ⟨r, s', l', hn, hl', hpost⟩

-- ============================================================== chains

/-- The commitments a block asks for. -/
def asked (E : EthereumDataSource σ) (batcherAddr : Address)
    (block : BlockInfo) : Set AltDACommitment :=
  {c | ∃ d ∈ E.items block batcherAddr, EigenDAPreimageSource.parse d = .ok c}

/-- What a block contributes. -/
def blockImage (E : EthereumDataSource σ) (batcherAddr : Address)
    (validity : AltDACommitment → Bool)
    (payload : AltDACommitment → EncodedPayload) (block : BlockInfo) :
    List Bytes :=
  (E.items block batcherAddr).filterMap
    (itemImage validity payload block.number)

/-- The items of a block parse into what it asks for. -/
theorem parse_mem_asked (block : BlockInfo) :
    ∀ d ∈ E.items block batcherAddr, ∀ c,
      EigenDAPreimageSource.parse d = .ok c → c ∈ asked E batcherAddr block :=
  fun d hd _ hc => ⟨d, hd, hc⟩

/-- A cleared source holds the items of a block, whichever it is. -/
theorem within_cleared {s : EigenDADataSource σ π} (hs : Cleared E s)
    (block : BlockInfo) :
    Within E block batcherAddr (asked E batcherAddr block) s
      ∧ pending E block batcherAddr validity payload s
        = blockImage E batcherAddr validity payload block := by
  obtain ⟨hkept, eth, heth⟩ := hs
  constructor
  · refine ⟨fun c hc => ?_, fun d hd c hc => ?_⟩
    · rw [hkept] at hc
      cases hc
    · rw [heth, E.remaining_clear] at hd
      exact ⟨d, hd, hc⟩
  · simp [pending, blockImage, hkept, heth, E.remaining_clear]

/-- A source on its way through a chain of blocks: what the current block
still owes, and the images of the blocks after it. -/
def OnChain (E : EthereumDataSource σ) (batcherAddr : Address)
    (Inv : π → Prop) (validity : AltDACommitment → Bool)
    (payload : AltDACommitment → EncodedPayload) :
    List BlockInfo → EigenDADataSource σ π → List Bytes → Prop
  | [], _, l => l = []
  | block :: blocks, s, l => Inv s.eigendaSource
    ∧ Within E block batcherAddr (asked E batcherAddr block) s
    ∧ l = pending E block batcherAddr validity payload s
      ++ blocks.flatMap (blockImage E batcherAddr validity payload)

/-- A cleared source is at the beginning of every chain. -/
theorem onChain_cleared {s : EigenDADataSource σ π}
    (hinv : Inv s.eigendaSource) (hs : Cleared E s) (blocks : List BlockInfo) :
    OnChain E batcherAddr Inv validity payload blocks s
      (blocks.flatMap (blockImage E batcherAddr validity payload)) := by
  cases blocks with
  | nil => rfl
  | cons block blocks =>
      obtain ⟨hwithin, hpending⟩ := @within_cleared σ π E batcherAddr validity
        payload s hs block
      refine ⟨hinv, hwithin, ?_⟩
      rw [hpending, List.flatMap_cons]

/-- One call on the way. -/
theorem next_onChain {block : BlockInfo} {blocks : List BlockInfo}
    (hP : P.StableOn (asked E batcherAddr block) Inv validity payload)
    {s : EigenDADataSource σ π} {l : List Bytes}
    (hs : OnChain E batcherAddr Inv validity payload (block :: blocks) s l) :
    ∃ r s' l', next E P block batcherAddr s = some (r, s')
      ∧ l = okBytes r ++ l'
      ∧ OnChain E batcherAddr Inv validity payload
        (if isEof r then blocks else block :: blocks) s' l' := by
  obtain ⟨hinv, hwithin, hl⟩ := hs
  obtain ⟨r, s', l', hn, hl', hinv', ⟨heof, hnil, hcleared⟩ | ⟨heof, hs', hp'⟩⟩ :=
    next_within E P block batcherAddr hP (parse_mem_asked E batcherAddr block)
      hinv hwithin rfl
  · refine ⟨r, s', blocks.flatMap (blockImage E batcherAddr validity payload),
      hn, ?_, ?_⟩
    · rw [hl, hl', hnil, List.append_nil]
    · rw [if_pos heof]
      exact onChain_cleared E batcherAddr hinv' hcleared blocks
  · refine ⟨r, s', l' ++ blocks.flatMap (blockImage E batcherAddr validity
      payload), hn, ?_, ?_⟩
    · rw [hl, hl', List.append_assoc]
    · simp only [heof, Bool.false_eq_true, if_false]
      exact ⟨hinv', hs', by rw [hp']⟩

/-- Deriving a chain of blocks: the bytes so far are a prefix of the
blocks' images, and all of them once every block has reported its
end. -/
theorem chain_prefix (phases : List (BlockInfo × Nat))
    (hP : ∀ block ∈ phases.map Prod.fst,
      P.StableOn (asked E batcherAddr block) Inv validity payload)
    {s : EigenDADataSource σ π} (hinv : Inv s.eigendaSource)
    (hs : Cleared E s) :
    ∃ outs s', drivePhases (fun block => next E P block batcherAddr) isEof
          phases s = some (outs, s')
      ∧ outs.flatMap okBytes <+: (phases.map Prod.fst).flatMap
        (blockImage E batcherAddr validity payload)
      ∧ (outs.countP isEof = phases.length →
        outs.flatMap okBytes = (phases.map Prod.fst).flatMap
          (blockImage E batcherAddr validity payload)) := by
  have hcall : ∀ block blocks (s : EigenDADataSource σ π) l,
      (block :: blocks <:+ phases.map Prod.fst
        ∧ OnChain E batcherAddr Inv validity payload (block :: blocks) s l) →
      ∃ r s' l', next E P block batcherAddr s = some (r, s')
        ∧ l = okBytes r ++ l'
        ∧ (if isEof r then blocks else block :: blocks) <:+ phases.map Prod.fst
        ∧ OnChain E batcherAddr Inv validity payload
          (if isEof r then blocks else block :: blocks) s' l' := by
    intro block blocks s l h
    obtain ⟨hsuffix, hs⟩ := h
    obtain ⟨r, s', l', hn, hl, hs'⟩ := next_onChain E P batcherAddr
      (hP block (hsuffix.subset List.mem_cons_self)) hs
    refine ⟨r, s', l', hn, hl, ?_, hs'⟩
    cases isEof r with
    | true => exact (List.suffix_cons block blocks).trans hsuffix
    | false => exact hsuffix
  obtain ⟨outs, s', hd, hpre, -, hall⟩ := @drivePhases_pending _ _ _ _
    (fun block => next E P block batcherAddr) isEof
    (fun blocks s l => blocks <:+ phases.map Prod.fst
      ∧ OnChain E batcherAddr Inv validity payload blocks s l)
    okBytes hcall (fun s l h => h.2) phases _ _
    ⟨List.suffix_refl _, onChain_cleared E batcherAddr hinv hs _⟩
  exact ⟨outs, s', hd, hpre, hall⟩

-- ==================================================== what attempts keep

/-- What every attempt at a commitment of the set keeps of the provider, a
round within the set keeps. -/
theorem nextBody_keeps {J : π → Prop}
    (hattempt : ∀ {c p r p'}, c ∈ S → J p →
      EigenDAPreimageSource.next P c block.number p = some (r, p') → J p')
    (hitems : ∀ d ∈ E.items block batcherAddr, ∀ c,
      EigenDAPreimageSource.parse d = .ok c → c ∈ S)
    {s s' : EigenDADataSource σ π} {o : Outcome}
    (hs : Within E block batcherAddr S s) (hJ : J s.eigendaSource)
    (h : nextBody E P block batcherAddr s = some (o, s')) :
    J s'.eigendaSource := by
  have hprocess : ∀ {c} {t : EigenDADataSource σ π}, c ∈ S →
      J t.eigendaSource → process P block c t = some (o, s') →
      J s'.eigendaSource := by
    intro c t hc ht hp
    obtain ⟨r, p, hn, hcase⟩ := process_cases P block hp
    have hprov : s'.eigendaSource = p := by cases hcase <;> rfl
    rw [hprov]
    exact hattempt hc ht hn
  cases hkept : s.altdaCommitment with
  | some c =>
      rw [nextBody_kept E P block batcherAddr hkept] at h
      exact hprocess (hs.kept c hkept) hJ h
  | none =>
      obtain ⟨r, s₁, hf, hb⟩ | ⟨c, s₁, hf, hc, hb⟩ :=
        nextBody_fetch E P block batcherAddr hkept
      · rw [hb] at h
        cases h
        have hprov : s'.eigendaSource = s.eigendaSource := by cases hf <;> rfl
        rw [hprov]
        exact hJ
      · rw [hb] at h
        have hprov : s₁.eigendaSource = s.eigendaSource := by cases hf; rfl
        have hwithin := within_fetched E block batcherAddr hitems hs hf
        exact hprocess (hwithin.kept c hc) (hprov ▸ hJ) h

/-- So does a call. It stays within the set, or reports the end of the
block and leaves the source cleared. -/
theorem next_keeps {J : π → Prop}
    (hattempt : ∀ {c p r p'}, c ∈ S → J p →
      EigenDAPreimageSource.next P c block.number p = some (r, p') → J p')
    (hitems : ∀ d ∈ E.items block batcherAddr, ∀ c,
      EigenDAPreimageSource.parse d = .ok c → c ∈ S)
    {s s' : EigenDADataSource σ π} {r : Except PipelineErrorKind Bytes}
    (hs : Within E block batcherAddr S s) (hJ : J s.eigendaSource)
    (h : next E P block batcherAddr s = some (r, s')) :
    J s'.eigendaSource
      ∧ if isEof r then Cleared E s' else Within E block batcherAddr S s' := by
  have hwithin : ∀ {s o s'}, Within E block batcherAddr S s →
      nextBody E P block batcherAddr s = some (o, s') →
      Within E block batcherAddr S s' := fun {s o s'} hs h =>
    (@nextBody_within σ π ε E P block batcherAddr S (fun _ => true)
      (fun _ => ⟨[]⟩) hitems s hs).2 o s' h
  induction rounds_of_next E P block batcherAddr h with
  | @done s s' r hb =>
      refine ⟨nextBody_keeps E P block batcherAddr hattempt hitems hs hJ hb, ?_⟩
      by_cases heof : isEof r = true
      · rw [if_pos heof]
        have hr : r = .error eof := by
          cases r with
          | ok d => cases heof
          | error e => rw [of_decide_eq_true heof]
        rw [hr] at hb
        exact (cleared_of_eof E P block batcherAddr hb).2
      · rw [if_neg heof]
        exact hwithin hs hb
  | again hb _ ih =>
      rw [next_eq, hb] at h
      exact ih (hwithin hs hb)
        (nextBody_keeps E P block batcherAddr hattempt hitems hs hJ hb) h

/-- A source with `J`, on its way through a chain of blocks: it is within
the first one that is left. -/
structure Keeping (E : EthereumDataSource σ) (batcherAddr : Address)
    (blocks : List BlockInfo) (J : π → Prop)
    (x : List BlockInfo × EigenDADataSource σ π) : Prop where
  suffix : x.1 <:+ blocks
  kept : J x.2.eigendaSource
  within : ∀ block rest, x.1 = block :: rest →
    Within E block batcherAddr (asked E batcherAddr block) x.2

/-- And so does a chain of blocks, for the commitments each asks for. -/
theorem chain_keeps {J : π → Prop} {blocks left : List BlockInfo}
    (hattempt : ∀ block ∈ blocks, ∀ {c p r p'}, c ∈ asked E batcherAddr block →
      J p → EigenDAPreimageSource.next P c block.number p = some (r, p') → J p')
    {s s' : EigenDADataSource σ π} {outs : List (Except PipelineErrorKind Bytes)}
    (hs : Cleared E s) (hJ : J s.eigendaSource)
    (hpath : Path (PhaseStep (fun block => next E P block batcherAddr) isEof)
      (blocks, s) outs (left, s')) : J s'.eigendaSource := by
  have hstep : ∀ {x r y},
      PhaseStep (fun block => next E P block batcherAddr) isEof x r y →
      Keeping E batcherAddr blocks J x → Keeping E batcherAddr blocks J y := by
    rintro ⟨xs, s⟩ r ⟨ys, s'⟩ ⟨block, rest, rfl, hcall, hys⟩ ⟨hsuffix, hJ, hin⟩
    obtain ⟨hJ', hnext⟩ := next_keeps E P block batcherAddr
      (hattempt block (hsuffix.subset List.mem_cons_self))
      (parse_mem_asked E batcherAddr block) (hin block rest rfl) hJ hcall
    simp only at hys
    subst hys
    by_cases heof : isEof r = true
    · rw [if_pos heof] at hnext
      refine ⟨?_, hJ', fun block' _ _ => ?_⟩
      · simp only [heof, if_true]
        exact (List.suffix_cons block rest).trans hsuffix
      · exact (@within_cleared σ π E batcherAddr (fun _ => true)
          (fun _ => ⟨[]⟩) s' hnext block').1
    · rw [if_neg heof] at hnext
      refine ⟨?_, hJ', fun block' rest' hblocks => ?_⟩
      · simp only [if_neg heof]
        exact hsuffix
      · simp only [if_neg heof] at hblocks
        cases hblocks
        exact hnext
  have hstart : Keeping E batcherAddr blocks J (blocks, s) :=
    ⟨List.suffix_refl _, hJ, fun block rest _ => (@within_cleared σ π E
      batcherAddr (fun _ => true) (fun _ => ⟨[]⟩) s hs block).1⟩
  exact (Path.relates (R := fun x y => Keeping E batcherAddr blocks J x →
      Keeping E batcherAddr blocks J y) (fun _ h => h)
    (fun h h' hx => h' (h hx)) hstep hpath hstart).kept

-- ============================================================ liveness

/-- The calls and failures still to come, by the failures that the two
sources have left. -/
def toCome (left : π → Nat) (ethLeft : σ → Nat)
    (s : EigenDADataSource σ π) : Nat :=
  left s.eigendaSource + ethLeft s.ethereumSource
    + s.measure E block batcherAddr

variable {left : π → Nat} {ethLeft : σ → Nat}

/-- A fetch reports the end of the block, or uses up a failure or an item,
or keeps a commitment in the place of its item. -/
theorem fetch_progress (hE : E.FailsAtMost block batcherAddr ethLeft)
    {s : EigenDADataSource σ π} (hs : s.altdaCommitment = none) :
    ((fetch E block batcherAddr s).1 = some (.error eof)
        ∧ left (fetch E block batcherAddr s).2.eigendaSource
          + ethLeft (fetch E block batcherAddr s).2.ethereumSource
          ≤ toCome E block batcherAddr left ethLeft s)
      ∨ toCome E block batcherAddr left ethLeft
          (fetch E block batcherAddr s).2
        < toCome E block batcherAddr left ethLeft s
      ∨ ((fetch E block batcherAddr s).1 = none
        ∧ toCome E block batcherAddr left ethLeft
            (fetch E block batcherAddr s).2
          ≤ toCome E block batcherAddr left ethLeft s) := by
  obtain ⟨eth, p, kept⟩ := s
  simp only at hs
  subst hs
  simp only [fetch, toCome, measure]
  rcases hn : E.next block batcherAddr eth with ⟨r, eth'⟩
  obtain ⟨hle, hlt⟩ := hE.next eth r eth' hn
  cases r with
  | error e =>
      by_cases he : e = eof
      · have hclear := hE.clear eth'
        left
        simp only [if_pos he, clear]
        exact ⟨by rw [he], by omega⟩
      · have hless := hlt e rfl he
        have hrem := E.next_error hn
        right
        left
        simp only [if_neg he, hrem]
        omega
  | ok d =>
      have hrem := congrArg List.length (E.next_ok hn)
      rw [List.length_cons] at hrem
      cases d with
      | nil =>
          right
          left
          simp only [Option.isSome_none, Bool.false_eq_true, if_false]
          omega
      | cons b rest =>
          by_cases hb : b = ALTDA_DERIVATION_VERSION
          · simp only [hb, ne_eq, not_true_eq_false, if_false]
            cases hparse : EigenDAPreimageSource.parse
                (ALTDA_DERIVATION_VERSION :: rest) with
            | ok c =>
                right
                right
                simp only [Option.isSome_some, if_true, Option.isSome_none,
                  Bool.false_eq_true, if_false, true_and]
                omega
            | error e =>
                right
                left
                simp only [Option.isSome_none, Bool.false_eq_true, if_false]
                omega
          · right
            left
            simp only [ne_eq, hb, not_false_eq_true, if_true,
              Option.isSome_none, Bool.false_eq_true, if_false]
            omega

/-- An attempt at a commitment of the set uses up a failure, or ends with
an answer that the commitment is not kept on. -/
theorem attempted_progress (hP : P.StableOn S Inv validity payload)
    (hfails : P.FailsAtMost S block.number Inv left)
    (hsupported : ∀ c ∈ S, validity c = true → ∀ version,
      checkRecency c block.number
        ≠ .error (.unsupportedOffchainDerivationVersion version))
    {c : AltDACommitment} (hc : c ∈ S) {p p' : π} (hp : Inv p)
    {r : Except HokuleaErrorKind EncodedPayload}
    (h : EigenDAPreimageSource.Attempted P c block.number p r p') :
    left p' < left p
      ∨ left p' ≤ left p ∧ ((∃ e, r = .error (.discard e)) ∨ ∃ ep, r = .ok ep) := by
  cases h with
  | unanswered hv => exact .inl ((hfails.getValidity c hc p _ _ hp hv).2 _ rfl)
  | invalid hv =>
      exact .inr ⟨(hfails.getValidity c hc p _ _ hp hv).1, .inl ⟨_, rfl⟩⟩
  | rejected hv hr =>
      rename_i e
      refine .inr ⟨(hfails.getValidity c hc p _ _ hp hv).1, .inl ?_⟩
      -- the certificate is valid, so its version is supported
      have hvalid : validity c = true := by
        obtain ⟨rv, p₁, hv', -, rfl | ⟨e', text, rfl, -⟩⟩ :=
          hP.getValidity c hc p hp
        · rw [hv] at hv'
          injection hv' with hv'
          injection hv' with hr' hp'
          exact (Except.ok.inj hr').symm
        · rw [hv] at hv'
          cases hv'
      cases e with
      | unsupportedOffchainDerivationVersion version =>
          exact absurd hr (hsupported c hc hvalid version)
      | insufficientLengthAltDACommimtment => exact ⟨_, rfl⟩
      | parseError e => exact ⟨_, rfl⟩
      | decodingError e => exact ⟨_, rfl⟩
      | recencyCheckError e => exact ⟨_, rfl⟩
  | failed hv hr hpl =>
      exact .inl ((hfails.getEncodedPayload c hc p _ _ _ hp hv hr hpl).2 _ rfl)
  | answered hv hr hpl =>
      exact .inr ⟨(hfails.getEncodedPayload c hc p _ _ _ hp hv hr hpl).1,
        .inr ⟨_, rfl⟩⟩

/-- So does the processing of a kept commitment. -/
theorem process_progress (hP : P.StableOn S Inv validity payload)
    (hfails : P.FailsAtMost S block.number Inv left)
    (hsupported : ∀ c ∈ S, validity c = true → ∀ version,
      checkRecency c block.number
        ≠ .error (.unsupportedOffchainDerivationVersion version))
    {c : AltDACommitment} (hc : c ∈ S) {s s' : EigenDADataSource σ π}
    {o : Outcome} (hkept : s.altdaCommitment = some c)
    (hs : Inv s.eigendaSource) (h : process P block c s = some (o, s')) :
    toCome E block batcherAddr left ethLeft s'
      < toCome E block batcherAddr left ethLeft s := by
  obtain ⟨r, p, hn, hcase⟩ := process_cases P block h
  have hstep := attempted_progress P block hP hfails hsupported hc hs
    (EigenDAPreimageSource.next_cases hn)
  unfold toCome measure
  cases hcase with
  | temporary e =>
      rcases hstep with hlt | ⟨-, ⟨e', he'⟩ | ⟨ep, hep⟩⟩
      · simp only [hkept]
        omega
      · cases he'
      · cases hep
  | critical e =>
      rcases hstep with hlt | ⟨-, ⟨e', he'⟩ | ⟨ep, hep⟩⟩
      · simp only [hkept]
        omega
      · cases he'
      · cases hep
  | discard e =>
      simp only [hkept, Option.isSome_none, Option.isSome_some,
        Bool.false_eq_true, if_false, if_true]
      omega
  | undecodable ep e hdec =>
      simp only [hkept, Option.isSome_none, Option.isSome_some,
        Bool.false_eq_true, if_false, if_true]
      omega
  | decoded ep d hdec =>
      simp only [hkept, Option.isSome_none, Option.isSome_some,
        Bool.false_eq_true, if_false, if_true]
      omega

/-- A round reports the end of the block, or there is less to come. -/
theorem nextBody_progress (hP : P.StableOn S Inv validity payload)
    (hfails : P.FailsAtMost S block.number Inv left)
    (hE : E.FailsAtMost block batcherAddr ethLeft)
    (hitems : ∀ d ∈ E.items block batcherAddr, ∀ c,
      EigenDAPreimageSource.parse d = .ok c → c ∈ S)
    (hsupported : ∀ c ∈ S, validity c = true → ∀ version,
      checkRecency c block.number
        ≠ .error (.unsupportedOffchainDerivationVersion version))
    {s s' : EigenDADataSource σ π} {o : Outcome} (hinv : Inv s.eigendaSource)
    (hs : Within E block batcherAddr S s)
    (h : nextBody E P block batcherAddr s = some (o, s')) :
    (o = .done (.error eof)
        ∧ left s'.eigendaSource + ethLeft s'.ethereumSource
          ≤ toCome E block batcherAddr left ethLeft s)
      ∨ toCome E block batcherAddr left ethLeft s'
        < toCome E block batcherAddr left ethLeft s := by
  cases hkept : s.altdaCommitment with
  | some c =>
      rw [nextBody_kept E P block batcherAddr hkept] at h
      exact .inr (process_progress E P block batcherAddr hP hfails hsupported
        (hs.kept c hkept) hkept hinv h)
  | none =>
      have hstep := @fetch_progress σ π E block batcherAddr left ethLeft hE s
        hkept
      have heig := fetch_eigendaSource E block batcherAddr s
      have hfetched := fetch_cases E block batcherAddr hkept
      have hwithin := within_fetched E block batcherAddr hitems hs hfetched
      simp only [nextBody, hkept, Option.isNone_none, if_true] at h
      generalize fetch E block batcherAddr s = q
        at h hstep heig hfetched hwithin
      obtain ⟨returned, t⟩ := q
      cases returned with
      | some r =>
          cases h
          rcases hstep with ⟨heof, hle⟩ | hlt | ⟨hnone, -⟩
          · rw [Option.some.inj heof]
            exact .inl ⟨rfl, hle⟩
          · exact .inr hlt
          · cases hnone
      | none =>
          right
          cases hfetched with
          | kept d c eth hrem hd hc =>
              have hb : process P block c ⟨eth, s.eigendaSource, some c⟩
                  = some (o, s') := h
              have hless : toCome E block batcherAddr left ethLeft s' < _ :=
                process_progress E P block batcherAddr hP hfails hsupported
                  (s := ⟨eth, s.eigendaSource, some c⟩) (hwithin.kept c rfl)
                  rfl hinv hb
              rcases hstep with ⟨heof, -⟩ | hlt | ⟨-, hle⟩
              · cases heof
              · exact hless.trans hlt
              · exact hless.trans_le hle

/-- A call reports the end of the block, or there is less to come. -/
theorem next_progress (hP : P.StableOn S Inv validity payload)
    (hfails : P.FailsAtMost S block.number Inv left)
    (hE : E.FailsAtMost block batcherAddr ethLeft)
    (hitems : ∀ d ∈ E.items block batcherAddr, ∀ c,
      EigenDAPreimageSource.parse d = .ok c → c ∈ S)
    (hsupported : ∀ c ∈ S, validity c = true → ∀ version,
      checkRecency c block.number
        ≠ .error (.unsupportedOffchainDerivationVersion version))
    {s s' : EigenDADataSource σ π} {r : Except PipelineErrorKind Bytes}
    (hinv : Inv s.eigendaSource) (hs : Within E block batcherAddr S s)
    (h : next E P block batcherAddr s = some (r, s')) :
    (isEof r = true
        ∧ left s'.eigendaSource + ethLeft s'.ethereumSource
          ≤ toCome E block batcherAddr left ethLeft s)
      ∨ toCome E block batcherAddr left ethLeft s'
        < toCome E block batcherAddr left ethLeft s := by
  obtain ⟨r', s'', hn, hpost⟩ := @next_post σ π ε E P block batcherAddr
    (fun t => (Inv t.eigendaSource ∧ Within E block batcherAddr S t)
      ∧ toCome E block batcherAddr left ethLeft t
        ≤ toCome E block batcherAddr left ethLeft s)
    (fun r' t => (isEof r' = true
        ∧ left t.eigendaSource + ethLeft t.ethereumSource
          ≤ toCome E block batcherAddr left ethLeft s)
      ∨ toCome E block batcherAddr left ethLeft t
        < toCome E block batcherAddr left ethLeft s)
    (fun t hround => by
      obtain ⟨⟨hinv, hs⟩, hle⟩ := hround
      obtain ⟨o, t', hb, hwithin, ⟨r', rfl, -⟩ | ⟨rfl, hinv', -⟩⟩ :=
        nextBody_scoped E P block batcherAddr hP hitems hinv hs
      · refine ⟨.done r', t', hb, ?_⟩
        rcases nextBody_progress E P block batcherAddr hP hfails hE hitems
          hsupported hinv hs hb with ⟨hdone, hless⟩ | hlt
        · cases hdone
          exact .inl ⟨rfl, hless.trans hle⟩
        · exact .inr (hlt.trans_le hle)
      · refine ⟨.again, t', hb, ⟨hinv', hwithin⟩, ?_⟩
        rcases nextBody_progress E P block batcherAddr hP hfails hE hitems
          hsupported hinv hs hb with ⟨hdone, -⟩ | hlt
        · cases hdone
        · exact hlt.le.trans hle)
    s ⟨⟨hinv, hs⟩, le_refl _⟩
  rw [h] at hn
  cases hn
  exact hpost

/-- The failures that are left, and the items of the current block and of
the blocks after it. -/
def toComeOnChain (E : EthereumDataSource σ) (batcherAddr : Address)
    (left : π → Nat) (ethLeft : σ → Nat) :
    List BlockInfo → EigenDADataSource σ π → Nat
  | [], s => left s.eigendaSource + ethLeft s.ethereumSource
  | block :: blocks, s => toCome E block batcherAddr left ethLeft s
    + (blocks.map fun b => (E.items b batcherAddr).length).sum

/-- At the beginning of a chain it is all of them. -/
theorem toComeOnChain_cleared {s : EigenDADataSource σ π} (hs : Cleared E s)
    (blocks : List BlockInfo) :
    toComeOnChain E batcherAddr left ethLeft blocks s
      = left s.eigendaSource + ethLeft s.ethereumSource
        + (blocks.map fun b => (E.items b batcherAddr).length).sum := by
  obtain ⟨hkept, eth, heth⟩ := hs
  cases blocks with
  | nil => rfl
  | cons block blocks =>
      simp only [toComeOnChain, toCome, measure, hkept, heth,
        E.remaining_clear, Option.isSome_none, Bool.false_eq_true, if_false,
        List.map_cons, List.sum_cons]
      omega

/-- Enough calls for each block derive the chain: as many as it has items
and as the sources have failures left, and one more. -/
theorem chain_image (phases : List (BlockInfo × Nat))
    (hP : ∀ block ∈ phases.map Prod.fst,
      P.StableOn (asked E batcherAddr block) Inv validity payload)
    (hfails : ∀ block ∈ phases.map Prod.fst,
      P.FailsAtMost (asked E batcherAddr block) block.number Inv left)
    (hE : ∀ block ∈ phases.map Prod.fst,
      E.FailsAtMost block batcherAddr ethLeft)
    (hsupported : ∀ block ∈ phases.map Prod.fst,
      ∀ c ∈ asked E batcherAddr block, validity c = true → ∀ version,
        checkRecency c block.number
          ≠ .error (.unsupportedOffchainDerivationVersion version))
    {s : EigenDADataSource σ π} (hinv : Inv s.eigendaSource)
    (hs : Cleared E s)
    (hn : ∀ phase ∈ phases, left s.eigendaSource + ethLeft s.ethereumSource
      + ((phases.map Prod.fst).map fun b =>
        (E.items b batcherAddr).length).sum < phase.2) :
    ∃ outs s', drivePhases (fun block => next E P block batcherAddr) isEof
          phases s = some (outs, s')
      ∧ outs.countP isEof = phases.length
      ∧ outs.flatMap okBytes = (phases.map Prod.fst).flatMap
        (blockImage E batcherAddr validity payload) := by
  obtain ⟨outs, s', hd, -, hall⟩ :=
    chain_prefix E P batcherAddr phases hP hinv hs
  suffices hends : outs.countP isEof = phases.length from
    ⟨outs, s', hd, hends, hall hends⟩
  have hcall : ∀ block blocks (s : EigenDADataSource σ π) r s',
      (block :: blocks <:+ phases.map Prod.fst
        ∧ ∃ l, OnChain E batcherAddr Inv validity payload (block :: blocks)
          s l) →
      next E P block batcherAddr s = some (r, s') →
      if isEof r then (blocks <:+ phases.map Prod.fst
          ∧ ∃ l, OnChain E batcherAddr Inv validity payload blocks s' l)
        ∧ toComeOnChain E batcherAddr left ethLeft blocks s'
          ≤ toComeOnChain E batcherAddr left ethLeft (block :: blocks) s
      else (block :: blocks <:+ phases.map Prod.fst
          ∧ ∃ l, OnChain E batcherAddr Inv validity payload (block :: blocks)
            s' l)
        ∧ toComeOnChain E batcherAddr left ethLeft (block :: blocks) s'
          < toComeOnChain E batcherAddr left ethLeft (block :: blocks) s := by
    intro block blocks s r s' h hnext
    obtain ⟨hsuffix, l, hinv, hwithin, -⟩ := h
    have hmem := hsuffix.subset List.mem_cons_self
    have hstep := next_progress E P block batcherAddr (hP block hmem)
      (hfails block hmem) (hE block hmem) (parse_mem_asked E batcherAddr block)
      (hsupported block hmem) hinv hwithin hnext
    obtain ⟨r', s'', l', hn', hl', hinv', hcase⟩ := next_within E P block
      batcherAddr (hP block hmem) (parse_mem_asked E batcherAddr block) hinv
      hwithin rfl
    cases Option.some.inj (hnext.symm.trans hn')
    rcases hcase with ⟨heof, -, hcleared⟩ | ⟨heof, hs', -⟩
    · rw [if_pos heof, toComeOnChain_cleared E batcherAddr hcleared]
      refine ⟨⟨(List.suffix_cons block blocks).trans hsuffix, _,
        onChain_cleared E batcherAddr hinv' hcleared blocks⟩, ?_⟩
      simp only [toComeOnChain]
      rcases hstep with ⟨-, hle⟩ | hlt
      · omega
      · unfold toCome at hlt ⊢
        omega
    · simp only [heof, Bool.false_eq_true, if_false]
      refine ⟨⟨hsuffix, _, hinv', hs', rfl⟩, ?_⟩
      simp only [toComeOnChain]
      rcases hstep with ⟨heof', -⟩ | hlt
      · rw [heof] at heof'
        cases heof'
      · omega
  apply @drivePhases_ends _ _ _ (fun block => next E P block batcherAddr) isEof
    (fun blocks s => blocks <:+ phases.map Prod.fst
      ∧ ∃ l, OnChain E batcherAddr Inv validity payload blocks s l)
    (toComeOnChain E batcherAddr left ethLeft) hcall phases s s' outs
    ⟨List.suffix_refl _, _, onChain_cleared E batcherAddr hinv hs _⟩ ?_ hd
  intro phase hphase
  rw [toComeOnChain_cleared E batcherAddr hs]
  exact hn phase hphase

end EigenDADataSource

end Hokulea
