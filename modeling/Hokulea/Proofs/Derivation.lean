/-
The derivation of one L1 block.

# What is proved

`drive_items_image`: however the provider fails on the way, the bytes
`next` has returned so far are a prefix of the image of the block's
items, and all of it once the end of the block is reported.

# How

The pending list of a state is what is still to come: the image of the
kept commitment, then the image of the items not yet read
(`pending`). A round either hands over the head of that list or leaves
it as it is (`nextBody_pending`); a call is rounds, and a drive is
calls.

A commitment of an offchain derivation version that is not supported
stays kept, and `next` critical, for ever: its image stays pending.
-/
import Hokulea.Lib.Machine
import Hokulea.Eigenda.DataSource
import Hokulea.Eigenda.TestUtils
import Hokulea.Proofs.PayloadCodec

namespace Hokulea

open Bytes Machine AltDACommitment

-- =============================================== stable providers

section

variable {π ε : Type}

/-- From the states `Inv`, and whatever it is asked, the provider
answers with a temporary error or with the one validity and the one
payload it has for the commitment. -/
structure EigenDAPreimageProvider.Stable (P : EigenDAPreimageProvider π ε)
    (Inv : π → Prop) (validity : AltDACommitment → Bool)
    (payload : AltDACommitment → EncodedPayload) : Prop where
  getValidity : ∀ c p, Inv p → ∃ r p', P.getValidity c p = some (r, p')
    ∧ Inv p' ∧ (r = .ok (validity c)
      ∨ ∃ e text, r = .error e ∧ P.into e = .temporary text)
  getEncodedPayload : ∀ c p, Inv p →
    ∃ r p', P.getEncodedPayload c p = some (r, p')
      ∧ Inv p' ∧ (r = .ok (payload c)
        ∨ ∃ e text, r = .error e ∧ P.into e = .temporary text)

end

-- ======================================================== the image

section Image

variable (validity : AltDACommitment → Bool)
  (payload : AltDACommitment → EncodedPayload) (bn : Nat)

/-- A V4 commitment of derivation version 0 whose reference block is
more than 14400 blocks back. -/
def stale (c : AltDACommitment) : Bool :=
  match c.versionedCert with
  | .v4 cert => cert.offchainDerivationVersion = 0 ∧ c.getRbn + 14400 < bn
  | _ => false

/-- What a commitment contributes: its decoded payload, unless it is
invalid, stale or does not decode. -/
def commitmentImage (c : AltDACommitment) : Option Bytes :=
  if validity c = false then none
  else if stale bn c then none
  else
    match (payload c).decode with
    | some (.ok p) => some p
    | _ => none

/-- What an item contributes: nothing if it is empty or marked as a
commitment and not one, itself if it is not so marked. -/
def itemImage (d : Bytes) : Option Bytes :=
  match d with
  | [] => none
  | b :: rest =>
      if b ≠ ALTDA_DERIVATION_VERSION then some (b :: rest)
      else
        match EigenDAPreimageSource.parse (b :: rest) with
        | .error _ => none
        | .ok c => commitmentImage validity payload bn c

/-- An item that parses contributes what its commitment does. -/
theorem itemImage_commitment {d : Bytes} {c : AltDACommitment}
    (hd : d.head? = some ALTDA_DERIVATION_VERSION)
    (hc : EigenDAPreimageSource.parse d = .ok c) :
    itemImage validity payload bn d
      = commitmentImage validity payload bn c := by
  cases d with
  | nil => cases hd
  | cons b rest =>
      injection hd with hb
      subst hb
      simp only [itemImage, hc, ne_eq, not_true_eq_false, if_false]

/-- An item that is marked and does not parse contributes nothing. -/
theorem itemImage_skipped {d : Bytes}
    (hd : d = [] ∨ (d.head? = some ALTDA_DERIVATION_VERSION
      ∧ ∃ e, EigenDAPreimageSource.parse d = .error e)) :
    itemImage validity payload bn d = none := by
  obtain rfl | ⟨hhead, e, he⟩ := hd
  · rfl
  · cases d with
    | nil => rfl
    | cons b rest =>
        injection hhead with hb
        subst hb
        simp only [itemImage, he, ne_eq, not_true_eq_false, if_false]

/-- An item that is not marked contributes itself. -/
theorem itemImage_passed {d : Bytes}
    (hd : d ≠ [] ∧ d.head? ≠ some ALTDA_DERIVATION_VERSION) :
    itemImage validity payload bn d = some d := by
  cases d with
  | nil => exact absurd rfl hd.1
  | cons b rest =>
      have hb : b ≠ ALTDA_DERIVATION_VERSION := by simpa using hd.2
      simp only [itemImage, if_pos hb]

/-- The recency rule rejects as stale exactly the stale. -/
theorem checkRecency_cases (c : AltDACommitment) :
    (checkRecency c bn = .ok () ∧ stale bn c = false)
      ∨ (checkRecency c bn = .error (.recencyCheckError .notRecentCert)
        ∧ stale bn c = true)
      ∨ ∃ version,
          checkRecency c bn
            = .error (.unsupportedOffchainDerivationVersion version) := by
  obtain ⟨t, d, v⟩ := c
  cases v with
  | v2 cert => exact .inl ⟨rfl, rfl⟩
  | v3 cert => exact .inl ⟨rfl, rfl⟩
  | v4 cert =>
      by_cases hv : cert.offchainDerivationVersion = 0
      case neg =>
        refine .inr (.inr ⟨cert.offchainDerivationVersion, ?_⟩)
        simp only [checkRecency, getRecencyWindow, hv, if_false]
        rfl
      case pos =>
        have hcheck : checkRecency ⟨t, d, .v4 cert⟩ bn
            = recencyCheck bn (AltDACommitment.getRbn ⟨t, d, .v4 cert⟩)
              14400 := by
          simp only [checkRecency, getRecencyWindow, hv, if_true]
          rfl
        by_cases hbn : AltDACommitment.getRbn ⟨t, d, .v4 cert⟩ + 14400 < bn
        · refine .inr (.inl ⟨?_, by simp [stale, hv, hbn]⟩)
          simp [hcheck, recencyCheck, hbn]
        · refine .inl ⟨?_, by simp [stale, hv]; omega⟩
          simp [hcheck, recencyCheck, hbn]

end Image

namespace EigenDADataSource

variable {σ π ε : Type} (E : EthereumDataSource σ)
  (P : EigenDAPreimageProvider π ε) (block : BlockInfo)
  (batcherAddr : Address) {Inv : π → Prop}
  {validity : AltDACommitment → Bool}
  {payload : AltDACommitment → EncodedPayload}

-- ========================================================= one round

/-- What the preimage source answers on a stable provider: an error to
be kept for, a discard of a commitment without an image, or the
payload of a valid commitment that is recent enough. -/
theorem preimageNext_stable (hP : P.Stable Inv validity payload)
    (c : AltDACommitment) (bn : Nat) {p : π} (hp : Inv p) :
    ∃ r p', EigenDAPreimageSource.next P c bn p = some (r, p') ∧ Inv p'
      ∧ ((∃ e, r = .error (.temporary e)) ∨ (∃ e, r = .error (.critical e))
        ∨ (∃ e, r = .error (.discard e)
          ∧ commitmentImage validity payload bn c = none)
        ∨ (r = .ok (payload c) ∧ validity c = true ∧ stale bn c = false)) := by
  obtain ⟨rv, p₁, hv, hp₁, rfl | ⟨e, text, rfl, he⟩⟩ := hP.getValidity c p hp
  case inr =>
    refine ⟨_, p₁, EigenDAPreimageSource.next_of_attempted (.unanswered hv),
      hp₁, .inl ⟨text, ?_⟩⟩
    rw [he]
  cases hval : validity c with
  | false =>
      rw [hval] at hv
      refine ⟨_, p₁, EigenDAPreimageSource.next_of_attempted (.invalid hv),
        hp₁, .inr (.inr (.inl ⟨_, rfl, ?_⟩))⟩
      simp [commitmentImage, hval]
  | true =>
      rw [hval] at hv
      rcases checkRecency_cases bn c with ⟨hr, hs⟩ | ⟨hr, hs⟩ | ⟨version, hr⟩
      · obtain ⟨rp, p₂, hpl, hp₂, rfl | ⟨e, text, rfl, he⟩⟩ :=
          hP.getEncodedPayload c p₁ hp₁
        · exact ⟨_, p₂,
            EigenDAPreimageSource.next_of_attempted (.answered hv hr hpl),
            hp₂, .inr (.inr (.inr ⟨rfl, rfl, hs⟩))⟩
        · refine ⟨_, p₂,
            EigenDAPreimageSource.next_of_attempted (.failed hv hr hpl), hp₂,
            .inl ⟨text, ?_⟩⟩
          rw [he]
      · refine ⟨_, p₁, EigenDAPreimageSource.next_of_attempted (.rejected hv hr),
          hp₁, .inr (.inr (.inl ⟨_, rfl, ?_⟩))⟩
        simp [commitmentImage, hs]
      · exact ⟨_, p₁, EigenDAPreimageSource.next_of_attempted (.rejected hv hr),
          hp₁, .inr (.inl ⟨_, rfl⟩)⟩

-- -------------------------------------------------- the pending list

/-- What is still to come: the image of the kept commitment and of the
items not yet read. -/
def pending (validity : AltDACommitment → Bool)
    (payload : AltDACommitment → EncodedPayload)
    (s : EigenDADataSource σ π) : List Bytes :=
  (s.altdaCommitment.bind
      (commitmentImage validity payload block.number)).toList
    ++ (E.remaining block batcherAddr s.ethereumSource).filterMap
      (itemImage validity payload block.number)

/-- What a returned answer leaves of the pending list `l`: it takes
its bytes off the front, and the end of the block is reported when
there is nothing left. -/
def Accounts (E : EthereumDataSource σ) (block : BlockInfo)
    (batcherAddr : Address) (Inv : π → Prop)
    (validity : AltDACommitment → Bool)
    (payload : AltDACommitment → EncodedPayload) (l : List Bytes)
    (r : Except PipelineErrorKind Bytes) (s' : EigenDADataSource σ π) : Prop :=
  ∃ l', l = okBytes r ++ l'
    ∧ if isEof r then l' = [] else Inv s'.eigendaSource
      ∧ pending E block batcherAddr validity payload s' = l'

/-- Processing a kept commitment hands its image over, drops it when
there is none, or keeps it. -/
theorem process_pending (hP : P.Stable Inv validity payload)
    {c : AltDACommitment} {s : EigenDADataSource σ π}
    (hc : s.altdaCommitment = some c) (hs : Inv s.eigendaSource) :
    ∃ o s', process P block c s = some (o, s')
      ∧ match o with
        | .done r => Accounts E block batcherAddr Inv validity payload
            (pending E block batcherAddr validity payload s) r s'
        | .again => Inv s'.eigendaSource
          ∧ pending E block batcherAddr validity payload s'
            = pending E block batcherAddr validity payload s := by
  obtain ⟨r, p, hn, hp, hr⟩ :=
    preimageNext_stable P hP c block.number hs
  obtain ⟨eth, p₀, kept⟩ := s
  simp only at hc hn
  subst hc
  obtain ⟨e, rfl⟩ | ⟨e, rfl⟩ | ⟨e, rfl, himage⟩ | ⟨rfl, hval, hstale⟩ := hr
  · exact ⟨.done (.error (.temporary (.provider e))), ⟨eth, p, some c⟩,
      by simp [process, hn], _, rfl, hp, rfl⟩
  · exact ⟨.done (.error (.critical (.provider e))), ⟨eth, p, some c⟩,
      by simp [process, hn], _, rfl, hp, rfl⟩
  · exact ⟨.again, ⟨eth, p, none⟩, by simp [process, hn], hp,
      by simp [pending, himage]⟩
  · -- the decoder's verdict on the payload
    obtain ⟨rd, hdec, -⟩ := EncodedPayload.decode_ok_iff (payload c)
    cases rd with
    | error e =>
        have himage : commitmentImage validity payload block.number c = none := by
          simp [commitmentImage, hval, hstale, hdec]
        exact ⟨.again, ⟨eth, p, none⟩, by simp [process, hn, hdec], hp,
          by simp [pending, himage]⟩
    | ok d =>
        have himage :
            commitmentImage validity payload block.number c = some d := by
          simp [commitmentImage, hval, hstale, hdec]
        exact ⟨.done (.ok d), ⟨eth, p, none⟩, by simp [process, hn, hdec], _,
          by simp [pending, himage, okBytes]; rfl, hp, by simp [pending]⟩

/-- A fetch that returns accounts for the item it read. -/
theorem fetched_pending {s s' : EigenDADataSource σ π}
    {r : Except PipelineErrorKind Bytes} (hs : s.altdaCommitment = none)
    (hinv : Inv s.eigendaSource)
    (h : Fetched E block batcherAddr s (some r) s') :
    Accounts E block batcherAddr Inv validity payload
      (pending E block batcherAddr validity payload s) r s' := by
  cases h with
  | exhausted eth hrem =>
      exact ⟨[], by simp [pending, hs, hrem, okBytes], rfl⟩
  | failed e eth he hnext hrem =>
      refine ⟨_, rfl, ?_⟩
      simp [isEof, he, hinv, pending, hs, hrem]
  | skipped d eth hrem hd =>
      refine ⟨_, rfl, hinv, ?_⟩
      simp [pending, hs, hrem, itemImage_skipped _ _ _ hd]
  | passed d eth hrem hd =>
      refine ⟨_, ?_, hinv, rfl⟩
      simp [pending, hs, hrem, okBytes, itemImage_passed _ _ _ hd]

/-- A fetch that keeps a commitment moves its image from the items to
the kept commitment. -/
theorem fetched_kept_pending {s s' : EigenDADataSource σ π}
    (hs : s.altdaCommitment = none)
    (h : Fetched E block batcherAddr s none s') :
    pending E block batcherAddr validity payload s
      = pending E block batcherAddr validity payload s' := by
  cases h with
  | kept d c eth hrem hd hc =>
      have himage := itemImage_commitment validity payload block.number hd hc
      cases hi : commitmentImage validity payload block.number c <;>
        simp [pending, hs, hrem, himage, hi]

/-- One round on a stable provider: it returns, and either accounts
for its answer or leaves the pending list as it is. -/
theorem nextBody_pending (hP : P.Stable Inv validity payload)
    {s : EigenDADataSource σ π} (hs : Inv s.eigendaSource) :
    ∃ o s', nextBody E P block batcherAddr s = some (o, s')
      ∧ match o with
        | .done r => Accounts E block batcherAddr Inv validity payload
            (pending E block batcherAddr validity payload s) r s'
        | .again => Inv s'.eigendaSource
          ∧ pending E block batcherAddr validity payload s'
            = pending E block batcherAddr validity payload s := by
  cases hkept : s.altdaCommitment with
  | some c =>
      rw [nextBody_kept E P block batcherAddr hkept]
      exact process_pending E P block batcherAddr hP hkept hs
  | none =>
      obtain ⟨r, s', hf, hb⟩ | ⟨c, s₁, hf, hc, hb⟩ :=
        nextBody_fetch E P block batcherAddr hkept
      · exact ⟨.done r, s', hb, fetched_pending E block batcherAddr hkept hs hf⟩
      · have hs₁ : Inv s₁.eigendaSource := by cases hf; exact hs
        rw [hb, fetched_kept_pending E block batcherAddr hkept hf]
        exact process_pending E P block batcherAddr hP hc hs₁

-- ==================================================== calls and drives

/-- Derivation of one block from a cleared source, over any number of
calls up to the first `Eof`: the calls return, their bytes are a
prefix of the image of the block's items, and all of it once `Eof` is
among the answers. -/
theorem drive_items_image (hP : P.Stable Inv validity payload)
    (s : EigenDADataSource σ π) (hs : Inv s.eigendaSource) (n : Nat) :
    ∃ outs s', drive (next E P block batcherAddr) isEof n (s.clear E)
        = some (outs, s')
      ∧ outs.flatMap okBytes <+: (E.items block batcherAddr).filterMap
        (itemImage validity payload block.number)
      ∧ (.error eof ∈ outs →
        outs.flatMap okBytes = (E.items block batcherAddr).filterMap
          (itemImage validity payload block.number)) := by
  have hcall : ∀ (s : EigenDADataSource σ π) l, Inv s.eigendaSource
        ∧ pending E block batcherAddr validity payload s = l →
      ∃ r s' l', next E P block batcherAddr s = some (r, s')
        ∧ l = okBytes r ++ l'
        ∧ if isEof r then l' = [] else Inv s'.eigendaSource
          ∧ pending E block batcherAddr validity payload s' = l' := by
    intro s l hs
    obtain ⟨r, s', hn, l', hl'⟩ := next_post E P block batcherAddr
      (fun s (hs : Inv s.eigendaSource
          ∧ pending E block batcherAddr validity payload s = l) => by
        obtain ⟨o, s', hb, ho⟩ := nextBody_pending E P block batcherAddr hP hs.1
        rw [hs.2] at ho
        exact ⟨o, s', hb, ho⟩) hs
    exact ⟨r, s', l', hn, hl'⟩
  have hitems : pending E block batcherAddr validity payload (s.clear E)
      = (E.items block batcherAddr).filterMap
        (itemImage validity payload block.number) := by
    simp [pending, clear, E.remaining_clear]
  obtain ⟨outs, s', l', hd, hl, -, hlast⟩ :=
    drive_pending hcall n (s := s.clear E) ⟨hs, hitems⟩
  refine ⟨outs, s', hd, ⟨l', hl.symm⟩, fun heof => ?_⟩
  have hany : outs.any isEof = true :=
    List.any_eq_true.mpr ⟨_, heof, by simp [isEof]⟩
  rw [if_pos hany] at hlast
  rw [hl, hlast, List.append_nil]

/-- The provider in memory is stable, whatever its script. -/
theorem flakyProvider_stable (validity : AltDACommitment → Bool)
    (payload : AltDACommitment → EncodedPayload) :
    (flakyProvider validity payload).Stable (fun _ => True) validity payload where
  getValidity c script _ := by
    match script with
    | true :: script => exact ⟨_, _, rfl, trivial, .inr ⟨_, _, rfl, rfl⟩⟩
    | false :: script => exact ⟨_, _, rfl, trivial, .inl rfl⟩
    | [] => exact ⟨_, _, rfl, trivial, .inl rfl⟩
  getEncodedPayload c script _ := by
    match script with
    | true :: script => exact ⟨_, _, rfl, trivial, .inr ⟨_, _, rfl, rfl⟩⟩
    | false :: script => exact ⟨_, _, rfl, trivial, .inl rfl⟩
    | [] => exact ⟨_, _, rfl, trivial, .inl rfl⟩

/-- A block of an empty item, a plain item and two commitments of which
one is valid, on a provider whose first and third call fail. -/
theorem drive_items_image_flaky :
    let items := [[], [5], 1 :: (zeroCommitment 0 2).toRlpBytes,
      1 :: (zeroCommitment 1 2).toRlpBytes]
    let validity := (· == zeroCommitment 1 2)
    let payload := fun _ => ⟨EncodedPayload.encodeV0 1 [7]⟩
    let E := listSource items
    let P := flakyProvider validity payload
    ∃ outs s', drive (next E P (testBlock 3) testAddress) isEof 9
        (clear E ⟨[], [true, false, true], none⟩) = some (outs, s')
      ∧ outs.flatMap okBytes <+: items.filterMap (itemImage validity payload 3)
      ∧ (.error eof ∈ outs → outs.flatMap okBytes
        = items.filterMap (itemImage validity payload 3)) :=
  drive_items_image _ _ (testBlock 3) testAddress (flakyProvider_stable _ _)
    ⟨[], [true, false, true], none⟩ trivial 9

end EigenDADataSource

end Hokulea
