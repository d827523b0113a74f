/-
What is hashed for the two Fiat–Shamir challenges.

Both buffers are allocated in advance and written in pieces. The blob's
is filled from front to back, and holds its parts end to end
(`challengeInput`). In that of the batch the length slots begin eight
bytes before the count and are written over it; what they leave of it
is the 16 bytes behind them (`countGap`, in `batchInput`). No write of
either is out of range, and the offset check of the batch passes.
-/
import Hokulea.Kzg.Batch

namespace Hokulea

open Bytes

-- ========================================================= the encodings

/-- `hash_to_field_element` has no failing digest. -/
theorem hashToFieldElement_eq (sha256 : Bytes → B256) (msg : Bytes) :
    hashToFieldElement sha256 msg
      = some ((beNat (sha256 msg).val : Nat) : Fr) := by
  unfold hashToFieldElement Fr.fromBytesBeModOrder
  rw [if_pos (sha256 msg).property]
  rfl

theorem length_serializeG1Compressed (p : AffineG1) :
    (serializeG1Compressed p).length = 32 := by
  unfold serializeG1Compressed
  by_cases h : p.toG1 = 0
  · rw [if_pos h, List.length_set, List.length_replicate]
  · rw [if_neg h]
    have hbytes : (fqToLeBytes p.x).length = 32 := by
      rw [fqToLeBytes, List.length_reverse, Fq.length_toBigEndian]
    simp only
    split
    · rw [List.length_modify, hbytes]
    · exact hbytes

theorem length_serializeFrLe (a : Fr) : (serializeFrLe a).length = 32 := by
  rw [serializeFrLe, List.length_reverse, Fr.length_toBytesBe]

/-- Every affine point the library holds passes the check. -/
theorem validateG1Point_eq (P : G1) : validateG1Point P = .ok () := by
  unfold validateG1Point
  by_cases h : P = 0
  · rw [if_pos h]
  · rw [if_neg h, AffineG1.fromJacobian_eq_some h]

/-- A write at the end of what is filled, into zeros. -/
theorem writeAt_zeros (filled v : Bytes) (k off : Nat)
    (hoff : off = filled.length) :
    writeAt (filled ++ List.replicate (v.length + k) 0) off v
      = some (filled ++ v ++ List.replicate k 0) := by
  subst hoff
  have hdrop : (filled ++ List.replicate (v.length + k) (0 : UInt8)).drop
      (filled.length + v.length) = List.replicate k 0 := by
    rw [← List.drop_drop, List.drop_left, List.drop_replicate,
      Nat.add_sub_cancel_left]
  rw [writeAt_eq_some (by simp), List.take_left, hdrop]

-- ============================================================ the blob

/-- The elements of a blob, laid end to end. -/
def frBytes (fs : List Fr) : Bytes := fs.flatMap Fr.toBytesBe

theorem length_frBytes (fs : List Fr) :
    (frBytes fs).length = fs.length * BYTES_PER_FIELD_ELEMENT := by
  induction fs with
  | nil => rfl
  | cons f fs ih =>
      unfold frBytes at ih ⊢
      rw [List.flatMap_cons, List.length_append, ih, Fr.length_toBytesBe,
        List.length_cons]
      ring

/-- With room for the rest, the loop fills one element after the
other. -/
theorem toByteArrayLoop_eq (size : Nat) :
    ∀ (fs : List Fr) (i : Nat) (filled : Bytes),
      filled.length = i * BYTES_PER_FIELD_ELEMENT →
      size = (i + fs.length) * BYTES_PER_FIELD_ELEMENT →
      toByteArrayLoop size size fs i
          (filled ++ List.replicate (fs.length * BYTES_PER_FIELD_ELEMENT) 0)
        = some (filled ++ frBytes fs)
  | [], i, filled, _, _ => by simp [toByteArrayLoop, frBytes]
  | f :: fs, i, filled, hfilled, hsize => by
      have hv := Fr.length_toBytesBe f
      have hstop : (i + 1) * BYTES_PER_FIELD_ELEMENT
          = i * BYTES_PER_FIELD_ELEMENT + 32 := Nat.succ_mul _ _
      have hsize' : size = (i + 1 + fs.length) * BYTES_PER_FIELD_ELEMENT := by
        rw [hsize, List.length_cons]
        ring
      rw [Nat.add_mul] at hsize'
      have hle : ¬size < (i + 1) * BYTES_PER_FIELD_ELEMENT := by omega
      have htake : f.toBytesBe.take (min ((i + 1) * BYTES_PER_FIELD_ELEMENT)
          size - i * BYTES_PER_FIELD_ELEMENT) = f.toBytesBe := by
        apply List.take_of_length_le
        omega
      have hzeros : (f :: fs).length * BYTES_PER_FIELD_ELEMENT
          = f.toBytesBe.length + fs.length * BYTES_PER_FIELD_ELEMENT := by
        rw [List.length_cons, hv]
        ring
      rw [toByteArrayLoop]
      simp only
      rw [if_neg hle, htake, hzeros, writeAt_zeros _ _ _ _ hfilled.symm]
      show toByteArrayLoop size size fs (i + 1) _ = _
      rw [toByteArrayLoop_eq size fs (i + 1) (filled ++ f.toBytesBe)
        (by rw [List.length_append, hfilled, hv]; ring)
        (by rw [hsize', ← Nat.add_mul])]
      simp [frBytes]

/-- At its own size the blob is written back whole. -/
theorem toByteArray_eq (fs : List Fr) :
    toByteArray fs (fs.length * BYTES_PER_FIELD_ELEMENT)
      = some (frBytes fs) := by
  unfold toByteArray
  rw [Nat.min_self]
  exact toByteArrayLoop_eq (fs.length * BYTES_PER_FIELD_ELEMENT) fs 0 []
    (by simp) (by simp)

/-- What `compute_challenge` hashes. -/
def challengeInput (poly : PolynomialEvalForm) (commitment : AffineG1) :
    Bytes :=
  FIAT_SHAMIR_PROTOCOL_DOMAIN ++ usizeToBeBytes poly.len
    ++ frBytes poly.evaluations ++ serializeG1Compressed commitment

/-- The challenge of a blob is the hash of its transcript. -/
theorem computeChallenge_eq (sha256 : Bytes → B256)
    (poly : PolynomialEvalForm) (commitment : AffineG1) :
    computeChallenge sha256 poly commitment
      = pure ((beNat (sha256 (challengeInput poly commitment)).val : Nat)
          : Fr) := by
  have hcount : (usizeToBeBytes poly.len).length = 8 := length_beBytes 8 _
  have hblob := length_frBytes poly.evaluations
  have hpoint := length_serializeG1Compressed commitment
  have hdomain := length_FIAT_SHAMIR_PROTOCOL_DOMAIN
  have hsize : FIAT_SHAMIR_PROTOCOL_DOMAIN.length + 8
      + poly.len * BYTES_PER_FIELD_ELEMENT + SIZE_OF_G1_AFFINE_COMPRESSED
      = FIAT_SHAMIR_PROTOCOL_DOMAIN.length
        + ((usizeToBeBytes poly.len).length
          + ((frBytes poly.evaluations).length
            + ((serializeG1Compressed commitment).length + 0))) := by
    rw [hcount, hblob, hpoint]
    ring
  have hone := writeAt_zeros [] FIAT_SHAMIR_PROTOCOL_DOMAIN
    ((usizeToBeBytes poly.len).length
      + ((frBytes poly.evaluations).length
        + ((serializeG1Compressed commitment).length + 0))) 0 rfl
  rw [List.nil_append, List.nil_append] at hone
  have htwo := writeAt_zeros FIAT_SHAMIR_PROTOCOL_DOMAIN
    (usizeToBeBytes poly.len)
    ((frBytes poly.evaluations).length
      + ((serializeG1Compressed commitment).length + 0))
    (0 + FIAT_SHAMIR_PROTOCOL_DOMAIN.length) (Nat.zero_add _)
  have hthree := writeAt_zeros
    (FIAT_SHAMIR_PROTOCOL_DOMAIN ++ usizeToBeBytes poly.len)
    (frBytes poly.evaluations)
    ((serializeG1Compressed commitment).length + 0)
    (0 + FIAT_SHAMIR_PROTOCOL_DOMAIN.length + 8)
    (by rw [List.length_append, hcount, Nat.zero_add])
  have hfour := writeAt_zeros
    (FIAT_SHAMIR_PROTOCOL_DOMAIN ++ usizeToBeBytes poly.len
      ++ frBytes poly.evaluations)
    (serializeG1Compressed commitment) 0
    (0 + FIAT_SHAMIR_PROTOCOL_DOMAIN.length + 8
      + (frBytes poly.evaluations).length)
    (by simp only [List.length_append, hcount]; omega)
  unfold computeChallenge
  simp only [validateG1Point_eq, hsize, hone, htwo, toByteArray_eq, hthree,
    hfour, hashToFieldElement_eq, Outcome.lift_ok, Outcome.lift_some,
    pure_bind, List.replicate_zero, List.append_nil]
  rfl

-- ============================================================ the batch

/-- The four writes of one item. -/
def itemBytes (commitment : AffineG1) (z y : Fr) (proof : AffineG1) : Bytes :=
  serializeG1Compressed commitment ++ serializeFrLe z ++ serializeFrLe y
    ++ serializeG1Compressed proof

/-- The items, one after the other. -/
def itemsBytes : List AffineG1 → List Fr → List Fr → List AffineG1 → Bytes
  | c :: cs, z :: zs, y :: ys, p :: ps =>
      itemBytes c z y p ++ itemsBytes cs zs ys ps
  | _, _, _, _ => []

/-- The length slots. -/
def lengthsBytes (blobLengths : List Nat) : Bytes :=
  blobLengths.flatMap (beBytes 8)

/-- The header behind the domain before the lengths are written: the
count stands in its second eight bytes. -/
def countHeader (n : Nat) : Bytes :=
  List.replicate 8 0 ++ usizeToBeBytes n ++ List.replicate (8 * n) 0

/-- The 16 bytes behind the length slots: what these leave of that. -/
def countGap (n : Nat) : Bytes := (countHeader n).drop (8 * n)

/-- What `compute_r_powers` hashes. -/
def batchInput (commitments : List AffineG1) (zs ys : List Fr)
    (proofs : List AffineG1) (blobLengths : List Nat) : Bytes :=
  RANDOM_CHALLENGE_KZG_BATCH_DOMAIN ++ lengthsBytes blobLengths
    ++ countGap commitments.length ++ itemsBytes commitments zs ys proofs

theorem length_itemBytes (c : AffineG1) (z y : Fr) (p : AffineG1) :
    (itemBytes c z y p).length = 128 := by
  simp only [itemBytes, List.length_append, length_serializeG1Compressed,
    length_serializeFrLe]

theorem length_lengthsBytes (lengths : List Nat) :
    (lengthsBytes lengths).length = 8 * lengths.length := by
  induction lengths with
  | nil => rfl
  | cons l lengths ih =>
      unfold lengthsBytes at ih ⊢
      rw [List.flatMap_cons, List.length_append, length_beBytes, ih,
        List.length_cons]
      omega

theorem length_countHeader (n : Nat) :
    (countHeader n).length = 16 + 8 * n := by
  simp only [countHeader, List.length_append, List.length_replicate,
    usizeToBeBytes, length_beBytes]

theorem length_countGap (n : Nat) : (countGap n).length = 16 := by
  rw [countGap, List.length_drop, length_countHeader]
  omega

theorem length_itemsBytes {cs ps : List AffineG1} {zs ys : List Fr}
    (hzs : zs.length = cs.length) (hys : ys.length = cs.length)
    (hps : ps.length = cs.length) :
    (itemsBytes cs zs ys ps).length = 128 * cs.length := by
  induction cs generalizing zs ys ps with
  | nil =>
      unfold itemsBytes
      rfl
  | cons c cs ih =>
      obtain ⟨z, zs, rfl⟩ := List.exists_cons_of_length_pos
        (l := zs) (by rw [hzs, List.length_cons]; omega)
      obtain ⟨y, ys, rfl⟩ := List.exists_cons_of_length_pos
        (l := ys) (by rw [hys, List.length_cons]; omega)
      obtain ⟨p, ps, rfl⟩ := List.exists_cons_of_length_pos
        (l := ps) (by rw [hps, List.length_cons]; omega)
      rw [itemsBytes, List.length_append, length_itemBytes,
        ih (Nat.succ.inj hzs) (Nat.succ.inj hys) (Nat.succ.inj hps),
        List.length_cons]
      omega

-- ------------------------------------------------------- the writes

/-- The length slots are written over what was there. -/
theorem writeLengths_eq (lengths : List Nat) (before slots after : Bytes)
    (hslots : slots.length = 8 * lengths.length) :
    writeLengths lengths.length lengths before.length (before ++ slots ++ after)
      = some (before ++ lengthsBytes lengths ++ after) := by
  induction lengths generalizing before slots with
  | nil =>
      rw [List.length_eq_zero_iff.mp hslots]
      rfl
  | cons l lengths ih =>
      rw [List.length_cons] at hslots
      have hslot : (beBytes 8 l).length = (slots.take 8).length := by
        rw [length_beBytes, List.length_take]
        omega
      have hsplit : before ++ slots ++ after
          = before ++ slots.take 8 ++ (slots.drop 8 ++ after) := by
        rw [List.append_assoc before (slots.take 8), ← List.append_assoc
          (slots.take 8), List.take_append_drop, List.append_assoc]
      have hnext : before.length + 8 = (before ++ beBytes 8 l).length := by
        rw [List.length_append, length_beBytes]
      rw [List.length_cons, writeLengths, hsplit, writeAt_middle rfl hslot]
      show writeLengths lengths.length lengths (before.length + 8) _ = _
      rw [hnext, ← List.append_assoc (before ++ beBytes 8 l),
        ih _ _ (by rw [List.length_drop]; omega)]
      simp [lengthsBytes]

/-- One item is written into zeros. -/
theorem writeItem_eq (c : AffineG1) (z y : Fr) (p : AffineG1)
    (filled : Bytes) (k : Nat) :
    writeItem c z y p (filled ++ List.replicate (128 + k) 0) filled.length
      = some (filled ++ itemBytes c z y p ++ List.replicate k 0,
        filled.length + 128) := by
  have hc := length_serializeG1Compressed c
  have hz := length_serializeFrLe z
  have hy := length_serializeFrLe y
  have hp := length_serializeG1Compressed p
  have hsize : 128 + k = (serializeG1Compressed c).length
      + ((serializeFrLe z).length + ((serializeFrLe y).length
        + ((serializeG1Compressed p).length + k))) := by
    omega
  unfold writeItem
  simp only [Option.bind_eq_bind, BYTES_PER_FIELD_ELEMENT]
  rw [hsize, writeAt_zeros _ _ _ _ rfl, Option.bind_some,
    writeAt_zeros _ _ _ _ (by rw [List.length_append, hc]), Option.bind_some,
    writeAt_zeros _ _ _ _ (by simp only [List.length_append, hc, hz]),
    Option.bind_some,
    writeAt_zeros _ _ _ _ (by simp only [List.length_append, hc, hz, hy]),
    Option.bind_some]
  simp only [itemBytes, List.append_assoc]
  rfl

/-- The items from `i` on are written into zeros. -/
theorem writeItems_eq {cs ps : List AffineG1} {zs ys : List Fr} {n : Nat}
    (hcs : cs.length = n) (hzs : zs.length = n) (hys : ys.length = n)
    (hps : ps.length = n) :
    ∀ (count i : Nat) (filled : Bytes), i + count = n →
      writeItems cs zs ys ps count i
          (filled ++ List.replicate (128 * count) 0) filled.length
        = some (filled ++ itemsBytes (cs.drop i) (zs.drop i) (ys.drop i)
            (ps.drop i), filled.length + 128 * count)
  | 0, i, filled, hi => by
      have hnil : cs.drop i = [] := List.drop_eq_nil_of_le (by omega)
      rw [hnil]
      simp [writeItems, itemsBytes]
  | count + 1, i, filled, hi => by
      have hic : i < cs.length := by omega
      have hiz : i < zs.length := by omega
      have hiy : i < ys.length := by omega
      have hip : i < ps.length := by omega
      have hrest := writeItems_eq hcs hzs hys hps count (i + 1)
        (filled ++ itemBytes cs[i] zs[i] ys[i] ps[i]) (by omega)
      rw [List.length_append, length_itemBytes] at hrest
      rw [writeItems]
      simp only [List.getElem?_eq_getElem hic, List.getElem?_eq_getElem hiz,
        List.getElem?_eq_getElem hiy, List.getElem?_eq_getElem hip,
        Option.bind_eq_bind, Option.bind_some]
      rw [show 128 * (count + 1) = 128 + 128 * count by omega, writeItem_eq,
        Option.bind_some]
      simp only
      rw [hrest, List.drop_eq_getElem_cons hic, List.drop_eq_getElem_cons hiz,
        List.drop_eq_getElem_cons hiy, List.drop_eq_getElem_cons hip, itemsBytes,
        List.append_assoc, Nat.add_assoc]

/-- The buffer when the count has been written, cut where the length
slots end. -/
theorem writeCount_eq (n : Nat) :
    RANDOM_CHALLENGE_KZG_BATCH_DOMAIN ++ List.replicate 8 0
        ++ usizeToBeBytes n ++ List.replicate (136 * n) 0
      = RANDOM_CHALLENGE_KZG_BATCH_DOMAIN ++ (countHeader n).take (8 * n)
        ++ (countGap n ++ List.replicate (128 * n) 0) := by
  have hzeros : List.replicate (136 * n) (0 : UInt8)
      = List.replicate (8 * n) 0 ++ List.replicate (128 * n) 0 := by
    rw [List.replicate_append_replicate]
    congr 1
    omega
  rw [hzeros, countGap, List.append_assoc _ (List.take _ _),
    ← List.append_assoc (List.take _ _), List.take_append_drop, countHeader]
  simp only [List.append_assoc]

/-- The writes of `compute_r_powers`: the buffer it hashes and the offset
it checks. -/
def batchBuffer (commitments : List AffineG1) (zs ys : List Fr)
    (proofs : List AffineG1) (blobLengths : List Nat) :
    Option (Bytes × Nat) := do
  let n := commitments.length
  let inputSize := 40
    + n * (BYTES_PER_FIELD_ELEMENT + 2 * BYTES_PER_FIELD_ELEMENT
      + BYTES_PER_FIELD_ELEMENT + 8)
  let buf ← writeAt (List.replicate inputSize 0) 0
    RANDOM_CHALLENGE_KZG_BATCH_DOMAIN
  let buf ← writeAt buf 32 (usizeToBeBytes n)
  let buf ← writeLengths n blobLengths 24 buf
  writeItems commitments zs ys proofs n 0 buf (40 + n * 8)

/-- These are its writes. -/
theorem computeRPowers_batchBuffer (sha256 : Bytes → B256)
    (commitments : List AffineG1) (zs ys : List Fr) (proofs : List AffineG1)
    (blobLengths : List Nat) :
    computeRPowers sha256 commitments zs ys proofs blobLengths
      = (do
        let (buf, offset) ←
          batchBuffer commitments zs ys proofs blobLengths
        if offset ≠ 40 + commitments.length * 136 then
          throw .invalidInputLength
        let r ← hashToFieldElement sha256 buf
        return computePowers r commitments.length) := by
  unfold computeRPowers batchBuffer
  simp only [liftM_bind, bind_assoc]
  rfl

section Batch

variable {commitments proofs : List AffineG1} {zs ys : List Fr}
  {blobLengths : List Nat}

/-- The domain is written first. -/
theorem writeAt_domain (n : Nat) :
    writeAt (List.replicate (40 + n * 136) 0) 0 RANDOM_CHALLENGE_KZG_BATCH_DOMAIN
      = some (RANDOM_CHALLENGE_KZG_BATCH_DOMAIN
        ++ List.replicate (16 + n * 136) 0) := by
  have h := writeAt_zeros [] RANDOM_CHALLENGE_KZG_BATCH_DOMAIN
    (16 + n * 136) 0 rfl
  rw [length_RANDOM_CHALLENGE_KZG_BATCH_DOMAIN,
    show 24 + (16 + n * 136) = 40 + n * 136 by omega] at h
  exact h

/-- The count is written eight bytes further on. -/
theorem writeAt_count (n : Nat) :
    writeAt (RANDOM_CHALLENGE_KZG_BATCH_DOMAIN
        ++ List.replicate (16 + n * 136) 0) 32 (usizeToBeBytes n)
      = some (RANDOM_CHALLENGE_KZG_BATCH_DOMAIN ++ (countHeader n).take (8 * n)
        ++ (countGap n ++ List.replicate (128 * n) 0)) := by
  have hoffset : 32 = (RANDOM_CHALLENGE_KZG_BATCH_DOMAIN
      ++ List.replicate 8 0).length := by
    rw [List.length_append, length_RANDOM_CHALLENGE_KZG_BATCH_DOMAIN,
      List.length_replicate]
  have hcount : (usizeToBeBytes n).length = 8 := length_beBytes 8 n
  have h := writeAt_zeros
    (RANDOM_CHALLENGE_KZG_BATCH_DOMAIN ++ List.replicate 8 0)
    (usizeToBeBytes n) (136 * n) 32 hoffset
  rw [hcount, List.append_assoc _ (List.replicate 8 0),
    List.replicate_append_replicate, writeCount_eq,
    show 8 + (8 + 136 * n) = 16 + n * 136 by omega] at h
  exact h

/-- The lengths are written over the gap before it, and over the count
itself from the second on. -/
theorem writeLengths_gap {n : Nat} (hlengths : blobLengths.length = n) :
    writeLengths n blobLengths 24
        (RANDOM_CHALLENGE_KZG_BATCH_DOMAIN ++ (countHeader n).take (8 * n)
          ++ (countGap n ++ List.replicate (128 * n) 0))
      = some (RANDOM_CHALLENGE_KZG_BATCH_DOMAIN ++ lengthsBytes blobLengths
        ++ (countGap n ++ List.replicate (128 * n) 0)) := by
  have h := writeLengths_eq blobLengths RANDOM_CHALLENGE_KZG_BATCH_DOMAIN
    ((countHeader n).take (8 * n))
    (countGap n ++ List.replicate (128 * n) 0) (by
      rw [List.length_take, length_countHeader, hlengths]
      omega)
  rw [length_RANDOM_CHALLENGE_KZG_BATCH_DOMAIN, hlengths] at h
  exact h

/-- The items are written over the zeros that are left. -/
theorem writeItems_zeros {n : Nat} (hcs : commitments.length = n)
    (hzs : zs.length = n) (hys : ys.length = n) (hproofs : proofs.length = n)
    (hlengths : blobLengths.length = n) :
    writeItems commitments zs ys proofs n 0
        (RANDOM_CHALLENGE_KZG_BATCH_DOMAIN ++ lengthsBytes blobLengths
          ++ (countGap n ++ List.replicate (128 * n) 0)) (40 + n * 8)
      = some (batchInput commitments zs ys proofs blobLengths,
        40 + n * 136) := by
  have hoffset : (RANDOM_CHALLENGE_KZG_BATCH_DOMAIN
      ++ lengthsBytes blobLengths ++ countGap n).length = 40 + n * 8 := by
    rw [List.length_append, List.length_append,
      length_RANDOM_CHALLENGE_KZG_BATCH_DOMAIN, length_lengthsBytes,
      length_countGap, hlengths]
    omega
  have h := writeItems_eq hcs hzs hys hproofs n 0
    (RANDOM_CHALLENGE_KZG_BATCH_DOMAIN ++ lengthsBytes blobLengths
      ++ countGap n) (Nat.zero_add n)
  rw [hoffset, show 40 + n * 8 + 128 * n = 40 + n * 136 by omega,
    List.append_assoc _ (countGap n)] at h
  rw [h, batchInput, hcs]
  rfl

/-- They fill the buffer: none is out of range, and the offset ends
where the buffer does. -/
theorem batchBuffer_eq (hzs : zs.length = commitments.length)
    (hys : ys.length = commitments.length)
    (hproofs : proofs.length = commitments.length)
    (hlengths : blobLengths.length = commitments.length) :
    batchBuffer commitments zs ys proofs blobLengths
      = some (batchInput commitments zs ys proofs blobLengths,
        40 + commitments.length * 136) := by
  have hinput : 40 + commitments.length * (BYTES_PER_FIELD_ELEMENT
      + 2 * BYTES_PER_FIELD_ELEMENT + BYTES_PER_FIELD_ELEMENT + 8)
      = 40 + commitments.length * 136 := rfl
  have hitems := writeItems_zeros rfl hzs hys hproofs hlengths
  unfold batchBuffer
  simp only [hinput, writeAt_domain, writeAt_count, writeLengths_gap hlengths,
    hitems, Option.bind_eq_bind, Option.bind_some]

/-- The challenge of a batch is the hash of what they write. -/
theorem computeRPowers_eq (sha256 : Bytes → B256)
    (hzs : zs.length = commitments.length)
    (hys : ys.length = commitments.length)
    (hproofs : proofs.length = commitments.length)
    (hlengths : blobLengths.length = commitments.length) :
    computeRPowers sha256 commitments zs ys proofs blobLengths
      = pure (computePowers ((beNat (sha256 (batchInput commitments zs ys proofs
        blobLengths)).val : Nat) : Fr) commitments.length) := by
  rw [computeRPowers_batchBuffer, batchBuffer_eq hzs hys hproofs hlengths,
    Outcome.lift_some, pure_bind]
  simp only [ne_eq, not_true_eq_false, if_false, hashToFieldElement_eq,
    Outcome.lift_some, pure_bind]

end Batch

end Hokulea
