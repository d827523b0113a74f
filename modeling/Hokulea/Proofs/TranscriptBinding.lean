/-
Both Fiat–Shamir transcripts are binding.

# Encodings

A scalar is its canonical value. A compressed point is the value of its
first coordinate, which leaves the top two bits free, and in them the
flags: one byte tells the identity, and a point from its opposite
(`serializeG1Compressed_inj`).

# Layouts

A blob's transcript is its parts end to end. That of a batch is not:
the length slots begin before the count and are written over it, and
behind them 16 bytes are left of what was there (`countGap`). The count
is still bound, by the size of the buffer, and all other parts are where
it says (`Batch.input_inj`).
-/
import Mathlib.Algebra.Order.Ring.Abs
import Hokulea.Proofs.Transcript

namespace Hokulea

open Bytes

-- ========================================================= the encodings

/-- A scalar's bytes determine it. -/
theorem serializeFrLe_inj {a b : Fr} (h : serializeFrLe a = serializeFrLe b) :
    a = b := by
  have hbytes : beBytes 32 a.val = beBytes 32 b.val := List.reverse_injective h
  have hlt : ∀ x : Fr, x.val < 256 ^ 32 :=
    fun x => lt_trans (ZMod.val_lt x) Fr.modulus_lt
  apply ZMod.val_injective
  calc a.val = beNat (beBytes 32 a.val) := (beNat_beBytes (hlt a)).symm
    _ = beNat (beBytes 32 b.val) := by rw [hbytes]
    _ = b.val := beNat_beBytes (hlt b)

/-- The top byte of a coordinate. -/
def topByte (x : Fq) : Nat := x.val / 256 ^ 31

/-- It leaves two bits free. -/
theorem topByte_lt (x : Fq) : topByte x < 64 := by
  have hlt := ZMod.val_lt x
  have hmodulus : Fq.modulus < 64 * 256 ^ 31 := by decide +kernel
  apply Nat.div_lt_of_lt_mul
  rw [Nat.mul_comm]
  exact lt_trans hlt hmodulus

/-- The last byte of a compressed point: the top of its coordinate, and
the flags. -/
def flagByte (p : AffineG1) : UInt8 :=
  if p.toG1 = 0 then 0x40
  else if fqIsNegative p.y then UInt8.ofNat (topByte p.x) ||| 0x80
  else UInt8.ofNat (topByte p.x)

/-- A compressed point is the low bytes of its coordinate, then that
byte. -/
theorem serializeG1Compressed_eq (p : AffineG1) :
    serializeG1Compressed p = (beBytes 31 p.x.val).reverse ++ [flagByte p] := by
  have hlen : (beBytes 31 p.x.val).reverse.length = 31 := by
    rw [List.length_reverse, length_beBytes]
  have hbytes : fqToLeBytes p.x
      = (beBytes 31 p.x.val).reverse ++ [UInt8.ofNat (topByte p.x)] := by
    rw [fqToLeBytes, Fq.toBigEndian, beBytes_succ, List.reverse_cons]
    rfl
  unfold serializeG1Compressed flagByte
  by_cases hzero : p.toG1 = 0
  · have hx : p.x = 0 := (AffineG1.toG1_eq_zero_iff.mp hzero).1
    rw [if_pos hzero, if_pos hzero, hx]
    decide +kernel
  · rw [if_neg hzero, if_neg hzero, hbytes]
    simp only
    by_cases hneg : fqIsNegative p.y = true
    · rw [if_pos hneg, if_pos hneg, modify_concat hlen]
    · rw [if_neg hneg, if_neg hneg]

/-- The flags are read off that byte. -/
theorem toNat_flagByte (p : AffineG1) :
    (flagByte p).toNat
      = if p.toG1 = 0 then 64
        else topByte p.x + if fqIsNegative p.y then 128 else 0 := by
  have hor : ∀ n : Fin 64, (UInt8.ofNat n ||| 0x80).toNat = n + 128
      ∧ (UInt8.ofNat n).toNat = n := by
    decide +kernel
  have htop := hor ⟨topByte p.x, topByte_lt p.x⟩
  unfold flagByte
  by_cases hzero : p.toG1 = 0
  · rw [if_pos hzero, if_pos hzero]
    rfl
  · rw [if_neg hzero, if_neg hzero]
    by_cases hneg : fqIsNegative p.y = true
    · rw [if_pos hneg, if_pos hneg]
      exact htop.1
    · rw [if_neg hneg, if_neg hneg]
      exact htop.2

/-- Two opposite coordinates with one sign are equal. -/
theorem eq_of_fqIsNegative {y : Fq}
    (h : fqIsNegative (-y) = fqIsNegative y) : -y = y := by
  unfold fqIsNegative at h
  rw [neg_neg, decide_eq_decide] at h
  apply ZMod.val_injective
  omega

/-- A point's bytes determine it, the identity included. -/
theorem serializeG1Compressed_inj {p q : AffineG1}
    (h : serializeG1Compressed p = serializeG1Compressed q) : p = q := by
  rw [serializeG1Compressed_eq, serializeG1Compressed_eq] at h
  obtain ⟨hlow, hflag⟩ := List.append_inj h (by simp)
  have hlow : p.x.val % 256 ^ 31 = q.x.val % 256 ^ 31 := by
    rw [← beNat_beBytes_mod, ← beNat_beBytes_mod,
      List.reverse_injective hlow]
  have hbyte := congrArg UInt8.toNat (List.cons.inj hflag).1
  rw [toNat_flagByte, toNat_flagByte] at hbyte
  have hp := topByte_lt p.x
  have hq := topByte_lt q.x
  by_cases hzero : p.toG1 = 0 <;> by_cases hzero' : q.toG1 = 0
  · exact AffineG1.toG1_injective (hzero.trans hzero'.symm)
  · rw [if_pos hzero, if_neg hzero'] at hbyte
    split at hbyte <;> omega
  · rw [if_neg hzero, if_pos hzero'] at hbyte
    split at hbyte <;> omega
  · rw [if_neg hzero, if_neg hzero'] at hbyte
    have htop : topByte p.x = topByte q.x := by
      split at hbyte <;> split at hbyte <;> omega
    have hsign : fqIsNegative p.y = fqIsNegative q.y := by
      cases hs : fqIsNegative p.y <;> cases hs' : fqIsNegative q.y
      · rfl
      · simp only [hs, hs', if_true, Bool.false_eq_true, if_false] at hbyte
        omega
      · simp only [hs, hs', if_true, Bool.false_eq_true, if_false] at hbyte
        omega
      · rfl
    have hx : p.x = q.x := by
      apply ZMod.val_injective
      calc p.x.val = 256 ^ 31 * topByte p.x + p.x.val % 256 ^ 31 :=
            (Nat.div_add_mod _ _).symm
        _ = 256 ^ 31 * topByte q.x + q.x.val % 256 ^ 31 := by rw [htop, hlow]
        _ = q.x.val := Nat.div_add_mod _ _
    have hsq : p.y ^ 2 = q.y ^ 2 := by
      have hcurve := p.valid.resolve_left (mt AffineG1.toG1_eq_zero_iff.mpr hzero)
      have hcurve' := q.valid.resolve_left
        (mt AffineG1.toG1_eq_zero_iff.mpr hzero')
      rw [hcurve, hcurve', hx]
    have hy : p.y = q.y := by
      rcases sq_eq_sq_iff_eq_or_eq_neg.mp hsq with hy | hy
      · exact hy
      · rw [hy] at hsign
        rw [hy]
        exact eq_of_fqIsNegative hsign
    obtain ⟨x, y, hvalid⟩ := p
    obtain ⟨x', y', hvalid'⟩ := q
    simp only at hx hy
    subst hx hy
    rfl

-- ============================================================ the blob

/-- As many elements, laid end to end, are determined by the bytes. -/
theorem frBytes_inj {fs gs : List Fr} (hlen : fs.length = gs.length)
    (h : frBytes fs = frBytes gs) : fs = gs := by
  induction fs generalizing gs with
  | nil => exact (List.length_eq_zero_iff.mp hlen.symm).symm
  | cons f fs ih =>
      cases gs with
      | nil => cases hlen
      | cons g gs =>
          unfold frBytes at h
          rw [List.flatMap_cons, List.flatMap_cons] at h
          obtain ⟨hhead, htail⟩ := List.append_inj h
            ((Fr.length_toBytesBe f).trans (Fr.length_toBytesBe g).symm)
          have hfg : f = g := serializeFrLe_inj (congrArg List.reverse hhead)
          rw [hfg, ih (Nat.succ.inj hlen) htail]

/-- The transcript fills the buffer that is allocated for it. -/
theorem length_challengeInput (poly : PolynomialEvalForm)
    (commitment : AffineG1) :
    (challengeInput poly commitment).length
      = FIAT_SHAMIR_PROTOCOL_DOMAIN.length + 8
        + poly.len * BYTES_PER_FIELD_ELEMENT + SIZE_OF_G1_AFFINE_COMPRESSED := by
  unfold challengeInput
  rw [List.length_append, List.length_append, List.length_append,
    length_frBytes, length_serializeG1Compressed, usizeToBeBytes,
    length_beBytes]

/-- A blob's transcript determines its padded evaluations and its
commitment. -/
theorem challengeInput_inj {poly poly' : PolynomialEvalForm}
    {commitment commitment' : AffineG1}
    (h : challengeInput poly commitment = challengeInput poly' commitment') :
    poly.evaluations = poly'.evaluations ∧ commitment = commitment' := by
  have hlen : poly.len = poly'.len := by
    have hsize := congrArg List.length h
    rw [length_challengeInput, length_challengeInput] at hsize
    simp only [BYTES_PER_FIELD_ELEMENT] at hsize
    omega
  unfold challengeInput at h
  rw [hlen] at h
  obtain ⟨hfront, hpoint⟩ := List.append_inj h (by
    simp only [List.length_append, length_frBytes]
    rw [show poly.evaluations.length = poly'.evaluations.length from hlen])
  exact ⟨frBytes_inj hlen (List.append_cancel_left hfront),
    serializeG1Compressed_inj hpoint⟩

/-- The challenge of a blob is the hash of a transcript that fills its
buffer, for every size, and binds the evaluations and the
commitment. -/
theorem challenge_transcript_binds :
    (∀ (sha256 : Bytes → B256) (poly : PolynomialEvalForm)
        (commitment : AffineG1),
      computeChallenge sha256 poly commitment
          = pure ((beNat (sha256 (challengeInput poly commitment)).val : Nat)
            : Fr)
        ∧ (challengeInput poly commitment).length
          = FIAT_SHAMIR_PROTOCOL_DOMAIN.length + 8
            + poly.len * BYTES_PER_FIELD_ELEMENT
            + SIZE_OF_G1_AFFINE_COMPRESSED)
    ∧ ∀ (poly poly' : PolynomialEvalForm) (commitment commitment' : AffineG1),
        challengeInput poly commitment = challengeInput poly' commitment' →
        poly.evaluations = poly'.evaluations ∧ commitment = commitment' := by
  refine ⟨fun sha256 poly commitment => ?_, fun _ _ _ _ => challengeInput_inj⟩
  exact ⟨computeChallenge_eq sha256 poly commitment,
    length_challengeInput poly commitment⟩

-- ----------------------------------------------- two one-element blobs

/-- A polynomial of one evaluation. -/
def constantPoly (y : Fr) : PolynomialEvalForm where
  evaluations := [y]
  lenUnderlyingBlobBytes := 32
  size_le := by norm_num
  aligned := by norm_num
  padded := by
    show 1 = nextPowerOfTwo (32 / BYTES_PER_FIELD_ELEMENT)
    decide

/-- Two of them have two transcripts. -/
theorem challenge_transcript_binds_constants :
    challengeInput (constantPoly 0) AffineG1.default
      ≠ challengeInput (constantPoly 1) AffineG1.default := by
  intro h
  have hevals := (challenge_transcript_binds.2 _ _ _ _ h).1
  have hzero := (List.cons.inj hevals).1
  exact absurd hzero (by decide +kernel)

-- =========================================================== the batch

/-- The arguments of `compute_r_powers`: lists of one length, the blob
lengths `u64`s. -/
structure Batch where
  commitments : List AffineG1
  zs : List Fr
  ys : List Fr
  proofs : List AffineG1
  blobLengths : List Nat
  length_zs : zs.length = commitments.length
  length_ys : ys.length = commitments.length
  length_proofs : proofs.length = commitments.length
  length_blobLengths : blobLengths.length = commitments.length
  blobLengths_lt : ∀ l ∈ blobLengths, l < 2 ^ 64

/-- The buffer that is hashed for it. -/
def Batch.input (b : Batch) : Bytes :=
  batchInput b.commitments b.zs b.ys b.proofs b.blobLengths

theorem Batch.length_input (b : Batch) :
    b.input.length = 40 + b.commitments.length * 136 := by
  simp only [Batch.input, batchInput, List.length_append,
    length_RANDOM_CHALLENGE_KZG_BATCH_DOMAIN, length_lengthsBytes,
    length_countGap, b.length_blobLengths,
    length_itemsBytes b.length_zs b.length_ys b.length_proofs]
  omega

/-- What `compute_r_powers` writes for it. -/
def Batch.buffer (b : Batch) : Option (Bytes × Nat) :=
  batchBuffer b.commitments b.zs b.ys b.proofs b.blobLengths

theorem Batch.buffer_eq (b : Batch) :
    b.buffer = some (b.input, b.input.length) := by
  rw [b.length_input]
  exact batchBuffer_eq b.length_zs b.length_ys b.length_proofs
    b.length_blobLengths

-- -------------------------------------------------------- the layout

/-- As many lengths are determined by their slots. -/
theorem lengthsBytes_inj {ls ms : List Nat} (hlen : ls.length = ms.length)
    (hls : ∀ l ∈ ls, l < 2 ^ 64) (hms : ∀ m ∈ ms, m < 2 ^ 64)
    (h : lengthsBytes ls = lengthsBytes ms) : ls = ms := by
  induction ls generalizing ms with
  | nil => exact (List.length_eq_zero_iff.mp hlen.symm).symm
  | cons l ls ih =>
      cases ms with
      | nil => cases hlen
      | cons m ms =>
          unfold lengthsBytes at h
          rw [List.flatMap_cons, List.flatMap_cons] at h
          obtain ⟨hhead, htail⟩ := List.append_inj h
            ((length_beBytes 8 l).trans (length_beBytes 8 m).symm)
          have hl := hls l List.mem_cons_self
          have hm := hms m List.mem_cons_self
          have hlm : l = m := by
            calc l = beNat (beBytes 8 l) := (beNat_beBytes hl).symm
              _ = beNat (beBytes 8 m) := by rw [hhead]
              _ = m := beNat_beBytes hm
          rw [hlm, ih (Nat.succ.inj hlen)
            (fun x hx => hls x (List.mem_cons_of_mem _ hx))
            (fun x hx => hms x (List.mem_cons_of_mem _ hx)) htail]

/-- An item is determined by its 128 bytes. -/
theorem itemBytes_inj {c c' : AffineG1} {z z' y y' : Fr} {p p' : AffineG1}
    (h : itemBytes c z y p = itemBytes c' z' y' p') :
    c = c' ∧ z = z' ∧ y = y' ∧ p = p' := by
  unfold itemBytes at h
  obtain ⟨h, hp⟩ := List.append_inj h (by
    simp only [List.length_append, length_serializeG1Compressed,
      length_serializeFrLe])
  obtain ⟨h, hy⟩ := List.append_inj h (by
    simp only [List.length_append, length_serializeG1Compressed,
      length_serializeFrLe])
  obtain ⟨hc, hz⟩ := List.append_inj h (by
    rw [length_serializeG1Compressed, length_serializeG1Compressed])
  exact ⟨serializeG1Compressed_inj hc, serializeFrLe_inj hz,
    serializeFrLe_inj hy, serializeG1Compressed_inj hp⟩

/-- As many items are determined by their bytes. -/
theorem itemsBytes_inj {cs cs' ps ps' : List AffineG1}
    {zs zs' ys ys' : List Fr} (hcs : cs.length = cs'.length)
    (hzs : zs.length = cs.length) (hys : ys.length = cs.length)
    (hps : ps.length = cs.length) (hzs' : zs'.length = cs'.length)
    (hys' : ys'.length = cs'.length) (hps' : ps'.length = cs'.length)
    (h : itemsBytes cs zs ys ps = itemsBytes cs' zs' ys' ps') :
    cs = cs' ∧ zs = zs' ∧ ys = ys' ∧ ps = ps' := by
  induction cs generalizing zs ys ps cs' zs' ys' ps' with
  | nil =>
      have hnil := hcs.symm
      rw [hnil] at hzs' hys' hps'
      rw [List.length_eq_zero_iff.mp hnil, List.length_eq_zero_iff.mp hzs,
        List.length_eq_zero_iff.mp hys, List.length_eq_zero_iff.mp hps,
        List.length_eq_zero_iff.mp hzs', List.length_eq_zero_iff.mp hys',
        List.length_eq_zero_iff.mp hps']
      exact ⟨rfl, rfl, rfl, rfl⟩
  | cons c cs ih =>
      have hcs' := hcs.symm
      rw [hcs'] at hzs' hys' hps'
      obtain ⟨c', cs', rfl⟩ := List.exists_cons_of_length_eq_add_one hcs'
      obtain ⟨z, zs, rfl⟩ := List.exists_cons_of_length_eq_add_one hzs
      obtain ⟨y, ys, rfl⟩ := List.exists_cons_of_length_eq_add_one hys
      obtain ⟨p, ps, rfl⟩ := List.exists_cons_of_length_eq_add_one hps
      obtain ⟨z', zs', rfl⟩ := List.exists_cons_of_length_eq_add_one hzs'
      obtain ⟨y', ys', rfl⟩ := List.exists_cons_of_length_eq_add_one hys'
      obtain ⟨p', ps', rfl⟩ := List.exists_cons_of_length_eq_add_one hps'
      rw [itemsBytes, itemsBytes] at h
      obtain ⟨hitem, hitems⟩ := List.append_inj h
        ((length_itemBytes c z y p).trans (length_itemBytes c' z' y' p').symm)
      obtain ⟨rfl, rfl, rfl, rfl⟩ := itemBytes_inj hitem
      have hlen := Nat.succ.inj hcs
      have htail : ∀ {α : Type} {l : List α}, l.length = cs.length →
          l.length = cs'.length := fun hl => hl.trans hlen
      obtain ⟨rfl, rfl, rfl, rfl⟩ := ih hlen (Nat.succ.inj hzs)
        (Nat.succ.inj hys) (Nat.succ.inj hps) (htail (Nat.succ.inj hzs'))
        (htail (Nat.succ.inj hys')) (htail (Nat.succ.inj hps')) hitems
      exact ⟨rfl, rfl, rfl, rfl⟩

/-- A batch's buffer determines it: the count is in its size, and the
rest is where the count says. -/
theorem Batch.input_inj {b b' : Batch} (h : b.input = b'.input) : b = b' := by
  have hlen : b.commitments.length = b'.commitments.length := by
    have hsize := congrArg List.length h
    rw [b.length_input, b'.length_input] at hsize
    omega
  have hlengths : b.blobLengths.length = b'.blobLengths.length := by
    rw [b.length_blobLengths, b'.length_blobLengths, hlen]
  unfold Batch.input batchInput at h
  rw [hlen, List.append_assoc, List.append_assoc, List.append_assoc,
    List.append_assoc] at h
  obtain ⟨hslots, hrest⟩ := List.append_inj (List.append_cancel_left h)
    (by rw [length_lengthsBytes, length_lengthsBytes, hlengths])
  obtain ⟨hcs, hzs, hys, hps⟩ := itemsBytes_inj hlen b.length_zs b.length_ys
    b.length_proofs b'.length_zs b'.length_ys b'.length_proofs
    (List.append_cancel_left hrest)
  have hls := lengthsBytes_inj hlengths b.blobLengths_lt b'.blobLengths_lt
    hslots
  cases b
  cases b'
  simp only at hcs hzs hys hps hls
  subst hcs hzs hys hps hls
  rfl

/-- Every write for a batch is in range and the offset check passes, so
the buffer is hashed; and one buffer is that of one batch: the counts
and all five lists are equal. -/
theorem batch_transcript_binds :
    (∀ (sha256 : Bytes → B256) (b : Batch), ∃ buf,
      b.buffer = some (buf, buf.length)
        ∧ computeRPowers sha256 b.commitments b.zs b.ys b.proofs b.blobLengths
          = pure (computePowers ((beNat (sha256 buf).val : Nat) : Fr)
            b.commitments.length))
    ∧ ∀ b b' : Batch, b.buffer = b'.buffer →
        b.commitments.length = b'.commitments.length
          ∧ b.commitments = b'.commitments ∧ b.zs = b'.zs ∧ b.ys = b'.ys
          ∧ b.proofs = b'.proofs ∧ b.blobLengths = b'.blobLengths := by
  constructor
  · intro sha256 b
    exact ⟨b.input, b.buffer_eq, computeRPowers_eq sha256 b.length_zs
      b.length_ys b.length_proofs b.length_blobLengths⟩
  · intro b b' h
    rw [b.buffer_eq, b'.buffer_eq, Option.some.injEq, Prod.mk.injEq] at h
    rw [Batch.input_inj h.1]
    exact ⟨rfl, rfl, rfl, rfl, rfl, rfl⟩

-- ------------------------------------------------ two one-item batches

/-- A batch of one item. -/
def oneItem (y : Fr) : Batch where
  commitments := [AffineG1.default]
  zs := [0]
  ys := [y]
  proofs := [AffineG1.default]
  blobLengths := [1]
  length_zs := rfl
  length_ys := rfl
  length_proofs := rfl
  length_blobLengths := rfl
  blobLengths_lt := by decide

/-- Two evaluations are hashed from two buffers. -/
theorem batch_transcript_binds_oneItem :
    (oneItem 0).buffer ≠ (oneItem 1).buffer := by
  intro h
  have hys := (batch_transcript_binds.2 _ _ h).2.2.2.1
  have hzero := (List.cons.inj hys).1
  exact absurd hzero (by decide +kernel)

end Hokulea
