/-
The blob as field elements.

`to_fr_array_canonical` reads each chunk twice, once modulo the field
order and once without a check, and takes a difference for a chunk that
is not canonical. The unchecked reading multiplies by the square of the
Montgomery radix, and that multiplication reduces: both readings are
the residue, and they never differ (`frCanonical_eq`). So the blobs it
accepts are those of whole chunks, and what it makes of them is exact
only where every chunk is canonical already.

# What is proved

`parsesExactly_iff`, for one blob: the parser accepts what it should
and the result is written back to the blob, exactly when the blob is
not one of whole chunks with a chunk that is too large.
`blobs_parse_exactly_iff` adds the pair: two such blobs of one length
have different evaluations.
-/
import Hokulea.Proofs.Transcript

namespace Hokulea

open Bytes

-- ========================================================= the chunks

/-- The two readings of a chunk agree. -/
theorem frCanonical_eq {chunk : Bytes} (h : chunk.length = 32) :
    frCanonical chunk = .ok ((beNat chunk : Nat) : Fr) := by
  unfold frCanonical Fr.fromBytesBeModOrder
  rw [Fr.fromSlice_eq h, if_pos h]
  show (if ((beNat chunk : Nat) : Fr) ≠ ((beNat chunk : Nat) : Fr) then _
    else _) = _
  rw [if_neg (not_not.mpr rfl)]
  rfl

/-- A blob of whole chunks is read chunk by chunk. -/
theorem toFrArrayCanonical_eq {blob : Bytes}
    (h : blob.length % BYTES_PER_FIELD_ELEMENT = 0) :
    toFrArrayCanonical blob
      = .ok ((chunksExact BYTES_PER_FIELD_ELEMENT blob).map
          fun chunk => ((beNat chunk : Nat) : Fr)) := by
  have hchunks : ∀ cs : List Bytes, (∀ c ∈ cs, c.length = 32) →
      cs.mapM frCanonical
        = .ok (cs.map fun chunk => ((beNat chunk : Nat) : Fr)) := by
    intro cs
    induction cs with
    | nil => intro _; rfl
    | cons c cs ih =>
        intro hcs
        rw [List.mapM_cons, frCanonical_eq (hcs c (by simp)),
          ih fun d hd => hcs d (by simp [hd])]
        rfl
  unfold toFrArrayCanonical
  rw [if_neg (not_not.mpr h)]
  exact hchunks _ fun c hc => length_of_mem_chunksExact hc

/-- The Montgomery representation of a 256-bit integer, as the unchecked
reading computes it. -/
def Fr.representation (n : Nat) : Nat :=
  Montgomery.mul Fr.modulus Fr.R
    52454480824480482120356829342366457550537710351690908576382634413609933864959
    n (Fr.R ^ 2 % Fr.modulus)

/-- It is that of the residue: to compare the representations of the two
readings is to compare the elements. -/
theorem Fr.representation_mod {n : Nat} (h : n < Fr.R) :
    Fr.representation n = Fr.representation (n % Fr.modulus) := by
  have hsquare : Fr.R ^ 2 % Fr.modulus < Fr.modulus :=
    Nat.mod_lt _ (by decide +kernel)
  have hmul := @Montgomery.mul_modEq Fr.modulus Fr.R
    52454480824480482120356829342366457550537710351690908576382634413609933864959
    (by decide +kernel)
  have hlt : Fr.representation n < Fr.modulus :=
    Montgomery.mul_lt (by decide +kernel) h hsquare
  have hlt' : Fr.representation (n % Fr.modulus) < Fr.modulus :=
    Montgomery.mul_lt (by decide +kernel)
      (lt_of_le_of_lt (Nat.mod_le _ _) h) hsquare
  have hcoprime : Nat.gcd Fr.modulus Fr.R = 1 := by decide +kernel
  have hmod : Fr.representation n * Fr.R
      ≡ Fr.representation (n % Fr.modulus) * Fr.R [MOD Fr.modulus] :=
    calc Fr.representation n * Fr.R
        ≡ n * (Fr.R ^ 2 % Fr.modulus) [MOD Fr.modulus] := hmul _ _
      _ ≡ n % Fr.modulus * (Fr.R ^ 2 % Fr.modulus) [MOD Fr.modulus] :=
          (Nat.mod_modEq _ _).symm.mul_right _
      _ ≡ Fr.representation (n % Fr.modulus) * Fr.R [MOD Fr.modulus] :=
          (hmul _ _).symm
  exact (hmod.cancel_right_of_coprime hcoprime).eq_of_lt_of_lt hlt hlt'

/-- Every chunk is a canonical scalar. -/
def CanonicalChunks (blob : Bytes) : Prop :=
  ∀ chunk ∈ chunksExact BYTES_PER_FIELD_ELEMENT blob,
    beNat chunk < Fr.modulus

instance (blob : Bytes) : Decidable (CanonicalChunks blob) :=
  inferInstanceAs (Decidable (∀ chunk ∈ _, _))

/-- The elements of a canonical blob are written back to it. -/
theorem frBytes_canonical {blob : Bytes}
    (h : blob.length % BYTES_PER_FIELD_ELEMENT = 0)
    (hcanonical : CanonicalChunks blob) :
    frBytes ((chunksExact BYTES_PER_FIELD_ELEMENT blob).map
      fun chunk => ((beNat chunk : Nat) : Fr)) = blob := by
  have hchunk : ∀ chunk ∈ chunksExact BYTES_PER_FIELD_ELEMENT blob,
      Fr.toBytesBe ((beNat chunk : Nat) : Fr) = chunk := by
    intro chunk hmem
    have hlen : chunk.length = 32 := length_of_mem_chunksExact hmem
    have hback := beBytes_beNat chunk
    rw [hlen] at hback
    rw [Fr.toBytesBe, ZMod.val_cast_of_lt (hcanonical chunk hmem), hback]
  have hwhole : blob.length
      = blob.length / BYTES_PER_FIELD_ELEMENT * BYTES_PER_FIELD_ELEMENT :=
    (Nat.div_mul_cancel (Nat.dvd_of_mod_eq_zero h)).symm
  unfold frBytes
  rw [List.flatMap_map]
  calc (chunksExact BYTES_PER_FIELD_ELEMENT blob).flatMap
        (fun chunk => Fr.toBytesBe ((beNat chunk : Nat) : Fr))
      = (chunksExact BYTES_PER_FIELD_ELEMENT blob).flatMap id :=
        List.flatMap_congr hchunk
    _ = (chunksExact BYTES_PER_FIELD_ELEMENT blob).flatten :=
        List.flatMap_id
    _ = blob := flatten_chunksExact (by norm_num) hwhole

-- ============================================================ one blob

/-- The parser accepts exactly the blobs of whole canonical chunks, and
what it accepts is written back as it was. -/
structure ParsesExactly (blob : Bytes) : Prop where
  accepts : (∃ fs, toFrArrayCanonical blob = .ok fs)
    ↔ blob.length % BYTES_PER_FIELD_ELEMENT = 0 ∧ CanonicalChunks blob
  restores : ∀ fs, toFrArrayCanonical blob = .ok fs →
    toByteArray fs blob.length = some blob

/-- Only whole chunks are accepted. -/
theorem length_of_toFrArrayCanonical {blob : Bytes} {fs : List Fr}
    (h : toFrArrayCanonical blob = .ok fs) :
    blob.length % BYTES_PER_FIELD_ELEMENT = 0 := by
  by_contra hmod
  rw [toFrArrayCanonical, if_pos hmod] at h
  cases h

/-- A blob is parsed exactly unless it is one of whole chunks that are
not all canonical. -/
theorem parsesExactly_iff (blob : Bytes) :
    ParsesExactly blob
      ↔ (blob.length % BYTES_PER_FIELD_ELEMENT = 0 → CanonicalChunks blob) := by
  constructor
  · intro h hmod
    exact (h.accepts.mp ⟨_, toFrArrayCanonical_eq hmod⟩).2
  · intro h
    constructor
    · constructor
      · intro hok
        obtain ⟨fs, hfs⟩ := hok
        have hmod := length_of_toFrArrayCanonical hfs
        exact ⟨hmod, h hmod⟩
      · intro hblob
        exact ⟨_, toFrArrayCanonical_eq hblob.1⟩
    · intro fs hfs
      have hmod := length_of_toFrArrayCanonical hfs
      rw [toFrArrayCanonical_eq hmod] at hfs
      rw [← Except.ok.inj hfs]
      have hlen : blob.length
          = ((chunksExact BYTES_PER_FIELD_ELEMENT blob).map
            fun chunk => ((beNat chunk : Nat) : Fr)).length
            * BYTES_PER_FIELD_ELEMENT := by
        rw [List.length_map, length_chunksExact,
          Nat.div_mul_cancel (Nat.dvd_of_mod_eq_zero hmod)]
      rw [hlen, toByteArray_eq, frBytes_canonical hmod (h hmod)]

-- =========================================================== two blobs

/-- The evaluations of a parsed blob are its elements, then zeros. -/
theorem evaluations_of_blobPolynomial {blob : Bytes}
    {poly : PolynomialEvalForm} (h : blobPolynomial blob = .ok poly) :
    blob.length % BYTES_PER_FIELD_ELEMENT = 0
      ∧ ∃ k, poly.evaluations
        = (chunksExact BYTES_PER_FIELD_ELEMENT blob).map
            (fun chunk => ((beNat chunk : Nat) : Fr)) ++ List.replicate k 0 := by
  unfold blobPolynomial at h
  cases hfs : toFrArrayCanonical blob with
  | error e =>
      rw [hfs] at h
      cases h
  | ok fs =>
      have hmod := length_of_toFrArrayCanonical hfs
      rw [hfs] at h
      rw [toFrArrayCanonical_eq hmod] at hfs
      refine ⟨hmod, nextPowerOfTwo fs.length - fs.length, ?_⟩
      change PolynomialEvalForm.new fs = .ok poly at h
      obtain ⟨-, hevals, -⟩ := PolynomialEvalForm.new_eq_ok_iff.mp h
      rw [hevals, Except.ok.inj hfs]

/-- Canonical blobs of one length are told apart by their
evaluations. -/
theorem eq_of_evaluations {blob blob' : Bytes} {poly poly' : PolynomialEvalForm}
    (hlen : blob.length = blob'.length) (hcanonical : CanonicalChunks blob)
    (hcanonical' : CanonicalChunks blob') (h : blobPolynomial blob = .ok poly)
    (h' : blobPolynomial blob' = .ok poly')
    (heq : poly.evaluations = poly'.evaluations) : blob = blob' := by
  obtain ⟨hmod, k, hevals⟩ := evaluations_of_blobPolynomial h
  obtain ⟨hmod', k', hevals'⟩ := evaluations_of_blobPolynomial h'
  rw [hevals, hevals'] at heq
  have hfs := List.append_inj_left heq (by
    rw [List.length_map, List.length_map, length_chunksExact,
      length_chunksExact, hlen])
  rw [← frBytes_canonical hmod hcanonical, hfs,
    frBytes_canonical hmod' hcanonical']

/-- Two blobs of one length are parsed exactly, and have different
evaluations if they differ, unless they are of whole chunks that are
not all canonical. -/
theorem blobs_parse_exactly_iff {blob blob' : Bytes}
    (hlen : blob.length = blob'.length) :
    (ParsesExactly blob ∧ ParsesExactly blob'
        ∧ (blob ≠ blob' → ∀ poly poly', blobPolynomial blob = .ok poly →
          blobPolynomial blob' = .ok poly' →
          poly.evaluations ≠ poly'.evaluations))
      ↔ (blob.length % BYTES_PER_FIELD_ELEMENT = 0 →
          CanonicalChunks blob ∧ CanonicalChunks blob') := by
  rw [parsesExactly_iff, parsesExactly_iff]
  constructor
  · intro h hmod
    exact ⟨h.1 hmod, h.2.1 (hlen ▸ hmod)⟩
  · intro h
    refine ⟨fun hmod => (h hmod).1, fun hmod => (h (hlen ▸ hmod)).2, ?_⟩
    intro hne poly poly' hpoly hpoly' heq
    have hboth := h (evaluations_of_blobPolynomial hpoly).1
    exact hne (eq_of_evaluations hlen hboth.1 hboth.2 hpoly hpoly' heq)

/-- Zero and one, one chunk each. -/
theorem blobs_parse_exactly_zero_one :
    ParsesExactly (beBytes 32 0) ∧ ParsesExactly (beBytes 32 1) :=
  have h := (@blobs_parse_exactly_iff (beBytes 32 0) (beBytes 32 1)
    rfl).mpr fun _ => ⟨by decide +kernel, by decide +kernel⟩
  ⟨h.1, h.2.1⟩

/-- The modulus itself, as a chunk, is read as zero: it is accepted and
written back as another blob, and no evaluation tells the two apart. -/
theorem modulus_parsed_as_zero :
    toFrArrayCanonical (beBytes 32 Fr.modulus) = .ok [0]
      ∧ ¬ CanonicalChunks (beBytes 32 Fr.modulus)
      ∧ toByteArray [0] 32 = some (beBytes 32 0)
      ∧ beBytes 32 Fr.modulus ≠ beBytes 32 0
      ∧ (∃ poly, blobPolynomial (beBytes 32 Fr.modulus) = .ok poly
        ∧ blobPolynomial (beBytes 32 0) = .ok poly)
      ∧ ¬ ParsesExactly (beBytes 32 Fr.modulus) := by
  have hparse : toFrArrayCanonical (beBytes 32 Fr.modulus) = .ok [0] := by
    rw [toFrArrayCanonical_eq (by decide)]
    decide +kernel
  have hzero : toFrArrayCanonical (beBytes 32 0) = .ok [0] := by
    rw [toFrArrayCanonical_eq (by decide)]
    decide +kernel
  have hnot : ¬ CanonicalChunks (beBytes 32 Fr.modulus) := by
    decide +kernel
  obtain ⟨poly, hpoly⟩ :=
    @PolynomialEvalForm.exists_new [0] (by norm_num)
  have hmodulus : blobPolynomial (beBytes 32 Fr.modulus) = .ok poly := by
    rw [blobPolynomial, hparse]
    exact hpoly
  have hzeros : blobPolynomial (beBytes 32 0) = .ok poly := by
    rw [blobPolynomial, hzero]
    exact hpoly
  exact ⟨hparse, hnot, by decide +kernel, by decide +kernel,
    ⟨poly, hmodulus, hzeros⟩, fun h => hnot (h.accepts.mp ⟨_, hparse⟩).2⟩

end Hokulea
