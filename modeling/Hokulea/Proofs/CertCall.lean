/-
What the contract call that evaluates a certificate says about the
certificate: everything.

# What is proved

`build_eq_iff`: two commitments are evaluated by one call exactly when
their certificates are the same, a V2 certificate being the V3 one it is
called as. Neither canoe backend can be handed the verdict of another
certificate, nor can the answer to a V3 call be passed off as one to a V4
call, though the call's bytes name no version: the first offset inside
the certificate does, for V4 has a field more.

The commitment's two header bytes are not in the call, and nothing past
the parser looks at them: `build_faithful` adds that commitments with one
call are treated alike.

# How

Each struct has an ABI type, its conversion has it when the RLP form fits
a machine word, and is injective; `Abi.abiEncode_inj` does the rest.
-/
import Hokulea.Lib.AbiTyped
import Hokulea.Canoe.Provider
import Hokulea.Proofs.Parsing

namespace Hokulea

open Bytes Rlp
open Abi (Value Ty AllHaveType HaveTypes)

-- ======================================================= elementary types

/-- A machine word is less than a 256-bit one. -/
theorem lt_word {n : Nat} (h : n < 2 ^ 64) : n < 256 ^ 32 :=
  lt_trans h (by norm_num)

theorem hasType_word (w : BitVec 256) : (Value.word w).HasType .word := by
  rw [Value.HasType]
  trivial

theorem hasType_bytes {s : Bytes} (h : s.length < 2 ^ 64) :
    (Value.bytes s).HasType .bytes := by
  rw [Value.HasType]
  exact lt_word h

theorem hasType_array {α : Type} {as : List α} {f : α → Value} {t : Ty}
    (hlen : as.length < 2 ^ 64) (hall : ∀ a ∈ as, (f a).HasType t) :
    (Value.array (as.map f)).HasType (.array t) := by
  rw [Value.HasType, List.length_map]
  exact ⟨lt_word hlen, Abi.allHaveType_of_forall (List.forall_mem_map.mpr hall)⟩

@[simp] theorem U32.toSol_inj {x y : U32} : U32.toSol x = U32.toSol y ↔ x = y := by
  unfold U32.toSol
  rw [Value.word.injEq]
  constructor
  · intro h
    have hnat := congrArg BitVec.toNat h
    rw [BitVec.toNat_setWidth, BitVec.toNat_setWidth] at hnat
    apply BitVec.eq_of_toNat_eq
    omega
  · intro h
    rw [h]

@[simp] theorem U16.toSol_inj {x y : U16} : U16.toSol x = U16.toSol y ↔ x = y := by
  unfold U16.toSol
  rw [Value.word.injEq]
  constructor
  · intro h
    have hnat := congrArg BitVec.toNat h
    rw [BitVec.toNat_setWidth, BitVec.toNat_setWidth] at hnat
    apply BitVec.eq_of_toNat_eq
    omega
  · intro h
    rw [h]

@[simp] theorem U256.toSol_inj {x y : U256} :
    U256.toSol x = U256.toSol y ↔ x = y := by
  unfold U256.toSol
  rw [Value.word.injEq]

@[simp] theorem B256.toSol_inj {x y : B256} :
    B256.toSol x = B256.toSol y ↔ x = y := by
  have hlt : ∀ z : B256, beNat z.val < 2 ^ 256 := by
    intro z
    have h := beNat_lt z.val
    rw [z.property] at h
    exact lt_of_lt_of_le h (by norm_num)
  unfold B256.toSol
  rw [Value.word.injEq]
  constructor
  · intro h
    have hnat := congrArg BitVec.toNat h
    rw [BitVec.toNat_ofNat, BitVec.toNat_ofNat, Nat.mod_eq_of_lt (hlt x),
      Nat.mod_eq_of_lt (hlt y)] at hnat
    exact Subtype.ext (beNat_inj (x.property.trans y.property.symm) hnat)
  · intro h
    rw [h]

@[simp] theorem u32sToSol_inj {xs ys : List U32} :
    u32sToSol xs = u32sToSol ys ↔ xs = ys := by
  unfold u32sToSol
  rw [Value.array.injEq]
  exact List.map_inj_right fun _ _ => U32.toSol_inj.mp

/-- `uint32[]` -/
theorem hasType_u32s {xs : List U32} (h : xs.length < 2 ^ 64) :
    (u32sToSol xs).HasType (.array .word) :=
  hasType_array h fun _ _ => hasType_word _

-- ============================================================== structs

def G1Point.ty : Ty := .tuple [.word, .word]

theorem G1Point.hasType (p : G1Point) : p.toSol.HasType ty := by
  simp [toSol, ty, U256.toSol, Value.HasType, HaveTypes]

@[simp] theorem G1Point.toSol_inj {p q : G1Point} :
    p.toSol = q.toSol ↔ p = q := by
  cases p
  cases q
  simp [toSol]

def G2Point.ty : Ty := .tuple [.tuple [.word, .word], .tuple [.word, .word]]

theorem G2Point.hasType (p : G2Point) : p.toSol.HasType ty := by
  simp [toSol, ty, U256.toSol, Value.HasType, HaveTypes]

@[simp] theorem G2Point.toSol_inj {p q : G2Point} :
    p.toSol = q.toSol ↔ p = q := by
  obtain ⟨⟨_, _⟩, ⟨_, _⟩⟩ := p
  obtain ⟨⟨_, _⟩, ⟨_, _⟩⟩ := q
  simp [toSol, and_assoc]

def BlobCommitment.ty : Ty := .tuple [G1Point.ty, G2Point.ty, G2Point.ty, .word]

theorem BlobCommitment.hasType (b : BlobCommitment) : b.toSol.HasType ty := by
  simp [toSol, ty, U32.toSol, Value.HasType, HaveTypes, G1Point.hasType,
    G2Point.hasType]

@[simp] theorem BlobCommitment.toSol_inj {b d : BlobCommitment} :
    b.toSol = d.toSol ↔ b = d := by
  cases b
  cases d
  simp [toSol]

def BlobHeaderV2.ty : Ty := .tuple [.word, .bytes, BlobCommitment.ty, .word]

theorem BlobHeaderV2.hasType {b : BlobHeaderV2} (h : rlp.Sized b) :
    b.toSol.HasType ty := by
  obtain ⟨-, h⟩ := h.record.map.seq
  obtain ⟨hquorums, -⟩ := h.seq
  unfold toSol ty
  rw [Value.HasType]
  exact ⟨hasType_word _, hasType_bytes hquorums.string, b.commitment.hasType,
    hasType_word _, trivial⟩

@[simp] theorem BlobHeaderV2.toSol_inj {b d : BlobHeaderV2} :
    b.toSol = d.toSol ↔ b = d := by
  cases b
  cases d
  simp [toSol]

def BlobCertificate.ty : Ty := .tuple [BlobHeaderV2.ty, .bytes, .array .word]

theorem BlobCertificate.hasType {b : BlobCertificate} (h : rlp.Sized b) :
    b.toSol.HasType ty := by
  obtain ⟨hheader, h⟩ := h.record.map.seq
  obtain ⟨hsignature, hkeys⟩ := h.seq
  unfold toSol ty
  rw [Value.HasType]
  exact ⟨BlobHeaderV2.hasType hheader, hasType_bytes hsignature.string,
    hasType_u32s hkeys.vec.1, trivial⟩

@[simp] theorem BlobCertificate.toSol_inj {b d : BlobCertificate} :
    b.toSol = d.toSol ↔ b = d := by
  cases b
  cases d
  simp [toSol]

def BlobInclusionInfo.ty : Ty := .tuple [BlobCertificate.ty, .word, .bytes]

theorem BlobInclusionInfo.hasType {b : BlobInclusionInfo} (h : rlp.Sized b) :
    b.toSol.HasType ty := by
  obtain ⟨hcertificate, h⟩ := h.record.map.seq
  obtain ⟨-, hproof⟩ := h.seq
  unfold toSol ty
  rw [Value.HasType]
  exact ⟨BlobCertificate.hasType hcertificate, hasType_word _,
    hasType_bytes hproof.string, trivial⟩

@[simp] theorem BlobInclusionInfo.toSol_inj {b d : BlobInclusionInfo} :
    b.toSol = d.toSol ↔ b = d := by
  cases b
  cases d
  simp [toSol]

def BatchHeaderV2.ty : Ty := .tuple [.word, .word]

theorem BatchHeaderV2.hasType (b : BatchHeaderV2) : b.toSol.HasType ty := by
  simp [toSol, ty, B256.toSol, U32.toSol, Value.HasType, HaveTypes]

@[simp] theorem BatchHeaderV2.toSol_inj {b d : BatchHeaderV2} :
    b.toSol = d.toSol ↔ b = d := by
  cases b
  cases d
  simp [toSol]

def NonSignerStakesAndSignature.ty : Ty :=
  .tuple [.array .word, .array G1Point.ty, .array G1Point.ty, G2Point.ty,
    G1Point.ty, .array .word, .array .word, .array (.array .word)]

theorem NonSignerStakesAndSignature.hasType {n : NonSignerStakesAndSignature}
    (h : rlp.Sized n) : n.toSol.HasType ty := by
  obtain ⟨hbitmaps, h⟩ := h.record.map.seq
  obtain ⟨hpubkeys, h⟩ := h.seq
  obtain ⟨hapks, h⟩ := h.seq
  obtain ⟨-, h⟩ := h.seq
  obtain ⟨-, h⟩ := h.seq
  obtain ⟨hapkIndices, h⟩ := h.seq
  obtain ⟨htotals, hstakes⟩ := h.seq
  unfold toSol ty
  rw [Value.HasType]
  exact ⟨hasType_u32s hbitmaps.vec.1,
    hasType_array hpubkeys.vec.1 fun p _ => p.hasType,
    hasType_array hapks.vec.1 fun p _ => p.hasType,
    n.apkG2.hasType, n.sigma.hasType, hasType_u32s hapkIndices.vec.1,
    hasType_u32s htotals.vec.1,
    hasType_array hstakes.vec.1 fun xs hxs =>
      hasType_u32s (hstakes.vec.2 xs hxs).vec.1, trivial⟩

@[simp] theorem NonSignerStakesAndSignature.toSol_inj
    {n m : NonSignerStakesAndSignature} : n.toSol = m.toSol ↔ n = m := by
  have hpoints : ∀ {ps qs : List G1Point},
      ps.map G1Point.toSol = qs.map G1Point.toSol ↔ ps = qs :=
    List.map_inj_right fun _ _ => G1Point.toSol_inj.mp
  have hlists : ∀ {xs ys : List (List U32)},
      xs.map u32sToSol = ys.map u32sToSol ↔ xs = ys :=
    List.map_inj_right fun _ _ => u32sToSol_inj.mp
  cases n
  cases m
  simp [toSol, hpoints, hlists]

-- ========================================================= certificates

def EigenDACertV3.ty : Ty :=
  .tuple [BatchHeaderV2.ty, BlobInclusionInfo.ty,
    NonSignerStakesAndSignature.ty, .bytes]

theorem EigenDACertV3.hasType {c : EigenDACertV3} (h : rlp.Sized c) :
    c.toSol.HasType ty := by
  obtain ⟨-, h⟩ := h.record.map.seq
  obtain ⟨hinclusion, h⟩ := h.seq
  obtain ⟨hnonsigner, hquorums⟩ := h.seq
  unfold toSol ty
  rw [Value.HasType]
  exact ⟨c.batchHeaderV2.hasType, BlobInclusionInfo.hasType hinclusion,
    NonSignerStakesAndSignature.hasType hnonsigner,
    hasType_bytes hquorums.string, trivial⟩

@[simp] theorem EigenDACertV3.toSol_inj {c d : EigenDACertV3} :
    c.toSol = d.toSol ↔ c = d := by
  cases c
  cases d
  simp [toSol]

def EigenDACertV4.ty : Ty :=
  .tuple [BatchHeaderV2.ty, BlobInclusionInfo.ty,
    NonSignerStakesAndSignature.ty, .bytes, .word]

theorem EigenDACertV4.hasType {c : EigenDACertV4} (h : rlp.Sized c) :
    c.toSol.HasType ty := by
  obtain ⟨-, h⟩ := h.record.map.seq
  obtain ⟨hinclusion, h⟩ := h.seq
  obtain ⟨hnonsigner, h⟩ := h.seq
  obtain ⟨hquorums, -⟩ := h.seq
  unfold toSol ty
  rw [Value.HasType]
  exact ⟨c.batchHeaderV2.hasType, BlobInclusionInfo.hasType hinclusion,
    NonSignerStakesAndSignature.hasType hnonsigner,
    hasType_bytes hquorums.string, hasType_word _, trivial⟩

@[simp] theorem EigenDACertV4.toSol_inj {c d : EigenDACertV4} :
    c.toSol = d.toSol ↔ c = d := by
  cases c
  cases d
  simp [toSol]

/-- The V3 certificate that a V2 one is called as. -/
def EigenDACertV2.asV3 (c : EigenDACertV2) : EigenDACertV3 :=
  { batchHeaderV2 := c.batchHeaderV2
    blobInclusionInfo := c.blobInclusionInfo
    nonsignerStakeAndSignature := c.nonsignerStakeAndSignature
    signedQuorumNumbers := c.signedQuorumNumbers }

theorem EigenDACertV2.hasType_asV3 {c : EigenDACertV2} (h : rlp.Sized c) :
    c.asV3.toSol.HasType EigenDACertV3.ty := by
  obtain ⟨hinclusion, h⟩ := h.record.map.seq
  obtain ⟨-, h⟩ := h.seq
  obtain ⟨hnonsigner, hquorums⟩ := h.seq
  unfold EigenDACertV3.toSol EigenDACertV3.ty
  rw [Value.HasType]
  exact ⟨c.batchHeaderV2.hasType, BlobInclusionInfo.hasType hinclusion,
    NonSignerStakesAndSignature.hasType hnonsigner,
    hasType_bytes hquorums.string, trivial⟩

-- ========================================================== the call

/-- A V4 certificate's heads are a word longer than a V3 one's, so their
calls differ in the offset of the blob inclusion info. -/
theorem abiEncode_v3_ne_v4 {c : EigenDACertV3} {d : EigenDACertV4}
    (hc : c.toSol.HasType EigenDACertV3.ty)
    (hd : d.toSol.HasType EigenDACertV4.ty) :
    c.toSol.abiEncode ≠ d.toSol.abiEncode := by
  unfold EigenDACertV3.toSol EigenDACertV3.ty at hc
  unfold EigenDACertV4.toSol EigenDACertV4.ty at hd
  rw [Value.HasType] at hc hd
  exact Abi.abiEncode_ne hc hd rfl rfl rfl (by decide) (by decide) (by decide)

/-- The certificate the contract is called with: `CertVerifierCall::build`
has one interface for V3 and V4, and none for V2. -/
def EigenDAVersionedCert.called :
    EigenDAVersionedCert → EigenDACertV3 ⊕ EigenDACertV4
  | .v2 cert => .inl cert.asV3
  | .v3 cert => .inl cert
  | .v4 cert => .inr cert

namespace AltDACommitment

/-- The certificate called with has its ABI type, and the call is its
encoding. -/
theorem build_spec {c : AltDACommitment} (h : c.Addressable) :
    (∃ cert : EigenDACertV3, c.versionedCert.called = .inl cert
      ∧ cert.toSol.HasType EigenDACertV3.ty
      ∧ CertVerifierCall.build c = ⟨cert.toSol.abiEncode⟩)
    ∨ ∃ cert : EigenDACertV4, c.versionedCert.called = .inr cert
      ∧ cert.toSol.HasType EigenDACertV4.ty
      ∧ CertVerifierCall.build c = ⟨cert.toSol.abiEncode⟩ := by
  obtain ⟨commitmentType, daLayerByte, cert⟩ := c
  unfold Addressable toRlpBytes at h
  rw [List.length_append] at h
  have hsized := lt_of_le_of_lt (Nat.le_add_left _ _) h
  cases cert with
  | v2 cert => exact .inl ⟨_, rfl, EigenDACertV2.hasType_asV3 hsized, rfl⟩
  | v3 cert => exact .inl ⟨_, rfl, EigenDACertV3.hasType hsized, rfl⟩
  | v4 cert => exact .inr ⟨_, rfl, EigenDACertV4.hasType hsized, rfl⟩

/-- Two commitments are evaluated by one call exactly when the contract
is called with one certificate. -/
theorem build_eq_iff {c d : AltDACommitment} (hc : c.Addressable)
    (hd : d.Addressable) :
    CertVerifierCall.build c = CertVerifierCall.build d
      ↔ c.versionedCert.called = d.versionedCert.called := by
  rcases build_spec hc with ⟨x, hcx, hxty, hx⟩ | ⟨x, hcx, hxty, hx⟩
  · rcases build_spec hd with ⟨y, hdy, hyty, hy⟩ | ⟨y, hdy, hyty, hy⟩
    · rw [hcx, hdy, hx, hy, CertVerifierCall.mk.injEq, Sum.inl.injEq,
        ← EigenDACertV3.toSol_inj]
      exact ⟨Abi.abiEncode_inj hxty hyty, congrArg Value.abiEncode⟩
    · rw [hcx, hdy, hx, hy, CertVerifierCall.mk.injEq]
      exact iff_of_false (abiEncode_v3_ne_v4 hxty hyty) Sum.inl_ne_inr
  · rcases build_spec hd with ⟨y, hdy, hyty, hy⟩ | ⟨y, hdy, hyty, hy⟩
    · rw [hcx, hdy, hx, hy, CertVerifierCall.mk.injEq]
      exact iff_of_false (abiEncode_v3_ne_v4 hyty hxty).symm Sum.inr_ne_inl
    · rw [hcx, hdy, hx, hy, CertVerifierCall.mk.injEq, Sum.inr.injEq,
        ← EigenDACertV4.toSol_inj]
      exact ⟨Abi.abiEncode_inj hxty hyty, congrArg Value.abiEncode⟩

/-- What else is read off a commitment is in the certificate it is called
with. -/
theorem alike_of_called_eq {c d : AltDACommitment}
    (h : c.versionedCert.called = d.versionedCert.called) :
    c.blobCommitment = d.blobCommitment
      ∧ ∀ bn, checkRecency c bn = checkRecency d bn := by
  obtain ⟨_, _, cert⟩ := c
  obtain ⟨_, _, cert'⟩ := d
  cases cert with
  | v4 x =>
      cases cert' with
      | v4 y =>
          cases Sum.inr.inj h
          exact ⟨rfl, fun _ => rfl⟩
      | v2 y | v3 y => cases h
  | v2 x =>
      cases cert' with
      | v4 y => cases h
      | v2 y =>
          have hxy := EigenDACertV3.mk.inj (Sum.inl.inj h)
          exact ⟨congrArg (·.blobCertificate.blobHeader.commitment) hxy.2.1,
            fun _ => rfl⟩
      | v3 y =>
          cases Sum.inl.inj h
          exact ⟨rfl, fun _ => rfl⟩
  | v3 x =>
      cases cert' with
      | v4 y => cases h
      | v2 y | v3 y =>
          cases Sum.inl.inj h
          exact ⟨rfl, fun _ => rfl⟩

/-- The contract call tells any two certificates apart, up to the V2 form
of a V3 one; and commitments with one call are treated alike after it:
they expect one KZG commitment and as many field elements, and pass or
fail the recency check together in every block. -/
theorem build_faithful {c d : AltDACommitment} (hc : c.Addressable)
    (hd : d.Addressable) :
    (CertVerifierCall.build c = CertVerifierCall.build d
      ↔ c.versionedCert.called = d.versionedCert.called)
    ∧ (CertVerifierCall.build c = CertVerifierCall.build d →
        c.getKzgCommitment = d.getKzgCommitment
          ∧ c.getNumFieldElement = d.getNumFieldElement
          ∧ ∀ bn, checkRecency c bn = checkRecency d bn) := by
  refine ⟨build_eq_iff hc hd, fun h => ?_⟩
  obtain ⟨hblob, hrecency⟩ := alike_of_called_eq ((build_eq_iff hc hd).mp h)
  unfold getKzgCommitment getNumFieldElement
  rw [hblob]
  exact ⟨rfl, rfl, hrecency⟩

-- ------------------------------------------------- a concrete V2 call

/-- The V3 form of the nested V2 commitment, under other header bytes. -/
def nestedCommitmentV3 : AltDACommitment :=
  ⟨7, 9, nestedCommitment.versionedCert.called.elim .v3 .v4⟩

theorem nestedCommitmentV3_addressable : nestedCommitmentV3.Addressable := by
  decide +kernel

/-- Both forms make one call, the zero commitment another. -/
theorem build_faithful_nested :
    CertVerifierCall.build nestedCommitment
        = CertVerifierCall.build nestedCommitmentV3
      ∧ CertVerifierCall.build nestedCommitment
        ≠ CertVerifierCall.build (zeroCommitment 0 0) := by
  refine ⟨(build_faithful nestedCommitment_addressable
    nestedCommitmentV3_addressable).1.mpr rfl, fun h => ?_⟩
  have heq := (build_faithful nestedCommitment_addressable
    zeroCommitment_addressable).1.mp h
  cases heq

end AltDACommitment

end Hokulea
