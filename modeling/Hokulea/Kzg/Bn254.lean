/-
The bn254 library as the verifier uses it: the two prime fields with
their conversions, the first group with its affine points, multi-scalar
multiplication and the pairing.

The fields and the first group are the real ones: the moduli are
certified primes, the group is that of the points of `y^2 = x^3 + 3`,
and its order is computed here, so that it is a vector space over the
scalar field. The second group and the pairing are a structure with the
laws of a pairing.
-/
import Mathlib.Algebra.Module.ZMod
import Hokulea.EigendaCert.Types
import Hokulea.Lib.CubicCurve
import Hokulea.Lib.Montgomery

namespace Hokulea

open Bytes CubicCurve WeierstrassCurve

-- ========================================================== the fields

/-- The order of the base field. -/
def Fq.modulus : Nat :=
  21888242871839275222246405745257275088696311157297823662689037894645226208583

/-- The order of the scalar field, and of the groups. -/
def Fr.modulus : Nat :=
  21888242871839275222246405745257275088548364400416034343698204186575808495617

/-- `Fq` -/
abbrev Fq := ZMod Fq.modulus

/-- `Fr` -/
abbrev Fr := ZMod Fr.modulus

/-- A certificate of the base field's order. -/
def Fq.certificate : List Primality.Step :=
  [⟨13427688667394608761327070753331941386769, 17,
      [2, 2, 2, 2, 3, 7, 11, 1853641, 4562087, 173171039,
        2480874801745591]⟩,
    ⟨2480874801745591, 6, [2, 3, 3, 5, 19, 41, 35385462869]⟩,
    ⟨35385462869, 2, [2, 2, 7, 1263766531]⟩,
    ⟨11465965001, 3, [2, 2, 2, 5, 5, 5, 5, 7, 327599]⟩,
    ⟨1263766531, 10, [2, 3, 5, 13, 911, 3557]⟩,
    ⟨405928799, 22, [2, 11, 3691, 4999]⟩,
    ⟨173171039, 13, [2, 73, 89, 13327]⟩,
    ⟨4562087, 5, [2, 17, 109, 1231]⟩,
    ⟨1853641, 17, [2, 2, 2, 3, 3, 5, 19, 271]⟩,
    ⟨327599, 19, [2, 19, 37, 233]⟩]

/-- A certificate of the scalar field's order. -/
def Fr.certificate : List Primality.Step :=
  [⟨13818364434197438864469338081, 3,
      [2, 2, 2, 2, 2, 5, 823, 1593227, 65865678001877903]⟩,
    ⟨65865678001877903, 5, [2, 83, 379, 1637, 639533339]⟩,
    ⟨1670836401704629, 2, [2, 2, 3, 3, 3, 3, 5156902474397]⟩,
    ⟨5156902474397, 2, [2, 2, 107, 12048837557]⟩,
    ⟨12048837557, 2, [2, 2, 7, 7, 661, 93001]⟩,
    ⟨639533339, 2, [2, 229, 853, 1637]⟩,
    ⟨405928799, 22, [2, 11, 3691, 4999]⟩,
    ⟨1593227, 2, [2, 19, 41927]⟩,
    ⟨237073, 15, [2, 2, 2, 2, 3, 11, 449]⟩,
    ⟨93001, 14, [2, 2, 2, 3, 5, 5, 5, 31]⟩]

theorem Fq.prime : Fq.modulus.Prime :=
  @Primality.prime_of_certified 254 256
    ⟨Fq.modulus, 3, [2, 3, 3, 13, 29, 67, 229, 311, 983, 11003,
      405928799, 11465965001, 13427688667394608761327070753331941386769]⟩
    Fq.certificate
    (by show Primality.certified 254 256 _ = true; decide +kernel)

theorem Fr.prime : Fr.modulus.Prime :=
  @Primality.prime_of_certified 254 256
    ⟨Fr.modulus, 5, List.replicate 28 2 ++ [3, 3, 13, 29, 983, 11003,
      237073, 405928799, 1670836401704629, 13818364434197438864469338081]⟩
    Fr.certificate
    (by show Primality.certified 254 256 _ = true; decide +kernel)

instance : Fact Fq.modulus.Prime := ⟨Fq.prime⟩

instance : Fact Fr.modulus.Prime := ⟨Fr.prime⟩

theorem Fq.two_ne_zero : (2 : Fq) ≠ 0 := by decide +kernel

theorem Fq.three_ne_zero : (3 : Fq) ≠ 0 := by decide +kernel

theorem Fq.modulus_lt : Fq.modulus < 256 ^ 32 := by decide +kernel

theorem Fr.modulus_lt : Fr.modulus < 256 ^ 32 := by decide +kernel

-- =================================================== field conversions

/-- `FieldError`, the variant the conversions raise. -/
inductive FieldError where
  | invalidSliceLength
  deriving DecidableEq, Repr

/-- `Fq::from_be_bytes_mod_order` -/
def Fq.fromBeBytesModOrder (bs : Bytes) : Except FieldError Fq :=
  if bs.length = 32 then .ok (beNat bs : Fq) else .error .invalidSliceLength

/-- `Fq::to_big_endian` into 32 bytes, the canonical value. -/
def Fq.toBigEndian (a : Fq) : Bytes := beBytes 32 a.val

/-- `Fr::from_bytes_be_mod_order` -/
def Fr.fromBytesBeModOrder (bs : Bytes) : Except FieldError Fr :=
  if bs.length = 32 then .ok (beNat bs : Fr) else .error .invalidSliceLength

/-- The radix of the internal representation. -/
def Fr.R : Nat := 2 ^ 256

/-- The element with an internal representation. -/
def Fr.ofRepr (n : Nat) : Fr := n * (Fr.R : Fr)⁻¹

/-- `Fr::from_slice`: no modulus check, the raw integer is multiplied by
the square of the radix to become an internal representation. -/
def Fr.fromSlice (bs : Bytes) : Except FieldError Fr :=
  if bs.length = 32 then
    .ok (Fr.ofRepr (Montgomery.mul Fr.modulus Fr.R
      52454480824480482120356829342366457550537710351690908576382634413609933864959
      (beNat bs) (Fr.R ^ 2 % Fr.modulus)))
  else .error .invalidSliceLength

/-- `into_u256`, then `to_bytes_be`. -/
def Fr.toBytesBe (a : Fr) : Bytes := beBytes 32 a.val

/-- `Fr::inverse` -/
def Fr.inverse (a : Fr) : Option Fr := if a = 0 then none else some a⁻¹

/-- `Fr::pow` -/
def Fr.pow (a e : Fr) : Fr := a ^ e.val

/-- `Fr::from_str`, of ASCII digits. -/
def Fr.fromStr (s : Bytes) : Option Fr :=
  s.foldlM (fun acc c =>
    if 48 ≤ c ∧ c ≤ 57 then some (10 * acc + ((c.toNat - 48 : Nat) : Fr))
    else none) 0

theorem Fq.length_toBigEndian (a : Fq) : a.toBigEndian.length = 32 :=
  length_beBytes 32 _

theorem Fr.length_toBytesBe (a : Fr) : a.toBytesBe.length = 32 :=
  length_beBytes 32 _

/-- Writing an element and reading it back. -/
theorem Fq.fromBeBytesModOrder_toBigEndian (a : Fq) :
    Fq.fromBeBytesModOrder a.toBigEndian = .ok a := by
  unfold Fq.fromBeBytesModOrder Fq.toBigEndian
  rw [if_pos (length_beBytes 32 _),
    beNat_beBytes (lt_trans (ZMod.val_lt a) Fq.modulus_lt),
    ZMod.natCast_zmod_val]

theorem Fr.R_ne_zero : (Fr.R : Fr) ≠ 0 := by
  rw [ne_eq, ZMod.natCast_eq_zero_iff]
  decide +kernel

/-- The multiplication by the square of the radix reduces: a raw slice
is read as its residue, whether it is below the modulus or not. -/
theorem Fr.fromSlice_eq {bs : Bytes} (h : bs.length = 32) :
    Fr.fromSlice bs = .ok (beNat bs : Fr) := by
  unfold Fr.fromSlice
  rw [if_pos h]
  congr 1
  have hmod := @Montgomery.mul_modEq Fr.modulus Fr.R
    52454480824480482120356829342366457550537710351690908576382634413609933864959
    (by decide +kernel) (beNat bs) (Fr.R ^ 2 % Fr.modulus)
  have hcast := (ZMod.natCast_eq_natCast_iff _ _ Fr.modulus).mpr hmod
  push_cast [ZMod.natCast_mod] at hcast
  unfold Fr.ofRepr
  rw [← div_eq_mul_inv, div_eq_iff Fr.R_ne_zero]
  apply mul_right_cancel₀ Fr.R_ne_zero
  rw [hcast]
  ring

-- ====================================================== the first group

/-- `G1`: the points of `y^2 = x^3 + 3` over the base field. -/
abbrev G1 := (curve (3 : Fq)).Point

/-- Every solution of the equation is a point. -/
theorem G1.nonsingular {x y : Fq} (h : y ^ 2 = x ^ 3 + 3) :
    (curve (3 : Fq)).Nonsingular x y :=
  (nonsingular_iff Fq.two_ne_zero Fq.three_ne_zero Fq.three_ne_zero).mpr h

/-- `G1::one`, the point `(1, 2)`. -/
def G1.one : G1 :=
  .some ((1 : Nat) : Fq) ((2 : Nat) : Fq) (G1.nonsingular (by decide +kernel))

theorem G1.one_ne_zero : G1.one ≠ 0 := Affine.Point.some_ne_zero _

/-- The scalar modulus kills the generator, by double-and-add. -/
theorem G1.modulus_nsmul_one : Fr.modulus • G1.one = 0 := by
  apply nsmul_eq_zero_of_eval (k := 254) (m := 254)
  · decide +kernel
  · decide +kernel
  · decide +kernel
  · decide +kernel
  · decide +kernel
  · decide +kernel

/-- No point of order two: `-3` is not a cube, as its power to a third
of the order of the unit group is not one. -/
theorem Fq.cube_add_three_ne_zero (x : Fq) : x ^ 3 + 3 ≠ 0 := by
  intro h
  have hx : x ≠ 0 := by
    rintro rfl
    rw [zero_pow (by norm_num), zero_add] at h
    exact Fq.three_ne_zero h
  have hthird : Fq.modulus - 1 = 3 * ((Fq.modulus - 1) / 3) := by
    decide +kernel
  have hcube : x ^ 3 = ((Fq.modulus - 3 : Nat) : Fq) := by
    rw [Nat.cast_sub (by decide +kernel), ZMod.natCast_self, Nat.cast_ofNat]
    linear_combination h
  have hone : ((Fq.modulus - 3 : Nat) : Fq) ^ ((Fq.modulus - 1) / 3) = 1 := by
    rw [← hcube, ← pow_mul, ← hthird]
    exact ZMod.pow_card_sub_one_eq_one hx
  rw [← Primality.powMod_eq_one_iff (k := 254) Fq.prime.two_le
    (by decide +kernel)] at hone
  exact absurd hone (by decide +kernel)

/-- The group has the prime order of the scalar field. -/
theorem G1.natCard : Nat.card G1 = Fr.modulus :=
  natCard_of_generator (by rw [Nat.card_zmod]; decide +kernel)
    Fq.two_ne_zero Fq.cube_add_three_ne_zero G1.one_ne_zero
    G1.modulus_nsmul_one

instance : Module Fr G1 := AddCommGroup.zmodModule fun P => by
  rw [← G1.natCard]
  exact card_nsmul_eq_zero'

/-- The generator generates. -/
theorem G1.exists_smul_one (P : G1) : ∃ s : Fr, P = s • G1.one := by
  have hmem := @mem_multiples_of_prime_card _ _ Fr.modulus _ G1.natCard
    _ P G1.one_ne_zero
  obtain ⟨n, hn⟩ := hmem
  refine ⟨n, ?_⟩
  rw [Nat.cast_smul_eq_nsmul]
  exact hn.symm

-- ======================================================= affine points

/-- `GroupError`, the variant `AffineG1::new` raises. -/
inductive GroupError where
  | notOnCurve
  deriving DecidableEq, Repr

/-- `AffineG1`: a solution of the equation, or the identity, whose
coordinates are both zero. -/
structure AffineG1 where
  x : Fq
  y : Fq
  valid : (x = 0 ∧ y = 0) ∨ y ^ 2 = x ^ 3 + 3
  deriving DecidableEq

namespace AffineG1

/-- `AffineG1::new`; the group has no smaller subgroup to check for. -/
def new (x y : Fq) : Except GroupError AffineG1 :=
  if h : y ^ 2 = x ^ 3 + 3 then .ok ⟨x, y, .inr h⟩ else .error .notOnCurve

/-- `AffineG1::default` -/
def default : AffineG1 := ⟨0, 0, .inl ⟨rfl, rfl⟩⟩

/-- `From<AffineG1> for G1` -/
def toG1 (p : AffineG1) : G1 :=
  if h : p.x = 0 ∧ p.y = 0 then 0
  else .some p.x p.y (G1.nonsingular (p.valid.resolve_left h))

/-- `AffineG1::from_jacobian`: the identity has none. -/
def fromJacobian : G1 → Option AffineG1
  | .zero => none
  | .some x y h => some ⟨x, y, .inr (equation_iff.mp h.1)⟩

/-- The affine point of a group element. -/
def ofG1 (P : G1) : AffineG1 := (fromJacobian P).getD default

/-- `AffineG1::msm`, which panics on an empty slice. -/
def msm (points : List AffineG1) (scalars : List Fr) : Option AffineG1 :=
  if points.isEmpty then none
  else some (ofG1 (List.zipWith (fun s p => s • p.toG1) scalars points).sum)

/-- Zero is no first coordinate with a zero second one. -/
theorem not_zero_of_equation {x y : Fq} (h : y ^ 2 = x ^ 3 + 3) :
    ¬(x = 0 ∧ y = 0) := by
  rintro ⟨rfl, rfl⟩
  apply Fq.three_ne_zero
  linear_combination -h

@[simp] theorem toG1_default : default.toG1 = 0 := dif_pos ⟨rfl, rfl⟩

/-- The identity has the zero coordinates. -/
theorem toG1_eq_zero_iff {p : AffineG1} :
    p.toG1 = 0 ↔ p.x = 0 ∧ p.y = 0 := by
  unfold toG1
  split
  next h => simp [h]
  next h => simp [h]

@[simp] theorem ofG1_zero : ofG1 0 = default := rfl

@[simp] theorem toG1_ofG1 (P : G1) : (ofG1 P).toG1 = P := by
  cases P with
  | zero => exact toG1_default
  | some x y h => exact dif_neg (not_zero_of_equation (equation_iff.mp h.1))

@[simp] theorem ofG1_toG1 (p : AffineG1) : ofG1 p.toG1 = p := by
  unfold toG1
  by_cases h : p.x = 0 ∧ p.y = 0
  · rw [dif_pos h, ofG1_zero]
    obtain ⟨x, y, hp⟩ := p
    obtain ⟨rfl, rfl⟩ := h
    rfl
  · rw [dif_neg h]
    rfl

theorem toG1_injective : Function.Injective toG1 :=
  Function.LeftInverse.injective ofG1_toG1

/-- Away from the identity the conversion succeeds. -/
theorem fromJacobian_eq_some {P : G1} (h : P ≠ 0) :
    fromJacobian P = some (ofG1 P) := by
  cases P with
  | zero => exact absurd rfl h
  | some x y hP => rfl

/-- `new` gives back every point but the identity, which it rejects. -/
theorem new_coordinates (p : AffineG1) :
    new p.x p.y = if p.toG1 = 0 then .error .notOnCurve else .ok p := by
  unfold new
  by_cases h : p.x = 0 ∧ p.y = 0
  · rw [if_pos (toG1_eq_zero_iff.mpr h), dif_neg]
    rw [h.1, h.2]
    decide +kernel
  · rw [if_neg (fun hz => h (toG1_eq_zero_iff.mp hz)),
      dif_pos (p.valid.resolve_left h)]

end AffineG1

-- ========================================================== the pairing

/-- The second group and the pairing, with the trusted setup's point:
bilinear, and not trivial on the two generators. -/
structure Pairing (G2 Gt : Type*) [AddCommGroup G2] [Module Fr G2]
    [CommGroup Gt] where
  /-- `AffineG2::one` -/
  one : G2
  /-- `g2_tau` -/
  tau : G2
  pairing : G1 → G2 → Gt
  pairing_add_left : ∀ (P Q : G1) (S : G2),
    pairing (P + Q) S = pairing P S * pairing Q S
  pairing_add_right : ∀ (P : G1) (S T : G2),
    pairing P (S + T) = pairing P S * pairing P T
  generates : ∀ S : G2, ∃ s : Fr, S = s • one
  nondegenerate : pairing G1.one one ≠ 1

namespace Pairing

variable {G2 Gt : Type*} [AddCommGroup G2] [Module Fr G2] [CommGroup Gt]
  (E : Pairing G2 Gt)

/-- `pairing_batch` -/
def pairingBatch (pairs : List (G1 × G2)) : Gt :=
  (pairs.map fun (P, S) => E.pairing P S).prod

@[simp] theorem pairing_zero_left (S : G2) : E.pairing 0 S = 1 := by
  have h := E.pairing_add_left 0 0 S
  rw [add_zero] at h
  exact left_eq_mul.mp h

@[simp] theorem pairing_zero_right (P : G1) : E.pairing P 0 = 1 := by
  have h := E.pairing_add_right P 0 0
  rw [add_zero] at h
  exact left_eq_mul.mp h

theorem pairing_neg_left (P : G1) (S : G2) :
    E.pairing (-P) S = (E.pairing P S)⁻¹ := by
  apply eq_inv_of_mul_eq_one_left
  rw [← E.pairing_add_left, neg_add_cancel, E.pairing_zero_left]

theorem pairing_nsmul_left (n : Nat) (P : G1) (S : G2) :
    E.pairing (n • P) S = E.pairing P S ^ n := by
  induction n with
  | zero => rw [zero_nsmul, pow_zero, E.pairing_zero_left]
  | succ n ih => rw [succ_nsmul, pow_succ, E.pairing_add_left, ih]

theorem pairing_nsmul_right (n : Nat) (P : G1) (S : G2) :
    E.pairing P (n • S) = E.pairing P S ^ n := by
  induction n with
  | zero => rw [zero_nsmul, pow_zero, E.pairing_zero_right]
  | succ n ih => rw [succ_nsmul, pow_succ, E.pairing_add_right, ih]

/-- A scalar moves from one side to the other. -/
theorem pairing_smul (s : Fr) (P : G1) (S : G2) :
    E.pairing P (s • S) = E.pairing (s • P) S := by
  have hs : ((s.val : Nat) : Fr) = s := ZMod.natCast_zmod_val s
  rw [← hs, Nat.cast_smul_eq_nsmul, Nat.cast_smul_eq_nsmul,
    E.pairing_nsmul_left, E.pairing_nsmul_right]

/-- Only the identity pairs trivially with the generator. -/
theorem pairing_one_eq_one_iff {P : G1} : E.pairing P E.one = 1 ↔ P = 0 := by
  constructor
  · intro h
    obtain ⟨s, rfl⟩ := G1.exists_smul_one P
    by_cases hs : s = 0
    · rw [hs]
      exact zero_smul Fr G1.one
    · exfalso
      apply E.nondegenerate
      have hinv : G1.one = s⁻¹.val • s • G1.one := by
        rw [← Nat.cast_smul_eq_nsmul Fr, ZMod.natCast_zmod_val, smul_smul,
          inv_mul_cancel₀ hs, one_smul]
      rw [hinv, E.pairing_nsmul_left, h, one_pow]
  · intro h
    rw [h, E.pairing_zero_left]

/-- Pairings with the generator are equal for equal points only. -/
theorem pairing_one_inj {P Q : G1} :
    E.pairing P E.one = E.pairing Q E.one ↔ P = Q := by
  rw [← mul_inv_eq_one, ← E.pairing_neg_left, ← E.pairing_add_left,
    E.pairing_one_eq_one_iff, add_neg_eq_zero]

/-- The first group paired with its scalars, by multiplication: a
pairing with any setup scalar. -/
def ofScalar (τ : Fr) : Pairing Fr (Multiplicative G1) where
  one := 1
  tau := τ
  pairing P s := Multiplicative.ofAdd (s • P)
  pairing_add_left P Q s := by rw [smul_add, ofAdd_add]
  pairing_add_right P s t := by rw [add_smul, ofAdd_add]
  generates s := ⟨s, by rw [smul_eq_mul, mul_one]⟩
  nondegenerate := by
    rw [one_smul, ne_eq, ofAdd_eq_one]
    exact G1.one_ne_zero

end Pairing

end Hokulea
