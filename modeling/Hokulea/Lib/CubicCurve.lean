/-
The group of points of a curve `y^2 = x^3 + b` over a field, on top of
the group law of the Weierstrass curves.

Two results. `nsmul_eq_zero_of_generator`: a point of prime order `r`
makes `r` the exponent of the whole group, when the field is too small
for a third coset and the curve has no point of order two — a curve has
at most two points over each first coordinate. `nsmul_eq_zero_of_eval`:
the order of a given point is a computation on coordinates below the
prime, which double-and-add performs and the kernel evaluates.
-/
import Mathlib.AlgebraicGeometry.EllipticCurve.Affine.Point
import Mathlib.FieldTheory.Finite.Basic
import Mathlib.GroupTheory.Perm.Cycle.Type
import Mathlib.GroupTheory.SpecificGroups.Cyclic
import Hokulea.Lib.Primality

open WeierstrassCurve

namespace CubicCurve

-- ========================================================== the curve

section Curve

variable {F : Type*} [Field F]

/-- `y^2 = x^3 + b` -/
abbrev curve (b : F) : Affine F := ⟨0, 0, 0, 0, b⟩

theorem equation_iff {b x y : F} :
    (curve b).Equation x y ↔ y ^ 2 = x ^ 3 + b := by
  rw [Affine.equation_iff]
  simp

theorem negY_eq (b x y : F) : (curve b).negY x y = -y := by
  simp [Affine.negY]

/-- Away from the characteristics two and three every solution is a
point. -/
theorem nonsingular_iff {b x y : F} (htwo : (2 : F) ≠ 0)
    (hthree : (3 : F) ≠ 0) (hb : b ≠ 0) :
    (curve b).Nonsingular x y ↔ y ^ 2 = x ^ 3 + b := by
  rw [← equation_iff, Affine.equation_iff_nonsingular_of_Δ_ne_zero]
  have hΔ : (curve b).Δ = -(2 ^ 4 * 3 ^ 3 * b ^ 2) := by
    simp only [WeierstrassCurve.Δ, WeierstrassCurve.b₂, WeierstrassCurve.b₄,
      WeierstrassCurve.b₆, WeierstrassCurve.b₈]
    ring
  rw [hΔ]
  apply neg_ne_zero.mpr
  exact mul_ne_zero (mul_ne_zero (pow_ne_zero 4 htwo) (pow_ne_zero 3 hthree))
    (pow_ne_zero 2 hb)

end Curve

-- =================================================== counting points

section Count

variable {F : Type*} [Field F] [DecidableEq F] {b : F}

open Classical in
/-- The first coordinate of a point, and whether the second one is the
root chosen for it. -/
noncomputable def half : (curve b).Point → Option (F × Bool)
  | .zero => none
  | .some x y _ =>
      some (x, decide (∃ h : ∃ z, z ^ 2 = x ^ 3 + b, y = h.choose))

/-- Over one first coordinate the two roots are opposite, so a point is
determined by which of them it has. -/
theorem half_injective : Function.Injective (half (b := b)) := by
  intro P Q h
  cases P with
  | zero =>
      cases Q with
      | zero => rfl
      | some x y hQ => cases h
  | some x y hP =>
      cases Q with
      | zero => cases h
      | some x' y' hQ =>
          simp only [half, Option.some.injEq, Prod.mk.injEq,
            decide_eq_decide] at h
          obtain ⟨rfl, hroot⟩ := h
          have hy := equation_iff.mp hP.1
          have hy' := equation_iff.mp hQ.1
          have hex : ∃ z, z ^ 2 = x ^ 3 + b := ⟨y, hy⟩
          have hz := hex.choose_spec
          have hsign : ∀ {v : F}, v ^ 2 = x ^ 3 + b →
              v = hex.choose ∨ v = -hex.choose := fun hv =>
            sq_eq_sq_iff_eq_or_eq_neg.mp (hv.trans hz.symm)
          have hyy : y = y' := by
            rcases hsign hy with hl | hl
            · obtain ⟨_, hr⟩ := hroot.mp ⟨hex, hl⟩
              exact hl.trans hr.symm
            · rcases hsign hy' with hr | hr
              · obtain ⟨_, hl⟩ := hroot.mpr ⟨hex, hr⟩
                exact hl.trans hr.symm
              · exact hl.trans hr.symm
          subst hyy
          rfl

/-- A point is its own opposite only on the first axis. -/
theorem eq_zero_of_add_self (htwo : (2 : F) ≠ 0)
    (hroot : ∀ x : F, x ^ 3 + b ≠ 0) {P : (curve b).Point}
    (h : P + P = 0) : P = 0 := by
  cases P with
  | zero => rfl
  | some x y hP =>
      exfalso
      have hneg := eq_neg_of_add_eq_zero_left h
      rw [Affine.Point.neg_some] at hneg
      simp only [Affine.Point.some.injEq, negY_eq, true_and] at hneg
      have hy : y = 0 := by
        have hdouble : 2 * y = 0 := by linear_combination hneg
        exact (mul_eq_zero.mp hdouble).resolve_left htwo
      apply hroot x
      rw [← equation_iff.mp hP.1, hy, zero_pow two_ne_zero]

variable [Finite F]

instance : Finite (curve b).Point := Finite.of_injective half half_injective

/-- At most two points for each first coordinate, and the identity. -/
theorem card_le : Nat.card (curve b).Point ≤ 2 * Nat.card F + 1 := by
  have hcard := Nat.card_le_card_of_injective half (half_injective (b := b))
  rwa [Finite.card_option, Nat.card_prod, @Nat.card_eq_fintype_card Bool,
    Fintype.card_bool, Nat.mul_comm] at hcard

/-- The order of one point of prime order is the order of the group:
the number of points is a multiple of it below the third, and even only
if there is a point of order two. -/
theorem natCard_of_generator {r : Nat} [hr : Fact r.Prime]
    (hbound : 2 * Nat.card F + 1 < 3 * r) (htwo : (2 : F) ≠ 0)
    (hroot : ∀ x : F, x ^ 3 + b ≠ 0) {G : (curve b).Point} (hne : G ≠ 0)
    (hG : r • G = 0) : Nat.card (curve b).Point = r := by
  obtain ⟨m, hm⟩ : r ∣ Nat.card (curve b).Point := by
    rw [← addOrderOf_eq_prime hG hne]
    exact addOrderOf_dvd_natCard G
  have hlt : m < 3 := by
    have hle := card_le (b := b)
    rw [hm] at hle
    by_contra hge
    have := Nat.mul_le_mul_left r (Nat.le_of_not_lt hge)
    omega
  have hzero : m ≠ 0 := by
    intro hz
    have hpos : 0 < Nat.card (curve b).Point := Nat.card_pos
    rw [hm, hz] at hpos
    omega
  have hodd : m ≠ 2 := by
    intro heq
    have heven : 2 ∣ Nat.card (curve b).Point := by rw [hm, heq]; omega
    obtain ⟨Q, hQ⟩ := exists_prime_addOrderOf_dvd_card' 2 heven
    have hQQ : Q + Q = 0 := by
      rw [← two_nsmul, ← hQ]
      exact addOrderOf_nsmul_eq_zero Q
    rw [eq_zero_of_add_self htwo hroot hQQ, addOrderOf_zero] at hQ
    omega
  have hone : m = 1 := by omega
  rw [hm, hone, mul_one]

end Count

-- ========================================== computing with coordinates

section Coordinates

/-- `a / c` modulo the prime `p`, for residues, by Fermat's theorem. -/
def divMod (p k a c : Nat) : Nat :=
  a * Primality.powMod p k c (p - 2) % p

/-- The third point of the line of slope `l` through two points,
reflected. -/
def chord (p l x₁ y₁ x₂ : Nat) : Nat × Nat :=
  let x₃ := (l * l + (p - x₁) + (p - x₂)) % p
  (x₃, (l * (x₁ + (p - x₃)) + (p - y₁)) % p)

/-- The group law on coordinates below `p`; the identity is `none`. -/
def addCoords (p k : Nat) :
    Option (Nat × Nat) → Option (Nat × Nat) → Option (Nat × Nat)
  | none, Q => Q
  | P, none => P
  | some (x₁, y₁), some (x₂, y₂) =>
      if x₁ = x₂ then
        if (y₁ + y₂) % p = 0 then none
        else some
          (chord p (divMod p k (3 * x₁ * x₁) (2 * y₁)) x₁ y₁ x₂)
      else some
        (chord p (divMod p k (y₁ + (p - y₂)) (x₁ + (p - x₂))) x₁ y₁ x₂)

variable {p : Nat} [hp : Fact p.Prime] {b : ZMod p}

/-- Coordinates below `p` represent the point that has them. -/
def Represents (o : Option (Nat × Nat)) (P : (curve b).Point) : Prop :=
  match o with
  | none => P = 0
  | some (x, y) => x < p ∧ y < p ∧ ∃ h, P = .some (x : ZMod p) (y : ZMod p) h

theorem divMod_cast {k a c : Nat} (hk : p < 2 ^ k) (htwo : 2 < p) :
    ((divMod p k a c : Nat) : ZMod p) = a / c := by
  have hinv : (c : ZMod p) ^ (p - 2) = (c : ZMod p)⁻¹ := by
    by_cases hc : (c : ZMod p) = 0
    · rw [hc, inv_zero, zero_pow (by omega)]
    · apply eq_inv_of_mul_eq_one_left
      rw [← pow_succ, show p - 2 + 1 = p - 1 by omega]
      exact ZMod.pow_card_sub_one_eq_one hc
  unfold divMod
  rw [ZMod.natCast_mod, Nat.cast_mul, Primality.powMod_cast (by omega), hinv,
    div_eq_mul_inv]

theorem cast_sub_self {x : Nat} (h : x < p) :
    ((p - x : Nat) : ZMod p) = -x := by
  rw [Nat.cast_sub h.le, ZMod.natCast_self, zero_sub]

/-- The chord of the slope of two points is their sum. -/
theorem chord_represents {l x₁ y₁ x₂ y₂ : Nat} (hx₁ : x₁ < p) (hy₁ : y₁ < p)
    (hx₂ : x₂ < p)
    {h₁ : (curve b).Nonsingular (x₁ : ZMod p) (y₁ : ZMod p)}
    {h₂ : (curve b).Nonsingular (x₂ : ZMod p) (y₂ : ZMod p)}
    (hne : ¬((x₁ : ZMod p) = x₂
      ∧ (y₁ : ZMod p) = (curve b).negY (x₂ : ZMod p) (y₂ : ZMod p)))
    (hl : (l : ZMod p) = (curve b).slope (x₁ : ZMod p) x₂ y₁ y₂) :
    Represents (b := b) (some (chord p l x₁ y₁ x₂))
      (.some _ _ h₁ + .some _ _ h₂) := by
  have hpos : 0 < p := hp.out.pos
  have hx₃ : ((chord p l x₁ y₁ x₂).1 : ZMod p)
      = (curve b).addX (x₁ : ZMod p) x₂
        ((curve b).slope (x₁ : ZMod p) x₂ y₁ y₂) := by
    simp only [chord]
    rw [← hl, ZMod.natCast_mod]
    push_cast [cast_sub_self hx₁, cast_sub_self hx₂]
    simp only [Affine.addX]
    ring
  have hlt : (chord p l x₁ y₁ x₂).1 < p := Nat.mod_lt _ hpos
  have hy₃ : ((chord p l x₁ y₁ x₂).2 : ZMod p)
      = (curve b).addY (x₁ : ZMod p) x₂ y₁
        ((curve b).slope (x₁ : ZMod p) x₂ y₁ y₂) := by
    have hcast : ((chord p l x₁ y₁ x₂).2 : ZMod p)
        = l * (x₁ - ((chord p l x₁ y₁ x₂).1 : ZMod p)) - y₁ := by
      rw [chord] at hlt
      simp only [chord]
      rw [ZMod.natCast_mod]
      simp only [Nat.cast_add, Nat.cast_mul, cast_sub_self hy₁,
        cast_sub_self hlt]
      ring
    rw [hcast, hx₃]
    simp only [Affine.addY, negY_eq, Affine.negAddY, ← hl]
    ring
  refine ⟨hlt, Nat.mod_lt _ hpos, ?_⟩
  show ∃ h, _ = Affine.Point.some ((chord p l x₁ y₁ x₂).1 : ZMod p)
    ((chord p l x₁ y₁ x₂).2 : ZMod p) h
  rw [hx₃, hy₃]
  exact ⟨Affine.nonsingular_add h₁ h₂ hne, Affine.Point.add_some hne⟩

/-- Adding coordinates adds the points they represent. -/
theorem addCoords_represents {k : Nat} (hk : p < 2 ^ k) (htwo : 2 < p)
    {o₁ o₂ : Option (Nat × Nat)} {P Q : (curve b).Point}
    (hP : Represents o₁ P) (hQ : Represents o₂ Q) :
    Represents (addCoords p k o₁ o₂) (P + Q) := by
  match o₁, o₂ with
  | none, o₂ =>
      have hzero : P = 0 := hP
      rw [hzero, zero_add]
      exact hQ
  | some (x₁, y₁), none =>
      have hzero : Q = 0 := hQ
      rw [hzero, add_zero]
      exact hP
  | some (x₁, y₁), some (x₂, y₂) =>
      obtain ⟨hx₁, hy₁, h₁, rfl⟩ := hP
      obtain ⟨hx₂, hy₂, h₂, rfl⟩ := hQ
      simp only [addCoords]
      by_cases hx : x₁ = x₂
      · rw [if_pos hx]
        subst hx
        have hopp : (y₁ + y₂) % p = 0
            ↔ (y₁ : ZMod p) = (curve b).negY (x₁ : ZMod p) y₂ := by
          rw [negY_eq, ← add_eq_zero_iff_eq_neg, ← Nat.cast_add,
            ZMod.natCast_eq_zero_iff]
          exact (Nat.dvd_iff_mod_eq_zero).symm
        by_cases hy : (y₁ + y₂) % p = 0
        · rw [if_pos hy]
          exact Affine.Point.add_of_Y_eq rfl (hopp.mp hy)
        · rw [if_neg hy]
          have hne := fun h => hy (hopp.mpr h)
          apply chord_represents hx₁ hy₁ hx₂ fun h => hne h.2
          rw [divMod_cast hk htwo, Affine.slope_of_Y_ne rfl hne, negY_eq]
          push_cast
          congr 1
          · ring
          · ring
      · rw [if_neg hx]
        have hne : (x₁ : ZMod p) ≠ x₂ := by
          rw [ne_eq, ZMod.natCast_eq_natCast_iff', Nat.mod_eq_of_lt hx₁,
            Nat.mod_eq_of_lt hx₂]
          exact hx
        apply chord_represents hx₁ hy₁ hx₂ fun h => hne h.1
        rw [divMod_cast hk htwo, Affine.slope_of_X_ne hne]
        push_cast [cast_sub_self hx₂, cast_sub_self hy₂]
        rw [sub_eq_add_neg, sub_eq_add_neg]

/-- A point is killed by `n` when double-and-add on its coordinates ends
at the identity. -/
theorem nsmul_eq_zero_of_eval {k m n x y : Nat} (hk : p < 2 ^ k)
    (htwo : 2 < p) (hn : n < 2 ^ m) (hx : x < p) (hy : y < p)
    (h : (curve b).Nonsingular (x : ZMod p) (y : ZMod p))
    (heval : Primality.nsmulBits (addCoords p k) none (some (x, y)) m n
      = none) :
    n • Affine.Point.some (x : ZMod p) (y : ZMod p) h = 0 := by
  have hrel := @Primality.nsmulBits_rel _ (curve b).Point _
    (fun o P => Represents o P) _ none (some (x, y)) _ rfl
    (fun hb hc => addCoords_represents hk htwo hb hc) ⟨hx, hy, h, rfl⟩ _ _ hn
  rw [heval] at hrel
  exact hrel

end Coordinates

end CubicCurve
