/-
Linear combinations with the powers of one scalar as coefficients.

`powerSum r xs` is `x₀ + r • x₁ + r² • x₂ + …`. It is additive, and it
commutes with linear maps; so over a field it tests a whole list for
zero at once: a list that is not zero throughout has a zero combination
for fewer scalars than it has elements.
-/
import Mathlib.Algebra.Polynomial.Roots
import Mathlib.LinearAlgebra.Dual.Lemmas
import Mathlib.Data.Set.Card

open Polynomial

/-- The combination of a list with the powers of a scalar, by Horner's
rule. -/
def powerSum {F V : Type*} [Semiring F] [AddCommMonoid V] [Module F V]
    (r : F) : List V → V
  | [] => 0
  | x :: xs => x + r • powerSum r xs

-- ========================================================= linearity

section Linear

variable {F V W : Type*} [CommRing F] [AddCommGroup V] [Module F V]
  [AddCommGroup W] [Module F W]

/-- The combination with the powers written out. -/
theorem powerSum_eq_sum (r c : F) (xs : List V) :
    (List.zipWith (fun s x => s • x)
      ((List.range xs.length).map fun i => c * r ^ i) xs).sum
      = c • powerSum r xs := by
  induction xs generalizing c with
  | nil => simp [powerSum]
  | cons x xs ih =>
      have htail : (List.range xs.length).map ((fun i => c * r ^ i) ∘ Nat.succ)
          = (List.range xs.length).map fun i => (c * r) * r ^ i := by
        apply List.map_congr_left
        intro i _
        simp only [Function.comp_apply, Nat.succ_eq_add_one, pow_succ]
        ring
      rw [List.length_cons, List.range_succ_eq_map, List.map_cons,
        List.map_map, htail, List.zipWith_cons_cons, List.sum_cons, ih,
        powerSum, pow_zero, mul_one, smul_add, mul_smul]

theorem powerSum_map (f : V →ₗ[F] W) (r : F) (xs : List V) :
    powerSum r (xs.map f) = f (powerSum r xs) := by
  induction xs with
  | nil => simp [powerSum]
  | cons x xs ih => simp [powerSum, ih]

/-- A combination of sums is the sum of the combinations. -/
theorem powerSum_zipWith_add (r : F) :
    ∀ {xs ys : List V}, xs.length = ys.length →
      powerSum r (List.zipWith (· + ·) xs ys)
        = powerSum r xs + powerSum r ys
  | [], [], _ => by simp [powerSum]
  | x :: xs, y :: ys, h => by
      have hlen : xs.length = ys.length := by simpa using h
      rw [List.zipWith_cons_cons, powerSum, powerSum, powerSum,
        powerSum_zipWith_add r hlen, smul_add]
      abel

theorem powerSum_eq_zero (r : F) {xs : List V} (h : ∀ x ∈ xs, x = 0) :
    powerSum r xs = 0 := by
  induction xs with
  | nil => rfl
  | cons x xs ih =>
      rw [powerSum, h x (by simp), ih fun y hy => h y (by simp [hy]),
        smul_zero, add_zero]

end Linear

-- ==================================================== counting zeros

section Count

variable {F V : Type*} [Field F] [AddCommGroup V] [Module F V]

/-- The polynomial with a list of coefficients. -/
noncomputable def ofCoeffs : List F → F[X]
  | [] => 0
  | a :: as => C a + X * ofCoeffs as

theorem eval_ofCoeffs (r : F) (as : List F) :
    (ofCoeffs as).eval r = powerSum r as := by
  induction as with
  | nil => simp [ofCoeffs, powerSum]
  | cons a as ih => simp [ofCoeffs, powerSum, ih]

theorem ofCoeffs_eq_zero {as : List F} (h : ofCoeffs as = 0) :
    ∀ a ∈ as, a = 0 := by
  induction as with
  | nil => intro a ha; cases ha
  | cons b as ih =>
      have hb : b = 0 := by
        have := congrArg (eval 0) h
        simpa [ofCoeffs] using this
      have has : ofCoeffs as = 0 := by
        rw [ofCoeffs, hb, C_0, zero_add] at h
        exact (mul_eq_zero.mp h).resolve_left X_ne_zero
      intro a ha
      rcases List.mem_cons.mp ha with rfl | ha
      · exact hb
      · exact ih has a ha

theorem natDegree_ofCoeffs_le (as : List F) :
    (ofCoeffs as).natDegree ≤ as.length - 1 := by
  induction as with
  | nil => simp [ofCoeffs]
  | cons a as ih =>
      cases as with
      | nil => simp [ofCoeffs]
      | cons b bs =>
          rw [ofCoeffs]
          apply natDegree_add_le_of_degree_le (by simp)
          apply le_trans natDegree_mul_le
          rw [natDegree_X]
          simp only [List.length_cons] at ih ⊢
          omega

/-- A list with an element that is not zero has a zero combination for
fewer scalars than it has elements. A functional that does not vanish
on the element makes the combination a polynomial. -/
theorem ncard_powerSum_eq_zero_le {xs : List V} (h : ∃ x ∈ xs, x ≠ 0) :
    {r : F | powerSum r xs = 0}.ncard ≤ xs.length - 1 := by
  classical
  obtain ⟨x, hx, hne⟩ := h
  obtain ⟨f, hf⟩ : ∃ f : Module.Dual F V, f x ≠ 0 := by
    by_contra hall
    push Not at hall
    exact hne ((Module.forall_dual_apply_eq_zero_iff F x).mp hall)
  have hp : ofCoeffs (xs.map f) ≠ 0 := fun h0 =>
    hf (ofCoeffs_eq_zero h0 (f x) (List.mem_map_of_mem hx))
  have hsub : {r : F | powerSum r xs = 0}
      ⊆ ↑(ofCoeffs (xs.map f)).roots.toFinset := by
    intro r hr
    have hzero : powerSum r xs = 0 := hr
    rw [Finset.mem_coe, Multiset.mem_toFinset, mem_roots hp, IsRoot.def,
      eval_ofCoeffs, powerSum_map f r xs, hzero, map_zero]
  calc {r : F | powerSum r xs = 0}.ncard
      ≤ (↑(ofCoeffs (xs.map f)).roots.toFinset : Set F).ncard :=
        Set.ncard_le_ncard hsub (Finset.finite_toSet _)
    _ = (ofCoeffs (xs.map f)).roots.toFinset.card := Set.ncard_coe_finset _
    _ ≤ (ofCoeffs (xs.map f)).roots.card := Multiset.toFinset_card_le _
    _ ≤ (ofCoeffs (xs.map f)).natDegree := card_roots' _
    _ ≤ (xs.map f).length - 1 := natDegree_ofCoeffs_le _
    _ = xs.length - 1 := by rw [List.length_map]

end Count
