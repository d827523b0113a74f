/-
Polynomials in evaluation form: the list of a polynomial's values at
the powers of a root of unity.

`ofEvals ω fs` is the polynomial of degree below the number of values
that takes them. Its value at a power of the root is read off the list;
elsewhere it is the barycentric sum, whose weights are the powers of the
root themselves.

The quotient of a polynomial by the line through a point opens it there.
How often a quotient can pass that opens it to another value, and how
often two polynomials can agree, is counted by their degrees.
-/
import Mathlib.Data.List.GetD
import Mathlib.Data.Set.Card
import Mathlib.LinearAlgebra.Lagrange
import Mathlib.RingTheory.RootsOfUnity.PrimitiveRoots

open Polynomial

namespace EvalForm

variable {F : Type*} [Field F] {ω : F} {fs : List F}

/-- The polynomial with the values `fs` at the powers of `ω`. -/
noncomputable def ofEvals (ω : F) (fs : List F) : F[X] :=
  Lagrange.interpolate (Finset.range fs.length) (fun i => ω ^ i)
    (fun i => fs.getD i 0)

/-- The powers of a primitive root below its order are distinct. -/
theorem injOn_pow {n : Nat} (hω : IsPrimitiveRoot ω n) :
    Set.InjOn (fun i => ω ^ i) (Finset.range n : Set Nat) := by
  intro i hi j hj h
  exact hω.pow_inj (by simpa using hi) (by simpa using hj) h

theorem degree_ofEvals_lt (hω : IsPrimitiveRoot ω fs.length) :
    (ofEvals ω fs).degree < fs.length := by
  have h := Lagrange.degree_interpolate_lt (fun i => fs.getD i 0)
    (injOn_pow hω)
  rwa [Finset.card_range] at h

theorem natDegree_ofEvals_lt (hω : IsPrimitiveRoot ω fs.length)
    (hpos : fs ≠ []) : (ofEvals ω fs).natDegree < fs.length := by
  by_cases hzero : ofEvals ω fs = 0
  · rw [hzero, natDegree_zero]
    exact List.length_pos_iff.mpr hpos
  · exact (natDegree_lt_iff_degree_lt hzero).mpr (degree_ofEvals_lt hω)

/-- At a power of the root, the value of the list. -/
theorem eval_ofEvals_pow (hω : IsPrimitiveRoot ω fs.length) {i : Nat}
    (hi : i < fs.length) : (ofEvals ω fs).eval (ω ^ i) = fs[i] := by
  have h := Lagrange.eval_interpolate_at_node (fun i => fs.getD i 0)
    (injOn_pow hω) (Finset.mem_range.mpr hi)
  rw [List.getD_eq_getElem _ _ hi] at h
  exact h

/-- It is the only one of its degree. -/
theorem eq_ofEvals (hω : IsPrimitiveRoot ω fs.length) {p : F[X]}
    (hp : p.degree < fs.length)
    (heval : ∀ i (hi : i < fs.length), p.eval (ω ^ i) = fs[i]) :
    p = ofEvals ω fs := by
  apply Lagrange.eq_interpolate_of_eval_eq _ (injOn_pow hω)
  · rwa [Finset.card_range]
  · intro i hi
    have hlt := Finset.mem_range.mp hi
    rw [List.getD_eq_getElem _ _ hlt]
    exact heval i hlt

/-- A list of zeros is the zero polynomial. -/
theorem ofEvals_replicate_zero (ω : F) (n : Nat) :
    ofEvals ω (List.replicate n 0) = 0 := by
  unfold ofEvals
  rw [show (fun i => (List.replicate n (0 : F)).getD i 0) = 0 by
    funext i
    by_cases hi : i < n
    · rw [List.getD_eq_getElem _ _ (by simpa using hi)]
      simp
    · rw [List.getD_eq_default _ _ (by simpa using hi)]
      rfl]
  exact map_zero _

-- ======================================================= barycentric

/-- The powers of a primitive root are the roots of `X^n - 1`. -/
theorem nodal_eq {n : Nat} (hn : 0 < n) (hω : IsPrimitiveRoot ω n) :
    Lagrange.nodal (Finset.range n) (fun i => ω ^ i) = X ^ n - 1 := by
  have hmonic : (X ^ n - C (1 : F)).Monic := monic_X_pow_sub_C 1 hn.ne'
  have hdeg : (X ^ n - C (1 : F)).natDegree = n := natDegree_X_pow_sub_C
  rw [← C_1]
  symm
  apply Polynomial.eq_of_degree_sub_lt_of_eval_index_eq _ (injOn_pow hω)
  · rw [Finset.card_range]
    have hsub := degree_sub_lt_left (p := X ^ n - C (1 : F))
      (q := Lagrange.nodal (Finset.range n) fun i => ω ^ i)
      (by
        rw [Lagrange.degree_nodal, Finset.card_range,
          degree_eq_natDegree hmonic.ne_zero, hdeg])
      hmonic.ne_zero
      (by rw [hmonic.leadingCoeff, Lagrange.nodal_monic.leadingCoeff])
    rwa [degree_eq_natDegree hmonic.ne_zero, hdeg] at hsub
  · intro i hi
    rw [Lagrange.eval_nodal_at_node hi]
    simp only [eval_sub, eval_pow, eval_X, eval_C]
    rw [← pow_mul, Nat.mul_comm, pow_mul, hω.pow_eq_one, one_pow, sub_self]

/-- The weight of a power of the root is the power over the order. -/
theorem nodalWeight_eq {n i : Nat} (hi : i < n) (hω : IsPrimitiveRoot ω n) :
    Lagrange.nodalWeight (Finset.range n) (fun i => ω ^ i) i
      = ω ^ i * (n : F)⁻¹ := by
  have hn : 0 < n := by omega
  have hone : (ω ^ i) ^ n = 1 := by
    rw [← pow_mul, Nat.mul_comm, pow_mul, hω.pow_eq_one, one_pow]
  have hne : ω ^ i ≠ 0 := by
    intro h0
    rw [h0, zero_pow hn.ne'] at hone
    exact zero_ne_one hone
  have hpred : (ω ^ i) ^ (n - 1) = (ω ^ i)⁻¹ := by
    apply eq_inv_of_mul_eq_one_left
    rw [← pow_succ, Nat.sub_add_cancel hn, hone]
  rw [Lagrange.nodalWeight_eq_eval_derivative_nodal (Finset.mem_range.mpr hi),
    nodal_eq hn hω]
  simp only [derivative_sub, derivative_X_pow, derivative_one, sub_zero,
    eval_mul, eval_C, eval_pow, eval_X]
  rw [hpred, mul_inv, inv_inv, mul_comm]

/-- Away from the powers of the root, the barycentric sum. -/
theorem eval_ofEvals (hω : IsPrimitiveRoot ω fs.length) (hpos : fs ≠ [])
    {z : F} (hz : ∀ i < fs.length, z ≠ ω ^ i) :
    (ofEvals ω fs).eval z
      = (List.zipWith (fun f d => f * d * (z - d)⁻¹) fs
          ((List.range fs.length).map fun i => ω ^ i)).sum
        * (z ^ fs.length - 1) * (fs.length : F)⁻¹ := by
  have hn : 0 < fs.length := List.length_pos_iff.mpr hpos
  unfold ofEvals
  rw [Lagrange.eval_interpolate_not_at_node _
    (fun i hi => hz i (Finset.mem_range.mp hi)), nodal_eq hn hω]
  have hlist : List.zipWith (fun f d => f * d * (z - d)⁻¹) fs
      ((List.range fs.length).map fun i => ω ^ i)
      = (List.range fs.length).map
        fun i => fs.getD i 0 * ω ^ i * (z - ω ^ i)⁻¹ := by
    apply List.ext_getElem
    · simp
    · intro i hi hi'
      have hlt : i < fs.length := by simpa using hi'
      rw [List.getElem_zipWith, List.getElem_map, List.getElem_map,
        List.getElem_range, List.getD_eq_getElem _ _ hlt]
  have hsum : ∑ i ∈ Finset.range fs.length,
      Lagrange.nodalWeight (Finset.range fs.length) (fun i => ω ^ i) i
        * (z - ω ^ i)⁻¹ * fs.getD i 0
      = (∑ i ∈ Finset.range fs.length,
          fs.getD i 0 * ω ^ i * (z - ω ^ i)⁻¹) * (fs.length : F)⁻¹ := by
    rw [Finset.sum_mul]
    apply Finset.sum_congr rfl
    intro i hi
    rw [nodalWeight_eq (Finset.mem_range.mp hi) hω]
    ring
  have hfold : ((List.range fs.length).map
      fun i => fs.getD i 0 * ω ^ i * (z - ω ^ i)⁻¹).sum
      = ∑ i ∈ Finset.range fs.length,
          fs.getD i 0 * ω ^ i * (z - ω ^ i)⁻¹ := rfl
  rw [hlist, hfold, hsum]
  simp only [eval_sub, eval_pow, eval_X, eval_one]
  ring

-- =========================================================== openings

/-- The quotient of a polynomial by the line through `z`. -/
noncomputable def opening (p : F[X]) (z : F) : F[X] := p /ₘ (X - C z)

/-- What the opening at `z` opens. -/
theorem eval_opening (p : F[X]) (z t : F) :
    (t - z) * (opening p z).eval t = p.eval t - p.eval z := by
  have h := X_sub_C_mul_divByMonic_eq_sub_modByMonic p z
  rw [modByMonic_X_sub_C_eq_C_eval] at h
  have heval := congrArg (eval t) h
  simpa [opening] using heval

/-- The opening of a line is its slope. -/
theorem eval_opening_ne_zero {p : F[X]} (hp : p.natDegree ≤ 1) {a b : F}
    (hne : p.eval a ≠ p.eval b) {z t : F} (hzt : t ≠ z) :
    (opening p z).eval t ≠ 0 := by
  obtain ⟨k, m, hline⟩ := exists_eq_X_add_C_of_natDegree_le_one hp
  intro hzero
  have hopen := eval_opening p z t
  rw [hzero, mul_zero] at hopen
  apply hne
  rw [hline] at hopen ⊢
  simp only [eval_add, eval_mul, eval_C, eval_X] at hopen ⊢
  have hslope : k * (t - z) = 0 := by
    calc k * (t - z) = k * t + m - (k * z + m) := by ring
      _ = 0 := hopen.symm
  rw [(mul_eq_zero.mp hslope).resolve_right (sub_ne_zero.mpr hzt), zero_mul,
    zero_mul]

/-- A polynomial that is not zero vanishes at no more points than its
degree. -/
theorem ncard_roots_le {p : F[X]} (hp : p ≠ 0) :
    {t | p.eval t = 0}.ncard ≤ p.natDegree := by
  classical
  have hroots : {t | p.eval t = 0} = ↑p.roots.toFinset := by
    ext t
    rw [Finset.mem_coe, Multiset.mem_toFinset, mem_roots hp]
    rfl
  calc {t | p.eval t = 0}.ncard
      = p.roots.toFinset.card := by rw [hroots, Set.ncard_coe_finset]
    _ ≤ p.roots.card := Multiset.toFinset_card_le _
    _ ≤ p.natDegree := card_roots' p

/-- Two polynomials agree at fewer points than a bound on their
degrees. -/
theorem ncard_agree_lt {p q : F[X]} (hne : p ≠ q) {n : Nat}
    (hp : p.natDegree < n) (hq : q.natDegree < n) :
    {z | p.eval z = q.eval z}.ncard < n := by
  have hset : {z | p.eval z = q.eval z} = {z | (p - q).eval z = 0} := by
    ext z
    show p.eval z = q.eval z ↔ (p - q).eval z = 0
    rw [eval_sub, sub_eq_zero]
  rw [hset]
  calc {z | (p - q).eval z = 0}.ncard
      ≤ (p - q).natDegree := ncard_roots_le (sub_ne_zero.mpr hne)
    _ ≤ max p.natDegree q.natDegree := natDegree_sub_le p q
    _ < n := max_lt hp hq

/-- A quotient that opens a polynomial to another value than its own
passes at no more points than the bound on the degrees. -/
theorem ncard_forged_le {p q : F[X]} {z y : F} (hne : p.eval z ≠ y) {n : Nat}
    (hp : p.natDegree < n) (hq : q.natDegree < n) :
    {t | (t - z) * q.eval t = p.eval t - y}.ncard ≤ n := by
  have hzero : (X - C z) * q - (p - C y) ≠ 0 := by
    intro h
    have heval := congrArg (eval z) h
    simp only [eval_sub, eval_mul, eval_X, eval_C, sub_self, zero_mul,
      zero_sub, eval_zero, neg_eq_zero, sub_eq_zero] at heval
    exact hne heval
  have hset : {t | (t - z) * q.eval t = p.eval t - y}
      = {t : F | eval t ((X - C z) * q - (p - C y)) = 0} := by
    ext t
    show (t - z) * q.eval t = p.eval t - y
      ↔ eval t ((X - C z) * q - (p - C y)) = 0
    simp only [eval_sub, eval_mul, eval_X, eval_C]
    exact sub_eq_zero.symm
  have hproduct : ((X - C z) * q).natDegree ≤ n := by
    calc ((X - C z) * q).natDegree
        ≤ (X - C z).natDegree + q.natDegree := natDegree_mul_le
      _ = 1 + q.natDegree := by rw [natDegree_X_sub_C]
      _ ≤ n := by omega
  rw [hset]
  calc {t : F | eval t ((X - C z) * q - (p - C y)) = 0}.ncard
      ≤ ((X - C z) * q - (p - C y)).natDegree := ncard_roots_le hzero
    _ ≤ max ((X - C z) * q).natDegree (p - C y).natDegree :=
        natDegree_sub_le _ _
    _ ≤ n := max_le hproduct (by rw [natDegree_sub_C]; omega)

end EvalForm
