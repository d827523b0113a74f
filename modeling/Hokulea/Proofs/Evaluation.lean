/-
The evaluation the verifier computes is that of the polynomial.

Inside the domain the verifier reads the list, outside it sums the
barycentric form, and both are the value of the one polynomial with
these evaluations. No error branch and no panic is reached: the domain
is as large as the polynomial, and its size is not zero as a scalar.
-/
import Hokulea.Proofs.Domain
import Hokulea.Lib.EvalForm

namespace Hokulea

open Bytes

-- ============================================================== integers

/-- Reading one decimal digit. -/
theorem fromStr_digit {d : Nat} (hd : d < 10) (acc : Fr) :
    (if 48 ≤ UInt8.ofNat d + 48 ∧ UInt8.ofNat d + 48 ≤ 57 then
        some (10 * acc + (((UInt8.ofNat d + 48).toNat - 48 : Nat) : Fr))
      else none) = some (10 * acc + (d : Fr)) := by
  have h : ∀ d < 10, (48 ≤ UInt8.ofNat d + 48 ∧ UInt8.ofNat d + 48 ≤ 57)
      ∧ (UInt8.ofNat d + 48).toNat - 48 = d := by decide
  obtain ⟨hrange, hval⟩ := h d hd
  rw [if_pos hrange, hval]

/-- Reading digits back, the least significant one last. -/
theorem fromStr_digits {ds : List Nat} (h : ∀ d ∈ ds, d < 10) :
    Fr.fromStr ((ds.map fun d => UInt8.ofNat d + 48).reverse)
      = some ((Nat.ofDigits 10 ds : Nat) : Fr) := by
  induction ds with
  | nil =>
      show some (0 : Fr) = _
      simp [Nat.ofDigits]
  | cons d ds ih =>
      have ih := ih fun e he => h e (by simp [he])
      unfold Fr.fromStr at ih ⊢
      rw [List.map_cons, List.reverse_cons, List.foldlM_append, ih,
        Option.bind_eq_bind, Option.bind_some, List.foldlM_cons,
        fromStr_digit (h d (by simp)), Option.bind_eq_bind, Option.bind_some,
        List.foldlM_nil, Nat.ofDigits_cons]
      show some _ = some _
      congr 1
      push_cast
      ring

/-- The decimal detour is the cast. -/
theorem frFromUsize_eq (n : Nat) : frFromUsize n = some (n : Fr) := by
  unfold frFromUsize usizeToDecimal
  by_cases hn : n = 0
  · subst hn
    rw [if_pos rfl]
    have h := @fromStr_digits [0] (by simp)
    simpa using h
  · rw [if_neg hn, fromStr_digits fun d hd => Nat.digits_lt_base (by norm_num) hd,
      Nat.ofDigits_digits]

-- ========================================================= the evaluation

/-- The sum of the barycentric form, away from the domain. -/
theorem barycentricSum_eq {z : Fr} :
    ∀ {fs ds : List Fr} {sum : Fr}, (∀ d ∈ ds, z ≠ d) →
      barycentricSum z (fs.zip ds) sum
        = pure (sum + (List.zipWith (fun f d => f * d * (z - d)⁻¹) fs ds).sum)
  | [], ds, sum, _ => by simp [barycentricSum]
  | f :: fs, [], sum, _ => by simp [barycentricSum]
  | f :: fs, d :: ds, sum, h => by
      have hne : z - d ≠ 0 := sub_ne_zero.mpr (h d (by simp))
      rw [List.zip_cons_cons, barycentricSum]
      simp only [if_neg hne, Fr.inverse]
      show barycentricSum z (fs.zip ds) _ = _
      rw [barycentricSum_eq fun e he => h e (by simp [he]),
        List.zipWith_cons_cons, List.sum_cons, add_assoc]

namespace PolynomialEvalForm

/-- The number of field elements before the padding. -/
def size (self : PolynomialEvalForm) : Nat :=
  self.lenUnderlyingBlobBytes / BYTES_PER_FIELD_ELEMENT

/-- The root of unity of the polynomial's domain. -/
def root (self : PolynomialEvalForm) : Fr := tableRoot (Nat.clog 2 self.size)

/-- The polynomial with the evaluations on the powers of the root. -/
noncomputable def polynomial (self : PolynomialEvalForm) : Polynomial Fr :=
  EvalForm.ofEvals self.root self.evaluations

theorem size_le_srs (self : PolynomialEvalForm) :
    self.size ≤ MAINNET_SRS_G1_SIZE := by
  have h := Nat.div_le_div_right (c := BYTES_PER_FIELD_ELEMENT) self.size_le
  rwa [Nat.mul_div_cancel _ (by norm_num)] at h

theorem len_le_srs (self : PolynomialEvalForm) :
    self.len ≤ MAINNET_SRS_G1_SIZE := by
  rw [len, self.padded]
  exact nextPowerOfTwo_le self.size_le_srs

theorem isPrimitiveRoot_root (self : PolynomialEvalForm) :
    IsPrimitiveRoot self.root self.evaluations.length := by
  rw [self.padded]
  exact isPrimitiveRoot_tableRoot self.size_le_srs

theorem evaluations_ne_nil (self : PolynomialEvalForm) :
    self.evaluations ≠ [] := by
  rw [← List.length_pos_iff, self.padded]
  exact Nat.two_pow_pos _

/-- The size of a domain as a scalar. -/
theorem len_val (self : PolynomialEvalForm) :
    ((self.len : Nat) : Fr).val = self.len := by
  apply ZMod.val_cast_of_lt
  exact lt_of_le_of_lt self.len_le_srs (by decide +kernel)

theorem len_ne_zero (self : PolynomialEvalForm) :
    ((self.len : Nat) : Fr) ≠ 0 := by
  intro h
  have hval := self.len_val
  rw [h, ZMod.val_zero] at hval
  exact self.evaluations_ne_nil (List.length_eq_zero_iff.mp hval.symm)

/-- Its domain is the powers of its root, one for each evaluation. -/
theorem calculateRootsOfUnity_len (self : PolynomialEvalForm)
    (hsize : 0 < self.size) :
    calculateRootsOfUnity self.lenUnderlyingBlobBytes
      = pure ((List.range self.len).map fun j => self.root ^ j) := by
  have haligned : self.lenUnderlyingBlobBytes
      = self.size * BYTES_PER_FIELD_ELEMENT :=
    (Nat.div_mul_cancel (Nat.dvd_of_mod_eq_zero self.aligned)).symm
  have hlen : self.len = nextPowerOfTwo self.size := self.padded
  rw [haligned, calculateRootsOfUnity_eq hsize self.size_le_srs, hlen]
  rfl

/-- Every polynomial that was built from at least one field element is
evaluated, and the result is its value. -/
theorem evaluate_eq (self : PolynomialEvalForm) (hsize : 0 < self.size)
    (z : Fr) :
    evaluatePolynomialInEvaluationForm self z
      = pure (self.polynomial.eval z) := by
  have hinv : ((self.len : Nat) : Fr).inverse
      = some ((self.len : Nat) : Fr)⁻¹ := if_neg self.len_ne_zero
  unfold evaluatePolynomialInEvaluationForm
  simp only [self.calculateRootsOfUnity_len hsize, pure_bind, List.length_map,
    List.length_range, ne_eq, not_true_eq_false, if_false, frFromUsize_eq]
  rw [Outcome.lift_some, pure_bind, hinv]
  cases hidx : ((List.range self.len).map fun j => self.root ^ j).findIdx?
      (· = z) with
  | some idx =>
      rw [List.findIdx?_eq_some_iff_getElem] at hidx
      obtain ⟨hlt, hz, -⟩ := hidx
      have hidx : idx < self.evaluations.length := by simpa using hlt
      simp only [List.getElem_map, List.getElem_range, decide_eq_true_eq] at hz
      simp only [List.getElem?_eq_getElem hidx]
      rw [← hz]
      unfold polynomial
      rw [EvalForm.eval_ofEvals_pow self.isPrimitiveRoot_root hidx]
  | none =>
      rw [List.findIdx?_eq_none_iff] at hidx
      have hz : ∀ i < self.evaluations.length, z ≠ self.root ^ i := by
        intro i hi heq
        have := hidx (self.root ^ i)
          (List.mem_map_of_mem (List.mem_range.mpr hi))
        simp [heq] at this
      have hz' : ∀ d ∈ (List.range self.len).map fun j => self.root ^ j,
          z ≠ d := by
        intro d hd
        obtain ⟨i, hi, rfl⟩ := List.mem_map.mp hd
        exact hz i (List.mem_range.mp hi)
      simp only [barycentricSum_eq hz', pure_bind]
      show (pure _ : Outcome Fr) = _
      unfold polynomial Fr.pow
      rw [self.len_val, EvalForm.eval_ofEvals self.isPrimitiveRoot_root
        self.evaluations_ne_nil hz, zero_add]

end PolynomialEvalForm

-- ============================================================= the list

/-- The polynomial of a list of field elements: of degree below the
padded size, with the elements as its values on the powers of the
table's root, and zeros where the list is padded. -/
structure Interpolates (fs : List Fr) (P : Polynomial Fr) : Prop where
  degree_lt : P.degree < nextPowerOfTwo fs.length
  eval : ∀ i (hi : i < fs.length),
    P.eval (tableRoot (Nat.clog 2 fs.length) ^ i) = fs[i]
  eval_padding : ∀ i, fs.length ≤ i → i < nextPowerOfTwo fs.length →
    P.eval (tableRoot (Nat.clog 2 fs.length) ^ i) = 0

/-- A list has one polynomial: the one its evaluation form stands
for. -/
theorem interpolates_iff {fs : List Fr} (hle : fs.length ≤ MAINNET_SRS_G1_SIZE)
    {P : Polynomial Fr} :
    Interpolates fs P
      ↔ P = EvalForm.ofEvals (tableRoot (Nat.clog 2 fs.length))
        (fs ++ List.replicate (nextPowerOfTwo fs.length - fs.length) 0) := by
  have hlen := PolynomialEvalForm.length_padded fs
  have hroot : IsPrimitiveRoot (tableRoot (Nat.clog 2 fs.length))
      (fs ++ List.replicate (nextPowerOfTwo fs.length - fs.length)
        (0 : Fr)).length := by
    rw [hlen]
    exact isPrimitiveRoot_tableRoot hle
  constructor
  · intro h
    apply EvalForm.eq_ofEvals hroot
    · rw [hlen]
      exact h.degree_lt
    · intro i hi
      rw [hlen] at hi
      by_cases hin : i < fs.length
      · rw [List.getElem_append_left hin]
        exact h.eval i hin
      · rw [List.getElem_append_right (Nat.le_of_not_lt hin),
          List.getElem_replicate]
        exact h.eval_padding i (Nat.le_of_not_lt hin) hi
  · intro h
    subst h
    constructor
    · have hdegree := EvalForm.degree_ofEvals_lt hroot
      rwa [hlen] at hdegree
    · intro i hi
      rw [EvalForm.eval_ofEvals_pow hroot (by rw [List.length_append]; omega),
        List.getElem_append_left hi]
    · intro i hi hlt
      rw [EvalForm.eval_ofEvals_pow hroot (by rw [hlen]; exact hlt),
        List.getElem_append_right hi, List.getElem_replicate]

/-- Every list of at least one and at most `2 ^ 28` field elements is
evaluated at every scalar, in the domain or outside it, and the result
is the value of its polynomial. -/
theorem evaluate_new {fs : List Fr} (hpos : 1 ≤ fs.length)
    (hle : fs.length ≤ 2 ^ 28) (z : Fr) :
    IsPrimitiveRoot (tableRoot (Nat.clog 2 fs.length))
        (nextPowerOfTwo fs.length)
      ∧ ∃ poly P, PolynomialEvalForm.new fs = .ok poly
        ∧ Interpolates fs P ∧ (∀ Q, Interpolates fs Q → Q = P)
        ∧ evaluatePolynomialInEvaluationForm poly z = pure (P.eval z) := by
  have hsrs : fs.length ≤ MAINNET_SRS_G1_SIZE := by
    calc fs.length ≤ 2 ^ 28 := hle
      _ = MAINNET_SRS_G1_SIZE := by norm_num
  obtain ⟨poly, hnew⟩ := PolynomialEvalForm.exists_new hsrs
  obtain ⟨-, hevals, hbytes⟩ := PolynomialEvalForm.new_eq_ok_iff.mp hnew
  have hsize : poly.size = fs.length := by
    rw [PolynomialEvalForm.size, hbytes, Nat.mul_div_cancel _ (by norm_num)]
  have hpolynomial : Interpolates fs poly.polynomial := by
    rw [interpolates_iff hsrs, PolynomialEvalForm.polynomial,
      PolynomialEvalForm.root, hsize, hevals]
  refine ⟨isPrimitiveRoot_tableRoot hsrs, poly, poly.polynomial, hnew,
    hpolynomial, fun Q hQ => ?_, poly.evaluate_eq (by omega) z⟩
  rw [(interpolates_iff hsrs).mp hQ, (interpolates_iff hsrs).mp hpolynomial]

/-- Three elements, padded to four, at the first point of the domain:
the first of them. -/
theorem evaluate_new_three :
    ∃ poly, PolynomialEvalForm.new [7, 8, 9] = .ok poly
      ∧ evaluatePolynomialInEvaluationForm poly 1 = pure 7 := by
  obtain ⟨-, poly, P, hnew, hP, -, heval⟩ :=
    @evaluate_new [7, 8, 9] (by decide) (by decide) 1
  have hfirst := hP.eval 0 (by decide)
  rw [pow_zero] at hfirst
  refine ⟨poly, hnew, ?_⟩
  rw [heval, hfirst]
  rfl

end Hokulea
