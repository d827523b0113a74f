/-
The batched pairing equation as a random linear combination.

With the setup's point written as `τ` times the generator, the equation
of one item says that its defect — a point of the first group — is the
identity, and the batched equation that the combination of the defects
with the powers of the challenge is. From there the two directions are
those of the power-sum library.

# The sentinel

Where `Cᵢ - yᵢ·G` is the identity the code puts `AffineG1::default()`
in its place. `cMinusY_eq` says that this is the affine form of the
difference in every case, so the case disappears from the algebra.
-/
import Hokulea.Kzg.Batch
import Hokulea.Lib.PowerSum

namespace Hokulea

-- ====================================================== the three sums

theorem computePowersFrom_eq (base current : Fr) (count : Nat) :
    computePowersFrom base current count
      = (List.range count).map fun i => current * base ^ i := by
  induction count generalizing current with
  | zero => rfl
  | succ count ih =>
      rw [computePowersFrom, ih, List.range_succ_eq_map, List.map_cons,
        List.map_map, pow_zero, mul_one]
      congr 1
      apply List.map_congr_left
      intro i _
      simp only [Function.comp_apply, Nat.succ_eq_add_one, pow_succ]
      ring

theorem length_computePowers (base : Fr) (count : Nat) :
    (computePowers base count).length = count := by
  unfold computePowers
  rw [computePowersFrom_eq, List.length_map, List.length_range]

/-- Combining with the computed powers is the power sum. -/
theorem sum_computePowers (r : Fr) (xs : List G1) :
    (List.zipWith (fun s x => s • x) (computePowers r xs.length) xs).sum
      = powerSum r xs := by
  unfold computePowers
  rw [computePowersFrom_eq, powerSum_eq_sum, one_smul]

/-- The multi-scalar multiplication of slices of one length, not
empty. -/
theorem g1Lincomb_eq {points : List AffineG1} {scalars : List Fr}
    (hlen : points.length = scalars.length) (hne : points ≠ []) :
    g1Lincomb points scalars = pure (List.zipWith (fun s x => s • x) scalars
      (points.map AffineG1.toG1)).sum := by
  have hempty : points.isEmpty = false := by
    rwa [List.isEmpty_eq_false_iff]
  unfold g1Lincomb AffineG1.msm
  rw [if_neg (not_not.mpr hlen), hempty, List.zipWith_map_right]
  show (pure (AffineG1.toG1 (AffineG1.ofG1 _)) : Outcome G1) = _
  rw [AffineG1.toG1_ofG1]

/-- The sentinel is the affine form of the identity, so the difference
is converted whether it is the identity or not. -/
theorem cMinusY_eq (c : AffineG1) (y : Fr) :
    cMinusY c y = some (AffineG1.ofG1 (c.toG1 - y • G1.one)) := by
  unfold cMinusY
  simp only
  by_cases h : c.toG1 - y • G1.one = 0
  · rw [if_pos h, h, AffineG1.ofG1_zero]
  · rw [if_neg h, AffineG1.fromJacobian_eq_some h]

/-- The differences of a batch. -/
theorem mapM_cMinusY (commitments : List AffineG1) (ys : List Fr) :
    (commitments.zip ys).mapM
        (fun (c, y) => (liftM (cMinusY c y) : Outcome AffineG1))
      = pure ((commitments.zip ys).map fun (c, y) =>
          AffineG1.ofG1 (c.toG1 - y • G1.one)) := by
  have hpure : (fun ((c, y) : AffineG1 × Fr) =>
      (liftM (cMinusY c y) : Outcome AffineG1))
      = fun (c, y) => pure (AffineG1.ofG1 (c.toG1 - y • G1.one)) := by
    funext ⟨c, y⟩
    show liftM (cMinusY c y) = _
    rw [cMinusY_eq]
    rfl
  rw [hpure]
  exact List.mapM_pure

-- =========================================================== the defects

/-- How far an item is from its equation. -/
def defect (τ : Fr) (commitment : AffineG1) (z y : Fr) (proof : AffineG1) :
    G1 :=
  (τ - z) • proof.toG1 - (commitment.toG1 - y • G1.one)

/-- The defects of a batch. -/
def defects (τ : Fr) :
    List AffineG1 → List Fr → List Fr → List AffineG1 → List G1
  | c :: cs, z :: zs, y :: ys, p :: ps =>
      defect τ c z y p :: defects τ cs zs ys ps
  | _, _, _, _ => []

/-- The four lists of a batch have one length. -/
structure SameLength (n : Nat) (commitments : List AffineG1)
    (zs ys : List Fr) (proofs : List AffineG1) : Prop where
  commitments : commitments.length = n
  zs : zs.length = n
  ys : ys.length = n
  proofs : proofs.length = n

theorem length_defects {τ : Fr} {n : Nat} {cs : List AffineG1}
    {zs ys : List Fr} {ps : List AffineG1} (h : SameLength n cs zs ys ps) :
    (defects τ cs zs ys ps).length = n := by
  obtain ⟨hc, hz, hy, hp⟩ := h
  induction n generalizing cs zs ys ps with
  | zero =>
      cases List.length_eq_zero_iff.mp hc
      rfl
  | succ n ih =>
      obtain ⟨c, cs, rfl⟩ := List.exists_cons_of_length_eq_add_one hc
      obtain ⟨z, zs, rfl⟩ := List.exists_cons_of_length_eq_add_one hz
      obtain ⟨y, ys, rfl⟩ := List.exists_cons_of_length_eq_add_one hy
      obtain ⟨p, ps, rfl⟩ := List.exists_cons_of_length_eq_add_one hp
      rw [defects, List.length_cons, ih (Nat.succ.inj hc) (Nat.succ.inj hz)
        (Nat.succ.inj hy) (Nat.succ.inj hp)]

/-- The defect of an item, in its place. -/
theorem getElem_defects {τ : Fr} {cs : List AffineG1} {zs ys : List Fr}
    {ps : List AffineG1} {i : Nat} (hc : i < cs.length) (hz : i < zs.length)
    (hy : i < ys.length) (hp : i < ps.length)
    (hi : i < (defects τ cs zs ys ps).length) :
    (defects τ cs zs ys ps)[i] = defect τ cs[i] zs[i] ys[i] ps[i] := by
  induction cs generalizing zs ys ps i with
  | nil => cases hc
  | cons c cs ih =>
      obtain ⟨z, zs, rfl⟩ := List.exists_cons_of_length_pos
        (Nat.zero_lt_of_lt hz)
      obtain ⟨y, ys, rfl⟩ := List.exists_cons_of_length_pos
        (Nat.zero_lt_of_lt hy)
      obtain ⟨p, ps, rfl⟩ := List.exists_cons_of_length_pos
        (Nat.zero_lt_of_lt hp)
      cases i with
      | zero => rfl
      | succ i =>
          exact ih (Nat.lt_of_succ_lt_succ hc) (Nat.lt_of_succ_lt_succ hz)
            (Nat.lt_of_succ_lt_succ hy) (Nat.lt_of_succ_lt_succ hp)
            (Nat.lt_of_succ_lt_succ hi)

/-- The combination of the defects, from the three sums. -/
theorem powerSum_defects {τ r : Fr} {n : Nat} {cs : List AffineG1}
    {zs ys : List Fr} {ps : List AffineG1} (h : SameLength n cs zs ys ps) :
    powerSum r (defects τ cs zs ys ps)
      = τ • powerSum r (ps.map AffineG1.toG1)
        - (powerSum r ((cs.zip ys).map fun (c, y) => c.toG1 - y • G1.one)
          + powerSum r (List.zipWith (fun z p => z • p)
              zs (ps.map AffineG1.toG1))) := by
  obtain ⟨hc, hz, hy, hp⟩ := h
  induction n generalizing cs zs ys ps with
  | zero =>
      cases List.length_eq_zero_iff.mp hc
      cases List.length_eq_zero_iff.mp hz
      cases List.length_eq_zero_iff.mp hp
      simp [defects, powerSum]
  | succ n ih =>
      obtain ⟨c, cs, rfl⟩ := List.exists_cons_of_length_eq_add_one hc
      obtain ⟨z, zs, rfl⟩ := List.exists_cons_of_length_eq_add_one hz
      obtain ⟨y, ys, rfl⟩ := List.exists_cons_of_length_eq_add_one hy
      obtain ⟨p, ps, rfl⟩ := List.exists_cons_of_length_eq_add_one hp
      have hrest := ih (Nat.succ.inj hc) (Nat.succ.inj hz) (Nat.succ.inj hy)
        (Nat.succ.inj hp)
      simp only [defects, List.map_cons, List.zip_cons_cons,
        List.zipWith_cons_cons, powerSum, hrest, defect]
      module

/-- A product of scalars is applied one after the other. -/
theorem zipWith_smul_mul (ss zs : List Fr) (xs : List G1) :
    List.zipWith (fun s x => s • x) (List.zipWith (fun s z => s * z) ss zs) xs
      = List.zipWith (fun s x => s • x) ss
          (List.zipWith (fun z x => z • x) zs xs) := by
  induction ss generalizing zs xs with
  | nil => simp
  | cons s ss ih =>
      cases zs with
      | nil => simp
      | cons z zs =>
          cases xs with
          | nil => simp
          | cons x xs => simp [ih, mul_smul]

-- ========================================================== the equation

variable {G2 Gt : Type*} [AddCommGroup G2] [Module Fr G2] [CommGroup Gt]

namespace Pairing

/-- The two-pairing check compares the points, one of them multiplied
by the setup's scalar. -/
theorem pairingsVerify_eq [DecidableEq Gt] (E : Pairing G2 Gt) {τ : Fr}
    (hτ : E.tau = τ • E.one) (a b : G1) :
    pairingsVerify E a E.tau b E.one = decide (τ • a = b) := by
  have hprod : E.pairing a (τ • E.one) * E.pairing (-b) E.one
      = E.pairing (τ • a) E.one * (E.pairing b E.one)⁻¹ := by
    rw [E.pairing_smul, E.pairing_neg_left]
  unfold pairingsVerify pairingBatch
  rw [hτ]
  simp only [List.map_cons, List.map_nil, List.prod_cons, List.prod_nil,
    mul_one]
  apply decide_eq_decide.mpr
  rw [hprod, mul_inv_eq_one, E.pairing_one_inj]

/-- The equation of one item. -/
def ItemValid (E : Pairing G2 Gt) (commitment : AffineG1) (z y : Fr)
    (proof : AffineG1) : Prop :=
  E.pairing proof.toG1 (E.tau - z • E.one)
    = E.pairing (commitment.toG1 - y • G1.one) E.one

/-- An item is valid when its defect is the identity. -/
theorem itemValid_iff (E : Pairing G2 Gt) {τ : Fr} (hτ : E.tau = τ • E.one)
    {commitment : AffineG1} {z y : Fr} {proof : AffineG1} :
    E.ItemValid commitment z y proof ↔ defect τ commitment z y proof = 0 := by
  unfold ItemValid defect
  rw [hτ, ← sub_smul, E.pairing_smul, E.pairing_one_inj, sub_eq_zero]

end Pairing

variable [DecidableEq Gt]

/-- The equation on the powers of a scalar, of a batch that is not
empty: it is evaluated without a panic, and says that the combination
of the defects is the identity. -/
theorem verifyEquation_computePowers (E : Pairing G2 Gt) {τ : Fr}
    (hτ : E.tau = τ • E.one) {n : Nat} (hn : 1 ≤ n) {cs : List AffineG1}
    {zs ys : List Fr} {ps : List AffineG1} (h : SameLength n cs zs ys ps)
    (r : Fr) :
    verifyEquation E cs zs ys ps (computePowers r n)
      = pure (decide (powerSum r (defects τ cs zs ys ps) = 0)) := by
  have hps : ps ≠ [] := by
    intro hnil
    have := h.proofs
    rw [hnil] at this
    simp at this
    omega
  have hproofs : g1Lincomb ps (computePowers r n)
      = pure (powerSum r (ps.map AffineG1.toG1)) := by
    rw [g1Lincomb_eq (by rw [length_computePowers, h.proofs]) hps,
      ← sum_computePowers, List.length_map, h.proofs]
  have hproofsZ : g1Lincomb ps
      (List.zipWith (fun r z => r * z) (computePowers r n) zs)
      = pure (powerSum r (List.zipWith (fun z p => z • p) zs
          (ps.map AffineG1.toG1))) := by
    rw [g1Lincomb_eq (by simp [length_computePowers, h.proofs, h.zs]) hps,
      zipWith_smul_mul, ← sum_computePowers]
    simp [h.proofs, h.zs]
  have hzip : (cs.zip ys).length = n := by simp [h.commitments, h.ys]
  have hdiffs : g1Lincomb ((cs.zip ys).map fun (c, y) =>
        AffineG1.ofG1 (c.toG1 - y • G1.one)) (computePowers r n)
      = pure (powerSum r
          ((cs.zip ys).map fun (c, y) => c.toG1 - y • G1.one)) := by
    rw [g1Lincomb_eq (by rw [length_computePowers, List.length_map, hzip])]
    · rw [← sum_computePowers]
      simp [hzip, Function.comp_def]
    · intro hnil
      rw [List.map_eq_nil_iff] at hnil
      rw [hnil] at hzip
      simp at hzip
      omega
  have hequation : τ • powerSum r (ps.map AffineG1.toG1)
      = powerSum r ((cs.zip ys).map fun (c, y) => c.toG1 - y • G1.one)
        + powerSum r (List.zipWith (fun z p => z • p) zs
            (ps.map AffineG1.toG1))
      ↔ powerSum r (defects τ cs zs ys ps) = 0 := by
    rw [powerSum_defects h, sub_eq_zero]
  unfold verifyEquation
  simp only [hproofs, mapM_cMinusY, pure_bind, hproofsZ, hdiffs]
  rw [E.pairingsVerify_eq hτ]
  congr 1
  exact decide_eq_decide.mpr hequation

end Hokulea
