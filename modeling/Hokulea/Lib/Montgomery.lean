/-
Montgomery multiplication: the product of two numbers divided by a
radix, modulo an odd modulus, without a division by the modulus.

One operand may be any number below the radix, not only a residue: the
result is the reduced product all the same. A conversion into the
Montgomery representation therefore reduces what it converts.
-/
import Mathlib.Data.Nat.ModEq
import Mathlib.Tactic.Ring

namespace Montgomery

/-- `a * b / R` modulo `m`, where `ninv` is the opposite of the inverse
of `m` modulo `R`; one conditional subtraction at the end. -/
def mul (m R ninv a b : Nat) : Nat :=
  let t := a * b
  let u := (t + t % R * ninv % R * m) / R
  if m ≤ u then u - m else u

section

variable {m R ninv : Nat}

/-- One subtraction is enough when one operand is reduced and the other
fits the radix. -/
theorem mul_lt {a b : Nat} (hR : 0 < R) (ha : a < R) (hb : b < m) :
    mul m R ninv a b < m := by
  have hu : (a * b + a * b % R * ninv % R * m) / R < 2 * m := by
    apply Nat.div_lt_of_lt_mul
    have hab : a * b < R * m := Nat.mul_lt_mul'' ha hb
    have hq : a * b % R * ninv % R * m ≤ R * m :=
      Nat.mul_le_mul_right m (Nat.mod_lt _ hR).le
    have htwo : R * (2 * m) = R * m + R * m := by ring
    omega
  unfold mul
  simp only
  split
  next hle => omega
  next hlt => omega

variable (hninv : (ninv * m + 1) % R = 0)

include hninv

/-- The multiple of the modulus that is added makes the sum divisible
by the radix. -/
theorem dvd_sum (t : Nat) : R ∣ t + t % R * ninv % R * m := by
  have h : t + t % R * ninv % R * m ≡ t * (ninv * m + 1) [MOD R] := by
    have hq : t % R * ninv % R ≡ t * ninv [MOD R] :=
      (Nat.mod_modEq _ _).trans ((Nat.mod_modEq t R).mul_right ninv)
    have hsum := (Nat.ModEq.refl t).add (hq.mul_right m)
    have hring : t + t * ninv * m = t * (ninv * m + 1) := by ring
    rwa [hring] at hsum
  apply (Nat.modEq_zero_iff_dvd).mp
  apply h.trans
  exact (Nat.modEq_zero_iff_dvd).mpr
    (Dvd.dvd.mul_left (Nat.dvd_of_mod_eq_zero hninv) t)

/-- The product, up to the radix. -/
theorem mul_modEq (a b : Nat) : mul m R ninv a b * R ≡ a * b [MOD m] := by
  have hexact := Nat.div_mul_cancel (dvd_sum hninv (a * b))
  have hu : (a * b + a * b % R * ninv % R * m) / R * R ≡ a * b [MOD m] := by
    rw [hexact]
    exact Nat.add_mul_modulus_modEq_iff.mpr rfl
  unfold mul
  simp only
  split
  next hle =>
    apply Nat.ModEq.trans _ hu
    rw [Nat.sub_mul]
    exact (Nat.modEq_iff_dvd' (Nat.sub_le _ _)).mpr
      (by
        rw [Nat.sub_sub_self (Nat.mul_le_mul_right R hle)]
        exact Dvd.intro _ rfl)
  next => exact hu

end

end Montgomery
