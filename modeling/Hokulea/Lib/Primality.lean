/-
Multiples by doubling, and prime numbers certified by Lucas's test.

`nsmulBits` runs double-and-add on a representation of an additive
monoid, and `nsmulBits_rel` transports it: whatever relation the
representation's addition keeps, the multiple keeps. Two uses follow
from the one lemma — powers modulo `m` here (the monoid is the
multiplicative one of `ZMod m`, written additively), multiples of a
curve point elsewhere.

A certificate is a list of steps, each certifying one number from the
numbers certified behind it; small numbers are certified by trial
division. The checker is structurally recursive, so that the kernel
evaluates it.
-/
import Mathlib.Algebra.Group.TypeTags.Basic
import Mathlib.Data.List.Prime
import Mathlib.NumberTheory.LucasPrimality

namespace Primality

-- ============================================= multiples by doubling

section Doubling

variable {α M : Type*}

/-- `n` times `a`, over the low `k` bits of `n`. -/
def nsmulBits (add : α → α → α) (zero a : α) : Nat → Nat → α
  | 0, _ => zero
  | k + 1, n =>
      let half := nsmulBits add zero a k (n / 2)
      let double := add half half
      if n % 2 = 1 then add double a else double

/-- A relation that zero and addition keep is kept by the multiple, of
every number the bits cover. -/
theorem nsmulBits_rel [AddMonoid M] {R : α → M → Prop}
    {add : α → α → α} {zero a : α} {x : M} (hzero : R zero 0)
    (hadd : ∀ {b c : α} {y z : M}, R b y → R c z → R (add b c) (y + z))
    (ha : R a x) :
    ∀ {k n : Nat}, n < 2 ^ k → R (nsmulBits add zero a k n) (n • x)
  | 0, n, h => by
      have hn : n = 0 := by simpa using h
      rw [hn, zero_nsmul]
      exact hzero
  | k + 1, n, h => by
      have hhalf : n / 2 < 2 ^ k := by rw [pow_succ] at h; omega
      have ih := nsmulBits_rel hzero hadd ha hhalf
      have hdouble := hadd ih ih
      rw [← add_nsmul] at hdouble
      unfold nsmulBits
      by_cases hodd : n % 2 = 1
      · have hn : n = n / 2 + n / 2 + 1 := by omega
        rw [if_pos hodd]
        conv => rhs; rw [hn, succ_nsmul]
        exact hadd hdouble ha
      · have hn : n = n / 2 + n / 2 := by omega
        rw [if_neg hodd]
        conv => rhs; rw [hn]
        exact hdouble

end Doubling

/-- `a ^ n % m`, over the low `k` bits of `n`. -/
def powMod (m k a n : Nat) : Nat :=
  nsmulBits (fun b c => b * c % m) (1 % m) a k n

/-- Square-and-multiply computes the power in `ZMod m`. -/
theorem powMod_cast {m k a n : Nat} (h : n < 2 ^ k) :
    ((powMod m k a n : Nat) : ZMod m) = (a : ZMod m) ^ n := by
  have hrel := @nsmulBits_rel Nat (Additive (ZMod m)) _
    (fun b y => ((b : Nat) : ZMod m) = y.toMul) (fun b c => b * c % m) (1 % m)
    a (Additive.ofMul (a : ZMod m))
    (by simp) (by intro b c y z hb hc; simp [hb, hc]) rfl _ _ h
  rw [toMul_nsmul, toMul_ofMul] at hrel
  exact hrel

-- ================================================ small prime numbers

/-- No number from `2` to `s` other than `p` itself divides `p`, which
is less than the square of the next. -/
def smallPrime (s p : Nat) : Bool :=
  decide (2 ≤ p) && decide (p < (s + 1) * (s + 1)) &&
    (List.range (s + 1)).all fun d => d < 2 || d == p || p % d != 0

theorem smallPrime_sound {s p : Nat} (h : smallPrime s p = true) :
    p.Prime := by
  simp only [smallPrime, Bool.and_eq_true, decide_eq_true_eq,
    List.all_eq_true, List.mem_range, Bool.or_eq_true, beq_iff_eq,
    bne_iff_ne] at h
  obtain ⟨⟨htwo, hsquare⟩, hall⟩ := h
  by_contra hp
  have hfac : p.minFac.Prime := Nat.minFac_prime (by omega)
  have hsq : p.minFac * p.minFac ≤ p := by
    have := Nat.minFac_sq_le_self (by omega) hp
    rwa [pow_two] at this
  have hle : p.minFac < s + 1 := by
    by_contra hge
    have := Nat.mul_le_mul (Nat.le_of_not_lt hge) (Nat.le_of_not_lt hge)
    omega
  rcases hall _ hle with (hlt | heq) | hdvd
  · exact absurd hfac.two_le (by omega)
  · exact hp (heq ▸ hfac)
  · exact hdvd (Nat.mod_eq_zero_of_dvd (Nat.minFac_dvd p))

-- ===================================================== certificates

/-- One number to certify: `witness` is the base of Lucas's test, and
`factors` multiply to `p - 1`. -/
structure Step where
  p : Nat
  witness : Nat
  factors : List Nat

/-- Lucas's test of a step, on exponents of `k` bits. -/
def Step.lucas (k : Nat) (s : Step) : Bool :=
  decide (2 ≤ s.p) && decide (s.p < 2 ^ k)
    && s.factors.prod == s.p - 1
    && powMod s.p k s.witness (s.p - 1) % s.p == 1
    && s.factors.all fun q =>
      powMod s.p k s.witness ((s.p - 1) / q) % s.p != 1

/-- Every step passes Lucas's test with factors that are small primes
or certified behind it. -/
def certified (k small : Nat) : List Step → Bool
  | [] => true
  | s :: rest =>
      s.lucas k
        && s.factors.all (fun q =>
          smallPrime small q || rest.any fun t => t.p == q)
        && certified k small rest

/-- `a ^ n` is one in `ZMod p` when its least residue is. -/
theorem powMod_eq_one_iff {p k a n : Nat} (hp : 2 ≤ p) (h : n < 2 ^ k) :
    powMod p k a n % p = 1 ↔ (a : ZMod p) ^ n = 1 := by
  have hone : 1 % p = 1 := Nat.mod_eq_of_lt (by omega)
  rw [← powMod_cast h, ← Nat.cast_one (R := ZMod p),
    ZMod.natCast_eq_natCast_iff', hone]

/-- Lucas's test with prime factors certifies a prime. -/
theorem Step.prime_of_lucas {k : Nat} {s : Step} (h : s.lucas k = true)
    (hfactors : ∀ q ∈ s.factors, q.Prime) : s.p.Prime := by
  simp only [Step.lucas, Bool.and_eq_true, decide_eq_true_eq, beq_iff_eq,
    List.all_eq_true, bne_iff_ne] at h
  obtain ⟨⟨⟨⟨htwo, hk⟩, hprod⟩, hone⟩, hne⟩ := h
  apply lucas_primality s.p (s.witness : ZMod s.p)
  · exact (powMod_eq_one_iff htwo (by omega)).mp hone
  · intro q hq hdvd hpow
    rw [← hprod] at hdvd
    obtain ⟨f, hf, hqf⟩ := (Prime.dvd_prod_iff hq.prime).mp hdvd
    have heq : q = f := (Nat.prime_dvd_prime_iff_eq hq (hfactors f hf)).mp hqf
    subst heq
    apply hne q hf
    rw [powMod_eq_one_iff htwo]
    · exact hpow
    · exact lt_of_le_of_lt (Nat.div_le_self _ _) (by omega)

/-- Every number of a certificate that checks is prime. -/
theorem prime_of_mem_certified {k small : Nat} {steps : List Step}
    (h : certified k small steps = true) : ∀ s ∈ steps, s.p.Prime := by
  induction steps with
  | nil => intro s hs; cases hs
  | cons t rest ih =>
      unfold certified at h
      simp only [Bool.and_eq_true, List.all_eq_true, Bool.or_eq_true,
        List.any_eq_true, beq_iff_eq] at h
      obtain ⟨⟨hlucas, hfactors⟩, hrest⟩ := h
      have hrest := ih hrest
      intro s hs
      rcases List.mem_cons.mp hs with rfl | hs
      · apply Step.prime_of_lucas hlucas
        intro q hq
        rcases hfactors q hq with hsmall | ⟨t, ht, rfl⟩
        · exact smallPrime_sound hsmall
        · exact hrest t ht
      · exact hrest s hs

/-- A certificate certifies the number of its first step. -/
theorem prime_of_certified {k small : Nat} {s : Step} {rest : List Step}
    (h : certified k small (s :: rest) = true) : s.p.Prime :=
  prime_of_mem_certified h s (by simp)

end Primality
