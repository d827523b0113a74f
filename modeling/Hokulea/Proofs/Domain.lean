/-
The evaluation domain: `calculate_roots_of_unity` yields as many roots
as `PolynomialEvalForm::new` pads a blob to.

# The two sizes

The polynomial is padded to the power of two above its number of field
elements. The domain is given a number of bytes and never told a size:
it divides, takes the root of the table at the logarithm of the power
of two above the quotient, and multiplies until it meets one.

# The loop

`ExpandStep` is one iteration that does not break, labelled with the
`cur` it has read, and `ExpandBreaks` the break. On a root of order `n`
the loop is a chain of `n - 1` iterations, over the powers below `n`
(`path_expand`), and breaks at the index `n`. That index is below
`max_iter` for every entry of the table, the last one included, whose
order is `max_iter - 1`.
-/
import Hokulea.Kzg.Helpers
import Hokulea.Lib.Machine

namespace Hokulea

open Bytes Machine

-- ============================================================== the sizes

theorem trailingZeros_two_pow (k : Nat) : trailingZeros (2 ^ k) = k := by
  induction k with
  | zero =>
      unfold trailingZeros
      simp
  | succ k ih =>
      have heven : (2 : Nat) ^ (k + 1) % 2 = 0 := by
        rw [pow_succ, Nat.mul_mod_left]
      have hdiv : (2 : Nat) ^ (k + 1) / 2 = 2 ^ k := by
        rw [pow_succ, Nat.mul_div_cancel _ (by norm_num)]
      unfold trailingZeros
      rw [dif_pos ⟨by positivity, heven⟩, hdiv, ih]

/-- Up to the size of the setup the exponent is in the table. -/
theorem clog_le {n : Nat} (h : n ≤ MAINNET_SRS_G1_SIZE) :
    Nat.clog 2 n ≤ 28 := by
  apply (Nat.clog_le_iff_le_pow (by norm_num)).mpr
  exact le_trans h (by norm_num)

/-- So the padded size is not above that of the setup either. -/
theorem nextPowerOfTwo_le {n : Nat} (h : n ≤ MAINNET_SRS_G1_SIZE) :
    nextPowerOfTwo n ≤ MAINNET_SRS_G1_SIZE :=
  Nat.pow_le_pow_right (n := 2) (by norm_num) (clog_le h)

/-- The bytes of whole field elements are divided back into them. -/
theorem divCeil_mul (n : Nat) :
    divCeil (n * BYTES_PER_FIELD_ELEMENT) BYTES_PER_FIELD_ELEMENT = n := by
  unfold divCeil
  rw [if_pos (Nat.mul_mod_left _ _), Nat.mul_div_cancel _ (by norm_num)]

/-- The root the table holds for a padded size. -/
def tableRoot (k : Nat) : Fr :=
  ((PRIMITIVE_ROOTS_OF_UNITY_DEC.getD k 0 : Nat) : Fr)

-- =============================================================== the loop

/-- `max_iter` -/
abbrev maxIter : Nat := MAINNET_SRS_G1_SIZE + 1

/-- An iteration of the loop of `expand_root_of_unity` that does not
break, on the index and the roots so far; it has read `cur`. -/
structure ExpandStep (root : Fr) (s : Nat × List Fr) (cur : Fr)
    (s' : Nat × List Fr) : Prop where
  lt_maxIter : s.1 < maxIter
  read : s.2[s.1]? = some cur
  ne_one : cur ≠ 1
  next : s' = (s.1 + 1, s.2 ++ [cur * root])

/-- The loop breaks, before its bound. -/
structure ExpandBreaks (s : Nat × List Fr) : Prop where
  lt_maxIter : s.1 < maxIter
  read : s.2[s.1]? = some 1

/-- An iteration is a round of the loop. -/
theorem ExpandStep.expandLoop_eq {root cur : Fr} {s s' : Nat × List Fr}
    (h : ExpandStep root s cur s') :
    expandLoop root (maxIter - s.1) s.1 s.2
      = expandLoop root (maxIter - s'.1) s'.1 s'.2 := by
  have hlt := h.lt_maxIter
  rw [h.next, show maxIter - s.1 = maxIter - (s.1 + 1) + 1 by omega,
    expandLoop, h.read, Option.bind_eq_bind, Option.bind_some,
    if_neg h.ne_one]

/-- The break ends it. -/
theorem ExpandBreaks.expandLoop_eq {s : Nat × List Fr} (h : ExpandBreaks s)
    (root : Fr) : expandLoop root (maxIter - s.1) s.1 s.2 = some s.2 := by
  have hlt := h.lt_maxIter
  rw [show maxIter - s.1 = maxIter - (s.1 + 1) + 1 by omega, expandLoop,
    h.read, Option.bind_eq_bind, Option.bind_some, if_pos rfl]

/-- What the loop returns, when iterations lead it to its break. -/
theorem expandRootOfUnity_of_path {root : Fr} {curs : List Fr}
    {s : Nat × List Fr} (h : Path (ExpandStep root) (1, [1, root]) curs s)
    (hbreak : ExpandBreaks s) : expandRootOfUnity root = some s.2 := by
  have hloop := h.relates (R := fun s s' =>
    expandLoop root (maxIter - s.1) s.1 s.2
      = expandLoop root (maxIter - s'.1) s'.1 s'.2)
    (fun _ => rfl) (fun h h' => h.trans h') fun hstep => hstep.expandLoop_eq
  exact hloop.trans (hbreak.expandLoop_eq root)

/-- The first powers of a root. -/
def powers (root : Fr) (n : Nat) : List Fr :=
  (List.range n).map fun i => root ^ i

@[simp] theorem length_powers (root : Fr) (n : Nat) :
    (powers root n).length = n := by
  simp [powers]

theorem powers_succ (root : Fr) (n : Nat) :
    powers root (n + 1) = powers root n ++ [root ^ n] := by
  simp [powers, List.range_succ]

theorem getElem?_powers (root : Fr) {i n : Nat} (h : i < n) :
    (powers root n)[i]? = some (root ^ i) := by
  simp [powers, h]

/-- The powers below the order are told apart. -/
theorem nodup_powers {root : Fr} {n : Nat} (hroot : IsPrimitiveRoot root n) :
    (powers root n).Nodup := by
  refine List.Nodup.map_on (fun i hi j hj h => ?_) List.nodup_range
  exact hroot.pow_inj (List.mem_range.mp hi) (List.mem_range.mp hj) h

/-- From the index `i` the loop goes on to the order of the root, and
reads the powers on the way. -/
theorem path_expand {root : Fr} {n : Nat} (hroot : IsPrimitiveRoot root n)
    (hn : n < maxIter) :
    ∀ {m i : Nat}, 1 ≤ i → i + m = n →
      Path (ExpandStep root) (i, powers root (i + 1))
        ((List.range' i m).map fun j => root ^ j) (n, powers root (n + 1))
  | 0, i, _, him => by
      have heq : i = n := by omega
      rw [heq]
      exact .nil _
  | m + 1, i, hi, him => by
      have hstep : ExpandStep root (i, powers root (i + 1)) (root ^ i)
          (i + 1, powers root (i + 1 + 1)) :=
        { lt_maxIter := show i < maxIter by omega
          read := getElem?_powers root (Nat.lt_succ_self i)
          ne_one := hroot.pow_ne_one_of_pos_of_lt (by omega) (by omega)
          next := by rw [powers_succ root (i + 1), pow_succ] }
      rw [List.range'_succ, List.map_cons]
      exact .cons hstep (path_expand hroot hn (by omega) (by omega))

/-- At the order of the root it breaks. -/
theorem expandBreaks_powers {root : Fr} {n : Nat}
    (hroot : IsPrimitiveRoot root n) (hn : n < maxIter) :
    ExpandBreaks (n, powers root (n + 1)) where
  lt_maxIter := hn
  read := by
    rw [getElem?_powers root (Nat.lt_succ_self n), hroot.pow_eq_one]

/-- The whole loop: the powers it reads are those between one and the
return to one. -/
theorem path_expandRootOfUnity {root : Fr} {n : Nat}
    (hroot : IsPrimitiveRoot root n) (hpos : 0 < n) (hn : n < maxIter) :
    Path (ExpandStep root) (1, [1, root]) (powers root n).tail
      (n, powers root (n + 1)) := by
  have hpath := path_expand hroot hn (m := n - 1) (le_refl 1) (by omega)
  have hstart : powers root (1 + 1) = [1, root] := by
    simp [powers, List.range_succ]
  have hcurs : (List.range' 1 (n - 1)).map (fun j => root ^ j)
      = (powers root n).tail := by
    obtain ⟨m, rfl⟩ := Nat.exists_eq_succ_of_ne_zero hpos.ne'
    rw [powers, List.range_eq_range', List.range'_succ, List.map_cons,
      List.tail_cons, Nat.succ_sub_one, Nat.zero_add]
  rwa [hstart, hcurs] at hpath

-- ============================================================= the domain

/-- The domain of a blob of `n` field elements. -/
theorem calculateRootsOfUnity_eq {n : Nat} (hpos : 0 < n)
    (hle : n ≤ MAINNET_SRS_G1_SIZE) :
    calculateRootsOfUnity (n * BYTES_PER_FIELD_ELEMENT)
      = pure ((List.range (nextPowerOfTwo n)).map
          fun j => tableRoot (Nat.clog 2 n) ^ j) := by
  have hroot : IsPrimitiveRoot (tableRoot (Nat.clog 2 n)) (nextPowerOfTwo n) :=
    isPrimitiveRoot_roots (clog_le hle)
  have hlt : nextPowerOfTwo n < maxIter :=
    Nat.lt_succ_of_le (nextPowerOfTwo_le hle)
  have hexpand : expandRootOfUnity (tableRoot (Nat.clog 2 n))
      = some (powers (tableRoot (Nat.clog 2 n)) (nextPowerOfTwo n + 1)) :=
    expandRootOfUnity_of_path
      (path_expandRootOfUnity hroot (Nat.two_pow_pos _) hlt)
      (expandBreaks_powers hroot hlt)
  unfold calculateRootsOfUnity
  rw [if_neg (Nat.mul_ne_zero hpos.ne' (by norm_num)), divCeil_mul,
    if_neg (not_lt.mpr hle)]
  simp only [nextPowerOfTwo, trailingZeros_two_pow,
    getPrimitiveRootOfUnity_eq (clog_le hle)]
  show ((do
    let roots ← (liftM (expandRootOfUnity (tableRoot (Nat.clog 2 n))))
    pure (roots.take (roots.length - 1))) : Outcome (List Fr)) = _
  rw [hexpand]
  show (pure (List.take _ _) : Outcome (List Fr)) = _
  rw [length_powers, Nat.add_sub_cancel, powers_succ, List.take_left' (by simp)]
  rfl

/-- The entry of the table for a blob of `n` field elements. -/
theorem isPrimitiveRoot_tableRoot {n : Nat} (h : n ≤ MAINNET_SRS_G1_SIZE) :
    IsPrimitiveRoot (tableRoot (Nat.clog 2 n)) (nextPowerOfTwo n) :=
  isPrimitiveRoot_roots (clog_le h)

/-- A list of roots as large as `size`: the powers of a root of just
that order, which the loop finds, breaking at its first return to one
and below its bound. -/
structure IsDomain (size : Nat) (root : Fr) (roots : List Fr) : Prop where
  length_eq : roots.length = size
  orderOf_eq : orderOf root = size
  eq_powers : roots = (List.range size).map fun i => root ^ i
  nodup : roots.Nodup
  expand : expandRootOfUnity root = some (roots ++ [1])
  iterations : Path (ExpandStep root) (1, [1, root]) roots.tail
    (size, roots ++ [1])
  breaks : ExpandBreaks (size, roots ++ [1])

/-- The powers of a root below its order are one. -/
theorem isDomain_powers {root : Fr} {n : Nat} (hroot : IsPrimitiveRoot root n)
    (hpos : 0 < n) (hn : n < maxIter) : IsDomain n root (powers root n) := by
  have hlast : powers root (n + 1) = powers root n ++ [1] := by
    rw [powers_succ, hroot.pow_eq_one]
  have hiterations := path_expandRootOfUnity hroot hpos hn
  have hbreaks := expandBreaks_powers hroot hn
  rw [hlast] at hiterations hbreaks
  exact
    { length_eq := length_powers root n
      orderOf_eq := hroot.eq_orderOf.symm
      eq_powers := rfl
      nodup := nodup_powers hroot
      expand := expandRootOfUnity_of_path hiterations hbreaks
      iterations := hiterations
      breaks := hbreaks }

/-- For every blob of at least one and at most `2 ^ 28` field elements
the index is in the table and the domain is as large as the
polynomial. -/
theorem domain_size {fs : List Fr} (hpos : 1 ≤ fs.length)
    (hle : fs.length ≤ 2 ^ 28) :
    let log2 := trailingZeros (nextPowerOfTwo
      (divCeil (32 * fs.length) BYTES_PER_FIELD_ELEMENT))
    log2 < PRIMITIVE_ROOTS_OF_UNITY.length
      ∧ ∃ poly root roots,
        PolynomialEvalForm.new fs = .ok poly
          ∧ getPrimitiveRootOfUnity log2 = some root
          ∧ calculateRootsOfUnity (32 * fs.length) = pure roots
          ∧ IsDomain poly.len root roots := by
  have hsrs : fs.length ≤ MAINNET_SRS_G1_SIZE :=
    le_trans hle (by norm_num)
  have hbytes : 32 * fs.length = fs.length * BYTES_PER_FIELD_ELEMENT :=
    Nat.mul_comm _ _
  have hlog2 : trailingZeros (nextPowerOfTwo
      (divCeil (32 * fs.length) BYTES_PER_FIELD_ELEMENT))
      = Nat.clog 2 fs.length := by
    rw [hbytes, divCeil_mul, nextPowerOfTwo, trailingZeros_two_pow]
  have hroots : calculateRootsOfUnity (32 * fs.length)
      = pure (powers (tableRoot (Nat.clog 2 fs.length))
          (nextPowerOfTwo fs.length)) := by
    rw [hbytes]
    exact calculateRootsOfUnity_eq hpos hsrs
  obtain ⟨poly, hnew⟩ := PolynomialEvalForm.exists_new hsrs
  have hdomain := isDomain_powers (isPrimitiveRoot_tableRoot hsrs)
    (Nat.two_pow_pos _) (Nat.lt_succ_of_le (nextPowerOfTwo_le hsrs))
  rw [hlog2]
  refine ⟨Nat.lt_succ_of_le (clog_le hsrs), poly, _, _, hnew,
    getPrimitiveRootOfUnity_eq (clog_le hsrs), hroots, ?_⟩
  rw [PolynomialEvalForm.len_of_new hnew]
  exact hdomain

/-- One element, whose loop breaks at once, and three, padded to
four. -/
theorem domain_size_one_three :
    (∃ poly, PolynomialEvalForm.new [7] = .ok poly ∧ poly.len = 1
        ∧ calculateRootsOfUnity 32 = pure [1])
      ∧ ∃ poly roots, PolynomialEvalForm.new [7, 8, 9] = .ok poly
        ∧ poly.len = 4 ∧ calculateRootsOfUnity 96 = pure roots
        ∧ roots.length = 4 ∧ roots.Nodup := by
  constructor
  · obtain ⟨-, poly, root, roots, hnew, -, hroots, hdomain⟩ :=
      @domain_size [7] (by decide) (by decide)
    have hlen : poly.len = 1 := by
      rw [PolynomialEvalForm.len_of_new hnew]
      rfl
    have hone : roots = [1] := by
      rw [hdomain.eq_powers, hlen, List.range_one, List.map_singleton,
        pow_zero]
    exact ⟨poly, hnew, hlen, hone ▸ hroots⟩
  · obtain ⟨-, poly, root, roots, hnew, -, hroots, hdomain⟩ :=
      @domain_size [7, 8, 9] (by decide) (by decide)
    have hlen : poly.len = 4 := by
      rw [PolynomialEvalForm.len_of_new hnew]
      rfl
    exact ⟨poly, roots, hnew, hlen, hroots, hdomain.length_eq.trans hlen,
      hdomain.nodup⟩

end Hokulea
