/-
The helpers of the batch verifier, `helpers.rs`.

A function that can fail and can panic is an `Outcome`: the panics
(`expect`, an index or a slice out of range) are the inner `none`. The
hash is a parameter of the functions that hash.
-/
import Mathlib.Data.Nat.Log
import Mathlib.Data.Nat.Digits.Defs
import Hokulea.Kzg.Consts

namespace Hokulea

open Bytes

/-- A result that may be an error, of a computation that may panic. -/
abbrev Outcome := ExceptT KzgError Option

/-- A value that was there, in an outcome. -/
theorem Outcome.lift_some {α : Type} (a : α) :
    (liftM (some a) : Outcome α) = pure a := rfl

/-- A result that was no error, in an outcome. -/
theorem Outcome.lift_ok {α : Type} (a : α) :
    (liftM (Except.ok a : Except KzgError α) : Outcome α) = pure a := rfl

/-- A list whose elements all convert is converted. -/
theorem Outcome.mapM_ok {ι α β : Type} {f : α → Except KzgError β}
    {k : ι → α} {g : ι → β} {l : List ι} (h : ∀ i ∈ l, f (k i) = .ok (g i)) :
    (l.map k).mapM (fun x => (liftM (f x) : Outcome β)) = pure (l.map g) := by
  induction l with
  | nil => rfl
  | cons i l ih =>
      rw [List.map_cons, List.mapM_cons, h i (by simp), Outcome.lift_ok,
        pure_bind, ih fun j hj => h j (by simp [hj]), pure_bind, List.map_cons]

/-- One element that does not convert fails the list. -/
theorem Outcome.mapM_error {α β : Type} {f : α → Except KzgError β}
    {l : List α} {x : α} {e : KzgError} (hx : x ∈ l) (he : f x = .error e) :
    ∃ e', l.mapM (fun x => (liftM (f x) : Outcome β)) = throw e' := by
  induction l with
  | nil => cases hx
  | cons y l ih =>
      rw [List.mapM_cons]
      cases hy : f y with
      | error e' => exact ⟨e', rfl⟩
      | ok b =>
          rcases List.mem_cons.mp hx with rfl | hx
          · rw [he] at hy
            cases hy
          · obtain ⟨e', he'⟩ := ih hx
            refine ⟨e', ?_⟩
            rw [Outcome.lift_ok, pure_bind, he']
            rfl

/-- `usize_to_be_bytes` -/
def usizeToBeBytes (number : Nat) : Bytes := beBytes 8 number

/-- `hash_to_field_element` -/
def hashToFieldElement (sha256 : Bytes → B256) (msg : Bytes) : Option Fr :=
  (Fr.fromBytesBeModOrder (sha256 msg).val).toOption

/-- The loop of `compute_powers`. -/
def computePowersFrom (base current : Fr) : Nat → List Fr
  | 0 => []
  | count + 1 => current :: computePowersFrom base (current * base) count

/-- `compute_powers` -/
def computePowers (base : Fr) (count : Nat) : List Fr :=
  computePowersFrom base 1 count

/-- `validate_g1_point` -/
def validateG1Point (point : G1) : Except KzgError Unit :=
  if point = 0 then .ok ()
  else
    match AffineG1.fromJacobian point with
    | some _ => .ok ()
    | none => .error (.notOnCurveError "g1 point not on curve")

/-- `g1_lincomb` -/
def g1Lincomb (points : List AffineG1) (scalars : List Fr) : Outcome G1 :=
  if points.length ≠ scalars.length then
    throw (.genericError
      "g1_lincomb: points and scalars have mismatched lengths")
  else do
    let p ← AffineG1.msm points scalars
    return p.toG1

/-- `pairings_verify` -/
def pairingsVerify {G2 Gt : Type*} [AddCommGroup G2] [Module Fr G2]
    [CommGroup Gt] [DecidableEq Gt] (E : Pairing G2 Gt)
    (a1 : G1) (a2 : G2) (b1 : G1) (b2 : G2) : Bool :=
  E.pairingBatch [(a1, a2), (-b1, b2)] = 1

-- ========================================================== encodings

/-- `fq_to_le_bytes` -/
def fqToLeBytes (value : Fq) : Bytes := value.toBigEndian.reverse

/-- `fq_is_negative` -/
def fqIsNegative (y : Fq) : Bool := (-y).val < y.val

/-- `serialize_g1_compressed` -/
def serializeG1Compressed (point : AffineG1) : Bytes :=
  if point.toG1 = 0 then (List.replicate 32 0).set 31 0x40
  else
    let bytes := fqToLeBytes point.x
    if fqIsNegative point.y then bytes.modify 31 (· ||| 0x80) else bytes

/-- `serialize_fr_le` -/
def serializeFrLe (value : Fr) : Bytes := value.toBytesBe.reverse

/-- One chunk of `to_fr_array_canonical`. -/
def frCanonical (chunk : Bytes) : Except KzgError Fr := do
  let reduced ← (Fr.fromBytesBeModOrder chunk).mapError
    fun _ => KzgError.invalidFieldElement
  let direct ← (Fr.fromSlice chunk).mapError
    fun _ => KzgError.invalidFieldElement
  if reduced ≠ direct then throw .invalidFieldElement
  return direct

/-- `to_fr_array_canonical` -/
def toFrArrayCanonical (blob : Bytes) : Except KzgError (List Fr) :=
  if blob.length % BYTES_PER_FIELD_ELEMENT ≠ 0 then
    .error .invalidInputLength
  else (chunksExact BYTES_PER_FIELD_ELEMENT blob).mapM frCanonical

/-- The loop of `to_byte_array`, at the element `i`; it stops at the
first element that does not fit. -/
def toByteArrayLoop (maxOutputSize dataSize : Nat) :
    List Fr → Nat → Bytes → Option Bytes
  | [], _, data => some data
  | element :: rest, i, data =>
      let v := element.toBytesBe
      let start := i * BYTES_PER_FIELD_ELEMENT
      let stop := (i + 1) * BYTES_PER_FIELD_ELEMENT
      if maxOutputSize < stop then
        writeAt data start (v.take (min v.length (maxOutputSize - start)))
      else do
        let actualEnd := min stop dataSize
        let data ← writeAt data start (v.take (actualEnd - start))
        toByteArrayLoop maxOutputSize dataSize rest (i + 1) data

/-- `to_byte_array` -/
def toByteArray (dataFr : List Fr) (maxOutputSize : Nat) : Option Bytes :=
  let dataSize := min (dataFr.length * BYTES_PER_FIELD_ELEMENT) maxOutputSize
  toByteArrayLoop maxOutputSize dataSize dataFr 0 (List.replicate dataSize 0)

/-- `usize_to_decimal`, ASCII. -/
def usizeToDecimal (n : Nat) : Bytes :=
  if n = 0 then [48]
  else ((Nat.digits 10 n).map fun d => UInt8.ofNat d + 48).reverse

/-- `fr_from_usize` -/
def frFromUsize (n : Nat) : Option Fr := Fr.fromStr (usizeToDecimal n)

-- ==================================================== evaluation form

/-- `next_power_of_two` -/
def nextPowerOfTwo (n : Nat) : Nat := 2 ^ Nat.clog 2 n

/-- `trailing_zeros`, of a number that is not zero. -/
def trailingZeros (n : Nat) : Nat :=
  if h : n ≠ 0 ∧ n % 2 = 0 then trailingZeros (n / 2) + 1 else 0
termination_by n
decreasing_by omega

/-- `div_ceil` -/
def divCeil (a b : Nat) : Nat := if a % b = 0 then a / b else a / b + 1

/-- `PolynomialEvalForm`: evaluations padded to a power of two, and the
byte length before the padding. -/
structure PolynomialEvalForm where
  evaluations : List Fr
  lenUnderlyingBlobBytes : Nat
  size_le : lenUnderlyingBlobBytes
    ≤ MAINNET_SRS_G1_SIZE * BYTES_PER_FIELD_ELEMENT
  aligned : lenUnderlyingBlobBytes % BYTES_PER_FIELD_ELEMENT = 0
  padded : evaluations.length
    = nextPowerOfTwo (lenUnderlyingBlobBytes / BYTES_PER_FIELD_ELEMENT)
  deriving DecidableEq

namespace PolynomialEvalForm

/-- Padding with zeros reaches the next power of two. -/
theorem length_padded (evals : List Fr) :
    (evals ++ List.replicate (nextPowerOfTwo evals.length - evals.length)
      0).length = nextPowerOfTwo evals.length := by
  have hle : evals.length ≤ nextPowerOfTwo evals.length :=
    Nat.le_pow_clog (by norm_num) _
  rw [List.length_append, List.length_replicate]
  omega

/-- `PolynomialEvalForm::new` -/
def new (evals : List Fr) : Except KzgError PolynomialEvalForm :=
  if h : evals.length > MAINNET_SRS_G1_SIZE then
    .error (.genericError "Input size exceeds maximum polynomial size")
  else
    .ok {
      evaluations := evals
        ++ List.replicate (nextPowerOfTwo evals.length - evals.length) 0
      lenUnderlyingBlobBytes := evals.length * BYTES_PER_FIELD_ELEMENT
      size_le := Nat.mul_le_mul_right _ (Nat.le_of_not_lt h)
      aligned := Nat.mul_mod_left _ _
      padded := by
        rw [Nat.mul_div_cancel _ (by norm_num)]
        exact length_padded evals }

/-- What `new` accepts and what it makes of it. -/
theorem new_eq_ok_iff {evals : List Fr} {poly : PolynomialEvalForm} :
    new evals = .ok poly
      ↔ evals.length ≤ MAINNET_SRS_G1_SIZE
        ∧ poly.evaluations = evals
          ++ List.replicate (nextPowerOfTwo evals.length - evals.length) 0
        ∧ poly.lenUnderlyingBlobBytes
          = evals.length * BYTES_PER_FIELD_ELEMENT := by
  unfold new
  by_cases h : evals.length > MAINNET_SRS_G1_SIZE
  · rw [dif_pos h]
    constructor
    · intro hok
      cases hok
    · rintro ⟨hle, -⟩
      exact absurd hle (not_le.mpr h)
  · rw [dif_neg h]
    constructor
    · intro hok
      rw [← Except.ok.inj hok]
      exact ⟨Nat.le_of_not_lt h, rfl, rfl⟩
    · rintro ⟨-, hevals, hbytes⟩
      cases poly
      cases hevals
      cases hbytes
      rfl

theorem exists_new {evals : List Fr}
    (h : evals.length ≤ MAINNET_SRS_G1_SIZE) :
    ∃ poly, new evals = .ok poly :=
  ⟨_, dif_neg (not_lt.mpr h)⟩

/-- `len` -/
abbrev len (self : PolynomialEvalForm) : Nat := self.evaluations.length

/-- It is what the blob is padded to. -/
theorem len_of_new {evals : List Fr} {poly : PolynomialEvalForm}
    (h : new evals = .ok poly) : poly.len = nextPowerOfTwo evals.length := by
  obtain ⟨-, hevals, -⟩ := new_eq_ok_iff.mp h
  rw [len, hevals, length_padded]

end PolynomialEvalForm

/-- The loop of `expand_root_of_unity`: `fuel` is the number of
iterations left below `max_iter`. -/
def expandLoop (root : Fr) : Nat → Nat → List Fr → Option (List Fr)
  | 0, _, roots => some roots
  | fuel + 1, i, roots => do
      let cur ← roots[i]?
      if cur = 1 then some roots
      else expandLoop root fuel (i + 1) (roots ++ [cur * root])

/-- `expand_root_of_unity` -/
def expandRootOfUnity (root : Fr) : Option (List Fr) :=
  expandLoop root MAINNET_SRS_G1_SIZE 1 [1, root]

/-- `calculate_roots_of_unity` -/
def calculateRootsOfUnity (lengthOfDataAfterPadding : Nat) :
    Outcome (List Fr) := do
  if lengthOfDataAfterPadding = 0 then
    throw (.genericError "Length of data after padding is 0")
  let nFieldElements :=
    divCeil lengthOfDataAfterPadding BYTES_PER_FIELD_ELEMENT
  if nFieldElements > MAINNET_SRS_G1_SIZE then
    throw (.genericError "Length exceeds SRS")
  let target := nextPowerOfTwo nFieldElements
  let log2 := trailingZeros target
  match getPrimitiveRootOfUnity log2 with
  | none => throw (.genericError "power must be <= 28")
  | some root =>
      let roots ← expandRootOfUnity root
      return roots.take (roots.length - 1)

/-- The loop of the barycentric sum. -/
def barycentricSum (z : Fr) : List (Fr × Fr) → Fr → Outcome Fr
  | [], sum => return sum
  | (f_i, domain_i) :: rest, sum => do
      let a := f_i * domain_i
      let b := z - domain_i
      if b = 0 then
        throw (.genericError "Division by zero in barycentric evaluation")
      match b.inverse with
      | none => throw .invalidDenominator
      | some inv => barycentricSum z rest (sum + a * inv)

/-- `evaluate_polynomial_in_evaluation_form` -/
def evaluatePolynomialInEvaluationForm (polynomial : PolynomialEvalForm)
    (z : Fr) : Outcome Fr := do
  let rootsOfUnity ← calculateRootsOfUnity polynomial.lenUnderlyingBlobBytes
  if polynomial.len ≠ rootsOfUnity.length then
    throw .invalidInputLength
  let width := polynomial.len
  match (← frFromUsize width).inverse with
  | none => throw .invalidDenominator
  | some inverseWidth =>
      match rootsOfUnity.findIdx? (· = z) with
      | some idx =>
          match polynomial.evaluations[idx]? with
          | some y => return y
          | none => throw (.genericError "polynomial element missing")
      | none =>
          let sum ← barycentricSum z
            (polynomial.evaluations.zip rootsOfUnity) 0
          let r := z.pow (← frFromUsize width) - 1
          return sum * r * inverseWidth

-- ======================================================== challenges

/-- `compute_challenge` -/
def computeChallenge (sha256 : Bytes → B256) (blobPoly : PolynomialEvalForm)
    (commitment : AffineG1) : Outcome Fr := do
  validateG1Point commitment.toG1
  let challengeInputSize := FIAT_SHAMIR_PROTOCOL_DOMAIN.length + 8
    + blobPoly.len * BYTES_PER_FIELD_ELEMENT + SIZE_OF_G1_AFFINE_COMPRESSED
  let buf := List.replicate challengeInputSize 0
  let offset := 0
  let buf ← writeAt buf offset FIAT_SHAMIR_PROTOCOL_DOMAIN
  let offset := offset + FIAT_SHAMIR_PROTOCOL_DOMAIN.length
  let buf ← writeAt buf offset (usizeToBeBytes blobPoly.len)
  let offset := offset + 8
  let blobBytes ← toByteArray blobPoly.evaluations
    (blobPoly.len * BYTES_PER_FIELD_ELEMENT)
  let buf ← writeAt buf offset blobBytes
  let offset := offset + blobBytes.length
  let buf ← writeAt buf offset (serializeG1Compressed commitment)
  let z ← hashToFieldElement sha256 buf
  return z

/-- The loop of `compute_challenges_and_evaluate_polynomial`. -/
def challengesAndEvaluations (sha256 : Bytes → B256) :
    List (PolynomialEvalForm × AffineG1) → Outcome (List (Fr × Fr))
  | [] => return []
  | (poly, commit) :: rest => do
      let z ← computeChallenge sha256 poly commit
      let y ← evaluatePolynomialInEvaluationForm poly z
      let zys ← challengesAndEvaluations sha256 rest
      return (z, y) :: zys

/-- `compute_challenges_and_evaluate_polynomial` -/
def computeChallengesAndEvaluatePolynomial (sha256 : Bytes → B256)
    (blobsData : List PolynomialEvalForm) (commitments : List AffineG1) :
    Outcome (List Fr × List Fr) := do
  if blobsData.length ≠ commitments.length && !blobsData.isEmpty then
    throw (.genericError "length's of the input are not the same or is empty")
  let zys ← challengesAndEvaluations sha256 (blobsData.zip commitments)
  return (zys.map Prod.fst, zys.map Prod.snd)

end Hokulea
