/-
The constants of `consts.rs` and the errors of `errors.rs` of the
batch verifier.

The table holds a root of unity for every power of two up to `2^28`:
each entry squares to the one before it, and the second is `-1`, so the
entry at `k` has the exact order `2^k`.
-/
import Mathlib.Data.List.GetD
import Mathlib.RingTheory.RootsOfUnity.PrimitiveRoots
import Hokulea.Eigenda.EncodedPayload
import Hokulea.Kzg.Bn254

namespace Hokulea

/-- `KzgError` -/
inductive KzgError where
  | invalidInputLength
  | invalidFieldElement
  | notOnCurveError (e : String)
  | serializationError
  | domainError
  | invalidDenominator
  | genericError (e : String)
  deriving DecidableEq, Repr

/-- `SIZE_OF_G1_AFFINE_COMPRESSED` -/
abbrev SIZE_OF_G1_AFFINE_COMPRESSED : Nat := 32

/-- `FIAT_SHAMIR_PROTOCOL_DOMAIN`, the ASCII bytes of
`EIGENDA_FSBLOBVERIFY_V1_`. -/
def FIAT_SHAMIR_PROTOCOL_DOMAIN : Bytes :=
  "EIGENDA_FSBLOBVERIFY_V1_".toList.map fun c => UInt8.ofNat c.toNat

/-- `RANDOM_CHALLENGE_KZG_BATCH_DOMAIN`, the ASCII bytes of
`EIGENDA_RCKZGBATCH___V1_`. -/
def RANDOM_CHALLENGE_KZG_BATCH_DOMAIN : Bytes :=
  "EIGENDA_RCKZGBATCH___V1_".toList.map fun c => UInt8.ofNat c.toNat

/-- `MAINNET_SRS_G1_SIZE` -/
abbrev MAINNET_SRS_G1_SIZE : Nat := 268435456

/-- `PRIMITIVE_ROOTS_OF_UNITY_DEC` -/
def PRIMITIVE_ROOTS_OF_UNITY_DEC : List Nat :=
  [1,
    21888242871839275222246405745257275088548364400416034343698204186575808495616,
    21888242871839275217838484774961031246007050428528088939761107053157389710902,
    19540430494807482326159819597004422086093766032135589407132600596362845576832,
    14940766826517323942636479241147756311199852622225275649687664389641784935947,
    4419234939496763621076330863786513495701855246241724391626358375488475697872,
    9088801421649573101014283686030284801466796108869023335878462724291607593530,
    10359452186428527605436343203440067497552205259388878191021578220384701716497,
    3478517300119284901893091970156912948790432420133812234316178878452092729974,
    6837567842312086091520287814181175430087169027974246751610506942214842701774,
    3161067157621608152362653341354432744960400845131437947728257924963983317266,
    1120550406532664055539694724667294622065367841900378087843176726913374367458,
    4158865282786404163413953114870269622875596290766033564087307867933865333818,
    197302210312744933010843010704445784068657690384188106020011018676818793232,
    20619701001583904760601357484951574588621083236087856586626117568842480512645,
    20402931748843538985151001264530049874871572933694634836567070693966133783803,
    421743594562400382753388642386256516545992082196004333756405989743524594615,
    12650941915662020058015862023665998998969191525479888727406889100124684769509,
    11699596668367776675346610687704220591435078791727316319397053191800576917728,
    15549849457946371566896172786938980432421851627449396898353380550861104573629,
    17220337697351015657950521176323262483320249231368149235373741788599650842711,
    13536764371732269273912573961853310557438878140379554347802702086337840854307,
    12143866164239048021030917283424216263377309185099704096317235600302831912062,
    934650972362265999028062457054462628285482693704334323590406443310927365533,
    5709868443893258075976348696661355716898495876243883251619397131511003808859,
    19200870435978225707111062059747084165650991997241425080699860725083300967194,
    7419588552507395652481651088034484897579724952953562618697845598160172257810,
    2082940218526944230311718225077035922214683169814847712455127909555749686340,
    19103219067921713944291392827692070036145651957329286315305642004821462161904]

/-- `PRIMITIVE_ROOTS_OF_UNITY` -/
def PRIMITIVE_ROOTS_OF_UNITY : List Fr :=
  PRIMITIVE_ROOTS_OF_UNITY_DEC.map fun (n : Nat) => (n : Fr)

/-- `get_primitive_root_of_unity` -/
def getPrimitiveRootOfUnity (power : Nat) : Option Fr :=
  PRIMITIVE_ROOTS_OF_UNITY[power]?

@[simp] theorem length_FIAT_SHAMIR_PROTOCOL_DOMAIN :
    FIAT_SHAMIR_PROTOCOL_DOMAIN.length = 24 := by decide

@[simp] theorem length_RANDOM_CHALLENGE_KZG_BATCH_DOMAIN :
    RANDOM_CHALLENGE_KZG_BATCH_DOMAIN.length = 24 := by decide

-- ==================================================== the root table

/-- Each entry of the table squares to the one before it. -/
theorem roots_sq : ∀ k < 28,
    (PRIMITIVE_ROOTS_OF_UNITY_DEC.getD (k + 1) 0) ^ 2 % Fr.modulus
      = PRIMITIVE_ROOTS_OF_UNITY_DEC.getD k 0 % Fr.modulus := by
  decide +kernel

theorem getPrimitiveRootOfUnity_eq {k : Nat} (h : k ≤ 28) :
    getPrimitiveRootOfUnity k
      = some ((PRIMITIVE_ROOTS_OF_UNITY_DEC.getD k 0 : Nat) : Fr) := by
  have hlen : k < PRIMITIVE_ROOTS_OF_UNITY_DEC.length := by
    show k < 29
    omega
  unfold getPrimitiveRootOfUnity PRIMITIVE_ROOTS_OF_UNITY
  rw [List.getElem?_map, List.getElem?_eq_getElem hlen,
    List.getD_eq_getElem _ _ hlen]
  rfl

/-- The entry at `k` has the exact order `2^k`. -/
theorem isPrimitiveRoot_roots {k : Nat} (h : k ≤ 28) :
    IsPrimitiveRoot
      ((PRIMITIVE_ROOTS_OF_UNITY_DEC.getD k 0 : Nat) : Fr) (2 ^ k) := by
  induction k with
  | zero =>
      rw [pow_zero, IsPrimitiveRoot.one_right_iff]
      decide +kernel
  | succ k ih =>
      have hsq : ((PRIMITIVE_ROOTS_OF_UNITY_DEC.getD (k + 1) 0 : Nat) : Fr) ^ 2
          = ((PRIMITIVE_ROOTS_OF_UNITY_DEC.getD k 0 : Nat) : Fr) := by
        rw [← Nat.cast_pow, ZMod.natCast_eq_natCast_iff']
        exact roots_sq k (by omega)
      have ih := ih (by omega)
      rw [IsPrimitiveRoot.iff_orderOf]
      apply orderOf_eq_prime_pow
      · cases k with
        | zero =>
            rw [pow_zero, pow_one]
            decide +kernel
        | succ k =>
            rw [pow_succ', pow_mul, hsq]
            apply ih.pow_ne_one_of_pos_of_lt (by positivity)
            exact Nat.pow_lt_pow_right (by norm_num) (by omega)
      · rw [pow_succ', pow_mul, hsq]
        exact ih.pow_eq_one

end Hokulea
