/-
Parsing and serialising an altda commitment.

# What is proved

- `tryFrom_inv`: an accepted byte string is the bytes form of the
  commitment it parses to, followed by whatever `tryFrom` dropped.
- `tryFrom_toRlpBytes`: the bytes form of every commitment of the
  accepted type and layer parses back to it, whatever follows.
- `toRlpBytes_inj`: the bytes form determines the commitment, whatever
  its version and header bytes.
- `tryFrom_canonical_iff`: the bytes form of what was parsed is the
  input exactly when nothing follows the certificate's RLP item.

The induction over the nested records is not here: it is the law
fields of the codecs in `EigendaCert/Types.lean`.
-/
import Hokulea.Eigenda.Preimage

namespace Hokulea

open Bytes Rlp

namespace AltDACommitment

/-- The bytes form fits a machine word, as every object in memory
does. -/
def Addressable (c : AltDACommitment) : Prop :=
  c.toRlpBytes.length < 2 ^ 64

instance (c : AltDACommitment) : Decidable c.Addressable :=
  inferInstanceAs (Decidable (_ < _))

-- =========================================================== parsing

/-- A certificate read is its codec's read, its item the declared
one. -/
theorem decodeCert_inv {α : Type} {c : Codec α}
    {f : α → EigenDAVersionedCert} {buf : Bytes}
    {cert : EigenDAVersionedCert}
    (h : decodeCert c.record f buf = .ok cert) :
    ∃ a rest, cert = f a ∧ buf = c.record.encode a ++ rest
      ∧ itemLength buf = some (buf.length - rest.length) := by
  unfold decodeCert at h
  split at h
  · cases h
  next a rest ha =>
    injection h with h
    exact ⟨a, rest, h.symm, c.record.canonical ha, c.itemLength_record ha⟩

/-- What an accepted byte string looks like: the commitment's own
bytes form, then the bytes the parser dropped; the certificate's item
ends where those begin. -/
theorem tryFrom_inv {value : Bytes} {c : AltDACommitment}
    (h : tryFrom value = .ok c) :
    c.commitmentType = 1 ∧ c.daLayerByte = 0 ∧ ∃ rest,
      value = c.toRlpBytes ++ rest
        ∧ itemLength (value.drop 3) = some (value.length - 3 - rest.length) := by
  unfold tryFrom at h
  split at h
  case h_2 => cases h
  case h_1 t d version b tail =>
    split at h
    case isTrue => cases h
    case isFalse ht =>
      split at h
      case isTrue => cases h
      case isFalse hd =>
        have ht' : t = 1 := by simpa using ht
        have hd' : d = 0 := by simpa using hd
        subst ht' hd'
        simp only at h
        split at h
        · cases h
        next cert hcert =>
          injection h with h
          subst h
          refine ⟨rfl, rfl, ?_⟩
          split at hcert
          case isTrue hv =>
            subst hv
            obtain ⟨a, rest, rfl, hbuf, hlen⟩ := decodeCert_inv hcert
            exact ⟨rest, by rw [hbuf]; rfl, hlen⟩
          case isFalse =>
            split at hcert
            case isTrue hv =>
              subst hv
              obtain ⟨a, rest, rfl, hbuf, hlen⟩ := decodeCert_inv hcert
              exact ⟨rest, by rw [hbuf]; rfl, hlen⟩
            case isFalse =>
              split at hcert
              case isTrue hv =>
                subst hv
                obtain ⟨a, rest, rfl, hbuf, hlen⟩ := decodeCert_inv hcert
                exact ⟨rest, by rw [hbuf]; rfl, hlen⟩
              case isFalse => cases hcert

/-- A certificate's encoding, followed by anything, is read back. -/
theorem decodeCert_encode {α : Type} {c : Codec α}
    {f : α → EigenDAVersionedCert} (a : α) (rest : Bytes)
    (h64 : (c.encode a).length < 2 ^ 64) :
    decodeCert c f (c.encode a ++ rest) = .ok (f a) := by
  unfold decodeCert
  rw [c.complete h64]

/-- The bytes form of a commitment of the accepted type and layer,
followed by anything, parses to the commitment. -/
theorem tryFrom_toRlpBytes {c : AltDACommitment} (ht : c.commitmentType = 1)
    (hd : c.daLayerByte = 0) (h64 : c.Addressable) (rest : Bytes) :
    tryFrom (c.toRlpBytes ++ rest) = .ok c := by
  obtain ⟨t, d, v⟩ := c
  simp only at ht hd
  subst ht hd
  -- the certificate's encoding is not empty, so four bytes are there
  have step : ∀ {α : Type} (k : Codec α) (f : α → EigenDAVersionedCert)
      (version : UInt8) (a : α), (k.encode a).length < 2 ^ 64 →
      (∀ b tail cert, decodeCert k f (b :: tail) = .ok cert →
        tryFrom (1 :: 0 :: version :: b :: tail) = .ok ⟨1, 0, cert⟩) →
      tryFrom ([1, 0, version] ++ k.encode a ++ rest)
        = .ok ⟨1, 0, f a⟩ := by
    intro α k f version a ha hf
    obtain ⟨b, tail, htail⟩ :=
      List.exists_cons_of_ne_nil (k.encode_ne_nil a)
    have hdec := decodeCert_encode (f := f) a rest ha
    simp only [htail, List.cons_append, List.nil_append] at hdec ⊢
    exact hf b _ _ hdec
  cases v with
  | v2 cert =>
      have ha : (EigenDACertV2.rlp.encode cert).length < 2 ^ 64 :=
        lt_of_le_of_lt (by simp [toRlpBytes]; omega) h64
      exact step EigenDACertV2.rlp .v2 1 cert ha
        fun b tail _ h => by simp [tryFrom, h]
  | v3 cert =>
      have ha : (EigenDACertV3.rlp.encode cert).length < 2 ^ 64 :=
        lt_of_le_of_lt (by simp [toRlpBytes]; omega) h64
      exact step EigenDACertV3.rlp .v3 2 cert ha
        fun b tail _ h => by simp [tryFrom, h]
  | v4 cert =>
      have ha : (EigenDACertV4.rlp.encode cert).length < 2 ^ 64 :=
        lt_of_le_of_lt (by simp [toRlpBytes]; omega) h64
      exact step EigenDACertV4.rlp .v4 3 cert ha
        fun b tail _ h => by simp [tryFrom, h]

/-- Parsing undoes serialising. -/
theorem tryFrom_toRlpBytes_self {c : AltDACommitment}
    (ht : c.commitmentType = 1) (hd : c.daLayerByte = 0)
    (h64 : c.Addressable) : tryFrom c.toRlpBytes = .ok c := by
  have h := tryFrom_toRlpBytes ht hd h64 []
  rwa [List.append_nil] at h

/-- The bytes form determines the commitment: the version byte picks
the codec, and each codec's encoding determines the certificate. -/
theorem toRlpBytes_inj {c d : AltDACommitment} (hc : c.Addressable)
    (hd : d.Addressable) (h : c.toRlpBytes = d.toRlpBytes) : c = d := by
  obtain ⟨tc, dc, vc⟩ := c
  obtain ⟨td, dd, vd⟩ := d
  -- the codec's encoding is shorter than the whole form
  have hlen : ∀ {e : AltDACommitment} {bs : Bytes} (_ : e.Addressable)
      (_ : bs.length ≤ e.toRlpBytes.length), bs.length < 2 ^ 64 :=
    fun he hle => lt_of_le_of_lt hle he
  cases vc <;> cases vd <;>
    simp only [toRlpBytes, List.cons_append, List.nil_append,
      List.cons.injEq] at h
  case v2.v2 a b =>
    obtain ⟨rfl, rfl, -, he⟩ := h
    rw [EigenDACertV2.rlp.encode_inj (hlen hc (by simp [toRlpBytes]; omega))
      (hlen hd (by simp [toRlpBytes]; omega)) he]
  case v3.v3 a b =>
    obtain ⟨rfl, rfl, -, he⟩ := h
    rw [EigenDACertV3.rlp.encode_inj (hlen hc (by simp [toRlpBytes]; omega))
      (hlen hd (by simp [toRlpBytes]; omega)) he]
  case v4.v4 a b =>
    obtain ⟨rfl, rfl, -, he⟩ := h
    rw [EigenDACertV4.rlp.encode_inj (hlen hc (by simp [toRlpBytes]; omega))
      (hlen hd (by simp [toRlpBytes]; omega)) he]
  -- two different versions have two different version bytes
  all_goals exact absurd h.2.2.1 (by decide)

/-- The bytes form begins with the type and the layer. -/
theorem toRlpBytes_eq_cons (c : AltDACommitment) :
    ∃ tail, c.toRlpBytes = c.commitmentType :: c.daLayerByte :: tail :=
  ⟨_, rfl⟩

/-- The version byte and the certificate are in the bytes form. -/
theorem three_lt_length_toRlpBytes (c : AltDACommitment) :
    3 < c.toRlpBytes.length := by
  obtain ⟨t, d, v⟩ := c
  have hpos : ∀ {α : Type} (k : Codec α) (a : α), 0 < (k.encode a).length :=
    fun k a => List.length_pos_iff.mpr (k.encode_ne_nil a)
  cases v with
  | v2 cert =>
      have := hpos EigenDACertV2.rlp cert
      simp [toRlpBytes]; omega
  | v3 cert =>
      have := hpos EigenDACertV3.rlp cert
      simp [toRlpBytes]; omega
  | v4 cert =>
      have := hpos EigenDACertV4.rlp cert
      simp [toRlpBytes]; omega

/-- Calldata: the derivation version byte, then the bytes form. -/
def calldata (c : AltDACommitment) : Bytes :=
  1 :: c.toRlpBytes

/-- The data source parses calldata to its commitment. -/
theorem parse_calldata {c : AltDACommitment} (ht : c.commitmentType = 1)
    (hd : c.daLayerByte = 0) (h64 : c.Addressable) :
    EigenDAPreimageSource.parse (calldata c) = .ok c := by
  have hlen := three_lt_length_toRlpBytes c
  unfold EigenDAPreimageSource.parse calldata
  rw [if_neg (by rw [List.length_cons]; omega), List.drop_one, List.tail_cons,
    tryFrom_toRlpBytes_self ht hd h64]

-- ======================================================== canonicity

/-- An accepted input is serialised back unchanged exactly when it
ends with its certificate's item. -/
theorem toRlpBytes_eq_iff {value : Bytes} {c : AltDACommitment}
    (h : tryFrom value = .ok c) :
    c.toRlpBytes = value
      ↔ itemLength (value.drop 3) = some (value.drop 3).length := by
  obtain ⟨-, -, rest, hrest, hlen⟩ := tryFrom_inv h
  have h3 := three_lt_length_toRlpBytes c
  have hsum : value.length = c.toRlpBytes.length + rest.length := by
    rw [hrest, List.length_append]
  rw [hlen, List.length_drop, Option.some_inj]
  constructor
  · intro heq
    rw [heq] at hsum
    omega
  · intro heq
    have hnil : rest = [] := List.length_eq_zero_iff.mp (by omega)
    rw [hrest, hnil, List.append_nil]

/-- Exactly the inputs that end with their certificate's item are
serialised back unchanged, and no two of those parse to one
commitment. An input with bytes after the item is accepted all the
same, and loses them. -/
theorem tryFrom_canonical_iff {value : Bytes} {c : AltDACommitment}
    (h : tryFrom value = .ok c) :
    (c.toRlpBytes = value
      ↔ itemLength (value.drop 3) = some (value.drop 3).length)
    ∧ (itemLength (value.drop 3) = some (value.drop 3).length →
        ∀ value', tryFrom value' = .ok c →
          itemLength (value'.drop 3) = some (value'.drop 3).length →
          value' = value) := by
  refine ⟨toRlpBytes_eq_iff h, fun hcan value' h' hcan' => ?_⟩
  rw [← (toRlpBytes_eq_iff h').mpr hcan', (toRlpBytes_eq_iff h).mpr hcan]

/-- Two commitments have one digest exactly when they are equal, or
their bytes forms collide. -/
theorem toDigest_eq_iff {c d : AltDACommitment} (hc : c.Addressable)
    (hd : d.Addressable) (keccak256 : Bytes → B256) :
    c.toDigest keccak256 = d.toDigest keccak256
      ↔ c = d ∨ (c.toRlpBytes ≠ d.toRlpBytes
        ∧ keccak256 c.toRlpBytes = keccak256 d.toRlpBytes) := by
  unfold toDigest
  constructor
  · intro h
    by_cases hbytes : c.toRlpBytes = d.toRlpBytes
    · exact .inl (toRlpBytes_inj hc hd hbytes)
    · exact .inr ⟨hbytes, h⟩
  · intro h
    rcases h with h | h
    · rw [h]
    · exact h.2

/-- Parsing undoes serialising, and serialising loses nothing: the
bytes form, and up to collisions the digest, tell any two commitments
apart. -/
theorem toRlpBytes_faithful :
    (∀ c : AltDACommitment, c.Addressable → c.commitmentType = 1 →
      c.daLayerByte = 0 → tryFrom c.toRlpBytes = .ok c)
    ∧ ∀ c d : AltDACommitment, c.Addressable → d.Addressable →
        (c.toRlpBytes = d.toRlpBytes → c = d)
        ∧ ∀ keccak256 : Bytes → B256,
          c.toDigest keccak256 = d.toDigest keccak256
            ↔ c = d ∨ (c.toRlpBytes ≠ d.toRlpBytes
              ∧ keccak256 c.toRlpBytes = keccak256 d.toRlpBytes) := by
  constructor
  · intro c h64 ht hd
    exact tryFrom_toRlpBytes_self ht hd h64
  · intro c d hc hd
    exact ⟨toRlpBytes_inj hc hd, toDigest_eq_iff hc hd⟩

-- ----------------------------------------------- a concrete calldata

/-- The bytes form of a zero commitment fits a machine word. -/
theorem zeroCommitment_addressable : (zeroCommitment 0 0).Addressable := by
  decide +kernel

/-- A V2 commitment with maximal integers, empty byte strings, and lists
that are empty, long and nested. -/
def nestedCommitment : AltDACommitment :=
  let max32 : B256 := ⟨List.replicate 32 255, by simp⟩
  let g1 : G1Point := ⟨.allOnes 256, 0⟩
  let g2 : G2Point := ⟨⟨.allOnes 256, 1⟩, ⟨0, .allOnes 256⟩⟩
  ⟨1, 0, .v2
    { blobInclusionInfo :=
        ⟨⟨⟨.allOnes 16, [0, 1], ⟨g1, g2, g2, .allOnes 32⟩, max32⟩, [],
          [0, 127, 128, .allOnes 32]⟩, 255, []⟩
      batchHeaderV2 := ⟨max32, .allOnes 32⟩
      nonsignerStakeAndSignature :=
        ⟨[], [g1, g1], [], g2, g1, [1], [], [[], [0, 256], [.allOnes 32]]⟩
      signedQuorumNumbers := [128] }⟩

theorem nestedCommitment_addressable : nestedCommitment.Addressable := by
  decide +kernel

/-- It is restored, and told apart from the zero commitment. -/
theorem toRlpBytes_faithful_nested :
    tryFrom nestedCommitment.toRlpBytes = .ok nestedCommitment
      ∧ nestedCommitment.toRlpBytes ≠ (zeroCommitment 0 0).toRlpBytes := by
  refine ⟨toRlpBytes_faithful.1 _ nestedCommitment_addressable rfl rfl,
    fun h => ?_⟩
  have heq := (toRlpBytes_faithful.2 _ _ nestedCommitment_addressable
    zeroCommitment_addressable).1 h
  cases heq

/-- Whatever follows the zero commitment's bytes form is dropped. -/
theorem tryFrom_zeroCommitment (rest : Bytes) :
    tryFrom ((zeroCommitment 0 0).toRlpBytes ++ rest) = .ok (zeroCommitment 0 0) :=
  tryFrom_toRlpBytes rfl rfl zeroCommitment_addressable rest

/-- The zero commitment's own bytes are canonical. -/
theorem tryFrom_canonical_zeroCommitment :
    itemLength (((zeroCommitment 0 0).toRlpBytes ++ []).drop 3)
      = some (((zeroCommitment 0 0).toRlpBytes ++ []).drop 3).length :=
  (tryFrom_canonical_iff (tryFrom_zeroCommitment [])).1.mp
    (List.append_nil _).symm

/-- One byte after the item is dropped: an accepted calldata that is
not the bytes form of the commitment it parses to, and two calldatas
for one commitment. -/
theorem tryFrom_trailing_byte :
    tryFrom ((zeroCommitment 0 0).toRlpBytes ++ [0]) = .ok (zeroCommitment 0 0)
      ∧ (zeroCommitment 0 0).toRlpBytes ≠ (zeroCommitment 0 0).toRlpBytes ++ [0]
      ∧ tryFrom ((zeroCommitment 0 0).toRlpBytes ++ []) = .ok (zeroCommitment 0 0) := by
  refine ⟨tryFrom_zeroCommitment [0], ?_, tryFrom_zeroCommitment []⟩
  intro heq
  have hlen := congrArg List.length heq
  rw [List.length_append, List.length_singleton] at hlen
  omega

end AltDACommitment

end Hokulea
