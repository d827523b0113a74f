/-
RLP, the recursive-length-prefix serialisation, as a library of
lawful codecs.

# The wire format

An item is a byte string or a list of items. A string of one byte
below `0x80` stands for itself; every other item is a header and a
payload. The header's first byte tells strings from lists and holds
the payload length when it is below 56; a longer length follows the
first byte in trimmed big-endian form.

# The reader

`Header.decode` is strict: a one-byte string below `0x80` written with
a header, a long form for a short length and a length with a leading
zero are all rejected. A record is read field by field from the whole
remaining input and its declared length is compared with what the
fields consumed; a vector is read from exactly its declared window.
Bytes after the item are handed back to the caller.

# Laws

`Codec` carries its two laws as fields, so a codec that reads two
spellings of one value, or fails on its own output, cannot be built:

- `canonical`: what was consumed is the encoding of what was read;
- `complete`: the encoding of a value, followed by anything, reads
  back as the value and leaves what followed. Lengths are machine
  words, so this is claimed for encodings below `2 ^ 64` bytes.

The combinators (`seq`, `refine`, `record`, `vec`) preserve the laws,
so a codec assembled from them needs no proof of its own.
-/
import Mathlib.Logic.Equiv.Basic
import Hokulea.Lib.Bytes

namespace Rlp

open Bytes

-- ============================================================ errors

/-- Why an item is rejected. -/
inductive Error where
  | overflow
  | leadingZero
  | inputTooShort
  | nonCanonicalSingleByte
  | nonCanonicalSize
  | unexpectedLength
  | unexpectedString
  | unexpectedList
  | listLengthMismatch (expected got : Nat)
  deriving DecidableEq, Repr

/-- The text of an error. -/
def Error.toString : Error → String
  | overflow => "overflow"
  | leadingZero => "leading zero"
  | inputTooShort => "input too short"
  | nonCanonicalSingleByte => "non-canonical single byte"
  | nonCanonicalSize => "non-canonical size"
  | unexpectedLength => "unexpected length"
  | unexpectedString => "unexpected string"
  | unexpectedList => "unexpected list"
  | listLengthMismatch expected got =>
      "unexpected list length (got " ++ Nat.repr got ++ ", expected "
        ++ Nat.repr expected ++ ")"

-- =========================================================== headers

/-- The header of an item: string or list, and the payload length. -/
structure Header where
  list : Bool
  payloadLength : Nat
  deriving DecidableEq, Repr

/-- The header's bytes. -/
def Header.encode (h : Header) : Bytes :=
  if h.payloadLength < 56 then
    [UInt8.ofNat ((if h.list then 0xC0 else 0x80) + h.payloadLength)]
  else
    let lenBe := beTrim 8 h.payloadLength
    UInt8.ofNat ((if h.list then 0xF7 else 0xB7) + lenBe.length) :: lenBe

/-- The long form: `lenOfLen` length bytes at the front of `buf`. -/
def Header.decodeLong (list : Bool) (lenOfLen : Nat) (buf : Bytes) :
    Except Error (Header × Bytes) :=
  if buf.length < lenOfLen then .error .inputTooShort
  else if (buf.take lenOfLen).head? = some 0 then .error .leadingZero
  else if beNat (buf.take lenOfLen) < 56 then .error .nonCanonicalSize
  else .ok (⟨list, beNat (buf.take lenOfLen)⟩, buf.drop lenOfLen)

/-- Header and remaining input, the payload length not yet compared
with what remains. -/
def Header.decodePrefix : Bytes → Except Error (Header × Bytes)
  | [] => .error .inputTooShort
  | b :: buf =>
      if b.toNat < 0x80 then .ok (⟨false, 1⟩, b :: buf)
      else if b.toNat ≤ 0xB7 then
        if b.toNat = 0x81 then
          match buf with
          | [] => .error .inputTooShort
          | c :: _ =>
              if c.toNat < 0x80 then .error .nonCanonicalSingleByte
              else .ok (⟨false, 1⟩, buf)
        else .ok (⟨false, b.toNat - 0x80⟩, buf)
      else if b.toNat ≤ 0xBF then decodeLong false (b.toNat - 0xB7) buf
      else if b.toNat ≤ 0xF7 then .ok (⟨true, b.toNat - 0xC0⟩, buf)
      else decodeLong true (b.toNat - 0xF7) buf

/-- Read a header; the payload must lie inside the remaining input. -/
def Header.decode (buf : Bytes) : Except Error (Header × Bytes) :=
  match decodePrefix buf with
  | .error e => .error e
  | .ok (h, tail) =>
      if tail.length < h.payloadLength then .error .inputTooShort
      else .ok (h, tail)

/-- A string item: a small byte as itself, else header and bytes. -/
def encodeString (s : Bytes) : Bytes :=
  (if s.length ≠ 1 ∨ 0x80 ≤ (s.headD 0).toNat then
    Header.encode ⟨false, s.length⟩ else []) ++ s

theorem toNat_ofNat_lt {n : Nat} (h : n < 256) :
    (UInt8.ofNat n).toNat = n := by
  simp [Nat.mod_eq_of_lt h]

theorem Header.encode_ne_nil (h : Header) : h.encode ≠ [] := by
  unfold Header.encode
  split <;> simp

theorem encodeString_ne_nil (s : Bytes) : encodeString s ≠ [] := by
  unfold encodeString
  split
  · simp [Header.encode_ne_nil]
  · next h =>
      intro he
      rw [List.nil_append] at he
      exact h (Or.inl (by simp [he]))

/-- The trimmed bytes of a long length: between one and eight, with
the length as their value and no leading zero. -/
theorem beTrim_len {n : Nat} (h56 : 56 ≤ n) (h64 : n < 2 ^ 64) :
    1 ≤ (beTrim 8 n).length ∧ (beTrim 8 n).length ≤ 8
      ∧ beNat (beTrim 8 n) = n := by
  have hn : n < 256 ^ 8 := by norm_num at h64 ⊢; exact h64
  refine ⟨?_, length_beTrim_le 8 n, beNat_beTrim hn⟩
  exact List.length_pos_iff.mpr (beTrim_ne_nil hn (by omega))

/-- A long length decodes from its own bytes. -/
theorem Header.decodeLong_encode {n : Nat} (list : Bool) (tail : Bytes)
    (h56 : 56 ≤ n) (h64 : n < 2 ^ 64) :
    decodeLong list (beTrim 8 n).length (beTrim 8 n ++ tail)
      = .ok (⟨list, n⟩, tail) := by
  obtain ⟨-, -, hval⟩ := beTrim_len h56 h64
  have hlen : ¬ (beTrim 8 n ++ tail).length < (beTrim 8 n).length := by
    rw [List.length_append]
    omega
  unfold decodeLong
  rw [if_neg hlen, List.take_left, if_neg (head?_beTrim_ne_zero 8 n), hval,
    if_neg (by omega), List.drop_left]

/-- Every header survives the round trip, in front of any input that
holds its payload. The one-byte string is excepted: it has a header
only when its byte is at least `0x80`. -/
theorem Header.decode_encode {h : Header} {tail : Bytes}
    (hlen : h.payloadLength ≤ tail.length) (h64 : h.payloadLength < 2 ^ 64)
    (hone : h.list = false → h.payloadLength = 1 →
      0x80 ≤ (tail.headD 0).toNat) :
    decode (h.encode ++ tail) = .ok (h, tail) := by
  obtain ⟨list, n⟩ := h
  simp only at hlen h64 hone
  have hpre : decodePrefix ((⟨list, n⟩ : Header).encode ++ tail)
      = .ok (⟨list, n⟩, tail) := by
    unfold Header.encode
    simp only
    split
    case isTrue hn =>
      -- the short form: the first byte holds the length
      cases list with
      | false =>
          have hb : (UInt8.ofNat (0x80 + n)).toNat = 0x80 + n :=
            toNat_ofNat_lt (by omega)
          simp only [Bool.false_eq_true, if_false, List.cons_append,
            List.nil_append, decodePrefix, hb]
          rw [if_neg (by omega), if_pos (by omega)]
          split
          case isTrue h1 =>
            have hn1 : n = 1 := by omega
            subst hn1
            cases tail with
            | nil => simp at hlen
            | cons c tail =>
                have hc := hone rfl rfl
                simp only [List.headD_cons] at hc
                simp only
                rw [if_neg (by omega)]
          case isFalse => rw [Nat.add_sub_cancel_left]
      | true =>
          have hb : (UInt8.ofNat (0xC0 + n)).toNat = 0xC0 + n :=
            toNat_ofNat_lt (by omega)
          simp only [if_true, List.cons_append, List.nil_append,
            decodePrefix, hb]
          rw [if_neg (by omega), if_neg (by omega), if_neg (by omega),
            if_pos (by omega), Nat.add_sub_cancel_left]
    case isFalse hn =>
      -- the long form: the first byte holds the length of the length
      obtain ⟨h1, h8, -⟩ := beTrim_len (by omega) h64
      cases list with
      | false =>
          have hb : (UInt8.ofNat (0xB7 + (beTrim 8 n).length)).toNat
              = 0xB7 + (beTrim 8 n).length := toNat_ofNat_lt (by omega)
          simp only [Bool.false_eq_true, if_false, List.cons_append,
            decodePrefix, hb]
          rw [if_neg (by omega), if_neg (by omega), if_pos (by omega),
            Nat.add_sub_cancel_left]
          exact decodeLong_encode false tail (by omega) h64
      | true =>
          have hb : (UInt8.ofNat (0xF7 + (beTrim 8 n).length)).toNat
              = 0xF7 + (beTrim 8 n).length := toNat_ofNat_lt (by omega)
          simp only [if_true, List.cons_append, decodePrefix, hb]
          rw [if_neg (by omega), if_neg (by omega), if_neg (by omega),
            if_neg (by omega), Nat.add_sub_cancel_left]
          exact decodeLong_encode true tail (by omega) h64
  unfold decode
  rw [hpre]
  simp only
  rw [if_neg (by omega)]

/-- What the long form read is the trimmed length. -/
theorem Header.decodeLong_inv {list : Bool} {k : Nat} {buf : Bytes}
    {h : Header} {tail : Bytes} (hk : k ≤ 8)
    (hd : decodeLong list k buf = .ok (h, tail)) :
    h.list = list ∧ 56 ≤ h.payloadLength
      ∧ (beTrim 8 h.payloadLength).length = k
      ∧ buf = beTrim 8 h.payloadLength ++ tail := by
  unfold decodeLong at hd
  split at hd
  case isTrue => cases hd
  case isFalse hlen =>
    split at hd
    case isTrue => cases hd
    case isFalse h0 =>
      split at hd
      case isTrue => cases hd
      case isFalse h56 =>
        injection hd with hd
        injection hd with hh ht
        subst hh ht
        have hkl : (buf.take k).length = k := by
          rw [List.length_take]
          omega
        have htrim : beTrim 8 (beNat (buf.take k)) = buf.take k :=
          beTrim_beNat (by omega) h0
        refine ⟨rfl, by simpa using h56, ?_, ?_⟩
        · simp only [htrim, hkl]
        · simp only [htrim, List.take_append_drop]

/-- A long header is the encoding of what it was read as. -/
theorem Header.decodeLong_canonical {list : Bool} {b : UInt8}
    {buf : Bytes} {h : Header} {tail : Bytes}
    (hb : (if list then 0xF7 else 0xB7) < b.toNat)
    (hb8 : b.toNat ≤ (if list then 0xF7 else 0xB7) + 8)
    (hd : decodeLong list (b.toNat - (if list then 0xF7 else 0xB7)) buf
      = .ok (h, tail)) :
    h.list = list ∧ 56 ≤ h.payloadLength ∧ b :: buf = h.encode ++ tail := by
  obtain ⟨hl, h56, hlen, hbuf⟩ := decodeLong_inv (by omega) hd
  refine ⟨hl, h56, ?_⟩
  unfold Header.encode
  rw [if_neg (by omega), hl]
  simp only
  rw [hlen, hbuf]
  have : (if list then 0xF7 else 0xB7)
      + (b.toNat - (if list then 0xF7 else 0xB7)) = b.toNat := by omega
  rw [this, UInt8.ofNat_toNat]
  rfl

/-- The ways a header is read, by its first byte. -/
inductive Header.Reads : Bytes → Header → Bytes → Prop
  | byte {b : UInt8} {buf : Bytes} (hb : b.toNat < 0x80) :
      Reads (b :: buf) ⟨false, 1⟩ (b :: buf)
  | oneByte {b c : UInt8} {buf : Bytes} (hb : b.toNat = 0x81)
      (hc : 0x80 ≤ c.toNat) : Reads (b :: c :: buf) ⟨false, 1⟩ (c :: buf)
  | string {b : UInt8} {buf : Bytes} (h80 : 0x80 ≤ b.toNat)
      (hB7 : b.toNat ≤ 0xB7) (hne : b.toNat ≠ 0x81) :
      Reads (b :: buf) ⟨false, b.toNat - 0x80⟩ buf
  | longString {b : UInt8} {buf tail : Bytes} {h : Header}
      (hB7 : 0xB7 < b.toNat) (hBF : b.toNat ≤ 0xBF)
      (hlong : decodeLong false (b.toNat - 0xB7) buf = .ok (h, tail)) :
      Reads (b :: buf) h tail
  | list {b : UInt8} {buf : Bytes} (hBF : 0xBF < b.toNat)
      (hF7 : b.toNat ≤ 0xF7) : Reads (b :: buf) ⟨true, b.toNat - 0xC0⟩ buf
  | longList {b : UInt8} {buf tail : Bytes} {h : Header}
      (hF7 : 0xF7 < b.toNat)
      (hlong : decodeLong true (b.toNat - 0xF7) buf = .ok (h, tail)) :
      Reads (b :: buf) h tail

/-- A prefix that is read is read in one of these ways. -/
theorem Header.decodePrefix_reads {buf tail : Bytes} {h : Header}
    (hd : decodePrefix buf = .ok (h, tail)) : Reads buf h tail := by
  rcases buf with _ | ⟨b, buf⟩
  · cases hd
  simp only [decodePrefix] at hd
  by_cases hsmall : b.toNat < 0x80
  · rw [if_pos hsmall] at hd
    cases hd
    exact .byte hsmall
  rw [if_neg hsmall] at hd
  by_cases hB7 : b.toNat ≤ 0xB7
  · rw [if_pos hB7] at hd
    by_cases hone : b.toNat = 0x81
    · rw [if_pos hone] at hd
      rcases buf with _ | ⟨c, buf⟩
      · cases hd
      simp only at hd
      by_cases hc : c.toNat < 0x80
      · rw [if_pos hc] at hd
        cases hd
      · rw [if_neg hc] at hd
        cases hd
        exact .oneByte hone (by omega)
    · rw [if_neg hone] at hd
      cases hd
      exact .string (by omega) hB7 hone
  rw [if_neg hB7] at hd
  by_cases hBF : b.toNat ≤ 0xBF
  · rw [if_pos hBF] at hd
    exact .longString (by omega) hBF hd
  rw [if_neg hBF] at hd
  by_cases hF7 : b.toNat ≤ 0xF7
  · rw [if_pos hF7] at hd
    cases hd
    exact .list (by omega) hF7
  · rw [if_neg hF7] at hd
    exact .longList (by omega) hd

/-- A short header is the encoding of what it was read as. -/
theorem Header.encode_short {list : Bool} {b : UInt8}
    (hlow : (if list then 0xC0 else 0x80) ≤ b.toNat)
    (hhigh : b.toNat < (if list then 0xC0 else 0x80) + 56) :
    Header.encode ⟨list, b.toNat - (if list then 0xC0 else 0x80)⟩ = [b] := by
  unfold Header.encode
  simp only
  rw [if_pos (by omega), Nat.add_sub_cancel' hlow, UInt8.ofNat_toNat]

/-- What a header read proves about the input: it starts with the
header's encoding, except for the byte that is its own item; a
one-byte string behind a header is at least `0x80`; and the payload is
there. -/
theorem Header.decode_inv {buf : Bytes} {h : Header} {tail : Bytes}
    (hd : decode buf = .ok (h, tail)) :
    h.payloadLength ≤ tail.length ∧
      ((h = ⟨false, 1⟩ ∧ buf = tail ∧ (tail.headD 0).toNat < 0x80)
        ∨ (buf = h.encode ++ tail
          ∧ (h.list = false → h.payloadLength = 1 →
            0x80 ≤ (tail.headD 0).toNat))) := by
  unfold decode at hd
  split at hd
  · cases hd
  next h' tail' hpre =>
    split at hd
    case isTrue => cases hd
    case isFalse hlen =>
      cases hd
      refine ⟨by omega, ?_⟩
      cases decodePrefix_reads hpre with
      | byte hb => exact .inl ⟨rfl, rfl, hb⟩
      | @oneByte b c buf hb hc =>
          have hshort := @encode_short false b (by simp; omega)
            (by simp; omega)
          simp only [Bool.false_eq_true, if_false, hb] at hshort
          refine .inr ⟨?_, fun _ _ => hc⟩
          rw [hshort]
          rfl
      | @string b buf h80 hB7 hne =>
          have hshort := @encode_short false b (by simpa using h80)
            (by simp; omega)
          simp only [Bool.false_eq_true, if_false] at hshort
          refine .inr ⟨?_, fun _ hone => ?_⟩
          · rw [hshort]
            rfl
          · simp only at hone
            omega
      | longString hB7 hBF hlong =>
          obtain ⟨-, h56, he⟩ := decodeLong_canonical
            (by simpa using hB7) (by simp; omega) hlong
          exact .inr ⟨he, fun _ hone => by omega⟩
      | @list b buf hBF hF7 =>
          have hshort := @encode_short true b (by simp; omega)
            (by simp; omega)
          simp only [if_true] at hshort
          refine .inr ⟨?_, fun hfalse => by cases hfalse⟩
          rw [hshort]
          rfl
      | @longList b _ _ _ hF7 hlong =>
          have hb := b.toNat_lt
          obtain ⟨hl, -, he⟩ := decodeLong_canonical
            (by simpa using hF7) (by simp; omega) hlong
          refine .inr ⟨he, fun hfalse => ?_⟩
          rw [hl] at hfalse
          cases hfalse

/-- A list header is the encoding of what it was read as. -/
theorem Header.decode_list {buf tail : Bytes} {n : Nat}
    (hd : decode buf = .ok (⟨true, n⟩, tail)) :
    n ≤ tail.length ∧ buf = (⟨true, n⟩ : Header).encode ++ tail := by
  obtain ⟨hlen, ⟨he, -, -⟩ | ⟨he, -⟩⟩ := decode_inv hd
  · cases he
  · exact ⟨hlen, he⟩

/-- A string header and its payload are the encoding of the payload. -/
theorem Header.decode_string {buf tail : Bytes} {n : Nat}
    (hd : decode buf = .ok (⟨false, n⟩, tail)) :
    buf = encodeString (tail.take n) ++ tail.drop n := by
  obtain ⟨hlen, ⟨he, hbuf, hsmall⟩ | ⟨he, hone⟩⟩ := decode_inv hd
  · injection he with _ he
    simp only at hlen
    subst hbuf he
    cases buf with
    | nil => simp at hlen
    | cons b buf =>
        simp only [List.headD_cons] at hsmall
        have : ¬ (0x80 ≤ b.toNat) := by omega
        simp [encodeString, this]
  · simp only at hlen
    have htl : (tail.take n).length = n := by
      rw [List.length_take]
      omega
    have hcond : (tail.take n).length ≠ 1
        ∨ 0x80 ≤ ((tail.take n).headD 0).toNat := by
      rw [htl]
      by_cases h1 : n = 1
      · subst h1
        right
        cases tail with
        | nil => simp at hlen
        | cons c tail => simpa using hone rfl rfl
      · exact Or.inl h1
    rw [encodeString, if_pos hcond, htl, List.append_assoc,
      List.take_append_drop, he]

/-- The bytes of a string item, and what follows it. -/
def decodeString (buf : Bytes) : Except Error (Bytes × Bytes) :=
  match Header.decode buf with
  | .error e => .error e
  | .ok (h, tail) =>
      if h.list then .error .unexpectedList
      else .ok (tail.take h.payloadLength, tail.drop h.payloadLength)

theorem decodeString_canonical {buf s rest : Bytes}
    (hd : decodeString buf = .ok (s, rest)) :
    buf = encodeString s ++ rest := by
  unfold decodeString at hd
  split at hd
  · cases hd
  next h tail hh =>
    split at hd
    case isTrue => cases hd
    case isFalse hl =>
      injection hd with hd
      injection hd with hs hr
      subst hs hr
      obtain ⟨list, n⟩ := h
      have : list = false := by simpa using hl
      subst this
      exact Header.decode_string hh

theorem decodeString_complete {s rest : Bytes}
    (h64 : (encodeString s).length < 2 ^ 64) :
    decodeString (encodeString s ++ rest) = .ok (s, rest) := by
  have hs64 : s.length < 2 ^ 64 := by
    simp only [encodeString, List.length_append] at h64
    omega
  unfold decodeString
  by_cases hc : s.length ≠ 1 ∨ 0x80 ≤ (s.headD 0).toNat
  · have hd : Header.decode (encodeString s ++ rest)
        = .ok (⟨false, s.length⟩, s ++ rest) := by
      rw [encodeString, if_pos hc, List.append_assoc]
      apply Header.decode_encode
      · simp
      · exact hs64
      · intro _ h1
        rcases hc with hc | hc
        · exact absurd h1 hc
        · cases s with
          | nil => simp at h1
          | cons b s => simpa using hc
    rw [hd]
    simp
  · -- a small byte is its own item
    have h1 : s.length = 1 := by
      by_contra h
      exact hc (Or.inl h)
    obtain ⟨b, rfl⟩ := List.length_eq_one_iff.mp h1
    have hb : b.toNat < 0x80 := by
      by_contra h
      exact hc (Or.inr (by simpa using h))
    have he : encodeString [b] = [b] := by
      rw [encodeString, if_neg hc, List.nil_append]
    rw [he]
    simp [Header.decode, Header.decodePrefix, hb]

-- ============================================================ codecs

/-- A reader and a writer of one type that agree: see the module
comment for the two laws. `encode_ne_nil` makes every read consume
something, which is what lets a vector be read item by item. -/
structure Codec (α : Type) where
  encode : α → Bytes
  decode : Bytes → Except Error (α × Bytes)
  canonical : ∀ {buf : Bytes} {a : α} {rest : Bytes},
    decode buf = .ok (a, rest) → buf = encode a ++ rest
  complete : ∀ {a : α} {rest : Bytes}, (encode a).length < 2 ^ 64 →
    decode (encode a ++ rest) = .ok (a, rest)
  encode_ne_nil : ∀ a : α, encode a ≠ []

variable {α β : Type}

/-- A read leaves less than it was given. -/
theorem Codec.length_rest_lt (c : Codec α) {buf : Bytes} {a : α}
    {rest : Bytes} (h : c.decode buf = .ok (a, rest)) :
    rest.length < buf.length := by
  have hpos := List.length_pos_iff.mpr (c.encode_ne_nil a)
  rw [c.canonical h, List.length_append]
  omega

/-- Encodings are prefix-free: what follows does not matter. -/
theorem Codec.encode_append_inj (c : Codec α) {a b : α} {r s : Bytes}
    (ha : (c.encode a).length < 2 ^ 64) (hb : (c.encode b).length < 2 ^ 64)
    (h : c.encode a ++ r = c.encode b ++ s) : a = b ∧ r = s := by
  have h1 : c.decode (c.encode a ++ r) = .ok (a, r) := c.complete ha
  rw [h, c.complete hb] at h1
  injection h1 with h1
  injection h1 with h1 h2
  exact ⟨h1.symm, h2.symm⟩

/-- Two values with one encoding are equal. -/
theorem Codec.encode_inj (c : Codec α) {a b : α}
    (ha : (c.encode a).length < 2 ^ 64) (hb : (c.encode b).length < 2 ^ 64)
    (h : c.encode a = c.encode b) : a = b :=
  (c.encode_append_inj (r := []) (s := []) ha hb (by rw [h])).1

/-- A byte string. -/
def Codec.string : Codec Bytes where
  encode := encodeString
  decode := decodeString
  canonical := decodeString_canonical
  complete := decodeString_complete
  encode_ne_nil := encodeString_ne_nil

/-- Read with `c`, then accept only what `parse` accepts. -/
def Codec.refine (c : Codec α) (toRaw : β → α) (parse : α → Except Error β)
    (sound : ∀ {a : α} {b : β}, parse a = .ok b → toRaw b = a)
    (total : ∀ b : β, parse (toRaw b) = .ok b) : Codec β where
  encode b := c.encode (toRaw b)
  decode buf :=
    match c.decode buf with
    | .error e => .error e
    | .ok (a, rest) =>
        match parse a with
        | .error e => .error e
        | .ok b => .ok (b, rest)
  canonical := by
    intro buf b rest h
    split at h
    · cases h
    next a rest' ha =>
      split at h
      · cases h
      next b' hb =>
        injection h with h
        injection h with h1 h2
        subst h1 h2
        rw [sound hb]
        exact c.canonical ha
  complete := by
    intro b rest h64
    rw [c.complete h64]
    simp only [total]
  encode_ne_nil b := c.encode_ne_nil (toRaw b)

/-- The same codec along an equivalence of types. -/
def Codec.map (c : Codec α) (e : α ≃ β) : Codec β :=
  c.refine e.symm (fun a => .ok (e a))
    (by intro a b h; injection h with h; rw [← h, e.symm_apply_apply])
    (by intro b; rw [e.apply_symm_apply])

/-- Two items one after the other, without a header. -/
def Codec.seq (c : Codec α) (d : Codec β) : Codec (α × β) where
  encode p := c.encode p.1 ++ d.encode p.2
  decode buf :=
    match c.decode buf with
    | .error e => .error e
    | .ok (a, buf') =>
        match d.decode buf' with
        | .error e => .error e
        | .ok (b, rest) => .ok ((a, b), rest)
  canonical := by
    intro buf p rest h
    split at h
    · cases h
    next a buf' ha =>
      split at h
      · cases h
      next b rest' hb =>
        injection h with h
        injection h with h1 h2
        subst h1 h2
        rw [List.append_assoc, ← d.canonical hb]
        exact c.canonical ha
  complete := by
    intro p rest h64
    rw [List.length_append] at h64
    rw [List.append_assoc, c.complete (by omega)]
    simp only
    rw [d.complete (by omega)]
  encode_ne_nil p h :=
    c.encode_ne_nil p.1 (List.append_eq_nil_iff.mp h).1

/-- A list item around `payload`. -/
def encodeList (payload : Bytes) : Bytes :=
  Header.encode ⟨true, payload.length⟩ ++ payload

theorem encodeList_ne_nil (payload : Bytes) : encodeList payload ≠ [] := by
  simp [encodeList, Header.encode_ne_nil]

/-- The header of a list item reads back in front of its payload. -/
theorem Header.decode_encodeList {payload rest : Bytes}
    (h64 : (encodeList payload).length < 2 ^ 64) :
    decode (encodeList payload ++ rest)
      = .ok (⟨true, payload.length⟩, payload ++ rest) := by
  rw [encodeList, List.append_assoc]
  apply decode_encode
  · simp
  · simp only [encodeList, List.length_append] at h64
    exact lt_of_le_of_lt (Nat.le_add_left _ _) h64
  · intro hf
    cases hf

/-- A record: its fields `c` inside one list. The fields are read from
the whole remaining input; afterwards the declared length must be what
they consumed. -/
def Codec.record (c : Codec α) : Codec α where
  encode a := encodeList (c.encode a)
  decode buf :=
    match Header.decode buf with
    | .error e => .error e
    | .ok (h, body) =>
        if h.list then
          match c.decode body with
          | .error e => .error e
          | .ok (a, rest) =>
              if body.length - rest.length = h.payloadLength then
                .ok (a, rest)
              else
                .error (.listLengthMismatch h.payloadLength
                  (body.length - rest.length))
        else .error .unexpectedString
  canonical := by
    intro buf a rest h
    split at h
    · cases h
    next hd body hhd =>
      split at h
      case isFalse => cases h
      case isTrue hl =>
        split at h
        · cases h
        next a' rest' ha =>
          split at h
          case isFalse => cases h
          case isTrue hlen =>
            injection h with h
            injection h with h1 h2
            subst h1 h2
            obtain ⟨list, n⟩ := hd
            simp only at hl hlen
            subst hl
            have hbody := c.canonical ha
            have hn : n = (c.encode a').length := by
              rw [← hlen, hbody, List.length_append, Nat.add_sub_cancel]
            rw [encodeList, List.append_assoc, ← hbody, ← hn]
            exact (Header.decode_list hhd).2
  complete := by
    intro a rest h64
    have h64' : (c.encode a).length < 2 ^ 64 := by
      simp only [encodeList, List.length_append] at h64
      omega
    rw [Header.decode_encodeList h64]
    simp only [if_true]
    rw [c.complete h64']
    simp only [List.length_append, Nat.add_sub_cancel, if_true]
  encode_ne_nil a := encodeList_ne_nil (c.encode a)

/-- Items up to the end of a window, one after the other. -/
def Codec.decodeItems (c : Codec α) (buf : Bytes) :
    Except Error (List α) :=
  if buf = [] then .ok []
  else
    match _h : c.decode buf with
    | .error e => .error e
    | .ok (a, rest) =>
        match c.decodeItems rest with
        | .error e => .error e
        | .ok as => .ok (a :: as)
termination_by buf.length
decreasing_by exact c.length_rest_lt _h

/-- The items of a window are exactly its bytes. -/
theorem Codec.decodeItems_canonical (c : Codec α) {buf : Bytes}
    {as : List α} (h : c.decodeItems buf = .ok as) :
    buf = as.flatMap c.encode := by
  induction hn : buf.length using Nat.strongRecOn generalizing buf as with
  | ind n ih =>
      rw [decodeItems] at h
      split at h
      case isTrue hnil =>
        injection h with h
        rw [hnil, ← h]
        rfl
      case isFalse hnil =>
        split at h
        · cases h
        next a rest ha =>
          split at h
          · cases h
          next as' has =>
            injection h with h
            subst h
            have hlt := c.length_rest_lt ha
            have hrest := ih rest.length (by omega) has rfl
            rw [List.flatMap_cons, ← hrest]
            exact c.canonical ha

/-- The concatenated encodings of some items read back as the items. -/
theorem Codec.decodeItems_complete (c : Codec α) {as : List α}
    (h64 : (as.flatMap c.encode).length < 2 ^ 64) :
    c.decodeItems (as.flatMap c.encode) = .ok as := by
  induction as with
  | nil =>
      rw [decodeItems]
      simp
  | cons a as ih =>
      rw [List.flatMap_cons, List.length_append] at h64
      rw [List.flatMap_cons, decodeItems]
      rw [if_neg (by simp [c.encode_ne_nil a])]
      have hrest := ih (by omega)
      split
      next e he =>
        rw [c.complete (by omega)] at he
        cases he
      next a' rest he =>
        rw [c.complete (by omega)] at he
        injection he with he
        injection he with h1 h2
        subst h1 h2
        rw [hrest]

/-- A vector: a list item holding one item per element. -/
def Codec.vec (c : Codec α) : Codec (List α) where
  encode as := encodeList (as.flatMap c.encode)
  decode buf :=
    match Header.decode buf with
    | .error e => .error e
    | .ok (h, body) =>
        if h.list then
          match c.decodeItems (body.take h.payloadLength) with
          | .error e => .error e
          | .ok as => .ok (as, body.drop h.payloadLength)
        else .error .unexpectedString
  canonical := by
    intro buf as rest h
    split at h
    · cases h
    next hd body hhd =>
      split at h
      case isFalse => cases h
      case isTrue hl =>
        split at h
        · cases h
        next as' has =>
          injection h with h
          injection h with h1 h2
          subst h1 h2
          obtain ⟨list, n⟩ := hd
          simp only at hl has ⊢
          subst hl
          obtain ⟨hn, hbuf⟩ := Header.decode_list hhd
          have hitems := c.decodeItems_canonical has
          have hlen : (as'.flatMap c.encode).length = n := by
            rw [← hitems, List.length_take]
            omega
          rw [encodeList, hlen, List.append_assoc, ← hitems,
            List.take_append_drop]
          exact hbuf
  complete := by
    intro as rest h64
    have h64' : (as.flatMap c.encode).length < 2 ^ 64 := by
      simp only [encodeList, List.length_append] at h64
      omega
    rw [Header.decode_encodeList h64]
    simp only [if_true, List.take_left, List.drop_left]
    rw [c.decodeItems_complete h64']
  encode_ne_nil as := encodeList_ne_nil _

-- =============================================================== sizes

/-- The encoding fits a machine word. -/
def Codec.Sized (c : Codec α) (a : α) : Prop :=
  (c.encode a).length < 2 ^ 64

/-- What is inside a sized encoding is sized: the fields of a record, -/
theorem Codec.Sized.record {c : Codec α} {a : α} (h : c.record.Sized a) :
    c.Sized a := by
  have h : (encodeList (c.encode a)).length < 2 ^ 64 := h
  rw [encodeList, List.length_append] at h
  exact lt_of_le_of_lt (Nat.le_add_left _ _) h

theorem Codec.Sized.map {c : Codec α} {e : α ≃ β} {b : β}
    (h : (c.map e).Sized b) : c.Sized (e.symm b) :=
  h

/-- both items of a pair, -/
theorem Codec.Sized.seq {c : Codec α} {d : Codec β} {p : α × β}
    (h : (c.seq d).Sized p) : c.Sized p.1 ∧ d.Sized p.2 := by
  have h : (c.encode p.1 ++ d.encode p.2).length < 2 ^ 64 := h
  rw [List.length_append] at h
  exact ⟨lt_of_le_of_lt (Nat.le_add_right _ _) h,
    lt_of_le_of_lt (Nat.le_add_left _ _) h⟩

/-- and a byte string. -/
theorem Codec.Sized.string {s : Bytes} (h : Codec.string.Sized s) :
    s.length < 2 ^ 64 := by
  have h : (encodeString s).length < 2 ^ 64 := h
  rw [encodeString, List.length_append] at h
  exact lt_of_le_of_lt (Nat.le_add_left _ _) h

/-- Each element of a vector takes at least a byte, -/
theorem Codec.length_le_flatMap (c : Codec α) (as : List α) :
    as.length ≤ (as.flatMap c.encode).length := by
  induction as with
  | nil => simp
  | cons a as ih =>
      have hpos := List.length_pos_iff.mpr (c.encode_ne_nil a)
      rw [List.flatMap_cons, List.length_append, List.length_cons]
      omega

/-- and not more than all of them. -/
theorem Codec.length_encode_le (c : Codec α) {a : α} {as : List α}
    (h : a ∈ as) : (c.encode a).length ≤ (as.flatMap c.encode).length := by
  induction h with
  | head as =>
      rw [List.flatMap_cons, List.length_append]
      exact Nat.le_add_right _ _
  | tail b _ ih =>
      rw [List.flatMap_cons, List.length_append]
      exact le_trans ih (Nat.le_add_left _ _)

/-- So a sized vector has as few elements, each of them sized. -/
theorem Codec.Sized.vec {c : Codec α} {as : List α} (h : c.vec.Sized as) :
    as.length < 2 ^ 64 ∧ ∀ a ∈ as, c.Sized a := by
  have h : (encodeList (as.flatMap c.encode)).length < 2 ^ 64 := h
  rw [encodeList, List.length_append] at h
  have hpayload : (as.flatMap c.encode).length < 2 ^ 64 :=
    lt_of_le_of_lt (Nat.le_add_left _ _) h
  exact ⟨lt_of_le_of_lt (c.length_le_flatMap as) hpayload,
    fun a ha => lt_of_le_of_lt (c.length_encode_le ha) hpayload⟩

-- ========================================================= item spans

/-- How many bytes the first item of `buf` spans, header included, as
its header declares. -/
def itemLength (buf : Bytes) : Option Nat :=
  match Header.decode buf with
  | .error _ => none
  | .ok (h, tail) => some (buf.length - tail.length + h.payloadLength)

/-- A record consumes exactly the item its header declares. -/
theorem Codec.itemLength_record (c : Codec α) {buf : Bytes} {a : α}
    {rest : Bytes} (h : c.record.decode buf = .ok (a, rest)) :
    itemLength buf = some (buf.length - rest.length) := by
  have hbuf := c.record.canonical h
  simp only [record] at h
  split at h
  · cases h
  next hd body hhd =>
    split at h
    case isFalse => cases h
    case isTrue hl =>
      split at h
      · cases h
      next a' rest' ha =>
        split at h
        case isFalse => cases h
        case isTrue hlen =>
          injection h with h
          injection h with h1 h2
          subst h1 h2
          have hle : body.length ≤ buf.length := by
            obtain ⟨list, n⟩ := hd
            simp only at hl
            subst hl
            rw [(Header.decode_list hhd).2, List.length_append]
            omega
          have hrest := c.length_rest_lt ha
          simp only [itemLength, hhd, ← hlen]
          congr 1
          omega

-- ================================================== integers, arrays

/-- Left-pad a minimal big-endian integer into `k` bytes: too many
bytes and leading zeros are rejected, in that order. -/
def staticLeftPad (k : Nat) (s : Bytes) : Except Error (BitVec (8 * k)) :=
  if k < s.length then .error .overflow
  else if s.head? = some 0 then .error .leadingZero
  else .ok (BitVec.ofNat (8 * k) (beNat s))

/-- The same with the two checks the other way round, as the wide
integers have them. -/
def tryFromBeSlice (k : Nat) (s : Bytes) : Except Error (BitVec (8 * k)) :=
  if s.head? = some 0 then .error .leadingZero
  else if k < s.length then .error .overflow
  else .ok (BitVec.ofNat (8 * k) (beNat s))

theorem two_pow_eight_mul (k : Nat) : 2 ^ (8 * k) = 256 ^ k := by
  rw [pow_mul]
  norm_num

/-- An accepted integer's trimmed bytes are the bytes it was read
from. -/
theorem beTrim_ofNat_beNat {k : Nat} {s : Bytes} (hlen : ¬ k < s.length)
    (h0 : ¬ s.head? = some 0) :
    beTrim k (BitVec.ofNat (8 * k) (beNat s)).toNat = s := by
  have hlt : beNat s < 2 ^ (8 * k) := by
    rw [two_pow_eight_mul]
    exact lt_of_lt_of_le (beNat_lt s)
      (Nat.pow_le_pow_right (by norm_num) (by omega))
  rw [BitVec.toNat_ofNat, Nat.mod_eq_of_lt hlt]
  exact beTrim_beNat (by omega) h0

theorem ofNat_beNat_beTrim {k : Nat} (v : BitVec (8 * k)) :
    BitVec.ofNat (8 * k) (beNat (beTrim k v.toNat)) = v := by
  have hv : v.toNat < 256 ^ k := by
    rw [← two_pow_eight_mul]
    exact v.isLt
  rw [beNat_beTrim hv]
  simp

/-- A machine integer of `k` bytes: its trimmed bytes as a string. -/
def Codec.uint (k : Nat) : Codec (BitVec (8 * k)) :=
  Codec.string.refine (fun v => beTrim k v.toNat) (staticLeftPad k)
    (by
      intro s v h
      unfold staticLeftPad at h
      split at h
      case isTrue => cases h
      case isFalse hlen =>
        split at h
        case isTrue => cases h
        case isFalse h0 =>
          injection h with h
          subst h
          exact beTrim_ofNat_beNat hlen h0)
    (by
      intro v
      have hle := length_beTrim_le k v.toNat
      rw [staticLeftPad, if_neg (by omega),
        if_neg (head?_beTrim_ne_zero k v.toNat), ofNat_beNat_beTrim])

/-- A wide integer of `k` bytes. -/
def Codec.wideUint (k : Nat) : Codec (BitVec (8 * k)) :=
  Codec.string.refine (fun v => beTrim k v.toNat) (tryFromBeSlice k)
    (by
      intro s v h
      unfold tryFromBeSlice at h
      split at h
      case isTrue => cases h
      case isFalse h0 =>
        split at h
        case isTrue => cases h
        case isFalse hlen =>
          injection h with h
          subst h
          exact beTrim_ofNat_beNat hlen h0)
    (by
      intro v
      have hle := length_beTrim_le k v.toNat
      rw [tryFromBeSlice, if_neg (head?_beTrim_ne_zero k v.toNat),
        if_neg (by omega), ofNat_beNat_beTrim])

/-- A byte array of fixed length `k`. -/
def Codec.byteArray (k : Nat) : Codec { s : Bytes // s.length = k } :=
  Codec.string.refine Subtype.val
    (fun s => if h : s.length = k then .ok ⟨s, h⟩
      else .error .unexpectedLength)
    (by
      intro s v h
      split at h
      case isTrue =>
        injection h with h
        rw [← h]
      case isFalse => cases h)
    (by
      intro v
      rw [dif_pos v.property])

end Rlp
