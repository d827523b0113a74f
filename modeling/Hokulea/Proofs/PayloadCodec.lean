/-
The payload decoder against the grammar it implements.

# The grammar

`encodeV0 k p` is the encoding of `p` in `2 ^ k` field elements:
`headerV0 p.length`, then the payload zero-extended to the `31` bytes
each of the other elements holds, cut into groups and every group
behind a zero byte (`padFieldElements`).

# What is proved

One lemma per check says what the check accepts, and that it does not
panic on what the earlier checks let through:
`checkLenInvariant_ok_iff`, `decodeHeader_ok_iff`,
`removeZeroPadding_ok_iff`, `decodePayload_ok_iff`.
`decode_grammar` chains them into the language of the decoder.
-/
import Mathlib.Tactic.NormNum.Basic
import Mathlib.Tactic.Tauto
import Hokulea.Eigenda.EncodedPayload

namespace Hokulea

open Bytes

namespace EncodedPayload

-- ======================================================= the grammar

/-- The header of a payload of `len` bytes. -/
def headerV0 (len : Nat) : Bytes :=
  [0, 0] ++ beBytes 4 len ++ List.replicate 26 0

/-- Every 31-byte group behind a zero byte. -/
def padFieldElements (bs : Bytes) : Bytes :=
  (chunksExact 31 bs).flatMap (0 :: ·)

/-- Zeros appended up to `n` bytes. -/
def zeroExtend (n : Nat) (bs : Bytes) : Bytes :=
  bs ++ List.replicate (n - bs.length) 0

/-- The encoding of `p` in `2 ^ k` field elements. -/
def encodeV0 (k : Nat) (p : Bytes) : Bytes :=
  headerV0 p.length ++ padFieldElements (zeroExtend (31 * (2 ^ k - 1)) p)

/-- `2 ^ k` field elements have room for `p`, and a header can name
its length. -/
def Admissible (k : Nat) (p : Bytes) : Prop :=
  p.length < 2 ^ 32 ∧ p.length ≤ 31 * (2 ^ k - 1)

@[simp] theorem length_headerV0 (len : Nat) : (headerV0 len).length = 32 := by
  simp [headerV0]

theorem length_zeroExtend {n : Nat} {bs : Bytes} (h : bs.length ≤ n) :
    (zeroExtend n bs).length = n := by
  simp only [zeroExtend, List.length_append, List.length_replicate]
  omega

/-- Padding is one byte per group. -/
theorem length_padFieldElements {n : Nat} {bs : Bytes}
    (h : bs.length = 31 * n) : (padFieldElements bs).length = 32 * n := by
  have hmem : ∀ c ∈ (chunksExact 31 bs).map (0 :: ·), c.length = 32 := by
    intro c hc
    obtain ⟨d, hd, rfl⟩ := List.mem_map.mp hc
    rw [List.length_cons, length_of_mem_chunksExact hd]
  rw [padFieldElements, List.flatMap_def, List.length_flatten,
    List.map_eq_replicate_iff.mpr hmem]
  simp only [List.sum_replicate_nat, List.length_map, length_chunksExact, h]
  simp [Nat.mul_comm]

/-- The encoding fills exactly its field elements. -/
theorem length_encodeV0 {k : Nat} {p : Bytes} (h : Admissible k p) :
    (encodeV0 k p).length = 32 * 2 ^ k := by
  have hbody := length_padFieldElements (length_zeroExtend h.2)
  have hpos : 0 < 2 ^ k := Nat.two_pow_pos k
  rw [encodeV0, List.length_append, length_headerV0, hbody]
  omega

-- ========================================================== the length

/-- The bit trick recognises the powers of two. -/
theorem isPowerOfTwo_iff (n : Nat) : isPowerOfTwo n = true ↔ ∃ k, n = 2 ^ k := by
  have h := Nat.ne_zero_and_sub_one_eq_zero_iff_isPowerOfTwo (n := n)
  simpa [isPowerOfTwo, Nat.isPowerOfTwo] using h

/-- The length check passes on a power-of-two number of elements. -/
theorem checkLenInvariant_ok_iff (b : EncodedPayload) :
    b.checkLenInvariant = .ok ()
      ↔ ∃ k, b.encodedPayload.length = 32 * 2 ^ k := by
  simp only [checkLenInvariant, BYTES_PER_FIELD_ELEMENT,
    ENCODED_PAYLOAD_HEADER_LEN_BYTES]
  constructor
  · intro h
    split at h
    · cases h
    split at h
    · cases h
    next hmod =>
      split at h
      · cases h
      next hpow =>
        obtain ⟨k, hk⟩ := (isPowerOfTwo_iff _).mp (by simpa using hpow)
        exact ⟨k, by omega⟩
  · rintro ⟨k, hk⟩
    have hpos : 0 < 2 ^ k := Nat.two_pow_pos k
    have hdiv : b.encodedPayload.length / 32 = 2 ^ k := by omega
    have hpow : isPowerOfTwo (2 ^ k) = true := (isPowerOfTwo_iff _).mpr ⟨k, rfl⟩
    rw [hdiv, hpow, if_neg (by omega), if_neg (by omega)]
    rfl

-- ========================================================== the header

/-- The padding loop falls through on zeros only. -/
theorem firstNonzero_eq_none_iff (bs : Bytes) :
    firstNonzero bs = none ↔ bs = List.replicate bs.length 0 := by
  rw [firstNonzero, List.find?_eq_none, List.eq_replicate_iff]
  simp

/-- On a full first element the header check runs to its end: it
fails, or names the length the six leading bytes carry. -/
theorem decodeHeader_eq {b : EncodedPayload} {b0 b1 b2 b3 b4 b5 : UInt8}
    {rest : Bytes} (hb : b.encodedPayload = [b0, b1, b2, b3, b4, b5] ++ rest)
    (hlen : 26 ≤ rest.length) :
    ∃ r, b.decodeHeader = some r ∧ ∀ n, r = .ok n ↔
      b0 = 0 ∧ b1 = 0 ∧ n = beNat [b2, b3, b4, b5]
        ∧ rest.take 26 = List.replicate 26 0 := by
  have hslice : slice ([b0, b1, b2, b3, b4, b5] ++ rest) 6 32
      = some (rest.take 26) := by
    rw [slice_eq_some (by omega) (by simp; omega)]
    simp
  have hfind := firstNonzero_eq_none_iff (rest.take 26)
  rw [List.length_take, Nat.min_eq_left hlen] at hfind
  simp only [decodeHeader, hb, hslice, ENCODED_PAYLOAD_HEADER_LEN_BYTES,
    PAYLOAD_ENCODING_VERSION_0]
  rw [if_neg (by simp; omega)]
  by_cases h0 : b0 = 0
  case neg => exact ⟨_, by simp [h0]; rfl, by simp [h0]⟩
  by_cases h1 : b1 = 0
  case neg => exact ⟨_, by simp [h0, h1]; rfl, by simp [h1]⟩
  cases hf : firstNonzero (rest.take 26) with
  | some c =>
      refine ⟨.error _, by simp [h0, h1, hf]; rfl, fun n => ?_⟩
      rw [← hfind, hf]
      simp
  | none =>
      refine ⟨.ok _, by simp [h0, h1, hf]; rfl, fun n => ?_⟩
      rw [← hfind, hf]
      simp [h0, h1, eq_comm]

/-- The header check accepts exactly the header of the length it
names, and does not panic on a full first element. -/
theorem decodeHeader_ok_iff {b : EncodedPayload}
    (hlen : 32 ≤ b.encodedPayload.length) :
    ∃ r, b.decodeHeader = some r ∧ ∀ n, r = .ok n ↔
      n < 2 ^ 32 ∧ b.encodedPayload.take 32 = headerV0 n := by
  obtain ⟨bs⟩ := b
  obtain ⟨b0, b1, b2, b3, b4, b5, rest, rfl⟩ :
      ∃ b0 b1 b2 b3 b4 b5 rest, bs = [b0, b1, b2, b3, b4, b5] ++ rest := by
    match bs, hlen with
    | b0 :: b1 :: b2 :: b3 :: b4 :: b5 :: rest, _ =>
        exact ⟨b0, b1, b2, b3, b4, b5, rest, rfl⟩
  have hrest : 26 ≤ rest.length := by simpa using hlen
  obtain ⟨r, hr, hok⟩ := decodeHeader_eq (b := ⟨_⟩) rfl hrest
  refine ⟨r, hr, fun n => ?_⟩
  -- the four length bytes and the length determine each other
  have hnum : n = beNat [b2, b3, b4, b5]
      ↔ n < 2 ^ 32 ∧ [b2, b3, b4, b5] = beBytes 4 n := by
    constructor
    · rintro rfl
      have hlt := beNat_lt [b2, b3, b4, b5]
      exact ⟨lt_of_lt_of_eq hlt (by norm_num), (beBytes_beNat _).symm⟩
    · rintro ⟨hn, hbytes⟩
      rw [hbytes, beNat_beBytes (lt_of_lt_of_eq hn (by norm_num))]
  obtain ⟨c2, c3, c4, c5, hc⟩ : ∃ c2 c3 c4 c5, beBytes 4 n = [c2, c3, c4, c5] :=
    ⟨_, _, _, _, rfl⟩
  have htake : ([b0, b1, b2, b3, b4, b5] ++ rest).take 32
      = [b0, b1, b2, b3, b4, b5] ++ rest.take 26 := rfl
  rw [hok, hnum, headerV0, hc, htake]
  simp only [List.cons_append, List.nil_append, List.cons.injEq]
  tauto

-- ======================================================== the body

/-- The body loop accepts exactly chunks that start with a zero byte,
and returns what follows those bytes. On full chunks it does not
panic. -/
theorem removeZeroPadding_ok_iff (chunks : List Bytes)
    (hlen : ∀ c ∈ chunks, c.length = 32) (acc : Bytes) :
    ∃ r, removeZeroPadding chunks acc = some r ∧ ∀ d, r = .ok d ↔
      ∃ groups : List Bytes,
        chunks = groups.map (0 :: ·) ∧ d = acc ++ groups.flatten := by
  induction chunks generalizing acc with
  | nil =>
      refine ⟨.ok acc, rfl, fun d => ⟨?_, ?_⟩⟩
      · rintro ⟨⟩
        exact ⟨[], rfl, by simp⟩
      · rintro ⟨groups, hmap, rfl⟩
        rw [List.map_eq_nil_iff.mp hmap.symm, List.flatten_nil, List.append_nil]
  | cons chunk chunks ih =>
      have hchunk : chunk.length = 32 := hlen chunk (by simp)
      obtain ⟨b, group, rfl⟩ : ∃ b group, chunk = b :: group := by
        match chunk, hchunk with
        | b :: group, _ => exact ⟨b, group, rfl⟩
      have hslice : slice (b :: group) 1 32 = some group := by
        rw [slice_eq_some (by omega) (by omega)]
        have hg : group.length = 31 := by simpa using hchunk
        simp [← hg]
      by_cases hb : b = 0
      case neg =>
        refine ⟨.error _, by simp [removeZeroPadding, hb]; rfl, fun d => ?_⟩
        simp only [reduceCtorEq, false_iff]
        rintro ⟨groups, hmap, -⟩
        cases groups with
        | nil => cases hmap
        | cons g gs => exact hb (List.cons.inj (List.cons.inj hmap).1).1
      case pos =>
        subst hb
        obtain ⟨r, hr, hok⟩ :=
          ih (fun c hc => hlen c (by simp [hc])) (acc ++ group)
        refine ⟨r, by simp [removeZeroPadding, hslice, hr], fun d => ?_⟩
        rw [hok]
        constructor
        · rintro ⟨groups, rfl, rfl⟩
          exact ⟨group :: groups, rfl, by simp⟩
        · rintro ⟨groups, hmap, rfl⟩
          cases groups with
          | nil => cases hmap
          | cons g gs =>
              obtain ⟨hg, hgs⟩ := List.cons.inj hmap
              obtain ⟨-, rfl⟩ := List.cons.inj hg
              exact ⟨gs, hgs, by simp⟩

/-- The body check accepts exactly padded groups and undoes the
padding; on a whole number of elements it does not panic. -/
theorem checkAndRemoveZeroPadding_ok_iff (body : Bytes) {n : Nat}
    (hlen : body.length = 32 * n) :
    ∃ r, checkAndRemoveZeroPaddingForFieldElements body = some r
      ∧ ∀ d, r = .ok d ↔ d.length = 31 * n ∧ body = padFieldElements d := by
  have hbody : (chunksExact 32 body).flatten = body :=
    flatten_chunksExact (by omega) (n := n) (by omega)
  obtain ⟨r, hr, hok⟩ := removeZeroPadding_ok_iff (chunksExact 32 body)
    (fun c hc => length_of_mem_chunksExact hc) []
  refine ⟨r, ?_, fun d => ?_⟩
  · rw [checkAndRemoveZeroPaddingForFieldElements,
      if_neg (by rw [hlen]; simp), hr]
  rw [hok]
  constructor
  · rintro ⟨groups, hmap, rfl⟩
    -- every group is a chunk without its zero byte
    have hgroups : ∀ g ∈ groups, g.length = 31 := by
      intro g hg
      have hmem : (0 :: g) ∈ chunksExact 32 body :=
        hmap ▸ List.mem_map_of_mem hg
      have := length_of_mem_chunksExact hmem
      simpa using this
    have hcount : groups.length = n := by
      have := congrArg List.length hmap
      rw [length_chunksExact, List.length_map, hlen] at this
      omega
    refine ⟨?_, ?_⟩
    · rw [List.nil_append, List.length_flatten,
        List.map_eq_replicate_iff.mpr hgroups, List.sum_replicate_nat, hcount,
        Nat.mul_comm]
    · rw [List.nil_append, padFieldElements,
        chunksExact_flatten (by omega) hgroups, List.flatMap_def, ← hmap, hbody]
  · rintro ⟨hd, hpad⟩
    refine ⟨chunksExact 31 d, ?_, ?_⟩
    · have hmem : ∀ c ∈ (chunksExact 31 d).map (0 :: ·), c.length = 32 := by
        intro c hc
        obtain ⟨g, hg, rfl⟩ := List.mem_map.mp hc
        rw [List.length_cons, length_of_mem_chunksExact hg]
      rw [hpad, padFieldElements, List.flatMap_def,
        chunksExact_flatten (by omega) hmem]
    · rw [List.nil_append,
        flatten_chunksExact (by omega) (n := n) (by omega)]

/-- A zero extension is its original followed by zeros only. -/
theorem zeroExtend_eq_iff {m : Nat} {p d : Bytes} (hd : d.length = m) :
    zeroExtend m p = d ↔ p = d.take p.length
      ∧ d.drop p.length = List.replicate (d.drop p.length).length 0 := by
  rw [List.length_drop, hd]
  constructor
  · rintro rfl
    simp [zeroExtend]
  · rintro ⟨hp, hz⟩
    rw [zeroExtend, ← hz]
    nth_rewrite 1 [hp]
    rw [List.take_append_drop]

/-- The payload of a whole number of elements: the body is the padded
form of the payload and zeros. -/
theorem decodePayload_ok_iff {b : EncodedPayload} {n : Nat}
    (hlen : b.encodedPayload.length = 32 * (n + 1)) (len : Nat) :
    ∃ r, b.decodePayload len = some r ∧ ∀ p, r = .ok p ↔
      p.length = len ∧ len ≤ 31 * n ∧ b.encodedPayload.drop 32
        = padFieldElements (zeroExtend (31 * n) p) := by
  have hbody : slice b.encodedPayload 32 b.encodedPayload.length
      = some (b.encodedPayload.drop 32) := by
    rw [slice_eq_some (by omega) (by omega), List.take_of_length_le (by simp)]
  have hdrop : (b.encodedPayload.drop 32).length = 32 * n := by
    rw [List.length_drop]; omega
  obtain ⟨r, hr, hok⟩ := checkAndRemoveZeroPadding_ok_iff _ hdrop
  -- the body is read off the zero-extended payload
  have hpad : ∀ p : Bytes, p.length ≤ 31 * n →
      (b.encodedPayload.drop 32 = padFieldElements (zeroExtend (31 * n) p)
        ↔ r = .ok (zeroExtend (31 * n) p)) := by
    intro p hle
    rw [hok, length_zeroExtend hle]
    simp
  simp only [decodePayload, ENCODED_PAYLOAD_HEADER_LEN_BYTES, hbody,
    Option.bind_eq_bind, Option.bind_some, hr]
  cases r with
  | error e =>
      refine ⟨.error e, rfl, fun p => ?_⟩
      simp only [reduceCtorEq, false_iff]
      rintro ⟨rfl, hle, hp⟩
      cases (hpad p hle).mp hp
  | ok d =>
      have hd : d.length = 31 * n := ((hok d).mp rfl).1
      by_cases hshort : d.length < len
      case pos =>
        refine ⟨.error _, by simp only [hshort, if_true]; rfl, fun p => ?_⟩
        simp only [reduceCtorEq, false_iff]
        rintro ⟨rfl, hle, -⟩
        omega
      case neg =>
        have hle : len ≤ 31 * n := by omega
        have htail : slice d len d.length = some (d.drop len) := by
          rw [slice_eq_some (by omega) (by omega),
            List.take_of_length_le (by simp)]
        have hhead : slice d 0 len = some (d.take len) :=
          slice_eq_some (by omega) (by omega)
        have hzero := firstNonzero_eq_none_iff (d.drop len)
        simp only [hshort, if_false, htail, hhead, Option.bind_some]
        cases hf : firstNonzero (d.drop len) with
        | some c =>
            refine ⟨.error _, rfl, fun p => ?_⟩
            simp only [reduceCtorEq, false_iff]
            rintro ⟨rfl, -, hp⟩
            injection (hpad p hle).mp hp with hp
            have := hzero.mpr ((zeroExtend_eq_iff hd).mp hp.symm).2
            rw [hf] at this
            cases this
        | none =>
            refine ⟨.ok (d.take len), rfl, fun p => ⟨?_, ?_⟩⟩
            · rintro ⟨⟩
              have hlen' : (d.take len).length = len := by
                rw [List.length_take]; omega
              refine ⟨hlen', hle, (hpad _ (by omega)).mpr ?_⟩
              congr 1
              refine ((zeroExtend_eq_iff hd).mpr ?_).symm
              rw [hlen']
              exact ⟨rfl, hzero.mp hf⟩
            · rintro ⟨rfl, -, hp⟩
              injection (hpad p hle).mp hp with hp
              rw [← ((zeroExtend_eq_iff hd).mp hp.symm).1]

-- ====================================================== the language

/-- What `decode` does with any bytes: it returns, and it returns `p`
exactly on an encoding of `p` that has room for it. -/
theorem decode_ok_iff (b : EncodedPayload) :
    ∃ r, b.decode = some r ∧ ∀ p, r = .ok p ↔
      ∃ k, Admissible k p ∧ b.encodedPayload = encodeV0 k p := by
  cases hcheck : b.checkLenInvariant with
  | error e =>
      refine ⟨.error e, by simp [decode, hcheck], fun p => ?_⟩
      simp only [reduceCtorEq, false_iff]
      rintro ⟨k, hk, hb⟩
      have : b.checkLenInvariant = .ok () :=
        (checkLenInvariant_ok_iff b).mpr ⟨k, by rw [hb, length_encodeV0 hk]⟩
      rw [hcheck] at this
      cases this
  | ok u =>
      obtain ⟨k, hk⟩ := (checkLenInvariant_ok_iff b).mp hcheck
      have hpos : 0 < 2 ^ k := Nat.two_pow_pos k
      obtain ⟨r, hr, hheader⟩ := decodeHeader_ok_iff (b := b) (by omega)
      -- an encoding is a header and a body, and the sizes agree
      have hsplit : ∀ p : Bytes, (∃ k', Admissible k' p
            ∧ b.encodedPayload = encodeV0 k' p)
          ↔ r = .ok p.length ∧ p.length ≤ 31 * (2 ^ k - 1)
            ∧ b.encodedPayload.drop 32
              = padFieldElements (zeroExtend (31 * (2 ^ k - 1)) p) := by
        intro p
        rw [hheader]
        constructor
        · rintro ⟨k', hadm, hb⟩
          have hkk : 2 ^ k' = 2 ^ k := by
            have := length_encodeV0 hadm
            rw [← hb, hk] at this
            omega
          rw [hb, encodeV0, ← length_headerV0 p.length, List.take_left,
            List.drop_left, ← hkk]
          exact ⟨⟨hadm.1, rfl⟩, hadm.2, rfl⟩
        · rintro ⟨⟨hlt, htake⟩, hle, hdrop⟩
          refine ⟨k, ⟨hlt, hle⟩, ?_⟩
          rw [encodeV0, ← htake, ← hdrop, List.take_append_drop]
      simp only [decode, hcheck, hr, Option.bind_eq_bind, Option.bind_some]
      cases r with
      | error e =>
          refine ⟨.error e, rfl, fun p => ?_⟩
          rw [hsplit]
          simp
      | ok len =>
          obtain ⟨r', hr', hpayload⟩ :=
            decodePayload_ok_iff (b := b) (n := 2 ^ k - 1) (by omega) len
          refine ⟨r', hr', fun p => ?_⟩
          rw [hpayload, hsplit]
          constructor
          · rintro ⟨rfl, hle, hp⟩
            exact ⟨rfl, hle, hp⟩
          · rintro ⟨hl, hle, hp⟩
            injection hl with hl
            exact ⟨hl.symm, hl ▸ hle, hp⟩

/-- An encoding decodes to what it encodes. -/
theorem decode_encodeV0 {k : Nat} {p : Bytes} (h : Admissible k p) :
    decode ⟨encodeV0 k p⟩ = some (.ok p) := by
  obtain ⟨r, hr, hok⟩ := decode_ok_iff ⟨encodeV0 k p⟩
  rw [hr, (hok p).mpr ⟨k, h, rfl⟩]

/-- The language of the decoder. It never panics; it returns `p`
exactly on the encodings of `p`; so it undoes the encoding at every
admissible size, and at each size there is exactly one encoding of
each payload it accepts. -/
theorem decode_grammar :
    (∀ b : Bytes, decode ⟨b⟩ ≠ none)
    ∧ (∀ b p : Bytes, decode ⟨b⟩ = some (.ok p) ↔ p.length < 2 ^ 32
        ∧ ∃ k, p.length ≤ 31 * (2 ^ k - 1) ∧ b.length = 32 * 2 ^ k
          ∧ b = encodeV0 k p)
    ∧ (∀ k (p : Bytes), Admissible k p →
        decode ⟨encodeV0 k p⟩ = some (.ok p)
        ∧ ∀ b : Bytes, b.length = 32 * 2 ^ k →
            decode ⟨b⟩ = some (.ok p) → b = encodeV0 k p) := by
  have hiff : ∀ b p : Bytes, decode ⟨b⟩ = some (.ok p)
      ↔ ∃ k, Admissible k p ∧ b = encodeV0 k p := by
    intro b p
    obtain ⟨r, hr, hok⟩ := decode_ok_iff ⟨b⟩
    rw [hr, Option.some_inj, hok]
  refine ⟨fun b => ?_, fun b p => ?_, fun k p hadm => ⟨?_, fun b hlen hb => ?_⟩⟩
  · obtain ⟨r, hr, -⟩ := decode_ok_iff ⟨b⟩
    rw [hr]
    exact Option.some_ne_none r
  · rw [hiff]
    constructor
    · rintro ⟨k, hadm, rfl⟩
      exact ⟨hadm.1, k, hadm.2, length_encodeV0 hadm, rfl⟩
    · rintro ⟨hlt, k, hle, -, hb⟩
      exact ⟨k, ⟨hlt, hle⟩, hb⟩
  · exact decode_encodeV0 hadm
  · obtain ⟨k', hadm', rfl⟩ := (hiff b p).mp hb
    rw [length_encodeV0 hadm'] at hlen
    have hpow : 2 ^ k' = 2 ^ k := by omega
    rw [Nat.pow_right_injective (le_refl 2) hpow]

/-- A one-byte payload in two field elements comes back. -/
theorem decode_grammar_one_byte :
    decode ⟨encodeV0 1 [7]⟩ = some (.ok [7]) :=
  (decode_grammar.2.2 1 [7] ⟨by decide, by decide⟩).1

end EncodedPayload

end Hokulea
