/-
Byte strings and their big-endian reading: the fixed-width encoding
`beBytes`, the value `beNat`, the trimmed encoding `beTrim` (leading
zeros removed), and the two ways of addressing a buffer that can fail
— reading a window (`slice`) and overwriting one (`writeAt`).

A failing address is `none`: the caller decides what an out-of-range
access means (here: a panic of the modelled program).

Everything is over `List UInt8`, so values of any length are covered
and lengths are plain natural numbers.
-/
import Mathlib.Data.List.Induction
import Mathlib.Data.List.TakeDrop
import Mathlib.Tactic.Ring
import Mathlib.Tactic.NormNum

/-- A byte string. -/
abbrev Bytes := List UInt8

namespace Bytes

-- ================================================= big-endian values

/-- The natural number a byte string denotes, most significant byte
first. -/
def beNat (bs : Bytes) : Nat :=
  bs.foldl (fun acc b => acc * 256 + b.toNat) 0

/-- The `k`-byte big-endian encoding of `n`, high bytes cut off. -/
def beBytes : Nat → Nat → Bytes
  | 0, _ => []
  | k + 1, n => beBytes k (n / 256) ++ [UInt8.ofNat (n % 256)]

/-- The `k`-byte big-endian encoding with its leading zeros removed. -/
def beTrim (k n : Nat) : Bytes :=
  (beBytes k n).dropWhile (· == 0)

@[simp] theorem beNat_nil : beNat [] = 0 := rfl

@[simp] theorem beNat_concat (bs : Bytes) (b : UInt8) :
    beNat (bs ++ [b]) = beNat bs * 256 + b.toNat := by
  simp [beNat, List.foldl_append]

theorem beNat_singleton (b : UInt8) : beNat [b] = b.toNat := by
  simp [beNat]

@[simp] theorem length_beBytes (k n : Nat) : (beBytes k n).length = k := by
  induction k generalizing n with
  | zero => rfl
  | succ k ih => simp [beBytes, ih]

/-- A byte string denotes less than `256` to the number of its bytes. -/
theorem beNat_lt (bs : Bytes) : beNat bs < 256 ^ bs.length := by
  induction bs using List.reverseRecOn with
  | nil => simp
  | append_singleton bs b ih =>
      have hb := b.toNat_lt
      rw [beNat_concat, List.length_append, List.length_singleton, pow_succ]
      omega

/-- Reading back a fixed-width encoding gives the number modulo the
width. -/
theorem beNat_beBytes_mod (k n : Nat) :
    beNat (beBytes k n) = n % 256 ^ k := by
  induction k generalizing n with
  | zero => simp [beBytes, Nat.mod_one]
  | succ k ih =>
      have hb : (UInt8.ofNat (n % 256)).toNat = n % 256 := by simp
      rw [beBytes, beNat_concat, ih, hb, pow_succ, Nat.mul_comm (256 ^ k),
        Nat.mod_mul]
      omega

/-- A number that fits its width survives the round trip. -/
theorem beNat_beBytes {k n : Nat} (h : n < 256 ^ k) :
    beNat (beBytes k n) = n := by
  rw [beNat_beBytes_mod, Nat.mod_eq_of_lt h]

/-- Re-encoding a byte string at its own width gives it back. -/
@[simp] theorem beBytes_beNat (bs : Bytes) :
    beBytes bs.length (beNat bs) = bs := by
  induction bs using List.reverseRecOn with
  | nil => rfl
  | append_singleton bs b ih =>
      have hb := b.toNat_lt
      rw [List.length_append, List.length_singleton, beNat_concat, beBytes]
      have hdiv : (beNat bs * 256 + b.toNat) / 256 = beNat bs := by omega
      have hmod : (beNat bs * 256 + b.toNat) % 256 = b.toNat := by omega
      rw [hdiv, hmod, ih, UInt8.ofNat_toNat]

/-- The first byte of an encoding, and the rest of it. -/
theorem beBytes_succ (k n : Nat) :
    beBytes (k + 1) n = UInt8.ofNat (n / 256 ^ k) :: beBytes k n := by
  induction k generalizing n with
  | zero => simp [beBytes, UInt8.ofNat_eq_iff_mod_eq_toNat]
  | succ k ih =>
      rw [beBytes, ih, Nat.div_div_eq_div_mul, ← pow_succ', List.cons_append]
      rfl

/-- Two byte strings of one length with one value are equal. -/
theorem beNat_inj {as bs : Bytes} (hlen : as.length = bs.length)
    (h : beNat as = beNat bs) : as = bs := by
  rw [← beBytes_beNat as, ← beBytes_beNat bs, h, hlen]

theorem beNat_append (as bs : Bytes) :
    beNat (as ++ bs) = beNat as * 256 ^ bs.length + beNat bs := by
  induction bs using List.reverseRecOn with
  | nil => simp
  | append_singleton bs b ih =>
      rw [← List.append_assoc, beNat_concat, beNat_concat, ih,
        List.length_append, List.length_singleton, pow_succ]
      ring

@[simp] theorem beNat_replicate_zero (k : Nat) :
    beNat (List.replicate k 0) = 0 := by
  induction k with
  | zero => rfl
  | succ k ih => rw [List.replicate_succ', beNat_concat, ih]; rfl

-- ============================================== the trimmed encoding

/-- Leading zeros do not change the value. -/
theorem beNat_dropWhile_zero (bs : Bytes) :
    beNat (bs.dropWhile (· == 0)) = beNat bs := by
  induction bs with
  | nil => rfl
  | cons b bs ih =>
      by_cases hb : b = 0
      · subst hb
        have h0 : beNat (0 :: bs) = beNat bs := by
          simpa [beNat_singleton] using beNat_append [0] bs
        rw [h0, ← ih]
        rfl
      · rw [List.dropWhile_cons_of_neg (by simpa using hb)]

theorem beNat_beTrim {k n : Nat} (h : n < 256 ^ k) :
    beNat (beTrim k n) = n := by
  rw [beTrim, beNat_dropWhile_zero, beNat_beBytes h]

theorem length_beTrim_le (k n : Nat) : (beTrim k n).length ≤ k := by
  calc (beTrim k n).length
      ≤ (beBytes k n).length := (List.dropWhile_sublist _).length_le
    _ = k := length_beBytes k n

/-- A trimmed encoding does not start with a zero byte. -/
theorem head?_beTrim_ne_zero (k n : Nat) : (beTrim k n).head? ≠ some 0 := by
  intro h
  have hd := List.head?_dropWhile_not (· == (0 : UInt8)) (beBytes k n)
  rw [← beTrim, h] at hd
  simp at hd

/-- Padding a byte string with leading zeros gives the wider encoding
of its value. -/
theorem beBytes_eq_replicate_append {k : Nat} {bs : Bytes}
    (h : bs.length ≤ k) :
    beBytes k (beNat bs) = List.replicate (k - bs.length) 0 ++ bs := by
  apply beNat_inj
  · simp
    omega
  · rw [beNat_append, beNat_replicate_zero, Nat.zero_mul, Nat.zero_add]
    apply beNat_beBytes
    exact lt_of_lt_of_le (beNat_lt bs) (Nat.pow_le_pow_right (by norm_num) h)

/-- A byte string without a leading zero is the trimmed encoding of
its value, at every width it fits. -/
theorem beTrim_beNat {k : Nat} {bs : Bytes} (h : bs.length ≤ k)
    (h0 : bs.head? ≠ some 0) : beTrim k (beNat bs) = bs := by
  rw [beTrim, beBytes_eq_replicate_append h]
  have hskip : ∀ m, (List.replicate m (0 : UInt8) ++ bs).dropWhile (· == 0)
      = bs.dropWhile (· == 0) := by
    intro m
    induction m with
    | zero => rfl
    | succ m ih => rw [List.replicate_succ, List.cons_append, ← ih]; rfl
  rw [hskip]
  exact List.dropWhile_beq_eq_self_of_head?_ne h0

/-- A nonzero number keeps at least one byte. -/
theorem beTrim_ne_nil {k n : Nat} (h : n < 256 ^ k) (hn : n ≠ 0) :
    beTrim k n ≠ [] := by
  intro he
  have := beNat_beTrim h
  rw [he, beNat_nil] at this
  exact hn this.symm

-- ============================================== windows of a buffer

/-- `bs[i..j]`, or `none` when the range is not inside the buffer. -/
def slice (bs : Bytes) (i j : Nat) : Option Bytes :=
  if i ≤ j ∧ j ≤ bs.length then some ((bs.drop i).take (j - i)) else none

/-- `bs[off..off + v.len()].copy_from_slice(v)`, or `none` when the
window is not inside the buffer. -/
def writeAt (bs : Bytes) (off : Nat) (v : Bytes) : Option Bytes :=
  if off + v.length ≤ bs.length then
    some (bs.take off ++ v ++ bs.drop (off + v.length))
  else none

theorem slice_eq_some {bs : Bytes} {i j : Nat} (hij : i ≤ j)
    (hj : j ≤ bs.length) : slice bs i j = some ((bs.drop i).take (j - i)) :=
  if_pos ⟨hij, hj⟩

theorem writeAt_eq_some {bs v : Bytes} {off : Nat}
    (h : off + v.length ≤ bs.length) :
    writeAt bs off v = some (bs.take off ++ v ++ bs.drop (off + v.length)) :=
  if_pos h

/-- A write keeps the length of the buffer. -/
theorem length_writeAt {bs v bs' : Bytes} {off : Nat}
    (h : writeAt bs off v = some bs') : bs'.length = bs.length := by
  simp only [writeAt] at h
  split at h
  case isTrue hle =>
    injection h with h
    subst h
    simp only [List.length_append, List.length_take, List.length_drop]
    omega
  case isFalse => cases h

/-- A write over a part of the buffer replaces that part. -/
theorem writeAt_middle {before part after v : Bytes} {off : Nat}
    (hoff : off = before.length) (hv : v.length = part.length) :
    writeAt (before ++ part ++ after) off v = some (before ++ v ++ after) := by
  subst hoff
  have hdrop : (before ++ part ++ after).drop (before.length + v.length)
      = after := by
    apply List.drop_left'
    rw [List.length_append, hv]
  rw [writeAt_eq_some (by simp; omega), hdrop, List.append_assoc before part,
    List.take_left]

/-- The last of the bytes modified. -/
theorem modify_concat {bs : Bytes} {b : UInt8} {f : UInt8 → UInt8} {k : Nat}
    (h : bs.length = k) : (bs ++ [b]).modify k f = bs ++ [f b] := by
  subst h
  induction bs with
  | nil => rfl
  | cons c bs ih => simpa using ih

-- ============================================== equal-sized chunks

section Chunks

variable {α : Type*}

/-- The chunks of exactly `k` elements, in order; a shorter remainder
is left out. -/
def chunksExact (k : Nat) (l : List α) : List (List α) :=
  (List.range (l.length / k)).map fun i => (l.drop (i * k)).take k

theorem length_chunksExact (k : Nat) (l : List α) :
    (chunksExact k l).length = l.length / k := by
  simp [chunksExact]

/-- Nothing shorter than a chunk has one. -/
theorem chunksExact_of_lt {k : Nat} {l : List α} (h : l.length < k) :
    chunksExact k l = [] := by
  simp [chunksExact, Nat.div_eq_of_lt h]

/-- The first chunk, then the chunks of the rest. -/
theorem chunksExact_append {k : Nat} {c l : List α} (hk : 0 < k)
    (hc : c.length = k) :
    chunksExact k (c ++ l) = c :: chunksExact k l := by
  have hdiv : (c ++ l).length / k = l.length / k + 1 := by
    rw [List.length_append, hc, Nat.add_comm, Nat.add_div_right _ hk]
  simp only [chunksExact, hdiv, List.range_succ_eq_map, List.map_cons,
    List.map_map, Nat.zero_mul, List.drop_zero]
  congr 1
  · rw [← hc, List.take_left]
  · apply List.map_congr_left
    intro i _
    simp only [Function.comp_apply, Nat.succ_mul]
    rw [Nat.add_comm, ← List.drop_drop, ← hc, List.drop_left]

/-- Chunks laid end to end are cut back where they were joined. -/
theorem chunksExact_flatten {k : Nat} (hk : 0 < k) {cs : List (List α)}
    (h : ∀ c ∈ cs, c.length = k) : chunksExact k cs.flatten = cs := by
  induction cs with
  | nil => exact chunksExact_of_lt hk
  | cons c cs ih =>
      rw [List.flatten_cons, chunksExact_append hk (h c (by simp)),
        ih fun d hd => h d (by simp [hd])]

/-- Every chunk has the chunk size. -/
theorem length_of_mem_chunksExact {k : Nat} {l c : List α}
    (h : c ∈ chunksExact k l) : c.length = k := by
  simp only [chunksExact, List.mem_map, List.mem_range] at h
  obtain ⟨i, hi, rfl⟩ := h
  have hle : (i + 1) * k ≤ l.length :=
    le_trans (Nat.mul_le_mul_right k hi) (Nat.div_mul_le_self _ _)
  rw [Nat.succ_mul] at hle
  rw [List.length_take, List.length_drop]
  omega

/-- A whole number of chunks loses nothing. -/
theorem flatten_chunksExact {k : Nat} (hk : 0 < k) :
    ∀ {n : Nat} {l : List α}, l.length = n * k →
      (chunksExact k l).flatten = l
  | 0, l, h => by
      have hnil : l = [] := List.length_eq_zero_iff.mp (by omega)
      rw [hnil, chunksExact_of_lt hk, List.flatten_nil]
  | n + 1, l, h => by
      have hsucc : l.length = n * k + k := by rw [h, Nat.succ_mul]
      have htake : (l.take k).length = k := by
        rw [List.length_take]; omega
      have hdrop : (l.drop k).length = n * k := by
        rw [List.length_drop]; omega
      calc (chunksExact k l).flatten
          = (chunksExact k (l.take k ++ l.drop k)).flatten := by
            rw [List.take_append_drop]
        _ = l.take k ++ (chunksExact k (l.drop k)).flatten := by
            rw [chunksExact_append hk htake, List.flatten_cons]
        _ = l := by
            rw [flatten_chunksExact hk hdrop, List.take_append_drop]

end Chunks

end Bytes
