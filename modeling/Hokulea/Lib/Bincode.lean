/-
The bincode format, as a library: integers little-endian in eight
bytes, byte strings and vectors after their length, fields in order.

An `Encoder` carries the law that its encodings are prefix-free. The
law holds of values that fit: a length or an integer of 2^64 and more
has no place in the eight bytes.
-/
import Hokulea.Lib.Bytes

namespace Bincode

open Bytes

variable {α β : Type}

/-- A writer, and the values on which what it writes can be told
apart, whatever follows. -/
structure Encoder (α : Type) where
  encode : α → Bytes
  fits : α → Bool
  prefixFree : ∀ {a b : α} {r s : Bytes}, fits a → fits b →
    encode a ++ r = encode b ++ s → a = b ∧ r = s

/-- On values that fit, encodings determine them. -/
theorem Encoder.encode_inj (c : Encoder α) {a b : α} (ha : c.fits a)
    (hb : c.fits b) (h : c.encode a = c.encode b) : a = b :=
  (c.prefixFree (r := []) (s := []) ha hb (by rw [h])).1

/-- Eight bytes, the least significant first. -/
def leBytes (n : Nat) : Bytes :=
  (beBytes 8 n).reverse

@[simp] theorem length_leBytes (n : Nat) : (leBytes n).length = 8 := by
  simp [leBytes]

theorem leBytes_inj {m n : Nat} (hm : m < 2 ^ 64) (hn : n < 2 ^ 64)
    (h : leBytes m = leBytes n) : m = n := by
  have hbe : beBytes 8 m = beBytes 8 n := List.reverse_inj.mp h
  calc m = beNat (beBytes 8 m) := (beNat_beBytes hm).symm
    _ = beNat (beBytes 8 n) := by rw [hbe]
    _ = n := beNat_beBytes hn

/-- `u64` -/
def Encoder.u64 : Encoder Nat where
  encode := leBytes
  fits n := n < 2 ^ 64
  prefixFree ha hb h := by
    obtain ⟨hle, hrest⟩ := List.append_inj h (by simp)
    exact ⟨leBytes_inj (of_decide_eq_true ha) (of_decide_eq_true hb) hle,
      hrest⟩

/-- `bool` -/
def Encoder.bool : Encoder Bool where
  encode b := [if b then 1 else 0]
  fits _ := true
  prefixFree {a b} r s _ _ h := by
    obtain ⟨hb, hrest⟩ := List.cons.inj h
    refine ⟨?_, hrest⟩
    cases a <;> cases b <;> first | rfl | exact absurd hb (by decide)

/-- A byte string, after its length. -/
def Encoder.bytes : Encoder Bytes where
  encode s := leBytes s.length ++ s
  fits s := s.length < 2 ^ 64
  prefixFree ha hb h := by
    rw [List.append_assoc, List.append_assoc] at h
    obtain ⟨hle, hrest⟩ := List.append_inj h (by simp)
    exact List.append_inj hrest
      (leBytes_inj (of_decide_eq_true ha) (of_decide_eq_true hb) hle)

/-- One field, then another. -/
def Encoder.seq (c : Encoder α) (d : Encoder β) : Encoder (α × β) where
  encode p := c.encode p.1 ++ d.encode p.2
  fits p := c.fits p.1 && d.fits p.2
  prefixFree {a b} r s ha hb h := by
    rw [List.append_assoc, List.append_assoc] at h
    obtain ⟨ha1, ha2⟩ := Bool.and_eq_true_iff.mp ha
    obtain ⟨hb1, hb2⟩ := Bool.and_eq_true_iff.mp hb
    obtain ⟨h1, h⟩ := c.prefixFree ha1 hb1 h
    obtain ⟨h2, h⟩ := d.prefixFree ha2 hb2 h
    exact ⟨Prod.ext h1 h2, h⟩

/-- A record, written as its fields. -/
def Encoder.comap (c : Encoder α) (f : β → α)
    (hf : ∀ {x y : β}, f x = f y → x = y) : Encoder β where
  encode x := c.encode (f x)
  fits x := c.fits (f x)
  prefixFree ha hb h := by
    obtain ⟨heq, hrest⟩ := c.prefixFree ha hb h
    exact ⟨hf heq, hrest⟩

/-- As many items as are announced are told apart one by one. -/
theorem Encoder.flatMap_prefixFree (c : Encoder α) {as bs : List α}
    {r s : Bytes} (hlen : as.length = bs.length)
    (ha : ∀ a ∈ as, c.fits a) (hb : ∀ b ∈ bs, c.fits b)
    (h : as.flatMap c.encode ++ r = bs.flatMap c.encode ++ s) :
    as = bs ∧ r = s := by
  induction as generalizing bs with
  | nil =>
      cases bs with
      | nil => exact ⟨rfl, h⟩
      | cons b bs => cases hlen
  | cons a as ih =>
      cases bs with
      | nil => cases hlen
      | cons b bs =>
          rw [List.flatMap_cons, List.flatMap_cons, List.append_assoc,
            List.append_assoc] at h
          obtain ⟨hab, h⟩ := c.prefixFree (ha a (by simp)) (hb b (by simp)) h
          obtain ⟨htail, hrest⟩ := ih (Nat.succ.inj hlen)
            (fun x hx => ha x (by simp [hx]))
            (fun x hx => hb x (by simp [hx])) h
          exact ⟨by rw [hab, htail], hrest⟩

/-- A vector, after its length. -/
def Encoder.vec (c : Encoder α) : Encoder (List α) where
  encode as := leBytes as.length ++ as.flatMap c.encode
  fits as := as.length < 2 ^ 64 && as.all c.fits
  prefixFree ha hb h := by
    rw [List.append_assoc, List.append_assoc] at h
    obtain ⟨halen, ha⟩ := Bool.and_eq_true_iff.mp ha
    obtain ⟨hblen, hb⟩ := Bool.and_eq_true_iff.mp hb
    obtain ⟨hle, hrest⟩ := List.append_inj h (by simp)
    have hlen := leBytes_inj (of_decide_eq_true halen)
      (of_decide_eq_true hblen) hle
    exact c.flatMap_prefixFree hlen (List.all_eq_true.mp ha)
      (List.all_eq_true.mp hb) hrest

end Bincode
