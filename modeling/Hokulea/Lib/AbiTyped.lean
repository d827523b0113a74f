/-
Solidity ABI encodings of typed values determine the values.

An encoding does not carry its type, and values of different types may
have one encoding. At a type it is read back without ambiguity, and more:
no encoding is a proper prefix of another (`encode_append_inj`), which is
what lets the components of a tuple follow each other.

# The argument

The heads of a sequence take up what the types say (`headSize_eq`), so
two encodings of one type part into heads and tails at the same place.
A static component is then compared in the heads, a dynamic one in the
tails; the offsets in the heads are not looked at. Only lengths have to
fit their word. Between types, the first offset is what there is to look
at (`abiEncode_ne`).
-/
import Hokulea.Lib.Abi

namespace Abi

open Bytes

/-- The ABI's types, as far as `Value` has them: a 32-byte word stands for
any elementary type of static size. -/
inductive Ty where
  | word
  | bytes
  | array (t : Ty)
  | tuple (ts : List Ty)

mutual

/-- The value is of the type, its lengths fit a word. -/
def Value.HasType : Value → Ty → Prop
  | .word _, .word => True
  | .bytes s, .bytes => s.length < 256 ^ 32
  | .array vs, .array t => vs.length < 256 ^ 32 ∧ AllHaveType vs t
  | .tuple vs, .tuple ts => HaveTypes vs ts
  | _, _ => False

/-- All values of an array are of its type. -/
def AllHaveType : List Value → Ty → Prop
  | [], _ => True
  | v :: vs, t => v.HasType t ∧ AllHaveType vs t

/-- The values of a tuple are of their types. -/
def HaveTypes : List Value → List Ty → Prop
  | [], [] => True
  | v :: vs, t :: ts => v.HasType t ∧ HaveTypes vs ts
  | _, _ => False

end

/-- An array is a tuple of as many components of one type. -/
theorem haveTypes_replicate {vs : List Value} {t : Ty}
    (h : AllHaveType vs t) : HaveTypes vs (List.replicate vs.length t) := by
  induction vs with
  | nil => trivial
  | cons v vs ih =>
      rw [AllHaveType] at h
      rw [List.length_cons, List.replicate_succ, HaveTypes]
      exact ⟨h.1, ih h.2⟩

theorem allHaveType_of_forall {vs : List Value} {t : Ty}
    (h : ∀ v ∈ vs, v.HasType t) : AllHaveType vs t := by
  induction vs with
  | nil => trivial
  | cons v vs ih =>
      rw [AllHaveType]
      exact ⟨h v (by simp), ih fun w hw => h w (by simp [hw])⟩

-- ========================================================= static sizes

mutual

/-- Types whose values are encoded in tails. -/
def Ty.isDynamic : Ty → Bool
  | .word => false
  | .bytes => true
  | .array _ => true
  | .tuple ts => anyDynamicTy ts

def anyDynamicTy : List Ty → Bool
  | [] => false
  | t :: ts => t.isDynamic || anyDynamicTy ts

end

mutual

/-- What a value of the type takes up among the heads. -/
def Ty.headSize : Ty → Nat
  | .word => 32
  | .bytes => 32
  | .array _ => 32
  | .tuple ts => if anyDynamicTy ts then 32 else headSizes ts

def headSizes : List Ty → Nat
  | [] => 0
  | t :: ts => t.headSize + headSizes ts

end

theorem length_heads (off : Nat) (ps : List Part) :
    (heads off ps).length = (ps.map headSize).sum := by
  induction ps generalizing off with
  | nil => rfl
  | cons p ps ih =>
      obtain ⟨dynamic, e⟩ := p
      cases dynamic <;> simp [heads, headSize, ih]

mutual

/-- Whether a value is dynamic depends on its type alone. -/
theorem isDynamic_eq (v : Value) (t : Ty) (h : v.HasType t) :
    v.isDynamic = t.isDynamic := by
  cases v with
  | word w => cases t <;> first | rfl | cases h
  | bytes s => cases t <;> first | rfl | cases h
  | array vs => cases t <;> first | rfl | cases h
  | tuple vs =>
      cases t with
      | tuple ts =>
          rw [Value.HasType] at h
          rw [Value.isDynamic, Ty.isDynamic]
          exact anyDynamic_eq vs ts h
      | _ => cases h

theorem anyDynamic_eq (vs : List Value) (ts : List Ty) (h : HaveTypes vs ts) :
    anyDynamic vs = anyDynamicTy ts := by
  cases vs with
  | nil =>
      cases ts with
      | nil => rfl
      | cons t ts => cases h
  | cons v vs =>
      cases ts with
      | nil => cases h
      | cons t ts =>
          rw [HaveTypes] at h
          rw [anyDynamic, anyDynamicTy, isDynamic_eq v t h.1,
            anyDynamic_eq vs ts h.2]

end

/-- Without dynamic components there are no tails. -/
theorem tails_eq_nil {vs : List Value} (h : anyDynamic vs = false) :
    tails (parts vs) = [] := by
  induction vs with
  | nil => rfl
  | cons v vs ih =>
      rw [anyDynamic, Bool.or_eq_false_iff] at h
      rw [parts, h.1, tails, ih h.2]

mutual

/-- What a value takes up among the heads depends on its type alone. -/
theorem headSize_eq (v : Value) (t : Ty) (h : v.HasType t) :
    headSize (v.isDynamic, v.encode) = t.headSize := by
  cases v with
  | word w =>
      cases t with
      | word => simp [Value.isDynamic, Value.encode, headSize, Ty.headSize]
      | _ => cases h
  | bytes s => cases t <;> first | rfl | cases h
  | array vs => cases t <;> first | rfl | cases h
  | tuple vs =>
      cases t with
      | tuple ts =>
          rw [Value.HasType] at h
          rw [Value.isDynamic, Ty.headSize, anyDynamic_eq vs ts h]
          by_cases hd : anyDynamicTy ts = true
          · rw [hd, if_pos rfl]
            rfl
          · rw [Bool.not_eq_true] at hd
            have hvs : anyDynamic vs = false := by
              rw [anyDynamic_eq vs ts h, hd]
            rw [hd, if_neg (by decide), ← headSizes_eq vs ts h]
            show (Value.tuple vs).encode.length = _
            rw [Value.encode, layout, tails_eq_nil hvs, List.append_nil,
              length_heads]
      | _ => cases h

theorem headSizes_eq (vs : List Value) (ts : List Ty) (h : HaveTypes vs ts) :
    ((parts vs).map headSize).sum = headSizes ts := by
  cases vs with
  | nil =>
      cases ts with
      | nil => rfl
      | cons t ts => cases h
  | cons v vs =>
      cases ts with
      | nil => cases h
      | cons t ts =>
          rw [HaveTypes] at h
          rw [parts, List.map_cons, List.sum_cons, headSizes,
            headSize_eq v t h.1, headSizes_eq vs ts h.2]

end

-- ===================================================== prefix-freeness

/-- A length or a count in front of what it measures is read back. -/
theorem beBytes_append_inj {m n : Nat} {a b : Bytes} (hm : m < 256 ^ 32)
    (hn : n < 256 ^ 32) (h : beBytes 32 m ++ a = beBytes 32 n ++ b) :
    m = n ∧ a = b := by
  obtain ⟨hword, hrest⟩ := List.append_inj h (by simp)
  refine ⟨?_, hrest⟩
  rw [← beNat_beBytes hm, hword, beNat_beBytes hn]

/-- Sequences of one list of types part at the same place. -/
theorem layout_append_inj {vs ws : List Value} {ts : List Ty}
    (hv : HaveTypes vs ts) (hw : HaveTypes ws ts) {a b : Bytes}
    (h : layout (parts vs) ++ a = layout (parts ws) ++ b) :
    heads (headSizes ts) (parts vs) = heads (headSizes ts) (parts ws)
      ∧ tails (parts vs) ++ a = tails (parts ws) ++ b := by
  unfold layout at h
  rw [headSizes_eq vs ts hv, headSizes_eq ws ts hw, List.append_assoc,
    List.append_assoc] at h
  refine List.append_inj h ?_
  rw [length_heads, length_heads, headSizes_eq vs ts hv, headSizes_eq ws ts hw]

mutual

/-- At a type, no encoding is a proper prefix of another. -/
theorem encode_append_inj (v w : Value) (t : Ty) (hv : v.HasType t)
    (hw : w.HasType t) (a b : Bytes) (h : v.encode ++ a = w.encode ++ b) :
    v = w ∧ a = b := by
  cases v with
  | word x =>
      cases t with
      | word =>
          cases w with
          | word y =>
              rw [Value.encode, Value.encode] at h
              obtain ⟨hxy, hab⟩ := beBytes_append_inj
                (lt_of_lt_of_le x.isLt (by norm_num))
                (lt_of_lt_of_le y.isLt (by norm_num)) h
              exact ⟨congrArg Value.word (BitVec.eq_of_toNat_eq hxy), hab⟩
          | _ => cases hw
      | _ => cases hv
  | bytes x =>
      cases t with
      | bytes =>
          cases w with
          | bytes y =>
              rw [Value.HasType] at hv hw
              rw [Value.encode, Value.encode, List.append_assoc,
                List.append_assoc] at h
              obtain ⟨hlen, hrest⟩ := beBytes_append_inj hv hw h
              -- the string, then its padding
              unfold padWords at hrest
              rw [List.append_assoc, List.append_assoc, hlen] at hrest
              obtain ⟨hxy, hpad⟩ := List.append_inj hrest hlen
              obtain ⟨-, hab⟩ := List.append_inj hpad rfl
              exact ⟨congrArg Value.bytes hxy, hab⟩
          | _ => cases hw
      | _ => cases hv
  | array vs =>
      cases t with
      | array t =>
          cases w with
          | array ws =>
              rw [Value.HasType] at hv hw
              rw [Value.encode, Value.encode, List.append_assoc,
                List.append_assoc] at h
              obtain ⟨hlen, hrest⟩ := beBytes_append_inj hv.1 hw.1 h
              have hvs := haveTypes_replicate hv.2
              have hws := haveTypes_replicate hw.2
              rw [← hlen] at hws
              obtain ⟨hheads, htails⟩ := layout_append_inj hvs hws hrest
              obtain ⟨hall, hab⟩ := parts_append_inj vs ws _ hvs hws _ _ a b
                hheads htails
              exact ⟨congrArg Value.array hall, hab⟩
          | _ => cases hw
      | _ => cases hv
  | tuple vs =>
      cases t with
      | tuple ts =>
          cases w with
          | tuple ws =>
              rw [Value.HasType] at hv hw
              rw [Value.encode, Value.encode] at h
              obtain ⟨hheads, htails⟩ := layout_append_inj hv hw h
              obtain ⟨hall, hab⟩ := parts_append_inj vs ws ts hv hw _ _ a b
                hheads htails
              exact ⟨congrArg Value.tuple hall, hab⟩
          | _ => cases hw
      | _ => cases hv

/-- Heads and tails of a sequence determine it: a static component by its
head, a dynamic one by its tail, whatever offsets the heads name. -/
theorem parts_append_inj (vs ws : List Value) (ts : List Ty)
    (hv : HaveTypes vs ts) (hw : HaveTypes ws ts) (off off' : Nat)
    (a b : Bytes) (hheads : heads off (parts vs) = heads off' (parts ws))
    (htails : tails (parts vs) ++ a = tails (parts ws) ++ b) :
    vs = ws ∧ a = b := by
  cases vs with
  | nil =>
      cases ts with
      | nil =>
          cases ws with
          | nil => exact ⟨rfl, htails⟩
          | cons w ws => cases hw
      | cons t ts => cases hv
  | cons v vs =>
      cases ts with
      | nil => cases hv
      | cons t ts =>
          cases ws with
          | nil => cases hw
          | cons w ws =>
              rw [HaveTypes] at hv hw
              have hdv := isDynamic_eq v t hv.1
              have hdw := isDynamic_eq w t hw.1
              rw [parts, parts, hdv, hdw] at hheads htails
              cases ht : t.isDynamic with
              | true =>
                  rw [ht, heads, heads] at hheads
                  rw [ht, tails, tails, List.append_assoc,
                    List.append_assoc] at htails
                  obtain ⟨-, hheads⟩ := List.append_inj hheads (by simp)
                  obtain ⟨hvw, htails⟩ := encode_append_inj v w t hv.1 hw.1 _ _
                    htails
                  obtain ⟨hrest, hab⟩ := parts_append_inj vs ws ts hv.2 hw.2 _ _
                    a b hheads htails
                  exact ⟨by rw [hvw, hrest], hab⟩
              | false =>
                  rw [ht, heads, heads] at hheads
                  rw [ht, tails, tails] at htails
                  obtain ⟨hvw, hheads⟩ := encode_append_inj v w t hv.1 hw.1 _ _
                    hheads
                  obtain ⟨hrest, hab⟩ := parts_append_inj vs ws ts hv.2 hw.2 _ _
                    a b hheads htails
                  exact ⟨by rw [hvw, hrest], hab⟩

end

/-- Two values of one type with one encoding are equal. -/
theorem abiEncode_inj {v w : Value} {t : Ty} (hv : v.HasType t)
    (hw : w.HasType t) (h : v.abiEncode = w.abiEncode) : v = w := by
  have hone : ∀ {u : Value}, u.HasType t → HaveTypes [u] [t] := by
    intro u hu
    rw [HaveTypes, HaveTypes]
    exact ⟨hu, trivial⟩
  have happend : layout (parts [v]) ++ [] = layout (parts [w]) ++ [] :=
    congrArg (· ++ []) h
  obtain ⟨hheads, htails⟩ := layout_append_inj (hone hv) (hone hw) happend
  obtain ⟨hall, -⟩ := parts_append_inj [v] [w] [t] (hone hv) (hone hw) _ _ [] []
    hheads htails
  exact (List.cons.inj hall).1

-- ======================================================= telling types

/-- A dynamic value is encoded behind the offset of its only tail. -/
theorem abiEncode_eq {v : Value} (h : v.isDynamic = true) :
    v.abiEncode = beBytes 32 32 ++ v.encode := by
  simp [Value.abiEncode, layout, parts, h, heads, tails, headSize]

/-- The first offset among a tuple's heads is their size. -/
theorem encode_tuple_eq {v w : Value} {vs : List Value} {t u : Ty}
    {ts : List Ty} (h : HaveTypes (v :: w :: vs) (t :: u :: ts))
    (ht : t.isDynamic = false) (hu : u.isDynamic = true) :
    ∃ rest, (Value.tuple (v :: w :: vs)).encode
      = v.encode ++ (beBytes 32 (headSizes (t :: u :: ts)) ++ rest) := by
  have hsize := headSizes_eq _ _ h
  rw [HaveTypes, HaveTypes] at h
  have hv := (isDynamic_eq v t h.1).trans ht
  have hw := (isDynamic_eq w u h.2.1).trans hu
  rw [Value.encode, layout, hsize, parts, parts, hv, hw, heads, heads,
    List.append_assoc, List.append_assoc]
  exact ⟨_, rfl⟩

/-- So tuples with heads of different sizes have different encodings,
where an offset shows it. -/
theorem abiEncode_ne {v w v' w' : Value} {vs vs' : List Value} {t u u' : Ty}
    {ts ts' : List Ty} (h : HaveTypes (v :: w :: vs) (t :: u :: ts))
    (h' : HaveTypes (v' :: w' :: vs') (t :: u' :: ts'))
    (ht : t.isDynamic = false) (hu : u.isDynamic = true)
    (hu' : u'.isDynamic = true)
    (hlt : headSizes (t :: u :: ts) < 256 ^ 32)
    (hlt' : headSizes (t :: u' :: ts') < 256 ^ 32)
    (hne : headSizes (t :: u :: ts) ≠ headSizes (t :: u' :: ts')) :
    (Value.tuple (v :: w :: vs)).abiEncode
      ≠ (Value.tuple (v' :: w' :: vs')).abiEncode := by
  intro heq
  have hdynamic : ∀ {x y : Value} {xs : List Value} {s : Ty} {ss : List Ty},
      HaveTypes (x :: y :: xs) (t :: s :: ss) → s.isDynamic = true →
      (Value.tuple (x :: y :: xs)).isDynamic = true := by
    intro x y xs s ss hxy hs
    rw [HaveTypes, HaveTypes] at hxy
    rw [Value.isDynamic, anyDynamic, anyDynamic, isDynamic_eq y s hxy.2.1, hs,
      Bool.true_or, Bool.or_true]
  rw [abiEncode_eq (hdynamic h hu), abiEncode_eq (hdynamic h' hu')] at heq
  obtain ⟨rest, hrest⟩ := encode_tuple_eq h ht hu
  obtain ⟨rest', hrest'⟩ := encode_tuple_eq h' ht hu'
  rw [hrest, hrest'] at heq
  rw [HaveTypes] at h h'
  obtain ⟨-, heq⟩ := List.append_inj heq rfl
  obtain ⟨-, heq⟩ := encode_append_inj v v' t h.1 h'.1 _ _ heq
  exact hne (beBytes_append_inj hlt hlt' heq).1

end Abi
