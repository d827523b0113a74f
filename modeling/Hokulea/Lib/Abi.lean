/-
The Solidity ABI's encoding of values, as a library.

A value is a 32-byte word, a byte string, an array or a tuple. A
sequence of values is laid out in two parts: the heads, one for each
value in order, then the tails. A value of static size is its own
head; a value of dynamic size has the offset of its tail as its head.
-/
import Hokulea.Lib.Bytes

namespace Abi

open Bytes

/-- A value of an ABI type. `tuple` also serves for `T[k]`. -/
inductive Value where
  | word (w : BitVec 256)
  | bytes (s : Bytes)
  | array (vs : List Value)
  | tuple (vs : List Value)

mutual

/-- Values whose encoded size depends on more than their type. -/
def Value.isDynamic : Value → Bool
  | .word _ => false
  | .bytes _ => true
  | .array _ => true
  | .tuple vs => anyDynamic vs

/-- A tuple is dynamic when one of its components is. -/
def anyDynamic : List Value → Bool
  | [] => false
  | v :: vs => v.isDynamic || anyDynamic vs

end

/-- One value of a sequence: whether it is dynamic, and its
encoding. -/
abbrev Part := Bool × Bytes

/-- The size of a part's head. -/
def headSize : Part → Nat
  | (true, _) => 32
  | (false, e) => e.length

/-- The heads, the first tail starting at `off`. -/
def heads : Nat → List Part → Bytes
  | _, [] => []
  | off, (true, e) :: parts => beBytes 32 off ++ heads (off + e.length) parts
  | off, (false, e) :: parts => e ++ heads off parts

/-- The tails, in order. -/
def tails : List Part → Bytes
  | [] => []
  | (true, e) :: parts => e ++ tails parts
  | (false, _) :: parts => tails parts

/-- Heads, then tails. -/
def layout (parts : List Part) : Bytes :=
  heads (parts.map headSize).sum parts ++ tails parts

/-- A byte string, padded with zeros to whole words. -/
def padWords (s : Bytes) : Bytes :=
  s ++ List.replicate ((32 - s.length % 32) % 32) 0

mutual

/-- The encoding of a value, as it stands in a tail. -/
def Value.encode : Value → Bytes
  | .word w => beBytes 32 w.toNat
  | .bytes s => beBytes 32 s.length ++ padWords s
  | .array vs => beBytes 32 vs.length ++ layout (parts vs)
  | .tuple vs => layout (parts vs)

/-- The parts of a sequence of values. -/
def parts : List Value → List Part
  | [] => []
  | v :: vs => (v.isDynamic, v.encode) :: parts vs

end

/-- `abi_encode`: the value as a sequence of one. -/
def Value.abiEncode (v : Value) : Bytes :=
  layout (parts [v])

-- a dynamic tuple: its offset, its static word, the offset of its
-- string, the string
example : (Value.tuple [.word 5, .bytes [7, 8]]).abiEncode
    = beBytes 32 32 ++ beBytes 32 5 ++ beBytes 32 64 ++ beBytes 32 2
      ++ ([7, 8] ++ List.replicate 30 0) := by
  decide

end Abi
