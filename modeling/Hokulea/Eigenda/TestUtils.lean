/-
Sources and providers held in memory, for runs on concrete data: the
part of `test_utils.rs` in this development.

`listSource` is one block, read item by item. `flakyProvider` knows a
validity and a payload for every commitment and fails, temporarily, on
the calls its script marks.
-/
import Hokulea.Eigenda.DataSource

namespace Hokulea

open Bytes

/-- One block in memory: its items are read off a list. -/
def listSource (items : List Bytes) : EthereumDataSource (List Bytes) where
  next _ _ s :=
    match s with
    | [] => (.error eof, [])
    | d :: ds => (.ok d, ds)
  clear _ := items
  remaining _ _ s := s
  items _ _ := items
  next_ok {_ _ s _ _} h := by
    cases s <;> cases h
    rfl
  next_eof {_ _ s _} h := by
    cases s <;> cases h
    rfl
  next_error {_ _ s _ _} h := by
    cases s <;> cases h
    rfl
  remaining_clear _ _ _ := rfl

/-- The error of a provider in memory. -/
inductive TestHokuleaProviderError where
  | preimage
  | critical
  deriving DecidableEq, Repr

/-- `From<TestHokuleaProviderError> for HokuleaErrorKind` -/
def TestHokuleaProviderError.toErrorKind :
    TestHokuleaProviderError → HokuleaErrorKind
  | preimage => .temporary "Preimage temporary error"
  | critical => .critical "Critical error"

/-- A provider that fails on the calls its script marks `true`. -/
def flakyProvider (validity : AltDACommitment → Bool)
    (payload : AltDACommitment → EncodedPayload) :
    EigenDAPreimageProvider (List Bool) TestHokuleaProviderError where
  getValidity c script :=
    match script with
    | true :: script => some (.error .preimage, script)
    | script => some (.ok (validity c), script.tail)
  getEncodedPayload c script :=
    match script with
    | true :: script => some (.error .preimage, script)
    | script => some (.ok (payload c), script.tail)
  into := TestHokuleaProviderError.toErrorKind

/-- An L1 block, told apart by its number. -/
def testBlock (number : Nat) : BlockInfo :=
  ⟨b256 0, number, b256 0, 0⟩

/-- The batcher's address. -/
def testAddress : Address := ⟨List.replicate 20 0, List.length_replicate⟩

end Hokulea
