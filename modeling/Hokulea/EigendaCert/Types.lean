/-
The certificate records of `crates/eigenda-cert`: the nested types of
an EigenDA certificate and the three certificate versions, each with
the RLP codec its derived implementation amounts to — one list holding
the fields in declaration order.

The field order matters and differs between versions: V2 puts the blob
inclusion info before the batch header, V3 and V4 the other way round,
and V4 appends the offchain derivation version.

Each codec is assembled from the combinators of the RLP library, so
the two laws (what was read is what is written; what is written reads
back) come with the definition.
-/
import Hokulea.Lib.Rlp

namespace Hokulea

open Rlp (Codec)

-- ============================================== fixed-width integers

/-- `u16` -/
abbrev U16 := BitVec 16

/-- `u32` -/
abbrev U32 := BitVec 32

/-- `U256` -/
abbrev U256 := BitVec 256

/-- `[u8; 32]` -/
abbrev B256 := { s : Bytes // s.length = 32 }

/-- `b256!("0x…")` -/
def b256 (n : Nat) : B256 := ⟨Bytes.beBytes 32 n, Bytes.length_beBytes 32 n⟩

/-- `u16` as RLP. -/
def u16Rlp : Codec U16 := Codec.uint 2

/-- `u32` as RLP. -/
def u32Rlp : Codec U32 := Codec.uint 4

/-- `U256` as RLP. -/
def u256Rlp : Codec U256 := Codec.wideUint 32

/-- `[u8; 32]` as RLP. -/
def b256Rlp : Codec B256 := Codec.byteArray 32

-- ====================================================== curve points

/-- `G1Point`: affine coordinates of a point on the first bn254
group. -/
structure G1Point where
  x : U256
  y : U256
  deriving DecidableEq, Repr

/-- `Fp2`, a tuple struct. -/
structure Fp2 where
  c0 : U256
  c1 : U256
  deriving DecidableEq, Repr

/-- `G2Point` -/
structure G2Point where
  x : Fp2
  y : Fp2
  deriving DecidableEq, Repr

def G1Point.rlp : Codec G1Point :=
  .record <| (u256Rlp.seq u256Rlp).map
    ⟨fun (x, y) => ⟨x, y⟩, fun p => (p.x, p.y), fun _ => rfl, fun _ => rfl⟩

def Fp2.rlp : Codec Fp2 :=
  .record <| (u256Rlp.seq u256Rlp).map
    ⟨fun (c0, c1) => ⟨c0, c1⟩, fun p => (p.c0, p.c1),
      fun _ => rfl, fun _ => rfl⟩

def G2Point.rlp : Codec G2Point :=
  .record <| (Fp2.rlp.seq Fp2.rlp).map
    ⟨fun (x, y) => ⟨x, y⟩, fun p => (p.x, p.y), fun _ => rfl, fun _ => rfl⟩

-- ============================================== blobs and batches

/-- `BlobCommitment`: `length` counts field elements. -/
structure BlobCommitment where
  commitment : G1Point
  lengthCommitment : G2Point
  lengthProof : G2Point
  length : U32
  deriving DecidableEq, Repr

/-- `BlobHeaderV2` -/
structure BlobHeaderV2 where
  version : U16
  quorumNumbers : Bytes
  commitment : BlobCommitment
  paymentHeaderHash : B256
  deriving DecidableEq, Repr

/-- `BlobCertificate` -/
structure BlobCertificate where
  blobHeader : BlobHeaderV2
  signature : Bytes
  relayKeys : List U32
  deriving DecidableEq, Repr

/-- `BlobInclusionInfo` -/
structure BlobInclusionInfo where
  blobCertificate : BlobCertificate
  blobIndex : U32
  inclusionProof : Bytes
  deriving DecidableEq, Repr

/-- `BatchHeaderV2` -/
structure BatchHeaderV2 where
  batchRoot : B256
  referenceBlockNumber : U32
  deriving DecidableEq, Repr

/-- `NonSignerStakesAndSignature` -/
structure NonSignerStakesAndSignature where
  nonSignerQuorumBitmapIndices : List U32
  nonSignerPubkeys : List G1Point
  quorumApks : List G1Point
  apkG2 : G2Point
  sigma : G1Point
  quorumApkIndices : List U32
  totalStakeIndices : List U32
  nonSignerStakeIndices : List (List U32)
  deriving DecidableEq, Repr

def BlobCommitment.rlp : Codec BlobCommitment :=
  .record <| (G1Point.rlp.seq (G2Point.rlp.seq (G2Point.rlp.seq u32Rlp))).map
    ⟨fun (c, lc, lp, l) => ⟨c, lc, lp, l⟩,
      fun b => (b.commitment, b.lengthCommitment, b.lengthProof, b.length),
      fun _ => rfl, fun _ => rfl⟩

def BlobHeaderV2.rlp : Codec BlobHeaderV2 :=
  .record <|
    (u16Rlp.seq (Codec.string.seq (BlobCommitment.rlp.seq b256Rlp))).map
    ⟨fun (v, q, c, p) => ⟨v, q, c, p⟩,
      fun b => (b.version, b.quorumNumbers, b.commitment,
        b.paymentHeaderHash),
      fun _ => rfl, fun _ => rfl⟩

def BlobCertificate.rlp : Codec BlobCertificate :=
  .record <| (BlobHeaderV2.rlp.seq (Codec.string.seq u32Rlp.vec)).map
    ⟨fun (h, s, r) => ⟨h, s, r⟩,
      fun b => (b.blobHeader, b.signature, b.relayKeys),
      fun _ => rfl, fun _ => rfl⟩

def BlobInclusionInfo.rlp : Codec BlobInclusionInfo :=
  .record <| (BlobCertificate.rlp.seq (u32Rlp.seq Codec.string)).map
    ⟨fun (c, i, p) => ⟨c, i, p⟩,
      fun b => (b.blobCertificate, b.blobIndex, b.inclusionProof),
      fun _ => rfl, fun _ => rfl⟩

def BatchHeaderV2.rlp : Codec BatchHeaderV2 :=
  .record <| (b256Rlp.seq u32Rlp).map
    ⟨fun (r, n) => ⟨r, n⟩, fun b => (b.batchRoot, b.referenceBlockNumber),
      fun _ => rfl, fun _ => rfl⟩

def NonSignerStakesAndSignature.rlp : Codec NonSignerStakesAndSignature :=
  .record <|
    (u32Rlp.vec.seq (G1Point.rlp.vec.seq (G1Point.rlp.vec.seq
      (G2Point.rlp.seq (G1Point.rlp.seq (u32Rlp.vec.seq
        (u32Rlp.vec.seq u32Rlp.vec.vec))))))).map
    ⟨fun (b, p, a, g, s, qi, ti, si) => ⟨b, p, a, g, s, qi, ti, si⟩,
      fun n => (n.nonSignerQuorumBitmapIndices, n.nonSignerPubkeys,
        n.quorumApks, n.apkG2, n.sigma, n.quorumApkIndices,
        n.totalStakeIndices, n.nonSignerStakeIndices),
      fun _ => rfl, fun _ => rfl⟩

-- ====================================================== certificates

/-- `EigenDACertV2`: blob inclusion info first. -/
structure EigenDACertV2 where
  blobInclusionInfo : BlobInclusionInfo
  batchHeaderV2 : BatchHeaderV2
  nonsignerStakeAndSignature : NonSignerStakesAndSignature
  signedQuorumNumbers : Bytes
  deriving DecidableEq, Repr

/-- `EigenDACertV3`: batch header first. -/
structure EigenDACertV3 where
  batchHeaderV2 : BatchHeaderV2
  blobInclusionInfo : BlobInclusionInfo
  nonsignerStakeAndSignature : NonSignerStakesAndSignature
  signedQuorumNumbers : Bytes
  deriving DecidableEq, Repr

/-- `EigenDACertV4`: V3 with the offchain derivation version. -/
structure EigenDACertV4 where
  batchHeaderV2 : BatchHeaderV2
  blobInclusionInfo : BlobInclusionInfo
  nonsignerStakeAndSignature : NonSignerStakesAndSignature
  signedQuorumNumbers : Bytes
  offchainDerivationVersion : U16
  deriving DecidableEq, Repr

def EigenDACertV2.rlp : Codec EigenDACertV2 :=
  .record <|
    (BlobInclusionInfo.rlp.seq (BatchHeaderV2.rlp.seq
      (NonSignerStakesAndSignature.rlp.seq Codec.string))).map
    ⟨fun (i, h, n, q) => ⟨i, h, n, q⟩,
      fun c => (c.blobInclusionInfo, c.batchHeaderV2,
        c.nonsignerStakeAndSignature, c.signedQuorumNumbers),
      fun _ => rfl, fun _ => rfl⟩

def EigenDACertV3.rlp : Codec EigenDACertV3 :=
  .record <|
    (BatchHeaderV2.rlp.seq (BlobInclusionInfo.rlp.seq
      (NonSignerStakesAndSignature.rlp.seq Codec.string))).map
    ⟨fun (h, i, n, q) => ⟨h, i, n, q⟩,
      fun c => (c.batchHeaderV2, c.blobInclusionInfo,
        c.nonsignerStakeAndSignature, c.signedQuorumNumbers),
      fun _ => rfl, fun _ => rfl⟩

def EigenDACertV4.rlp : Codec EigenDACertV4 :=
  .record <|
    (BatchHeaderV2.rlp.seq (BlobInclusionInfo.rlp.seq
      (NonSignerStakesAndSignature.rlp.seq
        (Codec.string.seq u16Rlp)))).map
    ⟨fun (h, i, n, q, v) => ⟨h, i, n, q, v⟩,
      fun c => (c.batchHeaderV2, c.blobInclusionInfo,
        c.nonsignerStakeAndSignature, c.signedQuorumNumbers,
        c.offchainDerivationVersion),
      fun _ => rfl, fun _ => rfl⟩

/-- `EigenDAVersionedCert` -/
inductive EigenDAVersionedCert where
  | v2 (cert : EigenDACertV2)
  | v3 (cert : EigenDACertV3)
  | v4 (cert : EigenDACertV4)
  deriving DecidableEq, Repr

end Hokulea
