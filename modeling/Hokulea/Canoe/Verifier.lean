/-
What a canoe verifier is to the derivation: `CertValidity` and
`CanoeVerifier` of `canoe/verifier`, and the address fetchers of
`canoe/verifier-address-fetcher`.

A verifier is given the pairs of commitment and claim that the witness
makes, with the trusted L1 parameters filled in. It may fail, and the
zkVM libraries it calls may panic.
-/
import Hokulea.Eigenda.DataSource

namespace Hokulea

open Bytes

/-- `CertValidity` -/
structure CertValidity where
  claimedValidity : Bool
  l1HeadBlockHash : B256
  l1HeadBlockNumber : Nat
  l1HeadBlockTimestamp : Nat
  l1ChainId : Nat
  verifierAddress : Address
  deriving DecidableEq

/-- `HokuleaCanoeVerificationError` -/
inductive HokuleaCanoeVerificationError where
  | inconsistentPublicJournal
  | missingProof
  | invalidProofAndJournal (e : String)
  | unableToDeserializeReceipt (e : String)
  deriving DecidableEq, Repr

/-- `CanoeVerifier` -/
structure CanoeVerifier where
  validateCertReceipt : List (AltDACommitment × CertValidity) →
    Option Bytes → Option (Except HokuleaCanoeVerificationError Unit)
  toJournalsBytes : List (AltDACommitment × CertValidity) → Option Bytes

/-- `CanoeNoOpVerifier`: accepts everything. -/
def canoeNoOpVerifier : CanoeVerifier where
  validateCertReceipt _ _ := some (.ok ())
  toJournalsBytes _ := some []

-- ========================================== the contract's address

/-- `CanoeVerifierAddressFetcherError`, the variants this repository
produces. -/
inductive CanoeVerifierAddressFetcherError where
  | unknownL1ChainId (chainId : Nat)
  | unknownL2ChainId (l2ChainId l1ChainId : Nat)
  deriving DecidableEq, Repr

/-- `CanoeVerifierAddressFetcher` -/
structure CanoeVerifierAddressFetcher where
  fetchAddress : Nat → EigenDAVersionedCert →
    Except CanoeVerifierAddressFetcherError Address

/-- `address!("0x…")` -/
def address (n : Nat) : Address := ⟨beBytes 20 n, length_beBytes 20 n⟩

/-- `cert_verifier_address_abi_encode_interface` -/
def certVerifierAddressAbiEncodeInterface (chainId : Nat) :
    Except CanoeVerifierAddressFetcherError Address :=
  -- mainnet, Sepolia, Holesky, the Kurtosis devnet
  if chainId = 1 then .ok (address 0x1be7258230250Bc6a4548F8D59d576a87D216C12)
  else if chainId = 11155111 then
    .ok (address 0x17ec4112c4BbD540E2c1fE0A49D264a280176F0D)
  else if chainId = 17000 then
    .ok (address 0xDD735AFFe77A5ED5b21ED47219f95ED841f8Ffbd)
  else if chainId = 3151908 then
    .ok (address 0xb4B46bdAA835F8E4b4d8e208B6559cD267851051)
  else .error (.unknownL1ChainId chainId)

/-- `cert_verifier_address`: one router for every certificate
version. -/
def certVerifierAddress (chainId : Nat) (cert : EigenDAVersionedCert) :
    Except CanoeVerifierAddressFetcherError Address :=
  match cert with
  | .v2 _ => certVerifierAddressAbiEncodeInterface chainId
  | .v3 _ => certVerifierAddressAbiEncodeInterface chainId
  | .v4 _ => certVerifierAddressAbiEncodeInterface chainId

/-- `CanoeVerifierAddressFetcherDeployedByEigenLabs` -/
def canoeVerifierAddressFetcherDeployedByEigenLabs :
    CanoeVerifierAddressFetcher :=
  ⟨certVerifierAddress⟩

/-- `impl CanoeVerifierAddressFetcher for Address` -/
def staticAddressFetcher (a : Address) : CanoeVerifierAddressFetcher :=
  ⟨fun _ _ => .ok a⟩

end Hokulea
