/-
`canoe/steel/methods`: the guest that evaluates the certificates with
steel, the other canoe backend.

It reads the contract's answer as the `uint8` of the interface, not as a
`StatusCode`, and compares that with the number of `SUCCESS`.
`Libraries` holds what it calls of steel and alloy, over

- `ι`: `EthEvmInput`, the state as the guest reads it;
- `θ`: the `EvmEnv` it becomes, whose state is checked against the
  header.
-/
import Hokulea.Canoe.Sp1CC

namespace Hokulea.Steel

open Bytes
open Sp1CC (sharesHead)

/-- The chain specifications the guest runs under. -/
inductive EthChainSpec where
  | mainnet
  | sepolia
  | holesky
  /-- `EthChainSpec::new_single` with the default fork -/
  | single (chainId : Nat)
  deriving DecidableEq, Repr

/-- What the guest calls. -/
structure Libraries (ι θ : Type) where
  keccak256 : Bytes → B256
  /-- `bincode::serialize` -/
  serializeJournals : List Journal → Option Bytes
  /-- `EthEvmInput::into_env` -/
  intoEnv : ι → EthChainSpec → Option θ
  /-- The name of `EthChainSpec::active_fork`, at a number and a
  timestamp. -/
  activeFork : EthChainSpec → Nat → Nat → Option String
  number : θ → Nat
  timestamp : θ → Nat
  headerSeal : θ → B256
  /-- `Contract::call_builder(..).call()`: the `uint8` that
  `checkDACert` returns. -/
  call : θ → Address → CertVerifierCall → Option Nat

variable {ι θ : Type} (L : Libraries ι θ)

/-- The specification of a chain. -/
def chainSpec (l1ChainId : Nat) : Option EthChainSpec :=
  if l1ChainId = 1 then some .mainnet
  else if l1ChainId = 11155111 then some .sepolia
  else if l1ChainId = 17000 then some .holesky
  else if l1ChainId = 3151908 then some (.single l1ChainId)
  -- unsupported chain id by canoe steel
  else none

/-- `is_valid`: the contract's verdict on an input. -/
def isValid (env : θ) (canoeInput : CanoeInput) : Option Bool := do
  let status ← L.call env canoeInput.verifierAddress
    (CertVerifierCall.build canoeInput.altdaCommitment)
  return status == StatusCode.success.asU8

/-- One round of the guest's loop. -/
def guestJournal (env : θ) (chainConfigHash : B256) (l1ChainId : Nat)
    (l1HeadBlockNumber : Nat) (l1HeadBlockHash : B256)
    (canoeInput : CanoeInput) : Option Journal := do
  let isValid ← isValid L env canoeInput
  if L.headerSeal env ≠ l1HeadBlockHash then none
  if canoeInput.claimedValidity ≠ isValid then none
  return {
    blockNumber := l1HeadBlockNumber
    certVerifierAddress := canoeInput.verifierAddress
    input := canoeInput.altdaCommitment.toRlpBytes
    blockhash := l1HeadBlockHash
    output := isValid
    l1ChainId := l1ChainId
    chainConfigHash := chainConfigHash
    -- `B256::default()`: steel has no chain configuration to pin
    chainSpecHash := b256 0 }

/-- `main` of the guest: the committed bytes. -/
def main (input : ι) (canoeInputs : List CanoeInput) : Option Bytes := do
  let first ← canoeInputs.head?
  if !sharesHead first canoeInputs then none
  let spec ← chainSpec first.l1ChainId
  let env ← L.intoEnv input spec
  let activeForkString ←
    L.activeFork spec first.l1HeadBlockNumber (L.timestamp env)
  let chainConfigHash := L.keccak256 activeForkString.toUTF8.data.toList
  if first.l1HeadBlockNumber ≠ L.number env then none
  let journals ← canoeInputs.mapM
    (guestJournal L env chainConfigHash first.l1ChainId
      first.l1HeadBlockNumber first.l1HeadBlockHash)
  L.serializeJournals journals

end Hokulea.Steel
