/-
`run_fp_client` of `crates/client`: the fault proof program, over any
EigenDA preimage provider.

# What is kona's

The oracle is read by hash, so what kona makes of it does not depend on
when it asks: the boot information, the safe head, the headers and the L1
source are values here. The driver with its pipeline and its executor is
what it does next, given what the data source has answered so far: one
more command, or an output root. `Kona` holds all of them.
-/
import Hokulea.Proofs.Simulation

namespace Hokulea

open Bytes Machine

/-- `FaultProofProgramError`; kona's other errors by their text. -/
inductive FaultProofProgramError where
  | invalidClaim (outputRoot claimedOutputRoot : B256)
  | kona (e : String)
  deriving DecidableEq

/-- `BootInfo`, as far as it is read here; the chain id is that of its
rollup config. -/
structure BootInfo where
  l1Head : B256
  agreedL2OutputRoot : B256
  claimedL2OutputRoot : B256
  claimedL2BlockNumber : Nat
  l1ChainId : Nat
  deriving DecidableEq

/-- `Header`, an L1 block's, as far as it is read here. -/
structure L1Header where
  number : Nat
  timestamp : Nat
  deriving DecidableEq

/-- What a data source has answered, oldest first. -/
abbrev Answers := List (Option (Except PipelineErrorKind Bytes))

/-- What the programs call of kona, on one oracle. -/
structure Kona (σ : Type) where
  /-- `BootInfo::load` -/
  bootInfo : Except String BootInfo
  /-- `oracle.get` of an L1 header. -/
  getHeaderRlp : B256 → Except String Bytes
  /-- `Header::decode` -/
  decodeHeader : Bytes → Option L1Header
  /-- `OracleL1ChainProvider::header_by_hash` -/
  headerByHash : B256 → Except String L1Header
  /-- `fetch_safe_head_hash` and the number in the header under it. -/
  safeHeadNumber : BootInfo → Except String Nat
  /-- `new_oracle_pipeline_cursor` -/
  newCursor : BootInfo → Except String Unit
  /-- `EthereumDataSource::new_from_parts`, and its operations. -/
  ethereumSource : BootInfo → σ
  ethereum : EthereumDataSource σ
  /-- `OraclePipeline::new` and `advance_to_target`. -/
  driver : BootInfo → Answers →
    EigenDADataSource.Command ⊕ Except String B256

namespace FpClient

variable {σ π ε : Type} (K : Kona σ)

/-- The prologue of `run_fp_client`; `none` is a trace extension. -/
def prologue : Except FaultProofProgramError (Option BootInfo) := do
  let boot ← K.bootInfo.mapError .kona
  let safeHeadNumber ← (K.safeHeadNumber boot).mapError .kona
  if boot.claimedL2BlockNumber < safeHeadNumber then
    throw (.invalidClaim boot.agreedL2OutputRoot boot.claimedL2OutputRoot)
  if boot.agreedL2OutputRoot = boot.claimedL2OutputRoot then
    return none
  (K.newCursor boot).mapError .kona
  return some boot

/-- The next command of the driver, if it has not ended. -/
def nextCommand (boot : BootInfo) (answers : Answers) :
    Option EigenDADataSource.Command :=
  (K.driver boot answers).getLeft?

/-- The driver's run over a new data source, within `n` commands. -/
def advanceToTarget (P : EigenDAPreimageProvider π ε) (boot : BootInfo)
    (n : Nat) (eigenda : π) : Option (Except String B256 × π) := do
  let (answers, dap) ← converse (EigenDADataSource.call K.ethereum P)
    (nextCommand K boot) n [] ⟨K.ethereumSource boot, eigenda, none⟩
  match K.driver boot answers with
  | .inl _ => none
  | .inr outputRoot => return (outputRoot, dap.eigendaSource)

/-- The epilogue of `run_fp_client`. -/
def epilogue (boot : BootInfo) (outputRoot : Except String B256) :
    Except FaultProofProgramError Unit := do
  let outputRoot ← outputRoot.mapError .kona
  if outputRoot ≠ boot.claimedL2OutputRoot then
    throw (.invalidClaim outputRoot boot.claimedL2OutputRoot)

/-- `run_fp_client`, with the provider it leaves behind. It is `none` on a
panic, or when the driver has not ended after `n` commands. -/
def runFpClient (P : EigenDAPreimageProvider π ε) (n : Nat) (eigenda : π) :
    Option (Except FaultProofProgramError Unit × π) :=
  match prologue K with
  | .error e => some (.error e, eigenda)
  | .ok none => some (.ok (), eigenda)
  | .ok (some boot) => do
      let (outputRoot, eigenda) ← advanceToTarget K P boot n eigenda
      return (epilogue boot outputRoot, eigenda)

end FpClient

end Hokulea
