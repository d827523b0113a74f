/-
Whether an honest steel proof is accepted.

# The setting

`HonestNode` is what the host relies on, for one head: a node that serves
the head and the state under it, steel, which carries the state of the
preflighted calls into the guest, and a prover whose receipts verify.
Steel's schedule names a fork for the head, reth's another.

# What is proved

`honest_steel_proof_accepted_iff`: guest and verifier compute the same
journal for every entry, on Holesky too, where the sp1-cc verifier aborts.
What remains are the verifier's own two rules: a head on the Kurtosis
devnet is refused, and a fork that is not the derived one has to be in the
allowed list.
-/
import Hokulea.Proofs.CanoeAcceptance
import Hokulea.Proofs.SteelSoundness

namespace Hokulea.Steel

open Bytes PreloadedEigenDAPreimageProvider
open Sp1CC (sharesHead inputOf claimOf journalOf sharesHead_inputOf
  fromEigendaPreimageToCanoeInputs_eq certValidities_eq)

variable {γ η κ ι θ ρ υ : Type}

/-- A call of a contract, as the host preflights it. -/
abbrev PreflightCall := Address × CertVerifierCall

/-- What the host's side relies on. `evaluate` is what the state under the
head makes of a call, `atHead` says that a preflight environment is one of
the head, and `loaded` which calls it has the state for. -/
structure HonestNode (L : Libraries ι θ) (H : Host υ ι ρ) (R : Risc0 ρ)
    (evaluate : Address → CertVerifierCall → Option Nat) (head : L1Head)
    (spec : EthChainSpec) (atHead : υ → Prop) (loaded : υ → List PreflightCall)
    (toVec : ρ → Bytes) : Prop where
  /-- The node has the head. -/
  build : ∃ env, H.build spec head.blockNumber = .ok env ∧ atHead env
    ∧ loaded env = []
  sealed : ∀ env, atHead env → H.headerSeal env = head.blockHash
  /-- It answers calls from the head's state. -/
  preflight : ∀ env verifierAddress call status, atHead env →
    evaluate verifierAddress call = some status →
    ∃ env', H.preflight env verifierAddress call = .ok (status, env')
      ∧ atHead env' ∧ loaded env' = loaded env ++ [(verifierAddress, call)]
  /-- The guest gets the state for the calls that were loaded. -/
  intoInput : ∀ env, atHead env → ∃ evmInput guestEnv,
    H.intoInput env = .ok evmInput ∧ L.intoEnv evmInput spec = some guestEnv
      ∧ L.number guestEnv = head.blockNumber
      ∧ L.timestamp guestEnv = head.blockTimestamp
      ∧ L.headerSeal guestEnv = head.blockHash
      ∧ ∀ c ∈ loaded env, ∀ status, evaluate c.1 c.2 = some status →
        L.call guestEnv c.1 c.2 = some status
  /-- A run of the guest is proven; the receipt verifies, as a receipt and
  as the assumption it is handed to the zkVM as, and is read back. -/
  prove : ∀ evmInput canoeInputs bytes,
    main L evmInput canoeInputs = some bytes →
    ∃ receipt, H.prove evmInput canoeInputs = .ok receipt
      ∧ R.journal receipt = bytes ∧ R.verify receipt = .ok ()
      ∧ R.envVerify bytes = .ok () ∧ R.fromSlice (toVec receipt) = .ok receipt
  /-- bincode writes what is in memory. -/
  serializeJournals : ∀ journals, (L.serializeJournals journals).isSome

/-- The claim is what the contract at the fetched address answers. -/
def ContractVerdict (A : CanoeVerifierAddressFetcher)
    (evaluate : Address → CertVerifierCall → Option Nat) (chainId : Nat)
    (entry : AltDACommitment × Bool) : Prop :=
  ∃ verifierAddress status,
    A.fetchAddress chainId entry.1.versionedCert = .ok verifierAddress
    ∧ evaluate verifierAddress (CertVerifierCall.build entry.1) = some status
    ∧ entry.2 = (status == StatusCode.success.asU8)

/-- An honest run of all programs, from the validity list to a receipt the
verifier accepts. -/
def ProofAccepted (S : Sp1CC.Libraries γ η κ) (L : Libraries ι θ)
    (H : Host υ ι ρ) (R : Risc0 ρ) (targetOs : TargetOs) (toVec : ρ → Bytes)
    (A : CanoeVerifierAddressFetcher) (head : L1Head)
    (validities : List (AltDACommitment × Bool)) : Prop :=
  ∃ claims canoeInputs receipt,
    certValidities head A validities = some claims
    ∧ fromEigendaPreimageToCanoeInputs A head.chainId head.blockHash
        head.blockNumber validities = .ok canoeInputs
    ∧ createCertsValidityProof H canoeInputs = some (some (.ok receipt))
    ∧ (canoeSteelVerifier S L R targetOs).validateCertReceipt claims
        (some (toVec receipt)) = some (.ok ())

-- ============================================================= the host

section Host

variable {S : Sp1CC.Libraries γ η κ} {L : Libraries ι θ} {H : Host υ ι ρ}
  {R : Risc0 ρ} {evaluate : Address → CertVerifierCall → Option Nat}
  {head : L1Head} {spec : EthChainSpec} {atHead : υ → Prop}
  {loaded : υ → List PreflightCall} {toVec : ρ → Bytes}

/-- Of the chains steel supports, host and guest choose the same
specification. -/
theorem hostChainSpec_eq {chainId : Nat} {spec : EthChainSpec}
    (h : chainSpec chainId = some spec) : hostChainSpec chainId = spec := by
  unfold chainSpec at h
  unfold hostChainSpec
  split at h
  case isTrue h1 =>
    rw [if_pos h1]
    exact Option.some.inj h
  case isFalse h1 =>
    rw [if_neg h1]
    split at h
    case isTrue h2 =>
      rw [if_pos h2]
      exact Option.some.inj h
    case isFalse h2 =>
      rw [if_neg h2]
      split at h
      case isTrue h3 =>
        rw [if_pos h3]
        exact Option.some.inj h
      case isFalse h3 =>
        rw [if_neg h3]
        split at h
        case isTrue h4 => exact Option.some.inj h
        case isFalse h4 => cases h

/-- The host's loop over claims that are true: all calls are loaded. -/
theorem preflightInputs_eq
    (hnode : HonestNode L H R evaluate head spec atHead loaded toVec)
    {canoeInputs : List CanoeInput} {env : υ} (henv : atHead env)
    (hinputs : ∀ canoeInput ∈ canoeInputs, ∃ status,
      evaluate canoeInput.verifierAddress
          (CertVerifierCall.build canoeInput.altdaCommitment) = some status
        ∧ canoeInput.claimedValidity
          = (status == StatusCode.success.asU8)) :
    ∃ env', preflightInputs H env canoeInputs = some (.ok env')
      ∧ atHead env'
      ∧ loaded env' = loaded env ++ canoeInputs.map fun canoeInput =>
        (canoeInput.verifierAddress,
          CertVerifierCall.build canoeInput.altdaCommitment) := by
  induction canoeInputs generalizing env with
  | nil => exact ⟨env, rfl, henv, by simp⟩
  | cons canoeInput canoeInputs ih =>
      obtain ⟨status, heval, hclaim⟩ := hinputs canoeInput (by simp)
      obtain ⟨env₁, hpre, henv₁, hloaded₁⟩ :=
        hnode.preflight env _ _ status henv heval
      obtain ⟨env', hrest, henv', hloaded'⟩ :=
        ih henv₁ fun i hi => hinputs i (by simp [hi])
      refine ⟨env', ?_, henv', ?_⟩
      · unfold preflightInputs
        simp only [hpre]
        rw [if_neg (not_not.mpr hclaim)]
        exact hrest
      · rw [hloaded', hloaded₁]
        simp

end Host

-- ======================================================= both sides

section Acceptance

variable {S : Sp1CC.Libraries γ η κ} {L : Libraries ι θ} {H : Host υ ι ρ}
  {R : Risc0 ρ} {evaluate : Address → CertVerifierCall → Option Nat}
  {head : L1Head} {spec : EthChainSpec} {atHead : υ → Prop}
  {loaded : υ → List PreflightCall} {toVec : ρ → Bytes}
  {A : CanoeVerifierAddressFetcher} {targetOs : TargetOs}
  {validities : List (AltDACommitment × Bool)}

/-- The assertion on forks lets the derived one through, and those of the
list. -/
theorem allowFork_eq_some_iff {chainId : Nat} {spec : EthChainSpec}
    (hspec : chainSpec chainId = some spec) {steelFork derivedFork : String} :
    allowFork chainId steelFork derivedFork = some ()
      ↔ steelFork = derivedFork ∨ steelFork ∈ ["Prague", "Osaka"] := by
  have hallowed : getAllowedSteelSpecId chainId = some ["Prague", "Osaka"] := by
    unfold chainSpec at hspec
    unfold getAllowedSteelSpecId
    by_cases h1 : chainId = 1
    · rw [if_pos h1]
    by_cases h2 : chainId = 11155111
    · rw [if_neg h1, if_pos h2]
    by_cases h3 : chainId = 17000
    · rw [if_neg h1, if_neg h2, if_pos h3]
    by_cases h4 : chainId = 3151908
    · rw [if_neg h1, if_neg h2, if_neg h3, if_pos h4]
    · rw [if_neg h1, if_neg h2, if_neg h3, if_neg h4] at hspec
      cases hspec
  unfold allowFork
  rw [hallowed, Option.bind_eq_bind, Option.bind_some]
  by_cases heq : steelFork = derivedFork
  · rw [if_neg (not_not.mpr heq)]
    exact ⟨fun _ => .inl heq, fun _ => rfl⟩
  · rw [if_pos heq]
    by_cases hmem : steelFork ∈ ["Prague", "Osaka"]
    · rw [if_pos (List.elem_iff.mpr hmem)]
      exact ⟨fun _ => .inr hmem, fun _ => rfl⟩
    · rw [if_neg (fun h => hmem (List.elem_iff.mp h))]
      constructor
      · intro h
        cases h
      · intro h
        rcases h with h | h
        · exact absurd h heq
        · exact absurd h hmem

/-- What the verifier makes of a claim for the head: the journal of its
entry, if the fork is let through. -/
theorem verifierJournal_claimOf (hspec : chainSpec head.chainId = some spec)
    {steelFork derivedFork : String}
    (hsteel : L.activeFork spec head.blockNumber head.blockTimestamp
      = some steelFork)
    (hderived : Sp1CC.deriveChainSpecId S head.chainId head.blockTimestamp
      head.blockNumber = some derivedFork)
    (addr : AltDACommitment × Bool → Address)
    (entry : AltDACommitment × Bool) :
    verifierJournal S L (claimOf head addr entry)
      = (allowFork head.chainId steelFork derivedFork).map fun _ =>
        journalOf head addr (b256 0)
          (L.keccak256 steelFork.toUTF8.data.toList) entry := by
  have hactive : getSteelActiveFork L head.chainId head.blockTimestamp
      head.blockNumber = some steelFork := by
    unfold getSteelActiveFork
    rw [hspec, Option.bind_eq_bind, Option.bind_some, hsteel]
  unfold verifierJournal claimOf
  simp only [Option.bind_eq_bind, hactive, hderived, Option.bind_some]
  cases allowFork head.chainId steelFork derivedFork with
  | none => rfl
  | some u => rfl

/-- An accepted proof has had its fork let through, and is not for the
devnet. -/
theorem allowed_of_accepted (hspec : chainSpec head.chainId = some spec)
    {steelFork derivedFork : String}
    (hsteel : L.activeFork spec head.blockNumber head.blockTimestamp
      = some steelFork)
    (hderived : Sp1CC.deriveChainSpecId S head.chainId head.blockTimestamp
      head.blockNumber = some derivedFork)
    (hne : validities ≠ [])
    (h : ProofAccepted S L H R targetOs toVec A head validities) :
    head.chainId ≠ 3151908
      ∧ allowFork head.chainId steelFork derivedFork = some () := by
  obtain ⟨claims, canoeInputs, receipt, hclaims, -, -, hok⟩ := h
  obtain ⟨entry, hentry⟩ := List.exists_mem_of_ne_nil _ hne
  obtain ⟨claim, hmem, hclaim⟩ :=
    exists_of_forall₂ (certValidities_forall₂ hclaims) hentry
  obtain ⟨-, hclaim⟩ := certValidity_eq_some_iff.mp hclaim
  have hown : claim = claimOf head (fun _ => claim.2.verifierAddress) entry :=
    hclaim
  unfold canoeSteelVerifier at hok
  simp only at hok
  split at hok
  · cases hok
  next hchain =>
  constructor
  · intro hkurtosis
    apply hchain
    rw [List.any_eq_true]
    refine ⟨claim, hmem, ?_⟩
    rw [hown]
    exact beq_iff_eq.mpr hkurtosis
  · unfold validateCertReceipt at hok
    simp only [Option.bind_eq_bind] at hok
    obtain ⟨bytes, hbytes, -⟩ := Option.bind_eq_some_iff.mp hok
    obtain ⟨journals, hjournals, -⟩ := toJournalsBytes_eq_some_iff.mp hbytes
    obtain ⟨journal, -, hjournal⟩ := exists_of_forall₂ hjournals hmem
    rw [hown, verifierJournal_claimOf hspec hsteel hderived] at hjournal
    obtain ⟨u, hallowed, -⟩ := Option.map_eq_some_iff.mp hjournal
    exact hallowed

/-- Where the fork is let through, off the devnet, all programs run and the
two sides' bytes are the same. -/
theorem accepted_of_allowed
    (hnode : HonestNode L H R evaluate head spec atHead loaded toVec)
    (hspec : chainSpec head.chainId = some spec)
    {steelFork derivedFork : String}
    (hsteel : L.activeFork spec head.blockNumber head.blockTimestamp
      = some steelFork)
    (hderived : Sp1CC.deriveChainSpecId S head.chainId head.blockTimestamp
      head.blockNumber = some derivedFork)
    (hne : validities ≠ [])
    (hclaims : ∀ entry ∈ validities,
      ContractVerdict A evaluate head.chainId entry)
    (hchain : head.chainId ≠ 3151908)
    (hallowed : allowFork head.chainId steelFork derivedFork = some ()) :
    ProofAccepted S L H R targetOs toVec A head validities := by
  -- the address of each entry
  let addr : AltDACommitment × Bool → Address := fun entry =>
    (A.fetchAddress head.chainId entry.1.versionedCert).toOption.getD
      (address 0)
  have hfetch : ∀ entry ∈ validities,
      A.fetchAddress head.chainId entry.1.versionedCert = .ok (addr entry) := by
    intro entry hentry
    obtain ⟨verifierAddress, status, haddress, -⟩ := hclaims entry hentry
    simp only [addr, haddress, Except.toOption, Option.getD_some]
  have hverdict : ∀ entry ∈ validities, ∃ status,
      evaluate (addr entry) (CertVerifierCall.build entry.1) = some status
        ∧ entry.2 = (status == StatusCode.success.asU8) := by
    intro entry hentry
    obtain ⟨verifierAddress, status, haddress, heval, hclaim⟩ :=
      hclaims entry hentry
    have hsame : addr entry = verifierAddress := by
      simp only [addr, haddress, Except.toOption, Option.getD_some]
    exact ⟨status, by rw [hsame]; exact heval, hclaim⟩
  have hinputs : ∀ canoeInput ∈ validities.map (inputOf head addr), ∃ status,
      evaluate canoeInput.verifierAddress
          (CertVerifierCall.build canoeInput.altdaCommitment) = some status
        ∧ canoeInput.claimedValidity
          = (status == StatusCode.success.asU8) := by
    rw [List.forall_mem_map]
    exact hverdict
  -- the host preflights all calls
  obtain ⟨env₀, hbuild, henv₀, hloaded₀⟩ := hnode.build
  obtain ⟨env, hpre, henv, hloaded⟩ := preflightInputs_eq hnode henv₀ hinputs
  obtain ⟨evmInput, guestEnv, hinput, hguestEnv, hnumber, htimestamp, hseal,
    hcalls⟩ := hnode.intoInput env henv
  -- the guest evaluates them and journals each entry
  obtain ⟨entry₀, rest, hcons⟩ := List.exists_cons_of_ne_nil hne
  have hhead : (validities.map (inputOf head addr)).head?
      = some (inputOf head addr entry₀) := by rw [hcons]; rfl
  let journals := validities.map
    (journalOf head addr (b256 0) (L.keccak256 steelFork.toUTF8.data.toList))
  obtain ⟨bytes, hbytes⟩ :=
    Option.isSome_iff_exists.mp (hnode.serializeJournals journals)
  have hexecuted : List.Forall₂
      (fun canoeInput journal => ∃ status,
        Executed L guestEnv (L.keccak256 steelFork.toUTF8.data.toList)
          head.chainId head.blockNumber head.blockHash canoeInput status
          journal)
      (validities.map (inputOf head addr)) journals := by
    simp only [journals]
    rw [List.forall₂_map_left_iff, List.forall₂_map_right_iff,
      List.forall₂_same]
    intro entry hentry
    obtain ⟨status, heval, hclaim⟩ := hverdict entry hentry
    refine ⟨status, ?_, hseal, hclaim, rfl⟩
    refine hcalls (addr entry, CertVerifierCall.build entry.1) ?_ status heval
    rw [hloaded, hloaded₀, List.nil_append, List.map_map]
    exact List.mem_map.mpr ⟨entry, hentry, rfl⟩
  have hguest : main L evmInput (validities.map (inputOf head addr))
      = some bytes :=
    main_eq_some_iff.mpr ⟨inputOf head addr entry₀, spec, guestEnv, steelFork,
      journals, hhead, sharesHead_inputOf entry₀, hspec, hguestEnv,
      by rw [htimestamp]; exact hsteel, hnumber.symm, hexecuted, hbytes⟩
  obtain ⟨receipt, hprove, hjournal, hverify, hassumption, hread⟩ :=
    hnode.prove _ _ _ hguest
  -- the verifier rebuilds the journals
  have hrebuilt : toJournalsBytes S L (validities.map (claimOf head addr))
      = some bytes := by
    refine toJournalsBytes_eq_some_iff.mpr ⟨journals, ?_, hbytes⟩
    simp only [journals]
    rw [List.forall₂_map_left_iff, List.forall₂_map_right_iff,
      List.forall₂_same]
    intro entry _
    rw [verifierJournal_claimOf hspec hsteel hderived, hallowed]
    rfl
  refine ⟨validities.map (claimOf head addr),
    validities.map (inputOf head addr), receipt, certValidities_eq hfetch,
    fromEigendaPreimageToCanoeInputs_eq hfetch, ?_, ?_⟩
  · have hbuild' : H.build
        (hostChainSpec (inputOf head addr entry₀).l1ChainId)
        (inputOf head addr entry₀).l1HeadBlockNumber = .ok env₀ := by
      show H.build (hostChainSpec head.chainId) head.blockNumber = _
      rw [hostChainSpec_eq hspec, hbuild]
    have hsealed : H.headerSeal env₀
        = (inputOf head addr entry₀).l1HeadBlockHash := hnode.sealed env₀ henv₀
    have hproof : getSteelProof H (validities.map (inputOf head addr))
        = some (.ok receipt) := by
      unfold getSteelProof proveInputs
      rw [hhead, Option.bind_eq_bind, Option.bind_some, sharesHead_inputOf]
      simp only [Bool.not_true, Bool.false_eq_true, if_false, hbuild']
      rw [if_neg (not_not.mpr hsealed), hpre]
      simp only [Option.bind_eq_bind, Option.bind_some, hinput, hprove]
      rfl
    unfold createCertsValidityProof
    rw [hproof, if_neg (by simp [hne])]
    rfl
  · unfold canoeSteelVerifier
    simp only
    rw [if_neg ?_]
    · unfold validateCertReceipt
      rw [hrebuilt, Option.bind_eq_bind, Option.bind_some]
      cases targetOs with
      | zkvm => simp [checkReceipt, hassumption]
      | other => simp [checkReceipt, hread, hverify, hjournal]
    · rw [List.any_eq_true]
      rintro ⟨claim, hmem, hkurtosis⟩
      obtain ⟨entry, -, rfl⟩ := List.mem_map.mp hmem
      exact hchain (beq_iff_eq.mp hkurtosis)

/-- An honest proof is accepted exactly when the head is not on the
Kurtosis devnet and the fork that steel runs is the derived one or one of
the list: no field of a journal differs between guest and verifier, on any
chain, and nothing else aborts. -/
theorem honest_steel_proof_accepted_iff
    (hnode : HonestNode L H R evaluate head spec atHead loaded toVec)
    (hspec : chainSpec head.chainId = some spec)
    (steelFork derivedFork : String)
    (hsteel : L.activeFork spec head.blockNumber head.blockTimestamp
      = some steelFork)
    (hderived : Sp1CC.deriveChainSpecId S head.chainId head.blockTimestamp
      head.blockNumber = some derivedFork)
    (hne : validities ≠ [])
    (hclaims : ∀ entry ∈ validities,
      ContractVerdict A evaluate head.chainId entry) :
    ProofAccepted S L H R targetOs toVec A head validities
      ↔ head.chainId ≠ 3151908
        ∧ (steelFork = derivedFork ∨ steelFork ∈ ["Prague", "Osaka"]) := by
  rw [← allowFork_eq_some_iff hspec]
  constructor
  · exact allowed_of_accepted hspec hsteel hderived hne
  · intro h
    exact accepted_of_allowed hnode hspec hsteel hderived hne hclaims h.1 h.2

end Acceptance

-- ----------------------------------------------------- a concrete run

/-- A Prague block of Holesky. -/
def holeskyHead : L1Head := ⟨b256 7, 22431084, 1746612311, 17000⟩

/-- Steel on it. -/
def holeskySteel : Libraries Unit Unit :=
  { testSteel with serializeJournals := Sp1CC.testSerializeJournals }

/-- A node that answers `SUCCESS` to every call, and a prover whose
receipts are the bytes the guest commits to. -/
def holeskyHost : Host (List PreflightCall) Unit Bytes where
  build _ _ := .ok []
  headerSeal _ := b256 7
  preflight env verifierAddress call :=
    .ok (1, env ++ [(verifierAddress, call)])
  intoInput _ := .ok ()
  prove evmInput canoeInputs :=
    match main holeskySteel evmInput canoeInputs with
    | none => .error "guest panicked"
    | some bytes => .ok bytes

/-- These receipts verify. -/
def holeskyRisc0 : Risc0 Bytes where
  envVerify _ := .ok ()
  fromSlice := .ok
  verify _ := .ok ()
  journal := id

theorem holeskyNode_honest :
    HonestNode holeskySteel holeskyHost holeskyRisc0 (fun _ _ => some 1)
      holeskyHead .holesky (fun _ => True) id id where
  build := ⟨[], rfl, trivial, rfl⟩
  sealed _ _ := rfl
  preflight _ _ _ status _ h := by
    cases h
    exact ⟨_, rfl, trivial, rfl⟩
  intoInput _ _ := ⟨(), (), rfl, rfl, rfl, rfl, rfl, fun _ _ _ h => h⟩
  prove evmInput canoeInputs bytes h := by
    refine ⟨bytes, ?_, rfl, rfl, rfl, rfl⟩
    simp only [holeskyHost, h]
  serializeJournals _ := rfl

/-- A valid certificate on Holesky, whose sp1-cc proof is not accepted. -/
theorem honest_steel_proof_accepted_holesky :
    ProofAccepted (Sp1CC.testLibraries 17000 Sp1CC.testSerializeJournals)
      holeskySteel holeskyHost holeskyRisc0 .zkvm id
      canoeVerifierAddressFetcherDeployedByEigenLabs holeskyHead
      [Sp1CC.testEntry] := by
  refine (honest_steel_proof_accepted_iff holeskyNode_honest rfl "Prague"
    "Prague" rfl rfl (by simp) ?_).mpr ⟨by decide, .inl rfl⟩
  intro entry hentry
  rw [List.mem_singleton.mp hentry]
  exact ⟨_, 1, rfl, rfl, rfl⟩

end Hokulea.Steel
