/-
Whether an honest sp1-cc proof is accepted: prover, guest and verifier
compute the fields of a journal by different routes, and have to meet.

# The setting

`HonestNode` is what the prover's side relies on: an L1 node that
serves the head and the state under it, and libraries that read back
what they wrote. `ContractVerdict` says that a claim is what the
contract answers at the fetched address.

# What is proved

`honest_proof_accepted_iff`: the verifier rebuilds the very bytes the
guest commits to, except in two cases.

- On Holesky, `rsp_genesis_hash` of the verifier aborts: rsp knows no
  genesis for the chain. The host carries one of its own.
- Where the contract's return bytes do not decode as a status code,
  the host's `expect` aborts. The guest takes them for a refusal.
-/
import Hokulea.Lib.Bincode
import Hokulea.Proofs.CanoeJournals

namespace Hokulea.Sp1CC

open Bytes PreloadedEigenDAPreimageProvider

variable {γ η ι : Type}

/-- The trusted L1 parameters of a header. -/
def l1Head (L : Libraries γ η ι) (chainId : Nat) (header : η) : L1Head :=
  ⟨L.hashSlow header, L.number header, L.timestamp header, chainId⟩

/-- What the prover's side relies on, for one head. `evaluate` is what
the chain's state under a header makes of a call. -/
structure HonestNode (L : Libraries γ η ι) (H : HostExecutor γ η ι)
    (evaluate : η → ContractInput → Option Bytes) (activeForkName : η → String)
    (chainId : Nat) (header : η) : Prop where
  /-- The node has the head. -/
  build : ∀ genesis, H.build (L.number header) genesis = .ok ⟨genesis, header, []⟩
  /-- It answers calls from the head's state. -/
  callRaw : ∀ (sketch : EvmSketch γ η) (call : ContractInput) (out : Bytes),
    sketch.header = header → evaluate header call = some out →
    H.callRaw sketch call = .ok out
  /-- A sketch of the chain is read back as it was written, and holds
  the state for the calls it has loaded. -/
  finalize : ∀ sketch : EvmSketch γ η, sketch.header = header →
    L.genesisTryFrom chainId = some sketch.genesis →
    ∃ stateSketch inputBytes executor,
      H.finalize sketch = .ok stateSketch
      ∧ H.serializeSketch stateSketch = some inputBytes
      ∧ L.deserializeSketch inputBytes = some stateSketch
      ∧ L.genesis stateSketch = sketch.genesis
      ∧ L.eth stateSketch = some executor
      ∧ executor.header = header ∧ executor.chainId = chainId
      ∧ ∀ call ∈ sketch.loaded, ∀ out, evaluate header call = some out →
          executor.execute call = some
            { contractOutput := out
              anchorHash := L.hashSlow header
              anchorType := .blockHash
              chainConfigHash :=
                hashChainConfig L chainId (activeForkName header) }
  /-- sp1-cc and reth derive the same fork name for the head. -/
  fork : ∀ specId,
    deriveChainSpecId L chainId (L.timestamp header) (L.number header)
      = some specId → specId = activeForkName header
  /-- rsp knows no genesis for the chains the host carries one for. -/
  genesis : ∀ id ∈ [1, 11155111, 17000, 3151908],
    L.genesisTryFrom id = none ↔ id ∈ [17000, 3151908]
  /-- bincode writes what is in memory. -/
  serializeGenesis : ∀ genesis, (L.serializeGenesis genesis).isSome
  serializeJournals : ∀ journals, (L.serializeJournals journals).isSome

/-- The claim is what the contract at the fetched address answers. -/
def ContractVerdict (L : Libraries γ η ι) (A : CanoeVerifierAddressFetcher)
    (evaluate : η → ContractInput → Option Bytes) (chainId : Nat) (header : η)
    (entry : AltDACommitment × Bool) : Prop :=
  ∃ verifierAddress out,
    A.fetchAddress chainId entry.1.versionedCert = .ok verifierAddress
    ∧ evaluate header (certCall verifierAddress entry.1) = some out
    ∧ entry.2 = L.returnsSuccess out

/-- The contract's return bytes decode as a status code. -/
def DecodedVerdict (L : Libraries γ η ι) (A : CanoeVerifierAddressFetcher)
    (evaluate : η → ContractInput → Option Bytes) (chainId : Nat) (header : η)
    (entry : AltDACommitment × Bool) : Prop :=
  ∀ verifierAddress out,
    A.fetchAddress chainId entry.1.versionedCert = .ok verifierAddress →
    evaluate header (certCall verifierAddress entry.1) = some out →
    (L.abiDecodeStatusCode out).isSome

/-- An honest run of all programs, from the validity list to equal
bytes on both sides. -/
def ProofAccepted (L : Libraries γ η ι) (H : HostExecutor γ η ι)
    (A : CanoeVerifierAddressFetcher) (head : L1Head)
    (validities : List (AltDACommitment × Bool)) : Prop :=
  ∃ claims canoeInputs stateSketchBytes stdinInputs bytes,
    certValidities head A validities = some claims
    ∧ fromEigendaPreimageToCanoeInputs A head.chainId head.blockHash
        head.blockNumber validities = .ok canoeInputs
    ∧ canoeProofStdin L H canoeInputs
        = some (.ok (stateSketchBytes, stdinInputs))
    ∧ main L stateSketchBytes stdinInputs = some bytes
    ∧ toJournalsBytes L claims = some bytes

-- =========================================== claims and canoe inputs

/-- The canoe input of an entry whose address is known. -/
def inputOf (head : L1Head) (addr : AltDACommitment × Bool → Address)
    (entry : AltDACommitment × Bool) : CanoeInput where
  altdaCommitment := entry.1
  claimedValidity := entry.2
  l1HeadBlockHash := head.blockHash
  l1HeadBlockNumber := head.blockNumber
  l1ChainId := head.chainId
  verifierAddress := addr entry

/-- The claim of an entry whose address is known. -/
def claimOf (head : L1Head) (addr : AltDACommitment × Bool → Address)
    (entry : AltDACommitment × Bool) : AltDACommitment × CertValidity :=
  (entry.1,
    { claimedValidity := entry.2
      l1HeadBlockHash := head.blockHash
      l1HeadBlockNumber := head.blockNumber
      l1HeadBlockTimestamp := head.blockTimestamp
      l1ChainId := head.chainId
      verifierAddress := addr entry })

section Fetched

variable {head : L1Head} {A : CanoeVerifierAddressFetcher}
  {addr : AltDACommitment × Bool → Address}
  {validities : List (AltDACommitment × Bool)}

/-- When every address is found, the prover makes one input for each
entry. -/
theorem fromEigendaPreimageToCanoeInputs_eq
    (hfetch : ∀ entry ∈ validities,
      A.fetchAddress head.chainId entry.1.versionedCert = .ok (addr entry)) :
    fromEigendaPreimageToCanoeInputs A head.chainId head.blockHash
        head.blockNumber validities
      = .ok (validities.map (inputOf head addr)) := by
  induction validities with
  | nil => rfl
  | cons entry validities ih =>
      have hinput : canoeInput A head.chainId head.blockHash head.blockNumber
          entry = .ok (inputOf head addr entry) := by
        unfold canoeInput
        rw [hfetch entry (by simp)]
        rfl
      have hrest := ih fun e he => hfetch e (by simp [he])
      unfold fromEigendaPreimageToCanoeInputs
      rw [hinput, hrest]
      rfl

/-- The inputs the prover makes, entry by entry. -/
theorem canoeInputs_forall₂ {canoeInputs : List CanoeInput}
    (h : fromEigendaPreimageToCanoeInputs A head.chainId head.blockHash
      head.blockNumber validities = .ok canoeInputs) :
    List.Forall₂ (fun entry canoeInput => ∃ verifierAddress,
        A.fetchAddress head.chainId entry.1.versionedCert = .ok verifierAddress
        ∧ canoeInput = inputOf head (fun _ => verifierAddress) entry)
      validities canoeInputs := by
  induction validities generalizing canoeInputs with
  | nil =>
      cases h
      exact .nil
  | cons entry validities ih =>
      unfold fromEigendaPreimageToCanoeInputs canoeInput at h
      cases hfetch : A.fetchAddress head.chainId entry.1.versionedCert with
      | error e =>
          rw [hfetch] at h
          cases h
      | ok verifierAddress =>
          rw [hfetch] at h
          split at h
          next => contradiction
          next input hinput =>
          cases hinput
          split at h
          · cases h
          next rest hrest =>
          cases h
          exact .cons ⟨verifierAddress, hfetch, rfl⟩ (ih hrest)

/-- And the verifier one claim. -/
theorem certValidities_eq
    (hfetch : ∀ entry ∈ validities,
      A.fetchAddress head.chainId entry.1.versionedCert = .ok (addr entry)) :
    certValidities head A validities
      = some (validities.map (claimOf head addr)) := by
  rw [certValidities_eq_some_iff, List.forall₂_map_right_iff, List.forall₂_same]
  intro entry hentry
  exact certValidity_eq_some_iff.mpr ⟨hfetch entry hentry, rfl⟩

/-- All inputs are for the trusted head. -/
theorem sharesHead_inputOf (entry : AltDACommitment × Bool) :
    sharesHead (inputOf head addr entry) (validities.map (inputOf head addr))
      = true := by
  rw [sharesHead_iff]
  intro canoeInput hmem
  obtain ⟨e, -, he⟩ := List.mem_map.mp hmem
  rw [← he]
  exact ⟨rfl, rfl, rfl⟩

end Fetched

-- ========================================================== the host

section Host

variable {L : Libraries γ η ι} {H : HostExecutor γ η ι}
  {evaluate : η → ContractInput → Option Bytes} {activeForkName : η → String}
  {chainId : Nat} {header : η}

/-- The host's loop, when every call is answered, its answer decodes
and says what is claimed: the sketch has loaded all calls. -/
theorem populate_eq
    (hnode : HonestNode L H evaluate activeForkName chainId header)
    {canoeInputs : List CanoeInput} {sketch : EvmSketch γ η}
    (hheader : sketch.header = header)
    (hinputs : ∀ canoeInput ∈ canoeInputs, ∃ out,
      evaluate header
        (certCall canoeInput.verifierAddress canoeInput.altdaCommitment)
          = some out
      ∧ canoeInput.claimedValidity = L.returnsSuccess out
      ∧ (L.abiDecodeStatusCode out).isSome) :
    populate L H sketch canoeInputs = some (.ok
      { sketch with
        loaded := sketch.loaded ++ canoeInputs.map fun canoeInput =>
          certCall canoeInput.verifierAddress canoeInput.altdaCommitment }) := by
  induction canoeInputs generalizing sketch with
  | nil => simp [populate]
  | cons canoeInput canoeInputs ih =>
      obtain ⟨out, heval, hclaim, hdecode⟩ := hinputs canoeInput (by simp)
      obtain ⟨returns, hreturns⟩ := Option.isSome_iff_exists.mp hdecode
      have hcall := hnode.callRaw sketch _ out hheader heval
      have hsuccess : canoeInput.claimedValidity = (returns == .success) := by
        rw [hclaim, Libraries.returnsSuccess, hreturns]
      unfold populate
      simp only [hcall, hreturns, Option.bind_eq_bind, Option.bind_some]
      have hnext := @ih { sketch with loaded := sketch.loaded ++ [certCall
        canoeInput.verifierAddress canoeInput.altdaCommitment] } hheader
        fun i hi => hinputs i (by simp [hi])
      rw [if_neg (not_not.mpr hsuccess.symm), hnext]
      simp

/-- A host that got through its loop has decoded every answer. -/
theorem decoded_of_populate
    (hnode : HonestNode L H evaluate activeForkName chainId header)
    {canoeInputs : List CanoeInput} {sketch sketch' : EvmSketch γ η}
    (hheader : sketch.header = header)
    (h : populate L H sketch canoeInputs = some (.ok sketch')) :
    ∀ canoeInput ∈ canoeInputs, ∀ out,
      evaluate header
        (certCall canoeInput.verifierAddress canoeInput.altdaCommitment)
          = some out →
      (L.abiDecodeStatusCode out).isSome := by
  induction canoeInputs generalizing sketch with
  | nil => simp
  | cons canoeInput canoeInputs ih =>
      unfold populate at h
      simp only [Option.bind_eq_bind] at h
      split at h
      · cases h
      next returnsBytes hcall =>
      obtain ⟨returns, hreturns, h⟩ := Option.bind_eq_some_iff.mp h
      split at h
      · cases h
      intro i hi out heval
      rcases List.mem_cons.mp hi with hi | hi
      · subst hi
        have hanswer := hnode.callRaw sketch _ out hheader heval
        rw [hcall] at hanswer
        injection hanswer with hanswer
        rw [← hanswer, hreturns]
        rfl
      · exact @ih { sketch with loaded := sketch.loaded ++ [certCall
          canoeInput.verifierAddress canoeInput.altdaCommitment] } hheader h
          i hi out heval

/-- A host that wrote its stdin got through its loop. -/
theorem populate_of_canoeProofStdin
    (hnode : HonestNode L H evaluate activeForkName chainId header)
    {canoeInputs : List CanoeInput} {stdin : Bytes × List CanoeInput}
    (hnumber : ∀ canoeInput ∈ canoeInputs,
      canoeInput.l1HeadBlockNumber = L.number header)
    (h : canoeProofStdin L H canoeInputs = some (.ok stdin)) :
    ∃ sketch sketch' : EvmSketch γ η, sketch.header = header
      ∧ populate L H sketch canoeInputs = some (.ok sketch') := by
  unfold canoeProofStdin at h
  simp only [Option.bind_eq_bind] at h
  obtain ⟨first, hfirst, h⟩ := Option.bind_eq_some_iff.mp h
  split at h
  · cases h
  obtain ⟨genesis, -, h⟩ := Option.bind_eq_some_iff.mp h
  have hbuild := hnode.build genesis
  rw [← hnumber first (List.mem_of_mem_head? hfirst)] at hbuild
  rw [hbuild] at h
  unfold sketchStdin at h
  simp only [Option.bind_eq_bind] at h
  split at h
  · cases h
  obtain ⟨r, hpopulate, h⟩ := Option.bind_eq_some_iff.mp h
  cases r with
  | error e => cases h
  | ok sketch' => exact ⟨_, sketch', rfl, hpopulate⟩

/-- The host's stdin, when every answer decodes and says what is
claimed: a sketch from which the guest executes every call as the
chain does. -/
theorem canoeProofStdin_runs
    (hnode : HonestNode L H evaluate activeForkName chainId header)
    {genesis : γ} (hgenesis : L.genesisTryFrom chainId = some genesis)
    {first : CanoeInput} {canoeInputs : List CanoeInput}
    (hfirst : canoeInputs.head? = some first)
    (hshared : sharesHead first canoeInputs = true)
    (hchain : first.l1ChainId = chainId)
    (hnumber : first.l1HeadBlockNumber = L.number header)
    (hhash : first.l1HeadBlockHash = L.hashSlow header)
    (hinputs : ∀ canoeInput ∈ canoeInputs, ∃ out,
      evaluate header
        (certCall canoeInput.verifierAddress canoeInput.altdaCommitment)
          = some out
      ∧ canoeInput.claimedValidity = L.returnsSuccess out
      ∧ (L.abiDecodeStatusCode out).isSome) :
    ∃ stateSketchBytes stateSketch executor,
      canoeProofStdin L H canoeInputs
        = some (.ok (stateSketchBytes, canoeInputs))
      ∧ L.deserializeSketch stateSketchBytes = some stateSketch
      ∧ L.genesis stateSketch = genesis
      ∧ L.eth stateSketch = some executor
      ∧ executor.header = header ∧ executor.chainId = chainId
      ∧ ∀ canoeInput ∈ canoeInputs, ∃ publicVals,
          executor.execute
            (certCall canoeInput.verifierAddress canoeInput.altdaCommitment)
              = some publicVals
          ∧ publicVals.anchorType = .blockHash
          ∧ publicVals.anchorHash = L.hashSlow header
          ∧ publicVals.chainConfigHash
              = hashChainConfig L chainId (activeForkName header)
          ∧ canoeInput.claimedValidity
              = L.returnsSuccess publicVals.contractOutput := by
  have hpopulate := populate_eq hnode
    (show (⟨genesis, header, []⟩ : EvmSketch γ η).header = header from rfl)
    hinputs
  obtain ⟨stateSketch, stateSketchBytes, executor, hfinal, hwrite, hread,
    hsame, heth, hheader, hid, hexecute⟩ :=
    hnode.finalize ⟨genesis, header, [] ++ canoeInputs.map fun canoeInput =>
      certCall canoeInput.verifierAddress canoeInput.altdaCommitment⟩ rfl
      hgenesis
  refine ⟨stateSketchBytes, stateSketch, executor, ?_, hread, hsame, heth,
    hheader, hid, ?_⟩
  · have hhost : hostGenesis L H first.l1ChainId = some genesis := by
      rw [hchain, hostGenesis, hgenesis]
    have hbuild := hnode.build genesis
    rw [← hnumber] at hbuild
    unfold canoeProofStdin sketchStdin
    simp only [Option.bind_eq_bind, hfirst, Option.bind_some, hshared, hhost,
      hbuild]
    rw [if_neg (by decide), if_neg (not_not.mpr hhash), hpopulate,
      Option.bind_some]
    simp only [hfinal, hwrite, Option.bind_some]
    rfl
  · intro canoeInput hmem
    obtain ⟨out, heval, hclaim, -⟩ := hinputs canoeInput hmem
    have hcall := hexecute
      (certCall canoeInput.verifierAddress canoeInput.altdaCommitment)
      (by simpa using ⟨canoeInput, hmem, rfl⟩) out heval
    exact ⟨_, hcall, rfl, rfl, rfl, hclaim⟩

end Host

-- ======================================================= both sides

section Acceptance

variable {L : Libraries γ η ι} {H : HostExecutor γ η ι}
  {A : CanoeVerifierAddressFetcher}
  {evaluate : η → ContractInput → Option Bytes} {activeForkName : η → String}
  {chainId : Nat} {header : η} {validities : List (AltDACommitment × Bool)}

/-- The journal of an entry, on either side. -/
def journalOf (head : L1Head) (addr : AltDACommitment × Bool → Address)
    (chainSpecHash chainConfigHash : B256) (entry : AltDACommitment × Bool) :
    Journal where
  blockNumber := head.blockNumber
  blockhash := head.blockHash
  certVerifierAddress := addr entry
  input := entry.1.toRlpBytes
  output := entry.2
  l1ChainId := head.chainId
  chainConfigHash := chainConfigHash
  chainSpecHash := chainSpecHash

/-- Of the chains rsp knows, the genesis is written and the fork named. -/
theorem HonestNode.knownChain
    (hnode : HonestNode L H evaluate activeForkName chainId header)
    (hchain : chainId = 1 ∨ chainId = 11155111) :
    ∃ genesis genesisBytes, L.genesisTryFrom chainId = some genesis
      ∧ L.serializeGenesis genesis = some genesisBytes
      ∧ deriveChainSpecId L chainId (L.timestamp header) (L.number header)
        = some (activeForkName header) := by
  have hgenesis : L.genesisTryFrom chainId ≠ none := by
    rw [ne_eq, hnode.genesis chainId (by simpa using hchain.imp_right .inl)]
    rcases hchain with rfl | rfl <;> decide
  obtain ⟨genesis, hgenesis⟩ := Option.ne_none_iff_exists'.mp hgenesis
  obtain ⟨genesisBytes, hgenesisBytes⟩ :=
    Option.isSome_iff_exists.mp (hnode.serializeGenesis genesis)
  obtain ⟨specId, hspecId⟩ : ∃ specId, deriveChainSpecId L chainId
      (L.timestamp header) (L.number header) = some specId := by
    rcases hchain with rfl | rfl <;> exact ⟨_, rfl⟩
  rw [hnode.fork specId hspecId] at hspecId
  exact ⟨genesis, genesisBytes, hgenesis, hgenesisBytes, hspecId⟩

/-- The journal the verifier rebuilds of a claim on such a chain. -/
theorem verifierJournal_claimOf {genesis : γ} {genesisBytes : Bytes}
    (hgenesis : L.genesisTryFrom chainId = some genesis)
    (hgenesisBytes : L.serializeGenesis genesis = some genesisBytes)
    (hspecId : deriveChainSpecId L chainId (L.timestamp header)
      (L.number header) = some (activeForkName header))
    (addr : AltDACommitment × Bool → Address)
    (entry : AltDACommitment × Bool) :
    verifierJournal L (claimOf (l1Head L chainId header) addr entry)
      = some (journalOf (l1Head L chainId header) addr
        (L.keccak256 genesisBytes)
        (hashChainConfig L chainId (activeForkName header)) entry) := by
  refine verifierJournal_eq_some_iff.mpr ⟨?_, ?_, rfl⟩
  · show deriveChainConfigHash L chainId (L.timestamp header)
      (L.number header) = _
    unfold deriveChainConfigHash
    rw [hspecId]
    rfl
  · show rspGenesisHash L chainId = _
    unfold rspGenesisHash
    rw [hgenesis, Option.bind_eq_bind, Option.bind_some, hgenesisBytes]
    rfl

/-- On the chains rsp knows, when every answer decodes, prover and
verifier meet. -/
theorem accepted_of_decoded
    (hnode : HonestNode L H evaluate activeForkName chainId header)
    (hchain : chainId = 1 ∨ chainId = 11155111) (hne : validities ≠ [])
    (hclaims : ∀ entry ∈ validities,
      ContractVerdict L A evaluate chainId header entry)
    (hdecoded : ∀ entry ∈ validities,
      DecodedVerdict L A evaluate chainId header entry) :
    ProofAccepted L H A (l1Head L chainId header) validities := by
  obtain ⟨genesis, genesisBytes, hgenesis, hgenesisBytes, hspecId⟩ :=
    hnode.knownChain hchain
  -- an address and an answer for each entry
  have : Nonempty Address := ⟨address 0⟩
  choose! addr out hfetch heval hverdict using hclaims
  let head := l1Head L chainId header
  let journals := validities.map (journalOf head addr
    (L.keccak256 genesisBytes) (hashChainConfig L chainId (activeForkName header)))
  obtain ⟨bytes, hbytes⟩ :=
    Option.isSome_iff_exists.mp (hnode.serializeJournals journals)
  obtain ⟨entry, rest, hcons⟩ := List.exists_cons_of_ne_nil hne
  -- prover
  obtain ⟨stateSketchBytes, stateSketch, executor, hstdin, hread, hsame, heth,
    hheader, hid, hexecute⟩ :=
    canoeProofStdin_runs hnode hgenesis
      (show (validities.map (inputOf head addr)).head?
        = some (inputOf head addr entry) by rw [hcons]; rfl)
      (sharesHead_inputOf entry) rfl rfl
      rfl (by
        intro canoeInput hmem
        obtain ⟨e, he, heq⟩ := List.mem_map.mp hmem
        subst heq
        exact ⟨out e, heval e he, hverdict e he,
          hdecoded e he (addr e) (out e) (hfetch e he) (heval e he)⟩)
  refine ⟨validities.map (claimOf head addr), validities.map (inputOf head addr),
    stateSketchBytes, validities.map (inputOf head addr), bytes,
    certValidities_eq hfetch, fromEigendaPreimageToCanoeInputs_eq hfetch, hstdin,
    ?_, ?_⟩
  · -- the guest
    refine main_eq_some_iff.mpr ⟨stateSketch, executor, inputOf head addr entry,
      genesisBytes, journals, hread, by rw [hcons]; rfl,
      sharesHead_inputOf entry, by rw [hsame]; exact hgenesisBytes, heth,
      by rw [hheader]; rfl, hid.symm, ?_, hbytes⟩
    rw [List.forall₂_map_left_iff, List.forall₂_map_right_iff,
      List.forall₂_same]
    intro e he
    obtain ⟨publicVals, hcall, htype, hanchor, hconfig, hclaim⟩ :=
      hexecute (inputOf head addr e) (List.mem_map_of_mem he)
    refine ⟨publicVals, hcall, htype, hclaim, hanchor, ?_⟩
    rw [hconfig, hid]
    rfl
  · -- the verifier
    refine toJournalsBytes_eq_some_iff.mpr ⟨journals, ?_, hbytes⟩
    rw [List.forall₂_map_left_iff, List.forall₂_map_right_iff,
      List.forall₂_same]
    intro e _
    exact verifierJournal_claimOf hgenesis hgenesisBytes hspecId addr e

/-- On Holesky the verifier aborts at the first claim. -/
theorem not_accepted_of_holesky
    (hgenesis : L.genesisTryFrom chainId = none) (hne : validities ≠ []) :
    ¬ ProofAccepted L H A (l1Head L chainId header) validities := by
  intro h
  obtain ⟨claims, -, -, -, bytes, hclaims, -, -, -, hverifier⟩ := h
  have hentries := certValidities_forall₂ hclaims
  obtain ⟨journals, hjournals, -⟩ := toJournalsBytes_eq_some_iff.mp hverifier
  cases hentries with
  | nil => exact hne rfl
  | cons hclaim _ =>
      cases hjournals with
      | cons hjournal _ =>
          obtain ⟨-, hclaim⟩ := certValidity_eq_some_iff.mp hclaim
          obtain ⟨-, hrsp, -⟩ := verifierJournal_eq_some_iff.mp hjournal
          rw [hclaim] at hrsp
          change rspGenesisHash L chainId = _ at hrsp
          rw [rspGenesisHash, hgenesis] at hrsp
          cases hrsp

/-- A proof that was made is one whose answers decoded on the host. -/
theorem decoded_of_accepted
    (hnode : HonestNode L H evaluate activeForkName chainId header)
    (h : ProofAccepted L H A (l1Head L chainId header) validities) :
    ∀ entry ∈ validities, DecodedVerdict L A evaluate chainId header entry := by
  obtain ⟨claims, canoeInputs, stateSketchBytes, stdinInputs, bytes, -, hinputs,
    hstdin, -, -⟩ := h
  have hforall := canoeInputs_forall₂ hinputs
  intro entry hentry verifierAddress out hfetch heval
  obtain ⟨canoeInput, hmem, address, hfetch', hinput⟩ :=
    exists_of_forall₂ hforall hentry
  have haddress : address = verifierAddress := by
    rw [show A.fetchAddress chainId entry.1.versionedCert = .ok address
      from hfetch'] at hfetch
    exact Except.ok.inj hfetch
  obtain ⟨sketch, sketch', hheader, hpopulate⟩ :=
    populate_of_canoeProofStdin hnode (fun i hi => by
      obtain ⟨e, -, a, -, heq⟩ := exists_of_forall₂ hforall.flip hi
      rw [heq]
      rfl) hstdin
  have hdecoded := decoded_of_populate hnode hheader hpopulate canoeInput hmem out
  rw [hinput, haddress] at hdecoded
  exact hdecoded heval

end Acceptance

-- ================================================ a concrete setting

/-- The journal as bincode writes it: its fields in order. -/
def journalEncoder : Bincode.Encoder Journal :=
  (Bincode.Encoder.u64.seq (Bincode.Encoder.bytes.seq
    (Bincode.Encoder.bytes.seq (Bincode.Encoder.bytes.seq
      (Bincode.Encoder.bool.seq (Bincode.Encoder.u64.seq
        (Bincode.Encoder.bytes.seq Bincode.Encoder.bytes))))))).comap
    (fun j => (j.blockNumber, j.blockhash.val, j.certVerifierAddress.val,
      j.input, j.output, j.l1ChainId, j.chainConfigHash.val,
      j.chainSpecHash.val))
    (by
      intro x y h
      cases x
      cases y
      simp only [Prod.mk.injEq, Subtype.val_inj] at h
      simp only [Journal.mk.injEq]
      exact h)

/-- `bincode::serialize` of the journals. -/
def testSerializeJournals (journals : List Journal) : Option Bytes :=
  some (journalEncoder.vec.encode journals)

/-- `Genesis` of rsp, as far as the chains here go. -/
inductive TestGenesis where
  | mainnet
  | sepolia
  | custom (chainId : Nat)
  deriving DecidableEq

/-- `StatusCode::abi_decode`: the last byte of the first word. -/
def testDecodeStatusCode (s : Bytes) : Option StatusCode :=
  if s.length < 32 then none
  else match (s.take 32).getLast? with
    | some 0 => some .nullError
    | some 1 => some .success
    | some 2 => some .unusedHistoricalInvalidInclusionProof
    | some 3 => some .unusedHistoricalSecurityAssumptionsNotMet
    | some 4 => some .unusedHistoricalBlobQuorumsNotSubset
    | some 5 => some .unusedHistoricalRequiredQuorumsNotSubset
    | some 6 => some .invalidCert
    | some 7 => some .internalError
    | _ => some .invalid

/-- keccak256 of what is hashed on mainnet at a Prague block: the
genesis variant's four bytes, and the packed chain configuration. -/
def testKeccak256 (s : Bytes) : B256 :=
  if s = [0, 0, 0, 0] then
    b256 0xe8e77626586f73b955364c7b4bbf0bb7f7685ebd40e852b164633a4acbd3244c
  else if s = beBytes 32 1 ++ "Prague".toUTF8.data.toList then
    b256 0xc478c8df2ce9052f2613cb02ad5edda2fe6f7d61cf5e04910a0a01406eac0708
  else b256 0

/-- The status word a contract returns. -/
def statusWord (status : Nat) : Bytes := beBytes 32 status

/-- The values the guest gets of a call on the test head. -/
def testPublicValues (chainId : Nat) : ContractPublicValues where
  contractOutput := statusWord 1
  anchorHash := b256 7
  anchorType := .blockHash
  chainConfigHash :=
    testKeccak256 (beBytes 32 chainId ++ "Prague".toUTF8.data.toList)

/-- The executor of the guest on the test head. -/
def testExecutor (chainId : Nat) : ClientExecutor Unit where
  header := ()
  chainId := chainId
  execute _ := some (testPublicValues chainId)

/-- Libraries for one head, a Prague block of the given chain whose
contract answers `SUCCESS` to every call. -/
def testLibraries (chainId : Nat)
    (serializeJournals : List Journal → Option Bytes) :
    Libraries TestGenesis Unit TestGenesis where
  keccak256 := testKeccak256
  abiDecodeStatusCode := testDecodeStatusCode
  serializeJournals := serializeJournals
  serializeGenesis
    | .mainnet => some [0, 0, 0, 0]
    | .sepolia => some [2, 0, 0, 0]
    | .custom id => some ([4, 0, 0, 0] ++ Bincode.leBytes id)
  deserializeSketch
    | 0 :: _ => some .mainnet
    | 2 :: _ => some .sepolia
    | _ => some (.custom chainId)
  genesisTryFrom id :=
    if id = 1 then some .mainnet
    else if id = 11155111 then some .sepolia
    else none
  genesis := id
  eth _ := some (testExecutor chainId)
  number _ := 22431084
  timestamp _ := 1746612311
  hashSlow _ := b256 7
  specByTimestampAndBlockNumber _ _ _ := "Prague"

/-- A node with that head. -/
def testHostExecutor (chainId : Nat) :
    HostExecutor TestGenesis Unit TestGenesis where
  build _ genesis := .ok ⟨genesis, (), []⟩
  callRaw _ _ := .ok (statusWord 1)
  finalize sketch := .ok sketch.genesis
  serializeSketch
    | .mainnet => some [0]
    | .sepolia => some [2]
    | .custom _ => some [4]
  holeskyGenesis := .custom chainId
  kurtosisDevnetGenesis := .custom chainId

/-- The contract's answers. -/
def testEvaluate (_ : Unit) (_ : ContractInput) : Option Bytes :=
  some (statusWord 1)

theorem hashChainConfig_testLibraries {chainId : Nat}
    {serializeJournals : List Journal → Option Bytes} {name : String} :
    hashChainConfig (testLibraries chainId serializeJournals) chainId name
      = testKeccak256 (beBytes 32 chainId ++ name.toUTF8.data.toList) := by
  simp only [hashChainConfig, testLibraries]

/-- The test node is honest on the chains rsp knows, and on Holesky. -/
theorem testNode_honest {chainId : Nat}
    (hchain : chainId ∈ [1, 11155111, 17000])
    {serializeJournals : List Journal → Option Bytes}
    (hjournals : ∀ journals, (serializeJournals journals).isSome) :
    HonestNode (testLibraries chainId serializeJournals)
      (testHostExecutor chainId) testEvaluate (fun _ => "Prague") chainId () where
  build _ := rfl
  callRaw _ _ _ _ h := congrArg Except.ok (Option.some.inj h)
  finalize sketch _ hgenesis := by
    have hknown : sketch.genesis = .mainnet ∨ sketch.genesis = .sepolia := by
      simp only [List.mem_cons, List.not_mem_nil, or_false] at hchain
      rcases hchain with rfl | rfl | rfl
      · exact .inl (Option.some.inj hgenesis).symm
      · exact .inr (Option.some.inj hgenesis).symm
      · cases hgenesis
    have hexecute : ∀ call ∈ sketch.loaded, ∀ out,
        testEvaluate () call = some out →
        (testExecutor chainId).execute call = some
          { contractOutput := out
            anchorHash := b256 7
            anchorType := .blockHash
            chainConfigHash := hashChainConfig
              (testLibraries chainId serializeJournals) chainId "Prague" } := by
      intro call _ out hout
      show some (testPublicValues chainId) = _
      rw [← Option.some.inj hout, hashChainConfig_testLibraries]
      rfl
    rcases hknown with hg | hg
    · exact ⟨.mainnet, [0], testExecutor chainId, by rw [← hg]; rfl, rfl, rfl,
        hg.symm, rfl, rfl, rfl, hexecute⟩
    · exact ⟨.sepolia, [2], testExecutor chainId, by rw [← hg]; rfl, rfl, rfl,
        hg.symm, rfl, rfl, rfl, hexecute⟩
  fork specId h := by
    simp only [List.mem_cons, List.not_mem_nil, or_false] at hchain
    rcases hchain with rfl | rfl | rfl <;> exact (Option.some.inj h).symm
  genesis id hid := by
    simp only [List.mem_cons, List.not_mem_nil, or_false] at hid
    rcases hid with rfl | rfl | rfl | rfl <;> simp [testLibraries]
  serializeGenesis genesis := by
    cases genesis <;> rfl
  serializeJournals := hjournals

/-- The verdict of the test contract, at the deployed address. -/
theorem testVerdict {chainId : Nat} (hchain : chainId ∈ [1, 11155111, 17000])
    (serializeJournals : List Journal → Option Bytes) :
    ∀ entry ∈ [(AltDACommitment.zeroCommitment 0 1, true)],
      ContractVerdict (testLibraries chainId serializeJournals)
        canoeVerifierAddressFetcherDeployedByEigenLabs testEvaluate chainId ()
        entry := by
  intro entry hentry
  rw [List.mem_singleton.mp hentry]
  simp only [List.mem_cons, List.not_mem_nil, or_false] at hchain
  have hsuccess : true
      = (testLibraries chainId serializeJournals).returnsSuccess
        (statusWord 1) := by
    unfold Libraries.returnsSuccess
    have hdecode : testDecodeStatusCode (statusWord 1) = some .success := by
      decide
    simp [testLibraries, hdecode]
  rcases hchain with rfl | rfl | rfl <;> exact ⟨_, _, rfl, rfl, hsuccess⟩

-- =========================================== the claim about proofs

section Acceptance

variable {L : Libraries γ η ι} {H : HostExecutor γ η ι}
  {A : CanoeVerifierAddressFetcher}
  {evaluate : η → ContractInput → Option Bytes} {activeForkName : η → String}
  {chainId : Nat} {header : η} {validities : List (AltDACommitment × Bool)}

/-- An honest proof is accepted exactly off Holesky, and when every
answer of the contract decodes as a status code: no field of a journal
differs between the two sides, and nothing else aborts. -/
theorem honest_proof_accepted_iff
    (hnode : HonestNode L H evaluate activeForkName chainId header)
    (hchain : chainId ∈ [1, 11155111, 17000]) (hne : validities ≠ [])
    (hclaims : ∀ entry ∈ validities,
      ContractVerdict L A evaluate chainId header entry) :
    ProofAccepted L H A (l1Head L chainId header) validities
      ↔ chainId ≠ 17000 ∧ ∀ entry ∈ validities,
          DecodedVerdict L A evaluate chainId header entry := by
  constructor
  · intro haccepted
    refine ⟨?_, decoded_of_accepted hnode haccepted⟩
    intro hholesky
    have hgenesis : L.genesisTryFrom chainId = none :=
      (hnode.genesis chainId (by simp [hholesky])).mpr (by simp [hholesky])
    exact not_accepted_of_holesky hgenesis hne haccepted
  · intro h
    obtain ⟨hholesky, hdecoded⟩ := h
    have hknown : chainId = 1 ∨ chainId = 11155111 := by
      simp only [List.mem_cons, List.not_mem_nil, or_false] at hchain
      omega
    exact accepted_of_decoded hnode hknown hne hclaims hdecoded

end Acceptance

/-- A valid certificate on mainnet. -/
theorem honest_proof_accepted_mainnet :
    ProofAccepted
      (testLibraries 1 testSerializeJournals) (testHostExecutor 1)
      canoeVerifierAddressFetcherDeployedByEigenLabs
      (l1Head (testLibraries 1 testSerializeJournals) 1 ())
      [(AltDACommitment.zeroCommitment 0 1, true)] := by
  refine (honest_proof_accepted_iff (testNode_honest (by simp) fun _ => rfl)
    (by simp) (by simp) (testVerdict (by simp) _)).mpr ⟨by decide, ?_⟩
  intro entry _ verifierAddress out _ hout
  rw [← Option.some.inj hout]
  decide

/-- The same certificate on Holesky: the node is honest, the claim is
the contract's verdict, and the proof is not accepted. -/
theorem honest_proof_rejected_holesky :
    ¬ ((17000 ∈ [1, 11155111, 17000]
        ∧ HonestNode (testLibraries 17000 testSerializeJournals)
          (testHostExecutor 17000) testEvaluate (fun _ => "Prague") 17000 ()
        ∧ ∀ entry ∈ [(AltDACommitment.zeroCommitment 0 1, true)],
            ContractVerdict (testLibraries 17000 testSerializeJournals)
              canoeVerifierAddressFetcherDeployedByEigenLabs testEvaluate 17000
              () entry) →
      ProofAccepted (testLibraries 17000 testSerializeJournals)
        (testHostExecutor 17000) canoeVerifierAddressFetcherDeployedByEigenLabs
        (l1Head (testLibraries 17000 testSerializeJournals) 17000 ())
        [(AltDACommitment.zeroCommitment 0 1, true)]) := by
  intro h
  have hnode := @testNode_honest 17000 (by simp) testSerializeJournals
    fun _ => rfl
  exact not_accepted_of_holesky rfl (by simp)
    (h ⟨by simp, hnode, testVerdict (by simp) _⟩)

end Hokulea.Sp1CC
