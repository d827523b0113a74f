/-
What a journal list says, on each side of a canoe proof.

# The two sides

- `main_eq_some_iff`: a guest run that commits to bytes has passed all
  its checks (`GuestRun`), and its journals are one `Executed` call
  each;
- `toJournalsBytes_eq_some_iff`: the verifier's bytes are those of one
  rebuilt journal for each claim.

Both are equivalences: they say what a run that went through has done,
and what is enough for a run to go through.
-/
import Mathlib.Data.List.Forall2
import Hokulea.Canoe.Sp1CC
import Hokulea.Proof.Preloaded

namespace Hokulea

-- ============================================= one result per entry

section Traverse

variable {α β : Type} {f : α → Option β}

/-- A traversal succeeds when every entry does, each result in the
place of its entry. -/
theorem mapM_eq_some_iff {xs : List α} {ys : List β} :
    xs.mapM f = some ys ↔ List.Forall₂ (fun x y => f x = some y) xs ys := by
  induction xs generalizing ys with
  | nil =>
      rw [List.mapM_nil, List.forall₂_nil_left_iff]
      exact ⟨fun h => (Option.some.inj h).symm, fun h => by rw [h]; rfl⟩
  | cons x xs ih =>
      rw [List.mapM_cons, List.forall₂_cons_left_iff]
      simp only [Option.bind_eq_bind, Option.bind_eq_some_iff]
      constructor
      · intro h
        obtain ⟨y, hy, rest, hrest, heq⟩ := h
        exact ⟨y, rest, hy, ih.mp hrest, (Option.some.inj heq).symm⟩
      · intro h
        obtain ⟨y, rest, hy, hrest, heq⟩ := h
        exact ⟨y, hy, rest, ih.mpr hrest, by rw [heq]; rfl⟩

/-- Each left entry has its right one. -/
theorem exists_of_forall₂ {R : α → β → Prop} {xs : List α} {ys : List β}
    (h : List.Forall₂ R xs ys) {x : α} (hx : x ∈ xs) : ∃ y ∈ ys, R x y := by
  induction h with
  | nil => cases hx
  | cons hxy _ ih =>
      rcases List.mem_cons.mp hx with rfl | hx
      · exact ⟨_, by simp, hxy⟩
      · obtain ⟨y, hy, hR⟩ := ih hx
        exact ⟨y, by simp [hy], hR⟩

end Traverse

namespace PreloadedEigenDAPreimageProvider

variable {head : L1Head} {A : CanoeVerifierAddressFetcher}

/-- The claim of an entry: the trusted head, the fetched address. -/
theorem certValidity_eq_some_iff {entry : AltDACommitment × Bool}
    {claim : AltDACommitment × CertValidity} :
    certValidity head A entry = some claim
      ↔ A.fetchAddress head.chainId entry.1.versionedCert
          = .ok claim.2.verifierAddress
        ∧ claim = (entry.1,
          { claimedValidity := entry.2
            l1HeadBlockHash := head.blockHash
            l1HeadBlockNumber := head.blockNumber
            l1HeadBlockTimestamp := head.blockTimestamp
            l1ChainId := head.chainId
            verifierAddress := claim.2.verifierAddress }) := by
  unfold certValidity
  cases A.fetchAddress head.chainId entry.1.versionedCert with
  | error e => simp
  | ok verifierAddress =>
      rw [Option.some.injEq, Except.ok.injEq]
      constructor
      · intro h
        rw [← h]
        exact ⟨rfl, rfl⟩
      · intro h
        obtain ⟨haddress, hclaim⟩ := h
        rw [haddress]
        exact hclaim.symm

/-- The claims of a list: those of its entries, in order. -/
theorem certValidities_eq_some_iff
    {validities : List (AltDACommitment × Bool)}
    {claims : List (AltDACommitment × CertValidity)} :
    certValidities head A validities = some claims
      ↔ List.Forall₂ (fun entry claim => certValidity head A entry = some claim)
          validities claims := by
  constructor
  · exact certValidities_forall₂
  · intro h
    induction h with
    | nil => rfl
    | cons hclaim _ ih =>
        unfold certValidities
        rw [hclaim, ih]
        rfl

end PreloadedEigenDAPreimageProvider

namespace Sp1CC

variable {γ η ι : Type} {L : Libraries γ η ι}

-- ========================================================= the guest

/-- What one round of the guest has done: the call executed on the
anchor block, its verdict compared with the claim. -/
structure Executed (L : Libraries γ η ι) (executor : ClientExecutor η)
    (rspGenesisHash : B256) (l1HeadBlockNumber : Nat) (l1HeadBlockHash : B256)
    (canoeInput : CanoeInput) (publicVals : ContractPublicValues)
    (journal : Journal) : Prop where
  executed : executor.execute
    (certCall canoeInput.verifierAddress canoeInput.altdaCommitment)
      = some publicVals
  anchorType : publicVals.anchorType = .blockHash
  claim : canoeInput.claimedValidity
    = L.returnsSuccess publicVals.contractOutput
  anchorHash : publicVals.anchorHash = l1HeadBlockHash
  journal : journal =
    { blockNumber := l1HeadBlockNumber
      certVerifierAddress := canoeInput.verifierAddress
      input := canoeInput.altdaCommitment.toRlpBytes
      blockhash := l1HeadBlockHash
      output := canoeInput.claimedValidity
      l1ChainId := executor.chainId
      chainSpecHash := rspGenesisHash
      chainConfigHash := publicVals.chainConfigHash }

theorem guestJournal_eq_some_iff {executor : ClientExecutor η}
    {rspGenesisHash : B256} {l1HeadBlockNumber : Nat} {l1HeadBlockHash : B256}
    {canoeInput : CanoeInput} {journal : Journal} :
    guestJournal L executor rspGenesisHash l1HeadBlockNumber l1HeadBlockHash
        canoeInput = some journal
      ↔ ∃ publicVals, Executed L executor rspGenesisHash l1HeadBlockNumber
          l1HeadBlockHash canoeInput publicVals journal := by
  unfold guestJournal
  simp only [Option.bind_eq_bind]
  constructor
  · intro h
    obtain ⟨publicVals, hexecuted, h⟩ := Option.bind_eq_some_iff.mp h
    split at h
    · cases h
    next htype =>
    split at h
    · cases h
    next hclaim =>
    split at h
    · cases h
    next hanchor =>
    have htype := not_not.mp htype
    have hclaim := not_not.mp hclaim
    have hanchor := not_not.mp hanchor
    cases h
    exact ⟨publicVals, hexecuted, htype, hclaim, hanchor,
      by rw [hclaim, hanchor]⟩
  · intro h
    obtain ⟨publicVals, h⟩ := h
    rw [h.executed, Option.bind_some, if_neg (not_not.mpr h.anchorType),
      if_neg (not_not.mpr h.claim), if_neg (not_not.mpr h.anchorHash),
      h.journal, h.anchorHash, ← h.claim]
    rfl

/-- The checks and the results of a guest run. -/
structure GuestRun (L : Libraries γ η ι) (stateSketchBytes : Bytes)
    (canoeInputs : List CanoeInput) (bytes : Bytes) (stateSketch : ι)
    (executor : ClientExecutor η) (first : CanoeInput)
    (rspGenesisBytes : Bytes) (journals : List Journal) : Prop where
  readSketch : L.deserializeSketch stateSketchBytes = some stateSketch
  head : canoeInputs.head? = some first
  shared : sharesHead first canoeInputs = true
  genesis : L.serializeGenesis (L.genesis stateSketch) = some rspGenesisBytes
  init : L.eth stateSketch = some executor
  number : first.l1HeadBlockNumber = L.number executor.header
  chain : first.l1ChainId = executor.chainId
  executed : List.Forall₂
    (fun canoeInput journal => ∃ publicVals,
      Executed L executor (L.keccak256 rspGenesisBytes) first.l1HeadBlockNumber
        first.l1HeadBlockHash canoeInput publicVals journal)
    canoeInputs journals
  committed : L.serializeJournals journals = some bytes

/-- A run of the guest, both ways. -/
theorem main_eq_some_iff {stateSketchBytes : Bytes}
    {canoeInputs : List CanoeInput} {bytes : Bytes} :
    main L stateSketchBytes canoeInputs = some bytes
      ↔ ∃ stateSketch executor first rspGenesisBytes journals,
          GuestRun L stateSketchBytes canoeInputs bytes stateSketch executor
            first rspGenesisBytes journals := by
  unfold main
  simp only [Option.bind_eq_bind]
  constructor
  · intro h
    obtain ⟨stateSketch, hsketch, h⟩ := Option.bind_eq_some_iff.mp h
    obtain ⟨first, hfirst, h⟩ := Option.bind_eq_some_iff.mp h
    split at h
    · cases h
    next hshared =>
    obtain ⟨rspGenesisBytes, hgenesis, h⟩ := Option.bind_eq_some_iff.mp h
    obtain ⟨executor, hexecutor, h⟩ := Option.bind_eq_some_iff.mp h
    split at h
    · cases h
    next hnumber =>
    split at h
    · cases h
    next hchain =>
    obtain ⟨journals, hjournals, h⟩ := Option.bind_eq_some_iff.mp h
    exact ⟨stateSketch, executor, first, rspGenesisBytes, journals, hsketch,
      hfirst, by simpa using hshared, hgenesis, hexecutor,
      not_not.mp hnumber, not_not.mp hchain,
      (mapM_eq_some_iff.mp hjournals).imp
        fun _ _ hj => guestJournal_eq_some_iff.mp hj, h⟩
  · intro h
    obtain ⟨stateSketch, executor, first, rspGenesisBytes, journals, h⟩ := h
    have hjournals := mapM_eq_some_iff.mpr
      (h.executed.imp fun _ _ hj => guestJournal_eq_some_iff.mpr hj)
    rw [h.readSketch, Option.bind_some, h.head, Option.bind_some, h.shared,
      if_neg (by decide), h.genesis, Option.bind_some, h.init,
      Option.bind_some, if_neg (not_not.mpr h.number),
      if_neg (not_not.mpr h.chain), hjournals, Option.bind_some]
    exact h.committed

/-- What sharing a head means for each input. -/
theorem sharesHead_iff {first : CanoeInput} {canoeInputs : List CanoeInput} :
    sharesHead first canoeInputs = true
      ↔ ∀ canoeInput ∈ canoeInputs,
          canoeInput.l1ChainId = first.l1ChainId
            ∧ canoeInput.l1HeadBlockNumber = first.l1HeadBlockNumber
            ∧ canoeInput.l1HeadBlockHash = first.l1HeadBlockHash := by
  simp only [sharesHead, List.all_eq_true, Bool.and_eq_true, beq_iff_eq,
    and_assoc]

-- ====================================================== the verifier

/-- A rebuilt journal: the claim, and two constants of its chain. -/
theorem verifierJournal_eq_some_iff {pair : AltDACommitment × CertValidity}
    {journal : Journal} :
    verifierJournal L pair = some journal
      ↔ deriveChainConfigHash L pair.2.l1ChainId pair.2.l1HeadBlockTimestamp
            pair.2.l1HeadBlockNumber = some journal.chainConfigHash
        ∧ rspGenesisHash L pair.2.l1ChainId = some journal.chainSpecHash
        ∧ journal =
          { certVerifierAddress := pair.2.verifierAddress
            input := pair.1.toRlpBytes
            blockhash := pair.2.l1HeadBlockHash
            output := pair.2.claimedValidity
            l1ChainId := pair.2.l1ChainId
            blockNumber := pair.2.l1HeadBlockNumber
            chainSpecHash := journal.chainSpecHash
            chainConfigHash := journal.chainConfigHash } := by
  unfold verifierJournal
  simp only [Option.bind_eq_bind, Option.bind_eq_some_iff]
  constructor
  · intro h
    obtain ⟨config, hconfig, genesis, hgenesis, h⟩ := h
    rw [← Option.some.inj h]
    exact ⟨hconfig, hgenesis, rfl⟩
  · intro h
    obtain ⟨hconfig, hgenesis, hjournal⟩ := h
    refine ⟨journal.chainConfigHash, hconfig, journal.chainSpecHash, hgenesis, ?_⟩
    exact congrArg some hjournal.symm

/-- The verifier's bytes are those of the rebuilt journals. -/
theorem toJournalsBytes_eq_some_iff
    {pairs : List (AltDACommitment × CertValidity)} {bytes : Bytes} :
    toJournalsBytes L pairs = some bytes
      ↔ ∃ journals,
          List.Forall₂ (fun pair journal => verifierJournal L pair = some journal)
            pairs journals
          ∧ L.serializeJournals journals = some bytes := by
  unfold toJournalsBytes
  simp only [Option.bind_eq_bind, Option.bind_eq_some_iff, mapM_eq_some_iff]

end Sp1CC

end Hokulea
