/-
The steel backend, against any prover, and beside the sp1-cc one.

# What is proved

- `Steel.derives_from_contract`: as for sp1-cc, a witness accepted under
  the steel verifier derives what the contract's answers and the committed
  bytes give, inside the zkVM and outside of it;
- `backends_agree`: where the two backends look at one contract, a witness
  accepted under the one and a witness accepted under the other derive the
  same, for any driver.

# The two journals

Steel's journal carries the fork its own schedule names in place of the
sp1-cc chain configuration, and a constant for the chain specification.
Neither takes part in the argument: what binds is the commitment, the
address, the anchor and the output.
-/
import Hokulea.Canoe.SteelVerifier
import Hokulea.Proofs.CanoeSoundness
import Hokulea.Proofs.CanoeVerdicts

namespace Hokulea

open Bytes Machine AltDACommitment EigenDADataSource
open PreloadedEigenDAPreimageProvider

namespace Steel

open Sp1CC (sharesHead)

variable {γ η κ ι θ ρ : Type}

-- ============================================================ the guest

/-- What one round of the guest has done. -/
structure Executed (L : Libraries ι θ) (env : θ) (chainConfigHash : B256)
    (l1ChainId l1HeadBlockNumber : Nat) (l1HeadBlockHash : B256)
    (canoeInput : CanoeInput) (status : Nat) (journal : Journal) : Prop where
  called : L.call env canoeInput.verifierAddress
    (CertVerifierCall.build canoeInput.altdaCommitment) = some status
  sealed : L.headerSeal env = l1HeadBlockHash
  claim : canoeInput.claimedValidity = (status == StatusCode.success.asU8)
  journal : journal =
    { blockNumber := l1HeadBlockNumber
      certVerifierAddress := canoeInput.verifierAddress
      input := canoeInput.altdaCommitment.toRlpBytes
      blockhash := l1HeadBlockHash
      output := canoeInput.claimedValidity
      l1ChainId := l1ChainId
      chainConfigHash := chainConfigHash
      chainSpecHash := b256 0 }

theorem guestJournal_eq_some_iff {L : Libraries ι θ} {env : θ}
    {chainConfigHash : B256} {l1ChainId l1HeadBlockNumber : Nat}
    {l1HeadBlockHash : B256} {canoeInput : CanoeInput} {journal : Journal} :
    guestJournal L env chainConfigHash l1ChainId l1HeadBlockNumber
        l1HeadBlockHash canoeInput = some journal
      ↔ ∃ status, Executed L env chainConfigHash l1ChainId l1HeadBlockNumber
          l1HeadBlockHash canoeInput status journal := by
  unfold guestJournal isValid
  simp only [Option.bind_eq_bind]
  constructor
  · intro h
    obtain ⟨valid, hvalid, h⟩ := Option.bind_eq_some_iff.mp h
    obtain ⟨status, hcalled, hvalid⟩ := Option.bind_eq_some_iff.mp hvalid
    have hvalid : (status == StatusCode.success.asU8) = valid :=
      Option.some.inj hvalid
    split at h
    · cases h
    next hseal =>
    split at h
    · cases h
    next hclaim =>
    have hseal := not_not.mp hseal
    have hclaim := not_not.mp hclaim
    cases h
    exact ⟨status, hcalled, hseal, hclaim.trans hvalid.symm, by rw [hclaim]⟩
  · intro h
    obtain ⟨status, h⟩ := h
    rw [h.called, Option.bind_some, Option.pure_def, Option.bind_some,
      if_neg (not_not.mpr h.sealed), if_neg (not_not.mpr h.claim), h.journal,
      ← h.claim]
    rfl

/-- The checks and the results of a guest run. -/
structure GuestRun (L : Libraries ι θ) (input : ι)
    (canoeInputs : List CanoeInput) (bytes : Bytes) (first : CanoeInput)
    (spec : EthChainSpec) (env : θ) (activeForkString : String)
    (journals : List Journal) : Prop where
  head : canoeInputs.head? = some first
  shared : sharesHead first canoeInputs = true
  chain : chainSpec first.l1ChainId = some spec
  init : L.intoEnv input spec = some env
  fork : L.activeFork spec first.l1HeadBlockNumber (L.timestamp env)
    = some activeForkString
  number : first.l1HeadBlockNumber = L.number env
  executed : List.Forall₂
    (fun canoeInput journal => ∃ status,
      Executed L env (L.keccak256 activeForkString.toUTF8.data.toList)
        first.l1ChainId first.l1HeadBlockNumber first.l1HeadBlockHash
        canoeInput status journal)
    canoeInputs journals
  committed : L.serializeJournals journals = some bytes

/-- A run of the guest, both ways. -/
theorem main_eq_some_iff {L : Libraries ι θ} {input : ι}
    {canoeInputs : List CanoeInput} {bytes : Bytes} :
    main L input canoeInputs = some bytes
      ↔ ∃ first spec env activeForkString journals,
          GuestRun L input canoeInputs bytes first spec env activeForkString
            journals := by
  unfold main
  simp only [Option.bind_eq_bind]
  constructor
  · intro h
    obtain ⟨first, hfirst, h⟩ := Option.bind_eq_some_iff.mp h
    split at h
    · cases h
    next hshared =>
    obtain ⟨spec, hspec, h⟩ := Option.bind_eq_some_iff.mp h
    obtain ⟨env, henv, h⟩ := Option.bind_eq_some_iff.mp h
    obtain ⟨activeForkString, hfork, h⟩ := Option.bind_eq_some_iff.mp h
    split at h
    · cases h
    next hnumber =>
    obtain ⟨journals, hjournals, h⟩ := Option.bind_eq_some_iff.mp h
    exact ⟨first, spec, env, activeForkString, journals, hfirst,
      by simpa using hshared, hspec, henv, hfork, not_not.mp hnumber,
      (mapM_eq_some_iff.mp hjournals).imp
        fun _ _ hj => guestJournal_eq_some_iff.mp hj, h⟩
  · intro h
    obtain ⟨first, spec, env, activeForkString, journals, h⟩ := h
    have hjournals := mapM_eq_some_iff.mpr
      (h.executed.imp fun _ _ hj => guestJournal_eq_some_iff.mpr hj)
    rw [h.head, Option.bind_some, h.shared, if_neg (by decide), h.chain,
      Option.bind_some, h.init, Option.bind_some, h.fork, Option.bind_some,
      if_neg (not_not.mpr h.number), hjournals, Option.bind_some]
    exact h.committed

-- ========================================================= the verifier

/-- A rebuilt journal: the claim, with the fork of steel's schedule, which
has been let through. -/
theorem verifierJournal_eq_some_iff {S : Sp1CC.Libraries γ η κ}
    {L : Libraries ι θ} {pair : AltDACommitment × CertValidity}
    {journal : Journal} :
    verifierJournal S L pair = some journal
      ↔ ∃ steelActiveFork derivedActiveFork,
          getSteelActiveFork L pair.2.l1ChainId pair.2.l1HeadBlockTimestamp
              pair.2.l1HeadBlockNumber = some steelActiveFork
          ∧ Sp1CC.deriveChainSpecId S pair.2.l1ChainId
              pair.2.l1HeadBlockTimestamp pair.2.l1HeadBlockNumber
            = some derivedActiveFork
          ∧ allowFork pair.2.l1ChainId steelActiveFork derivedActiveFork
            = some ()
          ∧ journal =
            { blockNumber := pair.2.l1HeadBlockNumber
              certVerifierAddress := pair.2.verifierAddress
              input := pair.1.toRlpBytes
              blockhash := pair.2.l1HeadBlockHash
              output := pair.2.claimedValidity
              l1ChainId := pair.2.l1ChainId
              chainConfigHash :=
                L.keccak256 steelActiveFork.toUTF8.data.toList
              chainSpecHash := b256 0 } := by
  unfold verifierJournal
  simp only [Option.bind_eq_bind, Option.bind_eq_some_iff]
  constructor
  · intro h
    obtain ⟨steelActiveFork, hsteel, derivedActiveFork, hderived, u, hallowed,
      h⟩ := h
    exact ⟨steelActiveFork, derivedActiveFork, hsteel, hderived, hallowed,
      (Option.some.inj h).symm⟩
  · intro h
    obtain ⟨steelActiveFork, derivedActiveFork, hsteel, hderived, hallowed,
      hjournal⟩ := h
    exact ⟨steelActiveFork, hsteel, derivedActiveFork, hderived, (),
      hallowed, congrArg some hjournal.symm⟩

/-- The verifier's bytes are those of the rebuilt journals. -/
theorem toJournalsBytes_eq_some_iff {S : Sp1CC.Libraries γ η κ}
    {L : Libraries ι θ} {pairs : List (AltDACommitment × CertValidity)}
    {bytes : Bytes} :
    toJournalsBytes S L pairs = some bytes
      ↔ ∃ journals,
          List.Forall₂
            (fun pair journal => verifierJournal S L pair = some journal)
            pairs journals
          ∧ L.serializeJournals journals = some bytes := by
  unfold toJournalsBytes
  simp only [Option.bind_eq_bind, Option.bind_eq_some_iff, mapM_eq_some_iff]

-- ========================================================== soundness

/-- What the binding rests on. `evaluate` is what the state under a block
hash, run under a chain specification, makes of a call. -/
structure Libraries.Sound (L : Libraries ι θ)
    (evaluate : EthChainSpec → B256 → Address → CertVerifierCall →
      Option Nat) : Prop where
  /-- bincode is injective. -/
  journals_inj : ∀ (journals journals' : List Journal) (bytes : Bytes),
    L.serializeJournals journals = some bytes →
    L.serializeJournals journals' = some bytes → journals = journals'
  /-- It writes lengths in eight bytes. -/
  input_lt : ∀ (journals : List Journal) (bytes : Bytes),
    L.serializeJournals journals = some bytes →
    ∀ journal ∈ journals, journal.input.length < 2 ^ 64
  /-- `into_env` has checked the state against the header. -/
  call : ∀ (input : ι) (spec : EthChainSpec) (env : θ)
    (verifierAddress : Address) (call : CertVerifierCall) (status : Nat),
    L.intoEnv input spec = some env →
    L.call env verifierAddress call = some status →
    evaluate spec (L.headerSeal env) verifierAddress call = some status

/-- What risc0's proofs promise: the journal of a verified receipt, or of
an assumption that `env::verify` discharged, is what some run of the pinned
guest has committed to. -/
structure ProofsSound (L : Libraries ι θ) (R : Risc0 ρ) : Prop where
  assumption : ∀ bytes, R.envVerify bytes = .ok () →
    ∃ input canoeInputs, main L input canoeInputs = some bytes
  receipt : ∀ canoeReceipt, R.verify canoeReceipt = .ok () →
    ∃ input canoeInputs,
      main L input canoeInputs = some (R.journal canoeReceipt)

/-- The contract's verdict at a head: its answer to the call on the block
with the head's hash, under the specification of the head's chain. -/
def contractVerdict (evaluate : EthChainSpec → B256 → Address →
    CertVerifierCall → Option Nat) : Verdict := fun head verifierAddress c =>
  match chainSpec head.chainId with
  | none => false
  | some spec =>
      match evaluate spec head.blockHash verifierAddress
        (CertVerifierCall.build c) with
      | some status => status == StatusCode.success.asU8
      | none => false

variable {S : Sp1CC.Libraries γ η κ} {L : Libraries ι θ} {R : Risc0 ρ}
  {targetOs : TargetOs}
  {evaluate : EthChainSpec → B256 → Address → CertVerifierCall → Option Nat}

/-- On either target, an accepted list has journal bytes that a guest run
has committed to. -/
theorem guest_of_accepted (hproofs : ProofsSound L R)
    {claims : List (AltDACommitment × CertValidity)} {proof : Option Bytes}
    (hok : validateCertReceipt S L R targetOs claims proof = some (.ok ())) :
    ∃ bytes input canoeInputs, toJournalsBytes S L claims = some bytes
      ∧ main L input canoeInputs = some bytes := by
  unfold validateCertReceipt at hok
  simp only [Option.bind_eq_bind] at hok
  obtain ⟨bytes, hverifier, hok⟩ := Option.bind_eq_some_iff.mp hok
  have hok : checkReceipt R targetOs bytes proof = .ok () :=
    Option.some.inj hok
  unfold checkReceipt at hok
  cases targetOs with
  | zkvm =>
      simp only at hok
      split at hok
      · cases hok
      next hverified =>
      obtain ⟨input, canoeInputs, hguest⟩ := hproofs.assumption _ hverified
      exact ⟨bytes, input, canoeInputs, hverifier, hguest⟩
  | other =>
      simp only at hok
      split at hok
      · cases hok
      split at hok
      · cases hok
      split at hok
      · cases hok
      next canoeReceipt _ _ hverified =>
      split at hok
      · cases hok
      next hjournal =>
      obtain ⟨input, canoeInputs, hguest⟩ := hproofs.receipt _ hverified
      exact ⟨bytes, input, canoeInputs, hverifier, by
        rw [hguest, not_not.mp hjournal]⟩

/-- A claim whose journal is a guest's is the contract's verdict. -/
theorem verdict_of_journal (hL : L.Sound evaluate) {input : ι}
    {spec : EthChainSpec} {env : θ} {l1ChainId number : Nat} {hash config : B256}
    (hspec : chainSpec l1ChainId = some spec)
    (henv : L.intoEnv input spec = some env)
    {pair : AltDACommitment × CertValidity} {canoeInput : CanoeInput}
    {status : Nat} {journal : Journal} (hlen : journal.input.length < 2 ^ 64)
    (hverifier : verifierJournal S L pair = some journal)
    (hguest : Executed L env config l1ChainId number hash canoeInput status
      journal) :
    pair.2.claimedValidity = contractVerdict evaluate pair.2.head
      pair.2.verifierAddress pair.1 := by
  obtain ⟨_, _, -, -, -, hjournal⟩ := verifierJournal_eq_some_iff.mp hverifier
  have hfields := hguest.journal.symm.trans hjournal
  injection hfields with _ hhash haddress hinput houtput hchain
  have hin : journal.input = canoeInput.altdaCommitment.toRlpBytes := by
    rw [hguest.journal]
  have hcommitment : canoeInput.altdaCommitment = pair.1 := by
    apply AltDACommitment.toRlpBytes_inj
    · rwa [hin] at hlen
    · rwa [hin, hinput] at hlen
    · exact hinput
  have hevaluated := hL.call input spec env _ _ status henv hguest.called
  rw [hguest.sealed] at hevaluated
  rw [← houtput, hguest.claim]
  unfold contractVerdict CertValidity.head
  simp only
  rw [← hchain, hspec, ← hhash, ← haddress, ← hcommitment]
  simp only [hevaluated]

/-- Steel's check accepts only lists whose claims are the contract's
verdicts. -/
theorem validateCertReceipt_sound (hL : L.Sound evaluate)
    (hproofs : ProofsSound L R)
    {claims : List (AltDACommitment × CertValidity)} {proof : Option Bytes}
    (hok : validateCertReceipt S L R targetOs claims proof = some (.ok ()))
    {c : AltDACommitment} {claim : CertValidity} (hmem : (c, claim) ∈ claims) :
    claim.claimedValidity
      = contractVerdict evaluate claim.head claim.verifierAddress c := by
  obtain ⟨bytes, input, canoeInputs, hverifier, hguest⟩ :=
    guest_of_accepted hproofs hok
  obtain ⟨first, spec, env, activeForkString, journals, hrun⟩ :=
    main_eq_some_iff.mp hguest
  obtain ⟨journals', hrebuilt, hcommitted⟩ :=
    toJournalsBytes_eq_some_iff.mp hverifier
  have hsame : journals' = journals :=
    hL.journals_inj _ _ bytes hcommitted hrun.committed
  subst hsame
  obtain ⟨journal, hjournal, hverifierJournal⟩ :=
    exists_of_forall₂ hrebuilt hmem
  obtain ⟨canoeInput, -, status, hexecuted⟩ :=
    exists_of_forall₂ hrun.executed.flip hjournal
  exact verdict_of_journal hL hrun.chain hrun.init
    (hL.input_lt _ bytes hrun.committed _ hjournal) hverifierJournal hexecuted

/-- So does the verifier. -/
theorem canoeSteelVerifier_sound (hL : L.Sound evaluate)
    (hproofs : ProofsSound L R) :
    CanoeSound (canoeSteelVerifier S L R targetOs)
      (contractVerdict evaluate) := by
  intro claims proof hok c claim hmem
  unfold canoeSteelVerifier at hok
  simp only at hok
  split at hok
  · cases hok
  · exact validateCertReceipt_sound hL hproofs hok hmem

/-- Whatever the witness, the proofs and the driver: a derivation over a
provider that `from_witness` returned under the steel verifier is the
derivation from the contract's verdicts at the trusted head and the
committed bytes. -/
theorem derives_from_steel_contract (hL : L.Sound evaluate)
    (hproofs : ProofsSound L R) {batchVerify : BatchVerify}
    {committed : Committed} (hkzg : KzgBinding batchVerify committed)
    {σ : Type} (E : EthereumDataSource σ) (eth : σ)
    (driver : List (Option (Except PipelineErrorKind Bytes)) → Option Command)
    (n : Nat) (head : L1Head) (A : CanoeVerifierAddressFetcher)
    (w : EigenDAWitness) (pre : PreloadedEigenDAPreimageProvider)
    (hw : fromWitness w head (canoeSteelVerifier S L R targetOs) A batchVerify
      = some pre)
    (outs : List (Option (Except PipelineErrorKind Bytes)))
    (s : EigenDADataSource σ PreloadedEigenDAPreimageProvider)
    (hrun : converse (call E provider) driver n [] ⟨eth, pre, none⟩
      = some (outs, s)) :
    converse (call E (idealProvider head A (contractVerdict evaluate)
          committed)) driver n [] ⟨eth, (), none⟩
      = some (outs, ⟨s.ethereumSource, (), s.altdaCommitment⟩) :=
  run_of_accepted E eth driver n (canoeSteelVerifier_sound hL hproofs) hkzg hw
    hrun

-- ----------------------------------------------------- a concrete run

open Sp1CC (testKeccak256 testSerializeFitting testL1Head testEntry testAddr
  inputOf claimOf journalOf journalEncoder)

/-- Libraries for the head of the sp1-cc test, whose contract answers
`SUCCESS` to every call. -/
def testSteel : Libraries Unit Unit where
  keccak256 := testKeccak256
  serializeJournals := testSerializeFitting
  intoEnv _ _ := some ()
  activeFork _ _ _ := some "Prague"
  number _ := 22431084
  timestamp _ := 1746612311
  headerSeal _ := b256 7
  call _ _ _ := some 1

/-- The contract's answers. -/
def testSteelEvaluate (_ : EthChainSpec) (_ : B256) (_ : Address)
    (_ : CertVerifierCall) : Option Nat :=
  some 1

theorem testSteel_sound : testSteel.Sound testSteelEvaluate where
  journals_inj := (Sp1CC.testLibraries_sound 1).journals_inj
  input_lt := (Sp1CC.testLibraries_sound 1).input_lt
  call _ _ _ _ _ _ _ h := h

/-- The journal of the entry, as guest and verifier have it. -/
def testSteelJournal : Journal :=
  journalOf testL1Head testAddr (b256 0)
    (testKeccak256 "Prague".toUTF8.data.toList) testEntry

theorem serializeJournals_testSteelJournal :
    testSteel.serializeJournals [testSteelJournal]
      = some (journalEncoder.vec.encode [testSteelJournal]) := by
  have haddressable : (AltDACommitment.zeroCommitment 0 1).Addressable := by
    decide +kernel
  have hinput : testSteelJournal.input.length < 2 ^ 64 := haddressable
  have hfits : journalEncoder.vec.fits [testSteelJournal] = true := by
    simp only [journalEncoder, Bincode.Encoder.vec, Bincode.Encoder.comap,
      Bincode.Encoder.seq, Bincode.Encoder.bytes, Bincode.Encoder.bool,
      Bincode.Encoder.u64, List.all_cons, List.all_nil, Bool.and_true,
      Bool.true_and, Bool.and_eq_true, decide_eq_true_eq]
    exact ⟨by simp, by decide, by decide, by decide, hinput, by decide,
      by decide, by decide⟩
  simp only [testSteel]
  rw [testSerializeFitting, if_pos hfits]

theorem main_testSteel :
    main testSteel () [inputOf testL1Head testAddr testEntry]
      = some (journalEncoder.vec.encode [testSteelJournal]) := by
  refine main_eq_some_iff.mpr ⟨inputOf testL1Head testAddr testEntry, .mainnet,
    (), "Prague", [testSteelJournal], rfl, by simp [sharesHead], rfl, rfl, rfl,
    rfl, ?_, serializeJournals_testSteelJournal⟩
  have hexecuted : Executed testSteel ()
      (testKeccak256 "Prague".toUTF8.data.toList) 1 22431084 (b256 7)
      (inputOf testL1Head testAddr testEntry) 1 testSteelJournal :=
    { called := rfl
      sealed := rfl
      claim := rfl
      journal := rfl }
  exact .cons ⟨1, hexecuted⟩ .nil

theorem toJournalsBytes_testSteel :
    toJournalsBytes (Sp1CC.testLibraries 1 testSerializeFitting) testSteel
        [claimOf testL1Head testAddr testEntry]
      = some (journalEncoder.vec.encode [testSteelJournal]) := by
  refine toJournalsBytes_eq_some_iff.mpr ⟨[testSteelJournal], ?_,
    serializeJournals_testSteelJournal⟩
  refine .cons (verifierJournal_eq_some_iff.mpr
    ⟨"Prague", "Prague", rfl, rfl, ?_, rfl⟩) .nil
  decide

/-- Proofs of this one journal, receipts being their journals. -/
def testRisc0 : Risc0 Bytes where
  envVerify bytes :=
    if bytes = journalEncoder.vec.encode [testSteelJournal] then .ok ()
    else .error "no assumption"
  fromSlice := .ok
  verify bytes :=
    if bytes = journalEncoder.vec.encode [testSteelJournal] then .ok ()
    else .error "no proof"
  journal := id

theorem testRisc0_sound : ProofsSound testSteel testRisc0 := by
  have hsame : ∀ bytes,
      bytes = journalEncoder.vec.encode [testSteelJournal] →
      ∃ input canoeInputs, main testSteel input canoeInputs = some bytes :=
    fun bytes h => ⟨_, _, h ▸ main_testSteel⟩
  constructor
  · intro bytes h
    apply hsame
    by_contra hne
    have h : (if bytes = journalEncoder.vec.encode [testSteelJournal] then
      (.ok () : Except String Unit) else .error "no assumption") = .ok () := h
    rw [if_neg hne] at h
    cases h
  · intro bytes h
    refine hsame bytes ?_
    by_contra hne
    have h : (if bytes = journalEncoder.vec.encode [testSteelJournal] then
      (.ok () : Except String Unit) else .error "no proof") = .ok () := h
    rw [if_neg hne] at h
    cases h

/-- The entry and the payload, with the receipt. -/
def testSteelWitness : EigenDAWitness where
  validities := [testEntry]
  encodedPayloads := [(testEntry.1, Sp1CC.zeroPayload, testProof)]
  canoeProofBytes := some (journalEncoder.vec.encode [testSteelJournal])

theorem fromWitness_testSteelWitness (targetOs : TargetOs) :
    fromWitness testSteelWitness testL1Head
        (canoeSteelVerifier (Sp1CC.testLibraries 1 testSerializeFitting)
          testSteel testRisc0 targetOs)
        canoeVerifierAddressFetcherDeployedByEigenLabs Sp1CC.testBatchVerify
      = some (holding [testEntry] [(testEntry.1, Sp1CC.zeroPayload)]) := by
  have hreceipt : checkReceipt testRisc0 targetOs
      (journalEncoder.vec.encode [testSteelJournal])
      testSteelWitness.canoeProofBytes = .ok () := by
    have hown : testSteelWitness.canoeProofBytes
      = some (journalEncoder.vec.encode [testSteelJournal]) := rfl
    cases targetOs with
    | zkvm => simp [checkReceipt, testRisc0]
    | other => simp [checkReceipt, testRisc0, hown]
  have hchain : ([claimOf testL1Head testAddr testEntry].any
      fun pair => pair.2.l1ChainId == 3151908) = false := by
    decide
  have hvalidated : (canoeSteelVerifier
      (Sp1CC.testLibraries 1 testSerializeFitting) testSteel testRisc0
      targetOs).validateCertReceipt [claimOf testL1Head testAddr testEntry]
      testSteelWitness.canoeProofBytes = some (.ok ()) := by
    unfold canoeSteelVerifier
    simp only [hchain, Bool.false_eq_true, if_false]
    unfold validateCertReceipt
    rw [toJournalsBytes_testSteel, Option.bind_eq_bind, Option.bind_some,
      hreceipt]
    rfl
  have hcheck : checkValidities testL1Head
      (canoeSteelVerifier (Sp1CC.testLibraries 1 testSerializeFitting) testSteel
        testRisc0 targetOs)
      canoeVerifierAddressFetcherDeployedByEigenLabs testSteelWitness
        = some () := by
    unfold checkValidities
    rw [if_neg (by simp [testSteelWitness]),
      show testSteelWitness.validities = [testEntry] from rfl,
      Sp1CC.certValidities_testEntry, Option.bind_eq_bind, Option.bind_some,
      hvalidated]
    rfl
  have hcount : ∀ e ∈ testSteelWitness.encodedPayloads,
      e.2.1.numFieldElement = e.1.getNumFieldElement := by
    decide +kernel
  rw [fromWitness_eq _ (by simp [testSteelWitness]) hcount hcheck]
  rfl

/-- The run over that witness, from the contract's answers and the
committed bytes. -/
theorem derives_from_steel_contract_mainnet :
    let driver : List (Option (Except PipelineErrorKind Bytes)) →
        Option Command := fun _ => some (.next (testBlock 3) testAddress)
    let items := [calldata testEntry.1]
    converse (call (listSource items) (idealProvider testL1Head
          canoeVerifierAddressFetcherDeployedByEigenLabs
          (contractVerdict testSteelEvaluate)
          fun _ _ => Sp1CC.zeroPayload.encodedPayload)) driver 1 []
        ⟨items, (), none⟩
      = some ([some (.ok [])], ⟨[], (), none⟩) :=
  derives_from_steel_contract testSteel_sound testRisc0_sound
    Sp1CC.testBatchVerify_binding _ _ _ 1 testL1Head _ testSteelWitness _
    (fromWitness_testSteelWitness .zkvm) _ _ Sp1CC.run_testWitness

end Steel

-- ================================================== the two backends

section Backends

variable {γ η κ ι ι' θ ρ : Type}

/-- `StatusCode::abi_decode` reads `SUCCESS` off the word of its number, and
off no other `uint8`. -/
def ReadsSuccess (L : Sp1CC.Libraries γ η ι) : Prop :=
  ∀ status < 256,
    L.returnsSuccess (statusReturn status) = (status == StatusCode.success.asU8)

/-- Both backends look at one contract at a head: it returns the number of
a status to both, or to neither. -/
structure OneContract (L : Sp1CC.Libraries γ η ι)
    (evaluate : η → Sp1CC.ContractInput → Option Bytes) (headerOf : B256 → η)
    (steelEvaluate : Steel.EthChainSpec → B256 → Address → CertVerifierCall →
      Option Nat) (head : L1Head) : Prop where
  /-- The head is on a chain that steel supports. -/
  spec : ∃ spec, Steel.chainSpec head.chainId = some spec
    ∧ ∀ verifierAddress c,
      (∃ status < 256,
        evaluate (headerOf head.blockHash) (Sp1CC.certCall verifierAddress c)
            = some (statusReturn status)
          ∧ steelEvaluate spec head.blockHash verifierAddress
            (CertVerifierCall.build c) = some status)
      ∨ (evaluate (headerOf head.blockHash) (Sp1CC.certCall verifierAddress c)
            = none
          ∧ steelEvaluate spec head.blockHash verifierAddress
            (CertVerifierCall.build c) = none)

/-- Then they have one verdict at that head. -/
theorem OneContract.verdict_eq {L : Sp1CC.Libraries γ η ι}
    {evaluate : η → Sp1CC.ContractInput → Option Bytes} {headerOf : B256 → η}
    {steelEvaluate : Steel.EthChainSpec → B256 → Address → CertVerifierCall →
      Option Nat} {head : L1Head} (hreads : ReadsSuccess L)
    (hone : OneContract L evaluate headerOf steelEvaluate head)
    (verifierAddress : Address) (c : AltDACommitment) :
    Sp1CC.contractVerdict L evaluate headerOf head verifierAddress c
      = Steel.contractVerdict steelEvaluate head verifierAddress c := by
  obtain ⟨spec, hspec, hcalls⟩ := hone.spec
  unfold Sp1CC.contractVerdict Steel.contractVerdict
  rw [hspec]
  rcases hcalls verifierAddress c with ⟨status, hlt, hbytes, hstatus⟩ | ⟨h, h'⟩
  · rw [hbytes]
    simp only [hstatus]
    exact hreads status hlt
  · rw [h]
    simp only [h']

/-- A witness accepted under the sp1-cc verifier and one accepted under the
steel verifier, each with a KZG backend of its own, derive the same: every
driver gets the same answers and leaves the L1 source and the kept
commitment alike. -/
theorem backends_agree {L : Sp1CC.Libraries γ η ι}
    {evaluate : η → Sp1CC.ContractInput → Option Bytes} {headerOf : B256 → η}
    (hL : L.Sound evaluate)
    (hheader : ∀ header, headerOf (L.hashSlow header) = header)
    {sha256 : Bytes → Bytes} {verifySp1Proof : Bytes → Option Unit}
    (hproofs : Sp1CC.ProofsSound L sha256 verifySp1Proof)
    {S : Steel.Libraries κ θ}
    {steelEvaluate : Steel.EthChainSpec → B256 → Address → CertVerifierCall →
      Option Nat} (hS : S.Sound steelEvaluate) {R : Steel.Risc0 ρ}
    (hreceipts : Steel.ProofsSound S R) (targetOs : Steel.TargetOs)
    {batchVerify batchVerify' : BatchVerify} {committed : Committed}
    (hkzg : KzgBinding batchVerify committed)
    (hkzg' : KzgBinding batchVerify' committed) (hreads : ReadsSuccess L)
    (head : L1Head)
    (hone : OneContract L evaluate headerOf steelEvaluate head) {σ : Type}
    (E : EthereumDataSource σ) (eth : σ)
    (driver : List (Option (Except PipelineErrorKind Bytes)) → Option Command)
    (n : Nat) (A : CanoeVerifierAddressFetcher) (w w' : EigenDAWitness)
    (pre pre' : PreloadedEigenDAPreimageProvider)
    (hw : fromWitness w head
      (Sp1CC.canoeSp1CCVerifier L sha256 verifySp1Proof) A batchVerify
        = some pre)
    (hw' : fromWitness w' head
      (Steel.canoeSteelVerifier L S R targetOs) A batchVerify' = some pre')
    (outs outs' : List (Option (Except PipelineErrorKind Bytes)))
    (s s' : EigenDADataSource σ PreloadedEigenDAPreimageProvider)
    (hrun : converse (call E provider) driver n [] ⟨eth, pre, none⟩
      = some (outs, s))
    (hrun' : converse (call E provider) driver n [] ⟨eth, pre', none⟩
      = some (outs', s')) :
    outs = outs' ∧ s.ethereumSource = s'.ethereumSource
      ∧ s.altdaCommitment = s'.altdaCommitment := by
  have hideal := run_of_accepted E eth driver n
    (Sp1CC.canoeSp1CCVerifier_sound hL hheader hproofs) hkzg hw hrun
  have hideal' := run_of_accepted E eth driver n
    (Steel.canoeSteelVerifier_sound hS hreceipts) hkzg' hw' hrun'
  -- at this head the two ideal providers are one
  have hprovider : idealProvider head A
        (Sp1CC.contractVerdict L evaluate headerOf) committed
      = idealProvider head A (Steel.contractVerdict steelEvaluate)
        committed := by
    unfold idealProvider
    simp only [hone.verdict_eq hreads]
  rw [hprovider, hideal'] at hideal
  injection hideal with hsame
  injection hsame with houts hstates
  injection hstates with heth _ hkept
  exact ⟨houts.symm, heth.symm, hkept.symm⟩

end Backends

/-- The test's decoder reads `SUCCESS` off its number alone. -/
theorem testLibraries_readsSuccess :
    ReadsSuccess (Sp1CC.testLibraries 1 Sp1CC.testSerializeFitting) := by
  intro status hstatus
  have hdecode : (Sp1CC.testLibraries 1
      Sp1CC.testSerializeFitting).abiDecodeStatusCode
        = Sp1CC.testDecodeStatusCode := rfl
  have hlen : (statusReturn status).length = 32 := length_beBytes 32 status
  have hlast : (statusReturn status).getLast?
      = some (UInt8.ofNat (status % 256)) := by
    show (beBytes 31 (status / 256)
      ++ [UInt8.ofNat (status % 256)]).getLast? = _
    rw [List.getLast?_concat]
  -- it looks at the last byte only
  unfold Sp1CC.Libraries.returnsSuccess
  rw [hdecode]
  unfold Sp1CC.testDecodeStatusCode
  rw [if_neg (by rw [hlen]; decide),
    List.take_of_length_le (le_of_eq hlen), hlast]
  clear hdecode hlen hlast
  revert status
  decide +kernel

/-- The two tests look at one contract. -/
theorem testOneContract :
    OneContract (Sp1CC.testLibraries 1 Sp1CC.testSerializeFitting)
      Sp1CC.testEvaluate (fun _ => ()) Steel.testSteelEvaluate
      Sp1CC.testL1Head :=
  ⟨.mainnet, rfl, fun _ _ => .inl ⟨1, by decide, rfl, rfl⟩⟩

/-- The two witnesses of the test, one for each backend: both derive the
empty payload. -/
theorem backends_agree_mainnet :
    [some (Except.ok (ε := PipelineErrorKind) ([] : Bytes))]
        = [some (.ok [])]
      ∧ ([] : List Bytes) = [] ∧ (none : Option AltDACommitment) = none :=
  backends_agree (Sp1CC.testLibraries_sound 1) (fun _ => rfl)
    Sp1CC.testProofs_sound Steel.testSteel_sound Steel.testRisc0_sound .other
    Sp1CC.testBatchVerify_binding Sp1CC.testBatchVerify_binding
    testLibraries_readsSuccess Sp1CC.testL1Head testOneContract _ _ _ 1 _ _ _ _
    _ Sp1CC.fromWitness_testWitness
    (Steel.fromWitness_testSteelWitness .other) _ _ _ _ Sp1CC.run_testWitness
    Sp1CC.run_testWitness

end Hokulea
