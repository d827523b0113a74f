/-
What a derivation inside the zkVM rests on: the proof system of a canoe
backend, not the prover.

# What is proved

`Sp1CC.derives_from_contract`: a witness that `from_witness` accepts
under the sp1-cc verifier derives, for any driver, what the contract's
own answers at the trusted head and the committed bytes give. Nobody who
made the witness, the state sketch or the guest's inputs has a say.

# How

The verifier aborts unless a proof of its digest was verified, and a
verified digest is one some guest run has committed to. The bytes are
then those of that run, so each claim has a guest's journal beside it:
the same commitment, address and anchor, and an output that is the
contract's answer (`verdict_of_journal`). That is `CanoeSound`, and
`run_of_accepted` carries it through the data source.
-/
import Hokulea.Proofs.Binding
import Hokulea.Proofs.CanoeBinding

namespace Hokulea

open Bytes Machine AltDACommitment EigenDADataSource
open PreloadedEigenDAPreimageProvider

-- ===================================================== sound verifiers

/-- Over an accepted witness, with sound verifiers, a run is the run over
the provider that answers from the chain and the commitments. -/
theorem run_of_accepted {σ : Type} (E : EthereumDataSource σ) (eth : σ)
    (driver : List (Option (Except PipelineErrorKind Bytes)) → Option Command)
    (n : Nat) {head : L1Head} {V : CanoeVerifier}
    {A : CanoeVerifierAddressFetcher} {batchVerify : BatchVerify}
    {verdict : Verdict} {committed : Committed} (hcanoe : CanoeSound V verdict)
    (hkzg : KzgBinding batchVerify committed) {w : EigenDAWitness}
    {pre : PreloadedEigenDAPreimageProvider}
    (hw : fromWitness w head V A batchVerify = some pre)
    {outs : List (Option (Except PipelineErrorKind Bytes))}
    {s : EigenDADataSource σ PreloadedEigenDAPreimageProvider}
    (hrun : converse (call E provider) driver n [] ⟨eth, pre, none⟩
      = some (outs, s)) :
    converse (call E (idealProvider head A verdict committed)) driver n []
        ⟨eth, (), none⟩
      = some (outs, ⟨s.ethereumSource, (), s.altdaCommitment⟩) := by
  have hsim := idealProvider_simulates head V A batchVerify hcanoe hkzg
  obtain ⟨u, hideal, -⟩ := dialogue_simulates E hsim driver n
    (s := ⟨eth, pre, none⟩) (q := ())
    (fromWitness_checked head V A batchVerify hw) hrun
  exact hideal

/-- The head a claim names. -/
def CertValidity.head (claim : CertValidity) : L1Head :=
  ⟨claim.l1HeadBlockHash, claim.l1HeadBlockNumber, claim.l1HeadBlockTimestamp,
    claim.l1ChainId⟩

-- ============================================================== sp1-cc

namespace Sp1CC

variable {γ η ι : Type}

/-- The contract's verdict at a head: its answer under the header that has
the head's hash. -/
def contractVerdict (L : Libraries γ η ι)
    (evaluate : η → ContractInput → Option Bytes) (headerOf : B256 → η) :
    Verdict := fun head verifierAddress c =>
  match evaluate (headerOf head.blockHash) (certCall verifierAddress c) with
  | some out => L.returnsSuccess out
  | none => false

/-- What the zkVM's proof system and its hash promise. -/
structure ProofsSound (L : Libraries γ η ι) (sha256 : Bytes → Bytes)
    (verifySp1Proof : Bytes → Option Unit) : Prop where
  /-- A verified digest is that of bytes some run of the pinned guest has
  committed to. -/
  committed : ∀ digest, verifySp1Proof digest = some () →
    ∃ stateSketchBytes canoeInputs bytes,
      main L stateSketchBytes canoeInputs = some bytes ∧ sha256 bytes = digest
  /-- Bytes of a guest and bytes of a verifier do not collide. -/
  digests : ∀ stateSketchBytes canoeInputs bytes claims bytes',
    main L stateSketchBytes canoeInputs = some bytes →
    toJournalsBytes L claims = some bytes' →
    sha256 bytes = sha256 bytes' → bytes = bytes'

variable {L : Libraries γ η ι} {evaluate : η → ContractInput → Option Bytes}
  {headerOf : B256 → η}

/-- A claim whose journal is a guest's is the contract's verdict. -/
theorem verdict_of_journal (hL : L.Sound evaluate)
    (hheader : ∀ header, headerOf (L.hashSlow header) = header)
    {stateSketch : ι} {executor : ClientExecutor η}
    (heth : L.eth stateSketch = some executor) {rspGenesisHash : B256}
    {number : Nat} {hash : B256} {pair : AltDACommitment × CertValidity}
    {canoeInput : CanoeInput} {publicVals : ContractPublicValues}
    {journal : Journal} (hlen : journal.input.length < 2 ^ 64)
    (hverifier : verifierJournal L pair = some journal)
    (hguest : Executed L executor rspGenesisHash number hash canoeInput
      publicVals journal) :
    pair.2.claimedValidity = contractVerdict L evaluate headerOf pair.2.head
      pair.2.verifierAddress pair.1 := by
  obtain ⟨-, -, hjournal⟩ := verifierJournal_eq_some_iff.mp hverifier
  have hfields := hguest.journal.symm.trans hjournal
  injection hfields with _ hhash haddress hinput houtput
  -- the bytes form of the commitment is the journal's input
  have hin : journal.input = canoeInput.altdaCommitment.toRlpBytes := by
    rw [hguest.journal]
  have hcommitment : canoeInput.altdaCommitment = pair.1 := by
    apply AltDACommitment.toRlpBytes_inj
    · rwa [hin] at hlen
    · rwa [hin, hinput] at hlen
    · exact hinput
  -- the header the guest ran on is the one of the claim's hash
  have hanchor := hL.anchor stateSketch executor _ publicVals heth
    hguest.executed hguest.anchorType
  have hrunsOn : headerOf pair.2.l1HeadBlockHash = executor.header := by
    rw [← hhash, ← hguest.anchorHash, hanchor]
    exact hheader executor.header
  have hexecuted := hL.execute stateSketch executor _ publicVals heth
    hguest.executed
  rw [← houtput, hguest.claim]
  unfold contractVerdict
  show _ = match evaluate (headerOf pair.2.l1HeadBlockHash) _ with
    | some out => L.returnsSuccess out
    | none => false
  rw [hrunsOn, ← haddress, ← hcommitment, hexecuted]

/-- The sp1-cc verifier accepts only lists whose claims are the contract's
verdicts. -/
theorem canoeSp1CCVerifier_sound (hL : L.Sound evaluate)
    (hheader : ∀ header, headerOf (L.hashSlow header) = header)
    {sha256 : Bytes → Bytes} {verifySp1Proof : Bytes → Option Unit}
    (hproofs : ProofsSound L sha256 verifySp1Proof) :
    CanoeSound (canoeSp1CCVerifier L sha256 verifySp1Proof)
      (contractVerdict L evaluate headerOf) := by
  intro claims proof hok c claim hmem
  -- what the verifier has gone through
  unfold canoeSp1CCVerifier at hok
  simp only [Option.bind_eq_bind] at hok
  split at hok
  · cases hok
  obtain ⟨bytes', hverifier, hok⟩ := Option.bind_eq_some_iff.mp hok
  obtain ⟨u, hverified, -⟩ := Option.bind_eq_some_iff.mp hok
  obtain ⟨stateSketchBytes, canoeInputs, bytes, hguest, hdigest⟩ :=
    hproofs.committed _ hverified
  have hbytes : bytes = bytes' :=
    hproofs.digests _ _ _ _ _ hguest hverifier hdigest
  subst hbytes
  -- the guest's journals are the verifier's
  obtain ⟨stateSketch, executor, first, rspGenesisBytes, journals, hrun⟩ :=
    main_eq_some_iff.mp hguest
  obtain ⟨journals', hrebuilt, hcommitted⟩ :=
    toJournalsBytes_eq_some_iff.mp hverifier
  have hsame : journals' = journals :=
    hL.journals_inj _ _ bytes hcommitted hrun.committed
  subst hsame
  obtain ⟨journal, hjournal, hverifierJournal⟩ :=
    exists_of_forall₂ hrebuilt hmem
  obtain ⟨canoeInput, -, publicVals, hexecuted⟩ :=
    exists_of_forall₂ hrun.executed.flip hjournal
  exact verdict_of_journal hL hheader hrun.init
    (hL.input_lt _ bytes hrun.committed _ hjournal) hverifierJournal hexecuted

/-- Whatever the witness, the proofs handed to the zkVM and the driver: a
derivation over a provider that `from_witness` returned under the sp1-cc
verifier is the derivation from the contract's verdicts at the trusted
head and the committed bytes. -/
theorem derives_from_contract (hL : L.Sound evaluate)
    (hheader : ∀ header, headerOf (L.hashSlow header) = header)
    {sha256 : Bytes → Bytes} {verifySp1Proof : Bytes → Option Unit}
    (hproofs : ProofsSound L sha256 verifySp1Proof)
    {batchVerify : BatchVerify} {committed : Committed}
    (hkzg : KzgBinding batchVerify committed) {σ : Type}
    (E : EthereumDataSource σ) (eth : σ)
    (driver : List (Option (Except PipelineErrorKind Bytes)) → Option Command)
    (n : Nat) (head : L1Head) (A : CanoeVerifierAddressFetcher)
    (w : EigenDAWitness) (pre : PreloadedEigenDAPreimageProvider)
    (hw : fromWitness w head (canoeSp1CCVerifier L sha256 verifySp1Proof) A
      batchVerify = some pre)
    (outs : List (Option (Except PipelineErrorKind Bytes)))
    (s : EigenDADataSource σ PreloadedEigenDAPreimageProvider)
    (hrun : converse (call E provider) driver n [] ⟨eth, pre, none⟩
      = some (outs, s)) :
    converse (call E (idealProvider head A
          (contractVerdict L evaluate headerOf) committed)) driver n []
        ⟨eth, (), none⟩
      = some (outs, ⟨s.ethereumSource, (), s.altdaCommitment⟩) :=
  run_of_accepted E eth driver n (canoeSp1CCVerifier_sound hL hheader hproofs)
    hkzg hw hrun

-- ----------------------------------------------------- a concrete run

/-- A proof system that has one proof, of the journal of the entry. -/
def testVerifySp1Proof (digest : Bytes) : Option Unit :=
  if digest = journalEncoder.vec.encode [testJournal] then some () else none

/-- The proof is of a guest's run, and the digests are the bytes. -/
theorem testProofs_sound :
    ProofsSound (testLibraries 1 testSerializeFitting) id testVerifySp1Proof where
  committed digest h := by
    unfold testVerifySp1Proof at h
    split at h
    case isFalse => cases h
    case isTrue hdigest => exact ⟨_, _, _, main_testEntry, hdigest.symm⟩
  digests _ _ _ _ _ _ _ h := h

/-- The encoding of the empty payload, one element. -/
def zeroPayload : EncodedPayload := ⟨List.replicate 32 0⟩

/-- A backend that accepts this payload and nothing else. -/
def testBatchVerify : BatchVerify := fun blobs _ _ =>
  some (blobs.all fun blob => blob == zeroPayload.encodedPayload)

theorem testBatchVerify_binding :
    KzgBinding testBatchVerify fun _ _ => zeroPayload.encodedPayload := by
  intro blobs commitments proofs hok i blob commitment hblob _
  have hall := List.all_eq_true.mp (Option.some.inj hok) blob
    (List.mem_of_getElem? hblob)
  rw [beq_iff_eq.mp hall]
  exact ⟨rfl, rfl⟩

/-- The verifier accepts the claim of the entry, whatever else comes with
it. -/
theorem validateCertReceipt_testEntry (proof : Option Bytes) :
    (canoeSp1CCVerifier (testLibraries 1 testSerializeFitting) id
        testVerifySp1Proof).validateCertReceipt
        [claimOf testL1Head testAddr testEntry] proof = some (.ok ()) := by
  have hverified : testVerifySp1Proof
      (id (journalEncoder.vec.encode [testJournal])) = some () := by
    rw [testVerifySp1Proof, id_eq, if_pos rfl]
  unfold canoeSp1CCVerifier
  simp only [List.isEmpty_cons, Bool.false_eq_true, if_false,
    toJournalsBytes_testEntry, Option.bind_eq_bind, Option.bind_some,
    hverified]
  rfl

/-- The entry and the payload. -/
def testWitness : EigenDAWitness where
  validities := [testEntry]
  encodedPayloads := [(testEntry.1, zeroPayload, testProof)]
  canoeProofBytes := none

theorem fromWitness_testWitness :
    fromWitness testWitness testL1Head
        (canoeSp1CCVerifier (testLibraries 1 testSerializeFitting) id
          testVerifySp1Proof)
        canoeVerifierAddressFetcherDeployedByEigenLabs testBatchVerify
      = some (holding [testEntry] [(testEntry.1, zeroPayload)]) := by
  have hcheck : checkValidities testL1Head
      (canoeSp1CCVerifier (testLibraries 1 testSerializeFitting) id
        testVerifySp1Proof)
      canoeVerifierAddressFetcherDeployedByEigenLabs testWitness = some () := by
    unfold checkValidities
    rw [if_neg (by decide), show testWitness.validities = [testEntry] from rfl,
      certValidities_testEntry, Option.bind_eq_bind, Option.bind_some,
      validateCertReceipt_testEntry]
    rfl
  have hcount : ∀ e ∈ testWitness.encodedPayloads,
      e.2.1.numFieldElement = e.1.getNumFieldElement := by
    decide +kernel
  rw [fromWitness_eq _ (by decide) hcount hcheck]
  rfl

/-- The call over that witness: the block's commitment is decoded to its
empty payload. -/
theorem next_testWitness :
    next (listSource [calldata testEntry.1]) provider (testBlock 3) testAddress
        ⟨[calldata testEntry.1],
          holding [testEntry] [(testEntry.1, zeroPayload)], none⟩
      = some (.ok [], ⟨[], holding [] [], none⟩) := by
  have hparse : EigenDAPreimageSource.parse (calldata testEntry.1)
      = .ok testEntry.1 := parse_calldata rfl rfl (by decide +kernel)
  have hrecent : checkRecency testEntry.1 3 = .ok () := by decide +kernel
  have hdecode : zeroPayload.decode = some (.ok []) := by decide +kernel
  have hentry : testEntry = (testEntry.1, true) := rfl
  apply next_of_done
  rw [nextBody_commitment _ _ _ _ rfl rfl hparse, hentry]
  simp [process, EigenDAPreimageSource.next, getValidity_holding,
    getEncodedPayload_holding, testBlock, hrecent, hdecode]

/-- The run of that call. -/
theorem run_testWitness :
    let driver : List (Option (Except PipelineErrorKind Bytes)) →
        Option Command := fun _ => some (.next (testBlock 3) testAddress)
    let items := [calldata testEntry.1]
    converse (call (listSource items) provider) driver 1 []
        ⟨items, holding [testEntry] [(testEntry.1, zeroPayload)],
          none⟩
      = some ([some (.ok [])], ⟨[], holding [] [], none⟩) := by
  intro driver items
  simp [converse, driver, items, call, next_testWitness]

/-- And so the contract's answers and the committed bytes give it. -/
theorem derives_from_contract_mainnet :
    let driver : List (Option (Except PipelineErrorKind Bytes)) →
        Option Command := fun _ => some (.next (testBlock 3) testAddress)
    let items := [calldata testEntry.1]
    converse (call (listSource items) (idealProvider testL1Head
          canoeVerifierAddressFetcherDeployedByEigenLabs
          (contractVerdict (testLibraries 1 testSerializeFitting) testEvaluate
            fun _ => ()) fun _ _ => zeroPayload.encodedPayload)) driver 1 []
        ⟨items, (), none⟩
      = some ([some (.ok [])], ⟨[], (), none⟩) :=
  derives_from_contract (testLibraries_sound 1) (fun _ => rfl) testProofs_sound
    testBatchVerify_binding _ _ _ 1 testL1Head _ testWitness _
    fromWitness_testWitness _ _ run_testWitness

end Sp1CC

end Hokulea
