/-
What the equality of journal bytes gives the verifier, against any
prover: sketch and inputs are the adversary's.

# The argument

The bytes determine the journals, so at each index the guest's journal
is the one rebuilt from the claim. Each field then carries one fact
across: `input` the commitment, since the bytes form of a commitment
determines it; the address, the chain id, the head's number and hash
as they are; `output` the claim, which the guest has compared with the
contract's answer.

# The assumptions

`Libraries.Sound`: bincode is injective; an execution is determined by
header, address and call, and is anchored at the hash of the header it
ran on.
-/
import Hokulea.Proofs.Parsing
import Hokulea.Proofs.CanoeAcceptance

namespace Hokulea.Sp1CC

open Bytes PreloadedEigenDAPreimageProvider

variable {γ η ι : Type}

/-- What the binding rests on. `evaluate` is what the chain's state
under a header makes of a call. -/
structure Libraries.Sound (L : Libraries γ η ι)
    (evaluate : η → ContractInput → Option Bytes) : Prop where
  /-- bincode is injective. -/
  journals_inj : ∀ (journals journals' : List Journal) (bytes : Bytes),
    L.serializeJournals journals = some bytes →
    L.serializeJournals journals' = some bytes → journals = journals'
  /-- It writes lengths in eight bytes. -/
  input_lt : ∀ (journals : List Journal) (bytes : Bytes),
    L.serializeJournals journals = some bytes →
    ∀ journal ∈ journals, journal.input.length < 2 ^ 64
  /-- Results are determined by header, address and call. -/
  execute : ∀ (stateSketch : ι) (executor : ClientExecutor η)
    (call : ContractInput) (publicVals : ContractPublicValues),
    L.eth stateSketch = some executor →
    executor.execute call = some publicVals →
    evaluate executor.header call = some publicVals.contractOutput
  /-- An anchor that is a block hash is the hash of the header. -/
  anchor : ∀ (stateSketch : ι) (executor : ClientExecutor η)
    (call : ContractInput) (publicVals : ContractPublicValues),
    L.eth stateSketch = some executor →
    executor.execute call = some publicVals →
    publicVals.anchorType = .blockHash →
    publicVals.anchorHash = L.hashSlow executor.header

/-- An entry of the witness is bound to the guest's input: the claim
is the contract's answer for the entry's own commitment, at the
address fetched for it. -/
structure Bound (L : Libraries γ η ι)
    (evaluate : η → ContractInput → Option Bytes)
    (A : CanoeVerifierAddressFetcher) (head : L1Head) (header : η)
    (entry : AltDACommitment × Bool) (canoeInput : CanoeInput) : Prop where
  commitment : canoeInput.altdaCommitment = entry.1
  address : A.fetchAddress head.chainId entry.1.versionedCert
    = .ok canoeInput.verifierAddress
  claim : canoeInput.claimedValidity = entry.2
  evaluated : ∃ out,
    evaluate header (certCall canoeInput.verifierAddress entry.1) = some out
      ∧ entry.2 = L.returnsSuccess out

variable {L : Libraries γ η ι} {evaluate : η → ContractInput → Option Bytes}
  {A : CanoeVerifierAddressFetcher} {head : L1Head}

/-- One index: a guest's journal that is also the verifier's. -/
theorem bound_of_journal (hL : L.Sound evaluate) {stateSketch : ι}
    {executor : ClientExecutor η} (heth : L.eth stateSketch = some executor)
    {rspGenesisHash : B256} {number : Nat} {hash : B256}
    {entry : AltDACommitment × Bool} {claim : AltDACommitment × CertValidity}
    {canoeInput : CanoeInput} {publicVals : ContractPublicValues}
    {journal : Journal} (hlen : journal.input.length < 2 ^ 64)
    (hclaim : certValidity head A entry = some claim)
    (hverifier : verifierJournal L claim = some journal)
    (hguest : Executed L executor rspGenesisHash number hash canoeInput
      publicVals journal) :
    Bound L evaluate A head executor.header entry canoeInput
      ∧ executor.chainId = head.chainId ∧ number = head.blockNumber
      ∧ L.hashSlow executor.header = head.blockHash := by
  obtain ⟨hfetch, hclaim⟩ := certValidity_eq_some_iff.mp hclaim
  obtain ⟨-, -, hjournal⟩ := verifierJournal_eq_some_iff.mp hverifier
  have hfields := hguest.journal.symm.trans hjournal
  rw [hclaim] at hfields
  injection hfields with hnumber hhash haddress hinput houtput hchain
  -- the bytes form of the commitment is the journal's input
  have hin : journal.input = canoeInput.altdaCommitment.toRlpBytes := by
    rw [hguest.journal]
  have hcommitment : canoeInput.altdaCommitment = entry.1 := by
    apply AltDACommitment.toRlpBytes_inj
    · rwa [hin] at hlen
    · rwa [hin, hinput] at hlen
    · exact hinput
  have hexecuted := hL.execute stateSketch executor _ publicVals heth
    hguest.executed
  have hanchor := hL.anchor stateSketch executor _ publicVals heth
    hguest.executed hguest.anchorType
  refine ⟨⟨hcommitment, ?_, houtput, publicVals.contractOutput, ?_, ?_⟩, hchain,
    hnumber, ?_⟩
  · rw [haddress]
    exact hfetch
  · rw [← hcommitment]
    exact hexecuted
  · exact houtput.symm.trans hguest.claim
  · rw [← hanchor, hguest.anchorHash]
    exact hhash

/-- All indices, the two journal lists being one. -/
theorem bound_of_journals (hL : L.Sound evaluate) {stateSketch : ι}
    {executor : ClientExecutor η} (heth : L.eth stateSketch = some executor)
    {rspGenesisHash : B256} {number : Nat} {hash : B256}
    {validities : List (AltDACommitment × Bool)}
    {claims : List (AltDACommitment × CertValidity)}
    {canoeInputs : List CanoeInput} {journals : List Journal}
    (hlen : ∀ journal ∈ journals, journal.input.length < 2 ^ 64)
    (hclaims : List.Forall₂
      (fun entry claim => certValidity head A entry = some claim)
      validities claims)
    (hverifier : List.Forall₂
      (fun claim journal => verifierJournal L claim = some journal)
      claims journals)
    (hguest : List.Forall₂
      (fun canoeInput journal => ∃ publicVals, Executed L executor
        rspGenesisHash number hash canoeInput publicVals journal)
      canoeInputs journals) :
    List.Forall₂ (Bound L evaluate A head executor.header) validities canoeInputs
      ∧ (validities ≠ [] → executor.chainId = head.chainId
        ∧ number = head.blockNumber
        ∧ L.hashSlow executor.header = head.blockHash) := by
  induction hclaims generalizing canoeInputs journals with
  | nil =>
      cases hverifier
      cases hguest
      exact ⟨.nil, fun h => absurd rfl h⟩
  | cons hclaim _ ih =>
      cases hverifier with
      | cons hjournal hrest =>
          cases hguest with
          | cons hexec hexecs =>
              obtain ⟨publicVals, hexec⟩ := hexec
              obtain ⟨hbound, htrusted⟩ := bound_of_journal hL heth
                (hlen _ (by simp)) hclaim hjournal hexec
              obtain ⟨hrest, -⟩ := ih (fun j hj => hlen j (by simp [hj]))
                hrest hexecs
              exact ⟨.cons hbound hrest, fun _ => htrusted⟩

/-- A guest that commits to the bytes the verifier rebuilds has
evaluated the witness's own commitments, each at the address fetched
for it, on the trusted chain and head, and found every claim true:
whatever sketch and inputs it was given. -/
theorem journals_bind_claims (hL : L.Sound evaluate)
    {validities : List (AltDACommitment × Bool)}
    {claims : List (AltDACommitment × CertValidity)}
    {stateSketchBytes : Bytes} {canoeInputs : List CanoeInput} {bytes : Bytes}
    (hclaims : certValidities head A validities = some claims)
    (hguest : main L stateSketchBytes canoeInputs = some bytes)
    (hverifier : toJournalsBytes L claims = some bytes) :
    validities.length = canoeInputs.length
      ∧ ∃ stateSketch executor,
          L.deserializeSketch stateSketchBytes = some stateSketch
          ∧ L.eth stateSketch = some executor
          ∧ executor.chainId = head.chainId
          ∧ L.number executor.header = head.blockNumber
          ∧ L.hashSlow executor.header = head.blockHash
          ∧ List.Forall₂ (Bound L evaluate A head executor.header)
              validities canoeInputs := by
  obtain ⟨stateSketch, executor, first, rspGenesisBytes, journals, hrun⟩ :=
    main_eq_some_iff.mp hguest
  obtain ⟨journals', hrebuilt, hcommitted⟩ :=
    toJournalsBytes_eq_some_iff.mp hverifier
  have hsame : journals' = journals :=
    hL.journals_inj _ _ bytes hcommitted hrun.committed
  subst hsame
  obtain ⟨hbound, htrusted⟩ := bound_of_journals hL hrun.init
    (hL.input_lt _ bytes hrun.committed) (certValidities_forall₂ hclaims)
    hrebuilt hrun.executed
  -- the guest refuses an empty list
  have hne : validities ≠ [] := by
    intro hnil
    have hempty : canoeInputs = [] := by
      rw [hnil] at hbound
      cases hbound
      rfl
    have hhead := hrun.head
    rw [hempty] at hhead
    cases hhead
  obtain ⟨hchain, hnumber, hhash⟩ := htrusted hne
  exact ⟨hbound.length_eq, stateSketch, executor, hrun.readSketch, hrun.init,
    hchain, hrun.number.symm.trans hnumber, hhash, hbound⟩

-- ================================================== a concrete run

/-- `bincode::serialize` of the journals; what has no eight-byte
length is not written. -/
def testSerializeFitting (journals : List Journal) : Option Bytes :=
  if journalEncoder.vec.fits journals then
    some (journalEncoder.vec.encode journals)
  else none

/-- The test libraries meet the assumptions. -/
theorem testLibraries_sound (chainId : Nat) :
    (testLibraries chainId testSerializeFitting).Sound testEvaluate where
  journals_inj journals journals' bytes h h' := by
    change testSerializeFitting journals = some bytes at h
    change testSerializeFitting journals' = some bytes at h'
    unfold testSerializeFitting at h h'
    split at h
    case isFalse => cases h
    case isTrue hfits =>
      split at h'
      case isFalse => cases h'
      case isTrue hfits' =>
        exact journalEncoder.vec.encode_inj hfits hfits'
          ((Option.some.inj h).trans (Option.some.inj h').symm)
  input_lt journals bytes h journal hmem := by
    change testSerializeFitting journals = some bytes at h
    unfold testSerializeFitting at h
    split at h
    case isFalse => cases h
    case isTrue hfits =>
      have hall := (Bool.and_eq_true_iff.mp hfits).2
      have hfit := List.all_eq_true.mp hall journal hmem
      simp only [journalEncoder, Bincode.Encoder.comap, Bincode.Encoder.seq,
        Bincode.Encoder.bytes, Bincode.Encoder.bool, Bincode.Encoder.u64,
        Bool.and_eq_true, decide_eq_true_eq] at hfit
      exact hfit.2.2.2.1
  execute _ executor _ _ heth h := by
    rw [← Option.some.inj heth] at h ⊢
    rw [← Option.some.inj h]
    rfl
  anchor _ executor _ _ heth h _ := by
    rw [← Option.some.inj heth] at h ⊢
    rw [← Option.some.inj h]
    rfl

/-- The trusted head of the test. -/
def testL1Head : L1Head :=
  l1Head (testLibraries 1 testSerializeFitting) 1 ()

/-- A valid certificate, and the address of mainnet's router. -/
def testEntry : AltDACommitment × Bool :=
  (AltDACommitment.zeroCommitment 0 1, true)

def testAddr (_ : AltDACommitment × Bool) : Address :=
  address 0x1be7258230250Bc6a4548F8D59d576a87D216C12

/-- The journal both sides have for it. -/
def testJournal : Journal :=
  journalOf testL1Head testAddr (testKeccak256 [0, 0, 0, 0])
    (testKeccak256 (beBytes 32 1 ++ "Prague".toUTF8.data.toList)) testEntry

theorem serializeJournals_testJournal :
    (testLibraries 1 testSerializeFitting).serializeJournals [testJournal]
      = some (journalEncoder.vec.encode [testJournal]) := by
  have haddressable : (AltDACommitment.zeroCommitment 0 1).Addressable := by
    decide +kernel
  have hinput : testJournal.input.length < 2 ^ 64 := haddressable
  have hfits : journalEncoder.vec.fits [testJournal] = true := by
    simp only [journalEncoder, Bincode.Encoder.vec, Bincode.Encoder.comap,
      Bincode.Encoder.seq, Bincode.Encoder.bytes, Bincode.Encoder.bool,
      Bincode.Encoder.u64, List.all_cons, List.all_nil, Bool.and_true,
      Bool.true_and, Bool.and_eq_true, decide_eq_true_eq]
    exact ⟨by simp, by decide, by decide, by decide, hinput, by decide,
      by decide, by decide⟩
  simp only [testLibraries]
  rw [testSerializeFitting, if_pos hfits]

theorem certValidities_testEntry :
    certValidities testL1Head canoeVerifierAddressFetcherDeployedByEigenLabs
        [testEntry]
      = some [claimOf testL1Head testAddr testEntry] := by
  refine @certValidities_eq testL1Head _ testAddr [testEntry] ?_
  intro entry hentry
  rw [List.mem_singleton.mp hentry]
  show certVerifierAddressAbiEncodeInterface 1 = _
  unfold certVerifierAddressAbiEncodeInterface
  rw [if_pos rfl, testAddr]

theorem main_testEntry :
    main (testLibraries 1 testSerializeFitting) [0]
        [inputOf testL1Head testAddr testEntry]
      = some (journalEncoder.vec.encode [testJournal]) := by
  refine main_eq_some_iff.mpr ⟨.mainnet, testExecutor 1,
    inputOf testL1Head testAddr testEntry, [0, 0, 0, 0], [testJournal], rfl, rfl,
    by simp [sharesHead], rfl, rfl, rfl, rfl, ?_,
    serializeJournals_testJournal⟩
  have hsuccess : true
      = (testLibraries 1 testSerializeFitting).returnsSuccess (statusWord 1) := by
    decide
  have hexecuted : Executed (testLibraries 1 testSerializeFitting)
      (testExecutor 1) (testKeccak256 [0, 0, 0, 0]) 22431084
      (b256 7) (inputOf testL1Head testAddr testEntry)
      (testPublicValues 1) testJournal :=
    { executed := rfl
      anchorType := rfl
      claim := hsuccess
      anchorHash := rfl
      journal := rfl }
  exact .cons ⟨testPublicValues 1, hexecuted⟩ .nil

theorem toJournalsBytes_testEntry :
    toJournalsBytes (testLibraries 1 testSerializeFitting)
        [claimOf testL1Head testAddr testEntry]
      = some (journalEncoder.vec.encode [testJournal]) := by
  refine toJournalsBytes_eq_some_iff.mpr ⟨[testJournal], ?_,
    serializeJournals_testJournal⟩
  refine .cons (verifierJournal_eq_some_iff.mpr ⟨?_, ?_, rfl⟩) .nil
  · rfl
  · rfl

/-- One valid certificate on mainnet. -/
theorem journals_bind_claims_mainnet :
    List.Forall₂
      (Bound (testLibraries 1 testSerializeFitting) testEvaluate
        canoeVerifierAddressFetcherDeployedByEigenLabs testL1Head ())
      [testEntry] [inputOf testL1Head testAddr testEntry] := by
  obtain ⟨-, stateSketch, executor, -, heth, -, -, -, hbound⟩ :=
    journals_bind_claims (testLibraries_sound 1) certValidities_testEntry
      main_testEntry toJournalsBytes_testEntry
  exact hbound

end Hokulea.Sp1CC
