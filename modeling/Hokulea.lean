import Hokulea.Lib.Bytes
import Hokulea.Lib.Rlp
import Hokulea.EigendaCert.Types
import Hokulea.EigendaCert.AltDACommitment
import Hokulea.Eigenda.Errors
import Hokulea.Eigenda.EncodedPayload
import Hokulea.Proofs.PayloadCodec
import Hokulea.Lib.Machine
import Hokulea.Eigenda.Preimage
import Hokulea.Proofs.Parsing
import Hokulea.Eigenda.DataSource
import Hokulea.Eigenda.TestUtils
import Hokulea.Proofs.Derivation
import Hokulea.Canoe.Verifier
import Hokulea.Proof.Witness
import Hokulea.Proof.Preloaded
import Hokulea.Witgen.Recorder
import Hokulea.Proofs.Simulation
import Hokulea.Proofs.BlockScope
import Hokulea.Proofs.Replay
import Hokulea.Proofs.ExactReplay
import Hokulea.Proofs.Binding
import Hokulea.Lib.Primality
import Hokulea.Lib.CubicCurve
import Hokulea.Lib.Montgomery
import Hokulea.Kzg.Bn254
import Hokulea.Lib.PowerSum
import Hokulea.Lib.EvalForm
import Hokulea.Kzg.Consts
import Hokulea.Kzg.Helpers
import Hokulea.Kzg.Batch
import Hokulea.Proofs.BatchEquation
import Hokulea.Proofs.Domain
import Hokulea.Proofs.Evaluation
import Hokulea.Proofs.Transcript
import Hokulea.Proofs.TranscriptBinding
import Hokulea.Proofs.BlobParsing
import Hokulea.Kzg.ComputeProof
import Hokulea.Proofs.Completeness
import Hokulea.Proofs.Forgery
import Hokulea.Proofs.Twins
import Hokulea.Proofs.PayloadBinding
import Hokulea.Lib.Abi
import Hokulea.Lib.AbiTyped
import Hokulea.Lib.Bincode
import Hokulea.Canoe.Provider
import Hokulea.Proofs.CertCall
import Hokulea.Canoe.Sp1CC
import Hokulea.Proofs.CanoeJournals
import Hokulea.Proofs.CanoeAcceptance
import Hokulea.Proofs.CanoeBinding
import Hokulea.Proofs.CanoeSoundness
import Hokulea.Canoe.Steel
import Hokulea.Proofs.CanoeVerdicts
import Hokulea.Canoe.SteelVerifier
import Hokulea.Proofs.SteelSoundness
import Hokulea.Proofs.SteelAcceptance
import Hokulea.Host.EigendaPreimage
import Hokulea.Proof.EigendaProvider
import Hokulea.Host.Handler
import Hokulea.Proofs.HintStore
import Hokulea.Proofs.HostRoutes
import Hokulea.Proofs.OnlineProvider
import Hokulea.Host.Race
import Hokulea.Proofs.Race
import Hokulea.Proofs.Recording
import Hokulea.Proofs.OneCall
import Hokulea.Client.FaultProof
import Hokulea.Client.Preloader
import Hokulea.Proofs.Pipeline
import Hokulea.Proofs.NodeAgreement
import Hokulea.Proofs.RaceReplay
