import Eef.Lib.Result
import Eef.Lib.Assoc
import Eef.Lib.Json
import Eef.Lib.Run
import Eef.Lib.Table
import Eef.Lib.Lists
import Eef.Lib.Chain
import Eef.Lib.Versioned
import Eef.Lib.SortedMap
import Eef.Lib.Block
import Eef.Lib.Dependency
import Eef.Lib.Checked
import Eef.Lib.Riff
import Eef.Lib.Lines
import Eef.Node.Identity
import Eef.Node.Grant
import Eef.Node.Operation
import Eef.Node.Pipeline
import Eef.Node.Conditional
import Eef.Node.Admission
import Eef.Node.PipelineRuntime
import Eef.Node.GrantReport
import Eef.Node.PipelineEvidence
import Eef.Node.EvidenceSound
import Eef.Node.Lease
import Eef.Node.LeaseProtocol
import Eef.Node.LeaseAgreement
import Eef.Node.Workload
import Eef.Node.Events
import Eef.Node.PipelineProgress
import Eef.Node.Journal
import Eef.Node.EventJournal
import Eef.Node.Ledger
import Eef.Node.LedgerEffects
import Eef.Node.Replay
import Eef.Node.StopFence
import Eef.Node.EventChain
import Eef.Node.Readers
import Eef.Node.WorkloadInv
import Eef.Node.EventIntegrity
import Eef.Node.FilterAgreement
import Eef.Node.Budget
import Eef.Node.Listening
import Eef.Node.SessionOutput
import Eef.Node.PeerChannel
import Eef.Node.ModelServer
import Eef.Node.ModelCustody
import Eef.Node.ModelPins
import Eef.Node.ModelControl
import Eef.Node.ModelLifecycle
import Eef.Node.ModelReceipts
import Eef.Node.ModelCommands
import Eef.Node.ModelBootstrap
import Eef.Node.ConfigRevisions
import Eef.Node.Network
import Eef.Node.Authentication
import Eef.Node.Handshake
import Eef.Node.AuthReplay
import Eef.Node.RepairReceipts
import Eef.Node.RepairJournal
import Eef.Node.RepairAttempts
import Eef.Node.RepairEvidence
import Eef.Node.ModelVerification
import Eef.Node.DownloadAgreement
import Eef.Node.PullProgress
import Eef.Node.PullChunks
import Eef.Node.HttpTarget
import Eef.Node.PeerAudio
import Eef.Node.AudioChunks
import Eef.Node.AudioCanonical
import Eef.Coordinator.Verification
import Eef.Coordinator.SetupChecks
import Eef.Coordinator.SetupWorkers
import Eef.Coordinator.SetupOnce
import Eef.Coordinator.VerificationOnce
import Eef.Coordinator.Config
import Eef.Coordinator.Credentials
import Eef.Coordinator.Trust
import Eef.Coordinator.Plan
import Eef.Coordinator.Approval
import Eef.Coordinator.Peer
import Eef.Coordinator.Execution
import Eef.Coordinator.Transitions
import Eef.Coordinator.Executed
import Eef.Coordinator.Attempts
import Eef.Coordinator.Reports
import Eef.Coordinator.Stops
import Eef.Coordinator.Issuance
import Eef.Coordinator.Review
import Eef.Coordinator.Tracking
import Eef.Coordinator.Reviewed
import Eef.Coordinator.Engine
import Eef.Coordinator.Paired
import Eef.Coordinator.Registry
import Eef.Coordinator.Documents
import Eef.Coordinator.Automation
import Eef.Coordinator.Recurrence
import Eef.Coordinator.Store
import Eef.Coordinator.Quota
import Eef.Coordinator.JobValidation
import Eef.Coordinator.Commands
import Eef.Coordinator.JobAdmission
import Eef.Coordinator.ScheduleFence
import Eef.Coordinator.Timer
import Eef.Node.Updates
import Eef.Node.PipelineRetention
import Eef.Node.PipelineTrace
import Eef.Node.PipelineEmission
import Eef.Node.PipelineClock
import Eef.Node.InstallerRoundTrip
import Eef.Coordinator.DiscoveryCommands
import Eef.Coordinator.DiscoveryDisclosure
import Eef.Node.ArtifactTransfer
import Eef.Node.ArtifactMoments
import Eef.Coordinator.JournalAudit
import Eef.Coordinator.JournalPolicies
import Eef.Coordinator.JournalSchedules
import Eef.Coordinator.JournalWork
import Eef.Coordinator.JournalRuns
import Eef.Coordinator.JournalBudgets
import Eef.Coordinator.JournalOccurrences
import Eef.Coordinator.JournalPacing
import Eef.Coordinator.ScheduleLedger
import Eef.Coordinator.JournalAuthority
import Eef.Coordinator.ReviewRuns
