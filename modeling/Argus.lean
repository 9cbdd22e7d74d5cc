import Argus.Lib.Interaction
import Argus.Lib.Machine
import Argus.Lib.Ieee
import Argus.Lib.Monitor
import Argus.Lib.Window
import Argus.Domain.Value
import Argus.Domain.Capability
import Argus.Domain.Authorization
import Argus.Domain.Plan
import Argus.Domain.CloudCommand
import Argus.Domain.Autonomy
import Argus.Policy.Approval
import Argus.Policy.Autopilot
import Argus.Policy.AutopilotRuns
import Argus.Policy.ApprovalUse
import Argus.Policy.Bootstrap
import Argus.Policy.Budget
import Argus.Policy.Escalation
import Argus.Daemon.Ports
import Argus.Daemon.Control
import Argus.Daemon.ControlTargets
import Argus.Daemon.ControlSteps
import Argus.Daemon.ControlAuthorization
import Argus.Daemon.ControlOutcome
import Argus.Daemon.ControlRollback
import Argus.Daemon.ControlAccounting
import Argus.Daemon.SharedBudget
import Argus.Daemon.CloudCommand
import Argus.Daemon.CloudCommandOnce
import Argus.Daemon.CloudCommandClosed
import Argus.Daemon.CloudCommandLadder
import Argus.Daemon.CloudCommandReport
import Argus.Daemon.Dispatch
import Argus.Executor.Privileged
import Argus.Daemon.ControlLedger
import Argus.Daemon.Remediation
import Argus.Daemon.Autonomy
import Argus.Daemon.AutonomyHistory
import Argus.Daemon.AutonomyRestart
import Argus.Daemon.SelfObservability
import Argus.Daemon.ValidatedEvidence
import Argus.Daemon.ServiceGuard
import Argus.Daemon.BrainControl
import Argus.Decision.HostHealth
import Argus.Daemon.Situation
import Argus.Daemon.Brain
import Argus.Daemon.BrainDedup
import Argus.Daemon.BrainExclusion
import Argus.Daemon.BrainRecurrence
import Argus.Daemon.BrainMemory
import Argus.Daemon.PendingApprovals
import Argus.Cloud.Buffer
import Argus.Cloud.QueueAccounting
import Argus.Cloud.Records
import Argus.Daemon.CloudSession
import Argus.Daemon.CloudCustody
import Argus.Daemon.CloudOrder
import Argus.Daemon.CloudLedger
import Argus.Daemon.CloudUsage
import Argus.Daemon.CloudAttempts
import Argus.Lib.Keyed
import Argus.Domain.Registry
import Argus.Daemon.McpConfig
import Argus.Daemon.McpWiring
import Argus.Daemon.McpTopology
import Argus.Daemon.McpRegistry
import Argus.Daemon.McpClient
import Argus.Daemon.McpAgreement
import Argus.Daemon.ConfigDelivery
import Argus.Daemon.ConfigAtomicity
import Argus.Daemon.ConfigVersions
import Argus.Daemon.ConfigLevers
import Argus.Daemon.ConfigSettings
import Argus.Runbooks.Promotion
import Argus.Runbooks.Library
import Argus.Daemon.Runbooks
import Argus.Daemon.RunbookLadder
import Argus.Daemon.RunbookOrder
import Argus.Daemon.RunbookSections
import Argus.Daemon.RunbookSerial
import Argus.Daemon.Procedures
import Argus.Daemon.ProcedureOrigins
import Argus.Daemon.ProcedureCredit
import Argus.Daemon.ProcedureClimb
import Argus.Daemon.Enrollment
import Argus.Daemon.EnrollmentKeys
import Argus.Daemon.CloudTenancy
import Argus.Daemon.CloudForget
import Argus.Lib.Semver
import Argus.Cloud.Handshake
import Argus.Cloud.Pairing
import Argus.Daemon.CloudSupervise
import Argus.Daemon.CloudApprovals
import Argus.Daemon.CloudStatus
import Argus.Daemon.CloudSurface
import Argus.Daemon.HostScope
import Argus.Daemon.ControlRecords
import Argus.Daemon.LedgerCycles
import Argus.Decision.Validate
import Argus.Daemon.ProviderHealth
import Argus.Cloud.Redact
import Argus.Daemon.LedgerUpload
import Argus.Runbooks.Ladder
import Argus.Daemon.McpReconcile
import Argus.Cloud.Traces
import Argus.Daemon.UsageTotals
import Argus.Daemon.Heartbeat
import Argus.Daemon.ConfigFields
import Argus.Daemon.Observe
import Argus.Lib.Rfc3339
import Argus.Lib.Table
import Argus.State.Sqlite
import Argus.State.Ledger
import Argus.State.History
import Argus.Domain.Mask
import Argus.Cloud.RedactLines
import Argus.Cloud.RedactPasses
import Argus.Cloud.RedactHeaders
import Argus.Cloud.RedactMarks
import Argus.Cloud.RedactRuns
import Argus.Cloud.RedactResidue
import Argus.Cloud.RedactTwice
import Argus.Cloud.RedactStructure
import Argus.Decision.ContextMasking
import Argus.Daemon.LedgerBounds
import Argus.Daemon.ProcedurePlan
import Argus.Daemon.EnrollmentFailure
import Argus.State.Observations
import Argus.Executor.Cluster
import Argus.Domain.Conformance
import Argus.Decision.CanonicalKey
import Argus.Cloud.Batches
import Argus.Daemon.LifecycleAnomalies
import Argus.Lib.Paths
import Argus.Executor.CgroupPaths
import Argus.Lib.Checked
import Argus.Daemon.Reconnect
import Argus.Sensors.Text
import Argus.Sensors.Proc
import Argus.Sensors.Usage
import Argus.Lib.Utf8
import Argus.Container.HttpParse
import Argus.Container.Chunks
import Argus.Container.SyncClient
import Argus.Daemon.PrivilegedLimiter
import Argus.Lib.Traversal
import Argus.Correlate.Graph
import Argus.Correlate.Nearest
import Argus.Policy.ContextHash
import Argus.Daemon.Sentinel
import Argus.Decision.MapAnswers
import Argus.Correlate.Situations
import Argus.Lib.Selection
import Argus.Investigate.Engine
import Argus.Kubernetes.Bundle
import Argus.Kubernetes.MergePatch
import Argus.Kubernetes.Rollback
import Argus.Lib.Pointwise
import Argus.Lib.Framing
import Argus.Ipc.Protocol
import Argus.Ipc.Connection
import Argus.Daemon.Handler
import Argus.Daemon.LocalSocket
import Argus.Lib.Layered
import Argus.Executor.Remediation
import Argus.Executor.HostCalls
import Argus.Incidents.Manager
import Argus.Lib.Scattered
import Argus.Daemon.McpRetry
import Argus.Daemon.CapabilitySurface
import Argus.Lib.CrashSafe
import Argus.Lib.Disk
import Argus.Daemon.CloudFiles
import Argus.Sensors.Process
import Argus.Observe.Snapshot
import Argus.Cloud.Events
import Argus.Daemon.EventCollection
