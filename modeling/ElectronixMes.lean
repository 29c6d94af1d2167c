import ElectronixMes.Relational.Table
import ElectronixMes.Relational.First
import ElectronixMes.Relational.Unique
import ElectronixMes.Timeline.Span
import ElectronixMes.Timeline.Labels
import ElectronixMes.Timeline.Pieces
import ElectronixMes.Timeline.Thinning
import ElectronixMes.Feed.Changes
import ElectronixMes.Feed.Clients
import ElectronixMes.Feed.Kiosk
import ElectronixMes.Feed.Requests
import ElectronixMes.Graph.Walks
import ElectronixMes.Text.Segments
import ElectronixMes.Text.Base64
import ElectronixMes.Erp.Crypto
import ElectronixMes.Text.Numerals
import ElectronixMes.Arithmetic.Rounding
import ElectronixMes.Transition.Broadcast
import ElectronixMes.Transition.Observation
import ElectronixMes.Transition.Run
import ElectronixMes.Transition.Sessions
import ElectronixMes.Transition.Transaction
import ElectronixMes.Serde.Json
import ElectronixMes.Serde.Members
import ElectronixMes.Serde.Tagged
import ElectronixMes.Serde.Tokens
import ElectronixMes.Serde.Text
import ElectronixMes.Core.WorkOrder
import ElectronixMes.Core.StateMachine
import ElectronixMes.Core.Debounce
import ElectronixMes.Core.Gaps
import ElectronixMes.Core.Overlay
import ElectronixMes.Core.Boundaries
import ElectronixMes.Core.Evidence
import ElectronixMes.Core.Roles
import ElectronixMes.Core.Dnc
import ElectronixMes.Core.Qms
import ElectronixMes.Core.Cmms
import ElectronixMes.Core.Id
import ElectronixMes.Core.Analytics
import ElectronixMes.Core.Barcode
import ElectronixMes.DncBridge.Client
import ElectronixMes.Diagnostics.Redact
import ElectronixMes.DncBridge.Protocol
import ElectronixMes.Diagnostics.Scrubbing
import ElectronixMes.Diagnostics.Send
import ElectronixMes.Db.Schema
import ElectronixMes.Db.Repo
import ElectronixMes.Db.RepoMaster
import ElectronixMes.Db.RepoIngest
import ElectronixMes.Db.RepoOee
import ElectronixMes.Db.RepoSync
import ElectronixMes.Db.RepoOrders
import ElectronixMes.Db.RepoAnalytics
import ElectronixMes.Db.RepoDnc
import ElectronixMes.Db.RepoTrace
import ElectronixMes.Db.RepoQms
import ElectronixMes.Db.RepoCmms
import ElectronixMes.Db.RepoPm
import ElectronixMes.Db.RepoErp
import ElectronixMes.Db.RepoErpConnections
import ElectronixMes.AgentTools.Tools
import ElectronixMes.AgentTools.Totals
import ElectronixMes.Cloud.Sync
import ElectronixMes.Cloud.Copilot
import ElectronixMes.Cloud.Transcript
import ElectronixMes.Edge.Auth
import ElectronixMes.Edge.Master
import ElectronixMes.Edge.Process
import ElectronixMes.Edge.Ingest
import ElectronixMes.Edge.Live
import ElectronixMes.Edge.Orders
import ElectronixMes.Edge.Exec
import ElectronixMes.Edge.Erp
import ElectronixMes.Edge.ErpExport
import ElectronixMes.Edge.ErpImport
import ElectronixMes.Edge.ErpConnections
import ElectronixMes.Edge.Mapping
import ElectronixMes.Edge.Dnc
import ElectronixMes.Edge.Quality
import ElectronixMes.Derived.MachineStates
import ElectronixMes.Derived.Downtime
import ElectronixMes.Derived.Classification
import ElectronixMes.Derived.Splitting
import ElectronixMes.Derived.Retries
import ElectronixMes.Derived.Idempotence
import ElectronixMes.Derived.Replay
import ElectronixMes.Derived.ConcurrentRecompute
import ElectronixMes.Derived.OeeAgreement
import ElectronixMes.Derived.OeeFactors
import ElectronixMes.Derived.OeeWindows
import ElectronixMes.Derived.ShiftSlices
import ElectronixMes.Execution.Lifecycles
import ElectronixMes.Execution.Starting
import ElectronixMes.Execution.Release
import ElectronixMes.Execution.Ledger
import ElectronixMes.Programs.Correlation
import ElectronixMes.Programs.Interleaving
import ElectronixMes.Programs.Lifecycles
import ElectronixMes.Programs.Delivery
import ElectronixMes.Programs.Revisions
import ElectronixMes.Programs.NextProgram
import ElectronixMes.Quality.Blocking
import ElectronixMes.Quality.Interleaving
import ElectronixMes.Quality.Bookkeeping
import ElectronixMes.Quality.Issuing
import ElectronixMes.Quality.NcrNumbers
import ElectronixMes.Traceability.Distances
import ElectronixMes.Traceability.Growth
import ElectronixMes.Traceability.HeldLots
import ElectronixMes.Maintenance.Lifecycle
import ElectronixMes.Maintenance.Procurement
import ElectronixMes.Maintenance.Reorder
import ElectronixMes.Maintenance.Export
import ElectronixMes.Maintenance.UsageDue
import ElectronixMes.Access.Integrity
import ElectronixMes.Access.Requests
import ElectronixMes.Access.Accountability
import ElectronixMes.Access.Credentials
import ElectronixMes.Access.Hierarchy
import ElectronixMes.Integration.Requests
import ElectronixMes.Integration.Vault
import ElectronixMes.Integration.Secrecy
import ElectronixMes.Cloud.Provisioning
import ElectronixMes.Cloud.Agent
import ElectronixMes.Tenants.Requests
import ElectronixMes.Tenants.Enrollment
import ElectronixMes.Tenants.Visibility
import ElectronixMes.Tenants.FrontDoors
import ElectronixMes.Sync.Interleaving
import ElectronixMes.Sync.ExactlyOnce
import ElectronixMes.Sync.Convergence
import ElectronixMes.Sync.Creation
import ElectronixMes.Sync.Importing
import ElectronixMes.Sync.TenantIsolation
import ElectronixMes.Sync.TenantIndependence
import ElectronixMes.Sync.Protocol
import ElectronixMes.Sync.Commands
