import RealtimeOps.Abandonment
import RealtimeOps.Accounts
import RealtimeOps.AlertRace
import RealtimeOps.AlertsAllOrNothing
import RealtimeOps.AttemptBudget
import RealtimeOps.AttemptCount
import RealtimeOps.Attribution
import RealtimeOps.AuditLog
import RealtimeOps.Buckets
import RealtimeOps.Coupling
import RealtimeOps.Drain
import RealtimeOps.DrivenJob
import RealtimeOps.EventOrder
import RealtimeOps.FailureLedger
import RealtimeOps.FixedWindow
import RealtimeOps.Guarantees
import RealtimeOps.Handshakes
import RealtimeOps.IncidentTrail
import RealtimeOps.Interleaving.Deletion
import RealtimeOps.JobAudit
import RealtimeOps.JobSearch
import RealtimeOps.JobsApart
import RealtimeOps.Lifecycle
import RealtimeOps.Limbo
import RealtimeOps.Listing.Pages
import RealtimeOps.Listings
import RealtimeOps.LockExpiry
import RealtimeOps.Lockout
import RealtimeOps.Multiplicity
import RealtimeOps.NoPhantoms
import RealtimeOps.Provenance
import RealtimeOps.RateLimit
import RealtimeOps.Responses
import RealtimeOps.RetryRace
import RealtimeOps.RowShape
import RealtimeOps.Serializable
import RealtimeOps.Setup
import RealtimeOps.StatusRead
import RealtimeOps.StatusSummary
import RealtimeOps.Stranding
import RealtimeOps.Subscriptions
import RealtimeOps.Visibility
