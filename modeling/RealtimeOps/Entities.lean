import Mathlib.Tactic.Simps.Basic
import RealtimeOps.Json

/-!
# Entities

The rows of the seven tables, the messages of the `jobs.processing` queue and the events
of the `ops.events` exchange. Each entity is split in two : the columns that
`repository.create` is given, and the entity, which adds what the database generates on
insertion (`id`, `createdAt`, `updatedAt`).
-/

set_option autoImplicit false

namespace RealtimeOps

/-! ## Enumerations -/

/-- `JobStatus`. -/
inductive JobStatus where
  | QUEUED | PROCESSING | COMPLETED | FAILED
  deriving DecidableEq

/-- The enum's value in the database and in payloads. -/
def JobStatus.value : JobStatus → String
  | QUEUED => "queued"
  | PROCESSING => "processing"
  | COMPLETED => "completed"
  | FAILED => "failed"

/-- The status of a processing attempt. -/
inductive AttemptStatus where
  | STARTED | SUCCEEDED | FAILED
  deriving DecidableEq

/-- The severity of an alert. -/
inductive AlertSeverity where
  | LOW | MEDIUM | HIGH | CRITICAL
  deriving DecidableEq

/-- The enum's value in the database and in payloads. -/
def AlertSeverity.value : AlertSeverity → String
  | LOW => "low"
  | MEDIUM => "medium"
  | HIGH => "high"
  | CRITICAL => "critical"

/-- The status of an alert. -/
inductive AlertStatus where
  | OPEN | ACKNOWLEDGED | RESOLVED
  deriving DecidableEq

/-- The enum's value in the database and in payloads. -/
def AlertStatus.value : AlertStatus → String
  | OPEN => "open"
  | ACKNOWLEDGED => "acknowledged"
  | RESOLVED => "resolved"

/-- The status of an incident. -/
inductive IncidentStatus where
  | OPEN | ACKNOWLEDGED | RESOLVED
  deriving DecidableEq

/-- The enum's value in the database and in payloads. -/
def IncidentStatus.value : IncidentStatus → String
  | OPEN => "open"
  | ACKNOWLEDGED => "acknowledged"
  | RESOLVED => "resolved"

/-- What a notification is about. -/
inductive NotificationType where
  | JOB_STATUS | ALERT | INCIDENT | SYSTEM
  deriving DecidableEq

/-- The enum's value in payloads. -/
def NotificationType.value : NotificationType → String
  | JOB_STATUS => "job_status"
  | ALERT => "alert"
  | INCIDENT => "incident"
  | SYSTEM => "system"

/-- Who has done what is logged. -/
inductive AuditActorType where
  | SYSTEM | OPERATOR
  deriving DecidableEq

/-- What an audit entry or an operator action is about. -/
inductive EntityType where
  | JOB | ALERT | INCIDENT | NOTIFICATION | PROCESSING_ATTEMPT | OPERATOR_ACTION
  deriving DecidableEq

/-! ## Rows -/

/-- The columns of `jobs` that the services write. -/
structure JobColumns where
  name : String
  type : String
  payload : Record
  status : JobStatus
  priority : ℕ
  attemptCount : ℕ
  maxAttempts : ℕ
  lastError : Option String
  startedAt : Option Date
  completedAt : Option Date
  deriving DecidableEq

/-- The columns as the database has them. -/
@[simps] def JobColumns.stored (c : JobColumns) : JobColumns :=
  { c with payload := c.payload.stored }

/-- A row of `jobs`. -/
structure JobEntity extends JobColumns where
  id : Uuid
  createdAt : Date
  updatedAt : Date
  deriving DecidableEq

/-- The columns of `processing_attempts` that the worker writes. -/
structure AttemptColumns where
  jobId : Uuid
  attemptNumber : ℕ
  status : AttemptStatus
  errorMessage : Option String
  durationMs : Option ℕ
  startedAt : Date
  finishedAt : Option Date
  deriving DecidableEq

/-- A row of `processing_attempts`. -/
structure ProcessingAttemptEntity extends AttemptColumns where
  id : Uuid
  createdAt : Date
  deriving DecidableEq

/-- The columns of `alerts` that the services write. -/
structure AlertColumns where
  jobId : Option Uuid
  source : String
  severity : AlertSeverity
  status : AlertStatus
  title : String
  description : String
  acknowledgedBy : Option String := none
  acknowledgedAt : Option Date := none
  resolvedBy : Option String := none
  resolvedAt : Option Date := none
  deriving DecidableEq

/-- A row of `alerts`. -/
structure AlertEntity extends AlertColumns where
  id : Uuid
  createdAt : Date
  updatedAt : Date
  deriving DecidableEq

/-- The columns an `update` of an alert sets; an absent column is left as it is. -/
structure AlertUpdate where
  status : AlertStatus
  acknowledgedBy : Option String := none
  acknowledgedAt : Option Date := none
  resolvedBy : Option String := none
  resolvedAt : Option Date := none
  deriving DecidableEq

/-- The columns of `incidents` that the services write. -/
structure IncidentColumns where
  alertId : Option Uuid
  title : String
  summary : String
  status : IncidentStatus
  acknowledgedBy : Option String := none
  acknowledgedAt : Option Date := none
  resolvedBy : Option String := none
  resolvedAt : Option Date := none
  deriving DecidableEq

/-- A row of `incidents`. -/
structure IncidentEntity extends IncidentColumns where
  id : Uuid
  createdAt : Date
  updatedAt : Date
  deriving DecidableEq

/-- The columns of `notifications` that the services write. -/
structure NotificationColumns where
  type : NotificationType
  channel : String
  message : String
  metadata : Record
  readAt : Option Date
  deriving DecidableEq

/-- A row of `notifications`. -/
structure NotificationEntity extends NotificationColumns where
  id : Uuid
  createdAt : Date
  deriving DecidableEq

/-- The columns of an audit entry, which are the input of `AuditService.log`. -/
structure CreateAuditEntryInput where
  actorType : AuditActorType
  actorId : Option String
  action : String
  entityType : EntityType
  entityId : Option Uuid
  metadata : Record
  deriving DecidableEq

/-- A row of `audit_entries`. -/
structure AuditEntryEntity extends CreateAuditEntryInput where
  id : Uuid
  createdAt : Date
  deriving DecidableEq

/-- The columns of `operator_actions` that the services write. -/
structure OperatorActionColumns where
  operatorId : String
  action : String
  targetType : EntityType
  targetId : Option Uuid
  payload : Record
  deriving DecidableEq

/-- A row of `operator_actions`. -/
structure OperatorActionEntity extends OperatorActionColumns where
  id : Uuid
  createdAt : Date
  deriving DecidableEq

/-! ## Messages and events -/

/-- The fields of a `jobs.processing` message that the consumer reads. A field is `none`
when the message has no string there. -/
structure QueuePayload where
  jobId : Option Uuid
  reason : Option String
  requestedBy : Option String
  deriving DecidableEq

/-- A message of `jobs.processing`; its content is `none` when it is not JSON. -/
structure Message where
  content : Option QueuePayload
  deriving DecidableEq

/-- The job a message asks to process. -/
def Message.jobId (m : Message) : Option Uuid :=
  m.content.bind QueuePayload.jobId

/-- The envelope `publishEvent` puts on the `ops.events` exchange. -/
structure Event where
  topic : String
  emittedAt : Date
  payload : Record
  deriving DecidableEq

end RealtimeOps
