import RealtimeOps.Services

/-!
# `JobService`

The commands of the API gateway on jobs : `create`, `retry` and the read `getStatus`.
Each awaits its calls one after the other, with no lock and no transaction around them.
-/

set_option autoImplicit false

namespace RealtimeOps

open Interleaving

/-- The input of `create`, the defaults of the body filled in. -/
structure CreateJobInput where
  name : String
  type : String
  payload : Record
  priority : ℕ
  maxAttempts : ℕ
  operatorId : String
  deriving DecidableEq

/-- What `getStatus` returns. -/
structure JobStatusReport where
  jobId : Uuid
  status : JobStatus
  attemptCount : ℕ
  maxAttempts : ℕ
  lastError : Option String
  startedAt : Option Date
  completedAt : Option Date
  attempts : List ProcessingAttemptEntity
  deriving DecidableEq

namespace JobService

/-- The columns of a new job. -/
def newJob (input : CreateJobInput) : JobColumns where
  name := input.name
  type := input.type
  payload := input.payload
  priority := input.priority
  maxAttempts := input.maxAttempts
  status := .QUEUED
  attemptCount := 0
  lastError := none
  startedAt := none
  completedAt := none

/-- The row is saved as queued first; the records, the message and the events follow, each call on
its own. -/
def create (input : CreateJobInput) : Promise JobEntity := do
  let job ← await (.insertJob (newJob input))
  let _ ← await (.insertOperatorAction
    { operatorId := input.operatorId
      action := "job.create"
      targetType := .JOB
      targetId := some job.id
      payload := [("type", .str job.type), ("priority", .num job.priority)] })
  let _ ← AuditService.log
    { actorType := .OPERATOR
      actorId := some input.operatorId
      action := "job.created"
      entityType := .JOB
      entityId := some job.id
      metadata :=
        [("type", .str job.type), ("priority", .num job.priority),
          ("maxAttempts", .num job.maxAttempts)] }
  let notification ← NotificationService.create
    { type := .JOB_STATUS
      message := s!"Job {job.name} queued"
      metadata := [("jobId", .uuid job.id), ("status", .str job.status.value)] }
  RabbitMqService.publishToQueue job.id "created" input.operatorId
  RealtimeEventPublisher.publishJobCreated
    [("jobId", .uuid job.id), ("name", .str job.name), ("type", .str job.type),
      ("status", .str job.status.value), ("priority", .num job.priority),
      ("createdAt", .date job.createdAt)]
  RealtimeEventPublisher.publishNotificationCreated notification.createdPayload
  return job

/-- The job, or a 404. -/
def getById (jobId : Uuid) : Promise JobEntity := do
  let some job ← await (.findJob jobId)
    | .throw (.notFound s!"Job {jobId} not found")
  return job

/-- What follows the read goes on with the job that was found. -/
theorem getById_bind {α : Type} (jobId : Uuid) (f : JobEntity → Promise α) :
    (getById jobId).bind f = (await (.findJob jobId)).bind fun
      | some job => f job
      | none => .throw (.notFound s!"Job {jobId} not found") := by
  unfold getById
  refine (Prog.bind_assoc _ _ _).trans (congrArg _ ?_)
  funext reply
  cases reply <;> rfl

/-- Two reads, with no transaction around them. -/
def getStatus (jobId : Uuid) : Promise JobStatusReport := do
  let job ← getById jobId
  let attempts ← await (.findAttempts jobId)
  return {
    jobId := job.id
    status := job.status
    attemptCount := job.attemptCount
    maxAttempts := job.maxAttempts
    lastError := job.lastError
    startedAt := job.startedAt
    completedAt := job.completedAt
    attempts }

/-- The entity `retry` saves. -/
def requeued (job : JobEntity) : JobEntity :=
  { job with status := .QUEUED, lastError := none, startedAt := none, completedAt := none }

/-- The checks are on the job as it was read. The save that follows writes the whole row, whatever
is stored by then. -/
def retry (jobId : Uuid) (operatorId : String) : Promise JobEntity := do
  let job ← getById jobId
  if job.status ≠ .FAILED then
    .throw (.badRequest "Only failed jobs can be retried")
  else if job.attemptCount ≥ job.maxAttempts then
    .throw (.badRequest "Job reached maximum retry attempts")
  else
    let updated ← await (.saveJob (requeued job))
    let _ ← await (.insertOperatorAction
      { operatorId
        action := "job.retry"
        targetType := .JOB
        targetId := some updated.id
        payload :=
          [("currentAttemptCount", .num updated.attemptCount),
            ("maxAttempts", .num updated.maxAttempts)] })
    let _ ← AuditService.log
      { actorType := .OPERATOR
        actorId := some operatorId
        action := "job.retried"
        entityType := .JOB
        entityId := some updated.id
        metadata :=
          [("attemptCount", .num updated.attemptCount),
            ("maxAttempts", .num updated.maxAttempts)] }
    let notification ← NotificationService.create
      { type := .JOB_STATUS
        message := s!"Job {updated.name} queued for retry"
        metadata := [("jobId", .uuid updated.id), ("status", .str updated.status.value)] }
    RabbitMqService.publishToQueue updated.id "retry" operatorId
    RealtimeEventPublisher.publishJobCreated
      [("jobId", .uuid updated.id), ("name", .str updated.name), ("type", .str updated.type),
        ("status", .str updated.status.value), ("priority", .num updated.priority),
        ("retried", .bool true)]
    RealtimeEventPublisher.publishNotificationCreated notification.createdPayload
    return updated

/-- `create` inserts the job, and what it does after that is routine. -/
theorem create_eq_call (input : CreateJobInput) :
    ∃ k, create input = .call (.insertJob (newJob input)) k ∧ ∀ r, Routine (k r) := by
  refine ⟨_, rfl, fun r => (Prog.Calls.resolve r).bind fun _ => ?_⟩
  refine .await_bind rfl fun _ => .await_bind rfl fun _ => ?_
  refine .await_bind rfl fun _ => .await_bind rfl fun _ => ?_
  exact .await_bind rfl fun _ => .await_bind rfl fun _ => trivial

theorem routine_getById (jobId : Uuid) : Routine (getById jobId) := by
  refine .await_bind rfl fun found => ?_
  cases found <;> trivial

theorem routine_getStatus (jobId : Uuid) : Routine (getStatus jobId) :=
  (routine_getById jobId).bind fun _ => .await_bind rfl fun _ => trivial

theorem routine_retry (jobId : Uuid) (operatorId : String) : Routine (retry jobId operatorId) := by
  refine (routine_getById jobId).bind fun job => ?_
  split_ifs
  · trivial
  · trivial
  · refine .await_bind rfl fun _ => .await_bind rfl fun _ => ?_
    refine .await_bind rfl fun _ => .await_bind rfl fun _ => ?_
    exact .await_bind rfl fun _ => .await_bind rfl fun _ => .await_bind rfl fun _ => trivial

end JobService

end RealtimeOps
