import RealtimeOps.Services

/-!
# `JobProcessorService`

One execution of a job by the worker : `process` runs under the job's Redis lock, which a
`finally` releases, and ends in `markCompleted` or `markFailed`. `JobProcessingConsumer`
runs one execution for each message of `jobs.processing`.
-/

set_option autoImplicit false

namespace RealtimeOps

open Interleaving

/-- The payload of a message, its defaults filled in. -/
structure ProcessJobInput where
  jobId : Uuid
  reason : String
  requestedBy : String
  deriving DecidableEq

/-- The Redis key of a job's lock. -/
def lockKey (jobId : Uuid) : String :=
  s!"job-processing-lock:{jobId}"

theorem lockKey_injective : Function.Injective lockKey := by
  intro a b h
  have hrepr : a.repr = b.repr := (String.append_right_inj "job-processing-lock:").mp h
  have hdigits : Nat.toDigits 10 a = Nat.toDigits 10 b := by
    rw [← Nat.toList_repr, ← Nat.toList_repr, hrepr]
  have hread : ∀ n : ℕ, Nat.ofDigitChars 10 (Nat.toDigits 10 n) 0 = n := fun n =>
    Nat.ofDigitChars_toDigits (by decide) (by decide)
  calc a = Nat.ofDigitChars 10 (Nat.toDigits 10 a) 0 := (hread a).symm
    _ = Nat.ofDigitChars 10 (Nat.toDigits 10 b) 0 := by rw [hdigits]
    _ = b := hread b

namespace JobProcessorService

/-- `new Date()`. -/
def now : Promise Date :=
  await .now

/-- 120 milliseconds pass. -/
def simulateProcessingLatency : Promise Unit :=
  await (.sleep 120)

/-- `attemptNumber <= failTimes`, where `failTimes` counts as 0 if it is not a number. -/
def failsUpTo (failTimesRaw : Option Json) (attemptNumber : ℕ) : Bool :=
  match failTimesRaw with
  | some (.num failTimes) => (attemptNumber : Rat) ≤ failTimes
  | some (.infinity negative) => !negative
  | _ => (attemptNumber : Rat) ≤ 0

/-- The error message of a failed attempt, `none` for an attempt that succeeds. -/
def evaluateFailure (job : JobEntity) (attemptNumber : ℕ) : Option String :=
  let shouldFail := job.payload.lookup "shouldFail" = some (.bool true)
  let failTimesRaw := job.payload.lookup "failTimes"
  if shouldFail ∨ failsUpTo failTimesRaw attemptNumber then
    some s!"Processing failed on attempt {attemptNumber}"
  else none

/-- The attempt `markCompleted` saves. -/
def succeeded (attempt : ProcessingAttemptEntity) (finishedAt : Date) :
    ProcessingAttemptEntity :=
  { attempt with
    status := .SUCCEEDED
    finishedAt := some finishedAt
    durationMs := some (finishedAt - attempt.startedAt) }

/-- The job `markCompleted` saves. -/
def completed (job : JobEntity) (finishedAt : Date) : JobEntity :=
  { job with status := .COMPLETED, completedAt := some finishedAt, lastError := none }

/-- The attempt is saved as succeeded, the job as completed, and the records and the event
follow. -/
def markCompleted (job : JobEntity) (attempt : ProcessingAttemptEntity) : Promise Unit := do
  let finishedAt ← now
  let attempt ← await (.saveAttempt (succeeded attempt finishedAt))
  let job ← await (.saveJob (completed job finishedAt))
  let notification ← NotificationService.create
    { type := .JOB_STATUS
      message := s!"Job {job.name} completed successfully"
      metadata := [("jobId", .uuid job.id), ("attemptNumber", .num attempt.attemptNumber)] }
  let _ ← AuditService.log
    { actorType := .SYSTEM
      actorId := none
      action := "job.completed"
      entityType := .JOB
      entityId := some job.id
      metadata := [("attemptNumber", .num attempt.attemptNumber)] }
  RealtimeEventPublisher.publishJobCompleted
    [("jobId", .uuid job.id), ("attemptNumber", .num attempt.attemptNumber),
      ("completedAt", .date finishedAt)]
  RealtimeEventPublisher.publishNotificationCreated notification.createdPayload

/-- The attempt `markFailed` saves. -/
def failed (attempt : ProcessingAttemptEntity) (errorMessage : String) (finishedAt : Date) :
    ProcessingAttemptEntity :=
  { attempt with
    status := .FAILED
    errorMessage := some errorMessage
    finishedAt := some finishedAt
    durationMs := some (finishedAt - attempt.startedAt) }

/-- The job `markFailed` saves. -/
def failedJob (job : JobEntity) (errorMessage : String) (finishedAt : Date) : JobEntity :=
  { job with
    status := .FAILED
    completedAt := some finishedAt
    lastError := some errorMessage }

/-- The severity of the alert for a failed attempt. -/
def failureSeverity (job : JobEntity) : AlertSeverity :=
  if job.attemptCount ≥ job.maxAttempts then .CRITICAL else .HIGH

/-- The alert raised for a failed attempt. -/
def failureAlert (job : JobEntity) (errorMessage : String) : AlertColumns where
  jobId := some job.id
  source := "processing-service"
  severity := failureSeverity job
  status := .OPEN
  title := s!"Job processing failed: {job.name}"
  description := errorMessage

/-- The incident opened for a critical alert. -/
def failureIncident (job : JobEntity) (alert : AlertEntity) (errorMessage : String) :
    IncidentColumns where
  alertId := some alert.id
  title := s!"Critical incident for job {job.name}"
  summary := errorMessage
  status := .OPEN

/-- What `markFailed` awaits once the attempt, the job, the alert and the incident are
written. -/
def reportFailure (job : JobEntity) (attempt : ProcessingAttemptEntity) (errorMessage : String)
    (finishedAt : Date) (alert : AlertEntity) (incident : Option IncidentEntity) :
    Promise Unit := do
  let severity := failureSeverity job
  let notification ← NotificationService.create
    { type := .ALERT
      message := s!"Alert raised for failed job {job.name}"
      metadata :=
        [("jobId", .uuid job.id), ("alertId", .uuid alert.id),
          ("incidentId", .ofUuid? (incident.map (·.id))), ("severity", .str severity.value)] }
  let _ ← AuditService.log
    { actorType := .SYSTEM
      actorId := none
      action := "job.failed"
      entityType := .JOB
      entityId := some job.id
      metadata :=
        [("errorMessage", .str errorMessage), ("attemptNumber", .num attempt.attemptNumber)] }
  let _ ← AuditService.log
    { actorType := .SYSTEM
      actorId := none
      action := "alert.raised"
      entityType := .ALERT
      entityId := some alert.id
      metadata := [("severity", .str severity.value), ("jobId", .uuid job.id)] }
  if let some incident := incident then
    let _ ← AuditService.log
      { actorType := .SYSTEM
        actorId := none
        action := "incident.created"
        entityType := .INCIDENT
        entityId := some incident.id
        metadata := [("alertId", .uuid alert.id)] }
  RealtimeEventPublisher.publishJobFailed
    [("jobId", .uuid job.id), ("attemptNumber", .num attempt.attemptNumber),
      ("errorMessage", .str errorMessage), ("failedAt", .date finishedAt)]
  RealtimeEventPublisher.publishAlertRaised
    [("alertId", .uuid alert.id), ("jobId", .uuid job.id),
      ("severity", .str alert.severity.value), ("status", .str alert.status.value),
      ("incidentId", .ofUuid? (incident.map (·.id)))]
  if let some incident := incident then
    RealtimeEventPublisher.publishIncidentUpdated
      [("incidentId", .uuid incident.id), ("status", .str incident.status.value),
        ("alertId", .ofUuid? incident.alertId)]
  RealtimeEventPublisher.publishNotificationCreated notification.createdPayload

/-- A report is notifications, audit entries and events. -/
theorem calls_reportFailure {P : Op → Prop} (hn : ∀ c, P (.insertNotification c))
    (ha : ∀ c, P (.insertAuditEntry c)) (hp : ∀ topic payload, P (.publish topic payload))
    (job : JobEntity) (attempt : ProcessingAttemptEntity) (errorMessage : String)
    (finishedAt : Date) (alert : AlertEntity) (incident : Option IncidentEntity) :
    (reportFailure job attempt errorMessage finishedAt alert incident).Calls P := by
  unfold reportFailure
  refine .await_bind (hn _) fun _ => .await_bind (ha _) fun _ => .await_bind (ha _) fun _ => ?_
  cases incident with
  | none => exact .await_bind (hp _ _) fun _ => .await_bind (hp _ _) fun _ => .await (hp _ _)
  | some incident =>
    exact .await_bind (ha _) fun _ => .await_bind (hp _ _) fun _ => .await_bind (hp _ _) fun _ =>
      .await_bind (hp _ _) fun _ => .await (hp _ _)

/-- The attempt and the job are saved as failed and an alert is raised, with an incident if the job
is out of attempts. -/
def markFailed (job : JobEntity) (attempt : ProcessingAttemptEntity) (errorMessage : String) :
    Promise Unit := do
  let finishedAt ← now
  let attempt ← await (.saveAttempt (failed attempt errorMessage finishedAt))
  let job ← await (.saveJob (failedJob job errorMessage finishedAt))
  let alert ← await (.insertAlert (failureAlert job errorMessage))
  if failureSeverity job = .CRITICAL then
    let incident ← await (.insertIncident (failureIncident job alert errorMessage))
    reportFailure job attempt errorMessage finishedAt alert (some incident)
  else
    reportFailure job attempt errorMessage finishedAt alert none

theorem routine_markCompleted (job : JobEntity) (attempt : ProcessingAttemptEntity) :
    Routine (markCompleted job attempt) := by
  refine .await_bind rfl fun _ => .await_bind rfl fun _ => ?_
  refine .await_bind rfl fun _ => .await_bind rfl fun _ => ?_
  exact .await_bind rfl fun _ => .await_bind rfl fun _ => .await rfl

theorem routine_markFailed (job : JobEntity) (attempt : ProcessingAttemptEntity)
    (errorMessage : String) : Routine (markFailed job attempt errorMessage) := by
  have report : ∀ job attempt finishedAt alert incident,
      Routine (reportFailure job attempt errorMessage finishedAt alert incident) :=
    fun _ _ _ _ _ =>
      calls_reportFailure (fun _ => rfl) (fun _ => rfl) (fun _ _ => rfl) _ _ _ _ _ _
  refine .await_bind rfl fun _ => .await_bind rfl fun _ => ?_
  refine .await_bind rfl fun _ => .await_bind rfl fun _ => ?_
  split_ifs
  · exact .await_bind rfl fun _ => report _ _ _ _ _
  · exact report _ _ _ _ _

/-- The job `process` saves before the attempt. -/
def started (job : JobEntity) (startedAt : Date) : JobEntity :=
  { job with
    status := .PROCESSING
    startedAt := some startedAt
    completedAt := none
    lastError := none
    attemptCount := job.attemptCount + 1 }

/-- The attempt row of an execution. -/
def newAttempt (job : JobEntity) (attemptNumber : ℕ) (startedAt : Date) : AttemptColumns where
  jobId := job.id
  attemptNumber := attemptNumber
  status := .STARTED
  startedAt := startedAt
  finishedAt := none
  durationMs := none
  errorMessage := none

/-- The body of the `try` block once the job is found. -/
def processJob (input : ProcessJobInput) (job : JobEntity) : Promise Unit := do
  let attemptNumber := job.attemptCount + 1
  let startedAt ← now
  let job ← await (.saveJob (started job startedAt))
  RealtimeEventPublisher.publishJobProcessing
    [("jobId", .uuid job.id), ("attemptNumber", .num attemptNumber),
      ("startedAt", .date startedAt)]
  let _ ← AuditService.log
    { actorType := .SYSTEM
      actorId := none
      action := "job.processing"
      entityType := .JOB
      entityId := some job.id
      metadata :=
        [("attemptNumber", .num attemptNumber), ("reason", .str input.reason),
          ("requestedBy", .str input.requestedBy)] }
  let attempt ← await (.insertAttempt (newAttempt job attemptNumber startedAt))
  simulateProcessingLatency
  match evaluateFailure job attemptNumber with
  | some errorMessage => markFailed job attempt errorMessage
  | none => markCompleted job attempt

/-- What `processJob` does from the insertion of the attempt on. -/
theorem routine_attempt (job : JobEntity) (attemptNumber : ℕ) (startedAt : Date) :
    Routine ((await (.insertAttempt (newAttempt job attemptNumber startedAt))).bind
      fun attempt => simulateProcessingLatency.bind fun _ =>
        match evaluateFailure job attemptNumber with
        | some errorMessage => markFailed job attempt errorMessage
        | none => markCompleted job attempt) := by
  refine .await_bind rfl fun _ => .await_bind rfl fun _ => ?_
  split
  · exact routine_markFailed _ _ _
  · exact routine_markCompleted _ _

theorem routine_processJob (input : ProcessJobInput) (job : JobEntity) :
    Routine (processJob input job) := by
  refine .await_bind rfl fun _ => .await_bind rfl fun _ => ?_
  exact .await_bind rfl fun _ => .await_bind rfl fun _ => routine_attempt _ _ _

/-- If the lock is taken nothing happens, nor if there is no such job. Who has taken the lock
releases it, however the rest ends. -/
def process (input : ProcessJobInput) : Promise Unit := do
  let acquired ← RedisLockService.acquireLock (lockKey input.jobId) 60
  if acquired then
    Prog.tryFinally
      (do
        let some job ← await (.findJob input.jobId) | return ()
        processJob input job)
      (RedisLockService.releaseLock (lockKey input.jobId))

end JobProcessorService

namespace JobProcessingConsumer

/-- The handler `onModuleInit` registers. A message without a job id is dropped; a missing
reason or requester gets a default. -/
def onMessage (payload : QueuePayload) : Promise Unit :=
  let reason := payload.reason.getD "created"
  let requestedBy := payload.requestedBy.getD "system"
  match payload.jobId with
  | none => return ()
  | some jobId => JobProcessorService.process { jobId, reason, requestedBy }

end JobProcessingConsumer

end RealtimeOps
