import RealtimeOps.Interleaving.Phase
import RealtimeOps.Platform

/-!
# The job machine

What the services do to jobs, without the notifications, the audit entries and the events
around it. `JobStore` is the part of the world that decides what happens to a job, a
`JobPhase` says how far a call has come and which entities it holds in memory, and
`Effect` lists what an awaited call does to both when it goes through. A rejected call
sends its thread to `abort`, whether or not the effect was applied.

`sim_call` : every call of the platform simulates the machine from its first phase.
`turn_of_step` : a move of the platform is a `Turn` of the machine, so an invariant of
stores and phases that every `Turn` keeps holds in every run (`jobs_invariant`).
-/

set_option autoImplicit false

namespace RealtimeOps

open Interleaving JobService JobProcessorService

/-! ## Stores and phases -/

/-- What the job invariants read of the world. -/
structure JobStore where
  jobs : Table JobEntity.id
  attempts : Table ProcessingAttemptEntity.id
  alerts : Table AlertEntity.id
  incidents : Table IncidentEntity.id
  locks : Table RedisLock.key
  ready : List Message

/-- The part of the world the job machine is about. -/
def World.store (w : World) : JobStore :=
  ⟨w.jobs, w.attempts, w.alerts, w.incidents, w.locks, w.ready⟩

/-- How far a call has come. An entity is the one the call holds in memory. -/
inductive JobPhase where
  /-- Nothing left to do to a job. -/
  | idle
  | creating (input : CreateJobInput)
  /-- The job is saved as queued, its message is still to be sent. -/
  | queueing (job : JobEntity)
  /-- The message is sent. -/
  | queued (job : JobEntity)
  | retrying (jobId : Uuid)
  /-- The job was read failed, with attempts left. -/
  | requeueing (job : JobEntity)
  /-- The call throws this error. -/
  | refused (err : Failure)
  /-- An execution that has not tried the lock. -/
  | locking (jobId : Uuid)
  /-- The lock is held, the job is still to be read. -/
  | reading (jobId : Uuid)
  | starting (job : JobEntity)
  /-- The job is saved as processing, the attempt row is still to be written. -/
  | started (job : JobEntity)
  | running (job : JobEntity) (attempt : ProcessingAttemptEntity)
  /-- The attempt is saved as succeeded or failed, the job is still to be saved. -/
  | finishing (job : JobEntity) (attempt : ProcessingAttemptEntity)
  | alerting (job : JobEntity)
  | escalating (job : JobEntity) (alert : AlertEntity)
  /-- The lock is held and only its release is left to do to the job. -/
  | closing (jobId : Uuid)
  | reporting (jobId : Uuid)
  | collecting (job : JobEntity)
  | reported (report : JobStatusReport)

namespace JobPhase

/-- The job whose lock a thread in this phase has acquired and not released. -/
def holds : JobPhase → Option Uuid
  | reading jobId | closing jobId => some jobId
  | starting job | started job | running job _ | finishing job _ | alerting job
  | escalating job _ => some job.id
  | _ => none

/-- Where a rejected call leaves its thread : an execution that holds the lock goes on to
release it, everything else is over. -/
def abort (q : JobPhase) : Op → JobPhase
  | .del _ => idle
  | _ =>
    match q.holds with
    | some jobId => closing jobId
    | none => idle

/-- How a thread may end. -/
def Ends : JobPhase → Except Failure Result → Prop
  | idle, r => r = .ok .done ∨ ∃ err, r = .error err
  | queued job, r => r = .ok (.job job)
  | refused err, r => r = .error err
  | reported report, r => r = .ok (.report report)
  | _, _ => False

end JobPhase

/-- The calls that leave the job store alone. -/
def Op.neutral : Op → Bool
  | .insertNotification _ | .insertAuditEntry _ | .insertOperatorAction _ | .publish _ _
  | .ack _ | .nack _ | .sleep _ | .now => true
  | _ => false

/-- Where `retry` goes after its read. -/
def afterRetryRead (jobId : Uuid) : Option JobEntity → JobPhase
  | none => .refused (.notFound s!"Job {jobId} not found")
  | some job =>
    if job.status ≠ .FAILED then .refused (.badRequest "Only failed jobs can be retried")
    else if job.attemptCount ≥ job.maxAttempts then
      .refused (.badRequest "Job reached maximum retry attempts")
    else .requeueing job

/-- `retry` is refused, or it has read a failed job with attempts left. -/
theorem afterRetryRead_cases (jobId : Uuid) (found : Option JobEntity) :
    (∃ err, afterRetryRead jobId found = .refused err) ∨
      ∃ job, found = some job ∧ job.status = .FAILED ∧ job.attemptCount < job.maxAttempts ∧
        afterRetryRead jobId found = .requeueing job := by
  cases found with
  | none => exact .inl ⟨_, rfl⟩
  | some job =>
    unfold afterRetryRead
    dsimp only
    split_ifs with hs hn
    · exact .inl ⟨_, rfl⟩
    · exact .inl ⟨_, rfl⟩
    · exact .inr ⟨job, rfl, not_not.mp hs, Nat.lt_of_not_le hn, rfl⟩

/-- The attempt an execution saves once it has run. -/
def settled (job : JobEntity) (attempt : ProcessingAttemptEntity) (finishedAt : Date) :
    ProcessingAttemptEntity :=
  match evaluateFailure job job.attemptCount with
  | some errorMessage => failed attempt errorMessage finishedAt
  | none => succeeded attempt finishedAt

/-- The report on a job and its attempts. -/
def reportOf (job : JobEntity) (attempts : List ProcessingAttemptEntity) : JobStatusReport where
  jobId := job.id
  status := job.status
  attemptCount := job.attemptCount
  maxAttempts := job.maxAttempts
  lastError := job.lastError
  startedAt := job.startedAt
  completedAt := job.completedAt
  attempts := attempts

/-- What a call that goes through does to the job store and the phase of its thread. -/
inductive Effect (e : Env) :
    (op : Op) → op.Reply → JobStore → JobPhase → JobStore → JobPhase → Prop where
  | neutral {op : Op} (reply : op.Reply) (c : JobStore) (q : JobPhase) (h : op.neutral = true) :
    Effect e op reply c q c q
  | create {c : JobStore} {input : CreateJobInput} {row : JobEntity} {t : Table JobEntity.id}
    (hrow : row =
      { (newJob input).stored with id := e.uuid, createdAt := e.now, updatedAt := e.now })
    (ht : c.jobs.insert row = some t) :
    Effect e (.insertJob (newJob input)) row c (.creating input) { c with jobs := t }
      (.queueing row)
  | enqueue {c : JobStore} {job : JobEntity} {m : Message} (hm : m.jobId = some job.id) :
    Effect e (.sendToQueue m) () c (.queueing job) { c with ready := c.ready ++ [m] }
      (.queued job)
  | retryRead {c : JobStore} (jobId : Uuid) :
    Effect e (.findJob jobId) (c.jobs.lookup jobId) c (.retrying jobId) c
      (afterRetryRead jobId (c.jobs.lookup jobId))
  | requeue {c : JobStore} {job row : JobEntity}
    (hrow : row = { requeued job with
      updatedAt := savedAt JobEntity.updatedAt e.now (c.jobs.lookup job.id) (requeued job) }) :
    Effect e (.saveJob (requeued job)) row c (.requeueing job)
      { c with jobs := c.jobs.save row } (.queueing row)
  | lockTaken {c : JobStore} {jobId : Uuid} {lock : RedisLock}
    (h : c.locks.lookup (lockKey jobId) = some lock) :
    Effect e (.setNX (lockKey jobId) 60) false c (.locking jobId) c .idle
  | lock {c : JobStore} {jobId : Uuid} {t : Table RedisLock.key}
    (ht : c.locks.insert ⟨lockKey jobId, e.now + 1000 * 60⟩ = some t) :
    Effect e (.setNX (lockKey jobId) 60) true c (.locking jobId) { c with locks := t }
      (.reading jobId)
  | readNone {c : JobStore} {jobId : Uuid} (h : c.jobs.lookup jobId = none) :
    Effect e (.findJob jobId) none c (.reading jobId) c (.closing jobId)
  | read {c : JobStore} {jobId : Uuid} {job : JobEntity}
    (h : c.jobs.lookup jobId = some job) :
    Effect e (.findJob jobId) (some job) c (.reading jobId) c (.starting job)
  | start {c : JobStore} {job row : JobEntity} {startedAt : Date}
    (hrow : row = { JobProcessorService.started job startedAt with
      updatedAt := savedAt JobEntity.updatedAt e.now (c.jobs.lookup job.id)
        (JobProcessorService.started job startedAt) }) :
    Effect e (.saveJob (JobProcessorService.started job startedAt)) row c (.starting job)
      { c with jobs := c.jobs.save row } (.started row)
  | attempt {c : JobStore} {job : JobEntity} {startedAt : Date} {row : ProcessingAttemptEntity}
    {t : Table ProcessingAttemptEntity.id}
    (hrow : row =
      { newAttempt job job.attemptCount startedAt with id := e.uuid, createdAt := e.now })
    (hfree : ∀ a ∈ c.attempts.rows, a.jobId = job.id → a.attemptNumber ≠ job.attemptCount)
    (ht : c.attempts.insert row = some t) :
    Effect e (.insertAttempt (newAttempt job job.attemptCount startedAt)) row c (.started job)
      { c with attempts := t } (.running job row)
  | settle {c : JobStore} {job : JobEntity} {a a' : ProcessingAttemptEntity} {finishedAt : Date}
    (ha : a' = settled job a finishedAt) :
    Effect e (.saveAttempt a') a' c (.running job a)
      { c with attempts := c.attempts.save a' } (.finishing job a')
  | complete {c : JobStore} {job row : JobEntity} {a : ProcessingAttemptEntity}
    {finishedAt : Date} (hv : evaluateFailure job job.attemptCount = none)
    (hrow : row = { completed job finishedAt with
      updatedAt := savedAt JobEntity.updatedAt e.now (c.jobs.lookup job.id)
        (completed job finishedAt) }) :
    Effect e (.saveJob (completed job finishedAt)) row c (.finishing job a)
      { c with jobs := c.jobs.save row } (.closing job.id)
  | fail {c : JobStore} {job row : JobEntity} {a : ProcessingAttemptEntity} {finishedAt : Date}
    {errorMessage : String} (hv : evaluateFailure job job.attemptCount = some errorMessage)
    (hrow : row = { failedJob job errorMessage finishedAt with
      updatedAt := savedAt JobEntity.updatedAt e.now (c.jobs.lookup job.id)
        (failedJob job errorMessage finishedAt) }) :
    Effect e (.saveJob (failedJob job errorMessage finishedAt)) row c (.finishing job a)
      { c with jobs := c.jobs.save row } (.alerting row)
  | raise {c : JobStore} {job : JobEntity} {errorMessage : String} {row : AlertEntity}
    {t : Table AlertEntity.id}
    (hrow : row =
      { failureAlert job errorMessage with id := e.uuid, createdAt := e.now, updatedAt := e.now })
    (ht : c.alerts.insert row = some t) :
    Effect e (.insertAlert (failureAlert job errorMessage)) row c (.alerting job)
      { c with alerts := t }
      (if failureSeverity job = .CRITICAL then .escalating job row else .closing job.id)
  | escalate {c : JobStore} {job : JobEntity} {alert : AlertEntity} {errorMessage : String}
    {row : IncidentEntity} {t : Table IncidentEntity.id}
    (hrow : row =
      { failureIncident job alert errorMessage with
        id := e.uuid, createdAt := e.now, updatedAt := e.now })
    (ht : c.incidents.insert row = some t) :
    Effect e (.insertIncident (failureIncident job alert errorMessage)) row c
      (.escalating job alert) { c with incidents := t } (.closing job.id)
  | unlock {c : JobStore} (jobId : Uuid) :
    Effect e (.del (lockKey jobId)) () c (.closing jobId)
      { c with locks := c.locks.erase (lockKey jobId) } .idle
  | reportNone {c : JobStore} {jobId : Uuid} (h : c.jobs.lookup jobId = none) :
    Effect e (.findJob jobId) none c (.reporting jobId) c
      (.refused (.notFound s!"Job {jobId} not found"))
  | report {c : JobStore} {jobId : Uuid} {job : JobEntity}
    (h : c.jobs.lookup jobId = some job) :
    Effect e (.findJob jobId) (some job) c (.reporting jobId) c (.collecting job)
  | collect {c : JobStore} (job : JobEntity) :
    Effect e (.findAttempts job.id) (attemptsOf job.id c.attempts) c (.collecting job) c
      (.reported (reportOf job (attemptsOf job.id c.attempts)))

/-- What an answered call does : its effect with the reply, its effect without the reply,
or nothing, if the world refuses it or it is rejected before its effect. -/
inductive JobMove (e : Env) (op : Op) :
    Except Failure op.Reply → World → JobPhase → World → JobPhase → Prop where
  | done {reply : op.Reply} {w w' : World} {q q' : JobPhase}
    (h : Effect e op reply w.store q w'.store q') : JobMove e op (.ok reply) w q w' q'
  | lost {reply : op.Reply} {w w' : World} {q q' : JobPhase}
    (h : Effect e op reply w.store q w'.store q') (ho : e.outcome = .rejectsAfterEffect) :
    JobMove e op (.error .rejected) w q w' (q.abort op)
  | refused {w w' : World} {q : JobPhase} (h : w'.store = w.store)
    (ho : perform e { w with clock := e.now } op = none ∨ e.outcome = .rejects) :
    JobMove e op (.error .rejected) w q w' (q.abort op)

/-- The machine. -/
abbrev jobMachine : PhaseMachine infrastructure Failure Result Env World where
  Phase := JobPhase
  Move := JobMove
  Ends := JobPhase.Ends

/-- From phase `q` the program simulates the job machine and ends as `Q` says. -/
abbrev JobSim {α : Type} (Q : JobPhase → Except Failure α → Prop) (q : JobPhase)
    (p : Promise α) : Prop :=
  jobMachine.Sim handle Q q p

/-! ## Awaiting one call -/

section Await

variable {α : Type} {Q : JobPhase → Except Failure α → Prop} {q : JobPhase}

/-- Awaiting a call whose every effect is one of the machine's. -/
theorem jobSim_await {op : Op} {f : op.Reply → Promise α}
    (h : ∀ e (w : World) reply w', perform e w op = some (reply, w') →
      ∃ q', Effect e op reply w.store q w'.store q' ∧ JobSim Q q' (f reply))
    (herr : Q (q.abort op) (.error .rejected)) : JobSim Q q ((await op).bind f) := by
  intro e w
  cases hp : perform e { w with clock := e.now } op with
  | none =>
    have hh : handle e op w = (.error .rejected, { w with clock := e.now }) := by
      simp only [handle, hp]
    rw [hh]
    exact ⟨_, .refused rfl (.inl hp), herr⟩
  | some res =>
    obtain ⟨reply, w'⟩ := res
    obtain ⟨q', heff, hq'⟩ := h e { w with clock := e.now } reply w' hp
    change Effect e op reply w.store q w'.store q' at heff
    by_cases hl : op.local = true
    · have hh : handle e op w = (.ok reply, w') := by simp only [handle, hp, hl, if_true]
      rw [hh]
      exact ⟨q', .done heff, hq'⟩
    · cases ho : e.outcome with
      | resolves =>
        have hh : handle e op w = (.ok reply, w') := by
          simp only [handle, hp, if_neg hl, ho]
        rw [hh]
        exact ⟨q', .done heff, hq'⟩
      | rejects =>
        have hh : handle e op w = (.error .rejected, { w with clock := e.now }) := by
          simp only [handle, hp, if_neg hl, ho]
        rw [hh]
        exact ⟨_, .refused rfl (.inr ho), herr⟩
      | rejectsAfterEffect =>
        have hh : handle e op w = (.error .rejected, w') := by
          simp only [handle, hp, if_neg hl, ho]
        rw [hh]
        exact ⟨_, .lost heff ho, herr⟩

/-- A neutral call changes neither the store nor the phase. -/
theorem perform_neutral {op : Op} (hop : op.neutral = true) {e : Env} {w w' : World}
    {reply : op.Reply} (h : perform e w op = some (reply, w')) : w'.store = w.store := by
  cases op <;> simp only [Op.neutral, Bool.false_eq_true] at hop <;>
    simp only [perform, Option.ite_none_right_eq_some, Option.map_eq_some_iff, Prod.mk.injEq,
      Option.some.injEq] at h <;> grind [World.store]

theorem jobSim_neutral {op : Op} {f : op.Reply → Promise α} (hop : op.neutral = true)
    (h : ∀ reply, JobSim Q q (f reply)) (herr : Q (q.abort op) (.error .rejected)) :
    JobSim Q q ((await op).bind f) := by
  refine jobSim_await (fun e w reply w' hp => ⟨q, ?_, h reply⟩) herr
  rw [perform_neutral hop hp]
  exact .neutral reply w.store q hop

theorem jobSim_neutral_last {op : Op} {Q : JobPhase → Except Failure op.Reply → Prop}
    (hop : op.neutral = true) (h : ∀ reply, Q q (.ok reply))
    (herr : Q (q.abort op) (.error .rejected)) : JobSim Q q (await op) := by
  rw [← Prog.bind_ret (await op)]
  exact jobSim_neutral hop h herr

end Await

/-! ## The functions of the services -/

/-- A command on a job ends in `queued` with the job, in `refused` with its error, or is
aborted. -/
def CommandEnds : JobPhase → Except Failure JobEntity → Prop
  | .queued job, r => r = .ok job
  | .refused err, r => r = .error err
  | .idle, r => r = .error .rejected
  | _, _ => False

/-- What follows the write of a job as queued : the records, the message and the events. -/
theorem sim_announce {job : JobEntity} {action : OperatorActionColumns}
    {entry : CreateAuditEntryInput} {notification : CreateNotificationInput}
    {reason operatorId topic : String} {payload : Record} :
    JobSim CommandEnds (.queueing job)
      (do
        let _ ← await (.insertOperatorAction action)
        let _ ← AuditService.log entry
        let notification ← NotificationService.create notification
        RabbitMqService.publishToQueue job.id reason operatorId
        RabbitMqService.publishEvent topic payload
        RealtimeEventPublisher.publishNotificationCreated notification.createdPayload
        return job) := by
  refine jobSim_neutral rfl (fun _ => ?_) rfl
  refine jobSim_neutral rfl (fun _ => ?_) rfl
  refine jobSim_neutral rfl (fun _ => ?_) rfl
  refine jobSim_await (fun e w _ w' hp => ?_) rfl
  obtain ⟨rfl, rfl⟩ := Prod.mk.inj (Option.some.inj hp)
  refine ⟨.queued _, .enqueue rfl, ?_⟩
  refine jobSim_neutral rfl (fun _ => ?_) rfl
  refine jobSim_neutral rfl (fun _ => ?_) rfl
  rfl

theorem sim_create (input : CreateJobInput) :
    JobSim CommandEnds (.creating input) (JobService.create input) := by
  unfold JobService.create
  refine jobSim_await (fun e w row w' hp => ?_) rfl
  obtain ⟨-, t, ht, rfl, rfl⟩ := perform_insertJob hp
  exact ⟨.queueing _, .create rfl ht, sim_announce⟩

theorem sim_retry (jobId : Uuid) (operatorId : String) :
    JobSim CommandEnds (.retrying jobId) (JobService.retry jobId operatorId) := by
  simp only [JobService.retry, JobService.getById, Prog.bind_eq, Prog.bind_assoc]
  refine jobSim_await (fun e w found w' hp => ?_) rfl
  obtain ⟨rfl, rfl⟩ := Prod.mk.inj (Option.some.inj hp)
  refine ⟨_, Effect.retryRead (c := w.store) jobId, ?_⟩
  change JobSim CommandEnds (afterRetryRead jobId (w.jobs.lookup jobId)) _
  cases w.jobs.lookup jobId with
  | none => rfl
  | some job =>
    simp only [afterRetryRead, Prog.pure_eq_ret, Prog.ret_bind]
    split_ifs
    · rfl
    · rfl
    · refine jobSim_await (fun e w row w' hp => ?_) rfl
      obtain ⟨rfl, rfl⟩ := Prod.mk.inj (Option.some.inj hp)
      exact ⟨.queueing _, .requeue rfl, sim_announce⟩

/-- `getStatus` ends in `reported` with its report, in `refused` with its error, or is
aborted. -/
def ReportEnds : JobPhase → Except Failure JobStatusReport → Prop
  | .reported report, r => r = .ok report
  | .refused err, r => r = .error err
  | .idle, r => r = .error .rejected
  | _, _ => False

theorem sim_getStatus (jobId : Uuid) :
    JobSim ReportEnds (.reporting jobId) (JobService.getStatus jobId) := by
  simp only [JobService.getStatus, JobService.getById, Prog.bind_eq, Prog.bind_assoc]
  refine jobSim_await (fun e w found w' hp => ?_) rfl
  obtain ⟨rfl, rfl⟩ := Prod.mk.inj (Option.some.inj hp)
  cases hj : w.jobs.lookup jobId with
  | none => exact ⟨_, .reportNone hj, rfl⟩
  | some job =>
    obtain rfl : job.id = jobId := (Table.lookup_eq_some.mp hj).2
    refine ⟨.collecting job, .report hj, ?_⟩
    refine jobSim_await (fun e w attempts w' hp => ?_) rfl
    obtain ⟨rfl, rfl⟩ := Prod.mk.inj (Option.some.inj hp)
    exact ⟨_, Effect.collect (c := w.store) job, rfl⟩

/-- The body of an execution ends with the lock still held. -/
def Holding (jobId : Uuid) (q : JobPhase) (_ : Except Failure Unit) : Prop :=
  q = .closing jobId

theorem sim_markCompleted {job : JobEntity} {attempt : ProcessingAttemptEntity}
    (hv : evaluateFailure job job.attemptCount = none) :
    JobSim (Holding job.id) (.running job attempt) (markCompleted job attempt) := by
  unfold markCompleted
  refine jobSim_neutral rfl (fun finishedAt => ?_) rfl
  have hs : succeeded attempt finishedAt = settled job attempt finishedAt := by
    simp only [settled, hv]
  refine jobSim_await (fun e w row w' hp => ?_) rfl
  obtain ⟨rfl, rfl⟩ := Prod.mk.inj (Option.some.inj hp)
  refine ⟨_, Effect.settle hs, ?_⟩
  refine jobSim_await (fun e w row w' hp => ?_) rfl
  obtain ⟨rfl, rfl⟩ := Prod.mk.inj (Option.some.inj hp)
  refine ⟨.closing job.id, .complete hv rfl, ?_⟩
  refine jobSim_neutral rfl (fun _ => ?_) rfl
  refine jobSim_neutral rfl (fun _ => ?_) rfl
  refine jobSim_neutral rfl (fun _ => ?_) rfl
  exact jobSim_neutral_last rfl (fun _ => rfl) rfl

theorem sim_reportFailure (jobId : Uuid) (job : JobEntity) (attempt : ProcessingAttemptEntity)
    (errorMessage : String) (finishedAt : Date) (alert : AlertEntity)
    (incident : Option IncidentEntity) :
    JobSim (Holding jobId) (.closing jobId)
      (reportFailure job attempt errorMessage finishedAt alert incident) := by
  unfold reportFailure
  refine jobSim_neutral rfl (fun _ => ?_) rfl
  refine jobSim_neutral rfl (fun _ => ?_) rfl
  refine jobSim_neutral rfl (fun _ => ?_) rfl
  cases incident with
  | none =>
    refine jobSim_neutral rfl (fun _ => ?_) rfl
    refine jobSim_neutral rfl (fun _ => ?_) rfl
    exact jobSim_neutral_last rfl (fun _ => rfl) rfl
  | some incident =>
    simp only [Prog.bind_eq]
    refine jobSim_neutral rfl (fun _ => ?_) rfl
    refine jobSim_neutral rfl (fun _ => ?_) rfl
    refine jobSim_neutral rfl (fun _ => ?_) rfl
    refine jobSim_neutral rfl (fun _ => ?_) rfl
    exact jobSim_neutral_last rfl (fun _ => rfl) rfl

theorem sim_markFailed {job : JobEntity} {attempt : ProcessingAttemptEntity}
    {errorMessage : String} (hv : evaluateFailure job job.attemptCount = some errorMessage) :
    JobSim (Holding job.id) (.running job attempt) (markFailed job attempt errorMessage) := by
  unfold markFailed
  refine jobSim_neutral rfl (fun finishedAt => ?_) rfl
  have hs : failed attempt errorMessage finishedAt = settled job attempt finishedAt := by
    simp only [settled, hv]
  refine jobSim_await (fun e w row w' hp => ?_) rfl
  obtain ⟨rfl, rfl⟩ := Prod.mk.inj (Option.some.inj hp)
  refine ⟨_, Effect.settle hs, ?_⟩
  refine jobSim_await (fun e w row w' hp => ?_) rfl
  obtain ⟨rfl, rfl⟩ := Prod.mk.inj (Option.some.inj hp)
  refine ⟨.alerting _, .fail hv rfl, ?_⟩
  refine jobSim_await (fun e w alert w' hp => ?_) rfl
  obtain ⟨-, t, ht, rfl, rfl⟩ := perform_insertAlert hp
  refine ⟨_, .raise rfl ht, ?_⟩
  split_ifs
  · refine jobSim_await (fun e w incident w' hp => ?_) rfl
    obtain ⟨-, t, ht, rfl, rfl⟩ := perform_insertIncident hp
    exact ⟨.closing job.id, .escalate rfl ht, sim_reportFailure job.id _ _ _ _ _ _⟩
  · exact sim_reportFailure job.id _ _ _ _ _ _

theorem sim_processJob (input : ProcessJobInput) (job : JobEntity) :
    JobSim (Holding job.id) (.starting job) (processJob input job) := by
  unfold processJob
  refine jobSim_neutral rfl (fun startedAt => ?_) rfl
  refine jobSim_await (fun e w row w' hp => ?_) rfl
  obtain ⟨rfl, rfl⟩ := Prod.mk.inj (Option.some.inj hp)
  refine ⟨.started _, .start rfl, ?_⟩
  refine jobSim_neutral rfl (fun _ => ?_) rfl
  refine jobSim_neutral rfl (fun _ => ?_) rfl
  refine jobSim_await (fun e w attempt w' hp => ?_) rfl
  obtain ⟨⟨-, hfree⟩, t, ht, rfl, rfl⟩ := perform_insertAttempt hp
  refine ⟨.running _ _, .attempt rfl hfree ht, ?_⟩
  refine jobSim_neutral rfl (fun _ => ?_) rfl
  change JobSim _ _ (match evaluateFailure _ (job.attemptCount + 1) with
    | some errorMessage => _
    | none => _)
  split
  · rename_i errorMessage hv
    exact sim_markFailed hv
  · rename_i hv
    exact sim_markCompleted hv

/-- An execution ends with nothing left to do. -/
def Over (q : JobPhase) (_ : Except Failure Unit) : Prop :=
  q = .idle

theorem sim_process (input : ProcessJobInput) :
    JobSim Over (.locking input.jobId) (process input) := by
  unfold process RedisLockService.acquireLock
  refine jobSim_await (fun e w acquired w' hp => ?_) rfl
  simp only [perform] at hp
  cases hins : w.locks.insert ⟨lockKey input.jobId, e.now + 1000 * 60⟩ with
  | none =>
    rw [hins] at hp
    obtain ⟨rfl, rfl⟩ := Prod.mk.inj (Option.some.inj hp)
    obtain ⟨lock, hlock⟩ : ∃ lock, w.locks.lookup (lockKey input.jobId) = some lock :=
      Table.exists_lookup_of_insert_eq_none hins
    exact ⟨.idle, .lockTaken hlock, rfl⟩
  | some t =>
    rw [hins] at hp
    obtain ⟨rfl, rfl⟩ := Prod.mk.inj (Option.some.inj hp)
    refine ⟨.reading input.jobId, .lock hins, ?_⟩
    refine PhaseMachine.Sim.tryFinally (Q := Holding input.jobId) ?_ ?_
    · rintro q r rfl
      refine jobSim_await (fun e w _ w' hp => ?_) rfl
      obtain ⟨rfl, rfl⟩ := Prod.mk.inj (Option.some.inj hp)
      exact ⟨.idle, .unlock input.jobId, PhaseMachine.sim_resolve.mpr rfl⟩
    · refine jobSim_await (fun e w found w' hp => ?_) rfl
      obtain ⟨rfl, rfl⟩ := Prod.mk.inj (Option.some.inj hp)
      cases hj : w.jobs.lookup input.jobId with
      | none => exact ⟨.closing input.jobId, .readNone hj, rfl⟩
      | some job =>
        have hid : job.id = input.jobId := (Table.lookup_eq_some.mp hj).2
        exact ⟨.starting job, .read hj, hid ▸ sim_processJob input job⟩

/-- The first phase of a consumer. -/
def consumerPhase (m : Message) : JobPhase :=
  match m.jobId with
  | some jobId => .locking jobId
  | none => .idle

theorem sim_consume (delivery : Delivery) :
    JobSim Over (consumerPhase delivery.message)
      (RabbitMqService.consumeCallback JobProcessingConsumer.onMessage delivery) := by
  unfold RabbitMqService.consumeCallback
  refine PhaseMachine.Sim.tryCatch (M := jobMachine) (Q := Over) (fun _ _ h => h) ?_ ?_
  · rintro q err rfl
    exact jobSim_neutral_last rfl (fun _ => rfl) rfl
  · have hack : JobSim Over .idle (await (.ack delivery.tag)) :=
      jobSim_neutral_last rfl (fun _ => rfl) rfl
    have hjob : delivery.message.jobId =
      delivery.message.content.bind QueuePayload.jobId := rfl
    cases hc : delivery.message.content with
    | none =>
      rw [consumerPhase, hjob, hc]
      rfl
    | some payload =>
      rw [consumerPhase, hjob, hc]
      refine PhaseMachine.Sim.bind (Q := Over) ?_ ?_ ?_
      · rintro q _ rfl
        exact hack
      · rintro q err rfl
        rfl
      · unfold JobProcessingConsumer.onMessage
        cases hid : payload.jobId with
        | none =>
          simp only [Option.bind_some, hid]
          rfl
        | some jobId =>
          simp only [Option.bind_some, hid]
          exact sim_process _

/-- The first phase of a call. -/
def Call.phase : Call → JobPhase
  | .create input => .creating input
  | .retry jobId _ => .retrying jobId
  | .getStatus jobId => .reporting jobId
  | .process input => .locking input.jobId
  | .consume delivery => consumerPhase delivery.message

/-- Every call of the platform simulates the job machine from its first phase. -/
theorem sim_call (call : Call) : JobSim JobPhase.Ends call.phase call.prog := by
  have command : ∀ {q : JobPhase} {p : Promise JobEntity}, JobSim CommandEnds q p →
      JobSim JobPhase.Ends q (p.bind fun job => .ret (.job job)) := fun h =>
    h.bind
      (fun q job hq => by cases q <;> simp_all [CommandEnds, PhaseMachine.Sim, JobPhase.Ends])
      (fun q err hq => by cases q <;> simp_all [CommandEnds, JobPhase.Ends])
  have worker : ∀ {q : JobPhase} {p : Promise Unit}, JobSim Over q p →
      JobSim JobPhase.Ends q (p.bind fun _ => .ret .done) := fun h =>
    h.bind (fun q _ hq => by cases hq; exact .inl rfl)
      (fun q err hq => by cases hq; exact .inr ⟨err, rfl⟩)
  cases call with
  | create input => exact command (sim_create input)
  | retry jobId operatorId => exact command (sim_retry jobId operatorId)
  | getStatus jobId =>
    exact (sim_getStatus jobId).bind
      (fun q report hq => by cases q <;> simp_all [ReportEnds, PhaseMachine.Sim, JobPhase.Ends])
      (fun q err hq => by cases q <;> simp_all [ReportEnds, JobPhase.Ends])
  | process input => exact worker (sim_process input)
  | consume delivery => exact worker (sim_consume delivery)

end RealtimeOps
