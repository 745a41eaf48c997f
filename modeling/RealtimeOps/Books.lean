import RealtimeOps.Interleaving.Session
import RealtimeOps.Operations

/-!
# What a command writes

`Books` is the part of the world that records : jobs, attempts, alerts, incidents, the feed of
notifications and the audit trail. `Books.Writes` says what each command does to it when it runs
alone and every call goes through, as one transaction : one constructor for each way to end.

`writes_of` connects it to the code : whatever the environment's choices, a run of a command's
program in which every call resolves writes what `Writes` says. The invariants of sessions are
proved from it, by cases on the transaction.
-/

set_option autoImplicit false

namespace RealtimeOps

open Interleaving JobProcessorService

/-- The tables that record, with notifications and audit entries as their columns. -/
@[ext]
structure Books where
  jobs : Table JobEntity.id
  attempts : Table ProcessingAttemptEntity.id
  alerts : Table AlertEntity.id
  incidents : Table IncidentEntity.id
  feed : List NotificationColumns
  trail : List CreateAuditEntryInput

/-- The books of a world. -/
def World.books (w : World) : Books where
  jobs := w.jobs
  attempts := w.attempts
  alerts := w.alerts
  incidents := w.incidents
  feed := w.notifications.rows.map (·.toNotificationColumns)
  trail := w.auditEntries.rows.map (·.toCreateAuditEntryInput)

/-- The notification is of the given type and about the job. -/
def NotificationColumns.about (n : NotificationColumns) (type : NotificationType)
    (jobId : Uuid) : Prop :=
  n.type = type ∧ n.metadata.lookup "jobId" = some (.uuid jobId)

instance (n : NotificationColumns) (type : NotificationType) (jobId : Uuid) :
    Decidable (n.about type jobId) :=
  inferInstanceAs (Decidable (_ ∧ _))

/-- The incidents linked to an alert. -/
def Books.incidentsOf (b : Books) (alertId : Uuid) : List IncidentEntity :=
  b.incidents.rows.filter fun i => i.alertId = some alertId

/-- The alerts once the linked one, if there is one, is updated. -/
def updateLinked (alerts : Table AlertEntity.id) (linked : Option Uuid) (changes : AlertUpdate)
    (now : Date) : Table AlertEntity.id :=
  match linked.bind alerts.lookup with
  | some alert => alerts.save (changes.apply now alert)
  | none => alerts

/-- The linked alert is updated, and no other. -/
theorem lookup_updateLinked (alerts : Table AlertEntity.id) (linked : Option Uuid)
    (changes : AlertUpdate) (now : Date) (alertId : Uuid) :
    (updateLinked alerts linked changes now).lookup alertId =
      if linked = some alertId then (alerts.lookup alertId).map (changes.apply now)
      else alerts.lookup alertId := by
  unfold updateLinked
  cases linked with
  | none => rfl
  | some linkedId =>
    rw [Option.bind_some]
    cases hfound : alerts.lookup linkedId with
    | none =>
      split_ifs with hid
      · cases hid
        rw [hfound]
        rfl
      · rfl
    | some alert =>
      obtain ⟨-, rfl⟩ := Table.lookup_eq_some.mp hfound
      simp only [Table.lookup_save, Option.some.injEq]
      change (if alert.id = alertId then _ else _) = _
      split_ifs with hid
      · rw [← hid, hfound]
        rfl
      · rfl

/-- What an update of an alert writes, as the update of a linked alert. -/
theorem perform_updateAlert_linked {e : Env} {w w' : World} {alertId : Uuid}
    {changes : AlertUpdate} (h : perform e w (.updateAlert alertId changes) = some ((), w')) :
    w' = { w with alerts := updateLinked w.alerts (some alertId) changes e.now } := by
  obtain ⟨rfl, hnone⟩ | ⟨alert, halert, -, rfl⟩ := perform_updateAlert h
  · rw [updateLinked, Option.bind_some, hnone]
  · rw [updateLinked, Option.bind_some, Option.mem_def.mp halert]

/-! ## Links -/

/-- The alert of each linked incident exists. -/
def Books.Linked (b : Books) : Prop :=
  ∀ i ∈ b.incidents.rows, ∀ alertId, i.alertId = some alertId → (b.alerts.lookup alertId).isSome

namespace Books.Linked

variable {b b' : Books} {alert : AlertEntity} {incident : IncidentEntity}

/-- A new alert has no incident yet. -/
theorem incidentsOf_fresh (h : b.Linked) (hfresh : ∀ a ∈ b.alerts.rows, a.id ≠ alert.id) :
    b.incidentsOf alert.id = [] := by
  refine List.filter_eq_nil_iff.mpr fun i hi hlink => ?_
  obtain ⟨a, ha⟩ := Option.isSome_iff_exists.mp (h i hi _ (of_decide_eq_true hlink))
  obtain ⟨ha, hid⟩ := Table.lookup_eq_some.mp ha
  exact hfresh a ha hid

theorem of_eq (h : b.Linked) (halerts : b'.alerts = b.alerts)
    (hincidents : b'.incidents = b.incidents) : b'.Linked := by
  rw [Books.Linked, halerts, hincidents]
  exact h

/-- An alert is inserted. -/
theorem raised (h : b.Linked) (halerts : b.alerts.insert alert = some b'.alerts)
    (hincidents : b'.incidents = b.incidents) : b'.Linked := by
  rw [Books.Linked, hincidents]
  exact fun i hi alertId hlink => Table.isSome_lookup_insert halerts _ (h i hi alertId hlink)

/-- An alert and its incident are inserted. -/
theorem opened (h : b.Linked) (halerts : b.alerts.insert alert = some b'.alerts)
    (hincidents : b.incidents.insert incident = some b'.incidents)
    (hlink : incident.alertId = some alert.id) : b'.Linked := by
  intro i hi alertId hi'
  rcases (Table.mem_insert hincidents).mp hi with hi | rfl
  · exact Table.isSome_lookup_insert halerts _ (h i hi alertId hi')
  · cases hlink.symm.trans hi'
    rw [Table.lookup_insert halerts, if_pos rfl]
    rfl

/-- An incident is inserted whose alert is stored. -/
theorem incidentOpened (h : b.Linked) (halerts : b'.alerts = b.alerts)
    (hincidents : b.incidents.insert incident = some b'.incidents)
    (hlink : ∀ alertId, incident.alertId = some alertId → (b.alerts.lookup alertId).isSome) :
    b'.Linked := by
  rw [Books.Linked, halerts]
  intro i hi alertId hi'
  rcases (Table.mem_insert hincidents).mp hi with hi | rfl
  · exact h i hi alertId hi'
  · exact hlink alertId hi'

/-- An alert is written over or added. -/
theorem alertSaved (h : b.Linked) (halerts : b'.alerts = b.alerts.save alert)
    (hincidents : b'.incidents = b.incidents) : b'.Linked := by
  rw [Books.Linked, halerts, hincidents]
  intro i hi alertId hlink
  rw [Table.lookup_save]
  split_ifs
  · rfl
  · exact h i hi alertId hlink

/-- An incident is written over, with the link it has. -/
theorem incidentSaved {before : IncidentEntity} (h : b.Linked) (halerts : b'.alerts = b.alerts)
    (hincidents : b'.incidents = b.incidents.save incident) (hbefore : before ∈ b.incidents.rows)
    (hlink : before.alertId = incident.alertId) : b'.Linked := by
  rw [Books.Linked, halerts, hincidents]
  intro i hi alertId hi'
  rcases Table.mem_save.mp hi with rfl | ⟨hi, -⟩
  · exact h before hbefore alertId (hlink.trans hi')
  · exact h i hi alertId hi'

end Books.Linked

/-! ## Executions -/

/-- The job an execution has saved as processing. -/
def startedRow (job : JobEntity) (startedAt updatedAt : Date) : JobEntity :=
  { started job startedAt with updatedAt }

/-- The job a failed execution leaves. -/
def failedRow (job : JobEntity) (errorMessage : String) (finishedAt updatedAt : Date) :
    JobEntity :=
  { failedJob job errorMessage finishedAt with updatedAt }

/-- What one execution of `process` writes. -/
inductive Executed (b : Books) (jobId : Uuid) (b' : Books) : Prop where
  /-- The lock is taken, or there is no such job. -/
  | idle (h : b' = b)
  | completed {job : JobEntity} {attempt : ProcessingAttemptEntity} {n : NotificationColumns}
      {m m' : Record} {t u v x : Date} (hjob : b.jobs.lookup jobId = some job)
      (hgood : evaluateFailure (startedRow job t u) (job.attemptCount + 1) = none)
      (hcols : attempt.toAttemptColumns =
        newAttempt (startedRow job t u) (job.attemptCount + 1) t)
      (hjobs : b'.jobs = b.jobs.save { completed (startedRow job t u) v with updatedAt := x })
      (hattempts : b.attempts.insert (succeeded attempt v) = some b'.attempts)
      (halerts : b'.alerts = b.alerts) (hincidents : b'.incidents = b.incidents)
      (hfeed : b'.feed = b.feed ++ [n]) (hn : n.about .JOB_STATUS jobId)
      (htrail : b'.trail = b.trail ++
        [⟨.SYSTEM, none, "job.processing", .JOB, some jobId, m⟩] ++
        [⟨.SYSTEM, none, "job.completed", .JOB, some jobId, m'⟩])
  /-- The attempt fails with attempts left : an alert and no incident. -/
  | failed {job : JobEntity} {attempt : ProcessingAttemptEntity} {alert : AlertEntity}
      {n : NotificationColumns} {errorMessage : String} {m m' m'' : Record} {t u v x : Date}
      (hjob : b.jobs.lookup jobId = some job)
      (hbad : evaluateFailure (startedRow job t u) (job.attemptCount + 1) = some errorMessage)
      (hcols : attempt.toAttemptColumns =
        newAttempt (startedRow job t u) (job.attemptCount + 1) t)
      (hjobs : b'.jobs = b.jobs.save (failedRow (startedRow job t u) errorMessage v x))
      (hattempts : b.attempts.insert (failed attempt errorMessage v) = some b'.attempts)
      (halert : alert.toAlertColumns =
        failureAlert (failedRow (startedRow job t u) errorMessage v x) errorMessage)
      (halerts : b.alerts.insert alert = some b'.alerts) (hhigh : alert.severity ≠ .CRITICAL)
      (hincidents : b'.incidents = b.incidents)
      (hfeed : b'.feed = b.feed ++ [n]) (hn : n.about .ALERT jobId)
      (htrail : b'.trail = b.trail ++
        [⟨.SYSTEM, none, "job.processing", .JOB, some jobId, m⟩] ++
        [⟨.SYSTEM, none, "job.failed", .JOB, some jobId, m'⟩] ++
        [⟨.SYSTEM, none, "alert.raised", .ALERT, some alert.id, m''⟩])
  /-- The last attempt fails : a critical alert and its incident. -/
  | escalated {job : JobEntity} {attempt : ProcessingAttemptEntity} {alert : AlertEntity}
      {incident : IncidentEntity} {n : NotificationColumns} {errorMessage : String}
      {m m' m'' m''' : Record} {t u v x : Date} (hjob : b.jobs.lookup jobId = some job)
      (hbad : evaluateFailure (startedRow job t u) (job.attemptCount + 1) = some errorMessage)
      (hcols : attempt.toAttemptColumns =
        newAttempt (startedRow job t u) (job.attemptCount + 1) t)
      (hjobs : b'.jobs = b.jobs.save (failedRow (startedRow job t u) errorMessage v x))
      (hattempts : b.attempts.insert (JobProcessorService.failed attempt errorMessage v) =
        some b'.attempts)
      (halert : alert.toAlertColumns =
        failureAlert (failedRow (startedRow job t u) errorMessage v x) errorMessage)
      (halerts : b.alerts.insert alert = some b'.alerts) (hcritical : alert.severity = .CRITICAL)
      (hincident : incident.toIncidentColumns =
        failureIncident (failedRow (startedRow job t u) errorMessage v x) alert errorMessage)
      (hfree : ∀ i ∈ b.incidents.rows, i.alertId ≠ some alert.id)
      (hincidents : b.incidents.insert incident = some b'.incidents)
      (hfeed : b'.feed = b.feed ++ [n]) (hn : n.about .ALERT jobId)
      (htrail : b'.trail = b.trail ++
        [⟨.SYSTEM, none, "job.processing", .JOB, some jobId, m⟩] ++
        [⟨.SYSTEM, none, "job.failed", .JOB, some jobId, m'⟩] ++
        [⟨.SYSTEM, none, "alert.raised", .ALERT, some alert.id, m''⟩] ++
        [⟨.SYSTEM, none, "incident.created", .INCIDENT, some incident.id, m'''⟩])

/-! ## Commands -/

theorem forall_mem_of_eq_none {α : Type} {o : Option α} {p : α → Prop} (h : o = none) :
    ∀ a ∈ o, p a :=
  fun _ ha => nomatch h.symm.trans ha

theorem forall_mem_of_eq_some {α : Type} {o : Option α} {a : α} {p : α → Prop} (h : o = some a)
    (ha : p a) : ∀ b ∈ o, p b := by
  intro b hb
  cases h.symm.trans hb
  exact ha

/-- The job a command executes, if it is an execution. -/
def Command.executes : Command → Option Uuid
  | .job (.process input) => some input.jobId
  | .job (.consume delivery) => delivery.message.jobId
  | _ => none

/-- The commands that are refused : the row is missing or in the wrong state. -/
def Books.Refuses (b : Books) : Command → Prop
  | .job (.retry jobId _) =>
    ∀ job ∈ b.jobs.lookup jobId, job.status ≠ .FAILED ∨ job.maxAttempts ≤ job.attemptCount
  | .acknowledgeAlert alertId _ => ∀ alert ∈ b.alerts.lookup alertId, alert.status = .RESOLVED
  | .acknowledge incidentId _ | .resolve incidentId _ =>
    ∀ incident ∈ b.incidents.lookup incidentId, incident.status = .RESOLVED
  | _ => False

/-- What a command writes, and how it ends. -/
inductive Books.Writes (b : Books) :
    Command → Except Failure Response → Books → Prop where
  | refused {command : Command} (h : b.Refuses command) (err : Failure) :
      Writes b command (.error err) b
  | read (jobId : Uuid) (r : Except Failure Response) : Writes b (.job (.getStatus jobId)) r b
  /-- A message that asks for no execution. -/
  | dropped {delivery : Delivery} (hnone : delivery.message.jobId = none)
      (r : Except Failure Response) : Writes b (.job (.consume delivery)) r b
  | executed {command : Command} {jobId : Uuid} {b' : Books}
      (hcommand : command.executes = some jobId) (h : Executed b jobId b') :
      Writes b command (.ok (.job .done)) b'
  | created {input : CreateJobInput} {job : JobEntity} {n : NotificationColumns} {m : Record}
      {b' : Books} (hcols : job.toJobColumns = (JobService.newJob input).stored)
      (hjobs : b.jobs.insert job = some b'.jobs) (hattempts : b'.attempts = b.attempts)
      (halerts : b'.alerts = b.alerts) (hincidents : b'.incidents = b.incidents)
      (hfeed : b'.feed = b.feed ++ [n]) (hn : n.about .JOB_STATUS job.id)
      (htrail : b'.trail = b.trail ++
        [⟨.OPERATOR, some input.operatorId, "job.created", .JOB, some job.id, m⟩]) :
      Writes b (.job (.create input)) (.ok (.job (.job job))) b'
  | retried {jobId : Uuid} {operatorId : String} {job : JobEntity} {n : NotificationColumns}
      {m : Record} {t : Date} {b' : Books} (hjob : b.jobs.lookup jobId = some job)
      (hstatus : job.status = .FAILED) (hleft : job.attemptCount < job.maxAttempts)
      (hjobs : b'.jobs = b.jobs.save { JobService.requeued job with updatedAt := t })
      (hattempts : b'.attempts = b.attempts) (halerts : b'.alerts = b.alerts)
      (hincidents : b'.incidents = b.incidents) (hfeed : b'.feed = b.feed ++ [n])
      (hn : n.about .JOB_STATUS jobId)
      (htrail : b'.trail = b.trail ++
        [⟨.OPERATOR, some operatorId, "job.retried", .JOB, some jobId, m⟩]) :
      Writes b (.job (.retry jobId operatorId))
        (.ok (.job (.job { JobService.requeued job with updatedAt := t }))) b'
  | raised {input : CreateAlertInput} {alert : AlertEntity} {m : Record} {b' : Books}
      (hcols : alert.toAlertColumns = AlertService.newAlert input)
      (hopens : ¬input.opensIncident) (halerts : b.alerts.insert alert = some b'.alerts)
      (hincidents : b'.incidents = b.incidents) (hjobs : b'.jobs = b.jobs)
      (hattempts : b'.attempts = b.attempts) (hfeed : b'.feed = b.feed)
      (htrail : b'.trail = b.trail ++
        [⟨.OPERATOR, some input.operatorId, "alert.created", .ALERT, some alert.id, m⟩]) :
      Writes b (.createAlert input) (.ok (.raised alert none)) b'
  | raisedWithIncident {input : CreateAlertInput} {alert : AlertEntity}
      {incident : IncidentEntity} {m : Record} {b' : Books}
      (hcols : alert.toAlertColumns = AlertService.newAlert input)
      (hopens : input.opensIncident) (halerts : b.alerts.insert alert = some b'.alerts)
      (hincident : incident.toIncidentColumns = AlertService.newIncident alert)
      (hfree : ∀ i ∈ b.incidents.rows, i.alertId ≠ some alert.id)
      (hincidents : b.incidents.insert incident = some b'.incidents) (hjobs : b'.jobs = b.jobs)
      (hattempts : b'.attempts = b.attempts) (hfeed : b'.feed = b.feed)
      (htrail : b'.trail = b.trail ++
        [⟨.OPERATOR, some input.operatorId, "alert.created", .ALERT, some alert.id, m⟩]) :
      Writes b (.createAlert input) (.ok (.raised alert (some incident))) b'
  | alertAcknowledged {alertId : Uuid} {operatorId : String} {alert : AlertEntity}
      {incident : Option IncidentEntity} {m : Record} {t u : Date} {b' : Books}
      (halert : b.alerts.lookup alertId = some alert) (hstatus : alert.status ≠ .RESOLVED)
      (halerts : b'.alerts = b.alerts.save
        { AlertService.acknowledged alert operatorId t with updatedAt := u })
      (hincidents : b'.incidents = b.incidents) (hjobs : b'.jobs = b.jobs)
      (hattempts : b'.attempts = b.attempts) (hfeed : b'.feed = b.feed)
      (htrail : b'.trail = b.trail ++
        [⟨.OPERATOR, some operatorId, "alert.acknowledged", .ALERT, some alertId, m⟩]) :
      Writes b (.acknowledgeAlert alertId operatorId)
        (.ok (.alert { AlertService.acknowledged alert operatorId t with updatedAt := u }
          incident)) b'
  | acknowledged {incidentId : Uuid} {operatorId : String} {incident : IncidentEntity}
      {t u v x : Date} {b' : Books} (hincident : b.incidents.lookup incidentId = some incident)
      (hstatus : incident.status ≠ .RESOLVED)
      (hincidents : b'.incidents = b.incidents.save
        { IncidentService.acknowledged incident operatorId t with updatedAt := u })
      (halerts : b'.alerts = updateLinked b.alerts incident.alertId
        (IncidentService.acknowledgedAlert operatorId v) x)
      (hjobs : b'.jobs = b.jobs) (hattempts : b'.attempts = b.attempts) (hfeed : b'.feed = b.feed)
      (htrail : b'.trail = b.trail ++
        [⟨.OPERATOR, some operatorId, "incident.acknowledged", .INCIDENT, some incidentId,
          [("previousStatus", .str IncidentStatus.OPEN.value)]⟩]) :
      Writes b (.acknowledge incidentId operatorId)
        (.ok (.incident
          { IncidentService.acknowledged incident operatorId t with updatedAt := u })) b'
  /-- `before` is the incident, acknowledged by the same operator if it was open. -/
  | resolved {incidentId : Uuid} {operatorId : String} {incident before : IncidentEntity}
      {m : Record} {s t u v x : Date} {b' : Books}
      (hincident : b.incidents.lookup incidentId = some incident)
      (hstatus : incident.status ≠ .RESOLVED)
      (hbefore : before =
        if incident.status = .OPEN then
          { incident with acknowledgedAt := some s, acknowledgedBy := some operatorId }
        else incident)
      (hincidents : b'.incidents = b.incidents.save
        { IncidentService.resolved before operatorId t with updatedAt := u })
      (halerts : b'.alerts = updateLinked b.alerts incident.alertId
        (IncidentService.resolvedAlert operatorId v) x)
      (hjobs : b'.jobs = b.jobs) (hattempts : b'.attempts = b.attempts) (hfeed : b'.feed = b.feed)
      (htrail : b'.trail = b.trail ++
        [⟨.OPERATOR, some operatorId, "incident.resolved", .INCIDENT, some incidentId, m⟩]) :
      Writes b (.resolve incidentId operatorId)
        (.ok (.incident { IncidentService.resolved before operatorId t with updatedAt := u })) b'

/-! ## The code writes so -/

section Rows

variable {w : World}

theorem feed_insert {n : NotificationEntity} {t : Table NotificationEntity.id}
    (h : w.notifications.insert n = some t) :
    t.rows.map (·.toNotificationColumns) = w.books.feed ++ [n.toNotificationColumns] := by
  rw [(Table.insert_eq_some h).1, List.map_append]
  rfl

theorem trail_insert {t t' : Table AuditEntryEntity.id} {entry : AuditEntryEntity}
    (h : t.insert entry = some t') :
    t'.rows.map (·.toCreateAuditEntryInput) =
      t.rows.map (·.toCreateAuditEntryInput) ++ [entry.toCreateAuditEntryInput] := by
  rw [(Table.insert_eq_some h).1, List.map_append]
  rfl

end Rows

/-- The job is saved as processing and its attempt is inserted. -/
structure Executing (b : Books) (job : JobEntity) (attempt : ProcessingAttemptEntity) (t u : Date)
    (m : Record) (w : World) : Prop where
  found : b.jobs.lookup job.id = some job
  cols : attempt.toAttemptColumns =
    newAttempt (startedRow job t u) (job.attemptCount + 1) t
  attempts : b.attempts.insert attempt = some w.attempts
  jobs : w.jobs = b.jobs.save (startedRow job t u)
  alerts : w.alerts = b.alerts
  incidents : w.incidents = b.incidents
  feed : w.books.feed = b.feed
  trail : w.books.trail = b.trail ++ [⟨.SYSTEM, none, "job.processing", .JOB, some job.id, m⟩]

section Execution

variable {b : Books} {job : JobEntity} {attempt : ProcessingAttemptEntity} {t u : Date}
  {m : Record} {w : World}

theorem ensures_markCompleted (h : Executing b job attempt t u m w)
    (hgood : evaluateFailure (startedRow job t u) (job.attemptCount + 1) = none) :
    Prog.Ensures handle (fun r w' => r = .ok () ∧ Executed b job.id w'.books)
      (markCompleted (startedRow job t u) attempt) w := by
  unfold markCompleted
  refine ensures_await fun e₁ _ w₁ hp => ?_
  cases hp
  refine ensures_await fun e₂ _ w₁ hp => ?_
  cases hp
  refine ensures_await fun e₃ _ w₁ hp => ?_
  obtain ⟨x, rfl, rfl⟩ := perform_saveJob hp
  refine ensures_await fun e₄ n w₁ hp => ?_
  obtain ⟨notifications, hn, hrow, rfl⟩ := perform_insertNotification hp
  rw [hrow] at hn
  refine ensures_await fun e₅ _ w₁ hp => ?_
  obtain ⟨-, entries, hentries, -, rfl⟩ := perform_insertAuditEntry hp
  refine ensures_await fun e₆ _ w₁ hp => ?_
  cases hp
  refine ensures_await fun e₇ _ w₁ hp => ?_
  cases hp
  have habout : n.about .JOB_STATUS job.id := by
    rw [← hrow]
    exact ⟨rfl, rfl⟩
  exact ⟨rfl, .completed h.found hgood h.cols
    ((congrArg (Table.save · _) h.jobs).trans (Table.save_save rfl))
    (Table.insert_save h.attempts rfl) h.alerts h.incidents
    ((feed_insert hn).trans (congrArg (· ++ _) h.feed)) habout
    ((trail_insert hentries).trans (congrArg (· ++ _) h.trail))⟩

/-- What `reportFailure` adds once the rows are written. -/
structure Reported (w : World) (jobId alertId : Uuid) (incident : Option IncidentEntity)
    (w' : World) : Prop where
  jobs : w'.jobs = w.jobs
  attempts : w'.attempts = w.attempts
  alerts : w'.alerts = w.alerts
  incidents : w'.incidents = w.incidents
  feed : ∃ n : NotificationColumns, n.about .ALERT jobId ∧ w'.books.feed = w.books.feed ++ [n]
  trail : ∃ m m' m'' : Record,
    match incident with
    | none => w'.books.trail = w.books.trail ++
        [⟨.SYSTEM, none, "job.failed", .JOB, some jobId, m⟩] ++
        [⟨.SYSTEM, none, "alert.raised", .ALERT, some alertId, m'⟩]
    | some incident => w'.books.trail = w.books.trail ++
        [⟨.SYSTEM, none, "job.failed", .JOB, some jobId, m⟩] ++
        [⟨.SYSTEM, none, "alert.raised", .ALERT, some alertId, m'⟩] ++
        [⟨.SYSTEM, none, "incident.created", .INCIDENT, some incident.id, m''⟩]

theorem ensures_reportFailure (row : JobEntity) (errorMessage : String) (finishedAt : Date)
    (alert : AlertEntity) (incident : Option IncidentEntity) :
    Prog.Ensures handle (fun r w' => r = .ok () ∧ Reported w row.id alert.id incident w')
      (reportFailure row attempt errorMessage finishedAt alert incident) w := by
  unfold reportFailure
  refine ensures_await fun e₁ n w₁ hp => ?_
  obtain ⟨notifications, hn, hrow, rfl⟩ := perform_insertNotification hp
  rw [hrow] at hn
  have habout : n.about .ALERT row.id := by
    rw [← hrow]
    exact ⟨rfl, rfl⟩
  refine ensures_await fun e₂ _ w₁ hp => ?_
  obtain ⟨-, entries, hentries, -, rfl⟩ := perform_insertAuditEntry hp
  refine ensures_await fun e₃ _ w₁ hp => ?_
  obtain ⟨-, entries', hentries', -, rfl⟩ := perform_insertAuditEntry hp
  have htrail := (trail_insert hentries').trans (congrArg (· ++ _) (trail_insert hentries))
  cases incident with
  | none =>
    refine ensures_await fun e₄ _ w₁ hp => ?_
    cases hp
    refine ensures_await fun e₅ _ w₁ hp => ?_
    cases hp
    refine ensures_await fun e₆ _ w₁ hp => ?_
    cases hp
    exact ⟨rfl, rfl, rfl, rfl, rfl, ⟨_, habout, feed_insert hn⟩, _, _, [], htrail⟩
  | some incident =>
    refine ensures_await fun e₄ _ w₁ hp => ?_
    obtain ⟨-, entries'', hentries'', -, rfl⟩ := perform_insertAuditEntry hp
    refine ensures_await fun e₅ _ w₁ hp => ?_
    cases hp
    refine ensures_await fun e₆ _ w₁ hp => ?_
    cases hp
    refine ensures_await fun e₇ _ w₁ hp => ?_
    cases hp
    refine ensures_await fun e₈ _ w₁ hp => ?_
    cases hp
    exact ⟨rfl, rfl, rfl, rfl, rfl, ⟨_, habout, feed_insert hn⟩, _, _, _,
      (trail_insert hentries'').trans (congrArg (· ++ _) htrail)⟩

theorem ensures_markFailed {errorMessage : String} (h : Executing b job attempt t u m w)
    (hbad : evaluateFailure (startedRow job t u) (job.attemptCount + 1) = some errorMessage) :
    Prog.Ensures handle (fun r w' => r = .ok () ∧ Executed b job.id w'.books)
      (markFailed (startedRow job t u) attempt errorMessage) w := by
  unfold markFailed
  refine ensures_await fun e₁ _ w₁ hp => ?_
  cases hp
  refine ensures_await fun e₂ _ w₁ hp => ?_
  cases hp
  refine ensures_await fun e₃ _ w₁ hp => ?_
  obtain ⟨x, rfl, rfl⟩ := perform_saveJob hp
  have hjobs := (congrArg
    (Table.save · (failedRow (startedRow job t u) errorMessage e₁.now x)) h.jobs).trans
      (Table.save_save rfl)
  have hattempts := Table.insert_save h.attempts
    (b := JobProcessorService.failed attempt errorMessage e₁.now) rfl
  refine ensures_await fun e₄ alert w₁ hp => ?_
  obtain ⟨-, alerts, halerts, halert, rfl⟩ := perform_insertAlert hp
  have hcols : alert.toAlertColumns =
      failureAlert (failedRow (startedRow job t u) errorMessage e₁.now x) errorMessage := by
    rw [← halert]
    rfl
  have hsevere : alert.severity =
      failureSeverity (failedRow (startedRow job t u) errorMessage e₁.now x) :=
    congrArg AlertColumns.severity hcols
  have halerts : b.alerts.insert alert = some alerts := by
    rw [← h.alerts, ← halert]
    exact halerts
  split_ifs with hsev
  · refine ensures_await fun e₅ incident w₁ hp => ?_
    obtain ⟨⟨hfree, -⟩, incidents, hincidents, hincident, rfl⟩ := perform_insertIncident hp
    have hicols : incident.toIncidentColumns = failureIncident
        (failedRow (startedRow job t u) errorMessage e₁.now x) alert errorMessage := by
      rw [← hincident]
      rfl
    have hincidents : b.incidents.insert incident = some incidents := by
      rw [← h.incidents, ← hincident]
      exact hincidents
    have hfree : ∀ i ∈ b.incidents.rows, i.alertId ≠ some alert.id := by
      rw [← h.incidents]
      exact (hfree alert.id rfl).2
    refine (ensures_reportFailure _ errorMessage e₁.now alert (some incident)).mono ?_
    rintro r w' ⟨rfl, hj, ha, hal, hi, ⟨n, hn, hfeed⟩, m', m'', m''', htrail⟩
    exact ⟨rfl, .escalated h.found hbad h.cols (hj.trans hjobs)
      (hattempts.trans (congrArg some ha.symm)) hcols (halerts.trans (congrArg some hal.symm))
      (hsevere.trans hsev) hicols hfree (hincidents.trans (congrArg some hi.symm))
      (hfeed.trans (congrArg (· ++ _) h.feed)) hn
      (htrail.trans (congrArg (· ++ _ ++ _ ++ _) h.trail))⟩
  · refine (ensures_reportFailure _ errorMessage e₁.now alert none).mono ?_
    rintro r w' ⟨rfl, hj, ha, hal, hi, ⟨n, hn, hfeed⟩, m', m'', _, htrail⟩
    exact ⟨rfl, .failed h.found hbad h.cols (hj.trans hjobs)
      (hattempts.trans (congrArg some ha.symm)) hcols (halerts.trans (congrArg some hal.symm))
      (fun hc => hsev (hsevere.symm.trans hc)) (hi.trans h.incidents)
      (hfeed.trans (congrArg (· ++ _) h.feed)) hn
      (htrail.trans (congrArg (· ++ _ ++ _) h.trail))⟩

theorem ensures_processJob (input : ProcessJobInput) (hjob : w.jobs.lookup job.id = some job) :
    Prog.Ensures handle (fun r w' => r = .ok () ∧ Executed w.books job.id w'.books)
      (processJob input job) w := by
  unfold processJob
  refine ensures_await fun e₁ _ w₁ hp => ?_
  cases hp
  refine ensures_await fun e₂ _ w₁ hp => ?_
  obtain ⟨u, rfl, rfl⟩ := perform_saveJob hp
  refine ensures_await fun e₃ _ w₁ hp => ?_
  cases hp
  refine ensures_await fun e₄ _ w₁ hp => ?_
  obtain ⟨-, entries, hentries, -, rfl⟩ := perform_insertAuditEntry hp
  refine ensures_await fun e₅ attempt w₁ hp => ?_
  obtain ⟨-, attempts, hattempts, hrow, rfl⟩ := perform_insertAttempt hp
  have hattempts : w.attempts.insert attempt = some attempts := hrow ▸ hattempts
  have hcols : attempt.toAttemptColumns =
      newAttempt (startedRow job e₁.now u) (job.attemptCount + 1) e₁.now :=
    congrArg ProcessingAttemptEntity.toAttemptColumns hrow.symm
  refine ensures_await fun e₆ _ w₁ hp => ?_
  cases hp
  split
  · rename_i errorMessage hbad
    refine ensures_markFailed (t := e₁.now) (u := u)
      ⟨hjob, hcols, hattempts, ?_, ?_, ?_, ?_, trail_insert hentries⟩ hbad
    all_goals rfl
  · rename_i hgood
    refine ensures_markCompleted (t := e₁.now) (u := u)
      ⟨hjob, hcols, hattempts, ?_, ?_, ?_, ?_, trail_insert hentries⟩ hgood
    all_goals rfl

theorem ensures_process (input : ProcessJobInput) :
    Prog.Ensures handle (fun r w' => r = .ok () ∧ Executed w.books input.jobId w'.books)
      (process input) w := by
  unfold process RedisLockService.acquireLock
  refine ensures_await fun e acquired w₁ hp => ?_
  have hbooks : w₁.books = w.books := by
    simp only [perform] at hp
    split at hp <;> cases hp <;> rfl
  split_ifs with hacquired
  · refine Prog.Ensures.tryFinally
      (Q := fun r w' => r = .ok () ∧ Executed w.books input.jobId w'.books) ?_ ?_
    · rintro r w' ⟨rfl, hexecuted⟩
      refine ensures_await fun e _ w₂ hp => ?_
      cases hp
      exact ⟨rfl, hexecuted⟩
    · refine ensures_await fun e found w₂ hp => ?_
      cases hp
      cases hfound : w₁.jobs.lookup input.jobId with
      | none => exact ⟨rfl, .idle hbooks⟩
      | some job =>
        obtain ⟨-, hid⟩ := Table.lookup_eq_some.mp hfound
        rw [← hbooks]
        rw [← hid] at hfound ⊢
        exact ensures_processJob input hfound
  · exact ⟨rfl, .idle hbooks⟩

end Execution

section Commands

variable {w : World}

theorem ensures_create (input : CreateJobInput) :
    Prog.Ensures handle
      (fun r w' => w.books.Writes (.job (.create input)) ((r.map Result.job).map .job) w'.books)
      (JobService.create input) w := by
  unfold JobService.create
  refine ensures_await fun e₁ job w₁ hp => ?_
  obtain ⟨-, jobs, hjobs, hrow, rfl⟩ := perform_insertJob hp
  have hjobs : w.jobs.insert job = some jobs := hrow ▸ hjobs
  have hcols : job.toJobColumns = (JobService.newJob input).stored :=
    congrArg JobEntity.toJobColumns hrow.symm
  refine ensures_await fun e₂ _ w₁ hp => ?_
  obtain ⟨-, actions, -, -, rfl⟩ := perform_insertOperatorAction hp
  refine ensures_await fun e₃ _ w₁ hp => ?_
  obtain ⟨-, entries, hentries, -, rfl⟩ := perform_insertAuditEntry hp
  refine ensures_await fun e₄ n w₁ hp => ?_
  obtain ⟨notifications, hn, hrow', rfl⟩ := perform_insertNotification hp
  have hn : w.notifications.insert n = some notifications := hrow' ▸ hn
  have habout : n.about .JOB_STATUS job.id := by
    rw [← hrow']
    exact ⟨rfl, rfl⟩
  refine ensures_await fun e₅ _ w₁ hp => ?_
  cases hp
  refine ensures_await fun e₆ _ w₁ hp => ?_
  cases hp
  refine ensures_await fun e₇ _ w₁ hp => ?_
  cases hp
  exact .created hcols hjobs rfl rfl rfl (feed_insert hn) habout (trail_insert hentries)

theorem ensures_retry (jobId : Uuid) (operatorId : String) :
    Prog.Ensures handle
      (fun r w' => w.books.Writes (.job (.retry jobId operatorId)) ((r.map Result.job).map .job)
        w'.books)
      (JobService.retry jobId operatorId) w := by
  unfold JobService.retry
  rw [Prog.bind_eq, JobService.getById_bind]
  refine ensures_await fun e₁ found w₁ hp => ?_
  cases hp
  cases hfound : w.jobs.lookup jobId with
  | none =>
    refine .refused ?_ _
    exact forall_mem_of_eq_none hfound
  | some job =>
    dsimp only
    split_ifs with hs hmax
    · refine .refused ?_ _
      exact forall_mem_of_eq_some hfound (.inl hs)
    · refine .refused ?_ _
      exact forall_mem_of_eq_some hfound (.inr hmax)
    obtain ⟨-, hid⟩ := Table.lookup_eq_some.mp hfound
    refine ensures_await fun e₂ updated w₁ hp => ?_
    obtain ⟨u, rfl, rfl⟩ := perform_saveJob hp
    refine ensures_await fun e₃ _ w₁ hp => ?_
    obtain ⟨-, actions, -, -, rfl⟩ := perform_insertOperatorAction hp
    refine ensures_await fun e₄ _ w₁ hp => ?_
    obtain ⟨-, entries, hentries, -, rfl⟩ := perform_insertAuditEntry hp
    refine ensures_await fun e₅ n w₁ hp => ?_
    obtain ⟨notifications, hn, hrow, rfl⟩ := perform_insertNotification hp
    have hn : w.notifications.insert n = some notifications := hrow ▸ hn
    have habout : n.about .JOB_STATUS jobId := by
      rw [← hrow, ← hid]
      exact ⟨rfl, rfl⟩
    refine ensures_await fun e₆ _ w₁ hp => ?_
    cases hp
    refine ensures_await fun e₇ _ w₁ hp => ?_
    cases hp
    refine ensures_await fun e₈ _ w₁ hp => ?_
    cases hp
    exact .retried hfound (not_not.mp hs) (Nat.not_le.mp hmax) rfl rfl rfl rfl (feed_insert hn)
      habout (hid ▸ trail_insert hentries)

theorem ensures_announce (input : CreateAlertInput) (alert : AlertEntity)
    (incident : Option IncidentEntity) :
    Prog.Ensures handle
      (fun r w' => r = .ok (alert, incident) ∧ w'.jobs = w.jobs ∧ w'.attempts = w.attempts ∧
        w'.alerts = w.alerts ∧ w'.incidents = w.incidents ∧ w'.books.feed = w.books.feed ∧
          ∃ m, w'.books.trail = w.books.trail ++
            [⟨.OPERATOR, some input.operatorId, "alert.created", .ALERT, some alert.id, m⟩])
      (AlertService.announce input alert incident) w := by
  unfold AlertService.announce
  refine ensures_await fun e₁ _ w₁ hp => ?_
  obtain ⟨-, actions, -, -, rfl⟩ := perform_insertOperatorAction hp
  refine ensures_await fun e₂ _ w₁ hp => ?_
  obtain ⟨-, entries, hentries, -, rfl⟩ := perform_insertAuditEntry hp
  refine ensures_await fun e₃ _ w₁ hp => ?_
  cases hp
  cases incident with
  | none => exact ⟨rfl, rfl, rfl, rfl, rfl, rfl, _, trail_insert hentries⟩
  | some incident =>
    refine ensures_await fun e₄ _ w₁ hp => ?_
    cases hp
    exact ⟨rfl, rfl, rfl, rfl, rfl, rfl, _, trail_insert hentries⟩

theorem ensures_createAlert (input : CreateAlertInput) :
    Prog.Ensures handle
      (fun r w' => w.books.Writes (.createAlert input) (r.map fun r => .raised r.1 r.2) w'.books)
      (AlertService.create input) w := by
  unfold AlertService.create
  refine ensures_await fun e₁ alert w₁ hp => ?_
  obtain ⟨-, alerts, halerts, hrow, rfl⟩ := perform_insertAlert hp
  have halerts : w.alerts.insert alert = some alerts := hrow ▸ halerts
  have hcols : alert.toAlertColumns = AlertService.newAlert input :=
    congrArg AlertEntity.toAlertColumns hrow.symm
  split_ifs with hopens
  · refine ensures_await fun e₂ incident w₁ hp => ?_
    obtain ⟨⟨hfree, -⟩, incidents, hincidents, hrow', rfl⟩ := perform_insertIncident hp
    have hincidents : w.incidents.insert incident = some incidents := hrow' ▸ hincidents
    have hicols : incident.toIncidentColumns = AlertService.newIncident alert :=
      congrArg IncidentEntity.toIncidentColumns hrow'.symm
    refine (ensures_announce input alert (some incident)).mono ?_
    rintro r w' ⟨rfl, hj, ha, hal, hi, hfeed, m, htrail⟩
    exact .raisedWithIncident hcols hopens (halerts.trans (congrArg some hal.symm)) hicols
      (hfree alert.id rfl).2 (hincidents.trans (congrArg some hi.symm)) hj ha hfeed htrail
  · refine (ensures_announce input alert none).mono ?_
    rintro r w' ⟨rfl, hj, ha, hal, hi, hfeed, m, htrail⟩
    exact .raised hcols hopens (halerts.trans (congrArg some hal.symm)) hi hj ha hfeed htrail

theorem ensures_acknowledgeAlert (alertId : Uuid) (operatorId : String) :
    Prog.Ensures handle
      (fun r w' => w.books.Writes (.acknowledgeAlert alertId operatorId)
        (r.map fun r => .alert r.1 r.2) w'.books)
      (AlertService.acknowledge alertId operatorId) w := by
  unfold AlertService.acknowledge
  rw [Prog.bind_eq, AlertService.getById_bind]
  refine ensures_await fun e₁ found w₁ hp => ?_
  cases hp
  cases hfound : w.alerts.lookup alertId with
  | none =>
    refine .refused ?_ _
    exact forall_mem_of_eq_none hfound
  | some alert =>
    dsimp only [Option.map_some]
    split_ifs with hs
    · refine .refused ?_ _
      exact forall_mem_of_eq_some hfound hs
    obtain ⟨-, hid⟩ := Table.lookup_eq_some.mp hfound
    refine ensures_await fun e₂ _ w₁ hp => ?_
    cases hp
    refine ensures_await fun e₃ updated w₁ hp => ?_
    obtain ⟨-, rfl, incidents, hincidents, rfl⟩ := perform_saveAlert hp
    obtain rfl : w.incidents = incidents :=
      Option.some.inj (World.relate_incidentOf.symm.trans hincidents)
    refine ensures_await fun e₄ _ w₁ hp => ?_
    obtain ⟨-, entries, hentries, -, rfl⟩ := perform_insertAuditEntry hp
    refine ensures_await fun e₅ _ w₁ hp => ?_
    cases hp
    exact .alertAcknowledged hfound hs rfl rfl rfl rfl rfl (hid ▸ trail_insert hentries)

theorem ensures_propagate (incident updated : IncidentEntity) (operatorId : String)
    (changes : Date → AlertUpdate) (action auditAction : String) (metadata payload : Record) :
    Prog.Ensures handle
      (fun r w' => r = .ok updated ∧ w'.jobs = w.jobs ∧ w'.attempts = w.attempts ∧
        w'.incidents = w.incidents ∧
        (∃ v x, w'.alerts = updateLinked w.alerts incident.alertId (changes v) x) ∧
        w'.books.feed = w.books.feed ∧ w'.books.trail = w.books.trail ++
          [⟨.OPERATOR, some operatorId, auditAction, .INCIDENT, some incident.id, metadata⟩])
      (IncidentService.propagate incident updated operatorId changes action auditAction metadata
        payload) w := by
  unfold IncidentService.propagate
  cases incident.alertId with
  | none =>
    refine ensures_await fun e₁ _ w₁ hp => ?_
    obtain ⟨-, actions, -, -, rfl⟩ := perform_insertOperatorAction hp
    refine ensures_await fun e₂ _ w₁ hp => ?_
    obtain ⟨-, entries, hentries, -, rfl⟩ := perform_insertAuditEntry hp
    refine ensures_await fun e₃ _ w₁ hp => ?_
    cases hp
    exact ⟨rfl, rfl, rfl, rfl, ⟨0, 0, rfl⟩, rfl, trail_insert hentries⟩
  | some alertId =>
    refine ensures_await fun e₁ _ w₁ hp => ?_
    cases hp
    refine ensures_await fun e₂ _ w₁ hp => ?_
    obtain rfl := perform_updateAlert_linked hp
    refine ensures_await fun e₃ _ w₁ hp => ?_
    obtain ⟨-, actions, -, -, rfl⟩ := perform_insertOperatorAction hp
    refine ensures_await fun e₄ _ w₁ hp => ?_
    obtain ⟨-, entries, hentries, -, rfl⟩ := perform_insertAuditEntry hp
    refine ensures_await fun e₅ _ w₁ hp => ?_
    cases hp
    exact ⟨rfl, rfl, rfl, rfl, ⟨e₁.now, e₂.now, rfl⟩, rfl, trail_insert hentries⟩

theorem ensures_acknowledge (incidentId : Uuid) (operatorId : String) :
    Prog.Ensures handle
      (fun r w' => w.books.Writes (.acknowledge incidentId operatorId) (r.map .incident) w'.books)
      (IncidentService.acknowledge incidentId operatorId) w := by
  unfold IncidentService.acknowledge
  rw [Prog.bind_eq, IncidentService.getIncident_bind]
  refine ensures_await fun e₁ found w₁ hp => ?_
  cases hp
  cases hfound : w.incidents.lookup incidentId with
  | none =>
    refine .refused ?_ _
    exact forall_mem_of_eq_none hfound
  | some incident =>
    dsimp only
    split_ifs with hs
    · refine .refused ?_ _
      exact forall_mem_of_eq_some hfound hs
    obtain ⟨-, hid⟩ := Table.lookup_eq_some.mp hfound
    refine ensures_await fun e₂ _ w₁ hp => ?_
    cases hp
    refine ensures_await fun e₃ updated w₁ hp => ?_
    obtain ⟨-, -, rfl, rfl⟩ := perform_saveIncident hp
    refine (ensures_propagate incident _ operatorId _ _ _ _ _).mono ?_
    rintro r w' ⟨rfl, hj, ha, hi, ⟨v, x, hal⟩, hfeed, htrail⟩
    exact .acknowledged hfound hs hi hal hj ha hfeed (hid ▸ htrail)

theorem ensures_settle {incident before : IncidentEntity} {incidentId : Uuid} {operatorId : String}
    {s : Date} (hfound : w.incidents.lookup incidentId = some incident)
    (hs : incident.status ≠ .RESOLVED)
    (hbefore : before =
      if incident.status = .OPEN then
        { incident with acknowledgedAt := some s, acknowledgedBy := some operatorId }
      else incident) {b : Books} (hb : w.books = b) :
    Prog.Ensures handle
      (fun r w' => b.Writes (.resolve incidentId operatorId) (r.map .incident) w'.books)
      (IncidentService.settle before operatorId) w := by
  obtain ⟨-, hid⟩ := Table.lookup_eq_some.mp hfound
  have hsame : before.id = incidentId ∧ before.alertId = incident.alertId := by
    rw [hbefore]
    split_ifs
    · exact ⟨hid, rfl⟩
    · exact ⟨hid, rfl⟩
  subst hb
  unfold IncidentService.settle
  refine ensures_await fun e₁ _ w₁ hp => ?_
  cases hp
  refine ensures_await fun e₂ updated w₁ hp => ?_
  obtain ⟨-, -, rfl, rfl⟩ := perform_saveIncident hp
  refine (ensures_propagate before _ operatorId _ _ _ _ _).mono ?_
  rintro r w' ⟨rfl, hj, ha, hi, ⟨v, x, hal⟩, hfeed, htrail⟩
  exact .resolved hfound hs hbefore hi (hsame.2 ▸ hal) hj ha hfeed (hsame.1 ▸ htrail)

theorem ensures_resolve (incidentId : Uuid) (operatorId : String) :
    Prog.Ensures handle
      (fun r w' => w.books.Writes (.resolve incidentId operatorId) (r.map .incident) w'.books)
      (IncidentService.resolve incidentId operatorId) w := by
  unfold IncidentService.resolve
  rw [Prog.bind_eq, IncidentService.getIncident_bind]
  refine ensures_await fun e₁ found w₁ hp => ?_
  cases hp
  cases hfound : w.incidents.lookup incidentId with
  | none =>
    refine .refused ?_ _
    exact forall_mem_of_eq_none hfound
  | some incident =>
    dsimp only
    split_ifs with hs hopen
    · refine .refused ?_ _
      exact forall_mem_of_eq_some hfound hs
    · refine ensures_await fun e₂ _ w₁ hp => ?_
      cases hp
      exact ensures_settle hfound hs (if_pos hopen).symm rfl
    · exact ensures_settle (s := 0) hfound hs (if_neg hopen).symm rfl

theorem ensures_getStatus (jobId : Uuid) :
    Prog.Ensures handle (fun _ w' => w'.books = w.books) (JobService.getStatus jobId) w := by
  unfold JobService.getStatus
  rw [Prog.bind_eq, JobService.getById_bind]
  refine ensures_await fun e₁ found w₁ hp => ?_
  cases hp
  cases w.jobs.lookup jobId with
  | none => exact rfl
  | some job =>
    refine ensures_await fun e₂ _ w₁ hp => ?_
    cases hp
    exact rfl

/-- What the handler of a delivery writes; it rejects only content that is not JSON. -/
def Handled (b : Books) (delivery : Delivery) : Except Failure Unit → World → Prop
  | .ok _, w' => b.Writes (.job (.consume delivery)) (.ok (.job .done)) w'.books
  | .error _, w' => delivery.message.jobId = none ∧ w'.books = b

theorem ensures_consume (delivery : Delivery) :
    Prog.Ensures handle
      (fun r w' => w.books.Writes (.job (.consume delivery))
        ((r.map fun _ => Result.done).map .job) w'.books)
      (RabbitMqService.consumeCallback JobProcessingConsumer.onMessage delivery) w := by
  unfold RabbitMqService.consumeCallback
  have hdropped : ∀ {b : Books} r, delivery.message.jobId = none → b = w.books →
      w.books.Writes (.job (.consume delivery)) r b := by
    rintro b r hnone rfl
    exact .dropped hnone _
  refine Prog.Ensures.mono (Q := Handled w.books delivery) ?_
    (.tryCatch (Q := Handled w.books delivery) (fun _ _ h => h) ?_ ?_)
  · rintro (err | _) w' h
    · exact hdropped _ h.1 h.2
    · exact h
  · rintro err w' ⟨hnone, hbooks⟩ e _ w₁ hh
    cases (handle_eq_ok hh).1
    exact hdropped _ hnone hbooks
  · obtain ⟨tag, ⟨content⟩⟩ := delivery
    cases content with
    | none => exact ⟨rfl, rfl⟩
    | some payload =>
      change Prog.Ensures handle _ ((JobProcessingConsumer.onMessage payload).bind _) w
      refine Prog.Ensures.bind (Q := Handled w.books ⟨tag, ⟨some payload⟩⟩) ?_ (fun _ _ h => h) ?_
      · rintro _ w' hwrites e _ w₁ hh
        cases (handle_eq_ok hh).1
        exact hwrites
      · unfold JobProcessingConsumer.onMessage
        split
        · rename_i hnone
          exact hdropped _ hnone rfl
        · rename_i jobId hsome
          refine (ensures_process _).mono ?_
          rintro r w' ⟨rfl, h⟩
          exact .executed hsome h

/-- Alone and with every call resolving, a command writes what `Writes` says. -/
theorem writes_of (command : Command) (w : World) :
    Prog.Ensures handle (fun r w' => w.books.Writes command r w'.books) command.prog w := by
  cases command with
  | job call =>
    refine .map ?_
    cases call with
    | create input => exact .map (ensures_create input)
    | retry jobId operatorId => exact .map (ensures_retry jobId operatorId)
    | getStatus jobId =>
      refine .map ((ensures_getStatus jobId).mono fun r w' h => ?_)
      rw [h]
      exact .read _ _
    | process input =>
      refine .map ((ensures_process input).mono ?_)
      rintro r w' ⟨rfl, h⟩
      exact .executed rfl h
    | consume delivery => exact .map (ensures_consume delivery)
  | createAlert input => exact .map (ensures_createAlert input)
  | acknowledgeAlert alertId operatorId => exact .map (ensures_acknowledgeAlert alertId operatorId)
  | acknowledge incidentId operatorId => exact .map (ensures_acknowledge incidentId operatorId)
  | resolve incidentId operatorId => exact .map (ensures_resolve incidentId operatorId)

end Commands

/-! ## Sessions of commands -/

/-- Commands run one after the other over a world. -/
abbrev CommandSession := Session Command Failure Response World

namespace CommandSession

/-- Nothing run yet. -/
def init (w : World) : CommandSession :=
  ⟨w, []⟩

/-- Run the next command, with all its calls resolving under a script. -/
abbrev step : CommandSession → Command × (ℕ → Env) → Option CommandSession :=
  Session.step handle Command.prog

/-- The next command is one of `P`. -/
def Runs (P : Command → Prop) (_ : CommandSession) (l : Command × (ℕ → Env)) : Prop :=
  P l.1

instance (P : Command → Prop) [DecidablePred P] (s : CommandSession) :
    DecidablePred (Runs P s) := fun l => inferInstanceAs (Decidable (P l.1))

/-- Every call resolves, from time `t` on, one each millisecond. The ids generated are the
times. -/
def smooth (t n : ℕ) : Env :=
  ⟨t + n, t + n, .resolves⟩

theorem step_writes {s s' : CommandSession} {l : Command × (ℕ → Env)} (h : s.step l = some s') :
    ∃ r, s.world.books.Writes l.1 r s'.world.books ∧ s'.done = s.done ++ [(l.1, r)] :=
  Session.step_spec h (writes_of l.1 s.world)

/-- What every transaction of the commands `P` keeps holds in every session of them. -/
theorem invariant {P : Command → Prop} {I : Books → List (Command × Except Failure Response) → Prop}
    (hI : ∀ b done command r b', I b done → P command → b.Writes command r b' →
      I b' (done ++ [(command, r)])) {w : World} (hw : I w.books []) {s : CommandSession}
    (h : Reachable step (Runs P) (init w) s) : I s.world.books s.done := by
  refine Reachable.invariant (I := fun s => I s.world.books s.done) ?_ hw h
  intro s l s' hs hl hstep
  obtain ⟨r, hwrites, hdone⟩ := step_writes hstep
  rw [hdone]
  exact hI _ _ _ _ _ hs hl hwrites

end CommandSession

end RealtimeOps
