import RealtimeOps.Books

/-!
# The failure ledger

What the tables say about one job is its `Account` : its attempts, the alerts raised for it,
and how often it was notified of a failure or a change of status. `Account.Balanced` relates
them : the attempts are numbered 1 to `attemptCount`, the alerts match the failed attempts in
order, and the notifications are counted by the attempts and the accepted retries.

Every transaction on jobs keeps all accounts balanced (`Ledger.writes`), so they are balanced
after every session of calls on jobs, whatever the ids and the order (`failure_ledger`).
-/

set_option autoImplicit false

namespace RealtimeOps

open Interleaving JobProcessorService

/-! ## Accounts -/

/-- What the books hold about a job. -/
@[ext]
structure Account where
  attempts : List ProcessingAttemptEntity
  alerts : List AlertEntity
  /-- Notifications of type `ALERT`. -/
  failures : ℕ
  /-- Notifications of type `JOB_STATUS`. -/
  changes : ℕ
  retries : ℕ

/-- The accepted retries of a job. -/
def acceptedRetries (done : List (Command × Except Failure Response)) (jobId : Uuid) : ℕ :=
  done.countP fun x =>
    match x with
    | (.job (.retry id _), .ok _) => id = jobId
    | _ => false

/-- The alert was raised for the job by the processing service. -/
def AlertEntity.failureOf (alert : AlertEntity) (jobId : Uuid) : Prop :=
  alert.source = "processing-service" ∧ alert.jobId = some jobId

instance (alert : AlertEntity) (jobId : Uuid) : Decidable (alert.failureOf jobId) :=
  inferInstanceAs (Decidable (_ ∧ _))

/-- The account of a job. -/
def Books.account (b : Books) (done : List (Command × Except Failure Response)) (jobId : Uuid) :
    Account where
  attempts := b.attempts.rows.filter fun a => a.jobId = jobId
  alerts := b.alerts.rows.filter fun a => a.failureOf jobId
  failures := b.feed.countP fun n => n.about .ALERT jobId
  changes := b.feed.countP fun n => n.about .JOB_STATUS jobId
  retries := acceptedRetries done jobId

/-- The alert reports the failed attempt of a job with `maxAttempts`. -/
def Reports (maxAttempts : ℕ) (attempt : ProcessingAttemptEntity) (alert : AlertEntity) : Prop :=
  attempt.errorMessage = some alert.description ∧
    alert.severity = if attempt.attemptNumber ≥ maxAttempts then .CRITICAL else .HIGH

/-- The account agrees with the job's row. -/
structure Account.Balanced (a : Account) (job : JobEntity) : Prop where
  numbers : a.attempts.map (·.attemptNumber) = List.range' 1 job.attemptCount
  finished : ∀ attempt ∈ a.attempts, attempt.status ≠ .STARTED
  alerts : List.Forall₂ (Reports job.maxAttempts)
    (a.attempts.filter fun attempt => attempt.status = .FAILED) a.alerts
  failures : a.failures = a.attempts.countP fun attempt => attempt.status = .FAILED
  changes : a.changes = 1 + a.retries + a.attempts.countP fun attempt => attempt.status = .SUCCEEDED

/-- An account with nothing in it. -/
def Account.blank : Account where
  attempts := []
  alerts := []
  failures := 0
  changes := 0
  retries := 0

namespace Account.Balanced

variable {a : Account} {job row : JobEntity} {attempt : ProcessingAttemptEntity}

/-- A new job. -/
theorem created (hcount : row.attemptCount = 0) :
    ({ Account.blank with changes := 1 } : Account).Balanced row := by
  refine ⟨?_, by simp [Account.blank], .nil, rfl, rfl⟩
  rw [hcount]
  rfl

/-- An accepted retry. -/
theorem retried (h : a.Balanced job) (hcount : row.attemptCount = job.attemptCount)
    (hmax : row.maxAttempts = job.maxAttempts) :
    ({ a with changes := a.changes + 1, retries := a.retries + 1 } : Account).Balanced row := by
  refine ⟨hcount ▸ h.numbers, h.finished, hmax ▸ h.alerts, h.failures, ?_⟩
  have := h.changes
  dsimp only
  omega

/-- One more attempt. -/
theorem numbers_concat (h : a.Balanced job) (hcount : row.attemptCount = job.attemptCount + 1)
    (hnumber : attempt.attemptNumber = job.attemptCount + 1) :
    (a.attempts ++ [attempt]).map (·.attemptNumber) = List.range' 1 row.attemptCount := by
  rw [List.map_append, h.numbers, hcount, List.range'_1_concat, List.map_singleton, hnumber,
    Nat.add_comm]

theorem finished_concat (h : a.Balanced job) (hs : attempt.status ≠ .STARTED) :
    ∀ x ∈ a.attempts ++ [attempt], x.status ≠ .STARTED := by
  intro x hx
  rcases List.mem_append.mp hx with hx | hx
  · exact h.finished x hx
  · rw [List.mem_singleton.mp hx]
    exact hs

/-- An attempt that succeeded. -/
theorem completed (h : a.Balanced job) (hcount : row.attemptCount = job.attemptCount + 1)
    (hmax : row.maxAttempts = job.maxAttempts)
    (hnumber : attempt.attemptNumber = job.attemptCount + 1) (hs : attempt.status = .SUCCEEDED) :
    ({ a with attempts := a.attempts ++ [attempt], changes := a.changes + 1 } : Account).Balanced
      row := by
  refine ⟨h.numbers_concat hcount hnumber, h.finished_concat (by simp [hs]), ?_, ?_, ?_⟩
  · rw [hmax, List.filter_append, List.filter_singleton]
    simpa [hs] using h.alerts
  · simpa [hs] using h.failures
  · have := h.changes
    simp only [List.countP_append, List.countP_singleton, hs, decide_true, if_true]
    omega

/-- An attempt that failed, and its alert. -/
theorem failed {alert : AlertEntity} (h : a.Balanced job)
    (hcount : row.attemptCount = job.attemptCount + 1) (hmax : row.maxAttempts = job.maxAttempts)
    (hnumber : attempt.attemptNumber = job.attemptCount + 1) (hs : attempt.status = .FAILED)
    (hreports : Reports job.maxAttempts attempt alert) :
    ({ a with
      attempts := a.attempts ++ [attempt]
      alerts := a.alerts ++ [alert]
      failures := a.failures + 1 } : Account).Balanced row := by
  refine ⟨h.numbers_concat hcount hnumber, h.finished_concat (by simp [hs]), ?_, ?_, ?_⟩
  · rw [hmax, List.filter_append, List.filter_singleton, hs]
    exact List.rel_append h.alerts (.cons hreports .nil)
  · simpa [hs] using h.failures
  · simpa [hs] using h.changes

end Account.Balanced

/-! ## Transactions -/

/-- Every job's account is balanced and nothing is booked for an unknown job; every failure
alert has an incident exactly if it is critical, and only one. -/
structure Ledger (b : Books) (done : List (Command × Except Failure Response)) : Prop where
  balanced : ∀ job ∈ b.jobs.rows, (b.account done job.id).Balanced job
  unknown : ∀ jobId, b.jobs.lookup jobId = none → b.account done jobId = .blank
  incidents : ∀ alert ∈ b.alerts.rows,
    (b.incidentsOf alert.id).length = if alert.severity = .CRITICAL then 1 else 0
  linked : b.Linked

section Views

variable {b b' : Books} {done done' : List (Command × Except Failure Response)}

theorem about_iff {n : NotificationColumns} {type type' : NotificationType} {jobId id : Uuid}
    (h : n.about type jobId) : n.about type' id ↔ type = type' ∧ jobId = id := by
  obtain ⟨rfl, hid⟩ := h
  simp [NotificationColumns.about, hid]

theorem acceptedRetries_concat (x : Command × Except Failure Response) (jobId : Uuid) :
    acceptedRetries (done ++ [x]) jobId = acceptedRetries done jobId + acceptedRetries [x] jobId :=
  List.countP_append

theorem acceptedRetries_refused (command : Command) (err : Failure) (id : Uuid) :
    acceptedRetries [(command, .error err)] id = 0 := by
  simp [acceptedRetries]

theorem acceptedRetries_executes {command : Command} {jobId : Uuid}
    (h : command.executes = some jobId) (r : Except Failure Response) (id : Uuid) :
    acceptedRetries [(command, r)] id = 0 := by
  unfold Command.executes at h
  split at h
  · rfl
  · rfl
  · cases h

/-- Nothing is written, and no retry is accepted. -/
theorem Ledger.of_same (h : Ledger b done)
    (hretries : ∀ id, acceptedRetries done' id = acceptedRetries done id) : Ledger b done' := by
  have hsame : ∀ id, b.account done' id = b.account done id := fun id => by
    simp only [Books.account, hretries]
  exact ⟨fun k hk => hsame k.id ▸ h.balanced k hk, fun id hnone => hsame id ▸ h.unknown id hnone,
    h.incidents, h.linked⟩

/-- One job is written, and no account but its own changes. -/
theorem Ledger.of_save {jobId : Uuid} {row : JobEntity} (h : Ledger b done)
    (hjobs : b'.jobs = b.jobs.save row) (hid : row.id = jobId)
    (hself : (b'.account done' jobId).Balanced row)
    (hother : ∀ id, id ≠ jobId → b'.account done' id = b.account done id)
    (hincidents : ∀ alert ∈ b'.alerts.rows,
      (b'.incidentsOf alert.id).length = if alert.severity = .CRITICAL then 1 else 0)
    (hlinked : b'.Linked) : Ledger b' done' := by
  refine ⟨fun k hk => ?_, fun id hnone => ?_, hincidents, hlinked⟩
  · rw [hjobs] at hk
    rcases Table.mem_save.mp hk with rfl | ⟨hk, hne⟩
    · rw [hid]
      exact hself
    · rw [hother k.id (hid ▸ hne)]
      exact h.balanced k hk
  · rw [hjobs, Table.lookup_save] at hnone
    split_ifs at hnone with hrow
    rw [hother id (hid ▸ Ne.symm hrow)]
    exact h.unknown id hnone

/-! What each transaction does to the account of every job. -/

theorem account_completed {jobId : Uuid} {attempt : ProcessingAttemptEntity}
    {n : NotificationColumns} (hattempt : attempt.jobId = jobId)
    (hattempts : b.attempts.insert attempt = some b'.attempts) (halerts : b'.alerts = b.alerts)
    (hfeed : b'.feed = b.feed ++ [n]) (hn : n.about .JOB_STATUS jobId)
    (hretries : ∀ id, acceptedRetries done' id = acceptedRetries done id) (id : Uuid) :
    b'.account done' id =
      if jobId = id then
        { b.account done id with
          attempts := (b.account done id).attempts ++ [attempt]
          changes := (b.account done id).changes + 1 }
      else b.account done id := by
  split_ifs with hid <;>
    simp [Books.account, Table.filter_insert hattempts, halerts, hfeed, about_iff hn, hattempt,
      hretries, hid]

theorem account_failed {jobId : Uuid} {attempt : ProcessingAttemptEntity} {alert : AlertEntity}
    {n : NotificationColumns} (hattempt : attempt.jobId = jobId)
    (hattempts : b.attempts.insert attempt = some b'.attempts)
    (hsource : alert.source = "processing-service") (hjob : alert.jobId = some jobId)
    (halerts : b.alerts.insert alert = some b'.alerts)
    (hfeed : b'.feed = b.feed ++ [n]) (hn : n.about .ALERT jobId)
    (hretries : ∀ id, acceptedRetries done' id = acceptedRetries done id) (id : Uuid) :
    b'.account done' id =
      if jobId = id then
        { b.account done id with
          attempts := (b.account done id).attempts ++ [attempt]
          alerts := (b.account done id).alerts ++ [alert]
          failures := (b.account done id).failures + 1 }
      else b.account done id := by
  split_ifs with hid <;>
    simp [Books.account, Table.filter_insert hattempts, Table.filter_insert halerts,
      AlertEntity.failureOf, hsource, hjob, hfeed, about_iff hn, hattempt, hretries, hid]

theorem account_notified {jobId : Uuid} {n : NotificationColumns}
    (done : List (Command × Except Failure Response)) (x : Command × Except Failure Response)
    (hattempts : b'.attempts = b.attempts) (halerts : b'.alerts = b.alerts)
    (hfeed : b'.feed = b.feed ++ [n]) (hn : n.about .JOB_STATUS jobId) (id : Uuid) :
    b'.account (done ++ [x]) id =
      { b.account done id with
        changes := (b.account done id).changes + if jobId = id then 1 else 0
        retries := (b.account done id).retries + acceptedRetries [x] id } := by
  simp [Books.account, hattempts, halerts, hfeed, about_iff hn, acceptedRetries_concat,
    List.countP_singleton]

/-! Alerts and their incidents. -/

/-- An alert that is not critical opens no incident. -/
theorem Ledger.incidents_failed (h : Ledger b done) {alert : AlertEntity}
    (halerts : b.alerts.insert alert = some b'.alerts) (hincidents : b'.incidents = b.incidents)
    (hhigh : alert.severity ≠ .CRITICAL) :
    ∀ a ∈ b'.alerts.rows,
      (b'.incidentsOf a.id).length = if a.severity = .CRITICAL then 1 else 0 := by
  intro a ha
  rw [Books.incidentsOf, hincidents]
  rcases (Table.mem_insert halerts).mp ha with ha | rfl
  · exact h.incidents a ha
  · rw [if_neg hhigh]
    exact congrArg _ (h.linked.incidentsOf_fresh (Table.insert_eq_some halerts).2)

/-- A critical alert opens one. -/
theorem Ledger.incidents_escalated (h : Ledger b done) {alert : AlertEntity}
    {incident : IncidentEntity} (halerts : b.alerts.insert alert = some b'.alerts)
    (hincidents : b.incidents.insert incident = some b'.incidents)
    (hlink : incident.alertId = some alert.id) (hcritical : alert.severity = .CRITICAL) :
    ∀ a ∈ b'.alerts.rows,
      (b'.incidentsOf a.id).length = if a.severity = .CRITICAL then 1 else 0 := by
  intro a ha
  rw [Books.incidentsOf, Table.filter_insert hincidents, List.length_append]
  rcases (Table.mem_insert halerts).mp ha with ha | rfl
  · have hne : alert.id ≠ a.id := Ne.symm ((Table.insert_eq_some halerts).2 a ha)
    simpa [Books.incidentsOf, hlink, hne] using h.incidents a ha
  · have hnone := h.linked.incidentsOf_fresh (Table.insert_eq_some halerts).2
    rw [Books.incidentsOf] at hnone
    simp [hnone, hlink, hcritical]

/-- The alert of a failed attempt reports it. -/
theorem reports {job : JobEntity} {attempt : ProcessingAttemptEntity} {alert : AlertEntity}
    {errorMessage : String} {t u v x : Date}
    (hcols : attempt.toAttemptColumns = newAttempt (startedRow job t u) (job.attemptCount + 1) t)
    (halert : alert.toAlertColumns =
      failureAlert (failedRow (startedRow job t u) errorMessage v x) errorMessage) :
    Reports job.maxAttempts (failed attempt errorMessage v) alert := by
  have hnumber : attempt.attemptNumber = job.attemptCount + 1 :=
    congrArg AttemptColumns.attemptNumber hcols
  refine ⟨congrArg some (congrArg AlertColumns.description halert).symm, ?_⟩
  rw [congrArg AlertColumns.severity halert]
  change failureSeverity _ = if attempt.attemptNumber ≥ job.maxAttempts then _ else _
  rw [hnumber]
  rfl

end Views

/-- An execution keeps the ledger. -/
theorem Ledger.executed {b b' : Books} {done : List (Command × Except Failure Response)}
    {command : Command} {jobId : Uuid} {r : Except Failure Response} (h : Ledger b done)
    (hcommand : command.executes = some jobId) (hexecuted : Executed b jobId b') :
    Ledger b' (done ++ [(command, r)]) := by
  have hretries : ∀ id, acceptedRetries (done ++ [(command, r)]) id = acceptedRetries done id :=
    fun id => by rw [acceptedRetries_concat, acceptedRetries_executes hcommand, Nat.add_zero]
  cases hexecuted with
  | idle hsame =>
    subst hsame
    exact h.of_same hretries
  | @completed job attempt n m m' t u v x hjob hgood hcols hjobs hattempts halerts hincidents hfeed
      hn htrail =>
    obtain ⟨hmem, rfl⟩ := Table.lookup_eq_some.mp hjob
    have hattempt : (succeeded attempt v).jobId = job.id := congrArg AttemptColumns.jobId hcols
    have haccount := account_completed hattempt hattempts halerts hfeed hn hretries
    refine h.of_save hjobs (rfl : _ = job.id) ?_
      (fun id hid => (haccount id).trans (if_neg (Ne.symm hid))) ?_
      (h.linked.of_eq halerts hincidents)
    · rw [haccount, if_pos rfl]
      exact (h.balanced job hmem).completed rfl rfl (congrArg AttemptColumns.attemptNumber hcols)
        rfl
    · intro a ha
      rw [Books.incidentsOf, hincidents]
      exact h.incidents a (halerts ▸ ha)
  | @failed job attempt alert n errorMessage m m' m'' t u v x hjob hbad hcols hjobs hattempts halert
      halerts hhigh hincidents hfeed hn htrail =>
    obtain ⟨hmem, rfl⟩ := Table.lookup_eq_some.mp hjob
    have hattempt : (failed attempt errorMessage v).jobId = job.id :=
      congrArg AttemptColumns.jobId hcols
    have haccount := account_failed hattempt hattempts (congrArg AlertColumns.source halert)
      (congrArg AlertColumns.jobId halert) halerts hfeed hn hretries
    refine h.of_save hjobs (rfl : _ = job.id) ?_
      (fun id hid => (haccount id).trans (if_neg (Ne.symm hid)))
      (h.incidents_failed halerts hincidents hhigh)
      (h.linked.raised halerts hincidents)
    rw [haccount, if_pos rfl]
    exact (h.balanced job hmem).failed rfl rfl (congrArg AttemptColumns.attemptNumber hcols) rfl
      (reports hcols halert)
  | @escalated job attempt alert incident n errorMessage m m' m'' m''' t u v x hjob hbad hcols hjobs
      hattempts halert halerts hcritical hincident hfree hincidents hfeed hn htrail =>
    obtain ⟨hmem, rfl⟩ := Table.lookup_eq_some.mp hjob
    have hattempt : (failed attempt errorMessage v).jobId = job.id :=
      congrArg AttemptColumns.jobId hcols
    have hlink : incident.alertId = some alert.id := congrArg IncidentColumns.alertId hincident
    have haccount := account_failed hattempt hattempts (congrArg AlertColumns.source halert)
      (congrArg AlertColumns.jobId halert) halerts hfeed hn hretries
    refine h.of_save hjobs (rfl : _ = job.id) ?_
      (fun id hid => (haccount id).trans (if_neg (Ne.symm hid)))
      (h.incidents_escalated halerts hincidents hlink hcritical)
      (h.linked.opened halerts hincidents hlink)
    rw [haccount, if_pos rfl]
    exact (h.balanced job hmem).failed rfl rfl (congrArg AttemptColumns.attemptNumber hcols) rfl
      (reports hcols halert)

/-- The command is a call on jobs. -/
def Command.onJobs : Command → Prop
  | .job _ => True
  | _ => False

instance : DecidablePred Command.onJobs
  | .job _ => .isTrue trivial
  | .createAlert _ | .acknowledgeAlert _ _ | .acknowledge _ _ | .resolve _ _ => .isFalse id

/-- A new job opens its account. -/
theorem Ledger.created {b b' : Books} {done : List (Command × Except Failure Response)}
    {input : CreateJobInput} {job : JobEntity} {n : NotificationColumns} (h : Ledger b done)
    (hcols : job.toJobColumns = (JobService.newJob input).stored)
    (hjobs : b.jobs.insert job = some b'.jobs) (hattempts : b'.attempts = b.attempts)
    (halerts : b'.alerts = b.alerts) (hincidents : b'.incidents = b.incidents)
    (hfeed : b'.feed = b.feed ++ [n]) (hn : n.about .JOB_STATUS job.id)
    (r : Except Failure Response) : Ledger b' (done ++ [(.job (.create input), r)]) := by
  have haccount := account_notified done (.job (.create input), r) hattempts halerts
    hfeed hn
  have hother : ∀ id, id ≠ job.id → b'.account (done ++ [_]) id = b.account done id :=
    fun id hid => (haccount id).trans (by rw [if_neg (Ne.symm hid)]; rfl)
  refine ⟨fun k hk => ?_, fun id hnone => ?_, ?_,
    h.linked.of_eq halerts hincidents⟩
  · rcases (Table.mem_insert hjobs).mp hk with hk | rfl
    · rw [hother k.id ((Table.insert_eq_some hjobs).2 k hk)]
      exact h.balanced k hk
    · have hblank := h.unknown k.id (Table.lookup_eq_none.mpr (Table.insert_eq_some hjobs).2)
      rw [haccount, if_pos rfl, hblank]
      exact .created (congrArg JobColumns.attemptCount hcols)
  · rw [Table.lookup_insert hjobs] at hnone
    split_ifs at hnone with hid
    rw [hother id (Ne.symm hid)]
    exact h.unknown id hnone
  · intro a ha
    rw [Books.incidentsOf, hincidents]
    exact h.incidents a (halerts ▸ ha)

/-- An accepted retry. -/
theorem Ledger.retried {b b' : Books} {done : List (Command × Except Failure Response)}
    {jobId : Uuid} {operatorId : String} {job : JobEntity} {n : NotificationColumns} {t : Date}
    {result : Response} (h : Ledger b done) (hjob : b.jobs.lookup jobId = some job)
    (hjobs : b'.jobs = b.jobs.save { JobService.requeued job with updatedAt := t })
    (hattempts : b'.attempts = b.attempts) (halerts : b'.alerts = b.alerts)
    (hincidents : b'.incidents = b.incidents) (hfeed : b'.feed = b.feed ++ [n])
    (hn : n.about .JOB_STATUS jobId) :
    Ledger b' (done ++ [(.job (.retry jobId operatorId), .ok result)]) := by
  obtain ⟨hmem, rfl⟩ := Table.lookup_eq_some.mp hjob
  have haccount := account_notified done (.job (.retry job.id operatorId), .ok result) hattempts
    halerts hfeed hn
  refine h.of_save hjobs (rfl : _ = job.id) ?_ (fun id hid => ?_) ?_
    (h.linked.of_eq halerts hincidents)
  · have hone : acceptedRetries [(.job (.retry job.id operatorId), .ok result)] job.id = 1 := by
      simp [acceptedRetries]
    rw [haccount, if_pos rfl, hone]
    exact (h.balanced job hmem).retried rfl rfl
  · rw [haccount, if_neg (Ne.symm hid)]
    simp [acceptedRetries, Ne.symm hid]
  · intro a ha
    rw [Books.incidentsOf, hincidents]
    exact h.incidents a (halerts ▸ ha)

/-- Every transaction on jobs keeps the ledger. -/
theorem Ledger.writes {b b' : Books} {done : List (Command × Except Failure Response)}
    {command : Command} {r : Except Failure Response} (h : Ledger b done)
    (hcommand : command.onJobs) (hwrites : b.Writes command r b') :
    Ledger b' (done ++ [(command, r)]) := by
  cases hwrites with
  | refused h' err =>
    refine h.of_same fun id => ?_
    rw [acceptedRetries_concat, acceptedRetries_refused, Nat.add_zero]
  | read jobId r => exact h.of_same fun id => acceptedRetries_concat _ id
  | dropped hnone r => exact h.of_same fun id => acceptedRetries_concat _ id
  | executed hcommand hexecuted => exact h.executed hcommand hexecuted
  | created hcols hjobs hattempts halerts hincidents hfeed hn htrail =>
    exact h.created hcols hjobs hattempts halerts hincidents hfeed hn _
  | retried hjob hstatus hleft hjobs hattempts halerts hincidents hfeed hn htrail =>
    exact h.retried hjob hjobs hattempts halerts hincidents hfeed hn
  | raised | raisedWithIncident | alertAcknowledged | acknowledged | resolved => cases hcommand

/-- The empty tables. -/
theorem Ledger.empty : Ledger World.empty.books [] where
  balanced _ h := nomatch h
  unknown _ _ := rfl
  incidents _ h := nomatch h
  linked _ h := nomatch h

/-- The ledger of failures. In every session of calls on jobs from empty tables, whatever their
ids and their order, each job's attempts are numbered from 1 to its `attemptCount` and finished,
the alerts of the processing service for it report its failed attempts one by one, critical
exactly from the last allowed attempt on, with one incident for each critical alert and none
for the others, and its notifications are counted by its attempts and accepted retries. -/
theorem failure_ledger (s : CommandSession)
    (h : Reachable CommandSession.step (CommandSession.Runs Command.onJobs)
      (CommandSession.init .empty) s) :
    ∀ job ∈ s.world.jobs.rows,
      (s.world.books.account s.done job.id).Balanced job ∧
        ∀ alert ∈ (s.world.books.account s.done job.id).alerts,
          (s.world.books.incidentsOf alert.id).length =
            if alert.severity = .CRITICAL then 1 else 0 := by
  have hledger : Ledger s.world.books s.done :=
    CommandSession.invariant (fun _ _ _ _ _ h hc hw => h.writes hc hw) Ledger.empty h
  exact fun job hjob => ⟨hledger.balanced job hjob, fun alert halert =>
    hledger.incidents alert (List.mem_of_mem_filter halert)⟩

theorem failure_ledger_escalated : ∃ (s : CommandSession) (job : JobEntity),
    job ∈ s.world.jobs.rows ∧ job.attemptCount = 1 ∧
      (s.world.books.account s.done job.id).Balanced job ∧
      ∃ alert ∈ (s.world.books.account s.done job.id).alerts,
        (s.world.books.incidentsOf alert.id).length = 1 := by
  obtain ⟨s, hs, job, hjob, hcount, alert, halert, hcritical⟩ :
      ∃ s, Reachable CommandSession.step (CommandSession.Runs Command.onJobs)
        (CommandSession.init .empty) s ∧
        ∃ job ∈ s.world.jobs.rows, job.attemptCount = 1 ∧
          ∃ alert ∈ (s.world.books.account s.done job.id).alerts, alert.severity = .CRITICAL :=
    exists_reachable_of_execute _
      [(.job (.create ⟨"ingest", "batch", [("shouldFail", .bool true)], 1, 1, "alice"⟩),
          CommandSession.smooth 1),
        (.job (.process ⟨1, "created", "alice"⟩), CommandSession.smooth 10),
        (.job (.retry 1 "alice"), CommandSession.smooth 40)] _ (by decide)
  obtain ⟨hbalanced, hincidents⟩ := failure_ledger s hs job hjob
  exact ⟨s, job, hjob, hcount, hbalanced, alert, halert,
    (hincidents alert halert).trans (if_pos hcritical)⟩

end RealtimeOps
