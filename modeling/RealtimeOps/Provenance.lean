import RealtimeOps.JobsApart
import RealtimeOps.Permanence

/-!
# Where the rows come from

Nothing guards the tables : a program may save what it likes. `World.Warranted` says that every row
is as it should be. Somebody asked for each job. Each alert and each incident has its `Occasion`, an
order or an attempt that failed. Nobody is named as the one who acknowledged or resolved a row who
has not asked for it. Jobs and attempts have ended as the payload of the job demands.

All programs that save no alert keep to the `warrants`, which is the discipline to undo nothing, to
leave the links of the incidents and to write only what is warranted. So in the deployment all rows
go back to requests with a valid token (`nothing_forged`), and no status, failure reason or report
contradicts the payload (`verdicts_hold`).
-/

set_option autoImplicit false

namespace RealtimeOps

open Interleaving JobProcessorService

/-! ## Verdicts -/

/-- An attempt with this number of a job with this payload may end so. -/
structure JobEntity.Verdict (job : JobEntity) (attemptNumber : ℕ) (succeeded failed : Prop)
    (errorMessage : Option String) : Prop where
  succeeded : succeeded → evaluateFailure job attemptNumber = none
  failed : failed → errorMessage.isSome ∧ evaluateFailure job attemptNumber = errorMessage

/-- The job has ended as its payload demands of its last attempt. -/
def JobEntity.Judged (job : JobEntity) : Prop :=
  job.Verdict job.attemptCount (job.status = .COMPLETED) (job.status = .FAILED) job.lastError

/-- It is an attempt of the job, and has ended as the payload demands. -/
def JobEntity.Judges (job : JobEntity) (attempt : ProcessingAttemptEntity) : Prop :=
  attempt.jobId = job.id ∧
    job.Verdict attempt.attemptNumber (attempt.status = .SUCCEEDED) (attempt.status = .FAILED)
      attempt.errorMessage

theorem payload_of_identity {job job' : JobEntity} (h : job.identity = job'.identity) :
    job.payload = job'.payload :=
  congrArg (fun identity => identity.2.2.1) h

/-- What counts is the payload. -/
theorem evaluateFailure_of_identity {job job' : JobEntity} (h : job.identity = job'.identity)
    (n : ℕ) : evaluateFailure job n = evaluateFailure job' n := by
  unfold evaluateFailure
  rw [payload_of_identity h]

namespace JobEntity.Verdict

variable {job job' : JobEntity} {n : ℕ} {succeeded failed : Prop} {errorMessage : Option String}

theorem of_identity (h : job.Verdict n succeeded failed errorMessage)
    (hjob : job.identity = job'.identity) : job'.Verdict n succeeded failed errorMessage where
  succeeded hs := evaluateFailure_of_identity hjob n ▸ h.succeeded hs
  failed hf := evaluateFailure_of_identity hjob n ▸ h.failed hf

/-- There is no verdict yet. -/
theorem pending (hs : ¬succeeded) (hf : ¬failed) : job.Verdict n succeeded failed errorMessage :=
  ⟨fun h => absurd h hs, fun h => absurd h hf⟩

end JobEntity.Verdict

theorem JobEntity.Judges.of_identity {job job' : JobEntity} {attempt : ProcessingAttemptEntity}
    (h : job.Judges attempt) (hid : job'.id = job.id) (hjob : job.identity = job'.identity) :
    job'.Judges attempt :=
  ⟨h.1.trans hid.symm, h.2.of_identity hjob⟩

/-! ## Occasions -/

/-- The columns that a job is given for good. -/
def JobColumns.given (job : JobColumns) : String × String × Record × ℕ × ℕ :=
  (job.name, job.type, job.payload, job.priority, job.maxAttempts)

/-- The columns that an alert is given for good. -/
def AlertColumns.given (alert : AlertColumns) :
    Option Uuid × String × AlertSeverity × String × String :=
  (alert.jobId, alert.source, alert.severity, alert.title, alert.description)

/-- The columns that an incident is given when it is opened. -/
def IncidentColumns.given (incident : IncidentColumns) : Option Uuid × String × String :=
  (incident.alertId, incident.title, incident.summary)

/-- Why an alert is raised. -/
inductive Occasion where
  /-- An operator orders it. -/
  | order (input : CreateAlertInput)
  /-- The last attempt of the job has failed. -/
  | failure (job : JobEntity) (errorMessage : String)

namespace Occasion

/-- The alert that is raised. -/
def alert : Occasion → AlertColumns
  | order input => AlertService.newAlert input
  | failure job errorMessage => failureAlert job errorMessage

/-- An incident is opened with it. -/
def Opens : Occasion → Prop
  | order input => input.opensIncident
  | failure job _ => failureSeverity job = .CRITICAL

/-- The incident that is opened with the alert. -/
def incident (alert : AlertEntity) : Occasion → IncidentColumns
  | order _ => AlertService.newIncident alert
  | failure job errorMessage => failureIncident job alert errorMessage

end Occasion

/-! ## Warrants -/

section Warrants

variable (asked : Command → Prop)

/-- Somebody has asked for the job. -/
def JobColumns.Ordered (job : JobColumns) : Prop :=
  ∃ input, asked (.job (.create input)) ∧ job.given = (JobService.newJob input).stored.given

/-- The occasion is there : a command that was asked for, or a stored attempt of a stored job that
its payload makes fail. -/
def World.Gives (w : World) : Occasion → Prop
  | .order input => asked (.createAlert input)
  | .failure job errorMessage => w.jobs.Matches JobEntity.identity job ∧
      evaluateFailure job job.attemptCount = some errorMessage ∧
      ∃ a ∈ w.attempts.rows, a.jobId = job.id ∧ a.attemptNumber = job.attemptCount

/-- There is an occasion to raise the alert. -/
def World.Raises (w : World) (alert : AlertColumns) : Prop :=
  ∃ o : Occasion, w.Gives asked o ∧ alert.given = o.alert.given

/-- There is an alert to open the incident with. -/
def World.Opens (w : World) (incident : IncidentColumns) : Prop :=
  ∃ (alert : AlertEntity) (o : Occasion), w.alerts.Matches AlertEntity.identity alert ∧
    w.Gives asked o ∧ alert.given = o.alert.given ∧ o.Opens ∧
    incident.given = (o.incident alert).given

/-- The operators named in the incident have asked for what they are named for. -/
structure IncidentEntity.Signed (incident : IncidentEntity) : Prop where
  acknowledged : ∀ operatorId ∈ incident.acknowledgedBy,
    asked (.acknowledge incident.id operatorId) ∨ asked (.resolve incident.id operatorId)
  resolved : ∀ operatorId ∈ incident.resolvedBy, asked (.resolve incident.id operatorId)

/-- The operators named in the alert have asked for it, of the alert or of a linked incident. -/
structure World.Signs (w : World) (alertId : Uuid) (acknowledgedBy resolvedBy : Option String) :
    Prop where
  acknowledged : ∀ operatorId ∈ acknowledgedBy, asked (.acknowledgeAlert alertId operatorId) ∨
    ∃ incidentId, w.Links incidentId (some alertId) ∧ asked (.acknowledge incidentId operatorId)
  resolved : ∀ operatorId ∈ resolvedBy,
    ∃ incidentId, w.Links incidentId (some alertId) ∧ asked (.resolve incidentId operatorId)

/-- A stored job judges the attempt. -/
def World.Judges (w : World) (attempt : ProcessingAttemptEntity) : Prop :=
  ∃ job, w.jobs.Matches JobEntity.identity job ∧ job.Judges attempt

/-- Every row is as it should be. -/
structure World.Warranted (w : World) : Prop where
  jobs : ∀ job ∈ w.jobs.rows, job.Ordered asked ∧ job.Judged
  attempts : ∀ attempt ∈ w.attempts.rows, w.Judges attempt
  alerts : ∀ alert ∈ w.alerts.rows, w.Raises asked alert.toAlertColumns ∧
    w.Signs asked alert.id alert.acknowledgedBy alert.resolvedBy
  incidents : ∀ incident ∈ w.incidents.rows, w.Opens asked incident.toIncidentColumns ∧
    incident.Signed asked

/-- The call writes what is warranted. -/
def World.Warrants (w : World) : Op → Prop
  | .insertJob c => c.stored.Ordered asked ∧ c.status = .QUEUED
  | .saveJob job => job.Judged
  | .insertAttempt c => c.status = .STARTED
  | .saveAttempt attempt => w.Judges attempt
  | .insertAlert c => w.Raises asked c
  | .saveAlert _ _ => False
  | .updateAlert alertId changes => w.Signs asked alertId changes.acknowledgedBy changes.resolvedBy
  | .insertIncident c => w.Opens asked c
  | .saveIncident incident => w.Links incident.id incident.alertId ∧ incident.Signed asked
  | _ => True

variable {asked}

theorem World.Warrants.fastens {w : World} {op : Op} (h : w.Warrants asked op) :
    w.Fastens op := by
  cases op with
  | saveAlert => exact h
  | saveIncident => exact h.1
  | _ => trivial

end Warrants

section Up

variable {asked : Command → Prop} {w w' : World}

theorem World.Gives.up {o : Occasion} (h : w.Gives asked o) (hw : w.Preserves w') :
    w'.Gives asked o := by
  cases o with
  | order => exact h
  | failure job errorMessage =>
    obtain ⟨hjob, hfails, a, ha, hjobId, hnumber⟩ := h
    refine ⟨hjob.advances hw.jobs, hfails, ?_⟩
    obtain ⟨a', ha', -, hsame⟩ := hw.attempts a ha
    simp only [ProcessingAttemptEntity.identity, Prod.mk.injEq] at hsame
    exact ⟨a', ha', hsame.1.trans hjobId, hsame.2.1.trans hnumber⟩

theorem World.Raises.up {alert : AlertColumns} (h : w.Raises asked alert) (hw : w.Preserves w') :
    w'.Raises asked alert :=
  h.imp fun _ ho => ⟨ho.1.up hw, ho.2⟩

theorem World.Opens.up {incident : IncidentColumns} (h : w.Opens asked incident)
    (hw : w.Preserves w') : w'.Opens asked incident := by
  obtain ⟨alert, o, halert, ho, hrest⟩ := h
  exact ⟨alert, o, halert.advances hw.alerts, ho.up hw, hrest⟩

theorem World.Signs.mono {alertId : Uuid} {acknowledgedBy resolvedBy : Option String}
    (h : w.Signs asked alertId acknowledgedBy resolvedBy) (hle : w ≤ w') :
    w'.Signs asked alertId acknowledgedBy resolvedBy where
  acknowledged operatorId ho := (h.acknowledged operatorId ho).imp id
    fun ⟨incidentId, hlinks, hasked⟩ => ⟨incidentId, hlinks.mono hle, hasked⟩
  resolved operatorId ho :=
    (h.resolved operatorId ho).imp fun _ hlinks => ⟨hlinks.1.mono hle, hlinks.2⟩

theorem World.Judges.up {attempt : ProcessingAttemptEntity} (h : w.Judges attempt)
    (hw : w.Preserves w') : w'.Judges attempt :=
  h.imp fun _ hjob => ⟨hjob.1.advances hw.jobs, hjob.2⟩

theorem World.Warrants.up {op : Op} (h : w.Warrants asked op) (hw : w.Preserves w')
    (hle : w ≤ w') : w'.Warrants asked op := by
  cases op with
  | saveAttempt => exact World.Judges.up h hw
  | insertAlert => exact World.Raises.up h hw
  | updateAlert => exact World.Signs.mono h hle
  | insertIncident => exact World.Opens.up h hw
  | saveIncident => exact ⟨h.1.mono hle, h.2⟩
  | _ => exact h

/-- All that is new is warranted. -/
theorem World.Warranted.up (h : w.Warranted asked) (hw : w.Preserves w') (hle : w ≤ w')
    (hjobs : ∀ job ∈ w'.jobs.rows, job ∈ w.jobs.rows ∨ job.Ordered asked ∧ job.Judged)
    (hattempts : ∀ a ∈ w'.attempts.rows, a ∈ w.attempts.rows ∨ w'.Judges a)
    (halerts : ∀ a ∈ w'.alerts.rows, a ∈ w.alerts.rows ∨
      w'.Raises asked a.toAlertColumns ∧ w'.Signs asked a.id a.acknowledgedBy a.resolvedBy)
    (hincidents : ∀ i ∈ w'.incidents.rows, i ∈ w.incidents.rows ∨
      w'.Opens asked i.toIncidentColumns ∧ i.Signed asked) : w'.Warranted asked where
  jobs job hjob := (hjobs job hjob).elim (h.jobs job) id
  attempts a ha := (hattempts a ha).elim (fun ha => (h.attempts a ha).up hw) id
  alerts a ha := (halerts a ha).elim
    (fun ha => ⟨(h.alerts a ha).1.up hw, (h.alerts a ha).2.mono hle⟩) id
  incidents i hi := (hincidents i hi).elim
    (fun hi => ⟨(h.incidents i hi).1.up hw, (h.incidents i hi).2⟩) id

end Up

/-! ## The discipline -/

section Perform

variable {asked : Command → Prop} {w w' : World}

/-- An incident that agrees with a stored one on its identity and its link has the same occasion. -/
theorem World.Warranted.opens (h : w.Warranted asked) {incident : IncidentEntity}
    (hincident : w.incidents.Matches IncidentEntity.identity incident)
    (hlinks : w.Links incident.id incident.alertId) : w.Opens asked incident.toIncidentColumns := by
  obtain ⟨before, hbefore, hsame⟩ := hincident
  obtain ⟨row, hrow, hlink⟩ := hlinks
  obtain rfl := Option.some.inj (hbefore.symm.trans hrow)
  obtain ⟨alert, o, halert, ho, hraises, hopens, hgiven⟩ :=
    (h.incidents before (Table.lookup_eq_some.mp hbefore).1).1
  refine ⟨alert, o, halert, ho, hraises, hopens, Eq.trans ?_ hgiven⟩
  simp only [IncidentEntity.identity, IncidentColumns.given, Prod.mk.injEq] at hsame ⊢
  grind

theorem World.Warranted.ordered (h : w.Warranted asked) {job : JobEntity}
    (hjob : w.jobs.Matches JobEntity.identity job) : job.Ordered asked := by
  obtain ⟨before, hbefore, hsame⟩ := hjob
  obtain ⟨input, hasked, hgiven⟩ := (h.jobs before (Table.lookup_eq_some.mp hbefore).1).1
  refine ⟨input, hasked, Eq.trans ?_ hgiven⟩
  simp only [JobEntity.identity, JobColumns.given, Prod.mk.injEq] at hsame ⊢
  grind

/-- The tables are the same. -/
theorem World.Warranted.of_same (h : w.Warranted asked) (hw : w.Preserves w') (hle : w ≤ w')
    (hjobs : w'.jobs = w.jobs) (hattempts : w'.attempts = w.attempts)
    (halerts : w'.alerts = w.alerts) (hincidents : w'.incidents = w.incidents) :
    w'.Warranted asked :=
  h.up hw hle (fun _ hjob => .inl (hjobs ▸ hjob)) (fun _ ha => .inl (hattempts ▸ ha))
    (fun _ ha => .inl (halerts ▸ ha)) fun _ hi => .inl (hincidents ▸ hi)

/-- A call that is permitted and warranted leaves all rows warranted. -/
theorem warranted_perform {e : Env} {op : Op} {reply : op.Reply} (h : w.Warranted asked)
    (hpermit : w.Permits op) (hop : w.Warrants asked op)
    (hp : perform e w op = some (reply, w')) (hle : w ≤ w') : w'.Warranted asked := by
  have hw : w.Preserves w' := preserves_perform hpermit hp
  cases op with
  | insertJob c =>
    obtain ⟨-, t, ht, -, rfl⟩ := perform_insertJob hp
    refine h.up hw hle (fun job hjob => ?_) (fun _ => .inl) (fun _ => .inl) fun _ => .inl
    refine ((Table.mem_insert ht).mp hjob).imp id ?_
    rintro rfl
    exact ⟨hop.1, .pending (by simp [hop.2]) (by simp [hop.2])⟩
  | saveJob job =>
    obtain ⟨t, rfl, rfl⟩ := perform_saveJob hp
    refine h.up hw hle (fun row hrow => ?_) (fun _ => .inl) (fun _ => .inl) fun _ => .inl
    rcases Table.mem_save.mp hrow with rfl | ⟨hrow, -⟩
    · exact .inr ⟨h.ordered hpermit, JobEntity.Verdict.of_identity hop rfl⟩
    · exact .inl hrow
  | insertAttempt c =>
    obtain ⟨⟨hjob, -⟩, t, ht, -, rfl⟩ := perform_insertAttempt hp
    refine h.up hw hle (fun _ => .inl) (fun a ha => ?_) (fun _ => .inl) fun _ => .inl
    refine ((Table.mem_insert ht).mp ha).imp id ?_
    rintro rfl
    obtain ⟨job, hjob⟩ := Option.isSome_iff_exists.mp hjob
    have hstarted : c.status = .STARTED := hop
    exact ⟨job, .of_lookup hjob, (Table.lookup_eq_some.mp hjob).2.symm,
      .pending (by simp [hstarted]) (by simp [hstarted])⟩
  | saveAttempt attempt =>
    cases hp
    refine h.up hw hle (fun _ => .inl) (fun a ha => ?_) (fun _ => .inl) fun _ => .inl
    rcases Table.mem_save.mp ha with rfl | ⟨ha, -⟩
    · exact .inr (World.Judges.up hop hw)
    · exact .inl ha
  | insertAlert c =>
    obtain ⟨-, t, ht, -, rfl⟩ := perform_insertAlert hp
    refine h.up hw hle (fun _ => .inl) (fun _ => .inl) (fun a ha => ?_) fun _ => .inl
    refine ((Table.mem_insert ht).mp ha).imp id ?_
    rintro rfl
    exact ⟨World.Raises.up hop hw, by simp [hpermit.1], by simp [hpermit.2]⟩
  | saveAlert => exact hop.elim
  | updateAlert alertId changes =>
    obtain ⟨rfl, -⟩ | ⟨alert, halert, -, rfl⟩ := perform_updateAlert hp
    · exact h
    obtain ⟨hstored, rfl⟩ := Table.lookup_eq_some.mp halert
    refine h.up hw hle (fun _ => .inl) (fun _ => .inl) (fun a ha => ?_) fun _ => .inl
    rcases Table.mem_save.mp ha with rfl | ⟨ha, -⟩
    · have hsigns := (h.alerts alert hstored).2
      refine .inr ⟨(h.alerts alert hstored).1.up hw, World.Signs.mono ?_ hle⟩
      -- A column is signed by the command, or left as it is.
      constructor
      · cases hby : changes.acknowledgedBy with
        | none => simpa [AlertUpdate.apply, hby] using hsigns.acknowledged
        | some operatorId => simpa [AlertUpdate.apply, hby] using hop.acknowledged
      · cases hby : changes.resolvedBy with
        | none => simpa [AlertUpdate.apply, hby] using hsigns.resolved
        | some operatorId => simpa [AlertUpdate.apply, hby] using hop.resolved
    · exact .inl ha
  | insertIncident c =>
    obtain ⟨-, t, ht, -, rfl⟩ := perform_insertIncident hp
    refine h.up hw hle (fun _ => .inl) (fun _ => .inl) (fun _ => .inl) fun i hi => ?_
    refine ((Table.mem_insert ht).mp hi).imp id ?_
    rintro rfl
    exact ⟨World.Opens.up hop hw, by simp [hpermit.1], by simp [hpermit.2]⟩
  | saveIncident incident =>
    obtain ⟨-, -, rfl, rfl⟩ := perform_saveIncident hp
    refine h.up hw hle (fun _ => .inl) (fun _ => .inl) (fun _ => .inl) fun i hi => ?_
    rcases Table.mem_save.mp hi with rfl | ⟨hi, -⟩
    · exact .inr ⟨(h.opens hpermit hop.1).up hw, ⟨hop.2.acknowledged, hop.2.resolved⟩⟩
    · exact .inl hi
  | insertNotification c =>
    obtain ⟨t, -, -, rfl⟩ := perform_insertNotification hp
    exact h.of_same hw hle rfl rfl rfl rfl
  | insertAuditEntry c =>
    obtain ⟨-, t, -, -, rfl⟩ := perform_insertAuditEntry hp
    exact h.of_same hw hle rfl rfl rfl rfl
  | insertOperatorAction c =>
    obtain ⟨-, t, -, -, rfl⟩ := perform_insertOperatorAction hp
    exact h.of_same hw hle rfl rfl rfl rfl
  | setNX key ttlSeconds =>
    simp only [perform] at hp
    split at hp <;> cases hp <;> exact h.of_same hw hle rfl rfl rfl rfl
  | findJob | findAttempts | findAlert | findIncident | del | sendToQueue | publish | ack | nack
  | sleep | now =>
    cases hp
    exact h.of_same hw hle rfl rfl rfl rfl

end Perform

/-- To undo nothing and to leave the links, and to write only what is warranted. -/
def warrants (asked : Command → Prop) : Discipline handle :=
  discipline.along (fun w w' => w ≤ w' ∧ (w.Warranted asked → w'.Warranted asked))
    (fun _ => ⟨le_rfl, id⟩) (fun h h' => ⟨h.1.trans h'.1, h'.2 ∘ h.2⟩) (World.Warrants asked)
    fun e op w hpermit hop => by
      refine ⟨hop.fastens.keeps e, fun h => ?_⟩
      have hw : w.Preserves { w with clock := e.now } :=
        .of_same rfl rfl rfl rfl rfl rfl rfl (List.prefix_refl _)
      have hle : w ≤ { w with clock := e.now } := World.Keeps.of_eq rfl rfl rfl rfl
      have hback : { w with clock := e.now } ≤ w := World.Keeps.of_eq rfl rfl rfl rfl
      have hclock : World.Warranted asked { w with clock := e.now } :=
        h.of_same hw hle rfl rfl rfl rfl
      rcases handle_world e op w with hsame | ⟨reply, hp⟩
      · rw [hsame]
        exact hclock
      · exact warranted_perform hclock hpermit (hop.up hw hle) hp
          (hback.trans (hop.fastens.keeps e))

/-! ## What a reply tells -/

/-- What stands once a call has resolved. -/
def World.Tells (asked : Command → Prop) (w : World) : (op : Op) → op.Reply → Prop
  | .findJob id, found => ∀ job ∈ found, job.id = id ∧ w.jobs.Matches JobEntity.identity job ∧
      job.Judged
  | .saveJob job, row => (row.toJobColumns = job.toJobColumns ∧ row.id = job.id) ∧
      w.jobs.Matches JobEntity.identity row
  | .findAttempts jobId, found => ∀ a ∈ found, a.jobId = jobId ∧ w.Judges a
  | .insertAttempt c, a => a.toAttemptColumns = c ∧
      w.attempts.Matches ProcessingAttemptEntity.identity a
  | .insertAlert c, alert => alert.toAlertColumns = c ∧
      w.alerts.Matches AlertEntity.identity alert
  | .findIncident id, found => ∀ incident ∈ found, incident.id = id ∧
      w.incidents.Matches IncidentEntity.identity incident ∧
      w.Links incident.id incident.alertId ∧ incident.Signed asked
  | .saveIncident _, incident => incident.Signed asked
  | _, _ => True

section Replies

variable {asked : Command → Prop} {w w' : World}

theorem World.Tells.up {op : Op} {reply : op.Reply} (h : w.Tells asked op reply)
    (hw : w.Preserves w') (hle : w ≤ w') : w'.Tells asked op reply := by
  cases op with
  | findJob => exact fun job hjob => (h job hjob).imp id (.imp_left (·.advances hw.jobs))
  | saveJob => exact h.imp_right (·.advances hw.jobs)
  | findAttempts => exact fun a ha => (h a ha).imp_right (·.up hw)
  | insertAttempt => exact h.imp_right (·.advances hw.attempts)
  | insertAlert => exact h.imp_right (·.advances hw.alerts)
  | findIncident =>
    exact fun i hi => (h i hi).imp id fun ⟨hm, hlinks, hs⟩ =>
      ⟨hm.advances hw.incidents, hlinks.mono hle, hs⟩
  | _ => exact h

theorem tells_of_warranted {e : Env} {op : Op} {reply : op.Reply} (hw : w.Warranted asked)
    (hop : w.Warrants asked op) (h : handle e op w = (.ok reply, w')) :
    w'.Tells asked op reply := by
  have hp := (handle_eq_ok h).1
  cases op with
  | findJob id =>
    cases hp
    intro job hjob
    obtain ⟨hmem, hid⟩ := Table.lookup_eq_some.mp hjob
    exact ⟨hid, .of_lookup hjob, (hw.jobs job hmem).2⟩
  | saveJob job =>
    obtain ⟨t, rfl, rfl⟩ := perform_saveJob hp
    exact ⟨⟨rfl, rfl⟩, .of_save⟩
  | findAttempts jobId =>
    cases hp
    intro a ha
    obtain ⟨hmem, hid⟩ : a ∈ w.attempts.rows ∧ a.jobId = jobId := by simpa [attemptsOf] using ha
    exact ⟨hid, hw.attempts a hmem⟩
  | insertAttempt c =>
    obtain ⟨-, t, ht, rfl, rfl⟩ := perform_insertAttempt hp
    exact ⟨rfl, .of_insert ht⟩
  | insertAlert c =>
    obtain ⟨-, t, ht, rfl, rfl⟩ := perform_insertAlert hp
    exact ⟨rfl, .of_insert ht⟩
  | findIncident id =>
    cases hp
    intro incident hincident
    obtain ⟨hmem, hid⟩ := Table.lookup_eq_some.mp hincident
    exact ⟨hid, .of_lookup hincident, ⟨incident, Table.lookup_of_mem hmem, rfl⟩,
      (hw.incidents incident hmem).2⟩
  | saveIncident incident =>
    obtain ⟨-, -, rfl, rfl⟩ := perform_saveIncident hp
    exact ⟨hop.2.acknowledged, hop.2.resolved⟩
  | _ => trivial

/-- The stored job that judges an attempt is the one it names. -/
theorem World.Judges.of_matches {attempt : ProcessingAttemptEntity} (h : w.Judges attempt)
    {job : JobEntity} (hjob : w.jobs.Matches JobEntity.identity job)
    (hid : attempt.jobId = job.id) : job.Judges attempt := by
  obtain ⟨job', ⟨row', hrow', hsame'⟩, hjudges⟩ := h
  obtain ⟨row, hrow, hsame⟩ := hjob
  have hids : job.id = job'.id := hid.symm.trans hjudges.1
  rw [hids, hrow', Option.some.injEq] at hrow
  exact hjudges.of_identity hids (hsame'.symm.trans (hrow ▸ hsame))

end Replies

/-! ## The programs -/

/-- The rows are warranted, and `K` holds. -/
abbrev Knowing (asked : Command → Prop) (K : World → Prop) (w : World) : Prop :=
  w.Warranted asked ∧ K w

/-- What is answered agrees with a stored job and its attempts, and names nobody who has not
asked. -/
def World.Answers (asked : Command → Prop) (w : World) : Response → Prop
  | .job (.report report) => ∃ job, w.jobs.Matches JobEntity.identity job ∧ job.id = report.jobId ∧
      job.Verdict report.attemptCount (report.status = .COMPLETED) (report.status = .FAILED)
        report.lastError ∧ ∀ a ∈ report.attempts, job.Judges a
  | .incident incident => incident.Signed asked
  | _ => True

section Programs

variable {asked : Command → Prop} {K : World → Prop} {α : Type} {Q : α → World → Prop}

/-- A warranted call; its reply tells more. -/
theorem warrants_await {op : Op} {f : op.Reply → Promise α}
    (hop : ∀ w, K w → w.Permits op ∧ w.Warrants asked op)
    (hf : ∀ reply, (f reply).Delivers (warrants asked)
      (Knowing asked fun w => K w ∧ w.Tells asked op reply) Q) :
    ((await op).bind f).Delivers (warrants asked) (Knowing asked K) Q :=
  .await_bind (fun w hw => hop w hw.2)
    (fun _ _ _ _ hw h _ hup => (tells_of_warranted hw.1 (hop _ hw.2).2 h).up hup.1 hup.2.1)
    fun reply =>
      (hf reply).mono (fun _ h => ⟨h.1.1, h.1.2, h.2⟩) fun _ _ h => h

/-- A warranted call whose reply is not needed. -/
theorem warrants_step {op : Op} {f : op.Reply → Promise α}
    (hop : ∀ w, K w → w.Permits op ∧ w.Warrants asked op)
    (hf : ∀ reply, (f reply).Delivers (warrants asked) (Knowing asked K) Q) :
    ((await op).bind f).Delivers (warrants asked) (Knowing asked K) Q :=
  warrants_await hop fun reply => (hf reply).mono (fun _ h => ⟨h.1, h.2.1⟩) fun _ _ h => h

theorem warrants_create {input : CreateJobInput} (h : asked (.job (.create input))) :
    (JobService.create input).Delivers (warrants asked) (Knowing asked K) fun _ _ => True := by
  unfold JobService.create
  refine warrants_step (fun _ _ => ⟨trivial, ⟨input, h, rfl⟩, rfl⟩) fun job => ?_
  refine warrants_step (fun _ _ => ⟨trivial, trivial⟩) fun action => ?_
  refine warrants_step (fun _ _ => ⟨trivial, trivial⟩) fun entry => ?_
  refine warrants_step (fun _ _ => ⟨trivial, trivial⟩) fun notification => ?_
  refine warrants_step (fun _ _ => ⟨trivial, trivial⟩) fun _ => ?_
  refine warrants_step (fun _ _ => ⟨trivial, trivial⟩) fun _ => ?_
  exact warrants_step (fun _ _ => ⟨trivial, trivial⟩) fun _ => .ret fun _ _ => trivial

/-- There is no verdict on a job that was queued again. -/
theorem judged_requeued (job : JobEntity) : (JobService.requeued job).Judged :=
  .pending (by simp [JobService.requeued]) (by simp [JobService.requeued])

theorem warrants_retry (jobId : Uuid) (operatorId : String) :
    (JobService.retry jobId operatorId).Delivers (warrants asked) (Knowing asked K)
      fun _ _ => True := by
  unfold JobService.retry
  rw [Prog.bind_eq, JobService.getById_bind]
  refine warrants_await (fun _ _ => ⟨trivial, trivial⟩) fun found => ?_
  cases found with
  | none => exact .throw
  | some job =>
    dsimp only
    split_ifs
    · exact .throw
    · exact .throw
    refine warrants_step (fun w hw => ⟨(hw.2 job rfl).2.1, judged_requeued job⟩) fun updated => ?_
    refine warrants_step (fun _ _ => ⟨trivial, trivial⟩) fun action => ?_
    refine warrants_step (fun _ _ => ⟨trivial, trivial⟩) fun entry => ?_
    refine warrants_step (fun _ _ => ⟨trivial, trivial⟩) fun notification => ?_
    refine warrants_step (fun _ _ => ⟨trivial, trivial⟩) fun _ => ?_
    refine warrants_step (fun _ _ => ⟨trivial, trivial⟩) fun _ => ?_
    exact warrants_step (fun _ _ => ⟨trivial, trivial⟩) fun _ => .ret fun _ _ => trivial

theorem warrants_getStatus (jobId : Uuid) :
    (JobService.getStatus jobId).Delivers (warrants asked) (Knowing asked K) fun report w =>
      w.Answers asked (.job (.report report)) := by
  unfold JobService.getStatus
  rw [Prog.bind_eq, JobService.getById_bind]
  refine warrants_await (fun _ _ => ⟨trivial, trivial⟩) fun found => ?_
  cases found with
  | none => exact .throw
  | some job =>
    refine warrants_await (fun _ _ => ⟨trivial, trivial⟩) fun attempts => .ret ?_
    rintro w ⟨-, ⟨-, hfound⟩, hattempts⟩
    obtain ⟨hid, hjob, hjudged⟩ := hfound job rfl
    refine ⟨job, hjob, rfl, hjudged, fun a ha => ?_⟩
    exact (hattempts a ha).2.of_matches hjob ((hattempts a ha).1.trans hid.symm)

/-- The thread runs an attempt of the job : both are stored, and the attempt has the number of the
job. -/
structure World.Runs (w : World) (job : JobEntity) (attempt : ProcessingAttemptEntity) : Prop where
  stored : w.jobs.Matches JobEntity.identity job
  inserted : w.attempts.Matches ProcessingAttemptEntity.identity attempt
  jobId : attempt.jobId = job.id
  number : attempt.attemptNumber = job.attemptCount

theorem judges_succeeded {job : JobEntity} {attempt : ProcessingAttemptEntity} {finishedAt : Date}
    (hjobId : attempt.jobId = job.id)
    (hfails : evaluateFailure job attempt.attemptNumber = none) :
    job.Judges (succeeded attempt finishedAt) :=
  ⟨hjobId, fun _ => hfails, by simp [succeeded]⟩

theorem judges_failed {job : JobEntity} {attempt : ProcessingAttemptEntity} {errorMessage : String}
    {finishedAt : Date} (hjobId : attempt.jobId = job.id)
    (hfails : evaluateFailure job attempt.attemptNumber = some errorMessage) :
    job.Judges (failed attempt errorMessage finishedAt) :=
  ⟨hjobId, by simp [failed], fun _ => ⟨rfl, hfails⟩⟩

theorem judged_completed {job : JobEntity} {finishedAt : Date}
    (hfails : evaluateFailure job job.attemptCount = none) : (completed job finishedAt).Judged :=
  ⟨fun _ => hfails, by simp [completed]⟩

theorem judged_failedJob {job : JobEntity} {errorMessage : String} {finishedAt : Date}
    (hfails : evaluateFailure job job.attemptCount = some errorMessage) :
    (failedJob job errorMessage finishedAt).Judged :=
  ⟨by simp [failedJob], fun _ => ⟨rfl, hfails⟩⟩

theorem judged_started (job : JobEntity) (startedAt : Date) : (started job startedAt).Judged :=
  .pending (by simp [started]) (by simp [started])

theorem warrants_markCompleted {job : JobEntity} {attempt : ProcessingAttemptEntity}
    (hK : ∀ w, K w → w.Runs job attempt) (hfails : evaluateFailure job job.attemptCount = none) :
    (markCompleted job attempt).Delivers (warrants asked) (Knowing asked K) fun _ _ => True := by
  unfold markCompleted
  refine warrants_step (fun _ _ => ⟨trivial, trivial⟩) fun finishedAt => ?_
  refine warrants_step (fun w hw => ?_) fun attempt => ?_
  · have hruns := hK w hw
    exact ⟨hruns.inserted, job, hruns.stored,
      judges_succeeded hruns.jobId (hruns.number.symm ▸ hfails)⟩
  refine warrants_step (fun w hw => ⟨(hK w hw).stored, judged_completed hfails⟩) fun job => ?_
  refine warrants_step (fun _ _ => ⟨trivial, trivial⟩) fun notification => ?_
  refine warrants_step (fun _ _ => ⟨trivial, trivial⟩) fun _ => ?_
  refine warrants_step (fun _ _ => ⟨trivial, trivial⟩) fun _ => ?_
  exact .of_calls (.await fun _ => ⟨trivial, trivial⟩)

theorem warrants_reportFailure (job : JobEntity) (attempt : ProcessingAttemptEntity)
    (errorMessage : String) (finishedAt : Date) (alert : AlertEntity)
    (incident : Option IncidentEntity) :
    (reportFailure job attempt errorMessage finishedAt alert incident).Delivers (warrants asked)
      (Knowing asked K) fun _ _ => True :=
  .of_calls (calls_reportFailure (fun _ _ => ⟨trivial, trivial⟩) (fun _ _ => ⟨trivial, trivial⟩)
    (fun _ _ _ => ⟨trivial, trivial⟩) job attempt errorMessage finishedAt alert incident)

/-- The failure of an attempt that is run is an occasion. -/
theorem World.Runs.gives {w : World} {job row : JobEntity} {attempt : ProcessingAttemptEntity}
    {errorMessage : String} {finishedAt : Date} (h : w.Runs job attempt)
    (hfails : evaluateFailure job job.attemptCount = some errorMessage)
    (hrow : row.toJobColumns = (failedJob job errorMessage finishedAt).toJobColumns)
    (hid : row.id = job.id) (hmatches : w.jobs.Matches JobEntity.identity row) :
    w.Gives asked (.failure row errorMessage) := by
  obtain ⟨columns, id, createdAt, updatedAt⟩ := row
  cases hrow
  cases hid
  obtain ⟨a, ha, hsame⟩ := h.inserted
  simp only [ProcessingAttemptEntity.identity, Prod.mk.injEq] at hsame
  exact ⟨hmatches, hfails, a, (Table.lookup_eq_some.mp ha).1, hsame.1.trans h.jobId,
    hsame.2.1.trans h.number⟩

theorem warrants_markFailed {job : JobEntity} {attempt : ProcessingAttemptEntity}
    {errorMessage : String} (hK : ∀ w, K w → w.Runs job attempt)
    (hfails : evaluateFailure job job.attemptCount = some errorMessage) :
    (markFailed job attempt errorMessage).Delivers (warrants asked) (Knowing asked K)
      fun _ _ => True := by
  unfold markFailed
  refine warrants_step (fun _ _ => ⟨trivial, trivial⟩) fun finishedAt => ?_
  refine warrants_step (fun w hw => ?_) fun saved => ?_
  · have hruns := hK w hw
    exact ⟨hruns.inserted, job, hruns.stored,
      judges_failed hruns.jobId (hruns.number.symm ▸ hfails)⟩
  refine warrants_await (fun w hw => ⟨(hK w hw).stored, judged_failedJob hfails⟩) fun row => ?_
  have hgives : ∀ w, K w ∧ w.Tells asked (.saveJob (failedJob job errorMessage finishedAt)) row →
      w.Gives asked (.failure row errorMessage) :=
    fun w ⟨hw, ⟨hrow, hid⟩, hmatches⟩ => (hK w hw).gives hfails hrow hid hmatches
  refine warrants_await (fun w hw => ⟨⟨rfl, rfl⟩, _, hgives w hw, rfl⟩) fun alert => ?_
  split_ifs with hcritical
  · refine warrants_step (fun w hw => ⟨⟨rfl, rfl⟩, ?_⟩) fun incident => ?_
    · obtain ⟨hw, hcolumns, halert⟩ := hw
      exact ⟨alert, _, halert, hgives w hw, congrArg AlertColumns.given hcolumns, hcritical, rfl⟩
    · exact warrants_reportFailure _ _ _ _ _ _
  · exact warrants_reportFailure _ _ _ _ _ _

theorem warrants_processJob (input : ProcessJobInput) {job : JobEntity}
    (hK : ∀ w, K w → w.jobs.Matches JobEntity.identity job) :
    (processJob input job).Delivers (warrants asked) (Knowing asked K) fun _ _ => True := by
  unfold processJob
  refine warrants_step (fun _ _ => ⟨trivial, trivial⟩) fun startedAt => ?_
  refine warrants_await (fun w hw => ⟨hK w hw, judged_started job startedAt⟩) fun row => ?_
  refine .of_fact (P := row.attemptCount = job.attemptCount + 1)
    (fun w hw => congrArg JobColumns.attemptCount hw.2.2.1.1) fun hcount => ?_
  refine warrants_step (fun _ _ => ⟨trivial, trivial⟩) fun _ => ?_
  refine warrants_step (fun _ _ => ⟨trivial, trivial⟩) fun _ => ?_
  refine warrants_await (fun _ _ => ⟨trivial, rfl⟩) fun attempt => ?_
  refine warrants_step (fun _ _ => ⟨trivial, trivial⟩) fun _ => ?_
  have hruns : ∀ w, (K w ∧ w.Tells asked (.saveJob (started job startedAt)) row) ∧
      w.Tells asked (.insertAttempt (newAttempt row (job.attemptCount + 1) startedAt)) attempt →
      w.Runs row attempt :=
    fun w ⟨⟨_, _, hrow⟩, hcolumns, hattempt⟩ =>
      ⟨hrow, hattempt, congrArg AttemptColumns.jobId hcolumns,
        (congrArg AttemptColumns.attemptNumber hcolumns).trans hcount.symm⟩
  split
  · rename_i errorMessage hfails
    exact warrants_markFailed hruns (hcount ▸ hfails)
  · rename_i hfails
    exact warrants_markCompleted hruns (hcount ▸ hfails)

theorem warrants_process (input : ProcessJobInput) :
    (process input).Delivers (warrants asked) (Knowing asked K) fun _ _ => True := by
  unfold process
  refine warrants_step (fun _ _ => ⟨trivial, trivial⟩) fun acquired => ?_
  cases acquired with
  | false => exact .ret fun _ _ => trivial
  | true =>
    refine .tryFinally (warrants_await (fun _ _ => ⟨trivial, trivial⟩) fun found => ?_) ?_
    · cases found with
      | none => exact .ret fun _ _ => trivial
      | some job => exact warrants_processJob input fun w hw => (hw.2 job rfl).2.1
    · exact .of_calls (.await fun _ => ⟨trivial, trivial⟩)

theorem warrants_consume (delivery : Delivery) :
    (RabbitMqService.consumeCallback JobProcessingConsumer.onMessage delivery).Delivers
      (warrants asked) (Knowing asked K) fun _ _ => True := by
  unfold RabbitMqService.consumeCallback
  refine .tryCatch ?_ fun _ => .of_calls (.await fun _ => ⟨trivial, trivial⟩)
  obtain ⟨tag, ⟨content⟩⟩ := delivery
  cases content with
  | none => exact .throw
  | some payload =>
    refine Prog.Delivers.bind (Q := fun _ _ => True) ?_ fun _ =>
      .of_calls (.await fun _ => ⟨trivial, trivial⟩)
    unfold JobProcessingConsumer.onMessage
    split
    · exact .ret fun _ _ => trivial
    · exact warrants_process _

theorem warrants_announce (input : CreateAlertInput) (alert : AlertEntity)
    (incident : Option IncidentEntity) :
    (AlertService.announce input alert incident).Delivers (warrants asked) (Knowing asked K)
      fun _ _ => True := by
  unfold AlertService.announce
  refine warrants_step (fun _ _ => ⟨trivial, trivial⟩) fun action => ?_
  refine warrants_step (fun _ _ => ⟨trivial, trivial⟩) fun entry => ?_
  refine warrants_step (fun _ _ => ⟨trivial, trivial⟩) fun _ => ?_
  cases incident with
  | none => exact .ret fun _ _ => trivial
  | some incident =>
    exact warrants_step (fun _ _ => ⟨trivial, trivial⟩) fun _ => .ret fun _ _ => trivial

theorem warrants_createAlert {input : CreateAlertInput} (h : asked (.createAlert input)) :
    (AlertService.create input).Delivers (warrants asked) (Knowing asked K) fun _ _ => True := by
  unfold AlertService.create
  refine warrants_await (fun _ _ => ⟨⟨rfl, rfl⟩, .order input, h, rfl⟩) fun alert => ?_
  split_ifs with hopens
  · refine warrants_step (fun w hw => ⟨⟨rfl, rfl⟩, ?_⟩) fun incident =>
      warrants_announce input alert (some incident)
    obtain ⟨-, hcolumns, halert⟩ := hw
    exact ⟨alert, .order input, halert, h, congrArg AlertColumns.given hcolumns, hopens, rfl⟩
  · exact warrants_announce input alert none

theorem warrants_propagate {incident updated : IncidentEntity} {operatorId : String}
    {changes : Date → AlertUpdate} {action auditAction : String} {metadata payload : Record}
    (hupdated : updated.Signed asked)
    (hK : ∀ w, K w → ∀ alertId ∈ incident.alertId, ∀ t,
      w.Signs asked alertId (changes t).acknowledgedBy (changes t).resolvedBy) :
    (IncidentService.propagate incident updated operatorId changes action auditAction metadata
      payload).Delivers (warrants asked) (Knowing asked K) fun answer w =>
        w.Answers asked (.incident answer) := by
  have hrest :
      ((await (.insertOperatorAction ⟨operatorId, action, .INCIDENT, some incident.id, []⟩)).bind
        fun _ => (AuditService.log ⟨.OPERATOR, some operatorId, auditAction, .INCIDENT,
          some incident.id, metadata⟩).bind
        fun _ => (RealtimeEventPublisher.publishIncidentUpdated payload).bind
        fun _ => .ret updated).Delivers (warrants asked) (Knowing asked K) fun answer w =>
          w.Answers asked (.incident answer) := by
    refine warrants_step (fun _ _ => ⟨trivial, trivial⟩) fun action => ?_
    refine warrants_step (fun _ _ => ⟨trivial, trivial⟩) fun entry => ?_
    exact warrants_step (fun _ _ => ⟨trivial, trivial⟩) fun _ => .ret fun _ _ => hupdated
  unfold IncidentService.propagate
  cases hlink : incident.alertId with
  | none => exact hrest
  | some alertId =>
    refine warrants_step (fun _ _ => ⟨trivial, trivial⟩) fun t => ?_
    exact warrants_step (fun w hw => ⟨trivial, hK w hw alertId hlink t⟩) fun _ => hrest

theorem warrants_acknowledge {incidentId : Uuid} {operatorId : String}
    (h : asked (.acknowledge incidentId operatorId)) :
    (IncidentService.acknowledge incidentId operatorId).Delivers (warrants asked)
      (Knowing asked K) fun answer w => w.Answers asked (.incident answer) := by
  unfold IncidentService.acknowledge
  rw [Prog.bind_eq, IncidentService.getIncident_bind]
  refine warrants_await (fun _ _ => ⟨trivial, trivial⟩) fun found => ?_
  cases found with
  | none => exact .throw
  | some incident =>
    refine .of_fact (P := incident.id = incidentId) (fun w hw => (hw.2.2 incident rfl).1) ?_
    rintro rfl
    dsimp only
    split_ifs
    · exact .throw
    refine warrants_step (fun _ _ => ⟨trivial, trivial⟩) fun acknowledgedAt => ?_
    refine warrants_await (fun w hw => ?_) fun updated => ?_
    · obtain ⟨-, hincident, hlinks, hsigned⟩ := hw.2 incident rfl
      refine ⟨hincident, hlinks, ?_, hsigned.resolved⟩
      rintro _ ⟨⟩
      exact .inl h
    refine .of_fact (P := updated.Signed asked) (fun w hw => hw.2.2) fun hupdated => ?_
    refine warrants_propagate hupdated fun w hw alertId hlink t => ⟨?_, by rintro _ ⟨⟩⟩
    rintro _ ⟨⟩
    obtain ⟨-, -, hlinks, -⟩ := hw.1.2 incident rfl
    exact .inr ⟨incident.id, hlink ▸ hlinks, h⟩

theorem warrants_settle {incident : IncidentEntity} {operatorId : String}
    (h : asked (.resolve incident.id operatorId))
    (hK : ∀ w, K w → w.incidents.Matches IncidentEntity.identity incident ∧
      w.Links incident.id incident.alertId)
    (hacknowledged : ∀ other ∈ incident.acknowledgedBy,
      asked (.acknowledge incident.id other) ∨ asked (.resolve incident.id other)) :
    (IncidentService.settle incident operatorId).Delivers (warrants asked) (Knowing asked K)
      fun answer w => w.Answers asked (.incident answer) := by
  unfold IncidentService.settle
  refine warrants_step (fun _ _ => ⟨trivial, trivial⟩) fun resolvedAt => ?_
  refine warrants_await (fun w hw => ⟨(hK w hw).1, (hK w hw).2, hacknowledged, ?_⟩) fun updated =>
    ?_
  · rintro _ ⟨⟩
    exact h
  refine .of_fact (P := updated.Signed asked) (fun w hw => hw.2.2) fun hupdated => ?_
  refine warrants_propagate hupdated fun w hw alertId hlink t => ⟨by rintro _ ⟨⟩, ?_⟩
  rintro _ ⟨⟩
  exact ⟨incident.id, hlink ▸ (hK w hw.1).2, h⟩

theorem warrants_resolve {incidentId : Uuid} {operatorId : String}
    (h : asked (.resolve incidentId operatorId)) :
    (IncidentService.resolve incidentId operatorId).Delivers (warrants asked) (Knowing asked K)
      fun answer w => w.Answers asked (.incident answer) := by
  unfold IncidentService.resolve
  rw [Prog.bind_eq, IncidentService.getIncident_bind]
  refine warrants_await (fun _ _ => ⟨trivial, trivial⟩) fun found => ?_
  cases found with
  | none => exact .throw
  | some incident =>
    refine .of_fact (P := incident.id = incidentId ∧ incident.Signed asked)
      (fun w hw => ⟨(hw.2.2 incident rfl).1, (hw.2.2 incident rfl).2.2.2⟩) ?_
    rintro ⟨rfl, hsigned⟩
    dsimp only
    split_ifs
    · exact .throw
    · -- An open incident is acknowledged by the one who resolves it.
      refine warrants_step (fun _ _ => ⟨trivial, trivial⟩) fun acknowledgedAt => ?_
      refine warrants_settle h (fun w hw => (hw.2 incident rfl).2.imp_right (·.1)) ?_
      rintro _ ⟨⟩
      exact .inr h
    · exact warrants_settle h (fun w hw => (hw.2 incident rfl).2.imp_right (·.1))
        hsigned.acknowledged

theorem warrants_call {call : Call} (h : (Command.job call).Consumes ∨ asked (.job call)) :
    call.prog.Delivers (warrants asked) (Knowing asked K) fun result w =>
      w.Answers asked (.job result) := by
  cases call with
  | create input =>
    exact (warrants_create (h.resolve_left id)).bind fun _ => .ret fun _ _ => trivial
  | retry jobId operatorId =>
    exact (warrants_retry jobId operatorId).bind fun _ => .ret fun _ _ => trivial
  | getStatus jobId => exact (warrants_getStatus jobId).bind fun _ => .ret fun _ h => h.2
  | process input => exact (warrants_process input).bind fun _ => .ret fun _ _ => trivial
  | consume delivery => exact (warrants_consume delivery).bind fun _ => .ret fun _ _ => trivial

/-- A command that was asked for, or an execution, writes only what is warranted. -/
theorem warrants_prog {c : Command} (h : c.Consumes ∨ asked c) (hc : ¬c.AcknowledgesAlert) :
    c.prog.Delivers (warrants asked) (Knowing asked K) fun response w =>
      w.Answers asked response := by
  cases c with
  | job call => exact (warrants_call h).bind fun _ => .ret fun _ h => h.2
  | createAlert input =>
    exact (warrants_createAlert (h.resolve_left id)).bind fun _ => .ret fun _ _ => trivial
  | acknowledgeAlert => exact absurd trivial hc
  | acknowledge incidentId operatorId =>
    exact (warrants_acknowledge (h.resolve_left id)).bind fun _ => .ret fun _ h => h.2
  | resolve incidentId operatorId =>
    exact (warrants_resolve (h.resolve_left id)).bind fun _ => .ret fun _ h => h.2

end Programs

/-! ## Runs -/

namespace Operations

variable {asked : Command → Prop} {s s' : Operations}

/-- Every row is warranted, and every thread writes only what is. -/
structure Honest (asked : Command → Prop) (s : Operations) : Prop where
  world : s.pool.world.Warranted asked
  threads : s.pool.Promising (warrants asked) fun _ response w => w.Answers asked response

namespace Honest

theorem init : (Operations.init .empty).Honest asked where
  world := by constructor <;> rintro _ ⟨⟩
  threads i p hp := by cases hp

/-- Something the environment does that leaves the tables alone. -/
theorem withWorld (h : s.Honest asked) {w : World} (hw : s.pool.world.Preserves w)
    (hle : s.pool.world ≤ w) (hjobs : w.jobs = s.pool.world.jobs)
    (hattempts : w.attempts = s.pool.world.attempts)
    (halerts : w.alerts = s.pool.world.alerts) (hincidents : w.incidents = s.pool.world.incidents) :
    (s.withWorld w).Honest asked where
  world := h.world.of_same hw hle hjobs hattempts halerts hincidents
  threads := h.threads.up ⟨hw, hle, fun h => h.of_same hw hle hjobs hattempts halerts hincidents⟩

theorem start (h : s.Honest asked) {c : Command} (hc : c.Consumes ∨ asked c)
    (halert : ¬c.AcknowledgesAlert) : (s.start c).Honest asked where
  world := h.world
  threads := h.threads.spawn (fun _ _ => rfl)
    (warrants_prog (K := fun _ => True) hc halert _ fun _ hw => ⟨hw.2.2 h.world, trivial⟩)

/-- Every move of a run in which only such commands are started keeps all rows warranted. -/
theorem step (h : s.Honest asked) {l : Label}
    (hl : ∀ c, l = .start c → asked c ∧ ¬c.AcknowledgesAlert) (hs : s.step l = some s') :
    s'.Honest asked := by
  cases l with
  | start c =>
    cases hs
    exact h.start (.inr (hl c rfl).1) (hl c rfl).2
  | deliver n =>
    obtain ⟨m, -, rfl⟩ := Option.map_eq_some_iff.mp hs
    refine start (c := .job (.consume ⟨s.pool.world.nextTag, m⟩)) ?_ (.inl trivial) id
    exact h.withWorld (.of_same rfl rfl rfl rfl rfl rfl rfl (List.prefix_refl _))
      (World.Keeps.of_eq rfl rfl rfl rfl) rfl rfl rfl rfl
  | step i e =>
    obtain ⟨-, pool, hpool, rfl⟩ := step_step.mp hs
    obtain ⟨hthreads, hw⟩ := h.threads.advance hpool
    exact ⟨hw.2.2 h.world, hthreads⟩
  | redeliver tag =>
    obtain ⟨w, hw, rfl⟩ := Option.map_eq_some_iff.mp hs
    obtain ⟨d, -, rfl⟩ := Option.map_eq_some_iff.mp hw
    exact h.withWorld (.of_same rfl rfl rfl rfl rfl rfl rfl (List.prefix_refl _))
      (World.Keeps.of_eq rfl rfl rfl rfl) rfl rfl rfl rfl
  | stop i =>
    obtain ⟨-, rfl⟩ := step_stop.mp hs
    exact ⟨h.world, h.threads.halt i _⟩
  | expire key now =>
    obtain ⟨w, hw, rfl⟩ := Option.map_eq_some_iff.mp hs
    obtain ⟨lock, -, -, rfl⟩ := expire_eq_some.mp hw
    exact h.withWorld (.of_same rfl rfl rfl rfl rfl rfl rfl (List.prefix_refl _))
      (World.Keeps.of_eq rfl rfl rfl rfl) rfl rfl rfl rfl

end Honest

end Operations

/-! ## The deployment -/

namespace World.Shows

variable {asked : Command → Prop} {w w' : World}

theorem gives (h : w.Shows w') {o : Occasion} (ho : w'.Gives asked o) : w.Gives asked o := by
  obtain ⟨events, clock, rfl⟩ := h.same.exists
  cases o <;> exact ho

theorem warranted (h : w.Shows w') (hw : w'.Warranted asked) : w.Warranted asked := by
  have hgives : ∀ o, w'.Gives asked o → w.Gives asked o := fun _ => h.gives
  obtain ⟨events, clock, rfl⟩ := h.same.exists
  refine ⟨hw.jobs, hw.attempts, fun a ha => ?_, fun i hi => ?_⟩
  · obtain ⟨⟨o, ho, hgiven⟩, hsigns⟩ := hw.alerts a ha
    exact ⟨⟨o, hgives o ho, hgiven⟩, hsigns.acknowledged, hsigns.resolved⟩
  · obtain ⟨⟨alert, o, halert, ho, hrest⟩, hsigned⟩ := hw.incidents i hi
    exact ⟨⟨alert, o, halert, hgives o ho, hrest⟩, hsigned⟩

theorem answers (h : w.Shows w') {response : Response} (hw : w'.Answers asked response) :
    w.Answers asked response := by
  obtain ⟨events, clock, rfl⟩ := h.same.exists
  cases response with
  | job result => cases result <;> exact hw
  | alert | raised | incident => exact hw

end World.Shows

/-- A request of the run that brought a valid token asked for the command. -/
def Site.Requested (site : Site) (ms : List SiteMove) (c : Command) : Prop :=
  ∃ i, site.Asked (· ∈ ms) i c

theorem Site.Requested.not_acknowledgesAlert {site : Site} {ms : List SiteMove} {c : Command}
    (h : site.Requested ms c) : ¬c.AcknowledgesAlert := by
  obtain ⟨i, request, -, hasks⟩ := h
  exact hasks.not_acknowledgesAlert

/-- In a run of the deployment all rows and all answers are warranted by what was requested. -/
theorem Deployment.warranted {site : Site} {ms : List SiteMove} {d : Deployment}
    (h : ms.foldlM site.step .init = some d) :
    d.world.Warranted (site.Requested ms) ∧
      ∀ i response, d.backend.outcome i = some (.ok (.response response)) →
        d.world.Answers (site.Requested ms) response := by
  have hrun : Reachable site.step (fun _ => (· ∈ ms)) .init d :=
    reachable_of_foldlM (fun _ _ hm => hm) h
  obtain ⟨s, hs, names, -, hrefines⟩ :=
    (simulates site (· ∈ ms) []).reachable ⟨[], List.prefix_refl _, .init⟩ hrun
  have hhonest : s.Honest (site.Requested ms) := by
    refine hs.invariant (fun s l s' hs hl hstep => hs.step ?_ hstep) .init
    rintro c rfl
    have hasked : site.Requested ms c := hl
    exact ⟨hasked, hasked.not_acknowledgesAlert⟩
  refine ⟨hrefines.world.warranted hhonest.world, fun i response hi => ?_⟩
  obtain ⟨j, c, -, -, -, hj⟩ := hrefines.outcome hi
  exact hrefines.world.answers (hhonest.threads.outcome hj ((warrants _).refl _))

/-- In every state of every run of the deployment a completed job has a payload that lets the
attempt with its number succeed, a failed job one that makes this attempt fail, for the reason that
it names, and so have the attempts. Every report that answers a request agrees with the payload of
the stored job as well. -/
theorem verdicts_hold {site : Site} {ms : List SiteMove} {d : Deployment}
    (h : ms.foldlM site.step .init = some d) :
    (∀ job ∈ d.world.jobs.rows, job.Judged) ∧
      (∀ a ∈ d.world.attempts.rows, ∃ job ∈ d.world.jobs.rows, job.Judges a) ∧
      ∀ i report, d.backend.outcome i = some (.ok (.response (.job (.report report)))) →
        ∃ job ∈ d.world.jobs.rows, job.id = report.jobId ∧
          job.Verdict report.attemptCount (report.status = .COMPLETED) (report.status = .FAILED)
            report.lastError ∧ ∀ a ∈ report.attempts, job.Judges a := by
  obtain ⟨hrows, hanswers⟩ := Deployment.warranted h
  refine ⟨fun job hjob => (hrows.jobs job hjob).2, fun a ha => ?_, fun i report hi => ?_⟩
  · obtain ⟨job, ⟨row, hrow, hsame⟩, hjudges⟩ := hrows.attempts a ha
    obtain ⟨hmem, hid⟩ := Table.lookup_eq_some.mp hrow
    exact ⟨row, hmem, hjudges.of_identity hid hsame.symm⟩
  · obtain ⟨job, ⟨row, hrow, hsame⟩, hid, hverdict, hattempts⟩ := hanswers i _ hi
    obtain ⟨hmem, hid'⟩ := Table.lookup_eq_some.mp hrow
    exact ⟨row, hmem, hid'.trans hid, hverdict.of_identity hsame.symm,
      fun a ha => (hattempts a ha).of_identity hid' hsame.symm⟩

/-- The job that was reported as failed has a payload that makes it fail. -/
theorem verdicts_hold_failed : ∃ d, acknowledgingFailure.foldlM defaultSite.step .init = some d ∧
    ∃ job ∈ d.world.jobs.rows, job.id = 3 ∧
      evaluateFailure job 1 = some "Processing failed on attempt 1" := by
  obtain ⟨d, hd, houtcome, -, -⟩ := acknowledgingFailure_run
  obtain ⟨job, hjob, hid, hverdict, -⟩ := (verdicts_hold hd).2.2 3 _ houtcome
  exact ⟨d, hd, job, hjob, hid, (hverdict.failed rfl).2⟩

end RealtimeOps
