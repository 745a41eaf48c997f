import Mathlib.Data.List.Infix
import RealtimeOps.EventOrder
import RealtimeOps.Interleaving.Promise
import RealtimeOps.NoPhantoms

/-!
# What is never undone

`repository.save` writes whole rows, and no save checks a constraint again. What the database was
told of a row still stands for good, because every entity that is saved was read or inserted by the
same program, which changes some of its columns only. `identity` are the columns that no program
changes. `World.Preserves` is the order on worlds : rows stay and keep their identity, and the
notifications, the operator actions, the audit trail and the events only grow. The `discipline` is
to save nothing but entities that agree with a stored row on their identity.

All commands keep to it, in whatever order their calls are answered. So the constraints of the
schema hold in every state, although saves are not checked against them (`integrity`), and what a
command has written by the time it returns is there for good (`Command.Kept`).
-/

set_option autoImplicit false

namespace RealtimeOps

open Interleaving JobProcessorService

/-! ## Identities -/

/-- What a job keeps for good. -/
def JobEntity.identity (job : JobEntity) : String × String × Record × ℕ × ℕ × Date :=
  (job.name, job.type, job.payload, job.priority, job.maxAttempts, job.createdAt)

/-- What an attempt keeps for good. -/
def ProcessingAttemptEntity.identity (attempt : ProcessingAttemptEntity) :
    Uuid × ℕ × Date × Date :=
  (attempt.jobId, attempt.attemptNumber, attempt.startedAt, attempt.createdAt)

/-- What an alert keeps for good. -/
def AlertEntity.identity (alert : AlertEntity) :
    Option Uuid × String × AlertSeverity × String × String × Date :=
  (alert.jobId, alert.source, alert.severity, alert.title, alert.description, alert.createdAt)

/-- The link to an alert is not among them : the save of an alert can set it. -/
def IncidentEntity.identity (incident : IncidentEntity) : String × String × Date :=
  (incident.title, incident.summary, incident.createdAt)

/-- The rows of `t'` contain those of `t`, with the same identity. -/
abbrev Keeping {α β K : Type} {key : α → K} (identity : α → β) (t t' : Table key) : Prop :=
  Table.Advances (fun a b => identity b = identity a) t t'

/-! ## The constraints of the schema -/

/-- What the constraints of the schema say of the rows. -/
structure World.Consistent (w : World) : Prop where
  jobs : ∀ job ∈ w.jobs.rows, fits job.name 80 ∧ fits job.type 40
  attempts : ∀ a ∈ w.attempts.rows, (w.jobs.lookup a.jobId).isSome
  numbers : ∀ a ∈ w.attempts.rows, ∀ b ∈ w.attempts.rows,
    (a.jobId, a.attemptNumber) = (b.jobId, b.attemptNumber) → a = b
  alerts : ∀ a ∈ w.alerts.rows, (∀ id, a.jobId = some id → (w.jobs.lookup id).isSome) ∧
    (fits a.source 30 ∧ fits a.title 120) ∧ operatorsFit a.acknowledgedBy a.resolvedBy
  incidents : ∀ i ∈ w.incidents.rows, (∀ id, i.alertId = some id → (w.alerts.lookup id).isSome) ∧
    fits i.title 140 ∧ operatorsFit i.acknowledgedBy i.resolvedBy
  links : ∀ i ∈ w.incidents.rows, ∀ j ∈ w.incidents.rows,
    i.alertId.isSome → i.alertId = j.alertId → i = j
  auditEntries : ∀ a ∈ w.auditEntries.rows, fits (a.actorId.getD "") 80 ∧ fits a.action 100
  operatorActions : ∀ a ∈ w.operatorActions.rows, fits a.operatorId 80 ∧ fits a.action 80

namespace World.Consistent

variable {w : World}

theorem withJobs (h : w.Consistent) {t : Table JobEntity.id}
    (ht : Keeping JobEntity.identity w.jobs t)
    (hrows : ∀ job ∈ t.rows, fits job.name 80 ∧ fits job.type 40) :
    World.Consistent { w with jobs := t } :=
  { h with
    jobs := hrows
    attempts := fun a ha => ht.isSome_lookup (h.attempts a ha)
    alerts := fun a ha => ⟨fun id hid => ht.isSome_lookup ((h.alerts a ha).1 id hid),
      (h.alerts a ha).2⟩ }

theorem withAttempts (h : w.Consistent) {t : Table ProcessingAttemptEntity.id}
    (hrows : ∀ a ∈ t.rows, (w.jobs.lookup a.jobId).isSome)
    (hnumbers : ∀ a ∈ t.rows, ∀ b ∈ t.rows,
      (a.jobId, a.attemptNumber) = (b.jobId, b.attemptNumber) → a = b) :
    World.Consistent { w with attempts := t } :=
  { h with attempts := hrows, numbers := hnumbers }

theorem withAlerts (h : w.Consistent) {t : Table AlertEntity.id}
    (ht : Keeping AlertEntity.identity w.alerts t)
    (hrows : ∀ a ∈ t.rows, (∀ id, a.jobId = some id → (w.jobs.lookup id).isSome) ∧
      (fits a.source 30 ∧ fits a.title 120) ∧ operatorsFit a.acknowledgedBy a.resolvedBy) :
    World.Consistent { w with alerts := t } :=
  { h with
    alerts := hrows
    incidents := fun i hi => ⟨fun id hid => ht.isSome_lookup ((h.incidents i hi).1 id hid),
      (h.incidents i hi).2⟩ }

theorem withIncidents (h : w.Consistent) {t : Table IncidentEntity.id}
    (hrows : ∀ i ∈ t.rows, (∀ id, i.alertId = some id → (w.alerts.lookup id).isSome) ∧
      fits i.title 140 ∧ operatorsFit i.acknowledgedBy i.resolvedBy)
    (hlinks : ∀ i ∈ t.rows, ∀ j ∈ t.rows, i.alertId.isSome → i.alertId = j.alertId → i = j) :
    World.Consistent { w with incidents := t } :=
  { h with incidents := hrows, links := hlinks }

end World.Consistent

/-! ## The order -/

/-- What no program undoes. -/
structure World.Preserves (w w' : World) : Prop where
  jobs : Keeping JobEntity.identity w.jobs w'.jobs
  attempts : Keeping ProcessingAttemptEntity.identity w.attempts w'.attempts
  alerts : Keeping AlertEntity.identity w.alerts w'.alerts
  incidents : Keeping IncidentEntity.identity w.incidents w'.incidents
  notifications : w.notifications.rows <+: w'.notifications.rows
  operatorActions : w.operatorActions.rows <+: w'.operatorActions.rows
  auditEntries : w.auditEntries.rows <+: w'.auditEntries.rows
  events : w.events <+: w'.events
  consistent : w.Consistent → w'.Consistent

theorem Keeping.refl {α β K : Type} {key : α → K} (identity : α → β) (t : Table key) :
    Keeping identity t t :=
  .of_eq (fun _ => rfl) rfl

namespace World.Preserves

variable {w w' w'' : World}

/-- The same rows and events. -/
theorem of_same (hjobs : w'.jobs = w.jobs) (hattempts : w'.attempts = w.attempts)
    (halerts : w'.alerts = w.alerts) (hincidents : w'.incidents = w.incidents)
    (hnotifications : w'.notifications = w.notifications)
    (hactions : w'.operatorActions = w.operatorActions)
    (hentries : w'.auditEntries = w.auditEntries) (hevents : w.events <+: w'.events) :
    w.Preserves w' where
  jobs := .of_eq (fun _ => rfl) hjobs
  attempts := .of_eq (fun _ => rfl) hattempts
  alerts := .of_eq (fun _ => rfl) halerts
  incidents := .of_eq (fun _ => rfl) hincidents
  notifications := hnotifications ▸ List.prefix_refl _
  operatorActions := hactions ▸ List.prefix_refl _
  auditEntries := hentries ▸ List.prefix_refl _
  events := hevents
  consistent h := by
    constructor <;> simp only [hjobs, hattempts, halerts, hincidents, hactions, hentries]
    exacts [h.jobs, h.attempts, h.numbers, h.alerts, h.incidents, h.links, h.auditEntries,
      h.operatorActions]

theorem refl (w : World) : w.Preserves w :=
  of_same rfl rfl rfl rfl rfl rfl rfl (List.prefix_refl _)

theorem trans (h : w.Preserves w') (h' : w'.Preserves w'') : w.Preserves w'' where
  jobs := h.jobs.trans (fun h h' => h'.trans h) h'.jobs
  attempts := h.attempts.trans (fun h h' => h'.trans h) h'.attempts
  alerts := h.alerts.trans (fun h h' => h'.trans h) h'.alerts
  incidents := h.incidents.trans (fun h h' => h'.trans h) h'.incidents
  notifications := h.notifications.trans h'.notifications
  operatorActions := h.operatorActions.trans h'.operatorActions
  auditEntries := h.auditEntries.trans h'.auditEntries
  events := h.events.trans h'.events
  consistent := h'.consistent ∘ h.consistent

end World.Preserves

/-! ## The discipline -/

/-- Only entities that agree with a stored row are saved, and nobody has acknowledged or resolved a
new alert or incident. -/
def World.Permits (w : World) : Op → Prop
  | .saveJob job => w.jobs.Matches JobEntity.identity job
  | .saveAttempt attempt => w.attempts.Matches ProcessingAttemptEntity.identity attempt
  | .saveAlert alert _ => w.alerts.Matches AlertEntity.identity alert
  | .saveIncident incident => w.incidents.Matches IncidentEntity.identity incident
  | .insertAlert c => c.acknowledgedBy = none ∧ c.resolvedBy = none
  | .insertIncident c => c.acknowledgedBy = none ∧ c.resolvedBy = none
  | _ => True

section Writes

variable {w : World}

theorem preserves_jobs {t : Table JobEntity.id} (ht : Keeping JobEntity.identity w.jobs t)
    (hrows : w.Consistent → ∀ job ∈ t.rows, fits job.name 80 ∧ fits job.type 40) :
    w.Preserves { w with jobs := t } :=
  { World.Preserves.refl w with
    jobs := ht
    consistent := fun h => h.withJobs ht (hrows h) }

theorem preserves_insertJob {t : Table JobEntity.id} {job : JobEntity}
    (ht : w.jobs.insert job = some t) (hfits : fits job.name 80 ∧ fits job.type 40) :
    w.Preserves { w with jobs := t } :=
  preserves_jobs (.insert (fun _ => rfl) ht) fun h row hrow => by
    rcases (Table.mem_insert ht).mp hrow with hrow | rfl
    · exact h.jobs row hrow
    · exact hfits

theorem preserves_saveJob {job : JobEntity} (hjob : w.jobs.Matches JobEntity.identity job) :
    w.Preserves { w with jobs := w.jobs.save job } :=
  preserves_jobs hjob.save fun h row hrow => by
    obtain ⟨before, hbefore, -, hidentity⟩ := hjob.exists_of_mem_save hrow
    obtain ⟨hname, htype, -⟩ := by
      simpa only [JobEntity.identity, Prod.mk.injEq] using hidentity
    exact hname ▸ htype ▸ h.jobs before hbefore

theorem preserves_insertAttempt {t : Table ProcessingAttemptEntity.id}
    {attempt : ProcessingAttemptEntity} (ht : w.attempts.insert attempt = some t)
    (hjob : (w.jobs.lookup attempt.jobId).isSome)
    (hfree : ∀ a ∈ w.attempts.rows, a.jobId = attempt.jobId →
      a.attemptNumber ≠ attempt.attemptNumber) : w.Preserves { w with attempts := t } :=
  { World.Preserves.refl w with
    attempts := .insert (fun _ => rfl) ht
    consistent := fun h => by
      refine h.withAttempts (fun a ha => ?_) fun a ha b hb hab => ?_
      · rcases (Table.mem_insert ht).mp ha with ha | rfl
        · exact h.attempts a ha
        · exact hjob
      · obtain ⟨hjobId, hnumber⟩ := Prod.mk.inj hab
        rcases (Table.mem_insert ht).mp ha with ha | rfl <;>
          rcases (Table.mem_insert ht).mp hb with hb | rfl
        · exact h.numbers a ha b hb hab
        · exact absurd hnumber (hfree a ha hjobId)
        · exact absurd hnumber.symm (hfree b hb hjobId.symm)
        · rfl }

theorem preserves_saveAttempt {attempt : ProcessingAttemptEntity}
    (hattempt : w.attempts.Matches ProcessingAttemptEntity.identity attempt) :
    w.Preserves { w with attempts := w.attempts.save attempt } :=
  { World.Preserves.refl w with
    attempts := hattempt.save
    consistent := fun h => by
      have hbefore : ∀ a ∈ (w.attempts.save attempt).rows, ∃ c ∈ w.attempts.rows, c.id = a.id ∧
          (c.jobId, c.attemptNumber) = (a.jobId, a.attemptNumber) := by
        intro a ha
        obtain ⟨c, hc, hid, hidentity⟩ := hattempt.exists_of_mem_save ha
        obtain ⟨hjobId, hnumber, -⟩ := by
          simpa only [ProcessingAttemptEntity.identity, Prod.mk.injEq] using hidentity
        exact ⟨c, hc, hid, Prod.ext hjobId hnumber⟩
      refine h.withAttempts (fun a ha => ?_) fun a ha b hb hab => ?_
      · obtain ⟨c, hc, -, hca⟩ := hbefore a ha
        exact (Prod.mk.inj hca).1 ▸ h.attempts c hc
      · obtain ⟨c, hc, hcid, hca⟩ := hbefore a ha
        obtain ⟨c', hc', hcid', hcb⟩ := hbefore b hb
        have hcc := h.numbers c hc c' hc' (hca.trans (hab.trans hcb.symm))
        exact Table.key_injOn _ ha hb (hcid.symm.trans ((congrArg _ hcc).trans hcid')) }

theorem preserves_alerts {t : Table AlertEntity.id}
    (ht : Keeping AlertEntity.identity w.alerts t)
    (hrows : w.Consistent → ∀ a ∈ t.rows,
      (∀ id, a.jobId = some id → (w.jobs.lookup id).isSome) ∧
        (fits a.source 30 ∧ fits a.title 120) ∧ operatorsFit a.acknowledgedBy a.resolvedBy) :
    w.Preserves { w with alerts := t } :=
  { World.Preserves.refl w with
    alerts := ht
    consistent := fun h => h.withAlerts ht (hrows h) }

theorem preserves_insertAlert {t : Table AlertEntity.id} {alert : AlertEntity}
    (ht : w.alerts.insert alert = some t)
    (hjob : ∀ id, alert.jobId = some id → (w.jobs.lookup id).isSome)
    (hfits : fits alert.source 30 ∧ fits alert.title 120)
    (hoperators : operatorsFit alert.acknowledgedBy alert.resolvedBy) :
    w.Preserves { w with alerts := t } :=
  preserves_alerts (.insert (fun _ => rfl) ht) fun h a ha => by
    rcases (Table.mem_insert ht).mp ha with ha | rfl
    · exact h.alerts a ha
    · exact ⟨hjob, hfits, hoperators⟩

theorem preserves_saveAlert {alert : AlertEntity}
    (halert : w.alerts.Matches AlertEntity.identity alert)
    (hoperators : w.Consistent → operatorsFit alert.acknowledgedBy alert.resolvedBy) :
    w.Preserves { w with alerts := w.alerts.save alert } :=
  preserves_alerts halert.save fun h a ha => by
    rcases Table.mem_save.mp ha with rfl | ⟨ha, -⟩
    · obtain ⟨before, hbefore, hidentity⟩ := halert
      obtain ⟨hjob, hsource, -, htitle, -⟩ := by
        simpa only [AlertEntity.identity, Prod.mk.injEq] using hidentity
      obtain ⟨hjobs, hfits, -⟩ := h.alerts before (Table.lookup_eq_some.mp hbefore).1
      rw [hjob, hsource, htitle] at *
      exact ⟨hjobs, hfits, hoperators h⟩
    · exact h.alerts a ha

theorem preserves_insertIncident {t : Table IncidentEntity.id} {incident : IncidentEntity}
    (ht : w.incidents.insert incident = some t)
    (halert : ∀ id, incident.alertId = some id →
      (w.alerts.lookup id).isSome ∧ ∀ i ∈ w.incidents.rows, i.alertId ≠ some id)
    (hfits : fits incident.title 140)
    (hoperators : operatorsFit incident.acknowledgedBy incident.resolvedBy) :
    w.Preserves { w with incidents := t } :=
  { World.Preserves.refl w with
    incidents := .insert (fun _ => rfl) ht
    consistent := fun h => by
      refine h.withIncidents (fun i hi => ?_) fun i hi j hj hsome hij => ?_
      · rcases (Table.mem_insert ht).mp hi with hi | rfl
        · exact h.incidents i hi
        · exact ⟨fun id hid => (halert id hid).1, hfits, hoperators⟩
      · obtain ⟨id, hid⟩ := Option.isSome_iff_exists.mp hsome
        rcases (Table.mem_insert ht).mp hi with hi | rfl <;>
          rcases (Table.mem_insert ht).mp hj with hj | rfl
        · exact h.links i hi j hj hsome hij
        · exact absurd hid ((halert id (hij.symm.trans hid)).2 i hi)
        · exact absurd (hij.symm.trans hid) ((halert id hid).2 j hj)
        · rfl }

/-- The foreign key and the one incident of an alert are checked for a link that is written
anew. -/
theorem preserves_saveIncident {incident : IncidentEntity}
    (hincident : w.incidents.Matches IncidentEntity.identity incident)
    (hlink : ∀ stored ∈ w.incidents.lookup incident.id,
      stored.alertId = incident.alertId ∨ w.Linkable incident.alertId)
    (hoperators : w.Consistent → operatorsFit incident.acknowledgedBy incident.resolvedBy) :
    w.Preserves { w with incidents := w.incidents.save incident } :=
  { World.Preserves.refl w with
    incidents := hincident.save
    consistent := fun h => by
      obtain ⟨before, hbefore, hidentity⟩ := hincident
      obtain ⟨hmem, hid⟩ := Table.lookup_eq_some.mp hbefore
      obtain ⟨halerts, hfits, -⟩ := h.incidents before hmem
      have htitle : before.title = incident.title := (Prod.mk.inj hidentity).1
      have hfree : incident.alertId.isSome → ∀ i ∈ w.incidents.rows, i.id ≠ incident.id →
          i.alertId ≠ incident.alertId := by
        intro hsome i hi hne heq
        rcases hlink before hbefore with hsame | hlinkable
        · exact hne (h.links i hi before hmem (heq ▸ hsome) (heq.trans hsame.symm) ▸ hid)
        · obtain ⟨id, hid⟩ := Option.isSome_iff_exists.mp hsome
          exact (hlinkable id hid).2 i hi (heq.trans hid)
      refine h.withIncidents (fun i hi => ?_) fun i hi j hj hsome hij => ?_
      · rcases Table.mem_save.mp hi with rfl | ⟨hi, -⟩
        · refine ⟨fun id hid => ?_, htitle ▸ hfits, hoperators h⟩
          rcases hlink before hbefore with hsame | hlinkable
          · exact halerts id (hsame.trans hid)
          · exact (hlinkable id hid).1
        · exact h.incidents i hi
      · rcases Table.mem_save.mp hi with rfl | ⟨hi', hine⟩ <;>
          rcases Table.mem_save.mp hj with rfl | ⟨hj', hjne⟩
        · rfl
        · exact absurd hij.symm (hfree hsome j hj' hjne)
        · exact absurd hij (hfree (hij ▸ hsome) i hi' hine)
        · exact h.links i hi' j hj' hsome hij }

/-- The incident whose link is set with an alert stays as it is otherwise. -/
theorem preserves_related {now : Date} {alertId : Uuid} {incident : Option IncidentEntity}
    {incidents : Table IncidentEntity.id} (h : w.Related now alertId incident incidents) :
    w.Preserves { w with incidents } := by
  have hset : ∀ (row : IncidentEntity) (link : Option Uuid), w.incidents.lookup row.id = some row →
      w.Linkable link → w.Preserves { w with
        incidents := w.incidents.save { row with alertId := link, updatedAt := now } } :=
    fun row link hrow hlink => preserves_saveIncident ⟨row, hrow, rfl⟩ (fun _ _ => .inr hlink)
      fun h => (h.incidents row (Table.lookup_eq_some.mp hrow).1).2.2
  cases h with
  | kept => exact .refl w
  | unlinked _ hrow _ =>
    refine hset _ none (Table.lookup_of_mem hrow) ?_
    rintro _ ⟨⟩
  | linked _ hrow hfree =>
    obtain ⟨hmem, -⟩ := Table.lookup_eq_some.mp hrow
    exact hset _ _ (Table.lookup_of_mem hmem) hfree

theorem preserves_append {entries : Table AuditEntryEntity.id} {entry : AuditEntryEntity}
    (ht : w.auditEntries.insert entry = some entries)
    (hfits : fits (entry.actorId.getD "") 80 ∧ fits entry.action 100) :
    w.Preserves { w with auditEntries := entries } :=
  { World.Preserves.refl w with
    auditEntries := ⟨[entry], (Table.insert_eq_some ht).1.symm⟩
    consistent := fun h => { h with
      auditEntries := fun a ha => by
        rcases (Table.mem_insert ht).mp ha with ha | rfl
        · exact h.auditEntries a ha
        · exact hfits } }

theorem preserves_act {actions : Table OperatorActionEntity.id} {action : OperatorActionEntity}
    (ht : w.operatorActions.insert action = some actions)
    (hfits : fits action.operatorId 80 ∧ fits action.action 80) :
    w.Preserves { w with operatorActions := actions } :=
  { World.Preserves.refl w with
    operatorActions := ⟨[action], (Table.insert_eq_some ht).1.symm⟩
    consistent := fun h => { h with
      operatorActions := fun a ha => by
        rcases (Table.mem_insert ht).mp ha with ha | rfl
        · exact h.operatorActions a ha
        · exact hfits } }

/-- A call that is permitted undoes nothing. -/
theorem preserves_perform {e : Env} {op : Op} {reply : op.Reply} {w' : World}
    (hop : w.Permits op) (h : perform e w op = some (reply, w')) : w.Preserves w' := by
  cases op with
  | insertJob c =>
    obtain ⟨hfits, t, ht, -, rfl⟩ := perform_insertJob h
    exact preserves_insertJob ht hfits
  | saveJob job =>
    obtain ⟨t, rfl, rfl⟩ := perform_saveJob h
    have hjob : w.jobs.Matches JobEntity.identity { job with updatedAt := t } := hop
    exact preserves_saveJob hjob
  | insertAttempt c =>
    obtain ⟨⟨hjob, hfree⟩, t, ht, -, rfl⟩ := perform_insertAttempt h
    exact preserves_insertAttempt ht hjob hfree
  | saveAttempt attempt =>
    cases h
    exact preserves_saveAttempt hop
  | insertAlert c =>
    obtain ⟨⟨hjob, hfits⟩, t, ht, -, rfl⟩ := perform_insertAlert h
    refine preserves_insertAlert ht hjob hfits ?_
    rw [hop.1, hop.2]
    exact ⟨by decide, by decide⟩
  | saveAlert alert incident =>
    obtain ⟨hoperators, rfl, incidents, hrelate, rfl⟩ := perform_saveAlert h
    refine (preserves_related (World.related hrelate)).trans ?_
    obtain ⟨before, hbefore, hidentity⟩ := hop
    exact preserves_saveAlert (w := { w with incidents }) ⟨before, hbefore, hidentity⟩ fun _ =>
      hoperators
  | updateAlert id changes =>
    obtain ⟨rfl, -⟩ | ⟨alert, halert, hoperators, rfl⟩ := perform_updateAlert h
    · exact .refl w'
    obtain ⟨hstored, rfl⟩ := Table.lookup_eq_some.mp halert
    have hmatches : w.alerts.Matches AlertEntity.identity (changes.apply e.now alert) :=
      ⟨alert, halert, rfl⟩
    refine preserves_saveAlert hmatches ?_
    intro hconsistent
    obtain ⟨-, -, hacknowledged, hresolved⟩ := hconsistent.alerts alert hstored
    -- A column that is not set stays as it is.
    constructor
    · cases hby : changes.acknowledgedBy with
      | none => simpa [AlertUpdate.apply, hby] using hacknowledged
      | some operatorId => simpa [AlertUpdate.apply, hby] using hoperators.1
    · cases hby : changes.resolvedBy with
      | none => simpa [AlertUpdate.apply, hby] using hresolved
      | some operatorId => simpa [AlertUpdate.apply, hby] using hoperators.2
  | insertIncident c =>
    obtain ⟨⟨halert, hfits⟩, t, ht, -, rfl⟩ := perform_insertIncident h
    refine preserves_insertIncident ht halert hfits ?_
    rw [hop.1, hop.2]
    exact ⟨by decide, by decide⟩
  | saveIncident incident =>
    obtain ⟨hoperators, hlink, rfl, rfl⟩ := perform_saveIncident h
    obtain ⟨before, hbefore, hidentity⟩ := hop
    exact preserves_saveIncident ⟨before, hbefore, hidentity⟩ hlink fun _ => hoperators
  | insertNotification c =>
    obtain ⟨t, ht, -, rfl⟩ := perform_insertNotification h
    exact { World.Preserves.refl w with
      notifications := ⟨[_], (Table.insert_eq_some ht).1.symm⟩
      consistent := fun h => { h with } }
  | insertAuditEntry c =>
    obtain ⟨hfits, t, ht, -, rfl⟩ := perform_insertAuditEntry h
    exact preserves_append ht hfits
  | insertOperatorAction c =>
    obtain ⟨hfits, t, ht, -, rfl⟩ := perform_insertOperatorAction h
    exact preserves_act ht hfits
  | setNX key ttlSeconds =>
    simp only [perform] at h
    split at h <;> cases h <;> exact .of_same rfl rfl rfl rfl rfl rfl rfl (List.prefix_refl _)
  | publish topic payload =>
    cases h
    exact .of_same rfl rfl rfl rfl rfl rfl rfl (List.prefix_append _ _)
  | findJob | findAttempts | findAlert | findIncident | del | sendToQueue | ack | nack | sleep
  | now =>
    cases h
    exact .of_same rfl rfl rfl rfl rfl rfl rfl (List.prefix_refl _)

end Writes

/-- What all commands and executions keep to. -/
def discipline : Discipline handle where
  le := World.Preserves
  refl := .refl
  trans := .trans
  allows := World.Permits
  up e op w hop := by
    have hclock : w.Preserves { w with clock := e.now } :=
      .of_same rfl rfl rfl rfl rfl rfl rfl (List.prefix_refl _)
    rcases handle_world e op w with hw | ⟨reply, hp⟩
    · rw [hw]
      exact hclock
    · exact hclock.trans (preserves_perform (w := { w with clock := e.now }) hop hp)

/-! ## What a reply tells -/

/-- What is put behind a longer list is behind the shorter one. -/
theorem mem_drop_concat {α : Type} {l l' l'' : List α} {a : α} (h : l <+: l')
    (h' : l'' = l' ++ [a]) : a ∈ l''.drop l.length := by
  rw [h', List.drop_append_of_le_length h.length_le]
  exact List.mem_append_right _ (List.mem_singleton_self a)

/-- What stands for good once a call has resolved; what it has added is new since `w₀`. -/
def Op.leaves (w₀ : World) : (op : Op) → op.Reply → World → Prop
  | .findJob id, found, w => ∀ job ∈ found, job.id = id ∧ w.jobs.Matches JobEntity.identity job
  | .insertJob c, job, w => job.toJobColumns = c.stored ∧ w.jobs.Matches JobEntity.identity job
  | .saveJob job, row, w => (row.id, row.identity) = (job.id, job.identity) ∧
      w.jobs.Matches JobEntity.identity row
  | .insertAttempt _, a, w => w.attempts.Matches ProcessingAttemptEntity.identity a
  | .saveAttempt _, a, w => w.attempts.Matches ProcessingAttemptEntity.identity a
  | .insertAlert c, alert, w => alert.toAlertColumns = c ∧
      w.alerts.Matches AlertEntity.identity alert
  | .findAlert id, found, w => ∀ loaded ∈ found, loaded.1.id = id ∧
      w.alerts.Matches AlertEntity.identity loaded.1
  | .saveAlert alert _, row, w => row.id = alert.id ∧ w.alerts.Matches AlertEntity.identity row
  | .insertIncident c, incident, w => incident.toIncidentColumns = c ∧
      w.incidents.Matches IncidentEntity.identity incident
  | .findIncident id, found, w => ∀ incident ∈ found, incident.id = id ∧
      w.incidents.Matches IncidentEntity.identity incident
  | .saveIncident incident, row, w => row.id = incident.id ∧
      w.incidents.Matches IncidentEntity.identity row
  | .insertAuditEntry c, _, w => ∃ row ∈ w.auditEntries.rows.drop w₀.auditEntries.rows.length,
      row.toCreateAuditEntryInput = c
  | .insertOperatorAction c, _, w =>
    ∃ row ∈ w.operatorActions.rows.drop w₀.operatorActions.rows.length,
      row.toOperatorActionColumns = c
  | .publish topic payload, _, w => ∃ x ∈ w.events.drop w₀.events.length,
      x.topic = topic ∧ x.payload = payload
  | _, _, _ => True

theorem Op.leaves.up {w₀ : World} {op : Op} {reply : op.Reply} {w w' : World}
    (h : op.leaves w₀ reply w) (hw : w.Preserves w') : op.leaves w₀ reply w' := by
  cases op with
  | findJob => exact fun job hjob => ⟨(h job hjob).1, (h job hjob).2.advances hw.jobs⟩
  | insertJob | saveJob => exact ⟨h.1, h.2.advances hw.jobs⟩
  | insertAttempt | saveAttempt => exact Table.Matches.advances h hw.attempts
  | findAlert => exact fun a ha => ⟨(h a ha).1, (h a ha).2.advances hw.alerts⟩
  | insertAlert | saveAlert => exact ⟨h.1, h.2.advances hw.alerts⟩
  | findIncident => exact fun i hi => ⟨(h i hi).1, (h i hi).2.advances hw.incidents⟩
  | insertIncident | saveIncident => exact ⟨h.1, h.2.advances hw.incidents⟩
  | insertAuditEntry =>
    exact h.imp fun row hrow => ⟨(hw.auditEntries.drop _).subset hrow.1, hrow.2⟩
  | insertOperatorAction =>
    exact h.imp fun row hrow => ⟨(hw.operatorActions.drop _).subset hrow.1, hrow.2⟩
  | publish => exact h.imp fun x hx => ⟨(hw.events.drop _).subset hx.1, hx.2⟩
  | _ => trivial

theorem leaves_of_handle {w₀ : World} {e : Env} {op : Op} {w w' : World} {reply : op.Reply}
    (hw : w₀.Preserves w) (h : handle e op w = (.ok reply, w')) : op.leaves w₀ reply w' := by
  have hp := (handle_eq_ok h).1
  cases op with
  | findJob id =>
    cases hp
    exact fun job hjob => ⟨(Table.lookup_eq_some.mp hjob).2, .of_lookup hjob⟩
  | insertJob c =>
    obtain ⟨-, t, ht, rfl, rfl⟩ := perform_insertJob hp
    exact ⟨rfl, .of_insert ht⟩
  | saveJob job =>
    obtain ⟨t, rfl, rfl⟩ := perform_saveJob hp
    exact ⟨rfl, .of_save⟩
  | insertAttempt c =>
    obtain ⟨-, t, ht, rfl, rfl⟩ := perform_insertAttempt hp
    exact .of_insert ht
  | saveAttempt attempt =>
    cases hp
    exact .of_save
  | findAlert id =>
    cases hp
    intro loaded hloaded
    obtain ⟨alert, halert, rfl⟩ := Option.map_eq_some_iff.mp hloaded
    exact ⟨(Table.lookup_eq_some.mp halert).2, .of_lookup halert⟩
  | insertAlert c =>
    obtain ⟨-, t, ht, rfl, rfl⟩ := perform_insertAlert hp
    exact ⟨rfl, .of_insert ht⟩
  | saveAlert alert incident =>
    obtain ⟨-, rfl, incidents, -, rfl⟩ := perform_saveAlert hp
    exact ⟨rfl, .of_save⟩
  | findIncident id =>
    cases hp
    exact fun incident hincident => ⟨(Table.lookup_eq_some.mp hincident).2, .of_lookup hincident⟩
  | insertIncident c =>
    obtain ⟨-, t, ht, rfl, rfl⟩ := perform_insertIncident hp
    exact ⟨rfl, .of_insert ht⟩
  | saveIncident incident =>
    obtain ⟨-, -, rfl, rfl⟩ := perform_saveIncident hp
    exact ⟨rfl, .of_save⟩
  | insertAuditEntry c =>
    obtain ⟨-, t, ht, rfl, rfl⟩ := perform_insertAuditEntry hp
    exact ⟨_, mem_drop_concat hw.auditEntries (Table.insert_eq_some ht).1, rfl⟩
  | insertOperatorAction c =>
    obtain ⟨-, t, ht, rfl, rfl⟩ := perform_insertOperatorAction hp
    exact ⟨_, mem_drop_concat hw.operatorActions (Table.insert_eq_some ht).1, rfl⟩
  | publish topic payload =>
    cases hp
    exact ⟨_, mem_drop_concat hw.events rfl, rfl, rfl⟩
  | _ => trivial

/-! ## What a command leaves -/

/-- What an operator has done, to which row, and the event that tells of it. -/
structure Deed where
  operatorId : String
  /-- The operator action, if one is recorded. -/
  action : Option String
  entry : String
  type : EntityType
  id : Uuid
  topic : String
  /-- The field of the event that holds the id. -/
  key : String

/-- Since `w₀` the deed was added to the operator actions, to the audit trail and to the events. -/
structure World.Recorded (w₀ w : World) (deed : Deed) : Prop where
  action : ∀ action ∈ deed.action, ∃ payload,
    ∃ row ∈ w.operatorActions.rows.drop w₀.operatorActions.rows.length,
      row.toOperatorActionColumns = ⟨deed.operatorId, action, deed.type, some deed.id, payload⟩
  entry : ∃ metadata, ∃ row ∈ w.auditEntries.rows.drop w₀.auditEntries.rows.length,
    row.toCreateAuditEntryInput =
      ⟨.OPERATOR, some deed.operatorId, deed.entry, deed.type, some deed.id, metadata⟩
  event : ∃ payload, (deed.key, .uuid deed.id) ∈ payload ∧
    ∃ x ∈ w.events.drop w₀.events.length, x.topic = deed.topic ∧ x.payload = payload

/-- What a command that was answered has done. -/
def Command.deed : Command → Response → Option Deed
  | .job (.create input), .job (.job created) =>
    some ⟨input.operatorId, some "job.create", "job.created", .JOB, created.id, "job.created",
      "jobId"⟩
  | .job (.retry jobId operatorId), .job (.job _) =>
    some ⟨operatorId, some "job.retry", "job.retried", .JOB, jobId, "job.created", "jobId"⟩
  | .createAlert input, .raised alert _ =>
    some ⟨input.operatorId, some "alert.create", "alert.created", .ALERT, alert.id,
      "alert.raised", "alertId"⟩
  | .acknowledgeAlert alertId operatorId, .alert _ _ =>
    some ⟨operatorId, none, "alert.acknowledged", .ALERT, alertId, "alert.acknowledged", "alertId"⟩
  | .acknowledge incidentId operatorId, .incident _ =>
    some ⟨operatorId, some "incident.acknowledge", "incident.acknowledged", .INCIDENT, incidentId,
      "incident.updated", "incidentId"⟩
  | .resolve incidentId operatorId, .incident _ =>
    some ⟨operatorId, some "incident.resolve", "incident.resolved", .INCIDENT, incidentId,
      "incident.updated", "incidentId"⟩
  | _, _ => none

/-- The answer is about the row the command names, and the row is stored as it was made. -/
def World.Stores (w : World) : Command → Response → Prop
  | .job (.create input), .job (.job job) =>
    job.toJobColumns = (JobService.newJob input).stored ∧ w.jobs.Matches JobEntity.identity job
  | .job (.retry jobId _), .job (.job job) =>
    job.id = jobId ∧ w.jobs.Matches JobEntity.identity job
  | .job (.getStatus jobId), .job (.report report) =>
    report.jobId = jobId ∧ (w.jobs.lookup jobId).isSome
  | .createAlert input, .raised alert incident =>
    alert.toAlertColumns = AlertService.newAlert input ∧
      w.alerts.Matches AlertEntity.identity alert ∧
      (incident.isSome ↔ input.opensIncident) ∧
      ∀ i ∈ incident, i.toIncidentColumns = AlertService.newIncident alert ∧
        w.incidents.Matches IncidentEntity.identity i
  | .acknowledgeAlert alertId _, .alert alert _ =>
    alert.id = alertId ∧ w.alerts.Matches AlertEntity.identity alert
  | .acknowledge incidentId _, .incident incident
  | .resolve incidentId _, .incident incident =>
    incident.id = incidentId ∧ w.incidents.Matches IncidentEntity.identity incident
  | .job (.process _), .job .done
  | .job (.consume _), .job .done => True
  | _, _ => False

/-- What stands once a command was answered that began after `w₀`. -/
def Command.Kept (c : Command) (w₀ : World) (response : Response) (w : World) : Prop :=
  w.Stores c response ∧ ∀ deed ∈ c.deed response, w₀.Recorded w deed

/-- The world has not gone back behind `w₀`, and `K` holds. -/
abbrev Since (w₀ : World) (K : World → Prop) (w : World) : Prop :=
  w₀.Preserves w ∧ K w

section Programs

variable {w₀ : World} {K : World → Prop} {α : Type} {Q : α → World → Prop}

/-- A permitted call; its reply tells more. -/
theorem delivers_await {op : Op} {f : op.Reply → Promise α} (hop : ∀ w, K w → w.Permits op)
    (hf : ∀ reply,
      (f reply).Delivers discipline (Since w₀ fun w => K w ∧ op.leaves w₀ reply w) Q) :
    ((await op).bind f).Delivers discipline (Since w₀ K) Q :=
  .await_bind (fun w hw => hop w hw.2)
    (fun _ _ _ _ hw h _ hup => (leaves_of_handle hw.1 h).up hup) fun reply =>
      (hf reply).mono (fun _ h => ⟨h.1.1, h.1.2, h.2⟩) fun _ _ h => h

/-- A permitted call whose reply is not needed. -/
theorem delivers_step {op : Op} {f : op.Reply → Promise α} (hop : ∀ w, K w → w.Permits op)
    (hf : ∀ reply, (f reply).Delivers discipline (Since w₀ K) Q) :
    ((await op).bind f).Delivers discipline (Since w₀ K) Q :=
  delivers_await hop fun reply => (hf reply).mono (fun _ h => ⟨h.1, h.2.1⟩) fun _ _ h => h

theorem delivers_create (input : CreateJobInput) :
    (JobService.create input).Delivers discipline (Since w₀ K) fun job =>
      Command.Kept (.job (.create input)) w₀ (.job (.job job)) := by
  unfold JobService.create
  refine delivers_await (fun _ _ => trivial) fun job => ?_
  refine delivers_await (fun _ _ => trivial) fun action => ?_
  refine delivers_await (fun _ _ => trivial) fun entry => ?_
  refine delivers_step (fun _ _ => trivial) fun notification => ?_
  refine delivers_step (fun _ _ => trivial) fun _ => ?_
  refine delivers_await (fun _ _ => trivial) fun _ => ?_
  refine delivers_step (fun _ _ => trivial) fun _ => .ret ?_
  rintro w ⟨-, ⟨⟨⟨-, hjob⟩, haction⟩, hentry⟩, hevent⟩
  refine ⟨hjob, ?_⟩
  rintro _ ⟨⟩
  refine ⟨?_, ⟨_, hentry⟩, _, List.mem_cons_self, hevent⟩
  rintro _ ⟨⟩
  exact ⟨_, haction⟩

theorem delivers_retry (jobId : Uuid) (operatorId : String) :
    (JobService.retry jobId operatorId).Delivers discipline (Since w₀ K) fun job =>
      Command.Kept (.job (.retry jobId operatorId)) w₀ (.job (.job job)) := by
  unfold JobService.retry
  rw [Prog.bind_eq, JobService.getById_bind]
  refine delivers_await (fun _ _ => trivial) fun found => ?_
  cases found with
  | none => exact .throw
  | some job =>
    dsimp only
    split_ifs
    · exact .throw
    · exact .throw
    refine delivers_await (fun w hw => (hw.2 job rfl).2) fun updated => ?_
    refine delivers_await (fun _ _ => trivial) fun action => ?_
    refine delivers_await (fun _ _ => trivial) fun entry => ?_
    refine delivers_step (fun _ _ => trivial) fun notification => ?_
    refine delivers_step (fun _ _ => trivial) fun _ => ?_
    refine delivers_await (fun _ _ => trivial) fun _ => ?_
    refine delivers_step (fun _ _ => trivial) fun _ => .ret ?_
    rintro w ⟨-, ⟨⟨⟨⟨-, hfound⟩, hsame, hjob⟩, haction⟩, hentry⟩, hevent⟩
    have hid : updated.id = jobId := (Prod.mk.inj hsame).1.trans (hfound job rfl).1
    refine ⟨⟨hid, hjob⟩, ?_⟩
    rintro _ ⟨⟩
    rw [hid] at haction hentry hevent
    refine ⟨?_, ⟨_, hentry⟩, _, List.mem_cons_self, hevent⟩
    rintro _ ⟨⟩
    exact ⟨_, haction⟩

theorem delivers_getStatus (jobId : Uuid) :
    (JobService.getStatus jobId).Delivers discipline (Since w₀ K) fun report =>
      Command.Kept (.job (.getStatus jobId)) w₀ (.job (.report report)) := by
  unfold JobService.getStatus
  rw [Prog.bind_eq, JobService.getById_bind]
  refine delivers_await (fun _ _ => trivial) fun found => ?_
  cases found with
  | none => exact .throw
  | some job =>
    refine delivers_step (fun _ _ => trivial) fun attempts => .ret ?_
    rintro w ⟨-, -, hfound⟩
    obtain ⟨hid, hjob⟩ := hfound job rfl
    refine ⟨⟨hid, hid ▸ hjob.isSome⟩, ?_⟩
    rintro _ ⟨⟩

theorem delivers_markCompleted {job : JobEntity} {attempt : ProcessingAttemptEntity}
    (hK : ∀ w, K w → w.jobs.Matches JobEntity.identity job ∧
      w.attempts.Matches ProcessingAttemptEntity.identity attempt) :
    (markCompleted job attempt).Delivers discipline (Since w₀ K) fun _ _ => True := by
  unfold markCompleted
  refine delivers_step (fun _ _ => trivial) fun finishedAt => ?_
  refine delivers_step (fun w hw => (hK w hw).2) fun attempt => ?_
  refine delivers_step (fun w hw => (hK w hw).1) fun job => ?_
  refine delivers_step (fun _ _ => trivial) fun notification => ?_
  refine delivers_step (fun _ _ => trivial) fun _ => ?_
  refine delivers_step (fun _ _ => trivial) fun _ => ?_
  exact .of_calls (.await fun _ => trivial)

theorem delivers_reportFailure (job : JobEntity) (attempt : ProcessingAttemptEntity)
    (errorMessage : String) (finishedAt : Date) (alert : AlertEntity)
    (incident : Option IncidentEntity) :
    (reportFailure job attempt errorMessage finishedAt alert incident).Delivers discipline
      (Since w₀ K) fun _ _ => True :=
  fun w _ => .of_calls (calls_reportFailure (fun _ _ => trivial) (fun _ _ => trivial)
    (fun _ _ _ => trivial) job attempt errorMessage finishedAt alert incident) w

theorem delivers_markFailed {job : JobEntity} {attempt : ProcessingAttemptEntity}
    (errorMessage : String) (hK : ∀ w, K w → w.jobs.Matches JobEntity.identity job ∧
      w.attempts.Matches ProcessingAttemptEntity.identity attempt) :
    (markFailed job attempt errorMessage).Delivers discipline (Since w₀ K) fun _ _ => True := by
  unfold markFailed
  refine delivers_step (fun _ _ => trivial) fun finishedAt => ?_
  refine delivers_step (fun w hw => (hK w hw).2) fun attempt => ?_
  refine delivers_step (fun w hw => (hK w hw).1) fun job => ?_
  refine delivers_step (fun _ _ => ⟨rfl, rfl⟩) fun alert => ?_
  split_ifs
  · refine delivers_step (fun _ _ => ⟨rfl, rfl⟩) fun incident => ?_
    exact delivers_reportFailure _ _ _ _ _ _
  · exact delivers_reportFailure _ _ _ _ _ _

theorem delivers_processJob (input : ProcessJobInput) {job : JobEntity}
    (hK : ∀ w, K w → w.jobs.Matches JobEntity.identity job) :
    (processJob input job).Delivers discipline (Since w₀ K) fun _ _ => True := by
  unfold processJob
  refine delivers_step (fun _ _ => trivial) fun startedAt => ?_
  refine delivers_await hK fun job => ?_
  refine delivers_step (fun _ _ => trivial) fun _ => ?_
  refine delivers_step (fun _ _ => trivial) fun _ => ?_
  refine delivers_await (fun _ _ => trivial) fun attempt => ?_
  refine delivers_step (fun _ _ => trivial) fun _ => ?_
  split
  · refine delivers_markFailed _ ?_
    rintro w ⟨⟨-, -, hjob⟩, hattempt⟩
    exact ⟨hjob, hattempt⟩
  · refine delivers_markCompleted ?_
    rintro w ⟨⟨-, -, hjob⟩, hattempt⟩
    exact ⟨hjob, hattempt⟩

theorem delivers_process (input : ProcessJobInput) :
    (process input).Delivers discipline (Since w₀ K) fun _ _ => True := by
  unfold process
  refine delivers_step (fun _ _ => trivial) fun acquired => ?_
  cases acquired with
  | false => exact .ret fun _ _ => trivial
  | true =>
    refine .tryFinally (delivers_await (fun _ _ => trivial) fun found => ?_) ?_
    · cases found with
      | none => exact .ret fun _ _ => trivial
      | some job => exact delivers_processJob input fun w hw => (hw.2 job rfl).2
    · exact .of_calls (.await fun _ => trivial)

theorem delivers_consume (delivery : Delivery) :
    (RabbitMqService.consumeCallback JobProcessingConsumer.onMessage delivery).Delivers discipline
      (Since w₀ K) fun _ _ => True := by
  unfold RabbitMqService.consumeCallback
  refine .tryCatch ?_ fun _ => .of_calls (.await fun _ => trivial)
  obtain ⟨tag, ⟨content⟩⟩ := delivery
  cases content with
  | none => exact .throw
  | some payload =>
    refine Prog.Delivers.bind (Q := fun _ _ => True) ?_ fun _ => .of_calls (.await fun _ => trivial)
    unfold JobProcessingConsumer.onMessage
    split
    · exact .ret fun _ _ => trivial
    · exact delivers_process _

/-- What an alert command has done, with the incident it has opened. -/
theorem delivers_announce (input : CreateAlertInput) (alert : AlertEntity)
    (incident : Option IncidentEntity)
    (hK : ∀ w, K w → w.Stores (.createAlert input) (.raised alert incident)) :
    (AlertService.announce input alert incident).Delivers discipline (Since w₀ K) fun answer =>
      Command.Kept (.createAlert input) w₀ (.raised answer.1 answer.2) := by
  unfold AlertService.announce
  refine delivers_await (fun _ _ => trivial) fun action => ?_
  refine delivers_await (fun _ _ => trivial) fun entry => ?_
  refine delivers_await (fun _ _ => trivial) fun _ => ?_
  refine Prog.Delivers.mono
    (K := Since w₀ (Command.Kept (.createAlert input) w₀ (.raised alert incident))) ?_ ?_
    fun _ _ h => h
  · cases incident with
    | none => exact .ret fun _ h => h.2
    | some incident => exact delivers_step (fun _ _ => trivial) fun _ => .ret fun _ h => h.2
  · rintro w ⟨hpast, ⟨⟨hw, haction⟩, hentry⟩, hevent⟩
    refine ⟨hpast, ?_⟩
    refine ⟨hK w hw, ?_⟩
    rintro _ ⟨⟩
    refine ⟨?_, ⟨_, hentry⟩, _, List.mem_cons_self, hevent⟩
    rintro _ ⟨⟩
    exact ⟨_, haction⟩

theorem delivers_createAlert (input : CreateAlertInput) :
    (AlertService.create input).Delivers discipline (Since w₀ K) fun answer =>
      Command.Kept (.createAlert input) w₀ (.raised answer.1 answer.2) := by
  unfold AlertService.create
  refine delivers_await (fun _ _ => ⟨rfl, rfl⟩) fun alert => ?_
  split_ifs with hopens
  · refine delivers_await (fun _ _ => ⟨rfl, rfl⟩) fun incident => ?_
    refine delivers_announce input alert (some incident) ?_
    rintro w ⟨⟨-, hcolumns, halert⟩, hincident⟩
    refine ⟨hcolumns, halert, by simp [hopens], ?_⟩
    rintro _ ⟨⟩
    exact hincident
  · refine delivers_announce input alert none ?_
    rintro w ⟨-, hcolumns, halert⟩
    exact ⟨hcolumns, halert, by simp [hopens], by simp⟩

theorem delivers_acknowledgeAlert (alertId : Uuid) (operatorId : String) :
    (AlertService.acknowledge alertId operatorId).Delivers discipline (Since w₀ K) fun answer =>
      Command.Kept (.acknowledgeAlert alertId operatorId) w₀ (.alert answer.1 answer.2) := by
  unfold AlertService.acknowledge
  rw [Prog.bind_eq, AlertService.getById_bind]
  refine delivers_await (fun _ _ => trivial) fun found => ?_
  cases found with
  | none => exact .throw
  | some loaded =>
    dsimp only
    split_ifs
    · exact .throw
    refine delivers_step (fun _ _ => trivial) fun acknowledgedAt => ?_
    refine delivers_await (fun w hw => (hw.2 loaded rfl).2) fun updated => ?_
    refine delivers_await (fun _ _ => trivial) fun entry => ?_
    refine delivers_await (fun _ _ => trivial) fun _ => .ret ?_
    rintro w ⟨-, ⟨⟨⟨-, hfound⟩, hsame, halert⟩, hentry⟩, hevent⟩
    obtain ⟨hid, -⟩ := hfound loaded rfl
    have hupdated : updated.id = alertId := hsame.trans hid
    rw [hid] at hentry
    rw [hupdated] at hevent
    refine ⟨⟨hupdated, halert⟩, ?_⟩
    rintro _ ⟨⟩
    refine ⟨?_, ⟨_, hentry⟩, _, List.mem_cons_self, hevent⟩
    rintro _ ⟨⟩

theorem delivers_propagate {c : Command} {incident updated : IncidentEntity}
    {operatorId : String} {changes : Date → AlertUpdate} {action auditAction : String}
    {metadata payload : Record}
    (hdeed : c.deed (.incident updated) = some ⟨operatorId, some action, auditAction, .INCIDENT,
      incident.id, "incident.updated", "incidentId"⟩)
    (hpayload : ("incidentId", .uuid incident.id) ∈ payload)
    (hK : ∀ w, K w → w.Stores c (.incident updated)) :
    (IncidentService.propagate incident updated operatorId changes action auditAction metadata
      payload).Delivers discipline (Since w₀ K) fun answer => c.Kept w₀ (.incident answer) := by
  have hrest :
      ((await (.insertOperatorAction ⟨operatorId, action, .INCIDENT, some incident.id, []⟩)).bind
        fun _ => (AuditService.log ⟨.OPERATOR, some operatorId, auditAction, .INCIDENT,
          some incident.id, metadata⟩).bind
        fun _ => (RealtimeEventPublisher.publishIncidentUpdated payload).bind
        fun _ => .ret updated).Delivers discipline (Since w₀ K) fun answer =>
          c.Kept w₀ (.incident answer) := by
    refine delivers_await (fun _ _ => trivial) fun action => ?_
    refine delivers_await (fun _ _ => trivial) fun entry => ?_
    refine delivers_await (fun _ _ => trivial) fun _ => .ret ?_
    rintro w ⟨-, ⟨⟨hw, haction⟩, hentry⟩, hevent⟩
    refine ⟨hK w hw, fun deed h => ?_⟩
    cases hdeed.symm.trans h
    refine ⟨?_, ⟨_, hentry⟩, _, hpayload, hevent⟩
    rintro _ ⟨⟩
    exact ⟨_, haction⟩
  unfold IncidentService.propagate
  cases incident.alertId with
  | none => exact hrest
  | some alertId =>
    exact delivers_step (fun _ _ => trivial) fun _ => delivers_step (fun _ _ => trivial) fun _ =>
      hrest

theorem delivers_acknowledge (incidentId : Uuid) (operatorId : String) :
    (IncidentService.acknowledge incidentId operatorId).Delivers discipline (Since w₀ K)
      fun answer => Command.Kept (.acknowledge incidentId operatorId) w₀ (.incident answer) := by
  unfold IncidentService.acknowledge
  rw [Prog.bind_eq, IncidentService.getIncident_bind]
  refine delivers_await (fun _ _ => trivial) fun found => ?_
  cases found with
  | none => exact .throw
  | some incident =>
    dsimp only
    split_ifs
    · exact .throw
    refine delivers_step (fun _ _ => trivial) fun acknowledgedAt => ?_
    refine delivers_await (fun w hw => (hw.2 incident rfl).2) fun updated => ?_
    refine .of_fact (P := incident.id = incidentId ∧ updated.id = incident.id)
      (fun w hw => ⟨(hw.2.1.2 incident rfl).1, hw.2.2.1⟩) ?_
    rintro ⟨rfl, hid⟩
    refine delivers_propagate rfl (hid ▸ List.mem_cons_self) ?_
    exact fun w hw => ⟨hid, hw.2.2⟩

theorem delivers_settle (incident : IncidentEntity) (operatorId : String)
    (hK : ∀ w, K w → w.incidents.Matches IncidentEntity.identity incident) :
    (IncidentService.settle incident operatorId).Delivers discipline (Since w₀ K) fun answer =>
      Command.Kept (.resolve incident.id operatorId) w₀ (.incident answer) := by
  unfold IncidentService.settle
  refine delivers_step (fun _ _ => trivial) fun resolvedAt => ?_
  refine delivers_await hK fun updated => ?_
  refine .of_fact (P := updated.id = incident.id) (fun w hw => hw.2.2.1) fun hid => ?_
  refine delivers_propagate rfl (hid ▸ List.mem_cons_self) ?_
  exact fun w hw => ⟨hid, hw.2.2⟩

theorem delivers_resolve (incidentId : Uuid) (operatorId : String) :
    (IncidentService.resolve incidentId operatorId).Delivers discipline (Since w₀ K) fun incident =>
      Command.Kept (.resolve incidentId operatorId) w₀ (.incident incident) := by
  unfold IncidentService.resolve
  rw [Prog.bind_eq, IncidentService.getIncident_bind]
  refine delivers_await (fun _ _ => trivial) fun found => ?_
  cases found with
  | none => exact .throw
  | some incident =>
    refine .of_fact (P := incident.id = incidentId) (fun w hw => (hw.2.2 incident rfl).1) ?_
    rintro rfl
    dsimp only
    split_ifs
    · exact .throw
    · refine delivers_step (fun _ _ => trivial) fun acknowledgedAt => ?_
      exact delivers_settle _ operatorId fun w hw => (hw.2 incident rfl).2
    · exact delivers_settle _ operatorId fun w hw => (hw.2 incident rfl).2

theorem delivers_call (call : Call) : call.prog.Delivers discipline (Since w₀ K) fun result =>
    Command.Kept (.job call) w₀ (.job result) := by
  cases call with
  | create input => exact (delivers_create input).bind fun _ => .ret fun w h => h.2
  | retry jobId operatorId =>
    exact (delivers_retry jobId operatorId).bind fun _ => .ret fun w h => h.2
  | getStatus jobId => exact (delivers_getStatus jobId).bind fun _ => .ret fun w h => h.2
  | process input =>
    exact (delivers_process input).bind fun _ => .ret fun w _ => ⟨trivial, by rintro _ ⟨⟩⟩
  | consume delivery =>
    exact (delivers_consume delivery).bind fun _ => .ret fun w _ => ⟨trivial, by rintro _ ⟨⟩⟩

/-- Every command keeps to the discipline, and leaves what it answers. -/
theorem delivers_prog (c : Command) : c.prog.Delivers discipline (Since w₀ K) (c.Kept w₀) := by
  cases c with
  | job call => exact (delivers_call call).bind fun _ => .ret fun w h => h.2
  | createAlert input =>
    exact (delivers_createAlert input).bind fun _ => .ret fun w h => h.2
  | acknowledgeAlert alertId operatorId =>
    exact (delivers_acknowledgeAlert alertId operatorId).bind fun _ => .ret fun w h => h.2
  | acknowledge incidentId operatorId =>
    exact (delivers_acknowledge incidentId operatorId).bind fun _ => .ret fun w h => h.2
  | resolve incidentId operatorId =>
    exact (delivers_resolve incidentId operatorId).bind fun _ => .ret fun w h => h.2

end Programs

/-! ## Runs -/

namespace Operations

variable {w₀ : World} {n : ℕ} {s s' : Operations}

/-- What thread `i` promises, if it is not among the first `n`. -/
def promise (w₀ : World) (n : ℕ) (s : Operations) (i : ℕ) (response : Response) (w : World) :
    Prop :=
  n ≤ i → ∀ c ∈ s.commands[i]?, c.Kept w₀ response w

/-- Every thread keeps to the discipline, and all but the first `n` began after `w₀`. -/
structure Disciplined (w₀ : World) (n : ℕ) (s : Operations) : Prop where
  length : s.commands.length = s.pool.threads.length
  threads : s.pool.Promising discipline (promise w₀ n s)
  since : w₀.Preserves s.pool.world
  le : n ≤ s.pool.threads.length

namespace Disciplined

theorem init (w : World) : (Operations.init w).Disciplined w 0 :=
  ⟨rfl, fun i p hp => (by cases hp), .refl w, le_rfl⟩

/-- All that comes is later than now. -/
theorem now (h : s.Disciplined w₀ n) :
    s.Disciplined s.pool.world s.pool.threads.length where
  length := h.length
  threads i p hp := by
    refine (h.threads i p hp).mono fun _ _ _ hi => ?_
    exact absurd (List.getElem?_eq_some_iff.mp hp).1 hi.not_gt
  since := .refl _
  le := le_rfl

/-- Something the environment does to the world. -/
theorem withWorld (h : s.Disciplined w₀ n) {w : World} (hw : s.pool.world.Preserves w) :
    (s.withWorld w).Disciplined w₀ n :=
  ⟨h.length, h.threads.up hw, h.since.trans hw, h.le⟩

theorem start (h : s.Disciplined w₀ n) (c : Command) : (s.start c).Disciplined w₀ n where
  length := by simp [Operations.start, Pool.spawn, h.length]
  threads := by
    have hnew : promise w₀ n (s.start c) s.pool.threads.length = c.Kept w₀ := by
      funext response w
      simp [promise, Operations.start, ← h.length, h.length ▸ h.le]
    refine h.threads.spawn (fun i hi => ?_) ?_
    · rw [← h.length] at hi
      funext response w
      simp only [promise, Operations.start, List.getElem?_append_left hi]
    · rw [hnew]
      exact delivers_prog (K := fun _ => True) c _ fun w hw => ⟨h.since.trans hw, trivial⟩
  since := h.since
  le := by
    rw [Operations.start, Pool.spawn, List.length_append]
    exact h.le.trans (Nat.le_add_right _ _)

/-- Every move keeps the discipline, and undoes nothing. -/
theorem step (h : s.Disciplined w₀ n) {l : Label} (hs : s.step l = some s') :
    s'.Disciplined w₀ n ∧ s.pool.world.Preserves s'.pool.world := by
  have hsame : ∀ {w : World}, s.pool.world.Preserves w →
      (s.withWorld w).Disciplined w₀ n ∧ s.pool.world.Preserves w :=
    fun hw => ⟨h.withWorld hw, hw⟩
  cases l with
  | start c =>
    cases hs
    exact ⟨h.start c, .refl _⟩
  | deliver n =>
    obtain ⟨m, -, rfl⟩ := Option.map_eq_some_iff.mp hs
    have hw : s.pool.world.Preserves { s.pool.world with
        ready := s.pool.world.ready.eraseIdx n
        unacked := s.pool.world.unacked ++ [⟨s.pool.world.nextTag, m⟩]
        nextTag := s.pool.world.nextTag + 1 } :=
      .of_same rfl rfl rfl rfl rfl rfl rfl (List.prefix_refl _)
    exact ⟨(h.withWorld hw).start _, hw⟩
  | step i e =>
    obtain ⟨-, pool, hpool, rfl⟩ := step_step.mp hs
    obtain ⟨hthreads, hw⟩ := h.threads.advance hpool
    refine ⟨⟨?_, hthreads, h.since.trans hw, ?_⟩, hw⟩
    all_goals
      obtain ⟨-, -, -, rfl⟩ := Pool.advance_eq_some hpool
      rw [List.length_set]
    · exact h.length
    · exact h.le
  | redeliver tag =>
    obtain ⟨w, hw, rfl⟩ := Option.map_eq_some_iff.mp hs
    obtain ⟨d, -, rfl⟩ := Option.map_eq_some_iff.mp hw
    exact hsame (.of_same rfl rfl rfl rfl rfl rfl rfl (List.prefix_refl _))
  | stop i =>
    obtain ⟨-, rfl⟩ := step_stop.mp hs
    refine ⟨⟨?_, h.threads.halt i _, h.since, ?_⟩, .refl _⟩
    · exact h.length.trans List.length_set.symm
    · exact h.le.trans_eq List.length_set.symm
  | expire key now =>
    obtain ⟨w, hw, rfl⟩ := Option.map_eq_some_iff.mp hs
    obtain ⟨lock, -, -, rfl⟩ := expire_eq_some.mp hw
    exact hsame (.of_same rfl rfl rfl rfl rfl rfl rfl (List.prefix_refl _))

/-- A run keeps it, and undoes nothing. -/
theorem run {allow : Operations → Label → Prop} (h : s.Disciplined w₀ n)
    (hs : Reachable Operations.step allow s s') :
    s'.Disciplined w₀ n ∧ s.pool.world.Preserves s'.pool.world := by
  refine hs.invariant (I := fun t => t.Disciplined w₀ n ∧ s.pool.world.Preserves t.pool.world)
    (fun t l t' ht _ hstep => ?_) ⟨h, .refl _⟩
  obtain ⟨hd, hw⟩ := ht.1.step hstep
  exact ⟨hd, ht.2.trans hw⟩

/-- What a command has answered that began after `w₀` it has left since, for good. -/
theorem kept (h : s.Disciplined w₀ n) {i : ℕ} (hn : n ≤ i) {c : Command} {response : Response}
    (hc : s.commands[i]? = some c) (hi : s.pool.outcome i = some (.ok response)) {w : World}
    (hw : s.pool.world.Preserves w) : c.Kept w₀ response w :=
  h.threads.outcome hi hw hn c hc

end Disciplined

end Operations

/-- From one state of a run to a later one no row is deleted, and none of the columns with which it
was identified is changed; notifications, operator actions, audit entries and events are only added,
at the end. This holds over any tables and queue to start with, for every interleaving of the
commands and executions, whatever calls reject, before or after their effect, whichever processes
die, deliveries come back and locks run out. -/
theorem nothing_undone {w : World} {s s' : Operations}
    (h : Reachable Operations.step (fun _ _ => True) (.init w) s)
    (h' : Reachable Operations.step (fun _ _ => True) s s') :
    s.pool.world.Preserves s'.pool.world :=
  (((Operations.Disciplined.init w).run h).1.run h').2

/-- A job is created, and then processed. -/
theorem nothing_undone_processed : ∃ s s',
    Reachable Operations.step (fun _ _ => True) (.init .empty) s ∧
      Reachable Operations.step (fun _ _ => True) s s' ∧
      s.pool.world.jobs.rows.map (·.status) = [.QUEUED] ∧
      s'.pool.world.jobs.rows.map (·.status) = [.COMPLETED] ∧
      s.pool.world.Preserves s'.pool.world := by
  obtain ⟨s, hs, hqueued, s', hs', hcompleted⟩ :
      ∃ s, Reachable Operations.step (fun _ _ => True) (.init .empty) s ∧
        s.pool.world.jobs.rows.map (·.status) = [.QUEUED] ∧
        ∃ s' ∈ Interleaving.execute Operations.step (fun _ _ => True) s
            (.deliver 0 :: Operations.calls 1 14 20),
          s'.pool.world.jobs.rows.map (·.status) = [.COMPLETED] :=
    exists_reachable_of_execute _
      (.start (.job (.create ⟨"ingest", "batch", [], 1, 1, "alice"⟩)) :: Operations.calls 0 7 1)
      _ (by decide)
  have hlater := reachable_of_execute hs'
  exact ⟨s, s', hs, hlater, hqueued, hcompleted, nothing_undone hs hlater⟩

/-- The constraints of the schema hold in every state of every run from tables in which they hold,
though saves check none of them : foreign keys, the numbers of a job's attempts, the one incident of
an alert and the lengths of the texts. -/
theorem integrity {w : World} (hw : w.Consistent) {s : Operations}
    (h : Reachable Operations.step (fun _ _ => True) (.init w) s) : s.pool.world.Consistent :=
  ((Operations.Disciplined.init w).run h).2.consistent hw

theorem World.Consistent.empty : World.empty.Consistent := by
  constructor <;> rintro _ ⟨⟩

/-- A job has failed for good, and its incident is linked to its alert. -/
theorem integrity_escalated : ∃ s,
    Reachable Operations.step (fun _ _ => True) (.init .empty) s ∧
      s.pool.world.incidents.rows.map (·.alertId) = [some 31] ∧ s.pool.world.Consistent := by
  obtain ⟨s, hs, hlinks⟩ :
      ∃ s, Reachable Operations.step (fun _ _ => True) (.init .empty) s ∧
        s.pool.world.incidents.rows.map (·.alertId) = [some 31] :=
    exists_reachable_of_execute _
      (.start (.job (.create ⟨"ingest", "batch", [("shouldFail", .bool true)], 1, 1, "alice"⟩)) ::
        Operations.calls 0 7 1 ++ .deliver 0 :: Operations.calls 1 19 20) _ (by decide)
  exact ⟨s, hs, hlinks, integrity .empty hs⟩

end RealtimeOps
