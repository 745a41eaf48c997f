import RealtimeOps.Platform

/-!
# The world of one job

`World.view` is what is recorded about one job : its row, its attempts, alerts and incidents,
and the audit entries, notifications and events that concern it. An entry concerns a job by
naming it, or by naming an alert, an incident or a notification of it.

`JobView.perform` is what a call of an execution of the job does, as a function of the job's
own view. A call that such an execution owns (`Owns`) does so in the world
(`Owns.perform_view`), leaves every other job's view (`Owns.view_other`), and goes through
with the same reply in any world with the same view and fewer rows (`Agree.own`).
-/

set_option autoImplicit false

namespace RealtimeOps

open Interleaving

/-! ## What concerns a job -/

/-- What is recorded about a job. -/
structure JobView where
  row : Option JobEntity
  attempts : List ProcessingAttemptEntity
  alerts : List AlertEntity
  incidents : List IncidentEntity
  auditEntries : List AuditEntryEntity
  notifications : List NotificationEntity
  events : List Event

/-- The incident is of one of the alerts. -/
def concernsIncident (alerts : List AlertEntity) (i : IncidentEntity) : Prop :=
  ∃ a ∈ alerts, i.alertId = some a.id

/-- The entry names the job, one of its alerts or one of its incidents. -/
def concernsEntry (jobId : Uuid) (alerts : List AlertEntity) (incidents : List IncidentEntity)
    (x : CreateAuditEntryInput) : Prop :=
  match x.entityType with
  | .JOB => x.entityId = some jobId
  | .ALERT => ∃ a ∈ alerts, x.entityId = some a.id
  | .INCIDENT => ∃ i ∈ incidents, x.entityId = some i.id
  | .NOTIFICATION | .PROCESSING_ATTEMPT | .OPERATOR_ACTION => False

/-- The notification names the job. -/
def concernsNotification (jobId : Uuid) (c : NotificationColumns) : Prop :=
  c.metadata.lookup "jobId" = some (.uuid jobId)

/-- The payload names the job, one of its notifications or one of its incidents. -/
def concernsEvent (jobId : Uuid) (notifications : List NotificationEntity)
    (incidents : List IncidentEntity) (payload : Record) : Prop :=
  payload.lookup "jobId" = some (.uuid jobId) ∨
    (∃ n ∈ notifications, payload.lookup "notificationId" = some (.uuid n.id)) ∨
    ∃ i ∈ incidents, payload.lookup "incidentId" = some (.uuid i.id)

instance (alerts : List AlertEntity) : DecidablePred (concernsIncident alerts) := fun _ =>
  inferInstanceAs (Decidable (∃ a ∈ _, _))

instance (jobId : Uuid) (alerts : List AlertEntity) (incidents : List IncidentEntity) :
    DecidablePred (concernsEntry jobId alerts incidents) := fun x =>
  match h : x.entityType with
  | .JOB => decidable_of_iff (x.entityId = some jobId) (by simp [concernsEntry, h])
  | .ALERT => decidable_of_iff (∃ a ∈ alerts, x.entityId = some a.id) (by simp [concernsEntry, h])
  | .INCIDENT =>
    decidable_of_iff (∃ i ∈ incidents, x.entityId = some i.id) (by simp [concernsEntry, h])
  | .NOTIFICATION | .PROCESSING_ATTEMPT | .OPERATOR_ACTION =>
    .isFalse (by simp [concernsEntry, h])

instance (jobId : Uuid) : DecidablePred (concernsNotification jobId) := fun _ =>
  inferInstanceAs (Decidable (_ = _))

instance (jobId : Uuid) (notifications : List NotificationEntity)
    (incidents : List IncidentEntity) :
    DecidablePred (concernsEvent jobId notifications incidents) := fun _ =>
  inferInstanceAs (Decidable (_ ∨ (∃ n ∈ _, _) ∨ ∃ i ∈ _, _))

namespace World

variable (w : World) (jobId : Uuid)

/-- The alerts raised for the job. -/
def alertsOf : List AlertEntity :=
  w.alerts.rows.filter fun a => a.jobId = some jobId

/-- The incidents opened for these alerts. -/
def incidentsOf : List IncidentEntity :=
  w.incidents.rows.filter fun i => concernsIncident (w.alertsOf jobId) i

/-- The notifications about the job. -/
def notificationsOf : List NotificationEntity :=
  w.notifications.rows.filter fun n => concernsNotification jobId n.toNotificationColumns

/-- What is recorded about a job in the world. -/
def view : JobView where
  row := w.jobs.lookup jobId
  attempts := w.attempts.rows.filter fun a => a.jobId = jobId
  alerts := w.alertsOf jobId
  incidents := w.incidentsOf jobId
  auditEntries := w.auditEntries.rows.filter fun x =>
    concernsEntry jobId (w.alertsOf jobId) (w.incidentsOf jobId) x.toCreateAuditEntryInput
  notifications := w.notificationsOf jobId
  events := w.events.filter fun ev =>
    concernsEvent jobId (w.notificationsOf jobId) (w.incidentsOf jobId) ev.payload

end World

/-- Something recorded names the id. -/
def Mentions (w : World) (id : Uuid) : Prop :=
  (∃ i ∈ w.incidents.rows, i.alertId = some id) ∨
    (∃ x ∈ w.auditEntries.rows, x.entityId = some id) ∨
    ∃ ev ∈ w.events, ∃ f ∈ ev.payload, f.2 = .uuid id

instance (w : World) (id : Uuid) : Decidable (Mentions w id) :=
  inferInstanceAs (Decidable ((∃ i ∈ _, _) ∨ (∃ x ∈ _, _) ∨ ∃ ev ∈ _, ∃ f ∈ _, _))

/-! ## New ids concern nothing there is -/

theorem concernsIncident_append {alerts : List AlertEntity} {a : AlertEntity}
    {i : IncidentEntity} (h : i.alertId ≠ some a.id) :
    concernsIncident (alerts ++ [a]) i ↔ concernsIncident alerts i := by
  simp [concernsIncident, or_and_right, exists_or, h]

theorem concernsEntry_append_alert {jobId : Uuid} {alerts : List AlertEntity}
    {incidents : List IncidentEntity} {a : AlertEntity} {x : CreateAuditEntryInput}
    (h : x.entityId ≠ some a.id) :
    concernsEntry jobId (alerts ++ [a]) incidents x ↔ concernsEntry jobId alerts incidents x := by
  unfold concernsEntry
  split <;> simp [or_and_right, exists_or, h]

theorem concernsEntry_append_incident {jobId : Uuid} {alerts : List AlertEntity}
    {incidents : List IncidentEntity} {i : IncidentEntity} {x : CreateAuditEntryInput}
    (h : x.entityId ≠ some i.id) :
    concernsEntry jobId alerts (incidents ++ [i]) x ↔ concernsEntry jobId alerts incidents x := by
  unfold concernsEntry
  split <;> simp [or_and_right, exists_or, h]

theorem exists_field_of_lookup {payload : Record} {key : String} {v : Json}
    (h : payload.lookup key = some v) : ∃ f ∈ payload, f.2 = v := by
  obtain ⟨l₁, l₂, rfl, -⟩ := List.lookup_eq_some_iff.mp h
  exact ⟨(key, v), by simp, rfl⟩

theorem concernsEvent_append_incident {jobId : Uuid} {notifications : List NotificationEntity}
    {incidents : List IncidentEntity} {i : IncidentEntity} {payload : Record}
    (h : ¬∃ f ∈ payload, f.2 = .uuid i.id) :
    concernsEvent jobId notifications (incidents ++ [i]) payload ↔
      concernsEvent jobId notifications incidents payload := by
  have hne : payload.lookup "incidentId" ≠ some (.uuid i.id) := fun hl =>
    h (exists_field_of_lookup hl)
  simp [concernsEvent, or_and_right, exists_or, hne]

theorem concernsEvent_append_notification {jobId : Uuid}
    {notifications : List NotificationEntity} {incidents : List IncidentEntity}
    {n : NotificationEntity} {payload : Record} (h : ¬∃ f ∈ payload, f.2 = .uuid n.id) :
    concernsEvent jobId (notifications ++ [n]) incidents payload ↔
      concernsEvent jobId notifications incidents payload := by
  have hne : payload.lookup "notificationId" ≠ some (.uuid n.id) := fun hl =>
    h (exists_field_of_lookup hl)
  simp [concernsEvent, or_and_right, exists_or, hne]

/-! ## Writing, seen from one job -/

theorem filter_concat {α : Type} (p : α → Prop) [DecidablePred p] (l : List α) (a : α) :
    ((l ++ [a]).filter fun b => p b) =
      if p a then (l.filter fun b => p b) ++ [a] else l.filter fun b => p b := by
  rw [List.filter_append]
  split_ifs with h <;> simp [h]

section Writes

variable {w : World}

theorem view_saveJob (job : JobEntity) (jobId : Uuid) :
    ({ w with jobs := w.jobs.save job } : World).view jobId =
      if job.id = jobId then { w.view jobId with row := some job } else w.view jobId := by
  have hview : ({ w with jobs := w.jobs.save job } : World).view jobId =
    { w.view jobId with row := (w.jobs.save job).lookup jobId } := rfl
  rw [hview, Table.lookup_save]
  split_ifs <;> rfl

theorem view_insertAttempt {a : ProcessingAttemptEntity} {t : Table ProcessingAttemptEntity.id}
    (ht : w.attempts.insert a = some t) (jobId : Uuid) :
    ({ w with attempts := t } : World).view jobId =
      if a.jobId = jobId then
        { w.view jobId with attempts := (w.view jobId).attempts ++ [a] }
      else w.view jobId := by
  have hview : ({ w with attempts := t } : World).view jobId =
    { w.view jobId with attempts := t.rows.filter fun b => b.jobId = jobId } := rfl
  rw [hview, (Table.insert_eq_some ht).1,
    filter_concat fun b : ProcessingAttemptEntity => b.jobId = jobId]
  split_ifs <;> rfl

/-- An attempt of the job is saved over. -/
theorem view_saveAttempt {a b : ProcessingAttemptEntity} (hb : b ∈ w.attempts.rows)
    (hid : b.id = a.id) (hjob : b.jobId = a.jobId) (jobId : Uuid) :
    ({ w with attempts := w.attempts.save a } : World).view jobId =
      if a.jobId = jobId then
        { w.view jobId with
          attempts := (w.view jobId).attempts.map fun b => if b.id = a.id then a else b }
      else w.view jobId := by
  have hview : ({ w with attempts := w.attempts.save a } : World).view jobId =
    { w.view jobId with
      attempts := (w.attempts.save a).rows.filter fun b => b.jobId = jobId } := rfl
  -- The row written over is of the same job.
  have hsame : ∀ c ∈ w.attempts.rows,
      ((if c.id = a.id then a else c).jobId = jobId ↔ c.jobId = jobId) := by
    intro c hc
    split_ifs with h
    · rw [w.attempts.key_injOn hc hb (h.trans hid.symm), hjob]
    · rfl
  have hrows : ((w.attempts.save a).rows.filter fun b => b.jobId = jobId) =
      (w.view jobId).attempts.map fun b => if b.id = a.id then a else b := by
    rw [Table.rows_save hb hid, List.filter_map]
    congr 1
    exact List.filter_congr fun c hc => by simp [hsame c hc]
  rw [hview, hrows]
  split_ifs with h
  · rfl
  · have hid : ((w.view jobId).attempts.map fun b => if b.id = a.id then a else b) =
        (w.view jobId).attempts := by
      refine (List.map_congr_left fun c hc => ?_).trans (List.map_id _)
      have hc := List.mem_filter.mp hc
      rw [if_neg, id]
      intro hca
      rw [w.attempts.key_injOn hc.1 hb (hca.trans hid.symm), hjob] at hc
      exact h (of_decide_eq_true hc.2)
    rw [hid]

theorem view_insertAlert {a : AlertEntity} {t : Table AlertEntity.id}
    (ht : w.alerts.insert a = some t) (hnew : ¬Mentions w a.id) (jobId : Uuid) :
    ({ w with alerts := t } : World).view jobId =
      if a.jobId = some jobId then { w.view jobId with alerts := (w.view jobId).alerts ++ [a] }
      else w.view jobId := by
  simp only [Mentions, not_or, not_exists, not_and] at hnew
  obtain ⟨hincidents, hentries, -⟩ := hnew
  have halerts : ({ w with alerts := t } : World).alertsOf jobId =
      if a.jobId = some jobId then w.alertsOf jobId ++ [a] else w.alertsOf jobId := by
    simp only [World.alertsOf, (Table.insert_eq_some ht).1]
    exact filter_concat (fun a : AlertEntity => a.jobId = some jobId) _ _
  have hsame : ({ w with alerts := t } : World).incidentsOf jobId = w.incidentsOf jobId := by
    simp only [World.incidentsOf, halerts]
    split_ifs
    · exact List.filter_congr fun i hi => by simp [concernsIncident_append (hincidents i hi)]
    · rfl
  have hview : ({ w with alerts := t } : World).view jobId =
      { w.view jobId with
        alerts := ({ w with alerts := t } : World).alertsOf jobId
        auditEntries := w.auditEntries.rows.filter fun x =>
          concernsEntry jobId (({ w with alerts := t } : World).alertsOf jobId)
            (w.incidentsOf jobId) x.toCreateAuditEntryInput } := by
    simp only [World.view, hsame]
    rfl
  have hkept : (w.auditEntries.rows.filter fun x =>
      concernsEntry jobId (w.alertsOf jobId ++ [a]) (w.incidentsOf jobId)
        x.toCreateAuditEntryInput) = (w.view jobId).auditEntries :=
    List.filter_congr fun x hx => by simp [concernsEntry_append_alert (hentries x hx)]
  rw [hview, halerts]
  split_ifs
  · rw [hkept]
    rfl
  · rfl

theorem view_insertIncident {i : IncidentEntity} {t : Table IncidentEntity.id}
    (ht : w.incidents.insert i = some t) (hnew : ¬Mentions w i.id) (jobId : Uuid) :
    ({ w with incidents := t } : World).view jobId =
      if concernsIncident (w.view jobId).alerts i then
        { w.view jobId with incidents := (w.view jobId).incidents ++ [i] }
      else w.view jobId := by
  simp only [Mentions, not_or, not_exists, not_and] at hnew
  obtain ⟨-, hentries, hevents⟩ := hnew
  have hincidents : ({ w with incidents := t } : World).incidentsOf jobId =
      if concernsIncident (w.alertsOf jobId) i then w.incidentsOf jobId ++ [i]
      else w.incidentsOf jobId := by
    have hof : ({ w with incidents := t } : World).incidentsOf jobId =
      t.rows.filter fun i => concernsIncident (w.alertsOf jobId) i := rfl
    rw [hof, (Table.insert_eq_some ht).1]
    exact filter_concat (fun i => concernsIncident (w.alertsOf jobId) i) _ _
  have hview : ({ w with incidents := t } : World).view jobId =
      { w.view jobId with
        incidents := ({ w with incidents := t } : World).incidentsOf jobId
        auditEntries := w.auditEntries.rows.filter fun x =>
          concernsEntry jobId (w.alertsOf jobId)
            (({ w with incidents := t } : World).incidentsOf jobId) x.toCreateAuditEntryInput
        events := w.events.filter fun ev =>
          concernsEvent jobId (w.notificationsOf jobId)
            (({ w with incidents := t } : World).incidentsOf jobId) ev.payload } := rfl
  have hkept : (w.auditEntries.rows.filter fun x =>
      concernsEntry jobId (w.alertsOf jobId) (w.incidentsOf jobId ++ [i])
        x.toCreateAuditEntryInput) = (w.view jobId).auditEntries :=
    List.filter_congr fun x hx => by simp [concernsEntry_append_incident (hentries x hx)]
  have hkept' : (w.events.filter fun ev =>
      concernsEvent jobId (w.notificationsOf jobId) (w.incidentsOf jobId ++ [i]) ev.payload) =
      (w.view jobId).events :=
    List.filter_congr fun ev hev => by
      have hne : ¬∃ f ∈ ev.payload, f.2 = .uuid i.id := fun ⟨f, hf, hfi⟩ => hevents ev hev f hf hfi
      simp [concernsEvent_append_incident hne]
  rw [hview, hincidents]
  change _ = if concernsIncident (w.alertsOf jobId) i then _ else _
  split_ifs
  · rw [hkept, hkept']
    rfl
  · rfl

theorem view_insertNotification {n : NotificationEntity} {t : Table NotificationEntity.id}
    (ht : w.notifications.insert n = some t) (hnew : ¬Mentions w n.id) (jobId : Uuid) :
    ({ w with notifications := t } : World).view jobId =
      if concernsNotification jobId n.toNotificationColumns then
        { w.view jobId with notifications := (w.view jobId).notifications ++ [n] }
      else w.view jobId := by
  simp only [Mentions, not_or, not_exists, not_and] at hnew
  obtain ⟨-, -, hevents⟩ := hnew
  have hnotifications : ({ w with notifications := t } : World).notificationsOf jobId =
      if concernsNotification jobId n.toNotificationColumns then w.notificationsOf jobId ++ [n]
      else w.notificationsOf jobId := by
    simp only [World.notificationsOf, (Table.insert_eq_some ht).1]
    exact filter_concat
      (fun n : NotificationEntity => concernsNotification jobId n.toNotificationColumns) _ _
  have hview : ({ w with notifications := t } : World).view jobId =
      { w.view jobId with
        notifications := ({ w with notifications := t } : World).notificationsOf jobId
        events := w.events.filter fun ev =>
          concernsEvent jobId (({ w with notifications := t } : World).notificationsOf jobId)
            (w.incidentsOf jobId) ev.payload } := rfl
  have hkept : (w.events.filter fun ev =>
      concernsEvent jobId (w.notificationsOf jobId ++ [n]) (w.incidentsOf jobId) ev.payload) =
      (w.view jobId).events :=
    List.filter_congr fun ev hev => by
      have hne : ¬∃ f ∈ ev.payload, f.2 = .uuid n.id := fun ⟨f, hf, hfn⟩ => hevents ev hev f hf hfn
      simp [concernsEvent_append_notification hne]
  rw [hview, hnotifications]
  split_ifs
  · rw [hkept]
    rfl
  · rfl

theorem view_insertAuditEntry {x : AuditEntryEntity} {t : Table AuditEntryEntity.id}
    (ht : w.auditEntries.insert x = some t) (jobId : Uuid) :
    ({ w with auditEntries := t } : World).view jobId =
      if concernsEntry jobId (w.view jobId).alerts (w.view jobId).incidents
          x.toCreateAuditEntryInput then
        { w.view jobId with auditEntries := (w.view jobId).auditEntries ++ [x] }
      else w.view jobId := by
  have hview : ({ w with auditEntries := t } : World).view jobId =
      { w.view jobId with
        auditEntries := t.rows.filter fun x =>
          concernsEntry jobId (w.view jobId).alerts (w.view jobId).incidents
            x.toCreateAuditEntryInput } := rfl
  rw [hview, (Table.insert_eq_some ht).1, filter_concat fun x : AuditEntryEntity =>
    concernsEntry jobId (w.view jobId).alerts (w.view jobId).incidents x.toCreateAuditEntryInput]
  split_ifs <;> rfl

theorem view_publish (ev : Event) (jobId : Uuid) :
    ({ w with events := w.events ++ [ev] } : World).view jobId =
      if concernsEvent jobId (w.view jobId).notifications (w.view jobId).incidents ev.payload then
        { w.view jobId with events := (w.view jobId).events ++ [ev] }
      else w.view jobId := by
  have hview : ({ w with events := w.events ++ [ev] } : World).view jobId =
      { w.view jobId with
        events := (w.events ++ [ev]).filter fun ev =>
          concernsEvent jobId (w.view jobId).notifications (w.view jobId).incidents
            ev.payload } := rfl
  rw [hview, filter_concat fun ev : Event =>
    concernsEvent jobId (w.view jobId).notifications (w.view jobId).incidents ev.payload]
  split_ifs <;> rfl

end Writes

/-! ## Calls of an execution -/

/-- A call that an execution of the job makes while it holds the lock, with the view it makes
it in : it is about the job, and names alerts, incidents, notifications and attempts of the
job only. -/
def Owns (jobId : Uuid) (v : JobView) : Op → Prop
  | .findJob id => id = jobId
  | .saveJob job => job.id = jobId
  | .insertAttempt c => c.jobId = jobId
  | .saveAttempt a => a.jobId = jobId ∧ ∃ b ∈ v.attempts, b.id = a.id
  | .insertAlert c => c.jobId = some jobId
  | .insertIncident c => ∃ a ∈ v.alerts, c.alertId = some a.id
  | .insertNotification c => concernsNotification jobId c
  | .insertAuditEntry c => concernsEntry jobId v.alerts v.incidents c
  | .publish _ payload => concernsEvent jobId v.notifications v.incidents payload ∧
      (∀ id, payload.lookup "jobId" = some (.uuid id) → id = jobId) ∧
      (∀ id, payload.lookup "notificationId" = some (.uuid id) →
        ∃ n ∈ v.notifications, n.id = id) ∧
      ∀ id, payload.lookup "incidentId" = some (.uuid id) → ∃ i ∈ v.incidents, i.id = id
  | .sleep _ | .now => True
  | _ => False

/-- What a call that goes through does to the view of its job, and its reply. -/
def JobView.perform (e : Env) (v : JobView) : (op : Op) → Option (op.Reply × JobView)
  | .findJob _ => some (v.row, v)
  | .saveJob job =>
    let row := { job with updatedAt := savedAt JobEntity.updatedAt e.now v.row job }
    some (row, { v with row := some row })
  | .insertAttempt c =>
    let row : ProcessingAttemptEntity := { c with id := e.uuid, createdAt := e.now }
    some (row, { v with attempts := v.attempts ++ [row] })
  | .saveAttempt a =>
    some (a, { v with attempts := v.attempts.map fun b => if b.id = a.id then a else b })
  | .insertAlert c =>
    let row : AlertEntity := { c with id := e.uuid, createdAt := e.now, updatedAt := e.now }
    some (row, { v with alerts := v.alerts ++ [row] })
  | .insertIncident c =>
    let row : IncidentEntity := { c with id := e.uuid, createdAt := e.now, updatedAt := e.now }
    some (row, { v with incidents := v.incidents ++ [row] })
  | .insertNotification c =>
    let row : NotificationEntity := { c with id := e.uuid, createdAt := e.now }
    some (row, { v with notifications := v.notifications ++ [row] })
  | .insertAuditEntry c =>
    let row : AuditEntryEntity := { c with id := e.uuid, createdAt := e.now }
    some (row, { v with auditEntries := v.auditEntries ++ [row] })
  | .publish topic payload => some ((), { v with events := v.events ++ [⟨topic, e.now, payload⟩] })
  | .sleep _ => some ((), v)
  | .now => some (e.now, v)
  | _ => none

/-- The calls for which the database generates an id. -/
def Op.generates : Op → Bool
  | .insertJob _ | .insertAttempt _ | .insertAlert _ | .insertIncident _ | .insertNotification _
  | .insertAuditEntry _ | .insertOperatorAction _ => true
  | _ => false

section Owned

variable {jobId : Uuid} {op : Op} {e : Env} {w w' : World} {reply : op.Reply}

/-- An owned call does to the view of its job what `JobView.perform` says. -/
theorem Owns.perform_view (h : Owns jobId (w.view jobId) op)
    (hnew : op.generates = true → ¬Mentions w e.uuid)
    (hp : perform e w op = some (reply, w')) :
    (w.view jobId).perform e op = some (reply, w'.view jobId) := by
  cases op with
  | findJob id =>
    cases hp
    rw [← h]
    rfl
  | saveJob job =>
    cases hp
    obtain rfl : job.id = jobId := h
    rw [(view_saveJob { job with
      updatedAt := savedAt JobEntity.updatedAt e.now (w.jobs.lookup job.id) job } job.id).trans
      (if_pos rfl)]
    rfl
  | insertAttempt c =>
    obtain ⟨-, t, ht, rfl, rfl⟩ := perform_insertAttempt hp
    rw [(view_insertAttempt ht jobId).trans (if_pos h)]
    rfl
  | saveAttempt a =>
    cases hp
    obtain ⟨hjob, b, hb, hid⟩ := h
    obtain ⟨hb, hbj⟩ := List.mem_filter.mp hb
    rw [view_saveAttempt hb hid ((of_decide_eq_true hbj).trans hjob.symm), if_pos hjob]
    rfl
  | insertAlert c =>
    obtain ⟨-, t, ht, rfl, rfl⟩ := perform_insertAlert hp
    rw [(view_insertAlert ht (hnew rfl) jobId).trans (if_pos h)]
    rfl
  | insertIncident c =>
    obtain ⟨-, t, ht, rfl, rfl⟩ := perform_insertIncident hp
    rw [(view_insertIncident ht (hnew rfl) jobId).trans (if_pos h)]
    rfl
  | insertNotification c =>
    obtain ⟨t, ht, rfl, rfl⟩ := perform_insertNotification hp
    rw [(view_insertNotification ht (hnew rfl) jobId).trans (if_pos h)]
    rfl
  | insertAuditEntry c =>
    obtain ⟨-, t, ht, rfl, rfl⟩ := perform_insertAuditEntry hp
    rw [(view_insertAuditEntry ht jobId).trans (if_pos h)]
    rfl
  | publish topic payload =>
    cases hp
    rw [(view_publish _ jobId).trans (if_pos h.1)]
    rfl
  | sleep ms =>
    cases hp
    rfl
  | now =>
    cases hp
    rfl
  | insertJob | findAttempts | findAlert | saveAlert | updateAlert | findIncident | saveIncident
  | insertOperatorAction | setNX | del | sendToQueue | ack | nack =>
    exact h.elim

end Owned

/-! ## Two jobs share nothing -/

section Disjoint

variable {w : World} {jobId k : Uuid}

theorem mem_alertsOf {a : AlertEntity} :
    a ∈ w.alertsOf jobId ↔ a ∈ w.alerts.rows ∧ a.jobId = some jobId := by
  simp [World.alertsOf]

theorem mem_incidentsOf {i : IncidentEntity} :
    i ∈ w.incidentsOf jobId ↔ i ∈ w.incidents.rows ∧ concernsIncident (w.alertsOf jobId) i := by
  simp [World.incidentsOf]

theorem mem_notificationsOf {n : NotificationEntity} :
    n ∈ w.notificationsOf jobId ↔
      n ∈ w.notifications.rows ∧ concernsNotification jobId n.toNotificationColumns := by
  simp [World.notificationsOf]

theorem alertsOf_disjoint {a b : AlertEntity} (ha : a ∈ w.alertsOf jobId) (hb : b ∈ w.alertsOf k)
    (hid : a.id = b.id) : jobId = k := by
  rw [mem_alertsOf] at ha hb
  obtain rfl := w.alerts.key_injOn ha.1 hb.1 hid
  exact Option.some.inj (ha.2.symm.trans hb.2)

theorem incidentsOf_disjoint {i i' : IncidentEntity} (hi : i ∈ w.incidentsOf jobId)
    (hi' : i' ∈ w.incidentsOf k) (hid : i.id = i'.id) : jobId = k := by
  rw [mem_incidentsOf] at hi hi'
  obtain rfl := w.incidents.key_injOn hi.1 hi'.1 hid
  obtain ⟨a, ha, hia⟩ := hi.2
  obtain ⟨b, hb, hib⟩ := hi'.2
  exact alertsOf_disjoint ha hb (Option.some.inj (hia.symm.trans hib))

theorem notificationsOf_disjoint {n n' : NotificationEntity} (hn : n ∈ w.notificationsOf jobId)
    (hn' : n' ∈ w.notificationsOf k) (hid : n.id = n'.id) : jobId = k := by
  rw [mem_notificationsOf] at hn hn'
  obtain rfl := w.notifications.key_injOn hn.1 hn'.1 hid
  exact Json.uuid.inj (Option.some.inj (hn.2.symm.trans hn'.2))

theorem concernsEntry_disjoint {x : CreateAuditEntryInput}
    (h : concernsEntry jobId (w.view jobId).alerts (w.view jobId).incidents x)
    (h' : concernsEntry k (w.view k).alerts (w.view k).incidents x) : jobId = k := by
  unfold concernsEntry at h h'
  split at h
  · rename_i hx
    rw [hx] at h'
    exact Option.some.inj (h.symm.trans h')
  · rename_i hx
    rw [hx] at h'
    obtain ⟨a, ha, hxa⟩ := h
    obtain ⟨b, hb, hxb⟩ := h'
    exact alertsOf_disjoint ha hb (Option.some.inj (hxa.symm.trans hxb))
  · rename_i hx
    rw [hx] at h'
    obtain ⟨i, hi, hxi⟩ := h
    obtain ⟨i', hi', hxi'⟩ := h'
    exact incidentsOf_disjoint hi hi' (Option.some.inj (hxi.symm.trans hxi'))
  all_goals exact h.elim

/-- An owned call leaves the view of every other job. -/
theorem Owns.view_other {op : Op} {e : Env} {w' : World} {reply : op.Reply}
    (h : Owns jobId (w.view jobId) op) (hnew : op.generates = true → ¬Mentions w e.uuid)
    (hp : perform e w op = some (reply, w')) (hne : jobId ≠ k) : w'.view k = w.view k := by
  cases op with
  | findJob | sleep | now =>
    cases hp
    rfl
  | saveJob job =>
    cases hp
    refine (view_saveJob _ k).trans (if_neg fun hk => hne ?_)
    exact Eq.trans (Eq.symm h) hk
  | insertAttempt c =>
    obtain ⟨-, t, ht, rfl, rfl⟩ := perform_insertAttempt hp
    exact (view_insertAttempt ht k).trans (if_neg fun hk => hne (Eq.trans (Eq.symm h) hk))
  | saveAttempt a =>
    cases hp
    obtain ⟨hjob, b, hb, hid⟩ := h
    obtain ⟨hb, hbj⟩ := List.mem_filter.mp hb
    refine (view_saveAttempt hb hid ((of_decide_eq_true hbj).trans hjob.symm) k).trans
      (if_neg fun hk => hne (hjob.symm.trans hk))
  | insertAlert c =>
    obtain ⟨-, t, ht, rfl, rfl⟩ := perform_insertAlert hp
    refine (view_insertAlert ht (hnew rfl) k).trans (if_neg fun hk => hne ?_)
    exact Option.some.inj (Eq.trans (Eq.symm h) hk)
  | insertIncident c =>
    obtain ⟨-, t, ht, rfl, rfl⟩ := perform_insertIncident hp
    refine (view_insertIncident ht (hnew rfl) k).trans (if_neg ?_)
    rintro ⟨b, hb, hcb⟩
    obtain ⟨a, ha, hca⟩ := h
    exact hne (alertsOf_disjoint ha hb (Option.some.inj (hca.symm.trans hcb)))
  | insertNotification c =>
    obtain ⟨t, ht, rfl, rfl⟩ := perform_insertNotification hp
    refine (view_insertNotification ht (hnew rfl) k).trans (if_neg fun hk => hne ?_)
    exact Json.uuid.inj (Option.some.inj (Eq.trans (Eq.symm h) hk))
  | insertAuditEntry c =>
    obtain ⟨-, t, ht, rfl, rfl⟩ := perform_insertAuditEntry hp
    exact (view_insertAuditEntry ht k).trans (if_neg fun hk => hne (concernsEntry_disjoint h hk))
  | publish topic payload =>
    cases hp
    obtain ⟨-, hjob, hnotification, hincident⟩ := h
    refine (view_publish _ k).trans (if_neg ?_)
    rintro (hk | ⟨n', hn', hk⟩ | ⟨i', hi', hk⟩)
    · exact hne (hjob k hk).symm
    · obtain ⟨n, hn, hid⟩ := hnotification _ hk
      exact hne (notificationsOf_disjoint hn hn' hid)
    · obtain ⟨i, hi, hid⟩ := hincident _ hk
      exact hne (incidentsOf_disjoint hi hi' hid)
  | insertJob | findAttempts | findAlert | saveAlert | updateAlert | findIncident | saveIncident
  | insertOperatorAction | setNX | del | sendToQueue | ack | nack =>
    exact h.elim

end Disjoint

/-! ## Smaller worlds -/

/-- Everything recorded in `u` is recorded in `w`. Attempts may have been saved over since. -/
structure Within (u w : World) : Prop where
  attempts : ∀ a ∈ u.attempts.rows, ∃ b ∈ w.attempts.rows, b.id = a.id
  alerts : u.alerts.rows ⊆ w.alerts.rows
  incidents : u.incidents.rows ⊆ w.incidents.rows
  notifications : u.notifications.rows ⊆ w.notifications.rows
  auditEntries : u.auditEntries.rows ⊆ w.auditEntries.rows
  events : u.events ⊆ w.events

theorem Within.refl (w : World) : Within w w :=
  ⟨fun a ha => ⟨a, ha, rfl⟩, List.Subset.refl _, List.Subset.refl _, List.Subset.refl _,
    List.Subset.refl _, List.Subset.refl _⟩

theorem Within.trans {u v w : World} (h : Within u v) (h' : Within v w) : Within u w where
  attempts a ha := by
    obtain ⟨b, hb, hba⟩ := h.attempts a ha
    obtain ⟨c, hc, hcb⟩ := h'.attempts b hb
    exact ⟨c, hc, hcb.trans hba⟩
  alerts := List.Subset.trans h.alerts h'.alerts
  incidents := List.Subset.trans h.incidents h'.incidents
  notifications := List.Subset.trans h.notifications h'.notifications
  auditEntries := List.Subset.trans h.auditEntries h'.auditEntries
  events := List.Subset.trans h.events h'.events

theorem Within.mentions {u w : World} (h : Within u w) {id : Uuid} (hm : Mentions u id) :
    Mentions w id := by
  obtain ⟨i, hi, hid⟩ | ⟨x, hx, hid⟩ | ⟨ev, hev, hid⟩ := hm
  · exact .inl ⟨i, h.incidents hi, hid⟩
  · exact .inr (.inl ⟨x, h.auditEntries hx, hid⟩)
  · exact .inr (.inr ⟨ev, h.events hev, hid⟩)

section Owned

variable {jobId : Uuid} {op : Op} {e : Env} {u u' w w' : World} {reply : op.Reply}

/-- An owned call writes rows and takes none away. -/
theorem Owns.within (h : Owns jobId (w.view jobId) op)
    (hp : perform e w op = some (reply, w')) : Within w w' := by
  cases op with
  | findJob | saveJob | sleep | now =>
    cases hp
    exact ⟨fun a ha => ⟨a, ha, rfl⟩, List.Subset.refl _, List.Subset.refl _, List.Subset.refl _,
      List.Subset.refl _, List.Subset.refl _⟩
  | insertAttempt c =>
    obtain ⟨-, t, ht, rfl, rfl⟩ := perform_insertAttempt hp
    exact { Within.refl w with
      attempts := fun a ha => ⟨a, (Table.mem_insert ht).mpr (.inl ha), rfl⟩ }
  | saveAttempt a =>
    cases hp
    refine { Within.refl w with attempts := fun b hb => ?_ }
    by_cases hba : b.id = a.id
    · exact ⟨a, Table.mem_save.mpr (.inl rfl), hba.symm⟩
    · exact ⟨b, Table.mem_save.mpr (.inr ⟨hb, hba⟩), rfl⟩
  | insertAlert c =>
    obtain ⟨-, t, ht, rfl, rfl⟩ := perform_insertAlert hp
    exact { Within.refl w with alerts := fun a ha => (Table.mem_insert ht).mpr (.inl ha) }
  | insertIncident c =>
    obtain ⟨-, t, ht, rfl, rfl⟩ := perform_insertIncident hp
    exact { Within.refl w with incidents := fun i hi => (Table.mem_insert ht).mpr (.inl hi) }
  | insertNotification c =>
    obtain ⟨t, ht, rfl, rfl⟩ := perform_insertNotification hp
    exact { Within.refl w with notifications := fun n hn => (Table.mem_insert ht).mpr (.inl hn) }
  | insertAuditEntry c =>
    obtain ⟨-, t, ht, rfl, rfl⟩ := perform_insertAuditEntry hp
    exact { Within.refl w with auditEntries := fun x hx => (Table.mem_insert ht).mpr (.inl hx) }
  | publish topic payload =>
    cases hp
    exact { Within.refl w with events := List.subset_append_left _ _ }
  | insertJob | findAttempts | findAlert | saveAlert | updateAlert | findIncident | saveIncident
  | insertOperatorAction | setNX | del | sendToQueue | ack | nack =>
    exact h.elim

/-- The attempt of a job goes through in a smaller world with the same row and attempts. -/
theorem Within.insertAttempt (hw : Within u w) {c : AttemptColumns}
    {row : ProcessingAttemptEntity} (hrow : u.jobs.lookup c.jobId = w.jobs.lookup c.jobId)
    (hattempts : ∀ a ∈ u.attempts.rows, a.jobId = c.jobId → a ∈ w.attempts.rows)
    (hp : perform e w (.insertAttempt c) = some (row, w')) :
    ∃ u', perform e u (.insertAttempt c) = some (row, u') ∧ Within u' w' := by
  obtain ⟨⟨hjob, hfree⟩, t, ht, rfl, rfl⟩ := perform_insertAttempt hp
  obtain ⟨t', ht'⟩ := Table.exists_insert (t := u.attempts)
    (a := { c with id := e.uuid, createdAt := e.now }) fun b hb hid => by
      obtain ⟨b', hb', hb'b⟩ := hw.attempts b hb
      exact (Table.insert_eq_some ht).2 b' hb' (hb'b.trans hid)
  refine ⟨{ u with attempts := t' }, ?_, { hw with attempts := fun b hb => ?_ }⟩
  · rw [perform, if_pos ⟨hrow ▸ hjob, fun a ha haj => hfree a (hattempts a ha haj) haj⟩, ht']
    rfl
  · rcases (Table.mem_insert ht').mp hb with hb | rfl
    · obtain ⟨b', hb', hb'b⟩ := hw.attempts b hb
      exact ⟨b', (Table.mem_insert ht).mpr (.inl hb'), hb'b⟩
    · exact ⟨_, (Table.mem_insert ht).mpr (.inr rfl), rfl⟩

/-- The incident of an alert the smaller world has too goes through there. -/
theorem Within.insertIncident (hw : Within u w) {c : IncidentColumns} {row : IncidentEntity}
    {a : AlertEntity} (ha : a ∈ u.alerts.rows) (hca : c.alertId = some a.id)
    (hp : perform e w (.insertIncident c) = some (row, w')) :
    ∃ u', perform e u (.insertIncident c) = some (row, u') ∧ Within u' w' := by
  obtain ⟨⟨halert, hfits⟩, t, ht, rfl, rfl⟩ := perform_insertIncident hp
  obtain ⟨t', ht', hsub⟩ := Table.exists_insert_of_subset hw.incidents ht
  have halert' : ∀ id, c.alertId = some id →
      (u.alerts.lookup id).isSome ∧ ∀ i ∈ u.incidents.rows, i.alertId ≠ some id := by
    intro id hid
    obtain rfl : a.id = id := Option.some.inj (hca.symm.trans hid)
    refine ⟨?_, fun i hi => (halert a.id hid).2 i (hw.incidents hi)⟩
    rw [Table.lookup_of_mem ha]
    rfl
  refine ⟨{ u with incidents := t' }, ?_, { hw with incidents := hsub }⟩
  rw [perform, if_pos ⟨halert', hfits⟩, ht']
  rfl

/-- An owned call goes through in a smaller world with the same view, with the same reply. -/
theorem Within.follow (hw : Within u w) (hview : u.view jobId = w.view jobId)
    (h : Owns jobId (w.view jobId) op) (hp : perform e w op = some (reply, w')) :
    ∃ u', perform e u op = some (reply, u') ∧ Within u' w' := by
  have hrow : u.jobs.lookup jobId = w.jobs.lookup jobId := congrArg JobView.row hview
  have halerts : u.alertsOf jobId = w.alertsOf jobId := congrArg JobView.alerts hview
  cases op with
  | findJob id =>
    cases hp
    refine ⟨u, ?_, hw⟩
    rw [perform, show id = jobId from h, hrow]
  | saveJob job =>
    cases hp
    obtain rfl : job.id = jobId := h
    refine ⟨{ u with jobs := u.jobs.save { job with
      updatedAt := savedAt JobEntity.updatedAt e.now (w.jobs.lookup job.id) job } }, ?_,
      { hw with }⟩
    rw [perform, hrow]
  | insertAttempt c =>
    have hid : c.jobId = jobId := h
    have hattempts : (u.view jobId).attempts = (w.view jobId).attempts := by rw [hview]
    refine hw.insertAttempt (hid ▸ hrow) (fun a ha haj => ?_) hp
    have hmem : a ∈ (w.view jobId).attempts := by
      rw [← hattempts]
      exact List.mem_filter.mpr ⟨ha, decide_eq_true (haj.trans hid)⟩
    exact (List.mem_filter.mp hmem).1
  | saveAttempt a =>
    cases hp
    refine ⟨_, rfl, { hw with attempts := fun b hb => ?_ }⟩
    rcases Table.mem_save.mp hb with rfl | ⟨hb, hba⟩
    · exact ⟨b, Table.mem_save.mpr (.inl rfl), rfl⟩
    · obtain ⟨b', hb', hb'b⟩ := hw.attempts b hb
      exact ⟨b', Table.mem_save.mpr (.inr ⟨hb', fun h => hba (hb'b.symm.trans h)⟩), hb'b⟩
  | insertAlert c =>
    obtain ⟨⟨hjob, hfits⟩, t, ht, rfl, rfl⟩ := perform_insertAlert hp
    obtain ⟨t', ht', hsub⟩ := Table.exists_insert_of_subset hw.alerts ht
    have hjob' : ∀ id, c.jobId = some id → (u.jobs.lookup id).isSome := by
      intro id hid
      obtain rfl : jobId = id := Option.some.inj (Eq.trans (Eq.symm h) hid)
      rw [hrow]
      exact hjob jobId hid
    refine ⟨{ u with alerts := t' }, ?_, { hw with alerts := hsub }⟩
    rw [perform, if_pos ⟨hjob', hfits⟩, ht']
    rfl
  | insertIncident c =>
    obtain ⟨a, ha, hca⟩ := h
    have hau : a ∈ u.alertsOf jobId := halerts ▸ ha
    exact hw.insertIncident (mem_alertsOf.mp hau).1 hca hp
  | insertNotification c =>
    obtain ⟨t, ht, rfl, rfl⟩ := perform_insertNotification hp
    obtain ⟨t', ht', hsub⟩ := Table.exists_insert_of_subset hw.notifications ht
    refine ⟨{ u with notifications := t' }, ?_, { hw with notifications := hsub }⟩
    rw [perform, ht']
    rfl
  | insertAuditEntry c =>
    obtain ⟨hfits, t, ht, rfl, rfl⟩ := perform_insertAuditEntry hp
    obtain ⟨t', ht', hsub⟩ := Table.exists_insert_of_subset hw.auditEntries ht
    refine ⟨{ u with auditEntries := t' }, ?_, { hw with auditEntries := hsub }⟩
    rw [perform, if_pos hfits, ht']
    rfl
  | publish topic payload =>
    cases hp
    refine ⟨_, rfl, { hw with events := ?_ }⟩
    intro ev hev
    exact List.mem_append.mpr ((List.mem_append.mp hev).imp_left (hw.events ·))
  | sleep | now =>
    cases hp
    exact ⟨u, rfl, hw⟩
  | insertJob | findAttempts | findAlert | saveAlert | updateAlert | findIncident | saveIncident
  | insertOperatorAction | setNX | del | sendToQueue | ack | nack =>
    exact h.elim

end Owned

/-! ## Agreement on a job -/

theorem perform_locks {op : Op} {e : Env} {w w' : World} {reply : op.Reply}
    (hop : op.redis = false) (hp : perform e w op = some (reply, w')) : w'.locks = w.locks := by
  cases op <;> simp only [Op.redis, Bool.true_eq_false] at hop <;>
    simp only [perform, Option.ite_none_right_eq_some, Option.map_eq_some_iff, Prod.mk.injEq,
      Option.some.injEq] at hp <;> grind

theorem Owns.redis {jobId : Uuid} {v : JobView} {op : Op} (h : Owns jobId v op) :
    op.redis = false := by
  cases op <;> first | rfl | exact h.elim

/-- The worlds record the same about the job, and `u` records nothing that `w` does not. -/
structure Agree (jobId : Uuid) (u w : World) : Prop where
  view : u.view jobId = w.view jobId
  lock : u.locks.lookup (lockKey jobId) = w.locks.lookup (lockKey jobId)
  within : Within u w

theorem Agree.refl (jobId : Uuid) (w : World) : Agree jobId w w :=
  ⟨rfl, rfl, .refl w⟩

section Agree

variable {jobId k : Uuid} {op : Op} {e : Env} {u w w' : World} {reply : op.Reply}

/-- An owned call has the same reply in both worlds, and they still agree. -/
theorem Agree.own (h : Agree jobId u w) (ho : Owns jobId (w.view jobId) op)
    (hnew : op.generates = true → ¬Mentions w e.uuid) (hh : handle e op w = (.ok reply, w')) :
    ∃ u', handle e op u = (.ok reply, u') ∧ Agree jobId u' w' := by
  obtain ⟨hp, hres⟩ := handle_eq_ok hh
  have hou : Owns jobId (u.view jobId) op := by
    rw [h.view]
    exact ho
  obtain ⟨u', hpu, hwithin⟩ := Within.follow (u := { u with clock := e.now })
    (w := { w with clock := e.now }) { h.within with } h.view ho hp
  have hvu := Owns.perform_view (w := { u with clock := e.now }) hou
    (fun hg hm => hnew hg (h.within.mentions hm)) hpu
  have hvw := Owns.perform_view (w := { w with clock := e.now }) ho hnew hp
  change (u.view jobId).perform e op = _ at hvu
  change (w.view jobId).perform e op = _ at hvw
  rw [h.view, hvw] at hvu
  refine ⟨u', handle_of_perform hpu hres, ?_, ?_, hwithin⟩
  · exact (Prod.mk.inj (Option.some.inj hvu)).2.symm
  · rw [perform_locks ho.redis hpu, perform_locks ho.redis hp]
    exact h.lock

/-- A call that another job owns changes nothing the worlds agree on. -/
theorem Agree.other (h : Agree k u w) (ho : Owns jobId (w.view jobId) op)
    (hnew : op.generates = true → ¬Mentions w e.uuid) (hh : handle e op w = (.ok reply, w'))
    (hne : jobId ≠ k) : Agree k u w' := by
  obtain ⟨hp, -⟩ := handle_eq_ok hh
  have hother : w'.view k = w.view k :=
    Owns.view_other (w := { w with clock := e.now }) ho hnew hp hne
  refine ⟨h.view.trans hother.symm, ?_, ?_⟩
  · rw [perform_locks ho.redis hp]
    exact h.lock
  · have hgrows : Within w w' := { Owns.within (w := { w with clock := e.now }) ho hp with }
    exact h.within.trans hgrows

/-- The keys of both worlds change, the same way for the job. -/
theorem Agree.locks (h : Agree jobId u w) {t t' : Table RedisLock.key} {now : Date}
    (ht : t.lookup (lockKey jobId) = t'.lookup (lockKey jobId)) :
    Agree jobId { u with clock := now, locks := t } { w with clock := now, locks := t' } :=
  ⟨h.view, ht, { h.within with }⟩

end Agree

end RealtimeOps
