import Mathlib.Data.List.Sort
import RealtimeOps.Entities
import RealtimeOps.Interleaving.Prog
import RealtimeOps.Interleaving.Table

/-!
# PostgreSQL, Redis and RabbitMQ

`World` is what the services share : the tables, the Redis keys, the `jobs.processing`
queue and the events published so far. `Op` lists the calls the services await, and
`perform` says what each does to the world when it goes through. A call that would break
a constraint of the schema does nothing and is refused (`none`) : a taken id, a second
attempt with the same number, a dangling foreign key, a text too long for its column.

`handle` adds the environment's choice `Env` : the time of the call, the uuid the
database generates, and whether the call resolves or rejects. A call can reject before
it has done anything or after its effect has been applied. Reading the clock, the
worker's pause and the settling of a message are not calls to another system; they never
reject.

`repository.save` of a loaded entity writes all its columns in one step, and `savedAt` as its
`updatedAt`. The texts of a saved entity are those it was loaded with, so their lengths are not
checked again, but for who acknowledged or resolved it. An alert is loaded with the incident linked
to it, and to save it is to set that link too : TypeORM keeps both sides of the relation in step
with the side it is given (`World.relate`). No other save writes a second table.

The payload of a job is a `jsonb` column. The entity that its insertion resolves with still has the
infinities of the request in memory, but it is only looked at to print it, where they are `null` :
the model's has what is stored.
-/

set_option autoImplicit false

namespace RealtimeOps

open Interleaving

/-! ## The world -/

/-- A Redis key set with `EX`, and the time its TTL runs out. The value is `'1'` for
every holder. -/
structure RedisLock where
  key : String
  expiresAt : Date
  deriving DecidableEq

/-- A message handed to a consumer that has not settled it. -/
structure Delivery where
  tag : ℕ
  message : Message
  deriving DecidableEq

/-- The state the services share. -/
structure World where
  jobs : Table JobEntity.id
  attempts : Table ProcessingAttemptEntity.id
  alerts : Table AlertEntity.id
  incidents : Table IncidentEntity.id
  notifications : Table NotificationEntity.id
  operatorActions : Table OperatorActionEntity.id
  auditEntries : Table AuditEntryEntity.id
  locks : Table RedisLock.key
  /-- Messages of `jobs.processing` waiting for a consumer. -/
  ready : List Message
  unacked : List Delivery
  /-- The next delivery tag of the broker. -/
  nextTag : ℕ
  /-- Everything published on `ops.events`, in order. -/
  events : List Event
  clock : Date

/-- Empty tables, no key, no message. -/
def World.empty : World where
  jobs := .empty
  attempts := .empty
  alerts := .empty
  incidents := .empty
  notifications := .empty
  operatorActions := .empty
  auditEntries := .empty
  locks := .empty
  ready := []
  unacked := []
  nextTag := 0
  events := []
  clock := 0

/-! ## Calls -/

/-- The calls the services await. -/
inductive Op where
  | findJob (id : Uuid)
  | insertJob (columns : JobColumns)
  | saveJob (job : JobEntity)
  /-- `find` with `order: { attemptNumber: 'DESC' }`. -/
  | findAttempts (jobId : Uuid)
  | insertAttempt (columns : AttemptColumns)
  | saveAttempt (attempt : ProcessingAttemptEntity)
  | insertAlert (columns : AlertColumns)
  /-- `findOne` with `relations: { incident: true }`. -/
  | findAlert (id : Uuid)
  /-- `save` of an alert and the incident it was loaded with. -/
  | saveAlert (alert : AlertEntity) (incident : Option IncidentEntity)
  /-- `update({ id }, changes)`. -/
  | updateAlert (id : Uuid) (changes : AlertUpdate)
  | insertIncident (columns : IncidentColumns)
  | findIncident (id : Uuid)
  | saveIncident (incident : IncidentEntity)
  | insertNotification (columns : NotificationColumns)
  | insertAuditEntry (columns : CreateAuditEntryInput)
  | insertOperatorAction (columns : OperatorActionColumns)
  /-- `SET key 1 EX ttlSeconds NX`. -/
  | setNX (key : String) (ttlSeconds : ℕ)
  | del (key : String)
  /-- `sendToQueue` on `jobs.processing`. -/
  | sendToQueue (message : Message)
  | publish (topic : String) (payload : Record)
  | ack (tag : ℕ)
  /-- `nack` without requeueing : no dead-letter exchange is configured. -/
  | nack (tag : ℕ)
  | sleep (ms : ℕ)
  /-- `new Date()`. -/
  | now
  deriving DecidableEq

/-- What a call resolves with. `setNX` gives whether Redis answered `OK`. -/
abbrev Op.Reply : Op → Type
  | findJob _ => Option JobEntity
  | insertJob _ => JobEntity
  | saveJob _ => JobEntity
  | findAttempts _ => List ProcessingAttemptEntity
  | insertAttempt _ => ProcessingAttemptEntity
  | saveAttempt _ => ProcessingAttemptEntity
  | insertAlert _ => AlertEntity
  | findAlert _ => Option (AlertEntity × Option IncidentEntity)
  | saveAlert _ _ => AlertEntity
  | updateAlert _ _ => Unit
  | insertIncident _ => IncidentEntity
  | findIncident _ => Option IncidentEntity
  | saveIncident _ => IncidentEntity
  | insertNotification _ => NotificationEntity
  | insertAuditEntry _ => AuditEntryEntity
  | insertOperatorAction _ => OperatorActionEntity
  | setNX _ _ => Bool
  | del _ => Unit
  | sendToQueue _ => Unit
  | publish _ _ => Unit
  | ack _ => Unit
  | nack _ => Unit
  | sleep _ => Unit
  | now => Date

/-- The steps that are not calls to another system. -/
def Op.local : Op → Bool
  | ack _ | nack _ | sleep _ | now => true
  | _ => false

/-- The job a call reads. -/
def Op.finds : Op → Option Uuid
  | findJob id => some id
  | _ => none

/-- The job a call saves. -/
def Op.saves : Op → Option JobEntity
  | saveJob job => some job
  | _ => none

/-- The message a call sends. -/
def Op.sends : Op → Option Message
  | sendToQueue message => some message
  | _ => none

/-- The key a call deletes. -/
def Op.deletes : Op → Option String
  | del key => some key
  | _ => none

/-- A call of Redis. -/
def Op.redis : Op → Bool
  | setNX _ _ | del _ => true
  | _ => false

/-- A call that inserts no job, takes no lock and gives none back. -/
def Op.routine : Op → Bool
  | insertJob _ | setNX _ _ | del _ => false
  | _ => true

theorem Op.redis_of_routine {op : Op} (h : op.routine = true) : op.redis = false := by
  cases op with
  | setNX _ _ | del _ => cases h
  | _ => rfl

/-- Why a promise rejects. -/
inductive Failure where
  /-- A call to PostgreSQL, Redis or RabbitMQ was rejected. -/
  | rejected
  | badRequest (message : String)
  | notFound (message : String)
  /-- `JSON.parse` of a message threw. -/
  | malformed
  /-- The process running the code died. -/
  | stopped
  deriving DecidableEq

/-- The calls, as a signature for programs. -/
abbrev infrastructure : Signature :=
  ⟨Op, Op.Reply⟩

/-- An `async` function that resolves with an `α`. -/
abbrev Promise (α : Type) := Prog infrastructure Failure α

/-- `await` one call. -/
abbrev await (op : Op) : Promise op.Reply :=
  Prog.await (S := infrastructure) op

/-- Whether a call goes through. -/
inductive Outcome where
  | resolves
  | rejects
  | rejectsAfterEffect
  deriving DecidableEq

/-- What the environment chooses at a call : its time, the id the database generates,
and whether it goes through. -/
structure Env where
  now : Date
  uuid : Uuid
  outcome : Outcome
  deriving DecidableEq

/-! ## What a call does -/

/-- A text fits a `character varying(n)` column. -/
def fits (text : String) (n : ℕ) : Prop :=
  text.length ≤ n

instance (text : String) (n : ℕ) : Decidable (fits text n) :=
  inferInstanceAs (Decidable (_ ≤ _))

/-- The attempts of a job, latest first. -/
def attemptsOf (jobId : Uuid) (t : Table ProcessingAttemptEntity.id) :
    List ProcessingAttemptEntity :=
  (t.rows.filter fun a => a.jobId = jobId).insertionSort
    fun a b => b.attemptNumber ≤ a.attemptNumber

/-- The alert with the columns of an update set. -/
def AlertUpdate.apply (changes : AlertUpdate) (now : Date) (alert : AlertEntity) : AlertEntity :=
  { alert with
    status := changes.status
    acknowledgedBy := changes.acknowledgedBy <|> alert.acknowledgedBy
    acknowledgedAt := changes.acknowledgedAt <|> alert.acknowledgedAt
    resolvedBy := changes.resolvedBy <|> alert.resolvedBy
    resolvedAt := changes.resolvedAt <|> alert.resolvedAt
    updatedAt := now }

/-- The operators named by `acknowledgedBy` and `resolvedBy` fit their columns. -/
def operatorsFit (acknowledgedBy resolvedBy : Option String) : Prop :=
  fits (acknowledgedBy.getD "") 80 ∧ fits (resolvedBy.getD "") 80

instance (acknowledgedBy resolvedBy : Option String) :
    Decidable (operatorsFit acknowledgedBy resolvedBy) :=
  inferInstanceAs (Decidable (_ ∧ _))

/-- The `updatedAt` of the row that a save of `entity` leaves. TypeORM writes the columns in which
the entity differs from the stored row. With another `updatedAt` that is one of them; else the
database sets it to the time of the save, unless nothing is written. -/
def savedAt {Entity : Type} [DecidableEq Entity] (updatedAt : Entity → Date) (now : Date)
    (stored : Option Entity) (entity : Entity) : Date :=
  if stored.any fun row => updatedAt row = updatedAt entity ∧ row ≠ entity then now
  else updatedAt entity

/-- A save over a row with the same `updatedAt` writes nothing exactly if nothing differs. -/
theorem savedAt_of_eq {Entity : Type} [DecidableEq Entity] {updatedAt : Entity → Date} {now : Date}
    {stored entity : Entity} (h : updatedAt stored = updatedAt entity) :
    savedAt updatedAt now (some stored) entity =
      if stored = entity then updatedAt entity else now := by
  by_cases hsame : stored = entity <;> simp [savedAt, h, hsame]

theorem IncidentEntity.saved_eq_iff {now : Date} {stored incident : IncidentEntity}
    (h : stored.updatedAt = incident.updatedAt) :
    { incident with
      updatedAt := savedAt IncidentEntity.updatedAt now (some stored) incident } = stored ↔
        incident = stored := by
  rw [savedAt_of_eq h]
  split_ifs with hsame
  · exact Iff.rfl
  · refine ⟨fun heq => ?_, fun heq => absurd heq.symm hsame⟩
    subst heq
    cases h
    rfl

namespace World

/-- The incident linked to an alert. -/
def incidentOf (w : World) (alertId : Uuid) : Option IncidentEntity :=
  w.incidents.rows.find? fun i => i.alertId = some alertId

/-- What the schema asks of a new link : the alert is there, and no incident is linked to it. -/
def Linkable (w : World) (alertId : Option Uuid) : Prop :=
  ∀ id, alertId = some id →
    (w.alerts.lookup id).isSome ∧ ∀ i ∈ w.incidents.rows, i.alertId ≠ some id

instance (w : World) (alertId : Option Uuid) : Decidable (w.Linkable alertId) :=
  inferInstanceAs (Decidable (∀ id, alertId = some id → _))

/-- `UPDATE incidents SET "alertId" = ? WHERE id = ?`. -/
def setAlert (w : World) (now : Date) (incidentId : Uuid) (alertId : Option Uuid) :
    Option (Table IncidentEntity.id) :=
  match w.incidents.lookup incidentId with
  | none => some w.incidents
  | some row =>
    if w.Linkable alertId then
      some (w.incidents.save { row with alertId, updatedAt := now })
    else none

/-- What the save of an alert writes of its relation. The linked incident loses its link if the
alert was loaded with none; an incident that the alert was loaded with and that is not linked to it
gets the link. -/
def relate (w : World) (now : Date) (alertId : Uuid) (incident : Option IncidentEntity) :
    Option (Table IncidentEntity.id) :=
  match (w.incidentOf alertId).map (·.id), incident.map (·.id) with
  | none, none => some w.incidents
  | some linked, none => w.setAlert now linked none
  | linked, some loaded =>
    if linked = some loaded then some w.incidents else w.setAlert now loaded (some alertId)

end World

/-- The effect of a call that goes through; `none` if the database refuses it. -/
def perform (e : Env) (w : World) : (op : Op) → Option (op.Reply × World)
  | .findJob id => some (w.jobs.lookup id, w)
  | .insertJob c =>
    let row : JobEntity := { c.stored with id := e.uuid, createdAt := e.now, updatedAt := e.now }
    if fits c.name 80 ∧ fits c.type 40 then
      (w.jobs.insert row).map fun t => (row, { w with jobs := t })
    else none
  | .saveJob job =>
    let row :=
      { job with updatedAt := savedAt JobEntity.updatedAt e.now (w.jobs.lookup job.id) job }
    some (row, { w with jobs := w.jobs.save row })
  | .findAttempts jobId => some (attemptsOf jobId w.attempts, w)
  | .insertAttempt c =>
    let row : ProcessingAttemptEntity := { c with id := e.uuid, createdAt := e.now }
    if (w.jobs.lookup c.jobId).isSome ∧
        ∀ a ∈ w.attempts.rows, a.jobId = c.jobId → a.attemptNumber ≠ c.attemptNumber then
      (w.attempts.insert row).map fun t => (row, { w with attempts := t })
    else none
  | .saveAttempt attempt => some (attempt, { w with attempts := w.attempts.save attempt })
  | .insertAlert c =>
    let row : AlertEntity := { c with id := e.uuid, createdAt := e.now, updatedAt := e.now }
    if (∀ id, c.jobId = some id → (w.jobs.lookup id).isSome) ∧ fits c.source 30 ∧
        fits c.title 120 then
      (w.alerts.insert row).map fun t => (row, { w with alerts := t })
    else none
  | .findAlert id =>
    some ((w.alerts.lookup id).map fun alert => (alert, w.incidentOf alert.id), w)
  | .saveAlert alert incident =>
    let row :=
      { alert with
        updatedAt := savedAt AlertEntity.updatedAt e.now (w.alerts.lookup alert.id) alert }
    if operatorsFit alert.acknowledgedBy alert.resolvedBy then
      (w.relate e.now alert.id incident).map fun incidents =>
        (row, { w with alerts := w.alerts.save row, incidents })
    else none
  | .updateAlert id changes =>
    match w.alerts.lookup id with
    | none => some ((), w)
    | some alert =>
      if operatorsFit changes.acknowledgedBy changes.resolvedBy then
        some ((), { w with alerts := w.alerts.save (changes.apply e.now alert) })
      else none
  | .insertIncident c =>
    let row : IncidentEntity := { c with id := e.uuid, createdAt := e.now, updatedAt := e.now }
    if w.Linkable c.alertId ∧ fits c.title 140 then
      (w.incidents.insert row).map fun t => (row, { w with incidents := t })
    else none
  | .findIncident id => some (w.incidents.lookup id, w)
  | .saveIncident incident =>
    let stored := w.incidents.lookup incident.id
    let row :=
      { incident with updatedAt := savedAt IncidentEntity.updatedAt e.now stored incident }
    if operatorsFit incident.acknowledgedBy incident.resolvedBy ∧
        ∀ row ∈ stored, row.alertId = incident.alertId ∨ w.Linkable incident.alertId then
      some (row, { w with incidents := w.incidents.save row })
    else none
  | .insertNotification c =>
    let row : NotificationEntity := { c with id := e.uuid, createdAt := e.now }
    (w.notifications.insert row).map fun t => (row, { w with notifications := t })
  | .insertAuditEntry c =>
    let row : AuditEntryEntity := { c with id := e.uuid, createdAt := e.now }
    if fits (c.actorId.getD "") 80 ∧ fits c.action 100 then
      (w.auditEntries.insert row).map fun t => (row, { w with auditEntries := t })
    else none
  | .insertOperatorAction c =>
    let row : OperatorActionEntity := { c with id := e.uuid, createdAt := e.now }
    if fits c.operatorId 80 ∧ fits c.action 80 then
      (w.operatorActions.insert row).map fun t => (row, { w with operatorActions := t })
    else none
  | .setNX key ttlSeconds =>
    match w.locks.insert ⟨key, e.now + 1000 * ttlSeconds⟩ with
    | some t => some (true, { w with locks := t })
    | none => some (false, w)
  | .del key => some ((), { w with locks := w.locks.erase key })
  | .sendToQueue m => some ((), { w with ready := w.ready ++ [m] })
  | .publish topic payload => some ((), { w with events := w.events ++ [⟨topic, e.now, payload⟩] })
  | .ack tag => some ((), { w with unacked := w.unacked.filter fun d => d.tag ≠ tag })
  | .nack tag => some ((), { w with unacked := w.unacked.filter fun d => d.tag ≠ tag })
  | .sleep _ => some ((), w)
  | .now => some (e.now, w)

/-! ## Insertions that go through -/

section Insertions

variable {e : Env} {w w' : World}

theorem perform_insertJob {c : JobColumns} {row : JobEntity}
    (h : perform e w (.insertJob c) = some (row, w')) :
    (fits c.name 80 ∧ fits c.type 40) ∧
    ∃ t, w.jobs.insert
        { c.stored with id := e.uuid, createdAt := e.now, updatedAt := e.now } = some t ∧
      { c.stored with id := e.uuid, createdAt := e.now, updatedAt := e.now } = row ∧
      { w with jobs := t } = w' := by
  simpa only [perform, Option.ite_none_right_eq_some, Option.map_eq_some_iff, Prod.mk.injEq] using h

theorem perform_insertAttempt {c : AttemptColumns} {row : ProcessingAttemptEntity}
    (h : perform e w (.insertAttempt c) = some (row, w')) :
    ((w.jobs.lookup c.jobId).isSome ∧
      ∀ a ∈ w.attempts.rows, a.jobId = c.jobId → a.attemptNumber ≠ c.attemptNumber) ∧
    ∃ t, w.attempts.insert { c with id := e.uuid, createdAt := e.now } = some t ∧
      { c with id := e.uuid, createdAt := e.now } = row ∧
      { w with attempts := t } = w' := by
  simpa only [perform, Option.ite_none_right_eq_some, Option.map_eq_some_iff, Prod.mk.injEq] using h

theorem perform_insertAlert {c : AlertColumns} {row : AlertEntity}
    (h : perform e w (.insertAlert c) = some (row, w')) :
    ((∀ id, c.jobId = some id → (w.jobs.lookup id).isSome) ∧ fits c.source 30 ∧
      fits c.title 120) ∧
    ∃ t, w.alerts.insert { c with id := e.uuid, createdAt := e.now, updatedAt := e.now } = some t ∧
      { c with id := e.uuid, createdAt := e.now, updatedAt := e.now } = row ∧
      { w with alerts := t } = w' := by
  simpa only [perform, Option.ite_none_right_eq_some, Option.map_eq_some_iff, Prod.mk.injEq] using h

theorem perform_insertIncident {c : IncidentColumns} {row : IncidentEntity}
    (h : perform e w (.insertIncident c) = some (row, w')) :
    (w.Linkable c.alertId ∧ fits c.title 140) ∧
    ∃ t, w.incidents.insert
        { c with id := e.uuid, createdAt := e.now, updatedAt := e.now } = some t ∧
      { c with id := e.uuid, createdAt := e.now, updatedAt := e.now } = row ∧
      { w with incidents := t } = w' := by
  simpa only [perform, Option.ite_none_right_eq_some, Option.map_eq_some_iff, Prod.mk.injEq] using h

theorem perform_insertNotification {c : NotificationColumns} {row : NotificationEntity}
    (h : perform e w (.insertNotification c) = some (row, w')) :
    ∃ t, w.notifications.insert { c with id := e.uuid, createdAt := e.now } = some t ∧
      { c with id := e.uuid, createdAt := e.now } = row ∧
      { w with notifications := t } = w' := by
  simpa only [perform, Option.map_eq_some_iff, Prod.mk.injEq] using h

theorem perform_insertAuditEntry {c : CreateAuditEntryInput} {row : AuditEntryEntity}
    (h : perform e w (.insertAuditEntry c) = some (row, w')) :
    (fits (c.actorId.getD "") 80 ∧ fits c.action 100) ∧
    ∃ t, w.auditEntries.insert { c with id := e.uuid, createdAt := e.now } = some t ∧
      { c with id := e.uuid, createdAt := e.now } = row ∧
      { w with auditEntries := t } = w' := by
  simpa only [perform, Option.ite_none_right_eq_some, Option.map_eq_some_iff, Prod.mk.injEq] using h

theorem perform_insertOperatorAction {c : OperatorActionColumns} {row : OperatorActionEntity}
    (h : perform e w (.insertOperatorAction c) = some (row, w')) :
    (fits c.operatorId 80 ∧ fits c.action 80) ∧
    ∃ t, w.operatorActions.insert { c with id := e.uuid, createdAt := e.now } = some t ∧
      { c with id := e.uuid, createdAt := e.now } = row ∧
      { w with operatorActions := t } = w' := by
  simpa only [perform, Option.ite_none_right_eq_some, Option.map_eq_some_iff, Prod.mk.injEq] using h

/-! An insertion goes through exactly if the constraints on its columns hold and its id is
free. -/

theorem exists_perform_insertAttempt {c : AttemptColumns} :
    (∃ res, perform e w (.insertAttempt c) = some res) ↔
      ((w.jobs.lookup c.jobId).isSome ∧
        ∀ a ∈ w.attempts.rows, a.jobId = c.jobId → a.attemptNumber ≠ c.attemptNumber) ∧
      ∀ a ∈ w.attempts.rows, a.id ≠ e.uuid :=
  Table.exists_guarded_insert_iff

theorem exists_perform_insertAlert {c : AlertColumns} :
    (∃ res, perform e w (.insertAlert c) = some res) ↔
      ((∀ id, c.jobId = some id → (w.jobs.lookup id).isSome) ∧ fits c.source 30 ∧
        fits c.title 120) ∧
      ∀ a ∈ w.alerts.rows, a.id ≠ e.uuid :=
  Table.exists_guarded_insert_iff

theorem exists_perform_insertIncident {c : IncidentColumns} :
    (∃ res, perform e w (.insertIncident c) = some res) ↔
      (w.Linkable c.alertId ∧ fits c.title 140) ∧ ∀ i ∈ w.incidents.rows, i.id ≠ e.uuid :=
  Table.exists_guarded_insert_iff

theorem exists_perform_insertAuditEntry {c : CreateAuditEntryInput} :
    (∃ res, perform e w (.insertAuditEntry c) = some res) ↔
      (fits (c.actorId.getD "") 80 ∧ fits c.action 100) ∧
      ∀ a ∈ w.auditEntries.rows, a.id ≠ e.uuid :=
  Table.exists_guarded_insert_iff

theorem exists_perform_insertOperatorAction {c : OperatorActionColumns} :
    (∃ res, perform e w (.insertOperatorAction c) = some res) ↔
      (fits c.operatorId 80 ∧ fits c.action 80) ∧
      ∀ a ∈ w.operatorActions.rows, a.id ≠ e.uuid :=
  Table.exists_guarded_insert_iff

end Insertions

/-! ## Saves that go through -/

section Saves

variable {e : Env} {w w' : World}

theorem exists_perform_updateAlert {alertId : Uuid} {changes : AlertUpdate} :
    (∃ res, perform e w (.updateAlert alertId changes) = some res) ↔
      ∀ alert ∈ w.alerts.lookup alertId,
        operatorsFit changes.acknowledgedBy changes.resolvedBy := by
  cases h : w.alerts.lookup alertId with
  | none => simp [perform, h]
  | some alert => simp [perform, h]

/-- What an update of an alert writes. -/
theorem perform_updateAlert {alertId : Uuid} {changes : AlertUpdate}
    (h : perform e w (.updateAlert alertId changes) = some ((), w')) :
    w' = w ∧ w.alerts.lookup alertId = none ∨
      ∃ alert ∈ w.alerts.lookup alertId,
        operatorsFit changes.acknowledgedBy changes.resolvedBy ∧
          w' = { w with alerts := w.alerts.save (changes.apply e.now alert) } := by
  simp only [perform] at h
  split at h
  · rename_i hnone
    cases h
    exact .inl ⟨rfl, hnone⟩
  · rename_i alert hsome
    split_ifs at h with hfits
    cases h
    exact .inr ⟨alert, hsome, hfits, rfl⟩

theorem perform_saveJob {job row : JobEntity} (h : perform e w (.saveJob job) = some (row, w')) :
    ∃ t, row = { job with updatedAt := t } ∧ w' = { w with jobs := w.jobs.save row } := by
  cases h
  exact ⟨_, rfl, rfl⟩

/-- A save that leaves the link of an incident as it is asks only who acknowledged and resolved
it. -/
theorem exists_perform_saveIncident {incident stored : IncidentEntity}
    (hstored : w.incidents.lookup incident.id = some stored)
    (hlink : stored.alertId = incident.alertId) :
    (∃ res, perform e w (.saveIncident incident) = some res) ↔
      operatorsFit incident.acknowledgedBy incident.resolvedBy := by
  simp [perform, hstored, hlink]

theorem perform_saveIncident {incident row : IncidentEntity}
    (h : perform e w (.saveIncident incident) = some (row, w')) :
    operatorsFit incident.acknowledgedBy incident.resolvedBy ∧
      (∀ stored ∈ w.incidents.lookup incident.id,
        stored.alertId = incident.alertId ∨ w.Linkable incident.alertId) ∧
      row = { incident with
        updatedAt := savedAt IncidentEntity.updatedAt e.now (w.incidents.lookup incident.id)
          incident } ∧
      w' = { w with incidents := w.incidents.save row } := by
  simp only [perform] at h
  split_ifs at h with hfits
  cases h
  exact ⟨hfits.1, hfits.2, rfl, rfl⟩

/-- What a save of an alert does to the incidents. -/
inductive World.Related (w : World) (now : Date) (alertId : Uuid)
    (incident : Option IncidentEntity) : Table IncidentEntity.id → Prop where
  | kept : Related w now alertId incident w.incidents
  | unlinked {row : IncidentEntity} (hincident : incident = none) (hrow : row ∈ w.incidents.rows)
    (hlink : row.alertId = some alertId) : Related w now alertId incident
      (w.incidents.save { row with alertId := none, updatedAt := now })
  | linked {row loaded : IncidentEntity} (hincident : incident = some loaded)
    (hrow : w.incidents.lookup loaded.id = some row) (hfree : w.Linkable (some alertId)) :
    Related w now alertId incident
      (w.incidents.save { row with alertId := some alertId, updatedAt := now })

theorem World.incidentOf_eq_some {alertId : Uuid} {incident : IncidentEntity}
    (h : w.incidentOf alertId = some incident) :
    incident ∈ w.incidents.rows ∧ incident.alertId = some alertId :=
  ⟨List.mem_of_find?_eq_some h, by simpa using List.find?_some h⟩

/-- An alert saved with the incident linked to it keeps that link. -/
theorem World.relate_incidentOf {now : Date} {alertId : Uuid} :
    w.relate now alertId (w.incidentOf alertId) = some w.incidents := by
  unfold relate
  cases w.incidentOf alertId with
  | none => rfl
  | some incident => exact if_pos rfl

theorem World.related {now : Date} {alertId : Uuid} {incident : Option IncidentEntity}
    {incidents : Table IncidentEntity.id} (h : w.relate now alertId incident = some incidents) :
    w.Related now alertId incident incidents := by
  unfold relate setAlert at h
  split at h
  · cases h
    exact .kept
  · rename_i linked hlinked hnone
    obtain ⟨row, hrow, rfl⟩ := Option.map_eq_some_iff.mp hlinked
    obtain ⟨hmem, hlink⟩ := incidentOf_eq_some hrow
    rw [Table.lookup_of_mem hmem] at h
    obtain ⟨-, h⟩ := Option.ite_none_right_eq_some.mp h
    cases h
    exact .unlinked (Option.map_eq_none_iff.mp hnone) hmem hlink
  · rename_i linked loaded hloaded
    obtain ⟨incident', rfl, rfl⟩ := Option.map_eq_some_iff.mp hloaded
    split at h
    · cases h
      exact .kept
    · split at h
      · cases h
        exact .kept
      · rename_i row hrow
        obtain ⟨hfree, h⟩ := Option.ite_none_right_eq_some.mp h
        cases h
        exact .linked rfl hrow hfree

theorem perform_saveAlert {alert row : AlertEntity} {incident : Option IncidentEntity}
    (h : perform e w (.saveAlert alert incident) = some (row, w')) :
    operatorsFit alert.acknowledgedBy alert.resolvedBy ∧
      row = { alert with
        updatedAt := savedAt AlertEntity.updatedAt e.now (w.alerts.lookup alert.id) alert } ∧
      ∃ incidents, w.relate e.now alert.id incident = some incidents ∧
        w' = { w with alerts := w.alerts.save row, incidents } := by
  simp only [perform] at h
  split_ifs at h with hfits
  obtain ⟨incidents, hincidents, heq⟩ := Option.map_eq_some_iff.mp h
  cases heq
  exact ⟨hfits, rfl, incidents, hincidents, rfl⟩

end Saves

/-- A call puts what it sends in the queue, and hands out nothing. -/
theorem perform_queue {e : Env} {w w' : World} {op : Op} {reply : op.Reply}
    (h : perform e w op = some (reply, w')) :
    w'.ready = w.ready ++ op.sends.toList ∧ w'.unacked ⊆ w.unacked := by
  cases op <;>
    simp only [perform, Option.ite_none_right_eq_some, Option.map_eq_some_iff, Prod.mk.injEq,
      Option.some.injEq] at h <;> grind [Op.sends, List.filter_subset]

/-- Answer a call : perform it at the chosen time, unless it is refused or the
environment rejects it. -/
def handle : Handler infrastructure Failure Env World := fun e op w =>
  let w := { w with clock := e.now }
  match perform e w op with
  | none => (.error .rejected, w)
  | some (reply, w') =>
    if op.local then (.ok reply, w')
    else match e.outcome with
      | .resolves => (.ok reply, w')
      | .rejects => (.error .rejected, w)
      | .rejectsAfterEffect => (.error .rejected, w')

/-! ## Answers -/

/-- A resolved call has had its effect. -/
theorem handle_eq_ok {e : Env} {op : Op} {w w' : World} {reply : op.Reply}
    (h : handle e op w = (.ok reply, w')) :
    perform e { w with clock := e.now } op = some (reply, w') ∧
      (op.local = true ∨ e.outcome = .resolves) := by
  unfold handle at h
  dsimp only at h
  split at h
  · cases h
  · rename_i reply' w₁ hp
    split_ifs at h with hl
    · cases h
      exact ⟨hp, .inl hl⟩
    · cases ho : e.outcome <;> rw [ho] at h <;> cases h
      exact ⟨hp, .inr rfl⟩

theorem handle_of_perform {e : Env} {op : Op} {w w' : World} {reply : op.Reply}
    (h : perform e { w with clock := e.now } op = some (reply, w'))
    (ho : op.local = true ∨ e.outcome = .resolves) : handle e op w = (.ok reply, w') := by
  unfold handle
  simp only [h]
  split_ifs with hl
  · rfl
  · rw [ho.resolve_left hl]

/-- A call has its effect or leaves everything but the clock. -/
theorem handle_world (e : Env) (op : Op) (w : World) :
    (handle e op w).2 = { w with clock := e.now } ∨
      ∃ reply, perform e { w with clock := e.now } op = some (reply, (handle e op w).2) := by
  unfold handle
  dsimp only
  split
  · exact .inl rfl
  · rename_i reply w' hp
    split
    · exact .inr ⟨reply, hp⟩
    · cases e.outcome
      · exact .inr ⟨reply, hp⟩
      · exact .inl rfl
      · exact .inr ⟨reply, hp⟩

/-- A call the world does not refuse resolves if the environment lets it. -/
theorem handle_isOk {e : Env} {op : Op} {w : World}
    (h : ∃ res, perform e { w with clock := e.now } op = some res) (ho : e.outcome = .resolves) :
    (handle e op w).1.isOk = true := by
  obtain ⟨⟨reply, w'⟩, hp⟩ := h
  rw [handle_of_perform hp (.inr ho)]
  rfl

theorem isOk_handle_iff {e : Env} {op : Op} {w : World} :
    (handle e op w).1.isOk = true ↔
      (∃ res, perform e { w with clock := e.now } op = some res) ∧
        (op.local = true ∨ e.outcome = .resolves) := by
  constructor
  · intro h
    cases hh : handle e op w with
    | mk r w' =>
      rw [hh] at h
      cases r with
      | ok reply => exact ⟨⟨_, (handle_eq_ok hh).1⟩, (handle_eq_ok hh).2⟩
      | error err => cases h
  · rintro ⟨⟨⟨reply, w'⟩, hp⟩, ho⟩
    rw [handle_of_perform hp ho]
    rfl

/-- A call to another system is refused or rejected and does nothing, or it takes effect, and
then its answer may still be lost. -/
theorem handle_cases {e : Env} {op : Op} (hop : op.local = false) (w : World) :
    ¬((∃ res, perform e { w with clock := e.now } op = some res) ∧ e.outcome ≠ .rejects) ∧
        handle e op w = (.error .rejected, { w with clock := e.now }) ∨
      ∃ reply w', perform e { w with clock := e.now } op = some (reply, w') ∧
        (e.outcome = .resolves ∧ handle e op w = (.ok reply, w') ∨
          e.outcome = .rejectsAfterEffect ∧ handle e op w = (.error .rejected, w')) := by
  unfold handle
  dsimp only
  rw [hop]
  cases hp : perform e { w with clock := e.now } op with
  | none => exact .inl ⟨by simp, rfl⟩
  | some res =>
    obtain ⟨reply, w'⟩ := res
    cases ho : e.outcome with
    | resolves => exact .inr ⟨reply, w', rfl, .inl ⟨rfl, rfl⟩⟩
    | rejects => exact .inl ⟨fun h => h.2 rfl, rfl⟩
    | rejectsAfterEffect => exact .inr ⟨reply, w', rfl, .inr ⟨rfl, rfl⟩⟩

end RealtimeOps
