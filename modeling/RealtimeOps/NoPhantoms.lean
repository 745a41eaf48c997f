import RealtimeOps.Books
import RealtimeOps.Interleaving.Rely

/-!
# No phantom events or work

Events and messages name rows by id. Their readers take them as news of committed rows, though
nothing but the order of the awaited calls makes them so : each program writes a row before it
publishes its id, and what was written stays, but for one write. An alert that was loaded before its
incident was opened and is saved afterwards takes the incident its link, while `create` is about to
name both (`not_no_phantoms`).

As long as no alert is saved so (`LinksKept`), nothing is named that is not there (`no_phantoms`).
`World.Keeps` is the order on worlds that says what stays, `Op.tells` what a program learns from a
reply, and `Allowed` which calls are grounded in rows. Each command relies only on what it was told.
The consumers run on messages of the queue, so the job of an execution is found.
-/

set_option autoImplicit false

namespace RealtimeOps

open Interleaving JobProcessorService

/-! ## What stays -/

/-- What stays : no row is deleted, an incident stays linked to its alert, and linked alerts
exist. -/
structure World.Keeps (w w' : World) : Prop where
  jobs : Table.Advances (fun _ _ => True) w.jobs w'.jobs
  alerts : Table.Advances (fun _ _ => True) w.alerts w'.alerts
  incidents : Table.Advances (fun i i' => i'.alertId = i.alertId) w.incidents w'.incidents
  notifications : Table.Advances (fun _ _ => True) w.notifications w'.notifications
  linked : w.books.Linked → w'.books.Linked

theorem World.Keeps.of_eq {w w' : World} (hjobs : w'.jobs = w.jobs)
    (halerts : w'.alerts = w.alerts) (hincidents : w'.incidents = w.incidents)
    (hnotifications : w'.notifications = w.notifications) : w.Keeps w' where
  jobs := .of_eq (fun _ => trivial) hjobs
  alerts := .of_eq (fun _ => trivial) halerts
  incidents := .of_eq (fun _ => rfl) hincidents
  notifications := .of_eq (fun _ => trivial) hnotifications
  linked h := h.of_eq halerts hincidents

instance : Preorder World where
  le := World.Keeps
  le_refl _ := .of_eq rfl rfl rfl rfl
  le_trans _ _ _ h h' :=
    { jobs := h.jobs.trans (fun _ _ => trivial) h'.jobs
      alerts := h.alerts.trans (fun _ _ => trivial) h'.alerts
      incidents := h.incidents.trans (fun h h' => h'.trans h) h'.incidents
      notifications := h.notifications.trans (fun _ _ => trivial) h'.notifications
      linked := h'.linked ∘ h.linked }

/-- There is such an incident, and it has this link. -/
def World.Links (w : World) (incidentId : Uuid) (link : Option Uuid) : Prop :=
  ∃ incident ∈ w.incidents.lookup incidentId, incident.alertId = link

/-- The alert a stored incident is linked to is stored. -/
theorem World.Links.alert {w : World} {incidentId alertId : Uuid}
    (h : w.Links incidentId (some alertId)) (hw : w.books.Linked) :
    (w.alerts.lookup alertId).isSome := by
  obtain ⟨incident, hincident, hlink⟩ := h
  exact hw incident (Table.lookup_eq_some.mp hincident).1 alertId hlink

/-- Every id in the payload is the id of a stored row, and an incident and an alert that it
names together are linked. -/
def World.Grounded (w : World) (payload : Record) : Prop :=
  (∀ id, ("jobId", .uuid id) ∈ payload → (w.jobs.lookup id).isSome) ∧
  (∀ id, ("alertId", .uuid id) ∈ payload → (w.alerts.lookup id).isSome) ∧
  (∀ id, ("notificationId", .uuid id) ∈ payload → (w.notifications.lookup id).isSome) ∧
  ∀ id, ("incidentId", .uuid id) ∈ payload → ∃ incident ∈ w.incidents.lookup id,
    ∀ alertId, ("alertId", .uuid alertId) ∈ payload → incident.alertId = some alertId

@[simp] theorem Json.uuid_eq_ofUuid? {id : Uuid} {link : Option Uuid} :
    Json.uuid id = .ofUuid? link ↔ link = some id := by
  cases link <;> simp [Json.ofUuid?, eq_comm]

/-! ## What a reply tells -/

/-- What is known of the stored rows once a call has resolved. -/
def Op.tells : (op : Op) → op.Reply → World → Prop
  | .findJob _, found, w => ∀ job ∈ found, (w.jobs.lookup job.id).isSome
  | .insertJob _, job, w => (w.jobs.lookup job.id).isSome
  | .saveJob _, job, w => (w.jobs.lookup job.id).isSome
  | .findAlert _, found, w => ∀ loaded ∈ found, (w.alerts.lookup loaded.1.id).isSome ∧
      ∀ incident ∈ loaded.2, w.Links incident.id (some loaded.1.id)
  | .insertAlert _, alert, w => (w.alerts.lookup alert.id).isSome
  | .saveAlert _ _, alert, w => (w.alerts.lookup alert.id).isSome
  | .findIncident _, found, w => ∀ incident ∈ found, w.Links incident.id incident.alertId
  | .insertIncident c, incident, w => w.Links incident.id c.alertId ∧ incident.alertId = c.alertId
  | .saveIncident _, incident, w => w.Links incident.id incident.alertId
  | .insertNotification _, notification, w => (w.notifications.lookup notification.id).isSome
  | _, _, _ => True

theorem World.Links.mono {w w' : World} {incidentId : Uuid} {link : Option Uuid}
    (h : w.Links incidentId link) (hw : w ≤ w') : w'.Links incidentId link := by
  obtain ⟨incident, hincident, rfl⟩ := h
  obtain ⟨incident', hincident', hlink⟩ := (World.Keeps.incidents hw).exists_lookup hincident
  exact ⟨incident', hincident', hlink⟩

theorem Op.tells.mono {op : Op} {reply : op.Reply} {w w' : World} (h : op.tells reply w)
    (hw : w ≤ w') : op.tells reply w' := by
  obtain ⟨hjobs, halerts, -, hnotifications, -⟩ := id hw
  cases op with
  | findJob => exact fun job hjob => hjobs.isSome_lookup (h job hjob)
  | insertJob | saveJob => exact hjobs.isSome_lookup h
  | findAlert =>
    exact fun loaded hloaded => ⟨halerts.isSome_lookup (h loaded hloaded).1,
      fun incident hincident => ((h loaded hloaded).2 incident hincident).mono hw⟩
  | insertAlert | saveAlert => exact halerts.isSome_lookup h
  | findIncident => exact fun incident hincident => (h incident hincident).mono hw
  | insertIncident => exact ⟨h.1.mono hw, h.2⟩
  | saveIncident => exact World.Links.mono h hw
  | insertNotification => exact hnotifications.isSome_lookup h
  | _ => trivial

/-- A resolved call has told the truth. -/
theorem tells_of_handle {e : Env} {op : Op} {w w' : World} {reply : op.Reply}
    (h : handle e op w = (.ok reply, w')) : op.tells reply w' := by
  have hp := (handle_eq_ok h).1
  cases op with
  | findJob id =>
    cases hp
    exact fun job hjob => Option.isSome_iff_exists.mpr ⟨job, Table.lookup_key hjob⟩
  | insertJob c =>
    obtain ⟨-, jobs, hjobs, rfl, rfl⟩ := perform_insertJob hp
    exact Option.isSome_iff_exists.mpr ⟨_, Table.lookup_insert_self hjobs⟩
  | saveJob job =>
    cases hp
    exact Option.isSome_iff_exists.mpr ⟨_, Table.lookup_save_self _ _⟩
  | findAlert id =>
    cases hp
    intro loaded hloaded
    obtain ⟨alert, halert, rfl⟩ := Option.map_eq_some_iff.mp hloaded
    refine ⟨Option.isSome_iff_exists.mpr ⟨alert, Table.lookup_key halert⟩,
      fun incident hlinked => ?_⟩
    obtain ⟨hmem, hlink⟩ := World.incidentOf_eq_some hlinked
    exact ⟨incident, Table.lookup_of_mem hmem, hlink⟩
  | insertAlert c =>
    obtain ⟨-, alerts, halerts, rfl, rfl⟩ := perform_insertAlert hp
    exact Option.isSome_iff_exists.mpr ⟨_, Table.lookup_insert_self halerts⟩
  | saveAlert alert incident =>
    obtain ⟨-, rfl, incidents, -, rfl⟩ := perform_saveAlert hp
    exact Option.isSome_iff_exists.mpr ⟨_, Table.lookup_save_self _ _⟩
  | findIncident id =>
    cases hp
    exact fun incident hincident => ⟨incident, Table.lookup_key hincident, rfl⟩
  | insertIncident c =>
    obtain ⟨-, incidents, hincidents, rfl, rfl⟩ := perform_insertIncident hp
    exact ⟨⟨_, Table.lookup_insert_self hincidents, rfl⟩, rfl⟩
  | saveIncident incident =>
    obtain ⟨-, -, rfl, rfl⟩ := perform_saveIncident hp
    exact ⟨_, Table.lookup_save_self _ _, rfl⟩
  | insertNotification c =>
    obtain ⟨notifications, hnotifications, rfl, rfl⟩ := perform_insertNotification hp
    exact Option.isSome_iff_exists.mpr ⟨_, Table.lookup_insert_self hnotifications⟩
  | _ => trivial

/-! ## What the commands may call -/

/-- The command is an execution that runs on a message. -/
def Command.Consumes : Command → Prop
  | .job (.consume _) => True
  | _ => False

instance : DecidablePred Command.Consumes
  | .job (.consume _) => .isTrue trivial
  | .job (.create _) | .job (.retry _ _) | .job (.getStatus _) | .job (.process _)
  | .createAlert _ | .acknowledgeAlert _ _ | .acknowledge _ _ | .resolve _ _ => .isFalse id

/-- The command acknowledges an alert. -/
def Command.AcknowledgesAlert : Command → Prop
  | .acknowledgeAlert _ _ => True
  | _ => False

/-- Only ids of stored rows are published or sent, and an execution that runs on a message reads
a stored job. A save leaves an incident the alert it has, and only who acknowledges an alert saves
it, with no other incident than the one linked to it. -/
def Allowed (c : Command) (w : World) : Op → Prop
  | .publish _ payload => w.Grounded payload
  | .sendToQueue m => ∀ jobId ∈ m.jobId, (w.jobs.lookup jobId).isSome
  | .findJob jobId => c.Consumes → (w.jobs.lookup jobId).isSome
  | .saveIncident incident => w.Links incident.id incident.alertId
  | .saveAlert alert incident => c.AcknowledgesAlert ∧
      ∀ i ∈ incident, w.Links i.id (some alert.id)
  | _ => True

/-- The call takes no incident its link : an alert that was loaded without an incident is saved
only while no incident is linked to it. -/
def World.KeepsLinks (w : World) : Op → Prop
  | .saveAlert alert none => ∀ i ∈ w.incidents.rows, i.alertId ≠ some alert.id
  | _ => True

instance (w : World) : DecidablePred w.KeepsLinks
  | .saveAlert _ none => inferInstanceAs (Decidable (∀ i ∈ w.incidents.rows, _))
  | .saveAlert _ (some _) | .findJob _ | .insertJob _ | .saveJob _ | .findAttempts _
  | .insertAttempt _ | .saveAttempt _ | .insertAlert _ | .findAlert _ | .updateAlert _ _
  | .insertIncident _ | .findIncident _ | .saveIncident _ | .insertNotification _
  | .insertAuditEntry _ | .insertOperatorAction _ | .setNX _ _ | .del _ | .sendToQueue _
  | .publish _ _ | .ack _ | .nack _ | .sleep _ | .now => .isTrue trivial

/-- A save that takes no link away changes no incident. -/
theorem World.relate_of_keepsLinks {w : World} {now : Date} {alert : AlertEntity}
    {incident : Option IncidentEntity} {incidents : Table IncidentEntity.id}
    (h : w.relate now alert.id incident = some incidents)
    (hkeeps : w.KeepsLinks (.saveAlert alert incident))
    (hlinks : ∀ i ∈ incident, w.Links i.id (some alert.id)) : incidents = w.incidents := by
  cases World.related h with
  | kept => rfl
  | unlinked hincident hrow hlink =>
    subst hincident
    exact absurd hlink (hkeeps _ hrow)
  | linked hincident hrow hfree =>
    obtain ⟨stored, hstored, hlink⟩ := hlinks _ hincident
    exact absurd hlink ((hfree alert.id rfl).2 stored (Table.lookup_eq_some.mp hstored).1)

/-- An incident is saved with the link it has, and an alert with no other incident than the one
linked to it. -/
def World.Ties (w : World) : Op → Prop
  | .saveIncident incident => w.Links incident.id incident.alertId
  | .saveAlert alert incident => ∀ i ∈ incident, w.Links i.id (some alert.id)
  | _ => True

theorem Allowed.ties {c : Command} {w : World} {op : Op} (h : Allowed c w op) : w.Ties op := by
  cases op with
  | saveIncident => exact h
  | saveAlert => exact h.2
  | _ => trivial

/-- Such a call undoes nothing. -/
theorem World.Ties.keeps {w : World} {op : Op} (h : w.Ties op) (hkeeps : w.KeepsLinks op)
    (e : Env) : w ≤ (handle e op w).2 := by
  rcases handle_world e op w with hw | ⟨reply, hp⟩
  · rw [hw]
    exact .of_eq rfl rfl rfl rfl
  generalize (handle e op w).2 = w' at hp
  have hstep : World.Keeps { w with clock := e.now } w' → w ≤ w' := fun h =>
    le_trans (World.Keeps.of_eq rfl rfl rfl rfl : w ≤ { w with clock := e.now }) h
  refine hstep ?_
  cases op with
  | insertJob columns =>
    obtain ⟨-, jobs, hjobs, -, rfl⟩ := perform_insertJob hp
    exact { World.Keeps.of_eq rfl rfl rfl rfl with jobs := .insert (fun _ => trivial) hjobs }
  | saveJob job =>
    cases hp
    exact { World.Keeps.of_eq rfl rfl rfl rfl with
      jobs := .save_of (fun _ => trivial) fun _ _ _ => trivial }
  | insertAlert columns =>
    obtain ⟨-, alerts, halerts, -, rfl⟩ := perform_insertAlert hp
    exact { World.Keeps.of_eq rfl rfl rfl rfl with
      alerts := .insert (fun _ => trivial) halerts
      linked := fun h => h.raised halerts rfl }
  | saveAlert alert incident =>
    obtain ⟨-, -, incidents, hincidents, rfl⟩ := perform_saveAlert hp
    obtain rfl := World.relate_of_keepsLinks hincidents (by cases incident <;> exact hkeeps) h
    exact { World.Keeps.of_eq rfl rfl rfl rfl with
      alerts := .save_of (fun _ => trivial) fun _ _ _ => trivial
      linked := fun h => h.alertSaved rfl rfl }
  | updateAlert id changes =>
    obtain ⟨rfl, -⟩ | ⟨alert, -, -, rfl⟩ := perform_updateAlert hp
    · exact .of_eq rfl rfl rfl rfl
    · exact { World.Keeps.of_eq rfl rfl rfl rfl with
        alerts := .save_of (fun _ => trivial) fun _ _ _ => trivial
        linked := fun h => h.alertSaved rfl rfl }
  | insertIncident columns =>
    obtain ⟨⟨hfree, -⟩, incidents, hincidents, -, rfl⟩ := perform_insertIncident hp
    exact { World.Keeps.of_eq rfl rfl rfl rfl with
      incidents := .insert (fun _ => rfl) hincidents
      linked := fun h => h.incidentOpened rfl hincidents fun id hid => (hfree id hid).1 }
  | saveIncident incident =>
    obtain ⟨-, -, rfl, rfl⟩ := perform_saveIncident hp
    obtain ⟨before, hbefore, hlink⟩ := h
    obtain ⟨hbefore, hid⟩ := Table.lookup_eq_some.mp hbefore
    exact { World.Keeps.of_eq rfl rfl rfl rfl with
      incidents := .save (fun _ => rfl) hbefore hid.symm hlink.symm
      linked := fun h => h.incidentSaved rfl rfl hbefore hlink }
  | insertNotification columns =>
    obtain ⟨notifications, hnotifications, -, rfl⟩ := perform_insertNotification hp
    exact { World.Keeps.of_eq rfl rfl rfl rfl with
      notifications := .insert (fun _ => trivial) hnotifications }
  | insertAttempt columns =>
    obtain ⟨-, attempts, -, -, rfl⟩ := perform_insertAttempt hp
    exact .of_eq rfl rfl rfl rfl
  | insertAuditEntry columns =>
    obtain ⟨-, entries, -, -, rfl⟩ := perform_insertAuditEntry hp
    exact .of_eq rfl rfl rfl rfl
  | insertOperatorAction columns =>
    obtain ⟨-, actions, -, -, rfl⟩ := perform_insertOperatorAction hp
    exact .of_eq rfl rfl rfl rfl
  | setNX key ttlSeconds =>
    simp only [perform] at hp
    split at hp <;> cases hp <;> exact .of_eq rfl rfl rfl rfl
  | _ =>
    cases hp
    exact .of_eq rfl rfl rfl rfl

/-- The calls a command may make undo nothing. -/
theorem movesUp_allowed (c : Command) : MovesUp handle World.KeepsLinks (Allowed c) :=
  fun e _ _ hkeeps hop => hop.ties.keeps hkeeps e

/-! ## The programs -/

section Programs

variable {c : Command} {K : World → Prop}

/-- A call that `K` allows; its reply tells more. -/
theorem relies_await {α : Type} {op : Op} {f : op.Reply → Promise α}
    (hop : ∀ w, K w → Allowed c w op)
    (hf : ∀ reply, (f reply).Relies handle World.KeepsLinks (Allowed c)
      fun w => K w ∧ op.tells reply w) :
    ((await op).bind f).Relies handle World.KeepsLinks (Allowed c) K :=
  .await_bind (movesUp_allowed c) hop (fun _ _ _ _ h _ hw => (tells_of_handle h).mono hw) hf

/-- A call whose reply is not needed. -/
theorem relies_step {α : Type} {op : Op} {f : op.Reply → Promise α}
    (hop : ∀ w, K w → Allowed c w op)
    (hf : ∀ reply, (f reply).Relies handle World.KeepsLinks (Allowed c) K) :
    ((await op).bind f).Relies handle World.KeepsLinks (Allowed c) K :=
  relies_await hop fun reply => (hf reply).mono fun _ h => h.1

theorem relies_create (input : CreateJobInput) :
    (JobService.create input).Relies handle World.KeepsLinks (Allowed c) K := by
  unfold JobService.create
  refine relies_await (fun _ _ => trivial) fun job => ?_
  refine relies_step (fun _ _ => trivial) fun _ => ?_
  refine relies_step (fun _ _ => trivial) fun _ => ?_
  refine relies_await (fun _ _ => trivial) fun notification => ?_
  refine relies_step ?_ fun _ => relies_step ?_ fun _ => relies_step ?_ fun _ => ?_
  · rintro w ⟨⟨-, hjob⟩, -⟩ jobId hjobId
    cases hjobId
    exact hjob
  · rintro w ⟨⟨-, hjob⟩, -⟩
    simpa [Allowed, World.Grounded, Op.tells] using hjob
  · rintro w ⟨-, hn⟩
    simpa [Allowed, World.Grounded, Op.tells, NotificationEntity.createdPayload] using hn
  · exact fun _ _ => trivial

theorem relies_retry (jobId : Uuid) (operatorId : String) (hc : ¬c.Consumes) :
    (JobService.retry jobId operatorId).Relies handle World.KeepsLinks (Allowed c) K := by
  unfold JobService.retry
  rw [Prog.bind_eq, JobService.getById_bind]
  refine relies_step (fun _ _ h => absurd h hc) fun found => ?_
  cases found with
  | none => exact fun _ _ => trivial
  | some job =>
    dsimp only
    split_ifs
    · exact fun _ _ => trivial
    · exact fun _ _ => trivial
    refine relies_await (fun _ _ => trivial) fun updated => ?_
    refine relies_step (fun _ _ => trivial) fun _ => ?_
    refine relies_step (fun _ _ => trivial) fun _ => ?_
    refine relies_await (fun _ _ => trivial) fun notification => ?_
    refine relies_step ?_ fun _ => relies_step ?_ fun _ => relies_step ?_ fun _ => ?_
    · rintro w ⟨⟨-, hjob⟩, -⟩ jobId hjobId
      cases hjobId
      exact hjob
    · rintro w ⟨⟨-, hjob⟩, -⟩
      simpa [Allowed, World.Grounded, Op.tells] using hjob
    · rintro w ⟨-, hn⟩
      simpa [Allowed, World.Grounded, Op.tells, NotificationEntity.createdPayload] using hn
    · exact fun _ _ => trivial

theorem relies_getStatus (jobId : Uuid) (hc : ¬c.Consumes) :
    (JobService.getStatus jobId).Relies handle World.KeepsLinks (Allowed c) K := by
  unfold JobService.getStatus
  rw [Prog.bind_eq, JobService.getById_bind]
  refine relies_step (fun _ _ h => absurd h hc) fun found => ?_
  cases found with
  | none => exact fun _ _ => trivial
  | some job => exact relies_step (fun _ _ => trivial) fun _ _ _ => trivial

theorem relies_markCompleted (job : JobEntity) (attempt : ProcessingAttemptEntity) :
    (markCompleted job attempt).Relies handle World.KeepsLinks (Allowed c) K := by
  unfold markCompleted
  refine relies_step (fun _ _ => trivial) fun finishedAt => ?_
  refine relies_step (fun _ _ => trivial) fun attempt => ?_
  refine relies_await (fun _ _ => trivial) fun job => ?_
  refine relies_await (fun _ _ => trivial) fun notification => ?_
  refine relies_step (fun _ _ => trivial) fun _ => ?_
  refine relies_step ?_ fun _ => .await ?_
  · rintro w ⟨⟨-, hjob⟩, -⟩
    simpa [Allowed, World.Grounded, Op.tells] using hjob
  · rintro w ⟨-, hn⟩
    simpa [Allowed, World.Grounded, Op.tells, NotificationEntity.createdPayload] using hn

theorem relies_reportFailure {job : JobEntity} {alert : AlertEntity}
    {incident : Option IncidentEntity} (attempt : ProcessingAttemptEntity) (errorMessage : String)
    (finishedAt : Date)
    (hK : ∀ w, K w → (w.jobs.lookup job.id).isSome ∧ (w.alerts.lookup alert.id).isSome)
    (hincident : ∀ i ∈ incident, ∀ w, K w →
      w.Links i.id (some alert.id) ∧ i.alertId = some alert.id) :
    (reportFailure job attempt errorMessage finishedAt alert incident).Relies handle
      World.KeepsLinks (Allowed c) K := by
  unfold reportFailure
  refine relies_await (fun _ _ => trivial) fun notification => ?_
  refine relies_step (fun _ _ => trivial) fun _ => relies_step (fun _ _ => trivial) fun _ => ?_
  cases incident with
  | none =>
    refine relies_step ?_ fun _ => relies_step ?_ fun _ => .await ?_
    · rintro w ⟨hw, -⟩
      simpa [Allowed, World.Grounded] using (hK w hw).1
    · rintro w ⟨hw, -⟩
      simpa [Allowed, World.Grounded] using hK w hw
    · rintro w ⟨-, hn⟩
      simpa [Allowed, World.Grounded, Op.tells, NotificationEntity.createdPayload] using hn
  | some incident =>
    refine relies_step (fun _ _ => trivial) fun _ => ?_
    refine relies_step ?_ fun _ => relies_step ?_ fun _ => relies_step ?_ fun _ => .await ?_
    · rintro w ⟨hw, -⟩
      simpa [Allowed, World.Grounded] using (hK w hw).1
    · rintro w ⟨hw, -⟩
      obtain ⟨hlinks, -⟩ := hincident incident rfl w hw
      simpa [Allowed, World.Grounded, World.Links] using ⟨(hK w hw).1, (hK w hw).2, hlinks⟩
    · rintro w ⟨hw, -⟩
      obtain ⟨hlinks, hlink⟩ := hincident incident rfl w hw
      simpa [Allowed, World.Grounded, World.Links, hlink] using ⟨(hK w hw).2, hlinks⟩
    · rintro w ⟨-, hn⟩
      simpa [Allowed, World.Grounded, Op.tells, NotificationEntity.createdPayload] using hn

theorem relies_markFailed (job : JobEntity) (attempt : ProcessingAttemptEntity)
    (errorMessage : String) :
    (markFailed job attempt errorMessage).Relies handle World.KeepsLinks (Allowed c) K := by
  unfold markFailed
  refine relies_step (fun _ _ => trivial) fun finishedAt => ?_
  refine relies_step (fun _ _ => trivial) fun attempt => ?_
  refine relies_await (fun _ _ => trivial) fun job => ?_
  refine relies_await (fun _ _ => trivial) fun alert => ?_
  split_ifs
  · refine relies_await (fun _ _ => trivial) fun incident => ?_
    refine relies_reportFailure attempt errorMessage finishedAt ?_ ?_
    · rintro w ⟨⟨⟨-, hjob⟩, halert⟩, -⟩
      exact ⟨hjob, halert⟩
    · rintro i ⟨⟩ w ⟨-, hincident⟩
      exact hincident
  · refine relies_reportFailure attempt errorMessage finishedAt ?_ (by simp)
    rintro w ⟨⟨-, hjob⟩, halert⟩
    exact ⟨hjob, halert⟩

theorem relies_processJob (input : ProcessJobInput) (job : JobEntity) :
    (processJob input job).Relies handle World.KeepsLinks (Allowed c) K := by
  unfold processJob
  refine relies_step (fun _ _ => trivial) fun startedAt => ?_
  refine relies_await (fun _ _ => trivial) fun job => ?_
  refine relies_step ?_ fun _ => relies_step (fun _ _ => trivial) fun _ => ?_
  · rintro w ⟨-, hjob⟩
    simpa [Allowed, World.Grounded, Op.tells] using hjob
  refine relies_step (fun _ _ => trivial) fun attempt => ?_
  refine relies_step (fun _ _ => trivial) fun _ => ?_
  split
  · exact relies_markFailed _ _ _
  · exact relies_markCompleted _ _

theorem relies_process (input : ProcessJobInput)
    (hK : ∀ w, K w → c.Consumes → (w.jobs.lookup input.jobId).isSome) :
    (process input).Relies handle World.KeepsLinks (Allowed c) K := by
  unfold process
  refine relies_step (fun _ _ => trivial) fun acquired => ?_
  cases acquired with
  | false => exact fun _ _ => trivial
  | true =>
    refine Prog.Relies.tryFinally (movesUp_allowed c) ?_ (.await fun _ _ => trivial)
    refine relies_step hK fun found => ?_
    cases found with
    | none => exact fun _ _ => trivial
    | some job => exact relies_processJob input job

theorem relies_consume (delivery : Delivery)
    (hK : ∀ w, K w → ∀ jobId ∈ delivery.message.jobId, (w.jobs.lookup jobId).isSome) :
    (RabbitMqService.consumeCallback JobProcessingConsumer.onMessage delivery).Relies handle
      World.KeepsLinks (Allowed c) K := by
  unfold RabbitMqService.consumeCallback
  refine Prog.Relies.tryCatch (movesUp_allowed c) ?_ fun _ => .await fun _ _ => trivial
  obtain ⟨tag, ⟨content⟩⟩ := delivery
  cases content with
  | none => exact fun _ _ => trivial
  | some payload =>
    refine Prog.Relies.bind (movesUp_allowed c) ?_ fun _ => .await fun _ _ => trivial
    unfold JobProcessingConsumer.onMessage
    split
    · exact fun _ _ => trivial
    · rename_i jobId hsome
      exact relies_process _ fun w hw _ => hK w hw jobId hsome

theorem relies_announce {alert : AlertEntity} {incident : Option IncidentEntity}
    (input : CreateAlertInput) (hK : ∀ w, K w → (w.alerts.lookup alert.id).isSome)
    (hincident : ∀ i ∈ incident, ∀ w, K w →
      w.Links i.id (some alert.id) ∧ i.alertId = some alert.id) :
    (AlertService.announce input alert incident).Relies handle World.KeepsLinks (Allowed c) K := by
  unfold AlertService.announce
  refine relies_step (fun _ _ => trivial) fun _ => relies_step (fun _ _ => trivial) fun _ => ?_
  cases incident with
  | none =>
    refine relies_step ?_ fun _ _ _ => trivial
    intro w hw
    simpa [Allowed, World.Grounded] using hK w hw
  | some incident =>
    refine relies_step ?_ fun _ => relies_step ?_ fun _ _ _ => trivial
    · intro w hw
      obtain ⟨hlinks, -⟩ := hincident incident rfl w hw
      simpa [Allowed, World.Grounded, World.Links] using ⟨hK w hw, hlinks⟩
    · intro w hw
      obtain ⟨hlinks, hlink⟩ := hincident incident rfl w hw
      simpa [Allowed, World.Grounded, World.Links, hlink] using ⟨hK w hw, hlinks⟩

theorem relies_createAlert (input : CreateAlertInput) :
    (AlertService.create input).Relies handle World.KeepsLinks (Allowed c) K := by
  unfold AlertService.create
  refine relies_await (fun _ _ => trivial) fun alert => ?_
  split_ifs
  · refine relies_await (fun _ _ => trivial) fun incident => ?_
    refine relies_announce input ?_ ?_
    · rintro w ⟨⟨-, halert⟩, -⟩
      exact halert
    · rintro i ⟨⟩ w ⟨-, hincident⟩
      exact hincident
  · exact relies_announce input (fun w hw => hw.2) (by simp)

theorem relies_acknowledgeAlert (alertId : Uuid) (operatorId : String)
    (hc : c.AcknowledgesAlert) :
    (AlertService.acknowledge alertId operatorId).Relies handle World.KeepsLinks (Allowed c) K := by
  unfold AlertService.acknowledge
  rw [Prog.bind_eq, AlertService.getById_bind]
  refine relies_await (fun _ _ => trivial) fun found => ?_
  cases found with
  | none => exact fun _ _ => trivial
  | some loaded =>
    obtain ⟨alert, incident⟩ := loaded
    dsimp only
    split_ifs
    · exact fun _ _ => trivial
    refine relies_step (fun _ _ => trivial) fun _ => ?_
    refine relies_await (fun w hw => ⟨hc, (hw.2 (alert, incident) rfl).2⟩) fun updated => ?_
    refine relies_step (fun _ _ => trivial) fun _ => relies_step ?_ fun _ _ _ => trivial
    rintro w ⟨-, halert⟩
    cases updated.acknowledgedAt <;>
      simpa [Allowed, World.Grounded, Op.tells] using halert

theorem relies_propagate {incident updated : IncidentEntity} {operatorId : String}
    {changes : Date → AlertUpdate} {action auditAction : String} {metadata payload : Record}
    (hK : ∀ w, K w → w.Grounded payload) :
    (IncidentService.propagate incident updated operatorId changes action auditAction metadata
      payload).Relies handle World.KeepsLinks (Allowed c) K := by
  unfold IncidentService.propagate
  cases incident.alertId with
  | none =>
    refine relies_step (fun _ _ => trivial) fun _ => relies_step (fun _ _ => trivial) fun _ => ?_
    exact relies_step hK fun _ _ _ => trivial
  | some alertId =>
    refine relies_step (fun _ _ => trivial) fun _ => relies_step (fun _ _ => trivial) fun _ => ?_
    refine relies_step (fun _ _ => trivial) fun _ => relies_step (fun _ _ => trivial) fun _ => ?_
    exact relies_step hK fun _ _ _ => trivial

/-- The payloads that name an incident and its alert. -/
theorem World.Links.grounded {w : World} {incident : IncidentEntity} {key : String} {value : Json}
    (h : w.Links incident.id incident.alertId) (hw : w.books.Linked)
    (hkey : key = "acknowledgedBy" ∨ key = "resolvedBy") :
    w.Grounded
      [("incidentId", .uuid incident.id), ("status", .str incident.status.value), (key, value),
        ("alertId", .ofUuid? incident.alertId)] := by
  have halert : ∀ id, incident.alertId = some id → (w.alerts.lookup id).isSome := by
    intro id hid
    rw [hid] at h
    exact h.alert hw
  obtain ⟨stored, hstored, hlink⟩ := h
  rcases hkey with rfl | rfl <;>
    simpa [World.Grounded] using ⟨halert, stored, hstored, fun id hid => hlink.trans hid⟩

theorem relies_acknowledge (incidentId : Uuid) (operatorId : String)
    (hK : ∀ w, K w → w.books.Linked) :
    (IncidentService.acknowledge incidentId operatorId).Relies handle World.KeepsLinks
      (Allowed c) K := by
  unfold IncidentService.acknowledge
  rw [Prog.bind_eq, IncidentService.getIncident_bind]
  refine relies_await (fun _ _ => trivial) fun found => ?_
  cases found with
  | none => exact fun _ _ => trivial
  | some incident =>
    dsimp only
    split_ifs
    · exact fun _ _ => trivial
    refine relies_step (fun _ _ => trivial) fun _ => ?_
    refine relies_await (fun w hw => hw.2 incident rfl) fun updated => ?_
    refine relies_propagate ?_
    rintro w ⟨⟨hw, -⟩, hlinks⟩
    exact World.Links.grounded hlinks (hK w hw) (.inl rfl)

theorem relies_settle {incident : IncidentEntity} (operatorId : String)
    (hK : ∀ w, K w → w.books.Linked ∧ w.Links incident.id incident.alertId) :
    (IncidentService.settle incident operatorId).Relies handle World.KeepsLinks (Allowed c) K := by
  unfold IncidentService.settle
  refine relies_step (fun _ _ => trivial) fun _ => ?_
  refine relies_await (fun w hw => (hK w hw).2) fun updated => ?_
  refine relies_propagate ?_
  rintro w ⟨hw, hlinks⟩
  exact World.Links.grounded hlinks (hK w hw).1 (.inr rfl)

theorem relies_resolve (incidentId : Uuid) (operatorId : String)
    (hK : ∀ w, K w → w.books.Linked) :
    (IncidentService.resolve incidentId operatorId).Relies handle World.KeepsLinks
      (Allowed c) K := by
  unfold IncidentService.resolve
  rw [Prog.bind_eq, IncidentService.getIncident_bind]
  refine relies_await (fun _ _ => trivial) fun found => ?_
  cases found with
  | none => exact fun _ _ => trivial
  | some incident =>
    dsimp only
    split_ifs
    · exact fun _ _ => trivial
    · refine relies_step (fun _ _ => trivial) fun _ => relies_settle operatorId ?_
      exact fun w hw => ⟨hK w hw.1, hw.2 incident rfl⟩
    · exact relies_settle operatorId fun w hw => ⟨hK w hw.1, hw.2 incident rfl⟩

/-- What a command may rely on from the start : links are to stored alerts, and the job of the
message that it runs on is stored. -/
def Told (c : Command) (w : World) : Prop :=
  w.books.Linked ∧ ∀ delivery, c = .job (.consume delivery) →
    ∀ jobId ∈ delivery.message.jobId, (w.jobs.lookup jobId).isSome

/-- Every command publishes, sends and saves only what is grounded. -/
theorem relies_prog (c : Command) : c.prog.Relies handle World.KeepsLinks (Allowed c) (Told c) := by
  have hlinked : ∀ w, Told c w → w.books.Linked := fun w h => h.1
  cases c with
  | job call =>
    refine Prog.Relies.bind (movesUp_allowed _) ?_ fun _ _ _ => trivial
    cases call with
    | create input =>
      exact (relies_create input).bind (movesUp_allowed _) fun _ _ _ => trivial
    | retry jobId operatorId =>
      exact (relies_retry jobId operatorId id).bind (movesUp_allowed _) fun _ _ _ => trivial
    | getStatus jobId =>
      exact (relies_getStatus jobId id).bind (movesUp_allowed _) fun _ _ _ => trivial
    | process input =>
      refine (relies_process input fun _ _ h => absurd h id).bind (movesUp_allowed _) ?_
      exact fun _ _ _ => trivial
    | consume delivery =>
      refine (relies_consume delivery fun w hw => hw.2 delivery rfl).bind (movesUp_allowed _) ?_
      exact fun _ _ _ => trivial
  | createAlert input =>
    exact (relies_createAlert input).bind (movesUp_allowed _) fun _ _ _ => trivial
  | acknowledgeAlert alertId operatorId =>
    have hc : (Command.acknowledgeAlert alertId operatorId).AcknowledgesAlert := trivial
    refine (relies_acknowledgeAlert alertId operatorId hc).bind (movesUp_allowed _) ?_
    exact fun _ _ _ => trivial
  | acknowledge incidentId operatorId =>
    refine (relies_acknowledge incidentId operatorId hlinked).bind (movesUp_allowed _) ?_
    exact fun _ _ _ => trivial
  | resolve incidentId operatorId =>
    refine (relies_resolve incidentId operatorId hlinked).bind (movesUp_allowed _) ?_
    exact fun _ _ _ => trivial

end Programs

/-! ## Runs -/

/-- The messages in the queue, and those handed out, name stored jobs. -/
def World.Queued (w : World) : Prop :=
  (∀ m ∈ w.ready, ∀ jobId ∈ m.jobId, (w.jobs.lookup jobId).isSome) ∧
    ∀ d ∈ w.unacked, ∀ jobId ∈ d.message.jobId, (w.jobs.lookup jobId).isSome

theorem World.Queued.mono {w w' : World} (h : w.Queued) (hw : w ≤ w')
    (hready : ∀ m ∈ w'.ready, m ∈ w.ready ∨ ∀ jobId ∈ m.jobId, (w'.jobs.lookup jobId).isSome)
    (hunacked : ∀ d ∈ w'.unacked, d ∈ w.unacked ∨
      ∀ jobId ∈ d.message.jobId, (w'.jobs.lookup jobId).isSome) : w'.Queued := by
  have hjobs := World.Keeps.jobs hw
  constructor
  · intro m hm
    rcases hready m hm with hm | hm
    · exact fun jobId hjobId => hjobs.isSome_lookup (h.1 m hm jobId hjobId)
    · exact hm
  · intro d hd
    rcases hunacked d hd with hd | hd
    · exact fun jobId hjobId => hjobs.isSome_lookup (h.2 d hd jobId hjobId)
    · exact hd

/-- A call whose message names a stored job keeps the queue as it should be. -/
theorem queued_handle {c : Command} {e : Env} {op : Op} {w : World} (h : w.Queued)
    (hkeeps : w.KeepsLinks op) (hop : Allowed c w op) : (handle e op w).2.Queued := by
  have hw := movesUp_allowed c e op w hkeeps hop
  rcases handle_world e op w with heq | ⟨reply, hp⟩
  · rw [heq] at hw ⊢
    exact h.mono hw (fun _ => .inl) fun _ => .inl
  obtain ⟨hready, hunacked⟩ := perform_queue hp
  refine h.mono hw (fun m hm => ?_) fun d hd => .inl (hunacked hd)
  rw [hready] at hm
  refine (List.mem_append.mp hm).imp id fun hm jobId hjobId => ?_
  cases op with
  | sendToQueue m' =>
    cases List.mem_singleton.mp hm
    exact (World.Keeps.jobs hw).isSome_lookup (hop jobId hjobId)
  | _ => cases hm

theorem Told.mono {c : Command} {w w' : World} (h : Told c w) (hw : w ≤ w') : Told c w' :=
  ⟨World.Keeps.linked hw h.1, fun delivery hc jobId hjobId =>
    (World.Keeps.jobs hw).isSome_lookup (h.2 delivery hc jobId hjobId)⟩

namespace Operations

/-- What the calls of thread `i` must satisfy. -/
def guarantee (s : Operations) (i : ℕ) : World → Op → Prop :=
  match s.commands[i]? with
  | some c => Allowed c
  | none => fun _ _ => False

theorem guarantee_of {s : Operations} {i : ℕ} {c : Command} (h : s.commands[i]? = some c) :
    s.guarantee i = Allowed c := by
  rw [guarantee, h]

theorem movesUp_guarantee (s : Operations) (i : ℕ) :
    MovesUp handle World.KeepsLinks (s.guarantee i) := by
  unfold guarantee
  split
  · exact movesUp_allowed _
  · exact fun _ _ _ _ h => h.elim

/-- Consumers run on messages of the queue only. -/
def Label.Genuine : Label → Prop
  | .start c => ¬c.Consumes
  | _ => True

instance : DecidablePred Label.Genuine
  | .start c => inferInstanceAs (Decidable ¬c.Consumes)
  | .deliver _ | .step _ _ | .redeliver _ | .stop _ | .expire _ _ => .isTrue trivial

/-- A genuine move that takes no incident its link. -/
def LinksKept (s : Operations) (l : Label) : Prop :=
  l.Genuine ∧ s.Answers (fun _ _ op => s.pool.world.KeepsLinks op) l

instance (s : Operations) : DecidablePred s.LinksKept := fun _ =>
  inferInstanceAs (Decidable (_ ∧ _))

/-- What is published or sent names stored rows, and no execution that runs on a message finds
its job missing. -/
structure NoPhantoms (s : Operations) : Prop where
  event : ∀ i topic payload, s.pool.awaited i = some (.publish topic payload) →
    s.pool.world.Grounded payload
  message : ∀ i m, s.pool.awaited i = some (.sendToQueue m) →
    ∀ jobId ∈ m.jobId, (s.pool.world.jobs.lookup jobId).isSome
  found : ∀ i e jobId delivery, ⟨i, e, .findJob jobId, .ok none⟩ ∈ s.pool.log →
    s.commands[i]? ≠ some (.job (.consume delivery))

/-- The invariant : every thread respects its guarantee, whatever the others do. -/
structure Guarded (s : Operations) : Prop where
  length : s.commands.length = s.pool.threads.length
  threads : s.pool.Respecting handle World.KeepsLinks s.guarantee
  linked : s.pool.world.books.Linked
  queued : s.pool.world.Queued
  found : ∀ i e jobId, ⟨i, e, .findJob jobId, .ok none⟩ ∈ s.pool.log →
    ∃ c ∈ s.commands[i]?, ¬c.Consumes

namespace Guarded

variable {s s' : Operations}

/-- The call a thread awaits is one its command may make. -/
theorem allowed (h : s.Guarded) {i : ℕ} {op : Op} (hop : s.pool.awaited i = some op) :
    ∃ c ∈ s.commands[i]?, Allowed c s.pool.world op := by
  have hi := h.threads.awaited hop
  cases hc : s.commands[i]? with
  | none =>
    rw [guarantee, hc] at hi
    exact hi.elim
  | some c => exact ⟨c, rfl, guarantee_of hc ▸ hi⟩

/-- Something the environment does to the world. -/
theorem withWorld (h : s.Guarded) {w : World} (hw : s.pool.world ≤ w) (hqueued : w.Queued) :
    (s.withWorld w).Guarded where
  length := h.length
  threads := h.threads.of_le hw
  linked := World.Keeps.linked hw h.linked
  queued := hqueued
  found := h.found

theorem start (h : s.Guarded) {c : Command} (hc : Told c s.pool.world) : (s.start c).Guarded where
  length := by simp [Operations.start, Pool.spawn, h.length]
  threads := by
    have hold : ∀ i < s.pool.threads.length, (s.start c).guarantee i = s.guarantee i := by
      intro i hi
      rw [← h.length] at hi
      simp only [guarantee, Operations.start, List.getElem?_append_left hi]
    have hnew : (s.start c).commands[s.pool.threads.length]? = some c := by
      rw [← h.length]
      exact List.getElem?_concat_length
    refine h.threads.spawn hold ?_
    rw [guarantee_of hnew]
    exact relies_prog c _ fun w' hw => hc.mono hw
  linked := h.linked
  queued := h.queued
  found := by
    intro i e jobId hlog
    obtain ⟨c', hc', hconsumes⟩ := h.found i e jobId hlog
    have hi := (List.getElem?_eq_some_iff.mp hc').1
    exact ⟨c', (List.getElem?_append_left hi).trans hc', hconsumes⟩

/-- A call is answered. An execution that runs on a message reads a stored job. -/
theorem advance (h : s.Guarded) {i : ℕ} {e : Env}
    {pool : Pool infrastructure Failure Response Env World}
    (hkept : ∀ op ∈ s.pool.awaited i, s.pool.world.KeepsLinks op)
    (hs : s.pool.advance handle i e = some pool) : Guarded { s with pool } := by
  have hthreads := h.threads.advance s.movesUp_guarantee hkept hs
  obtain ⟨op, k, hk, rfl⟩ := Pool.advance_eq_some hs
  have hawaited := Pool.awaited_eq_some.mpr ⟨k, hk⟩
  have hkeeps := hkept op hawaited
  obtain ⟨c, hc, hop⟩ := h.allowed hawaited
  refine ⟨?_, hthreads, ?_, queued_handle h.queued hkeeps hop, ?_⟩
  · simp [h.length]
  · exact World.Keeps.linked (movesUp_allowed c e op _ hkeeps hop) h.linked
  · intro j e' jobId hlog
    rcases List.mem_append.mp hlog with hlog | hlog
    · exact h.found j e' jobId hlog
    -- The answer just given is that there is no such job.
    obtain ⟨rfl, rfl, rfl, hreply⟩ := by simpa only [List.mem_singleton, Entry.mk.injEq] using hlog
    have hp := (handle_eq_ok (Prod.ext (eq_of_heq hreply).symm rfl)).1
    have hnone : s.pool.world.jobs.lookup jobId = none := (Prod.mk.inj (Option.some.inj hp)).1
    refine ⟨c, hc, fun hconsumes => ?_⟩
    have hstored := hop hconsumes
    rw [hnone] at hstored
    cases hstored

theorem deliver (h : s.Guarded) {n : ℕ} (hs : s.deliver n = some s') : s'.Guarded := by
  obtain ⟨m, hm, rfl⟩ := Option.map_eq_some_iff.mp hs
  have hstored := h.queued.1 m (List.mem_of_getElem? hm)
  dsimp only
  refine .start ?_ ⟨h.linked, ?_⟩
  · refine h.withWorld (.of_eq rfl rfl rfl rfl) (h.queued.mono (.of_eq rfl rfl rfl rfl) ?_ ?_)
    · exact fun m hm => .inl (List.eraseIdx_subset hm)
    · intro d hd
      refine (List.mem_append.mp hd).imp id fun hd => ?_
      rw [List.mem_singleton.mp hd]
      exact hstored
  · rintro delivery ⟨⟩
    exact hstored

theorem redeliver (h : s.Guarded) {tag : ℕ} {w : World}
    (hw : RealtimeOps.redeliver tag s.pool.world = some w) : (s.withWorld w).Guarded := by
  obtain ⟨d, hd, rfl⟩ := Option.map_eq_some_iff.mp hw
  refine h.withWorld (.of_eq rfl rfl rfl rfl) (h.queued.mono (.of_eq rfl rfl rfl rfl) ?_ ?_)
  · intro m hm
    refine (List.mem_append.mp hm).imp id fun hm => ?_
    rw [List.mem_singleton.mp hm]
    exact h.queued.2 d (List.mem_of_find?_eq_some hd)
  · exact fun d hd => .inl (List.filter_sublist.subset hd)

theorem expire (h : s.Guarded) {key : String} {now : Date} {w : World}
    (hw : RealtimeOps.expire key now s.pool.world = some w) : (s.withWorld w).Guarded := by
  obtain ⟨lock, -, -, rfl⟩ := expire_eq_some.mp hw
  exact h.withWorld (.of_eq rfl rfl rfl rfl) h.queued

theorem halt (h : s.Guarded) (i : ℕ) (err : Failure) :
    Guarded { s with pool := s.pool.halt i err } where
  length := by simp [Pool.halt, h.length]
  threads := h.threads.halt i err
  linked := h.linked
  queued := h.queued
  found := h.found

/-- Nothing runs over empty tables and an empty queue. -/
theorem init : (Operations.init .empty).Guarded where
  length := rfl
  threads := fun i p hp => by cases hp
  linked := fun i hi => by cases hi
  queued := ⟨by rintro m ⟨⟩, by rintro d ⟨⟩⟩
  found := fun i e jobId hlog => by cases hlog

/-- Every move that keeps the links keeps the guarantees. -/
theorem step (h : s.Guarded) {l : Label} (hl : s.LinksKept l) (hs : s.step l = some s') :
    s'.Guarded := by
  cases l with
  | start c =>
    cases hs
    refine h.start ⟨h.linked, ?_⟩
    rintro delivery rfl
    exact absurd trivial hl.1
  | deliver n => exact h.deliver hs
  | step i e =>
    obtain ⟨-, pool, hpool, rfl⟩ := step_step.mp hs
    exact h.advance hl.2 hpool
  | redeliver tag =>
    obtain ⟨w, hw, rfl⟩ := Option.map_eq_some_iff.mp hs
    exact h.redeliver hw
  | stop i =>
    obtain ⟨-, rfl⟩ := step_stop.mp hs
    exact h.halt i _
  | expire key now =>
    obtain ⟨w, hw, rfl⟩ := Option.map_eq_some_iff.mp hs
    exact h.expire hw

theorem noPhantoms (h : s.Guarded) : s.NoPhantoms where
  event i topic payload hop := by
    obtain ⟨c, -, hop⟩ := h.allowed hop
    exact hop
  message i m hop := by
    obtain ⟨c, -, hop⟩ := h.allowed hop
    exact hop
  found i e jobId delivery hlog hc := by
    obtain ⟨c', hc', hconsumes⟩ := h.found i e jobId hlog
    cases hc'.symm.trans hc
    exact hconsumes trivial

end Guarded

end Operations

/-- From empty tables and an empty queue, in every interleaving of the commands, with calls that
reject, processes that die, deliveries repeated and keys that run out, and in which no alert that
was loaded without an incident is saved once an incident is linked to it : whenever an event or a
message is about to be published, the ids it carries are those of stored rows, an incident and an
alert that it carries together are linked, and no execution that runs on a message finds its job
missing. -/
theorem no_phantoms {s : Operations} (h : Reachable Operations.step Operations.LinksKept
    (.init .empty) s) : s.NoPhantoms :=
  (h.invariant (fun _ _ _ hs hl hstep => hs.step hl hstep) Operations.Guarded.init).noPhantoms

/-- An alert is acknowledged while its incident is being opened : bob loads it before, and saves it
after the incident is inserted, which takes the incident its link. -/
def unlinkedRun : List Operations.Label :=
  .start (.createAlert ⟨none, "disk", .CRITICAL, "disk full", "no space left", "alice",
      false⟩) ::
    Operations.calls 0 1 1 ++ .start (.acknowledgeAlert 1 "bob") :: Operations.calls 1 2 2 ++
    Operations.calls 0 1 4 ++ Operations.calls 1 1 5 ++ Operations.calls 0 2 6

/-- The events of an alert and its incident name them together, though the incident has lost its
link. -/
theorem not_no_phantoms : ¬∀ s : Operations,
    Reachable Operations.step (fun _ l => l.Genuine) (.init .empty) s → s.NoPhantoms := by
  intro h
  obtain ⟨s, hs, hop, hlink⟩ :
      ∃ s, Reachable Operations.step (fun _ l => l.Genuine) (.init .empty) s ∧
        s.pool.awaited 0 = some (.publish "alert.raised"
          [("alertId", .uuid 1), ("severity", .str "critical"), ("title", .str "disk full"),
            ("source", .str "disk"), ("status", .str "open"), ("incidentId", .uuid 4)]) ∧
        (s.pool.world.incidents.lookup 4).map (·.alertId) = some none :=
    exists_reachable_of_execute _ unlinkedRun _ (by decide +kernel)
  obtain ⟨-, -, -, hincident⟩ := (h s hs).event 0 _ _ hop
  obtain ⟨incident, hfound, hlinked⟩ := hincident 4 (by simp)
  rw [Option.mem_def.mp hfound, Option.map_some, hlinked 1 (by simp)] at hlink
  cases hlink

/-- An alert is acknowledged with its incident, and a consumer is about to announce the incident of
a job that has failed for good. -/
theorem no_phantoms_escalated : ∃ s payload,
    Reachable Operations.step Operations.LinksKept (.init .empty) s ∧
      s.pool.awaited 1 = some (.publish "incident.updated" payload) ∧
      payload = [("incidentId", .uuid 32), ("status", .str "open"), ("alertId", .uuid 31)] ∧
      s.pool.world.Grounded payload := by
  obtain ⟨s, hs, hop⟩ :
      ∃ s, Reachable Operations.step Operations.LinksKept (.init .empty) s ∧
        s.pool.awaited 1 = some (.publish "incident.updated"
          [("incidentId", .uuid 32), ("status", .str "open"), ("alertId", .uuid 31)]) :=
    exists_reachable_of_execute _
      (.start (.job (.create ⟨"ingest", "batch", [("shouldFail", .bool true)], 1, 1, "alice"⟩)) ::
        Operations.calls 0 7 1 ++ .deliver 0 :: Operations.calls 1 13 20 ++
        .start (.acknowledgeAlert 31 "bob") :: Operations.calls 2 5 40 ++ Operations.calls 1 6 50)
      _ (by decide +kernel)
  exact ⟨s, _, hs, hop, rfl, (no_phantoms hs).event 1 _ _ hop⟩

end RealtimeOps
