import RealtimeOps.Books

/-!
# The audit log of alerts and incidents

The audit entries of an alert or an incident should tell its history : one entry for each
insertion or change of status, so that `replay` gives the stored status. The worker logs the
alert and the incident of a failure apart. `AlertService.create` logs an incident it opens only
in the metadata of its alert, and the commands on an incident log nothing about the alert they
overwrite.

`audit_complete` : a command logs all it does to statuses exactly if it is none of these cases
(`Covered`), and the entries replay to the stored statuses in every session without them.
-/

set_option autoImplicit false

namespace RealtimeOps

open Interleaving JobProcessorService

/-- The kinds of rows whose audit entries are replayed here. -/
inductive Subject where
  | alert
  | incident
  deriving DecidableEq

/-- The type their audit entries have. -/
def Subject.entityType : Subject → EntityType
  | alert => .ALERT
  | incident => .INCIDENT

theorem AlertStatus.value_injective : Function.Injective AlertStatus.value := by
  intro status status' h
  cases status <;> cases status' <;> first | rfl | exact absurd h (by decide)

/-- The stored status of a row. -/
def Books.statusOf (b : Books) : Subject → Uuid → Option String
  | .alert, id => (b.alerts.lookup id).map fun a => a.status.value
  | .incident, id => (b.incidents.lookup id).map fun i => i.status.value

/-- The status that an action on an alert or an incident leaves it in. -/
def statusAfter : String → Option String
  | "alert.created" | "alert.raised" | "incident.created" => some "open"
  | "alert.acknowledged" | "incident.acknowledged" => some "acknowledged"
  | "incident.resolved" => some "resolved"
  | _ => none

/-- The entries of each row replay to its stored status. -/
def Books.Replays (b : Books) : Prop :=
  ∀ (subject : Subject) (id : Uuid),
    replay statusAfter (actionsOn b.trail subject.entityType id) = b.statusOf subject id

/-- Each row that is new or changes its status has exactly one new entry. -/
def Logged (b b' : Books) : Prop :=
  ∀ (subject : Subject) (id : Uuid), b'.statusOf subject id ≠ b.statusOf subject id →
    (actionsOn (b'.trail.drop b.trail.length) subject.entityType id).length = 1

/-- The command changes the status of no row that it does not log : it does not create an alert
with an incident, and an unresolved incident it acknowledges or resolves has no alert of another
status than it leaves. -/
def Covered (b : Books) : Command → Prop
  | .createAlert input => ¬input.opensIncident
  | .acknowledge incidentId _ =>
    ∀ incident ∈ b.incidents.lookup incidentId, incident.status ≠ .RESOLVED →
      ∀ alert ∈ incident.alertId.bind b.alerts.lookup, alert.status = .ACKNOWLEDGED
  | .resolve incidentId _ =>
    ∀ incident ∈ b.incidents.lookup incidentId, incident.status ≠ .RESOLVED →
      ∀ alert ∈ incident.alertId.bind b.alerts.lookup, alert.status = .RESOLVED
  | _ => True

instance (b : Books) : DecidablePred (Covered b)
  | .createAlert _ => inferInstanceAs (Decidable ¬_)
  | .acknowledge _ _ | .resolve _ _ => inferInstanceAs (Decidable (∀ _ ∈ _, _ → ∀ _ ∈ _, _))
  | .job _ | .acknowledgeAlert _ _ => .isTrue trivial

/-! ## What a transaction logs -/

/-- The new entries give the status of the row, or it is as before and there are none. -/
def Traced (b b' : Books) (new : List CreateAuditEntryInput) (subject : Subject) (id : Uuid) :
    Prop :=
  actionsOn new subject.entityType id = [] ∧ b'.statusOf subject id = b.statusOf subject id ∨
    ∃ action status, actionsOn new subject.entityType id = [action] ∧
      statusAfter action = some status ∧ b'.statusOf subject id = some status

section Traced

variable {b b' : Books} {new : List CreateAuditEntryInput} {subject : Subject} {id : Uuid}

theorem replays_of_traced (h : b.Replays) (htrail : b'.trail = b.trail ++ new)
    (htraced : ∀ subject id, Traced b b' new subject id) : b'.Replays := by
  intro subject id
  rw [htrail, actionsOn_append]
  obtain ⟨hnone, hsame⟩ | ⟨action, status, hone, hafter, hstatus⟩ := htraced subject id
  · rw [hnone, List.append_nil, hsame]
    exact h subject id
  · rw [hone, replay_concat, hafter, hstatus]
    rfl

theorem logged_of_traced (htrail : b'.trail = b.trail ++ new)
    (htraced : ∀ subject id, Traced b b' new subject id) : Logged b b' := by
  intro subject id hne
  rw [htrail, List.drop_left]
  obtain ⟨-, hsame⟩ | ⟨action, status, hone, -⟩ := htraced subject id
  · exact absurd hsame hne
  · rw [hone]
    rfl

/-- One row gets its entry and its status. -/
theorem Traced.of_ite {c : Prop} [Decidable c] (action status : String)
    (hafter : statusAfter action = some status)
    (hactions : actionsOn new subject.entityType id = if c then [action] else [])
    (hstatus : b'.statusOf subject id = if c then some status else b.statusOf subject id) :
    Traced b b' new subject id := by
  split_ifs at hactions hstatus
  · exact .inr ⟨action, status, hactions, hafter, hstatus⟩
  · exact .inl ⟨hactions, hstatus⟩

end Traced

section Statuses

variable {b b' : Books} {alert row : AlertEntity} {incident : IncidentEntity}

theorem statusOf_alert_eq (h : b'.alerts = b.alerts) (id : Uuid) :
    b'.statusOf .alert id = b.statusOf .alert id := by
  rw [Books.statusOf, h, Books.statusOf]

theorem statusOf_incident_eq (h : b'.incidents = b.incidents) (id : Uuid) :
    b'.statusOf .incident id = b.statusOf .incident id := by
  rw [Books.statusOf, h, Books.statusOf]

theorem statusOf_insert_alert (h : b.alerts.insert alert = some b'.alerts) (id : Uuid) :
    b'.statusOf .alert id =
      if alert.id = id then some alert.status.value else b.statusOf .alert id := by
  rw [Books.statusOf, Table.lookup_insert h, apply_ite (Option.map _)]
  rfl

theorem statusOf_insert_incident (h : b.incidents.insert incident = some b'.incidents) (id : Uuid) :
    b'.statusOf .incident id =
      if incident.id = id then some incident.status.value else b.statusOf .incident id := by
  rw [Books.statusOf, Table.lookup_insert h, apply_ite (Option.map _)]
  rfl

theorem statusOf_save_alert (h : b'.alerts = b.alerts.save alert) (id : Uuid) :
    b'.statusOf .alert id =
      if alert.id = id then some alert.status.value else b.statusOf .alert id := by
  rw [Books.statusOf, h, Table.lookup_save, apply_ite (Option.map _)]
  rfl

theorem statusOf_save_incident (h : b'.incidents = b.incidents.save incident) (id : Uuid) :
    b'.statusOf .incident id =
      if incident.id = id then some incident.status.value else b.statusOf .incident id := by
  rw [Books.statusOf, h, Table.lookup_save, apply_ite (Option.map _)]
  rfl

/-- The status of the linked alert once it is updated. -/
theorem statusOf_update {linked : Option Uuid} {changes : AlertUpdate} {now : Date}
    (h : b'.alerts = updateLinked b.alerts linked changes now) (id : Uuid) :
    b'.statusOf .alert id =
      if linked = some id then (b.statusOf .alert id).map fun _ => changes.status.value
      else b.statusOf .alert id := by
  rw [Books.statusOf, h, lookup_updateLinked, apply_ite (Option.map _), Option.map_map]
  rw [Books.statusOf, Option.map_map]
  rfl

/-- The update changes no status exactly if the linked alert has it already. -/
theorem statusOf_update_eq_iff {linked : Option Uuid} {changes : AlertUpdate} {now : Date}
    (h : b'.alerts = updateLinked b.alerts linked changes now) :
    (∀ id, b'.statusOf .alert id = b.statusOf .alert id) ↔
      ∀ alert ∈ linked.bind b.alerts.lookup, alert.status = changes.status := by
  constructor
  · intro hsame alert halert
    obtain ⟨alertId, rfl, hfound⟩ := Option.bind_eq_some_iff.mp halert
    have hvalue := hsame alertId
    rw [statusOf_update h, if_pos rfl, Books.statusOf, hfound] at hvalue
    exact (AlertStatus.value_injective (Option.some.inj hvalue)).symm
  · intro hstatus id
    rw [statusOf_update h]
    split_ifs with hlink
    · cases halert : b.alerts.lookup id with
      | none => rw [Books.statusOf, halert]; rfl
      | some alert =>
        rw [Books.statusOf, halert, Option.map_some, Option.map_some,
          hstatus alert (hlink ▸ halert)]
    · rfl

end Statuses

/-- Alerts, incidents and their entries are as before. -/
theorem traced_of_eq {b b' : Books} {new : List CreateAuditEntryInput}
    (halerts : b'.alerts = b.alerts) (hincidents : b'.incidents = b.incidents)
    (hnew : ∀ e ∈ new, e.entityType = .JOB) (subject : Subject) (id : Uuid) :
    Traced b b' new subject id := by
  refine .inl ⟨?_, ?_⟩
  · rw [actionsOn, List.filter_eq_nil_iff.mpr, List.map_nil]
    intro e he
    rw [hnew e he]
    cases subject <;> simp [Subject.entityType]
  · cases subject with
    | alert => exact statusOf_alert_eq halerts id
    | incident => exact statusOf_incident_eq hincidents id

/-- An open alert is added, and the log says so. -/
theorem traced_opened {b b' : Books} {alert : AlertEntity} {new : List CreateAuditEntryInput}
    {id : Uuid} (action : String) (haction : statusAfter action = some "open")
    (halerts : b.alerts.insert alert = some b'.alerts) (hopen : alert.status = .OPEN)
    (hnew : actionsOn new .ALERT id = if alert.id = id then [action] else []) :
    Traced b b' new .alert id := by
  refine .of_ite action "open" haction hnew ?_
  rw [statusOf_insert_alert halerts, hopen]
  rfl

/-- An execution logs all it does to alerts and incidents. -/
theorem Executed.traced {b b' : Books} {jobId : Uuid} (h : Executed b jobId b') :
    ∃ new, b'.trail = b.trail ++ new ∧ ∀ subject id, Traced b b' new subject id := by
  cases h with
  | idle h =>
    subst h
    exact ⟨[], (List.append_nil _).symm, traced_of_eq rfl rfl (by simp)⟩
  | completed hjob hgood hcols hjobs hattempts halerts hincidents hfeed hn htrail =>
    rw [List.append_assoc] at htrail
    exact ⟨_, htrail, traced_of_eq halerts hincidents (by simp)⟩
  | @failed job attempt alert n errorMessage m m' m'' t u v x hjob hbad hcols hjobs hattempts halert
      halerts hhigh hincidents hfeed hn htrail =>
    rw [List.append_assoc, List.append_assoc] at htrail
    refine ⟨_, htrail, fun subject id => ?_⟩
    have hopen : alert.status = .OPEN := congrArg AlertColumns.status halert
    cases subject with
    | alert =>
      exact traced_opened "alert.raised" rfl halerts hopen (by simp [actionsOn_cons])
    | incident =>
      exact .inl ⟨by simp [actionsOn_cons, Subject.entityType], statusOf_incident_eq hincidents id⟩
  | @escalated job attempt alert incident n errorMessage m m' m'' m''' t u v x hjob hbad hcols hjobs
      hattempts halert halerts hcritical hincident hfree hincidents hfeed hn htrail =>
    rw [List.append_assoc, List.append_assoc, List.append_assoc] at htrail
    refine ⟨_, htrail, fun subject id => ?_⟩
    have hopen : alert.status = .OPEN := congrArg AlertColumns.status halert
    have hopen' : incident.status = .OPEN := congrArg IncidentColumns.status hincident
    cases subject with
    | alert =>
      exact traced_opened "alert.raised" rfl halerts hopen (by simp [actionsOn_cons])
    | incident =>
      refine .of_ite "incident.created" "open" rfl ?_ ?_ (c := incident.id = id)
      · simp [actionsOn_cons, Subject.entityType]
      · rw [statusOf_insert_incident hincidents, hopen']
        rfl

/-- A command on an incident logs its new status, and the alert's if that does not change. -/
theorem traced_of_settled {b b' : Books} {incident row : IncidentEntity} {changes : AlertUpdate}
    {now : Date} {e : CreateAuditEntryInput} (hincidents : b'.incidents = b.incidents.save row)
    (halerts : b'.alerts = updateLinked b.alerts incident.alertId changes now)
    (hsame : ∀ alert ∈ incident.alertId.bind b.alerts.lookup, alert.status = changes.status)
    (htype : e.entityType = .INCIDENT) (hid : e.entityId = some row.id)
    (hafter : statusAfter e.action = some row.status.value) (subject : Subject) (id : Uuid) :
    Traced b b' [e] subject id := by
  cases subject with
  | alert =>
    exact .inl ⟨by simp [actionsOn_cons, Subject.entityType, htype],
      (statusOf_update_eq_iff halerts).mpr hsame id⟩
  | incident =>
    refine .of_ite e.action _ hafter ?_ (statusOf_save_incident hincidents id)
    simp [actionsOn_cons, Subject.entityType, htype, hid]

/-- A covered command logs all it does to alerts and incidents. -/
theorem Books.Writes.traced {b b' : Books} {command : Command} {r : Except Failure Response}
    (h : b.Writes command r b') (hcovered : Covered b command) :
    ∃ new, b'.trail = b.trail ++ new ∧ ∀ subject id, Traced b b' new subject id := by
  cases h with
  | refused h err => exact ⟨[], (List.append_nil _).symm, traced_of_eq rfl rfl (by simp)⟩
  | read jobId r => exact ⟨[], (List.append_nil _).symm, traced_of_eq rfl rfl (by simp)⟩
  | dropped hnone r => exact ⟨[], (List.append_nil _).symm, traced_of_eq rfl rfl (by simp)⟩
  | executed hcommand h => exact h.traced
  | created hcols hjobs hattempts halerts hincidents hfeed hn htrail =>
    exact ⟨_, htrail, traced_of_eq halerts hincidents (by simp)⟩
  | retried hjob hstatus hleft hjobs hattempts halerts hincidents hfeed hn htrail =>
    exact ⟨_, htrail, traced_of_eq halerts hincidents (by simp)⟩
  | @raised input alert m _ hcols hopens halerts hincidents hjobs hattempts hfeed htrail =>
    refine ⟨_, htrail, fun subject id => ?_⟩
    have hopen : alert.status = .OPEN := congrArg AlertColumns.status hcols
    cases subject with
    | alert =>
      exact traced_opened "alert.created" rfl halerts hopen (by simp [actionsOn_cons])
    | incident =>
      exact .inl ⟨by simp [actionsOn_cons, Subject.entityType], statusOf_incident_eq hincidents id⟩
  | raisedWithIncident hcols hopens halerts hincident hfree hincidents hjobs hattempts hfeed
      htrail => exact absurd hopens hcovered
  | @alertAcknowledged alertId operatorId alert _ m t u _ halert hstatus halerts hincidents hjobs
      hattempts hfeed htrail =>
    refine ⟨_, htrail, fun subject id => ?_⟩
    obtain ⟨-, rfl⟩ := Table.lookup_eq_some.mp halert
    cases subject with
    | alert =>
      refine .of_ite "alert.acknowledged" "acknowledged" rfl ?_ ?_ (c := alert.id = id)
      · simp [actionsOn_cons, Subject.entityType]
      · exact statusOf_save_alert halerts id
    | incident =>
      exact .inl ⟨by simp [actionsOn_cons, Subject.entityType], statusOf_incident_eq hincidents id⟩
  | acknowledged hincident hstatus hincidents halerts hjobs hattempts hfeed htrail =>
    obtain ⟨-, rfl⟩ := Table.lookup_eq_some.mp hincident
    exact ⟨_, htrail, traced_of_settled hincidents halerts (hcovered _ hincident hstatus) rfl rfl
      rfl⟩
  | resolved hincident hstatus hbefore hincidents halerts hjobs hattempts hfeed htrail =>
    refine ⟨_, htrail, traced_of_settled hincidents halerts (hcovered _ hincident hstatus) rfl ?_
      rfl⟩
    obtain ⟨-, rfl⟩ := Table.lookup_eq_some.mp hincident
    rw [hbefore]
    split_ifs <;> rfl

/-! ## Coverage -/

/-- An entry about an incident does not account for a change of its alert. -/
theorem Logged.unchanged {b b' : Books} {e : CreateAuditEntryInput} {linked : Option Uuid}
    {changes : AlertUpdate} {now : Date} (h : Logged b b') (htrail : b'.trail = b.trail ++ [e])
    (halerts : b'.alerts = updateLinked b.alerts linked changes now)
    (htype : e.entityType = .INCIDENT) :
    ∀ alert ∈ linked.bind b.alerts.lookup, alert.status = changes.status := by
  refine (statusOf_update_eq_iff halerts).mp fun id => ?_
  by_contra hne
  have hone := h .alert id hne
  rw [htrail, List.drop_left] at hone
  simp [actionsOn_cons, Subject.entityType, htype] at hone

/-- A transaction that logs all its changes is covered. -/
theorem Books.Writes.covered {b b' : Books} {command : Command} {r : Except Failure Response}
    (h : b.Writes command r b') (hlogged : Logged b b') : Covered b command := by
  cases h with
  | @refused command h err =>
    match command, h with
    | .job _, _ => trivial
    | .acknowledgeAlert _ _, _ => trivial
    | .acknowledge incidentId _, h =>
      exact fun incident hincident hstatus => absurd (h incident hincident) hstatus
    | .resolve incidentId _, h =>
      exact fun incident hincident hstatus => absurd (h incident hincident) hstatus
  | read | dropped | created | retried | alertAcknowledged => trivial
  | @executed command jobId _ hcommand h =>
    match command, hcommand with
    | .job _, _ => trivial
  | raised hcols hopens => exact hopens
  | @raisedWithIncident input alert incident m _ hcols hopens halerts hincident hfree hincidents
      hjobs hattempts hfeed htrail =>
    -- The incident is new, and there is no entry about it.
    have hnew : b.statusOf .incident incident.id = none := by
      rw [Books.statusOf, Table.lookup_eq_none.mpr (Table.insert_eq_some hincidents).2]
      rfl
    have hone := hlogged .incident incident.id (by
      rw [statusOf_insert_incident hincidents, if_pos rfl, hnew]
      simp)
    rw [htrail, List.drop_left] at hone
    simp [actionsOn_cons, Subject.entityType] at hone
  | @acknowledged incidentId operatorId incident t u v x _ hincident hstatus hincidents halerts
      hjobs hattempts hfeed htrail =>
    intro incident' hincident' _
    cases hincident.symm.trans hincident'
    exact hlogged.unchanged htrail halerts rfl
  | @resolved incidentId operatorId incident before m s t u v x _ hincident hstatus hbefore
      hincidents halerts hjobs hattempts hfeed htrail =>
    intro incident' hincident' _
    cases hincident.symm.trans hincident'
    exact hlogged.unchanged htrail halerts rfl

namespace CommandSession

/-- The next command is covered. -/
def NextCovered (s : CommandSession) (l : Command × (ℕ → Env)) : Prop :=
  Covered s.world.books l.1

instance (s : CommandSession) : DecidablePred s.NextCovered :=
  fun l => inferInstanceAs (Decidable (Covered _ l.1))

end CommandSession

/-- Nothing is stored and nothing logged. -/
theorem replays_empty : World.empty.books.Replays := by
  intro subject id
  cases subject <;> rfl

/-- The completeness of the audit log. From books whose entries replay to the stored statuses,
and through any session of covered commands, they still do, and the next command logs all it
inserts or changes, and leaves the entries replaying, exactly if it is covered. -/
theorem audit_complete {w : World} {s : CommandSession} (hw : w.books.Replays)
    (h : Reachable CommandSession.step CommandSession.NextCovered (CommandSession.init w) s) :
    s.world.books.Replays ∧ ∀ l s', s.step l = some s' →
      (Logged s.world.books s'.world.books ∧ s'.world.books.Replays ↔ s.NextCovered l) := by
  have hkeeps : ∀ (s : CommandSession) l s', s.world.books.Replays → s.NextCovered l →
      s.step l = some s' → Logged s.world.books s'.world.books ∧ s'.world.books.Replays := by
    intro s l s' hs hl hstep
    obtain ⟨r, hwrites, -⟩ := CommandSession.step_writes hstep
    obtain ⟨new, htrail, htraced⟩ := hwrites.traced hl
    exact ⟨logged_of_traced htrail htraced, replays_of_traced hs htrail htraced⟩
  have hreplays : s.world.books.Replays :=
    Reachable.invariant (I := fun s => s.world.books.Replays)
      (fun s l s' hs hl hstep => (hkeeps s l s' hs hl hstep).2) hw h
  refine ⟨hreplays, fun l s' hstep =>
    ⟨fun hlogged => ?_, fun hl => hkeeps s l s' hreplays hl hstep⟩⟩
  obtain ⟨r, hwrites, -⟩ := CommandSession.step_writes hstep
  exact hwrites.covered hlogged.1

theorem audit_complete_escalated : ∃ (s : CommandSession) (incident : IncidentEntity),
    incident ∈ s.world.incidents.rows ∧ incident.status = .ACKNOWLEDGED ∧
      s.world.books.Replays ∧
        ¬s.NextCovered (.resolve incident.id "carol", CommandSession.smooth 80) := by
  obtain ⟨s, hs, incident, hincident, hack, hnext⟩ :
      ∃ s, Reachable CommandSession.step CommandSession.NextCovered (CommandSession.init .empty) s ∧
        ∃ incident ∈ s.world.incidents.rows, incident.status = .ACKNOWLEDGED ∧
          ¬s.NextCovered (.resolve incident.id "carol", CommandSession.smooth 80) :=
    exists_reachable_of_execute _
      [(.job (.create ⟨"ingest", "batch", [("shouldFail", .bool true)], 1, 1, "alice"⟩),
          CommandSession.smooth 1),
        (.job (.process ⟨1, "created", "alice"⟩), CommandSession.smooth 10),
        (.acknowledgeAlert 21 "bob", CommandSession.smooth 40),
        (.acknowledge 22 "bob", CommandSession.smooth 60)] _ (by decide)
  exact ⟨s, incident, hincident, hack, (audit_complete replays_empty hs).1, hnext⟩

/-- A critical alert is created, and its incident has no entry. -/
theorem not_audit_complete : ¬∀ s l s', Reachable CommandSession.step
    (CommandSession.Runs fun _ => True) (CommandSession.init .empty) s → s.step l = some s' →
      Logged s.world.books s'.world.books ∧ s'.world.books.Replays := by
  intro h
  obtain ⟨s', hs', hnew⟩ : ∃ s', (CommandSession.init .empty).step
      (.createAlert ⟨none, "probe", .CRITICAL, "disk full", "no space left", "alice", false⟩,
        CommandSession.smooth 1) = some s' ∧
      s'.world.books.statusOf .incident 2 = some "open" ∧
      actionsOn s'.world.books.trail .INCIDENT 2 = [] :=
    ⟨_, rfl, by decide, by decide⟩
  have hreplay := (h _ _ _ .refl hs').2 .incident 2
  rw [hnew.1, Subject.entityType, hnew.2] at hreplay
  cases hreplay

end RealtimeOps
