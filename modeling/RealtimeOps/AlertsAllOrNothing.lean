import RealtimeOps.AllOrNothing
import RealtimeOps.IncidentService

/-!
# Alerts and incidents, all or nothing

`AlertService.create` inserts an alert and perhaps an incident, `IncidentService.acknowledge`
and `resolve` save an incident and update its alert. What follows is the operator action, the
audit entry and the events, all as separate calls.

`alerts_all_or_nothing` : a command writes all of its rows or none exactly if, once one of its
writes has changed a row, every call goes through. An acknowledgement can write what is stored
already, when the same operator repeats it within a millisecond, and then nothing is lost by a
later rejection.
-/

set_option autoImplicit false

namespace RealtimeOps

open Interleaving

/-- The alerts and the incidents of `w'` are those of `w`. -/
def SameAlerts (w w' : World) : Prop :=
  w'.alerts = w.alerts ∧ w'.incidents = w.incidents

/-- If the command rejects, the alerts and the incidents are as before. -/
def AlertsIntact {α : Type} (w : World) : Except Failure α → World → Prop
  | .error _, w' => SameAlerts w w'
  | .ok _, _ => True

/-- The command, run from `w`, writes all of its alerts and incidents or none. -/
def AlertsAllOrNothing {α : Type} (p : Promise α) (w : World) (script : ℕ → Env) : Prop :=
  AlertsIntact w (p.run handle script 0 w).1 (p.run handle script 0 w).2

/-- The calls that record a command, `n` the first of them, and the `events` it publishes all
go through. -/
structure Records (w : World) (operatorId : String) (script : ℕ → Env) (n events : ℕ) :
    Prop where
  resolves : ∀ k < 2 + events, (script (n + k)).outcome = .resolves
  operator : fits operatorId 80
  action : ∀ a ∈ w.operatorActions.rows, a.id ≠ (script n).uuid
  audit : ∀ a ∈ w.auditEntries.rows, a.id ≠ (script (n + 1)).uuid

/-- The insertion of the alert takes effect. -/
def Raises (w : World) (input : CreateAlertInput) (script : ℕ → Env) : Prop :=
  ((∀ id, input.jobId = some id → (w.jobs.lookup id).isSome) ∧ fits input.source 30 ∧
    fits input.title 120) ∧
    (∀ a ∈ w.alerts.rows, a.id ≠ (script 0).uuid) ∧ (script 0).outcome ≠ .rejects

/-- What follows the insertion of the alert goes through. -/
def Raised (w : World) (input : CreateAlertInput) (script : ℕ → Env) : Prop :=
  if input.opensIncident then
    (∀ i ∈ w.incidents.rows, i.alertId ≠ some (script 0).uuid ∧ i.id ≠ (script 1).uuid) ∧
      (script 1).outcome = .resolves ∧ Records w input.operatorId script 2 2
  else Records w input.operatorId script 1 1

/-- The save of `row` takes effect and changes `incident`. -/
def SaveChanges (incident row : IncidentEntity) (e : Env) : Prop :=
  operatorsFit row.acknowledgedBy row.resolvedBy ∧ e.outcome ≠ .rejects ∧ row ≠ incident

/-- The update of the alert `linked` to the incident takes effect and changes it. -/
def UpdateChanges (w : World) (linked : Option Uuid) (changes : AlertUpdate) (e : Env) : Prop :=
  ∃ alertId ∈ linked, ∃ alert ∈ w.alerts.lookup alertId,
    operatorsFit changes.acknowledgedBy changes.resolvedBy ∧ e.outcome ≠ .rejects ∧
      changes.apply e.now alert ≠ alert

/-- From the save of the incident on, the `n`-th call, every call goes through. -/
structure Propagates (w : World) (linked : Option Uuid) (row : IncidentEntity)
    (operatorId : String) (changes : AlertUpdate) (script : ℕ → Env) (n : ℕ) : Prop where
  saved : operatorsFit row.acknowledgedBy row.resolvedBy ∧ (script n).outcome = .resolves
  updated : ∀ alertId ∈ linked, (script (n + 2)).outcome = .resolves ∧
    ∀ alert ∈ w.alerts.lookup alertId, operatorsFit changes.acknowledgedBy changes.resolvedBy
  recorded : Records w operatorId script (if linked.isSome then n + 3 else n + 1) 1

/-- If the save of the incident as `row`, the `n`-th call, or the update of the linked alert
changes what is stored, then every call goes through. -/
def PropagatesAll (w : World) (incident row : IncidentEntity) (operatorId : String)
    (changes : Date → AlertUpdate) (script : ℕ → Env) (n : ℕ) : Prop :=
  SaveChanges incident row (script n) ∨
    (operatorsFit row.acknowledgedBy row.resolvedBy ∧ (script n).outcome = .resolves ∧
      UpdateChanges w incident.alertId (changes (script (n + 1)).now) (script (n + 2))) →
    Propagates w incident.alertId row operatorId (changes (script (n + 1)).now) script n

section Alerts

variable {script : ℕ → Env}

/-- Publish the events in turn, then return `a`. -/
def publishAll {α : Type} (events : List (String × Record)) (a : α) : Promise α :=
  events.foldr (fun e rest => (await (.publish e.1 e.2)).bind fun _ => rest) (.ret a)

/-- Publishing all events changes no alert and no incident. -/
theorem decides_publishAll {α : Type} {a : α} {w w₁ : World} (hw : ¬SameAlerts w w₁)
    (events : List (String × Record)) (n : ℕ) :
    Prog.wp handle script
      (Prog.Decides (∀ k < events.length, (script (n + k)).outcome = .resolves)
        (fun a => AlertsIntact w (.ok a)) fun w' => ∀ err, ¬AlertsIntact w (.error (α := α) err) w')
      (publishAll events a) n w₁ := by
  induction events generalizing n w₁ with
  | nil => exact ⟨by simp, trivial⟩
  | cons e events ih =>
    have hiff : (∀ k < (e :: events).length, (script (n + k)).outcome = .resolves) ↔
        (script n).outcome = .resolves ∧
          ∀ k < events.length, (script (n + 1 + k)).outcome = .resolves := by
      rw [List.length_cons, Nat.forall_lt_succ_left]
      simp only [Nat.add_zero, Nat.add_assoc, Nat.add_comm 1]
    rw [hiff]
    exact decides_plain rfl rfl (fun _ => hw) (fun _ => hw) (ih (by exact hw) (n + 1))

/-- The recording of a command and its events, after a write that changed a row. -/
theorem decides_record {α : Type} {a : α} {w w₁ : World} {operatorId : String} {n : ℕ}
    {action : OperatorActionColumns} {entry : CreateAuditEntryInput} (hw : ¬SameAlerts w w₁)
    (hactions : w₁.operatorActions = w.operatorActions)
    (haudit : w₁.auditEntries = w.auditEntries) (hop : action.operatorId = operatorId)
    (haction : fits action.action 80) (hactor : entry.actorId = some operatorId)
    (hentry : fits entry.action 100) (events : List (String × Record)) :
    Prog.wp handle script
      (Prog.Decides (Records w operatorId script n events.length)
        (fun a => AlertsIntact w (.ok a)) fun w' => ∀ err, ¬AlertsIntact w (.error (α := α) err) w')
      (do
        let _ ← await (.insertOperatorAction action)
        let _ ← AuditService.log entry
        publishAll events a) n w₁ := by
  have hiff : Records w operatorId script n events.length ↔
      ((fits action.operatorId 80 ∧ fits action.action 80) ∧
        ∀ a ∈ w₁.operatorActions.rows, a.id ≠ (script n).uuid) ∧
      (script n).outcome = .resolves ∧
      ((fits (entry.actorId.getD "") 80 ∧ fits entry.action 100) ∧
        ∀ a ∈ w₁.auditEntries.rows, a.id ≠ (script (n + 1)).uuid) ∧
      (script (n + 1)).outcome = .resolves ∧
      ∀ k < events.length, (script (n + 1 + 1 + k)).outcome = .resolves := by
    rw [hop, hactor, Option.getD_some, hactions, haudit]
    constructor
    · intro h
      refine ⟨⟨⟨h.operator, haction⟩, h.action⟩, h.resolves 0 (by omega),
        ⟨⟨h.operator, hentry⟩, h.audit⟩, h.resolves 1 (by omega), fun k hk => ?_⟩
      have := h.resolves (2 + k) (by omega)
      rwa [← Nat.add_assoc] at this
    · rintro ⟨⟨⟨ho, -⟩, ha⟩, h0, ⟨-, hau⟩, h1, hrest⟩
      refine ⟨fun k hk => ?_, ho, ha, hau⟩
      match k, hk with
      | 0, _ => exact h0
      | 1, _ => exact h1
      | k + 2, hk =>
        have := hrest k (by omega)
        rwa [show n + 1 + 1 + k = n + (k + 2) by omega] at this
  rw [hiff]
  refine decides_await rfl exists_perform_insertOperatorAction (fun _ => hw) (fun _ _ h => ?_)
    fun _ w₂ h₂ => ?_
  · obtain ⟨-, t, -, -, rfl⟩ := perform_insertOperatorAction h
    exact fun _ => hw
  obtain ⟨-, t₁, -, -, rfl⟩ := perform_insertOperatorAction h₂
  refine decides_await rfl exists_perform_insertAuditEntry (fun _ => hw) (fun _ _ h => ?_)
    fun _ w₃ h₃ => ?_
  · obtain ⟨-, t, -, -, rfl⟩ := perform_insertAuditEntry h
    exact fun _ => hw
  obtain ⟨-, t₂, -, -, rfl⟩ := perform_insertAuditEntry h₃
  exact decides_publishAll (by exact hw) events _

/-- What follows the rows of a new alert. -/
theorem decides_announceAlert {w w₁ : World} {input : CreateAlertInput} {alert : AlertEntity}
    (hw : ¬SameAlerts w w₁) (hactions : w₁.operatorActions = w.operatorActions)
    (haudit : w₁.auditEntries = w.auditEntries) (n : ℕ) (incident : Option IncidentEntity) :
    Prog.wp handle script
      (Prog.Decides (Records w input.operatorId script n (if incident.isSome then 2 else 1))
        (fun r => AlertsIntact w (.ok r)) fun w' => ∀ err, ¬AlertsIntact w
          (.error (α := AlertEntity × Option IncidentEntity) err) w')
      (AlertService.announce input alert incident) n w₁ := by
  have haction : fits "alert.create" 80 := by decide
  have hentry : fits "alert.created" 100 := by decide
  cases incident with
  | none =>
    refine decides_record hw hactions haudit ?_ ?_ ?_ ?_ [(_, _)]
    exacts [rfl, haction, rfl, hentry]
  | some incident =>
    refine decides_record hw hactions haudit ?_ ?_ ?_ ?_ [(_, _), (_, _)]
    exacts [rfl, haction, rfl, hentry]

theorem createAlert_allOrNothing_iff (input : CreateAlertInput) (w : World) :
    AlertsAllOrNothing (AlertService.create input) w script ↔
      (Raises w input script → (script 0).outcome = .resolves ∧ Raised w input script) := by
  refine (Prog.wp_run (Q := AlertsIntact w) _ 0 w).symm.trans ?_
  have hnew : ∀ alert w', perform (script 0) { w with clock := (script 0).now }
      (.insertAlert (AlertService.newAlert input)) = some (alert, w') →
        fits input.title 120 ∧ alert.id = (script 0).uuid ∧ alert.title = input.title ∧
          w'.alerts.lookup alert.id = some alert ∧ w'.alerts ≠ w.alerts ∧
          ∃ t, w' = { w with clock := (script 0).now, alerts := t } := by
    intro alert w' h
    obtain ⟨⟨-, -, htitle⟩, t, ht, rfl, rfl⟩ := perform_insertAlert h
    refine ⟨htitle, rfl, rfl, ?_, fun hsame => ?_, t, rfl⟩
    · rw [Table.lookup_insert ht, if_pos rfl]
    · have hfree := (Table.insert_eq_some ht).2
      rw [← show t = w.alerts from hsame] at hfree
      exact hfree _ ((Table.mem_insert ht).mpr (.inr rfl)) rfl
  refine (intact_iff_of_write (G := Raised w input script) rfl exists_perform_insertAlert
    (fun _ => ⟨rfl, rfl⟩) (fun alert w' h err hi => ?_) fun alert w' h => ?_).trans ?_
  · exact (hnew alert w' h).2.2.2.2.1 hi.1
  · obtain ⟨htitle, hid, htitle', hrow, hw, t, rfl⟩ := hnew alert w' h
    have hiff : Raised w input script ↔
        if input.opensIncident then
          (((∀ id, some alert.id = some id →
            (t.lookup id).isSome ∧ ∀ i ∈ w.incidents.rows, i.alertId ≠ some id) ∧
            fits s!"Incident: {alert.title}" 140) ∧
            ∀ i ∈ w.incidents.rows, i.id ≠ (script 1).uuid) ∧
          (script 1).outcome = .resolves ∧ Records w input.operatorId script 2 2
        else Records w input.operatorId script 1 1 := by
      have hfits : fits s!"Incident: {alert.title}" 140 := by
        have hlength : input.title.length ≤ 120 := htitle
        simp only [fits, toString, String.length_append, htitle']
        exact Nat.add_le_add (show "Incident: ".length ≤ 20 by decide) hlength
      have hrow : (t.lookup alert.id).isSome := Option.isSome_of_mem hrow
      unfold Raised
      rw [← hid]
      simp only [Option.some.injEq, forall_eq', hfits, hrow, true_and, and_true, forall_and]
    rw [hiff]
    split_ifs
    · refine decides_await rfl exists_perform_insertIncident (fun _ hi => hw hi.1)
        (fun _ _ h => ?_) fun incident w₂ h₂ => ?_
      · obtain ⟨-, t, -, -, rfl⟩ := perform_insertIncident h
        exact fun _ hi => hw hi.1
      obtain ⟨-, t, -, -, rfl⟩ := perform_insertIncident h₂
      refine decides_announceAlert ?_ ?_ ?_ 2 (some incident)
      exacts [fun hi => hw hi.1, rfl, rfl]
    · exact decides_announceAlert (fun hi => hw hi.1) rfl rfl 1 none
  · rw [Raises, and_assoc]
    rfl

/-- What a command does once it has changed the incident. -/
theorem decides_propagate {w w₁ : World} {incident updated : IncidentEntity} {operatorId : String}
    {changes : Date → AlertUpdate} {action auditAction : String} {metadata payload : Record}
    {n : ℕ} (hw : w₁.incidents ≠ w.incidents) (halerts : w₁.alerts = w.alerts)
    (hactions : w₁.operatorActions = w.operatorActions)
    (haudit : w₁.auditEntries = w.auditEntries) (haction : fits action 80)
    (hentry : fits auditAction 100) :
    Prog.wp handle script
      (Prog.Decides
        ((∀ alertId ∈ incident.alertId, (script (n + 1)).outcome = .resolves ∧
          ∀ alert ∈ w.alerts.lookup alertId, operatorsFit (changes (script n).now).acknowledgedBy
            (changes (script n).now).resolvedBy) ∧
          Records w operatorId script (if incident.alertId.isSome then n + 2 else n) 1)
        (fun r => AlertsIntact w (.ok r))
        fun w' => ∀ err, ¬AlertsIntact w (.error (α := IncidentEntity) err) w')
      (IncidentService.propagate incident updated operatorId changes action auditAction metadata
        payload) n w₁ := by
  unfold IncidentService.propagate
  cases incident.alertId with
  | none =>
    have hnone : ∀ p : Uuid → Prop, ∀ alertId ∈ (none : Option Uuid), p alertId :=
      fun _ _ h => nomatch h
    rw [and_iff_right (hnone _)]
    refine decides_record (fun h => hw h.2) hactions haudit ?_ ?_ ?_ ?_ [(_, _)]
    exacts [rfl, haction, rfl, hentry]
  | some alertId =>
    have hiff : (∀ id ∈ some alertId, (script (n + 1)).outcome = .resolves ∧
          ∀ alert ∈ w.alerts.lookup id, operatorsFit (changes (script n).now).acknowledgedBy
            (changes (script n).now).resolvedBy) ∧
          Records w operatorId script (if (some alertId).isSome then n + 2 else n) 1 ↔
        (∀ alert ∈ w₁.alerts.lookup alertId, operatorsFit
            (changes (script n).now).acknowledgedBy (changes (script n).now).resolvedBy) ∧
          (script (n + 1)).outcome = .resolves ∧ Records w operatorId script (n + 2) 1 := by
      simp only [Option.mem_def, Option.some.injEq, forall_eq', Option.isSome_some, if_true,
        halerts, and_assoc, and_left_comm]
    rw [hiff]
    change Prog.wp handle script _ ((await (.updateAlert alertId (changes (script n).now))).bind _)
      (n + 1) { w₁ with clock := (script n).now }
    refine decides_await rfl exists_perform_updateAlert (fun _ h => hw h.2)
      (fun _ w' h _ hi => ?_) fun _ w' h => ?_
    · obtain ⟨rfl, -⟩ | ⟨alert, -, -, rfl⟩ := perform_updateAlert h
      · exact hw hi.2
      · exact hw hi.2
    · obtain ⟨rfl, -⟩ | ⟨alert, -, -, rfl⟩ := perform_updateAlert h
      all_goals
        refine decides_record ?_ ?_ ?_ ?_ ?_ ?_ ?_ [(_, _)]
        exacts [fun h => hw h.2, hactions, haudit, rfl, haction, rfl, hentry]

/-- The calls that record and publish a command. -/
def Op.records : Op → Bool
  | .insertOperatorAction _ | .insertAuditEntry _ | .publish _ _ => true
  | _ => false

theorem handle_records {op : Op} (hop : op.records = true) (e : Env) (w : World) :
    SameAlerts w (handle e op w).2 := by
  obtain h | ⟨reply, h⟩ := handle_world e op w
  · rw [h]
    exact ⟨rfl, rfl⟩
  · generalize (handle e op w).2 = w' at h
    cases op <;> simp only [Op.records, Bool.false_eq_true] at hop
    · obtain ⟨-, t, -, -, rfl⟩ := perform_insertAuditEntry h
      exact ⟨rfl, rfl⟩
    · obtain ⟨-, t, -, -, rfl⟩ := perform_insertOperatorAction h
      exact ⟨rfl, rfl⟩
    · cases h
      exact ⟨rfl, rfl⟩

/-- A command that is only recorded leaves the alerts and the incidents. -/
theorem intact_of_records {α : Type} {p : Promise α} {w w₁ : World} {n : ℕ}
    (hp : p.Calls fun op : Op => op.records = true) (hw : SameAlerts w w₁) :
    Prog.wp handle script (fun r _ w' => AlertsIntact w r w') p n w₁ := by
  refine (hp.wp (I := SameAlerts w) (fun op e w₂ hop h => ?_) hw).mono fun r _ w' h => ?_
  · have h' := handle_records hop e w₂
    exact ⟨h'.1.trans h.1, h'.2.trans h.2⟩
  · cases r with
    | ok a => trivial
    | error err => exact h

/-- A call that leaves the alerts and the incidents, before a record. -/
theorem intact_of_idle {α : Type} {op : Op} {f : op.Reply → Promise α} {w w₁ : World} {n : ℕ}
    (hop : SameAlerts w (handle (script n) op w₁).2)
    (hf : ∀ reply, (f reply).Calls fun op : Op => op.records = true) :
    Prog.wp handle script (fun r _ w' => AlertsIntact w r w') ((await op).bind f) n w₁ := by
  change Prog.wp handle script _ ((Prog.resolve _).bind f) (n + 1) _
  cases (handle (script n) op w₁).1 with
  | ok reply => exact intact_of_records (hf reply) hop
  | error err => exact hop

/-- What a command does once it has saved the incident as it was. -/
theorem propagate_intact_iff {w w₁ : World} {incident updated : IncidentEntity}
    {operatorId : String} {changes : Date → AlertUpdate} {action auditAction : String}
    {metadata payload : Record} {n : ℕ} (hw : SameAlerts w w₁)
    (hactions : w₁.operatorActions = w.operatorActions)
    (haudit : w₁.auditEntries = w.auditEntries) (haction : fits action 80)
    (hentry : fits auditAction 100) :
    Prog.wp handle script (fun r _ w' => AlertsIntact w r w')
      (IncidentService.propagate incident updated operatorId changes action auditAction metadata
        payload) n w₁ ↔
      (UpdateChanges w incident.alertId (changes (script n).now) (script (n + 1)) →
        (script (n + 1)).outcome = .resolves ∧ Records w operatorId script (n + 2) 1) := by
  have hrecord : ∀ (action : OperatorActionColumns) entry topic payload (updated : IncidentEntity),
      Prog.Calls (fun op : Op => op.records = true)
        ((await (.insertOperatorAction action)).bind fun _ => (AuditService.log entry).bind fun _ =>
          (RabbitMqService.publishEvent topic payload).bind fun _ => .ret updated) :=
    fun _ _ _ _ _ => .await_bind rfl fun _ => .await_bind rfl fun _ => .await_bind rfl fun _ =>
      trivial
  unfold IncidentService.propagate UpdateChanges
  cases incident.alertId with
  | none =>
    refine iff_of_true (intact_of_records (hrecord _ _ _ _ _) hw) ?_
    rintro ⟨alertId, h, -⟩
    cases h
  | some alertId =>
    change Prog.wp handle script _ ((await (.updateAlert alertId (changes (script n).now))).bind _)
      (n + 1) { w₁ with clock := (script n).now } ↔ _
    simp only [Option.mem_def, Option.some.injEq, exists_eq_left']
    have hlookup : w₁.alerts.lookup alertId = w.alerts.lookup alertId := by rw [hw.1]
    by_cases hchanges : ∃ alert, w.alerts.lookup alertId = some alert ∧
        (changes (script n).now).apply (script (n + 1)).now alert ≠ alert
    · obtain ⟨alert, halert, hne⟩ := hchanges
      have hnew : ∀ w', perform (script (n + 1)) { w₁ with clock := (script (n + 1)).now }
          (.updateAlert alertId (changes (script n).now)) = some ((), w') → ¬SameAlerts w w' ∧
            w'.operatorActions = w.operatorActions ∧ w'.auditEntries = w.auditEntries := by
        intro w' h
        obtain ⟨-, hnone⟩ | ⟨alert', halert', -, rfl⟩ := perform_updateAlert h
        · cases (hlookup.symm.trans hnone).symm.trans halert
        · cases (hlookup.symm.trans halert').symm.trans halert
          refine ⟨fun hsame => hne ?_, hactions, haudit⟩
          have hsaved : w.alerts.save _ = w.alerts :=
            (congrArg (Table.save · _) hw.1).symm.trans hsame.1
          exact w.alerts.key_injOn (Table.save_eq_self_iff.mp hsaved)
            (Table.lookup_eq_some.mp halert).1 rfl
      refine (intact_iff_of_write (G := Records w operatorId script (n + 2) 1) rfl
        exists_perform_updateAlert (fun _ => hw) (fun _ w' h _ => (hnew w' h).1)
        fun _ w' h => ?_).trans ?_
      · refine decides_record ?_ ?_ ?_ ?_ ?_ ?_ ?_ [(_, _)]
        exacts [(hnew w' h).1, (hnew w' h).2.1, (hnew w' h).2.2, rfl, haction, rfl, hentry]
      · simp only [hlookup, halert, Option.mem_def, Option.some.injEq, forall_eq', exists_eq_left',
          ne_eq, hne, not_false_eq_true, and_true]
    · refine iff_of_true (intact_of_idle ?_ fun _ => hrecord _ _ _ _ _) ?_
      · obtain h | ⟨reply, h⟩ := handle_world (script (n + 1))
          (.updateAlert alertId (changes (script n).now)) { w₁ with clock := (script n).now }
        · rw [h]
          exact hw
        · obtain ⟨h, -⟩ | ⟨alert, halert, -, h⟩ := perform_updateAlert h
          · rw [h]
            exact hw
          · rw [h]
            refine ⟨?_, hw.2⟩
            have halert : w.alerts.lookup alertId = some alert := hlookup.symm.trans halert
            have hsame : (changes (script n).now).apply (script (n + 1)).now alert = alert := by
              by_contra hne
              exact hchanges ⟨alert, halert, hne⟩
            dsimp only
            rw [hsame, hw.1, Table.save_eq_self_iff]
            exact (Table.lookup_eq_some.mp halert).1
      · rintro ⟨alert, halert, -, -, hne⟩
        exact absurd ⟨alert, halert, hne⟩ hchanges

/-- A save of an incident that was read as `stored`, and what follows it. -/
theorem save_intact_iff {w w₁ : World} {stored incident row : IncidentEntity}
    {operatorId : String} {changes : Date → AlertUpdate} {action auditAction : String}
    {metadata payload : IncidentEntity → Record} {n : ℕ} (hw : SameAlerts w w₁)
    (hactions : w₁.operatorActions = w.operatorActions)
    (haudit : w₁.auditEntries = w.auditEntries) (hincident : stored ∈ w.incidents.rows)
    (hid : row.id = stored.id) (hlink : stored.alertId = row.alertId)
    (hdate : stored.updatedAt = row.updatedAt) (hlinked : incident.alertId = stored.alertId)
    (haction : fits action 80) (hentry : fits auditAction 100) :
    Prog.wp handle script (fun r _ w' => AlertsIntact w r w')
      ((await (.saveIncident row)).bind fun updated =>
        IncidentService.propagate incident updated operatorId changes action auditAction
          (metadata updated) (payload updated)) n w₁ ↔
      PropagatesAll w stored row operatorId changes script n := by
  unfold PropagatesAll
  rw [← hlinked]
  have hstored : ∀ b ∈ w.incidents.rows, b.id = row.id → b = stored := fun b hb hbid =>
    w.incidents.key_injOn hb hincident (hbid.trans hid)
  have hread : { w₁ with clock := (script n).now }.incidents.lookup row.id = some stored :=
    Table.lookup_eq_some.mpr ⟨hw.2 ▸ hincident, hid.symm⟩
  let saved : IncidentEntity := { row with
    updatedAt := savedAt IncidentEntity.updatedAt (script n).now (some stored) row }
  have heq : saved = stored ↔ row = stored := IncidentEntity.saved_eq_iff hdate
  have hsaved : ∀ updated w', perform (script n) { w₁ with clock := (script n).now }
      (.saveIncident row) = some (updated, w') →
        operatorsFit row.acknowledgedBy row.resolvedBy ∧
          w'.incidents = w.incidents.save saved ∧
          w'.alerts = w.alerts ∧ w'.operatorActions = w.operatorActions ∧
          w'.auditEntries = w.auditEntries := by
    intro updated w' h
    obtain ⟨hfits, -, rfl, rfl⟩ := perform_saveIncident h
    refine ⟨hfits, ?_, hw.1, hactions, haudit⟩
    rw [hread]
    exact congrArg (Table.save · _) hw.2
  by_cases hsame : row = stored
  · have hkept : ∀ updated w', perform (script n) { w₁ with clock := (script n).now }
        (.saveIncident row) = some (updated, w') → SameAlerts w w' := by
      intro updated w' h
      obtain ⟨-, hi, ha, -⟩ := hsaved updated w' h
      refine ⟨ha, hi.trans (Table.save_eq_self_iff.mpr ?_)⟩
      rw [heq.mpr hsame]
      exact hincident
    refine (intact_iff_of_idle rfl (fun _ => hw) fun updated w' h _ => hkept updated w' h).trans
      ⟨fun h => ?_, fun h updated w' hp ho => ?_⟩
    · rintro (⟨-, -, hne⟩ | ⟨hfits, ho, hupdate⟩)
      · exact absurd hsame hne
      · obtain ⟨⟨updated, w'⟩, hp⟩ := (exists_perform_saveIncident hread hlink).mpr hfits
        obtain ⟨-, -, -, hactions', haudit'⟩ := hsaved updated w' hp
        obtain ⟨ho', hrecords⟩ := (propagate_intact_iff (hkept updated w' hp) hactions' haudit'
          haction hentry).mp (h updated w' hp ho) hupdate
        obtain ⟨alertId, halertId, -, -, hfits', -⟩ := hupdate
        refine ⟨⟨hfits, ho⟩, fun _ _ => ⟨ho', fun _ _ => hfits'⟩, ?_⟩
        rw [if_pos (Option.isSome_of_mem halertId)]
        exact hrecords
    · obtain ⟨hfits, -, -, hactions', haudit'⟩ := hsaved updated w' hp
      refine (propagate_intact_iff (hkept updated w' hp) hactions' haudit' haction hentry).mpr
        fun hupdate => ?_
      have hgoes := h (.inr ⟨hfits, ho, hupdate⟩)
      obtain ⟨alertId, halertId, -⟩ := hupdate
      have hrecorded := hgoes.recorded
      rw [if_pos (Option.isSome_of_mem halertId)] at hrecorded
      exact ⟨(hgoes.updated alertId halertId).1, hrecorded⟩
  · have hnew : ∀ updated w', perform (script n) { w₁ with clock := (script n).now }
        (.saveIncident row) = some (updated, w') → w'.incidents ≠ w.incidents := by
      intro updated w' h hi
      obtain ⟨-, hi', -⟩ := hsaved updated w' h
      exact hsame (heq.mp (hstored _ (Table.save_eq_self_iff.mp (hi'.symm.trans hi)) rfl))
    refine (intact_iff_of_write rfl (exists_perform_saveIncident hread hlink) (fun _ => hw)
      (fun updated w' h _ hi => hnew updated w' h hi.2) fun updated w' h =>
        decides_propagate (w := w) (hnew updated w' h) (hsaved updated w' h).2.2.1
          (hsaved updated w' h).2.2.2.1 (hsaved updated w' h).2.2.2.2 haction hentry).trans
      ⟨fun h => ?_, fun h hwrite => ?_⟩
    · intro hchanges
      have hwrite : operatorsFit row.acknowledgedBy row.resolvedBy ∧
          (script n).outcome ≠ .rejects := by
        obtain ⟨hfits, ho, -⟩ | ⟨hfits, ho, -⟩ := hchanges
        · exact ⟨hfits, ho⟩
        · exact ⟨hfits, by simp [ho]⟩
      obtain ⟨ho, hupdated, hrecorded⟩ := h hwrite
      refine ⟨⟨hwrite.1, ho⟩, hupdated, ?_⟩
      exact hrecorded
    · have hgoes := h (.inl ⟨hwrite.1, hwrite.2, hsame⟩)
      exact ⟨hgoes.saved.2, hgoes.updated, hgoes.recorded⟩

/-- A command that reads an incident, refuses a resolved one and else goes on with `f`. -/
theorem command_intact_iff {f : IncidentEntity → Promise IncidentEntity} {refusal : Failure}
    {incidentId : Uuid} {w : World} {P : IncidentEntity → Prop}
    (hf : ∀ incident ∈ w.incidents.rows, incident.status ≠ .RESOLVED →
      (Prog.wp handle script (fun r _ w' => AlertsIntact w r w') (f incident) 1
        { w with clock := (script 0).now } ↔ P incident)) :
    AlertsAllOrNothing
      ((IncidentService.getIncident incidentId).bind fun incident =>
        if incident.status = .RESOLVED then .throw refusal else f incident) w script ↔
      ((script 0).outcome = .resolves → ∀ incident ∈ w.incidents.lookup incidentId,
        incident.status ≠ .RESOLVED → P incident) := by
  refine (Prog.wp_run (Q := AlertsIntact w) _ 0 w).symm.trans ?_
  rw [IncidentService.getIncident_bind]
  refine (intact_iff_of_read rfl rfl fun _ => ⟨rfl, rfl⟩).trans (imp_congr_right fun _ => ?_)
  cases hfound : w.incidents.lookup incidentId with
  | none => exact iff_of_true ⟨rfl, rfl⟩ fun _ h => nomatch h
  | some incident =>
    simp only [Option.mem_def, Option.some.injEq, forall_eq']
    split_ifs with hs
    · exact iff_of_true ⟨rfl, rfl⟩ fun h => absurd hs h
    · exact (hf incident (Table.lookup_eq_some.mp hfound).1 hs).trans
        ⟨fun h _ => h, fun h => h hs⟩

theorem acknowledge_allOrNothing_iff (incidentId : Uuid) (operatorId : String) (w : World) :
    AlertsAllOrNothing (IncidentService.acknowledge incidentId operatorId) w script ↔
      ((script 0).outcome = .resolves → ∀ incident ∈ w.incidents.lookup incidentId,
        incident.status ≠ .RESOLVED →
          PropagatesAll w incident
            (IncidentService.acknowledged incident operatorId (script 1).now) operatorId
            (IncidentService.acknowledgedAlert operatorId) script 2) := by
  refine command_intact_iff fun incident hincident hs => ?_
  have haction : fits "incident.acknowledge" 80 := by decide
  have hentry : fits "incident.acknowledged" 100 := by decide
  exact save_intact_iff ⟨rfl, rfl⟩ rfl rfl hincident rfl rfl rfl rfl haction hentry

theorem resolve_allOrNothing_iff (incidentId : Uuid) (operatorId : String) (w : World) :
    AlertsAllOrNothing (IncidentService.resolve incidentId operatorId) w script ↔
      ((script 0).outcome = .resolves → ∀ incident ∈ w.incidents.lookup incidentId,
        incident.status ≠ .RESOLVED →
          if incident.status = .OPEN then
            PropagatesAll w incident
              (IncidentService.resolved
                { incident with
                  acknowledgedAt := some (script 1).now
                  acknowledgedBy := some operatorId }
                operatorId (script 2).now)
              operatorId (IncidentService.resolvedAlert operatorId) script 3
          else
            PropagatesAll w incident
              (IncidentService.resolved incident operatorId (script 1).now) operatorId
              (IncidentService.resolvedAlert operatorId) script 2) := by
  refine command_intact_iff fun incident hincident hs => ?_
  have haction : fits "incident.resolve" 80 := by decide
  have hentry : fits "incident.resolved" 100 := by decide
  unfold IncidentService.settle
  split_ifs with ho
  · exact save_intact_iff ⟨rfl, rfl⟩ rfl rfl hincident rfl rfl rfl rfl haction hentry
  · exact save_intact_iff ⟨rfl, rfl⟩ rfl rfl hincident rfl rfl rfl rfl haction hentry

end Alerts

/-- An operator whose id has 81 characters raises a critical alert : the alert and its incident
are inserted, the operator action is refused, and the command rejects. -/
theorem not_alerts_all_or_nothing : ¬∀ (dto : CreateAlertDto) (rawValue : Option String)
    (operatorId : String), dto.Valid → AuthService.resolveOperatorId rawValue = .ok operatorId →
    ∀ (w : World) (script : ℕ → Env), AlertsAllOrNothing
      (AlertService.create (AlertsController.createAlert dto operatorId)) w script := by
  intro hall
  let dto : CreateAlertDto := ⟨none, .CRITICAL, "Disk full", "No space left", none⟩
  have hvalid : dto.Valid := ⟨by decide, by decide⟩
  have halert := (createAlert_allOrNothing_iff _ _).mp (hall dto _ _ hvalid
    (resolveOperatorId_operatorIdOf (n := 81) (by decide)) World.empty resolvingScript)
  have hraises : Raises World.empty (AlertsController.createAlert dto (operatorIdOf 81))
      resolvingScript :=
    ⟨⟨by simp [AlertsController.createAlert, dto], by exact (by decide : fits "operator" 30),
      by exact (by decide : fits "Disk full" 120)⟩, by simp [World.empty], by decide⟩
  have hlength : (operatorIdOf 81).length ≤ 80 := (halert hraises).2.2.2.operator
  rw [length_operatorIdOf] at hlength
  exact absurd hlength (by decide)

/-- A command on alerts or incidents writes all of its rows or none exactly if, once one of its
writes has changed a row, every call goes through. -/
theorem alerts_all_or_nothing (w : World) (script : ℕ → Env) :
    (∀ input, AlertsAllOrNothing (AlertService.create input) w script ↔
      (Raises w input script → (script 0).outcome = .resolves ∧ Raised w input script)) ∧
    (∀ incidentId operatorId,
      AlertsAllOrNothing (IncidentService.acknowledge incidentId operatorId) w script ↔
        ((script 0).outcome = .resolves → ∀ incident ∈ w.incidents.lookup incidentId,
          incident.status ≠ .RESOLVED →
            PropagatesAll w incident
              (IncidentService.acknowledged incident operatorId (script 1).now) operatorId
              (IncidentService.acknowledgedAlert operatorId) script 2)) ∧
    ∀ incidentId operatorId,
      AlertsAllOrNothing (IncidentService.resolve incidentId operatorId) w script ↔
        ((script 0).outcome = .resolves → ∀ incident ∈ w.incidents.lookup incidentId,
          incident.status ≠ .RESOLVED →
            if incident.status = .OPEN then
              PropagatesAll w incident
                (IncidentService.resolved
                  { incident with
                    acknowledgedAt := some (script 1).now
                    acknowledgedBy := some operatorId }
                  operatorId (script 2).now)
                operatorId (IncidentService.resolvedAlert operatorId) script 3
            else
              PropagatesAll w incident
                (IncidentService.resolved incident operatorId (script 1).now) operatorId
                (IncidentService.resolvedAlert operatorId) script 2) :=
  ⟨fun input => createAlert_allOrNothing_iff input w,
    fun incidentId operatorId => acknowledge_allOrNothing_iff incidentId operatorId w,
    fun incidentId operatorId => resolve_allOrNothing_iff incidentId operatorId w⟩

end RealtimeOps
