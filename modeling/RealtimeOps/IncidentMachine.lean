import RealtimeOps.Books
import RealtimeOps.Interleaving.Phase

/-!
# Commands on one incident, by phase

`acknowledge` and `resolve` read the incident, check its status, save the whole entity they have
read with their own status, and then update the linked alert, each in an awaited call of its
own. `incidentMachine` lists these calls with what they do to the incident and the alert; the
two programs simulate it (`sim_order`).
-/

set_option autoImplicit false

namespace RealtimeOps

open Interleaving

/-- A command an operator gives on an incident. -/
inductive Order where
  | acknowledge (operatorId : String)
  | resolve (operatorId : String)
  deriving DecidableEq

namespace Order

/-- The order as a call of the platform. -/
def on (incidentId : Uuid) : Order → Command
  | acknowledge operatorId => .acknowledge incidentId operatorId
  | resolve operatorId => .resolve incidentId operatorId

/-- The status the command gives the incident. -/
def target : Order → IncidentStatus
  | acknowledge _ => .ACKNOWLEDGED
  | resolve _ => .RESOLVED

end Order

/-- The incident a call saves. -/
def Op.savesIncident : Op → Option IncidentEntity
  | .saveIncident incident => some incident
  | _ => none

/-- What a call updates an alert with. -/
def Op.updatesAlert : Op → Option AlertUpdate
  | .updateAlert _ changes => some changes
  | _ => none

/-- The calls that neither read nor write an incident or its alert. -/
def Op.aside : Op → Bool
  | .insertOperatorAction _ | .insertAuditEntry _ | .publish _ _ | .now => true
  | _ => false

theorem Op.savesIncident_of_aside {op : Op} (h : op.aside = true) : op.savesIncident = none := by
  cases op <;> first | rfl | cases h

theorem Op.updatesAlert_of_aside {op : Op} (h : op.aside = true) : op.updatesAlert = none := by
  cases op <;> first | rfl | cases h

/-- How far a command has come. The incident is the one it has read. -/
inductive IncidentStage where
  | begun
  /-- The incident was unresolved, and is still to be saved. -/
  | holding (incident : IncidentEntity)
  /-- The incident is saved, its alert is still to be updated. -/
  | saved (incident : IncidentEntity)
  | done
  | refused
  /-- A call was rejected. -/
  | lost

/-- The incident is still to be read. -/
def IncidentStage.isBegun : IncidentStage → Bool
  | begun => true
  | _ => false

/-- The command throws. -/
def IncidentStage.over : IncidentStage → Bool
  | refused | lost => true
  | _ => false

/-- The incident is saved. -/
def IncidentStage.hasSaved : IncidentStage → Bool
  | saved _ | done => true
  | _ => false

/-- The status a command gives, and how far it has come. -/
structure IncidentPhase where
  target : IncidentStatus
  stage : IncidentStage

/-- How a command may end. -/
def IncidentPhase.Ends {α : Type} (q : IncidentPhase) (r : Except Failure α) : Prop :=
  match q.stage with
  | .done => r.isOk = true
  | .refused | .lost => r.isOk = false
  | _ => False

/-- What a call that resolves does to incidents, alerts and the phase of its thread. -/
inductive IncidentMove (incidentId : Uuid) (w w' : World) :
    Op → IncidentPhase → IncidentPhase → Prop where
  | aside {op : Op} {q : IncidentPhase} (hop : op.aside = true) (hq : q.stage.isBegun = false)
    (hincidents : w'.incidents = w.incidents) (halerts : w'.alerts = w.alerts) :
    IncidentMove incidentId w w' op q q
  | read {t : IncidentStatus} {incident : IncidentEntity}
    (hrow : w.incidents.lookup incidentId = some incident) (hs : incident.status ≠ .RESOLVED)
    (hincidents : w'.incidents = w.incidents) (halerts : w'.alerts = w.alerts) :
    IncidentMove incidentId w w' (.findIncident incidentId) ⟨t, .begun⟩ ⟨t, .holding incident⟩
  | refused {t : IncidentStatus}
    (hrow : ∀ incident ∈ w.incidents.lookup incidentId, incident.status = .RESOLVED)
    (hincidents : w'.incidents = w.incidents) (halerts : w'.alerts = w.alerts) :
    IncidentMove incidentId w w' (.findIncident incidentId) ⟨t, .begun⟩ ⟨t, .refused⟩
  | saved {t : IncidentStatus} {incident row : IncidentEntity} {now : Date}
    (hid : row.id = incidentId) (hs : row.status = t) (hlink : row.alertId = incident.alertId)
    (hincidents : w'.incidents = w.incidents.save { row with updatedAt := now })
    (halerts : w'.alerts = w.alerts) :
    IncidentMove incidentId w w' (.saveIncident row) ⟨t, .holding incident⟩ ⟨t, .saved incident⟩
  | updated {t : IncidentStatus} {incident : IncidentEntity} {alertId : Uuid}
    {changes : AlertUpdate} {now : Date} (hlink : incident.alertId = some alertId)
    (hs : changes.status.value = t.value) (hincidents : w'.incidents = w.incidents)
    (halerts : w'.alerts = updateLinked w.alerts incident.alertId changes now) :
    IncidentMove incidentId w w' (.updateAlert alertId changes) ⟨t, .saved incident⟩ ⟨t, .done⟩
  | unlinked {op : Op} {t : IncidentStatus} {incident : IncidentEntity} (hop : op.aside = true)
    (hlink : incident.alertId = none) (hincidents : w'.incidents = w.incidents)
    (halerts : w'.alerts = w.alerts) :
    IncidentMove incidentId w w' op ⟨t, .saved incident⟩ ⟨t, .done⟩

/-- The commands on one incident. -/
def incidentMachine (incidentId : Uuid) :
    PhaseMachine infrastructure Failure Response Env World where
  Phase := IncidentPhase
  Move _ op r w q w' q' :=
    q.stage.over = false ∧ (r.isOk = false ∧ q' = ⟨q.target, .lost⟩ ∨
      r.isOk = true ∧ IncidentMove incidentId w w' op q q')
  Ends := IncidentPhase.Ends

/-- What a move that is no save leaves. -/
theorem IncidentMove.cases_saves {incidentId : Uuid} {w w' : World} {op : Op}
    {q q' : IncidentPhase} (h : IncidentMove incidentId w w' op q q') :
    q'.target = q.target ∧
      (op.savesIncident = none ∧ w'.incidents = w.incidents ∧
          q'.stage.hasSaved = q.stage.hasSaved ∧
          (q'.stage = .refused → q.stage = .refused ∨
            ∀ incident ∈ w.incidents.lookup incidentId, incident.status = .RESOLVED) ∨
        ∃ row now, op = .saveIncident row ∧ row.id = incidentId ∧ row.status = q.target ∧
          w'.incidents = w.incidents.save { row with updatedAt := now } ∧
          q.stage.hasSaved = false ∧ q'.stage.hasSaved = true) := by
  cases h with
  | aside hop hq hincidents halerts =>
    exact ⟨rfl, .inl ⟨Op.savesIncident_of_aside hop, hincidents, rfl, .inl⟩⟩
  | read hrow hs hincidents halerts => exact ⟨rfl, .inl ⟨rfl, hincidents, rfl, by simp⟩⟩
  | refused hrow hincidents halerts => exact ⟨rfl, .inl ⟨rfl, hincidents, rfl, fun _ => .inr hrow⟩⟩
  | saved hid hs hlink hincidents halerts =>
    exact ⟨rfl, .inr ⟨_, _, rfl, hid, hs, hincidents, rfl, rfl⟩⟩
  | updated hlink hs hincidents halerts => exact ⟨rfl, .inl ⟨rfl, hincidents, rfl, by simp⟩⟩
  | unlinked hop hlink hincidents halerts =>
    exact ⟨rfl, .inl ⟨Op.savesIncident_of_aside hop, hincidents, rfl, by simp⟩⟩

theorem IncidentMove.kept {incidentId : Uuid} {w w' : World} {op : Op} {q q' : IncidentPhase}
    (h : IncidentMove incidentId w w' op q q') (hq : q.stage ≠ .lost) : q'.stage ≠ .lost := by
  cases h with
  | aside => exact hq
  | read | refused | saved | updated | unlinked => simp

section Sim

variable {incidentId : Uuid} {α : Type} {t : IncidentStatus}

/-- A call and the rest of the program, if what the call does when it resolves is a move. -/
theorem sim_incident_await {op : Op} {f : op.Reply → Promise α} {q : IncidentPhase}
    (hq : q.stage.over = false)
    (h : ∀ e w reply w', perform e { w with clock := e.now } op = some (reply, w') →
      ∃ q', IncidentMove incidentId w w' op q q' ∧
        (incidentMachine incidentId).Sim handle IncidentPhase.Ends q' (f reply)) :
    (incidentMachine incidentId).Sim handle IncidentPhase.Ends q ((await op).bind f) := by
  intro e w
  cases hh : handle e op w with
  | mk r w' =>
    cases r with
    | error err => exact ⟨⟨q.target, .lost⟩, ⟨hq, .inl ⟨rfl, rfl⟩⟩, rfl⟩
    | ok reply =>
      obtain ⟨q', hm, hsim⟩ := h e w reply w' (handle_eq_ok hh).1
      exact ⟨q', ⟨hq, .inr ⟨rfl, hm⟩⟩, hsim⟩

theorem perform_aside {e : Env} {w w' : World} {op : Op} {reply : op.Reply}
    (hop : op.aside = true) (h : perform e w op = some (reply, w')) :
    w'.incidents = w.incidents ∧ w'.alerts = w.alerts := by
  cases op <;> simp only [Op.aside, Bool.false_eq_true] at hop
  case insertAuditEntry =>
    obtain ⟨-, t, -, -, rfl⟩ := perform_insertAuditEntry h
    exact ⟨rfl, rfl⟩
  case insertOperatorAction =>
    obtain ⟨-, t, -, -, rfl⟩ := perform_insertOperatorAction h
    exact ⟨rfl, rfl⟩
  case publish =>
    cases h
    exact ⟨rfl, rfl⟩
  case now =>
    cases h
    exact ⟨rfl, rfl⟩

/-- A call aside leaves the phase. -/
theorem sim_incident_aside {op : Op} {f : op.Reply → Promise α} {q : IncidentPhase}
    (hop : op.aside = true) (hover : q.stage.over = false) (hq : q.stage.isBegun = false)
    (h : ∀ reply, (incidentMachine incidentId).Sim handle IncidentPhase.Ends q (f reply)) :
    (incidentMachine incidentId).Sim handle IncidentPhase.Ends q ((await op).bind f) := by
  refine sim_incident_await hover fun e w reply w' hp => ⟨q, ?_, h reply⟩
  obtain ⟨hincidents, halerts⟩ := perform_aside hop hp
  exact .aside hop hq hincidents halerts

/-- From the save on : the linked alert gets the status, and the rest is aside. -/
theorem sim_propagate {held incident updated : IncidentEntity} {operatorId : String}
    {changes : Date → AlertUpdate} {action auditAction : String} {metadata payload : Record}
    (hlink : incident.alertId = held.alertId) (hs : ∀ d, (changes d).status.value = t.value) :
    (incidentMachine incidentId).Sim handle IncidentPhase.Ends ⟨t, .saved held⟩
      (IncidentService.propagate incident updated operatorId changes action auditAction metadata
        payload) := by
  unfold IncidentService.propagate
  cases halert : incident.alertId with
  | none =>
    refine sim_incident_await rfl fun e w reply w' hp => ⟨⟨t, .done⟩, ?_, ?_⟩
    · obtain ⟨hincidents, halerts⟩ := perform_aside rfl hp
      exact .unlinked rfl (hlink ▸ halert) hincidents halerts
    exact sim_incident_aside rfl rfl rfl fun _ => sim_incident_aside rfl rfl rfl fun _ => rfl
  | some alertId =>
    refine sim_incident_aside rfl rfl rfl fun d =>
      sim_incident_await rfl fun e w reply w' hp => ⟨⟨t, .done⟩, ?_, ?_⟩
    · obtain rfl := perform_updateAlert_linked hp
      exact .updated (hlink ▸ halert) (hs d) rfl (by rw [← hlink, halert])
    exact sim_incident_aside rfl rfl rfl fun _ => sim_incident_aside rfl rfl rfl fun _ =>
      sim_incident_aside rfl rfl rfl fun _ => rfl

/-- The read of an incident : the command goes on if it is unresolved. -/
theorem sim_getIncident {f : IncidentEntity → Promise α}
    (hresolved : ∀ incident : IncidentEntity, incident.status = .RESOLVED →
      ∃ err, f incident = .throw err)
    (hunresolved : ∀ incident : IncidentEntity, incident.id = incidentId →
      incident.status ≠ .RESOLVED →
      (incidentMachine incidentId).Sim handle IncidentPhase.Ends ⟨t, .holding incident⟩
        (f incident)) :
    (incidentMachine incidentId).Sim handle IncidentPhase.Ends ⟨t, .begun⟩
      ((IncidentService.getIncident incidentId).bind f) := by
  rw [IncidentService.getIncident_bind]
  refine sim_incident_await rfl fun e w found w' hp => ?_
  cases hp
  cases hfound : w.incidents.lookup incidentId with
  | none => exact ⟨⟨t, .refused⟩, .refused (by simp [hfound]) rfl rfl, rfl⟩
  | some incident =>
    by_cases hs : incident.status = .RESOLVED
    · obtain ⟨err, herr⟩ := hresolved incident hs
      refine ⟨⟨t, .refused⟩, .refused (by simpa [hfound] using hs) rfl rfl, ?_⟩
      dsimp only
      rw [herr]
      exact rfl
    · exact ⟨⟨t, .holding incident⟩, .read hfound hs rfl rfl,
        hunresolved incident (Table.lookup_eq_some.mp hfound).2 hs⟩

theorem sim_acknowledge (operatorId : String) :
    (incidentMachine incidentId).Sim handle IncidentPhase.Ends ⟨.ACKNOWLEDGED, .begun⟩
      (IncidentService.acknowledge incidentId operatorId) := by
  unfold IncidentService.acknowledge
  refine sim_getIncident (fun incident hs => ⟨_, if_pos hs⟩) fun incident hid hs => ?_
  rw [if_neg hs]
  refine sim_incident_aside rfl rfl rfl fun d => sim_incident_await rfl fun e w updated w' hp => ?_
  obtain ⟨-, -, rfl, rfl⟩ := perform_saveIncident hp
  exact ⟨_, .saved hid rfl rfl rfl rfl, sim_propagate rfl fun _ => rfl⟩

theorem sim_settle {held incident : IncidentEntity} (operatorId : String)
    (hid : incident.id = incidentId) (hlink : incident.alertId = held.alertId) :
    (incidentMachine incidentId).Sim handle IncidentPhase.Ends ⟨.RESOLVED, .holding held⟩
      (IncidentService.settle incident operatorId) := by
  unfold IncidentService.settle
  refine sim_incident_aside rfl rfl rfl fun d => sim_incident_await rfl fun e w updated w' hp => ?_
  obtain ⟨-, -, rfl, rfl⟩ := perform_saveIncident hp
  exact ⟨_, .saved hid rfl hlink rfl rfl, sim_propagate hlink fun _ => rfl⟩

theorem sim_resolve (operatorId : String) :
    (incidentMachine incidentId).Sim handle IncidentPhase.Ends ⟨.RESOLVED, .begun⟩
      (IncidentService.resolve incidentId operatorId) := by
  unfold IncidentService.resolve
  refine sim_getIncident (fun incident hs => ⟨_, if_pos hs⟩) fun incident hid hs => ?_
  rw [if_neg hs]
  split_ifs
  · exact sim_incident_aside rfl rfl rfl fun d => sim_settle operatorId hid rfl
  · exact sim_settle operatorId hid rfl

/-- A command's program goes through the phases. -/
theorem sim_order (order : Order) :
    (incidentMachine incidentId).Sim handle (incidentMachine incidentId).Ends
      ⟨order.target, .begun⟩ (order.on incidentId).prog := by
  cases order with
  | acknowledge operatorId =>
    change (incidentMachine incidentId).Sim handle IncidentPhase.Ends _
      ((IncidentService.acknowledge incidentId operatorId).bind fun incident =>
        .ret (Response.incident incident))
    refine .bind ?_ ?_ (sim_acknowledge operatorId)
    · exact fun q incident h => h
    · exact fun q err h => h
  | resolve operatorId =>
    change (incidentMachine incidentId).Sim handle IncidentPhase.Ends _
      ((IncidentService.resolve incidentId operatorId).bind fun incident =>
        .ret (Response.incident incident))
    refine .bind ?_ ?_ (sim_resolve operatorId)
    · exact fun q incident h => h
    · exact fun q err h => h

end Sim

end RealtimeOps
