import RealtimeOps.Services

/-!
# `IncidentService`

The commands on incidents : `acknowledge` and `resolve`. Both read the incident, refuse a
resolved one, save the whole entity and then set the status of the linked alert, one awaited
call after the other, with no version check and no transaction.
-/

set_option autoImplicit false

namespace RealtimeOps

open Interleaving

namespace IncidentService

/-- The incident, or a 404. -/
def getIncident (incidentId : Uuid) : Promise IncidentEntity := do
  let some incident ← await (.findIncident incidentId)
    | .throw (.notFound s!"Incident {incidentId} not found")
  return incident

/-- What follows the read goes on with the incident that was found. -/
theorem getIncident_bind {α : Type} (incidentId : Uuid) (f : IncidentEntity → Promise α) :
    (getIncident incidentId).bind f =
      (await (.findIncident incidentId)).bind fun
        | some incident => f incident
        | none => .throw (.notFound s!"Incident {incidentId} not found") := by
  unfold getIncident
  refine (Prog.bind_assoc _ _ _).trans (congrArg _ ?_)
  funext reply
  cases reply <;> rfl

/-- What a command awaits once the incident is saved : the linked alert, the operator action,
the audit entry and the event. -/
def propagate (incident updated : IncidentEntity) (operatorId : String)
    (changes : Date → AlertUpdate) (action auditAction : String) (metadata payload : Record) :
    Promise IncidentEntity := do
  if let some alertId := incident.alertId then
    let t ← await .now
    await (.updateAlert alertId (changes t))
  let _ ← await (.insertOperatorAction
    { operatorId
      action
      targetType := .INCIDENT
      targetId := some incident.id
      payload := [] })
  let _ ← AuditService.log
    { actorType := .OPERATOR
      actorId := some operatorId
      action := auditAction
      entityType := .INCIDENT
      entityId := some incident.id
      metadata }
  RealtimeEventPublisher.publishIncidentUpdated payload
  return updated

/-- The entity `acknowledge` saves. -/
def acknowledged (incident : IncidentEntity) (operatorId : String) (acknowledgedAt : Date) :
    IncidentEntity :=
  { incident with
    status := .ACKNOWLEDGED
    acknowledgedBy := some operatorId
    acknowledgedAt := some acknowledgedAt }

/-- What `acknowledge` sets in the linked alert. -/
def acknowledgedAlert (operatorId : String) (acknowledgedAt : Date) : AlertUpdate where
  status := .ACKNOWLEDGED
  acknowledgedBy := some operatorId
  acknowledgedAt := some acknowledgedAt

/-- A resolved incident is refused; one that is acknowledged already is acknowledged again, and the
audit entry says that it was open. -/
def acknowledge (incidentId : Uuid) (operatorId : String) : Promise IncidentEntity := do
  let incident ← getIncident incidentId
  if incident.status = .RESOLVED then
    .throw (.badRequest "Resolved incident cannot be acknowledged")
  else
    let acknowledgedAt ← await .now
    let updated ← await (.saveIncident (acknowledged incident operatorId acknowledgedAt))
    propagate incident updated operatorId (acknowledgedAlert operatorId)
      "incident.acknowledge" "incident.acknowledged"
      [("previousStatus", .str IncidentStatus.OPEN.value)]
      [("incidentId", .uuid updated.id), ("status", .str updated.status.value),
        ("acknowledgedBy", .ofText? updated.acknowledgedBy),
        ("alertId", .ofUuid? updated.alertId)]

/-- The entity `resolve` saves. -/
def resolved (incident : IncidentEntity) (operatorId : String) (resolvedAt : Date) :
    IncidentEntity :=
  { incident with
    status := .RESOLVED
    resolvedBy := some operatorId
    resolvedAt := some resolvedAt }

/-- What `resolve` sets in the linked alert. -/
def resolvedAlert (operatorId : String) (resolvedAt : Date) : AlertUpdate where
  status := .RESOLVED
  resolvedBy := some operatorId
  resolvedAt := some resolvedAt

/-- What `resolve` awaits from the resolution of the incident on. -/
def settle (incident : IncidentEntity) (operatorId : String) : Promise IncidentEntity := do
  let resolvedAt ← await .now
  let updated ← await (.saveIncident (resolved incident operatorId resolvedAt))
  propagate incident updated operatorId (resolvedAlert operatorId)
    "incident.resolve" "incident.resolved" [("alertId", .ofUuid? incident.alertId)]
    [("incidentId", .uuid updated.id), ("status", .str updated.status.value),
      ("resolvedBy", .ofText? updated.resolvedBy), ("alertId", .ofUuid? updated.alertId)]

/-- An open incident is acknowledged in the same save. -/
def resolve (incidentId : Uuid) (operatorId : String) : Promise IncidentEntity := do
  let incident ← getIncident incidentId
  if incident.status = .RESOLVED then
    .throw (.badRequest "Incident is already resolved")
  else if incident.status = .OPEN then
    let acknowledgedAt ← await .now
    settle
      { incident with
        acknowledgedAt := some acknowledgedAt
        acknowledgedBy := some operatorId }
      operatorId
  else
    settle incident operatorId

end IncidentService

end RealtimeOps
