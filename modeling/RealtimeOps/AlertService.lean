import RealtimeOps.Services

/-!
# `AlertService`

The commands on alerts : `create`, which opens an incident for a critical alert or on demand,
and `acknowledge`. The rows are written first, then recorded, then published, with no
transaction around them.
-/

set_option autoImplicit false

namespace RealtimeOps

open Interleaving

/-- The input of `AlertService.create`. A `jobId` that is no uuid is refused by the first
insertion, as the id of no job is. -/
structure CreateAlertInput where
  jobId : Option Uuid
  source : String
  severity : AlertSeverity
  title : String
  description : String
  operatorId : String
  createIncident : Bool
  deriving DecidableEq

/-- `create` opens an incident. -/
def CreateAlertInput.opensIncident (input : CreateAlertInput) : Prop :=
  input.createIncident = true ∨ input.severity = .CRITICAL

instance (input : CreateAlertInput) : Decidable input.opensIncident :=
  inferInstanceAs (Decidable (_ ∨ _))

namespace AlertService

/-- The columns of a new alert. -/
def newAlert (input : CreateAlertInput) : AlertColumns where
  jobId := input.jobId
  source := input.source
  severity := input.severity
  status := .OPEN
  title := input.title
  description := input.description

/-- The columns of the incident opened with an alert. -/
def newIncident (alert : AlertEntity) : IncidentColumns where
  alertId := some alert.id
  title := s!"Incident: {alert.title}"
  summary := alert.description
  status := .OPEN

/-- What `create` awaits once the alert and the incident are written. -/
def announce (input : CreateAlertInput) (alert : AlertEntity) (incident : Option IncidentEntity) :
    Promise (AlertEntity × Option IncidentEntity) := do
  let _ ← await (.insertOperatorAction
    { operatorId := input.operatorId
      action := "alert.create"
      targetType := .ALERT
      targetId := some alert.id
      payload := [("severity", .str alert.severity.value), ("source", .str alert.source)] })
  let _ ← AuditService.log
    { actorType := .OPERATOR
      actorId := some input.operatorId
      action := "alert.created"
      entityType := .ALERT
      entityId := some alert.id
      metadata :=
        [("severity", .str alert.severity.value), ("source", .str alert.source),
          ("incidentId", .ofUuid? (incident.map (·.id)))] }
  RealtimeEventPublisher.publishAlertRaised
    [("alertId", .uuid alert.id), ("severity", .str alert.severity.value),
      ("title", .str alert.title), ("source", .str alert.source),
      ("status", .str alert.status.value), ("incidentId", .ofUuid? (incident.map (·.id)))]
  if let some incident := incident then
    RealtimeEventPublisher.publishIncidentUpdated
      [("incidentId", .uuid incident.id), ("status", .str incident.status.value),
        ("alertId", .ofUuid? incident.alertId)]
  return (alert, incident)

/-- The alert is raised first, then its incident if it opens one, then both are announced. -/
def create (input : CreateAlertInput) : Promise (AlertEntity × Option IncidentEntity) := do
  let alert ← await (.insertAlert (newAlert input))
  if input.opensIncident then
    let incident ← await (.insertIncident (newIncident alert))
    announce input alert (some incident)
  else
    announce input alert none

/-- The alert, with the incident linked to it. -/
def getById (alertId : Uuid) : Promise (AlertEntity × Option IncidentEntity) := do
  let some loaded ← await (.findAlert alertId)
    | .throw (.notFound s!"Alert {alertId} not found")
  return loaded

/-- What follows the read goes on with the alert that was found. -/
theorem getById_bind {α : Type} (alertId : Uuid)
    (f : AlertEntity × Option IncidentEntity → Promise α) :
    (getById alertId).bind f = (await (.findAlert alertId)).bind fun
      | some loaded => f loaded
      | none => .throw (.notFound s!"Alert {alertId} not found") := by
  unfold getById
  refine (Prog.bind_assoc _ _ _).trans (congrArg _ ?_)
  funext reply
  cases reply <;> rfl

/-- The entity `acknowledge` saves. -/
def acknowledged (alert : AlertEntity) (operatorId : String) (acknowledgedAt : Date) :
    AlertEntity :=
  { alert with
    status := .ACKNOWLEDGED
    acknowledgedBy := some operatorId
    acknowledgedAt := some acknowledgedAt }

/-- The alert is saved with the incident it was loaded with. -/
def acknowledge (alertId : Uuid) (operatorId : String) :
    Promise (AlertEntity × Option IncidentEntity) := do
  let (alert, incident) ← getById alertId
  if alert.status = .RESOLVED then
    .throw (.badRequest "Resolved alert cannot be acknowledged")
  else
    let acknowledgedAt ← await .now
    let updated ← await (.saveAlert (acknowledged alert operatorId acknowledgedAt) incident)
    let _ ← AuditService.log
      { actorType := .OPERATOR
        actorId := some operatorId
        action := "alert.acknowledged"
        entityType := .ALERT
        entityId := some alert.id
        metadata := [] }
    RealtimeEventPublisher.publishAlertAcknowledged
      ([("alertId", .uuid updated.id), ("acknowledgedBy", .str operatorId)] ++
        (updated.acknowledgedAt.map fun t => ("acknowledgedAt", .date t)).toList)
    return (updated, incident)

end AlertService

end RealtimeOps
