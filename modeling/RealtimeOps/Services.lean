import RealtimeOps.Infrastructure

/-!
# Shared services

`AuditService.log`, `NotificationService.create`, `RedisLockService`,
`RealtimeEventPublisher` and the parts of `RabbitMqService` that move jobs : publishing to
`jobs.processing`, publishing on `ops.events`, and the callback of `consume`, which settles
a message once its handler is done.
-/

set_option autoImplicit false

namespace RealtimeOps

open Interleaving

/-- Every call of the program is routine. -/
abbrev Routine {α : Type} (p : Promise α) : Prop :=
  p.Calls fun op : Op => op.routine = true

namespace AuditService

/-- One audit entry, never changed afterwards. -/
def log (input : CreateAuditEntryInput) : Promise AuditEntryEntity :=
  await (.insertAuditEntry input)

end AuditService

/-! ## Reading the audit trail -/

/-- The actions logged about a row, in order. -/
def actionsOn (trail : List CreateAuditEntryInput) (type : EntityType) (id : Uuid) :
    List String :=
  (trail.filter fun e => e.entityType = type ∧ e.entityId = some id).map (·.action)

/-- The status left by the last action that means one. -/
def replay {σ : Type} (meaning : String → Option σ) (actions : List String) : Option σ :=
  actions.foldl (fun status action => meaning action <|> status) none

theorem actionsOn_append (trail new : List CreateAuditEntryInput) (type : EntityType) (id : Uuid) :
    actionsOn (trail ++ new) type id = actionsOn trail type id ++ actionsOn new type id := by
  simp [actionsOn]

@[simp] theorem actionsOn_nil (type : EntityType) (id : Uuid) : actionsOn [] type id = [] :=
  rfl

theorem actionsOn_cons (e : CreateAuditEntryInput) (trail : List CreateAuditEntryInput)
    (type : EntityType) (id : Uuid) :
    actionsOn (e :: trail) type id =
      if e.entityType = type ∧ e.entityId = some id then e.action :: actionsOn trail type id
      else actionsOn trail type id := by
  simp only [actionsOn, List.filter_cons, decide_eq_true_eq]
  split_ifs <;> rfl

theorem replay_concat {σ : Type} (meaning : String → Option σ) (actions : List String)
    (action : String) :
    replay meaning (actions ++ [action]) = (meaning action <|> replay meaning actions) := by
  simp [replay]

/-! ## Notifications, locks and messages -/

/-- The input of `NotificationService.create`. -/
structure CreateNotificationInput where
  type : NotificationType
  message : String
  metadata : Record

namespace NotificationService

/-- A notification is unread and of the only channel there is. -/
def create (input : CreateNotificationInput) : Promise NotificationEntity :=
  await (.insertNotification
    { type := input.type
      message := input.message
      metadata := input.metadata
      channel := "operator_feed"
      readAt := none })

end NotificationService

namespace RedisLockService

/-- The reply is `'OK'` when the key was free. -/
def acquireLock (key : String) (ttlSeconds : ℕ) : Promise Bool :=
  await (.setNX key ttlSeconds)

/-- `DEL`, whoever set the key. -/
def releaseLock (key : String) : Promise Unit :=
  await (.del key)

end RedisLockService

namespace RabbitMqService

/-- `publishToQueue` on `jobs.processing`. -/
def publishToQueue (jobId : Uuid) (reason requestedBy : String) : Promise Unit :=
  await (.sendToQueue ⟨some ⟨some jobId, some reason, some requestedBy⟩⟩)

/-- `publish` on the exchange of the realtime events; nobody confirms it. -/
def publishEvent (routingKey : String) (payload : Record) : Promise Unit :=
  await (.publish routingKey payload)

/-- The callback `consume` registers : the message is acknowledged once the handler
resolves, and dropped (`nack` without requeue) once it rejects or the content is not
JSON. -/
def consumeCallback (handler : QueuePayload → Promise Unit) (delivery : Delivery) :
    Promise Unit :=
  Prog.tryCatch
    (do
      match delivery.message.content with
      | none => .throw .malformed
      | some payload => handler payload
      await (.ack delivery.tag))
    fun _ => await (.nack delivery.tag)

end RabbitMqService

namespace RealtimeEventPublisher

open RabbitMqService

/-- The topics are fixed here, the payloads by the callers. -/
def publishJobCreated (payload : Record) : Promise Unit :=
  publishEvent "job.created" payload

def publishJobProcessing (payload : Record) : Promise Unit :=
  publishEvent "job.processing" payload

def publishJobCompleted (payload : Record) : Promise Unit :=
  publishEvent "job.completed" payload

def publishJobFailed (payload : Record) : Promise Unit :=
  publishEvent "job.failed" payload

def publishAlertRaised (payload : Record) : Promise Unit :=
  publishEvent "alert.raised" payload

def publishAlertAcknowledged (payload : Record) : Promise Unit :=
  publishEvent "alert.acknowledged" payload

def publishIncidentUpdated (payload : Record) : Promise Unit :=
  publishEvent "incident.updated" payload

def publishNotificationCreated (payload : Record) : Promise Unit :=
  publishEvent "notification.created" payload

end RealtimeEventPublisher

/-- The payload of `notification.created`, the same at every call site. -/
def NotificationEntity.createdPayload (notification : NotificationEntity) : Record :=
  [("notificationId", .uuid notification.id), ("type", .str notification.type.value),
    ("message", .str notification.message), ("createdAt", .date notification.createdAt)]

end RealtimeOps
