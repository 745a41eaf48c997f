import RealtimeOps.Interleaving.Promise
import RealtimeOps.Refinement

/-!
# Links stay where no alert is saved

To acknowledge an alert is to save it, which can take an incident its link. No request of the
deployment asks for that. The other commands keep to the discipline `linking` : they save no alert,
and an incident only with the link it has. So incidents stay linked, and an incident that was
answered is linked as the answer says.
-/

set_option autoImplicit false

namespace RealtimeOps

open Interleaving

/-- No alert is saved, and an incident only with the link it has. -/
def World.Fastens (w : World) : Op → Prop
  | .saveAlert _ _ => False
  | .saveIncident incident => w.Links incident.id incident.alertId
  | _ => True

theorem World.Fastens.keepsLinks {w : World} {op : Op} (h : w.Fastens op) : w.KeepsLinks op := by
  cases op with
  | saveAlert => exact h.elim
  | _ => trivial

theorem World.Fastens.keeps {w : World} {op : Op} (h : w.Fastens op) (e : Env) :
    w ≤ (handle e op w).2 := by
  refine World.Ties.keeps ?_ h.keepsLinks e
  cases op with
  | saveAlert => exact h.elim
  | saveIncident => exact h
  | _ => trivial

/-- What all commands keep to that do not acknowledge an alert. -/
def linking : Discipline handle where
  le := (· ≤ ·)
  refl := le_refl
  trans := le_trans
  allows := World.Fastens
  up e _ _ h := h.keeps e

/-- The incident of the answer is stored, with the link that the answer shows. -/
def World.LinksAs (w : World) : Response → Prop
  | .raised _ (some incident) | .incident incident => w.Links incident.id incident.alertId
  | _ => True

/-! ## The programs -/

section Programs

variable {K : World → Prop} {α : Type} {Q : α → World → Prop}

theorem linking_await {op : Op} {f : op.Reply → Promise α} (hop : ∀ w, K w → w.Fastens op)
    (hf : ∀ reply, (f reply).Delivers linking (fun w => K w ∧ op.tells reply w) Q) :
    ((await op).bind f).Delivers linking K Q :=
  .await_bind hop (fun _ _ _ _ _ h _ hup => (tells_of_handle h).mono hup) hf

/-- A call whose reply is not needed. -/
theorem linking_step {op : Op} {f : op.Reply → Promise α} (hop : ∀ w, K w → w.Fastens op)
    (hf : ∀ reply, (f reply).Delivers linking K Q) : ((await op).bind f).Delivers linking K Q :=
  linking_await hop fun reply => (hf reply).mono (fun _ h => h.1) fun _ _ h => h

theorem linking_call (call : Call) : call.prog.Delivers linking K fun _ _ => True := by
  refine .of_calls ((working_call call).mono fun op hop w => ?_)
  cases op with
  | saveAlert | saveIncident => exact hop.elim
  | _ => trivial

theorem linking_announce (input : CreateAlertInput) (alert : AlertEntity)
    (incident : Option IncidentEntity)
    (hK : ∀ w, K w → w.LinksAs (.raised alert incident)) :
    (AlertService.announce input alert incident).Delivers linking K fun answer w =>
      w.LinksAs (.raised answer.1 answer.2) := by
  unfold AlertService.announce
  refine linking_step (fun _ _ => trivial) fun action => ?_
  refine linking_step (fun _ _ => trivial) fun entry => ?_
  refine linking_step (fun _ _ => trivial) fun _ => ?_
  cases incident with
  | none => exact .ret hK
  | some incident => exact linking_step (fun _ _ => trivial) fun _ => .ret hK

theorem linking_createAlert (input : CreateAlertInput) :
    (AlertService.create input).Delivers linking K fun answer w =>
      w.LinksAs (.raised answer.1 answer.2) := by
  unfold AlertService.create
  refine linking_step (fun _ _ => trivial) fun alert => ?_
  split_ifs
  · refine linking_await (fun _ _ => trivial) fun incident => ?_
    refine linking_announce input alert (some incident) ?_
    rintro w ⟨-, hlinks, hlink⟩
    rw [← hlink] at hlinks
    exact hlinks
  · exact linking_announce input alert none fun _ _ => trivial

theorem linking_propagate {incident updated : IncidentEntity} {operatorId : String}
    {changes : Date → AlertUpdate} {action auditAction : String} {metadata payload : Record}
    (hK : ∀ w, K w → w.LinksAs (.incident updated)) :
    (IncidentService.propagate incident updated operatorId changes action auditAction metadata
      payload).Delivers linking K fun answer w => w.LinksAs (.incident answer) := by
  have hrest :
      ((await (.insertOperatorAction ⟨operatorId, action, .INCIDENT, some incident.id, []⟩)).bind
        fun _ => (AuditService.log ⟨.OPERATOR, some operatorId, auditAction, .INCIDENT,
          some incident.id, metadata⟩).bind
        fun _ => (RealtimeEventPublisher.publishIncidentUpdated payload).bind
        fun _ => .ret updated).Delivers linking K fun answer w =>
          w.LinksAs (.incident answer) := by
    refine linking_step (fun _ _ => trivial) fun action => ?_
    refine linking_step (fun _ _ => trivial) fun entry => ?_
    exact linking_step (fun _ _ => trivial) fun _ => .ret hK
  unfold IncidentService.propagate
  cases incident.alertId with
  | none => exact hrest
  | some alertId =>
    exact linking_step (fun _ _ => trivial) fun _ => linking_step (fun _ _ => trivial) fun _ =>
      hrest

theorem linking_acknowledge (incidentId : Uuid) (operatorId : String) :
    (IncidentService.acknowledge incidentId operatorId).Delivers linking K fun answer w =>
      w.LinksAs (.incident answer) := by
  unfold IncidentService.acknowledge
  rw [Prog.bind_eq, IncidentService.getIncident_bind]
  refine linking_await (fun _ _ => trivial) fun found => ?_
  cases found with
  | none => exact .throw
  | some incident =>
    dsimp only
    split_ifs
    · exact .throw
    refine linking_step (fun _ _ => trivial) fun acknowledgedAt => ?_
    exact linking_await (fun w hw => hw.2 incident rfl) fun updated =>
      linking_propagate fun w hw => hw.2

theorem linking_settle (incident : IncidentEntity) (operatorId : String)
    (hK : ∀ w, K w → w.Links incident.id incident.alertId) :
    (IncidentService.settle incident operatorId).Delivers linking K fun answer w =>
      w.LinksAs (.incident answer) := by
  unfold IncidentService.settle
  refine linking_step (fun _ _ => trivial) fun resolvedAt => ?_
  exact linking_await hK fun updated => linking_propagate fun w hw => hw.2

theorem linking_resolve (incidentId : Uuid) (operatorId : String) :
    (IncidentService.resolve incidentId operatorId).Delivers linking K fun answer w =>
      w.LinksAs (.incident answer) := by
  unfold IncidentService.resolve
  rw [Prog.bind_eq, IncidentService.getIncident_bind]
  refine linking_await (fun _ _ => trivial) fun found => ?_
  cases found with
  | none => exact .throw
  | some incident =>
    dsimp only
    split_ifs
    · exact .throw
    · refine linking_step (fun _ _ => trivial) fun acknowledgedAt => ?_
      exact linking_settle _ operatorId fun w hw => hw.2 incident rfl
    · exact linking_settle _ operatorId fun w hw => hw.2 incident rfl

theorem linking_prog {c : Command} (hc : ¬c.AcknowledgesAlert) :
    c.prog.Delivers linking K fun response w => w.LinksAs response := by
  cases c with
  | job call => exact (linking_call call).bind fun _ => .ret fun _ _ => trivial
  | createAlert input => exact (linking_createAlert input).bind fun _ => .ret fun _ h => h.2
  | acknowledgeAlert => exact absurd trivial hc
  | acknowledge incidentId operatorId =>
    exact (linking_acknowledge incidentId operatorId).bind fun _ => .ret fun _ h => h.2
  | resolve incidentId operatorId =>
    exact (linking_resolve incidentId operatorId).bind fun _ => .ret fun _ h => h.2

end Programs

/-- No route acknowledges an alert itself. -/
theorem Site.Asks.not_acknowledgesAlert {site : Site} {request : HttpRequest} {c : Command}
    (h : site.Asks request c) : ¬c.AcknowledgesAlert := by
  obtain ⟨-, route, r, operatorId, -, -, hc⟩ := h
  cases route <;> cases hc <;> exact id

/-! ## Runs -/

namespace Operations

variable {s s' : Operations}

/-- Every thread keeps to the discipline. -/
def Linking (s : Operations) : Prop :=
  s.pool.Promising linking fun _ response w => w.LinksAs response

namespace Linking

theorem init (w : World) : (Operations.init w).Linking :=
  fun i p hp => by cases hp

/-- The next call of a thread takes no link away. -/
theorem keepsLinks (h : s.Linking) {i : ℕ} {op : Op} (hop : s.pool.awaited i = some op) :
    s.pool.world.KeepsLinks op := by
  obtain ⟨k, hk⟩ := Pool.awaited_eq_some.mp hop
  exact (h i _ hk _ le_rfl).1.keepsLinks

theorem linksKept (h : s.Linking) {l : Label} (hl : l.Genuine) : s.LinksKept l := by
  refine ⟨hl, ?_⟩
  cases l with
  | step i e => exact fun op hop => h.keepsLinks hop
  | _ => trivial

theorem start (h : s.Linking) {c : Command} (hc : ¬c.AcknowledgesAlert) : (s.start c).Linking :=
  h.spawn (fun _ _ => rfl) (linking_prog (K := fun _ => True) hc _ fun _ _ => trivial)

/-- Every move of a run in which nobody acknowledges an alert keeps the links. -/
theorem step (h : s.Linking) {l : Label} (hl : ∀ c, l = .start c → ¬c.AcknowledgesAlert)
    (hs : s.step l = some s') : s'.Linking := by
  cases l with
  | start c =>
    cases hs
    exact h.start (hl c rfl)
  | deliver n =>
    obtain ⟨m, -, rfl⟩ := Option.map_eq_some_iff.mp hs
    refine start (c := .job (.consume ⟨s.pool.world.nextTag, m⟩)) ?_ id
    exact h.up (World.Keeps.of_eq rfl rfl rfl rfl)
  | step i e =>
    obtain ⟨-, pool, hpool, rfl⟩ := step_step.mp hs
    exact (h.advance hpool).1
  | redeliver tag =>
    obtain ⟨w, hw, rfl⟩ := Option.map_eq_some_iff.mp hs
    obtain ⟨d, -, rfl⟩ := Option.map_eq_some_iff.mp hw
    exact h.up (World.Keeps.of_eq rfl rfl rfl rfl)
  | stop i =>
    obtain ⟨-, rfl⟩ := step_stop.mp hs
    exact h.halt i _
  | expire key now =>
    obtain ⟨w, hw, rfl⟩ := Option.map_eq_some_iff.mp hs
    obtain ⟨lock, -, -, rfl⟩ := expire_eq_some.mp hw
    exact h.up (World.Keeps.of_eq rfl rfl rfl rfl)

end Linking

end Operations

end RealtimeOps
