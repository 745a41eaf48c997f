import RealtimeOps.Interleaving.Simulation
import RealtimeOps.NoPhantoms
import RealtimeOps.Visibility

/-!
# The deployment refines the operations

A request passes the guards before its handler runs a command, and the health checks of the gateways
leave the rows, the locks and the queue of jobs alone. So every run of the deployment is, for these,
a run of the operations, in which the commands are those that requests with a valid token asked for
and the executions run on messages (`Deployment.simulates`). What holds in every state of the
operations then holds of the deployment.

A thread of the deployment `Arrives` until it has come to its command. `names` lists the threads
that have, in the order in which they did.
-/

set_option autoImplicit false

namespace RealtimeOps

open Interleaving

/-! ## What the commands publish -/

/-- The routing key of the health check. -/
def healthTopic : String :=
  "system.health"

/-- Neither the routing key of the health check nor an event of Socket.IO itself. -/
def OwnTopic (topic : String) : Prop :=
  topic ≠ healthTopic ∧ topic ∉ Server.RESERVED_EVENTS

instance (topic : String) : Decidable (OwnTopic topic) :=
  inferInstanceAs (Decidable (_ ∧ _))

/-- The call is not the publication of a health check. -/
def Op.NoCheck : Op → Prop
  | .publish topic _ => OwnTopic topic
  | _ => True

/-- The calls of the commands on jobs. -/
def Op.OnJobs : Op → Prop
  | insertAlert _ | findAlert _ | saveAlert _ _ | updateAlert _ _ | insertIncident _
  | findIncident _ | saveIncident _ => False
  | publish topic _ => OwnTopic topic
  | _ => True

/-- The calls of the executions, which also raise alerts and open incidents. -/
def Op.Working : Op → Prop
  | insertAlert _ | insertIncident _ => True
  | op => op.OnJobs

/-- The calls of the commands on alerts and incidents. -/
def Op.OnAlerts : Op → Prop
  | insertAlert _ | findAlert _ | saveAlert _ _ | updateAlert _ _ | insertIncident _
  | findIncident _ | saveIncident _ | insertOperatorAction _ | insertAuditEntry _ | now => True
  | publish topic _ => OwnTopic topic
  | _ => False

theorem Op.OnJobs.working {op : Op} (h : op.OnJobs) : op.Working := by
  cases op with
  | insertAlert | insertIncident => trivial
  | _ => exact h

theorem Op.Working.noCheck {op : Op} (h : op.Working) : op.NoCheck := by
  cases op with
  | publish topic payload => exact h
  | _ => trivial

theorem Op.OnAlerts.noCheck {op : Op} (h : op.OnAlerts) : op.NoCheck := by
  cases op with
  | publish topic payload => exact h
  | _ => trivial

section Topics

theorem onJobs_publish {topic : String} {payload : Record}
    (h : OwnTopic topic) : (Op.publish topic payload).OnJobs :=
  h

theorem onJobs_create (input : CreateJobInput) : (JobService.create input).Calls Op.OnJobs := by
  refine .await_bind trivial fun _ => .await_bind trivial fun _ => ?_
  refine .await_bind trivial fun _ => .await_bind trivial fun _ => .await_bind trivial fun _ => ?_
  refine .await_bind (onJobs_publish (by decide)) fun _ => ?_
  exact .await_bind (onJobs_publish (by decide)) fun _ => trivial

theorem onJobs_retry (jobId : Uuid) (operatorId : String) :
    (JobService.retry jobId operatorId).Calls Op.OnJobs := by
  refine .bind (.await_bind trivial fun found => by cases found <;> trivial) fun job => ?_
  split_ifs
  · trivial
  · trivial
  refine .await_bind trivial fun _ => .await_bind trivial fun _ => ?_
  refine .await_bind trivial fun _ => .await_bind trivial fun _ => .await_bind trivial fun _ => ?_
  refine .await_bind (onJobs_publish (by decide)) fun _ => ?_
  exact .await_bind (onJobs_publish (by decide)) fun _ => trivial

theorem onJobs_reportFailure (job : JobEntity) (attempt : ProcessingAttemptEntity)
    (errorMessage : String) (finishedAt : Date) (alert : AlertEntity)
    (incident : Option IncidentEntity) :
    (JobProcessorService.reportFailure job attempt errorMessage finishedAt alert
      incident).Calls Op.OnJobs := by
  refine .await_bind trivial fun _ => .await_bind trivial fun _ => .await_bind trivial fun _ => ?_
  cases incident with
  | none =>
    refine .await_bind (onJobs_publish (by decide)) fun _ => ?_
    exact .await_bind (onJobs_publish (by decide)) fun _ => .await (onJobs_publish (by decide))
  | some incident =>
    refine .await_bind trivial fun _ => .await_bind (onJobs_publish (by decide)) fun _ => ?_
    refine .await_bind (onJobs_publish (by decide)) fun _ => ?_
    exact .await_bind (onJobs_publish (by decide)) fun _ => .await (onJobs_publish (by decide))

theorem onJobs_markCompleted (job : JobEntity) (attempt : ProcessingAttemptEntity) :
    (JobProcessorService.markCompleted job attempt).Calls Op.OnJobs := by
  refine .await_bind trivial fun _ => .await_bind trivial fun _ => .await_bind trivial fun _ => ?_
  refine .await_bind trivial fun _ => .await_bind trivial fun _ => ?_
  exact .await_bind (onJobs_publish (by decide)) fun _ => .await (onJobs_publish (by decide))

theorem working_processJob (input : ProcessJobInput) (job : JobEntity) :
    (JobProcessorService.processJob input job).Calls Op.Working := by
  refine .await_bind trivial fun _ => .await_bind trivial fun _ => ?_
  refine .await_bind (by decide : OwnTopic "job.processing") fun _ => ?_
  refine .await_bind trivial fun _ => .await_bind trivial fun _ => .await_bind trivial fun _ => ?_
  have hreport : ∀ job attempt errorMessage finishedAt alert incident,
      (JobProcessorService.reportFailure job attempt errorMessage finishedAt alert
        incident).Calls Op.Working := fun _ _ _ _ _ _ =>
    (onJobs_reportFailure _ _ _ _ _ _).mono fun _ => Op.OnJobs.working
  split
  · refine .await_bind trivial fun _ => .await_bind trivial fun _ => ?_
    refine .await_bind trivial fun _ => .await_bind trivial fun _ => ?_
    split_ifs
    · exact .await_bind trivial fun _ => hreport _ _ _ _ _ _
    · exact hreport _ _ _ _ _ _
  · exact (onJobs_markCompleted _ _).mono fun _ => Op.OnJobs.working

theorem onJobs_getStatus (jobId : Uuid) : (JobService.getStatus jobId).Calls Op.OnJobs := by
  refine .bind (.await_bind trivial fun found => ?_) fun job => .await_bind trivial fun _ => trivial
  cases found <;> trivial

theorem working_process (input : ProcessJobInput) :
    (JobProcessorService.process input).Calls Op.Working := by
  refine .await_bind trivial fun acquired => ?_
  cases acquired with
  | false => trivial
  | true =>
    have hrelease : (RedisLockService.releaseLock (lockKey input.jobId)).Calls Op.Working :=
      .await trivial
    refine .tryFinally hrelease (.await_bind trivial fun found => ?_)
    cases found with
    | none => trivial
    | some job => exact working_processJob input job

theorem working_consume (delivery : Delivery) :
    (RabbitMqService.consumeCallback JobProcessingConsumer.onMessage delivery).Calls
      Op.Working := by
  have hdrop : (await (.nack delivery.tag)).Calls Op.Working := .await trivial
  refine .tryCatch (fun _ => hdrop) ?_
  obtain ⟨tag, ⟨content⟩⟩ := delivery
  cases content with
  | none => trivial
  | some payload =>
    refine .bind ?_ fun _ => .await trivial
    unfold JobProcessingConsumer.onMessage
    split
    · trivial
    · exact working_process _

theorem onAlerts_publish {topic : String} {payload : Record}
    (h : OwnTopic topic) : (Op.publish topic payload).OnAlerts :=
  h

theorem onAlerts_announce (input : CreateAlertInput) (alert : AlertEntity)
    (incident : Option IncidentEntity) :
    (AlertService.announce input alert incident).Calls Op.OnAlerts := by
  refine .await_bind trivial fun _ => .await_bind trivial fun _ => ?_
  cases incident with
  | none => exact .await_bind (onAlerts_publish (by decide)) fun _ => trivial
  | some incident =>
    refine .await_bind (onAlerts_publish (by decide)) fun _ => ?_
    exact .await_bind (onAlerts_publish (by decide)) fun _ => trivial

theorem onAlerts_createAlert (input : CreateAlertInput) :
    (AlertService.create input).Calls Op.OnAlerts := by
  refine .await_bind trivial fun _ => ?_
  split_ifs
  · exact .await_bind trivial fun _ => onAlerts_announce _ _ _
  · exact onAlerts_announce _ _ _

theorem onAlerts_acknowledgeAlert (alertId : Uuid) (operatorId : String) :
    (AlertService.acknowledge alertId operatorId).Calls Op.OnAlerts := by
  refine .bind (.await_bind trivial fun found => by cases found <;> trivial) fun loaded => ?_
  dsimp only
  split_ifs
  · trivial
  refine .await_bind trivial fun _ => .await_bind trivial fun _ => .await_bind trivial fun _ => ?_
  exact .await_bind (onAlerts_publish (by decide)) fun _ => trivial

theorem onAlerts_propagate (incident updated : IncidentEntity) (operatorId : String)
    (changes : Date → AlertUpdate) (action auditAction : String) (metadata payload : Record) :
    (IncidentService.propagate incident updated operatorId changes action auditAction metadata
      payload).Calls Op.OnAlerts := by
  unfold IncidentService.propagate
  cases incident.alertId with
  | none =>
    refine .await_bind trivial fun _ => .await_bind trivial fun _ => ?_
    exact .await_bind (onAlerts_publish (by decide)) fun _ => trivial
  | some alertId =>
    refine .await_bind trivial fun _ => .await_bind trivial fun _ => ?_
    refine .await_bind trivial fun _ => .await_bind trivial fun _ => ?_
    exact .await_bind (onAlerts_publish (by decide)) fun _ => trivial

theorem onAlerts_acknowledge (incidentId : Uuid) (operatorId : String) :
    (IncidentService.acknowledge incidentId operatorId).Calls Op.OnAlerts := by
  refine .bind (.await_bind trivial fun found => by cases found <;> trivial) fun incident => ?_
  split_ifs
  · trivial
  exact .await_bind trivial fun _ => .await_bind trivial fun _ => onAlerts_propagate _ _ _ _ _ _ _ _

theorem onAlerts_settle (incident : IncidentEntity) (operatorId : String) :
    (IncidentService.settle incident operatorId).Calls Op.OnAlerts :=
  .await_bind trivial fun _ => .await_bind trivial fun _ => onAlerts_propagate _ _ _ _ _ _ _ _

theorem onAlerts_resolve (incidentId : Uuid) (operatorId : String) :
    (IncidentService.resolve incidentId operatorId).Calls Op.OnAlerts := by
  refine .bind (.await_bind trivial fun found => by cases found <;> trivial) fun incident => ?_
  split_ifs
  · trivial
  · exact .await_bind trivial fun _ => onAlerts_settle _ _
  · exact onAlerts_settle _ _

/-- The commands that are not about a job. -/
theorem onAlerts_prog {c : Command} (h : ∀ call, c ≠ .job call) : c.prog.Calls Op.OnAlerts := by
  cases c with
  | job call => exact absurd rfl (h call)
  | createAlert input => exact (onAlerts_createAlert input).bind fun _ => trivial
  | acknowledgeAlert alertId operatorId =>
    exact (onAlerts_acknowledgeAlert alertId operatorId).bind fun _ => trivial
  | acknowledge incidentId operatorId =>
    exact (onAlerts_acknowledge incidentId operatorId).bind fun _ => trivial
  | resolve incidentId operatorId =>
    exact (onAlerts_resolve incidentId operatorId).bind fun _ => trivial

theorem working_call (call : Call) : call.prog.Calls Op.Working := by
  cases call with
  | create input =>
    exact ((onJobs_create input).mono fun _ => Op.OnJobs.working).bind fun _ => trivial
  | retry jobId operatorId =>
    exact ((onJobs_retry jobId operatorId).mono fun _ => Op.OnJobs.working).bind fun _ => trivial
  | getStatus jobId =>
    exact ((onJobs_getStatus jobId).mono fun _ => Op.OnJobs.working).bind fun _ => trivial
  | process input => exact (working_process input).bind fun _ => trivial
  | consume delivery => exact (working_consume delivery).bind fun _ => trivial

theorem noCheck_prog (c : Command) : c.prog.Calls Op.NoCheck := by
  cases c with
  | job call =>
    exact ((working_call call).mono fun _ => Op.Working.noCheck).bind fun _ => trivial
  | createAlert | acknowledgeAlert | acknowledge | resolve =>
    exact (onAlerts_prog (by rintro call ⟨⟩)).mono fun _ => Op.OnAlerts.noCheck

end Topics

/-! ## Requests -/

/-- The command a route runs for an operator. -/
def ApiRoute.command (operatorId : String) : ApiRoute → Option Command
  | createJob dto _ => some (.job (.create (JobsController.createJob dto operatorId)))
  | retryJob id => some (.job (.retry id operatorId))
  | getJobStatus id => some (.job (.getStatus id))
  | createAlert dto _ => some (.createAlert (AlertsController.createAlert dto operatorId))
  | acknowledgeIncident id => some (.acknowledge id operatorId)
  | resolveIncident id => some (.resolve id operatorId)
  | getHealth | read _ | refused _ => none

/-- The request brings a valid token and names an operator, for whom its route runs the command. -/
def Site.Asks (site : Site) (request : HttpRequest) (c : Command) : Prop :=
  site.carriesToken request = true ∧ ∃ route r operatorId, request = .api route r ∧
    AuthService.resolveOperatorId (OperatorAuthGuard.extractHeader r.headers.operatorId) =
      .ok operatorId ∧ route.command operatorId = some c

/-- A call that leaves the rows, the locks and the queue of jobs alone, and publishes health checks
only. -/
def SiteOp.Aside : SiteOp → Prop
  | .counter _ => True
  | op => op.Quiet True

/-- The thread calls nothing else until it has come to a command with `P`, if it does. -/
def Arrives (P : Command → Prop) : Handling HttpBody → Prop
  | .ret body => ∀ response, body ≠ .response response
  | .throw _ => True
  | .call op k => op.Aside ∧ ∀ r, Arrives P (k r) ∨ ∃ c, P c ∧ k r = c.handling

/-- The thread has come to a command with `P`, or it arrives. -/
def Comes (P : Command → Prop) (p : Handling HttpBody) : Prop :=
  Arrives P p ∨ ∃ c, P c ∧ p = c.handling

section Requests

variable {α : Type} {P : Command → Prop}

theorem Arrives.mono {P' : Command → Prop} (h : ∀ c, P c → P' c) :
    ∀ {p : Handling HttpBody}, Arrives P p → Arrives P' p
  | .ret _, hp => hp
  | .throw _, _ => trivial
  | .call _ _, hp =>
    ⟨hp.1, fun r => (hp.2 r).imp (fun hk => hk.mono h) fun ⟨c, hc, hk⟩ => ⟨c, h c hc, hk⟩⟩

/-- What a request does before its handler. -/
theorem Comes.bind {f : α → Handling HttpBody} (hf : ∀ a, Comes P (f a)) :
    ∀ {p : Handling α}, p.Calls SiteOp.Aside → Comes P (p.bind f)
  | .ret a, _ => hf a
  | .throw _, _ => .inl trivial
  | .call _ _, h => .inl ⟨h.1, fun r => Comes.bind hf (h.2 r)⟩

theorem arrives_of_calls {p : Handling α} {f : α → HttpBody}
    (hf : ∀ a response, f a ≠ .response response) (h : p.Calls SiteOp.Aside) :
    Comes P (p.bind fun a => .ret (f a)) := by
  refine Comes.bind (fun a => .inl ?_) h
  exact hf a

theorem SiteOp.Quiet.aside {op : SiteOp} (h : op.Quiet True) : op.Aside := by
  cases op with
  | counter op => trivial
  | service | select | ping => exact h

theorem aside_canActivate (guard : RedisRateLimitGuard) (context : ExecutionContext) :
    ((guard.canActivate context).embed limiting).Calls SiteOp.Aside :=
  Prog.Calls.embed ((guard.calls_canActivate context).mono fun _ _ => trivial)

theorem comes_reads : ∀ queries, Comes P (ApiRoute.reads queries)
  | 0 => .inl fun _ => by simp
  | n + 1 => Comes.bind (fun _ => comes_reads n) (.await trivial)

/-- The handler of a route is its command or arrives nowhere. -/
theorem comes_handler {route : ApiRoute} {operatorId : String}
    (h : ∀ c, route.command operatorId = some c → P c) : Comes P (route.handler operatorId) := by
  cases route with
  | getHealth =>
    exact arrives_of_calls (by simp) ((quiet_getHealth trivial).mono fun _ => SiteOp.Quiet.aside)
  | read queries => exact comes_reads queries
  | refused message => exact .inl trivial
  | createJob | retryJob | getJobStatus | createAlert | acknowledgeIncident | resolveIncident =>
    exact .inr ⟨_, h _ rfl, rfl⟩

/-- A request arrives at no command but what it asks for. -/
theorem comes_handleRequest (site : Site) (request : HttpRequest) :
    Comes (site.Asks request) (site.handleRequest request) := by
  cases request with
  | unrouted r => exact .inl trivial
  | realtimeHealth r =>
    exact arrives_of_calls (by simp) (quiet_now.mono fun _ => SiteOp.Quiet.aside)
  | api route r =>
    rw [Site.handleRequest, Site.authenticate, OperatorAuthGuard.canActivate]
    cases hpublic : route.isPublic with
    | true =>
      change Comes _ (((site.limiter.canActivate ⟨true, r⟩).embed limiting).bind fun _ =>
        route.handler "unknown")
      refine Comes.bind (fun _ => comes_handler ?_) (aside_canActivate _ _)
      intro c hc
      cases route <;> cases hpublic
      cases hc
    | false =>
      rw [if_neg Bool.false_ne_true]
      split_ifs with htoken
      · cases hoperator : AuthService.resolveOperatorId
          (OperatorAuthGuard.extractHeader r.headers.operatorId) with
        | error message => exact .inl trivial
        | ok operatorId =>
          change Comes _ (((site.limiter.canActivate ⟨false, r⟩).embed limiting).bind fun _ =>
            route.handler operatorId)
          refine Comes.bind (fun _ => comes_handler ?_) (aside_canActivate _ _)
          exact fun c hc => ⟨htoken, route, r, operatorId, rfl, hoperator, hc⟩
      · exact .inl trivial

end Requests

/-! ## Worlds -/

/-- `w'` is the world of the operations in the world `w` of the deployment : it lacks the health
checks, and its clock may be behind. No event is one of Socket.IO itself. -/
structure World.Shows (w w' : World) : Prop where
  same : SameButEvents w w'
  clock : w'.clock ≤ w.clock
  events : w'.events = w.events.filter fun x => x.topic ≠ healthTopic
  checks : ∀ x ∈ w.events, x.topic = healthTopic → x.payload = [("source", .str "health-check")]
  unreserved : ∀ x ∈ w.events, x.topic ∉ Server.RESERVED_EVENTS

/-- A call publishes its event or nothing. -/
theorem events_handle_subset (e : Env) (op : Op) (w : World) :
    ∃ events, (handle e op w).2.events = w.events ++ events ∧
      events ⊆ (op.event e.now).toList := by
  rcases handle_world e op w with h | ⟨reply, hp⟩
  · exact ⟨[], by rw [h, List.append_nil], List.nil_subset _⟩
  · exact ⟨_, perform_events (w := { w with clock := e.now }) hp, List.Subset.refl _⟩

theorem Op.NoCheck.topic {op : Op} (h : op.NoCheck) {now : Date} {x : Event}
    (hx : x ∈ (op.event now).toList) : OwnTopic x.topic := by
  cases op with
  | publish topic payload =>
    cases List.mem_singleton.mp hx
    exact h
  | _ => cases hx

namespace World.Shows

variable {w w' : World} {e : Env}

/-- A call of a command is answered in both alike. -/
theorem handle (h : w.Shows w') {op : Op} (hop : op.NoCheck) :
    (RealtimeOps.handle e op w').1 = (RealtimeOps.handle e op w).1 ∧
      (RealtimeOps.handle e op w).2.Shows (RealtimeOps.handle e op w').2 := by
  obtain ⟨hanswer, hsame, events, hevents, hevents'⟩ := h.same.handle e op
  obtain ⟨_, hnew, hsubset⟩ := events_handle_subset e op w
  cases List.append_cancel_left (hevents.symm.trans hnew)
  have htopic : ∀ x ∈ events, OwnTopic x.topic := fun x hx => hop.topic (hsubset hx)
  refine ⟨hanswer, hsame, (handle_clock e op w').trans_le (handle_clock e op w).ge, ?_, ?_, ?_⟩
  · rw [hevents', hevents, List.filter_append, h.events]
    congr 1
    exact (List.filter_eq_self.mpr fun x hx => decide_eq_true (htopic x hx).1).symm
  · intro x hx hcheck
    rw [hevents] at hx
    rcases List.mem_append.mp hx with hx | hx
    · exact h.checks x hx hcheck
    · exact absurd hcheck (htopic x hx).1
  · rw [hevents]
    exact List.forall_mem_append.mpr ⟨h.unreserved, fun x hx => (htopic x hx).2⟩

/-- A call aside shows nothing. -/
theorem aside {b : Backend} (h : b.world.Shows w') {op : SiteOp} (hop : op.Aside)
    (hclock : b.world.clock ≤ e.now) : (Backend.handle e op b).2.world.Shows w' := by
  cases op with
  | counter | select | ping => exact h
  | service op =>
    have hcheck : ∀ events,
        (∀ x ∈ events, x = ⟨healthTopic, e.now, [("source", .str "health-check")]⟩) →
        (RealtimeOps.handle e op b.world).2 =
          { b.world with events := b.world.events ++ events, clock := e.now } →
        (Backend.handle e (.service op) b).2.world.Shows w' := by
      intro events hevents hw
      change World.Shows (RealtimeOps.handle e op b.world).2 w'
      rw [hw]
      refine ⟨h.same, h.clock.trans hclock, ?_, ?_, ?_⟩
      · rw [List.filter_append, ← h.events, List.filter_eq_nil_iff.mpr ?_, List.append_nil]
        intro x hx
        simp [hevents x hx]
      · intro x hx htopic
        rcases List.mem_append.mp hx with hx | hx
        · exact h.checks x hx htopic
        · rw [hevents x hx]
      · refine List.forall_mem_append.mpr ⟨h.unreserved, fun x hx => ?_⟩
        rw [hevents x hx]
        exact (by decide : healthTopic ∉ Server.RESERVED_EVENTS)
    rcases handle_world e op b.world with hw | ⟨reply, hp⟩
    · exact hcheck [] (by simp) (by rw [hw, List.append_nil])
    rcases hop with rfl | ⟨-, rfl⟩
    · have hw := congrArg Prod.snd (Option.some.inj hp)
      exact hcheck [] (by simp) (by rw [← hw, List.append_nil])
    · have hw := congrArg Prod.snd (Option.some.inj hp)
      exact hcheck [_] (by simp [healthTopic]) hw.symm

theorem handOut (h : w.Shows w') (n : ℕ) (message : Message) :
    (Deployment.handOut n ⟨w.nextTag, message⟩ w).Shows
        (Deployment.handOut n ⟨w'.nextTag, message⟩ w') ∧
      w'.ready = w.ready ∧ w'.nextTag = w.nextTag := by
  obtain ⟨events, clock, rfl⟩ := h.same.exists
  exact ⟨⟨rfl, h.clock, h.events, h.checks, h.unreserved⟩, rfl, rfl⟩

theorem redeliver (h : w.Shows w') {tag : ℕ} {w₁ : World}
    (hs : RealtimeOps.redeliver tag w = some w₁) :
    ∃ w₁', RealtimeOps.redeliver tag w' = some w₁' ∧ w₁.Shows w₁' := by
  obtain ⟨d, hd, rfl⟩ := Option.map_eq_some_iff.mp hs
  obtain ⟨events, clock, rfl⟩ := h.same.exists
  exact ⟨_, Option.map_eq_some_iff.mpr ⟨d, hd, rfl⟩,
    ⟨rfl, h.clock, h.events, h.checks, h.unreserved⟩⟩

theorem expire (h : w.Shows w') {key : String} {now : Date} {w₁ : World}
    (hs : RealtimeOps.expire key now w = some w₁) :
    ∃ w₁', RealtimeOps.expire key now w' = some w₁' ∧ w₁.Shows w₁' := by
  obtain ⟨lock, hlock, ⟨hover, hnow⟩, rfl⟩ := expire_eq_some.mp hs
  obtain ⟨events, clock, rfl⟩ := h.same.exists
  refine ⟨_, expire_eq_some.mpr ⟨lock, hlock, ⟨hover, h.clock.trans hnow⟩, rfl⟩, ?_⟩
  exact ⟨rfl, le_rfl, h.events, h.checks, h.unreserved⟩

end World.Shows

/-! ## The simulation -/

/-- The request that arrived as `i` asks for the command. -/
def Site.Asked (site : Site) (allow : SiteMove → Prop) (i : ℕ) (c : Command) : Prop :=
  ∃ request, allow (.request i request) ∧ site.Asks request c

/-- The moves of the operations in a deployment that makes the moves `allow`. -/
def Site.Admits (site : Site) (allow : SiteMove → Prop) (_ : Operations) :
    Operations.Label → Prop
  | .start c => ∃ i, site.Asked allow i c
  | .deliver n => ∃ i, allow (.deliver i n)
  | .step _ e => ∃ i, allow (.step i e)
  | .redeliver tag => allow (.redeliver tag)
  | .stop _ => ∃ i, allow (.stop i)
  | .expire key now => allow (.expire key now)

namespace Deployment

/-- The operations are what the deployment has done to the rows, the locks and the queue of jobs,
and the threads with the given names have done it. -/
structure Refines (site : Site) (allow : SiteMove → Prop) (names : List ℕ) (d : Deployment)
    (s : Operations) : Prop where
  world : d.world.Shows s.pool.world
  threads : d.backend.Embeds services .response names s.pool
  commands : s.commands.length = s.pool.threads.length
  asked : ∀ (j i : ℕ) (c : Command), names[j]? = some i → s.commands[j]? = some c →
    c.Consumes ∨ site.Asked allow i c
  noCheck : ∀ p ∈ s.pool.threads, p.Calls Op.NoCheck
  aside : ∀ i p, d.backend.threads i = some p → i ∉ names → Arrives (site.Asked allow i) p

/-- The operations make one move or none to what the deployment has done by `d`, and the threads
that have come to their commands keep their places. -/
def Follows (site : Site) (allow : SiteMove → Prop) (names : List ℕ) (d : Deployment)
    (s : Operations) : Prop :=
  ∃ names' s', Relation.ReflGen (Next Operations.step (site.Admits allow)) s s' ∧
    names <+: names' ∧ d.Refines site allow names' s'

theorem follows {site : Site} {allow : SiteMove → Prop} {names : List ℕ} {d : Deployment}
    {s s' : Operations} (hs : Relation.ReflGen (Next Operations.step (site.Admits allow)) s s')
    (h : d.Refines site allow names s') : d.Follows site allow names s :=
  ⟨names, s', hs, List.prefix_refl _, h⟩

namespace Refines

variable {site : Site} {allow allow' : SiteMove → Prop} {names : List ℕ} {d d' : Deployment}
  {s : Operations} {i : ℕ} {w : World}

theorem init : Refines site allow [] .init (.init .empty) where
  world := ⟨rfl, le_rfl, rfl, by rintro x ⟨⟩, by rintro x ⟨⟩⟩
  threads := .init _ _
  commands := rfl
  asked _ _ _ hj := by cases hj
  noCheck p hp := by cases hp
  aside i p hp := by cases hp

theorem mono (h : d.Refines site allow names s) (hallow : ∀ m, allow m → allow' m) :
    d.Refines site allow' names s :=
  have hasked : ∀ i c, site.Asked allow i c → site.Asked allow' i c :=
    fun _ _ ⟨request, harrived, hasks⟩ => ⟨request, hallow _ harrived, hasks⟩
  { h with
    asked := fun j i c hj hc => (h.asked j i c hj hc).imp id (hasked i c)
    aside := fun i p hp hi => (h.aside i p hp hi).mono (hasked i) }

/-- A name that is free is not the name of a thread. -/
theorem notMem_of_none (h : d.Refines site allow names s) (hi : d.backend.threads i = none) :
    i ∉ names := by
  intro hmem
  obtain ⟨j, hj⟩ := List.mem_iff_getElem?.mp hmem
  obtain ⟨p, -, hp⟩ := h.threads.exists_thread hj
  cases hi.symm.trans hp

/-- The threads are as they were. -/
theorem withWorld (h : d.Refines site allow names s)
    (hthreads : d'.backend.threads = d.backend.threads) (hw : d'.world.Shows w) :
    d'.Refines site allow names (s.withWorld w) where
  world := hw
  threads := h.threads.of_threads hthreads rfl
  commands := h.commands
  asked := h.asked
  noCheck := h.noCheck
  aside := hthreads ▸ h.aside

/-- A thread aside moves, or there is a new one. -/
theorem other (h : d.Refines site allow names s) (hi : i ∉ names) {p : Handling HttpBody}
    (hthreads : d'.backend.threads = Function.update d.backend.threads i (some p))
    (hp : Arrives (site.Asked allow i) p) (hw : d'.world.Shows s.pool.world) :
    d'.Refines site allow names s where
  world := hw
  threads := h.threads.other hi hthreads
  commands := h.commands
  asked := h.asked
  noCheck := h.noCheck
  aside i' q hq hi' := by
    rw [hthreads, Function.update_apply] at hq
    split_ifs at hq with heq
    · cases hq
      exact heq ▸ hp
    · exact h.aside i' q hq hi'

/-- A thread comes to its command. -/
theorem start (h : d.Refines site allow names s) (hi : i ∉ names) {c : Command}
    (hthreads : d'.backend.threads = Function.update d.backend.threads i (some c.handling))
    (hc : c.Consumes ∨ site.Asked allow i c) (hw : d'.world.Shows w) :
    d'.Refines site allow (names ++ [i]) ((s.withWorld w).start c) where
  world := hw
  threads := h.threads.begin hi hthreads rfl
  commands := by simp [Operations.start, Operations.withWorld, Pool.spawn, h.commands]
  asked j i' c' hj hc' := by
    rcases Nat.lt_or_ge j names.length with hlt | hge
    · rw [List.getElem?_append_left hlt] at hj
      refine h.asked j i' c' hj ((List.getElem?_append_left ?_).symm.trans hc')
      exact hlt.trans_eq (h.threads.length.trans h.commands.symm)
    · have hj' : j = names.length := by
        have := (List.getElem?_eq_some_iff.mp hj).1
        rw [List.length_append, List.length_singleton] at this
        omega
      rw [hj', List.getElem?_concat_length] at hj
      change (s.commands ++ [c])[j]? = some c' at hc'
      rw [hj', h.threads.length, ← h.commands, List.getElem?_concat_length] at hc'
      cases hj
      cases hc'
      exact hc
  noCheck := Pool.forall_spawn h.noCheck (noCheck_prog c)
  aside i' q hq hi' := by
    obtain ⟨hnot, hne⟩ : i' ∉ names ∧ i' ≠ i := by simpa using hi'
    rw [hthreads, Function.update_of_ne hne] at hq
    exact h.aside i' q hq hnot

/-- Where a thread has come to. -/
theorem comes (h : d.Refines site allow names s) (hi : i ∉ names) {p : Handling HttpBody}
    (hthreads : d'.backend.threads = Function.update d.backend.threads i (some p))
    (hp : Comes (site.Asked allow i) p) (hw : d'.world.Shows s.pool.world) :
    d'.Follows site allow names s := by
  rcases hp with hp | ⟨c, hc, rfl⟩
  · exact follows .refl (h.other hi hthreads hp hw)
  · exact ⟨_, _, .single ⟨.start c, ⟨i, hc⟩, rfl⟩, List.prefix_append _ _,
      h.start hi hthreads (.inr hc) hw⟩

/-- A thread that has come to its command goes on with it. -/
theorem advance (h : d.Refines site allow names s) (hi : i ∈ names) {e : Env}
    {b : Named calling HttpFailure HttpBody Env Backend} (hclock : d.backend.world.clock ≤ e.now)
    (hb : d.backend.advance Backend.handle i e = some b) :
    ∃ j s', s.step (.step j e) = some s' ∧ (d.route i b).Refines site allow names s' := by
  obtain ⟨j, hj⟩ := List.mem_iff_getElem?.mp hi
  obtain ⟨p, hp, -⟩ := h.threads.exists_thread hj
  have hcheck := h.noCheck p (List.mem_of_getElem? hp)
  have hanswer : ∀ (op : Op) k, s.pool.threads[j]? = some (.call op k) → services.answer op
      (Backend.handle e (services.op op) d.backend.world).1 = (handle e op s.pool.world).1 := by
    intro op k hk
    cases hp.symm.trans hk
    rw [(h.world.handle hcheck.1).1]
    change ((handle e op d.world).1.mapError HttpFailure.failed).mapError HttpFailure.failure = _
    cases (handle e op d.world).1 <;> rfl
  obtain ⟨op, k, pool, hk, hpool, hw, hw', hthreads⟩ := h.threads.advance hj hanswer hb
  cases hp.symm.trans hk
  have hshows := (h.world.handle (e := e) hcheck.1).2
  refine ⟨j, { s with pool }, ?_, ?_⟩
  · refine Operations.step_step.mpr ⟨?_, pool, hpool, rfl⟩
    exact (h.world.clock.trans (le_max_left _ _)).trans hclock
  refine ⟨?_, hthreads.of_threads rfl rfl, ?_, h.asked, ?_, ?_⟩
  · change b.world.world.Shows pool.world
    rw [hw, hw']
    exact hshows
  · obtain ⟨-, -, -, rfl⟩ := Pool.advance_eq_some hpool
    exact h.commands.trans List.length_set.symm
  · exact Pool.forall_advance h.noCheck (fun op k hc r => hc.2 r) hpool
  · intro i' q hq hi'
    obtain ⟨op', k', -, rfl⟩ := Named.advance_eq_some hb
    refine h.aside i' q ?_ hi'
    have hne : i' ≠ i := by
      rintro rfl
      exact hi' hi
    exact (Function.update_of_ne hne _ _).symm.trans hq

/-- A thread aside goes on, and may come to its command. -/
theorem advance_aside (h : d.Refines site allow names s) (hi : i ∉ names) {e : Env}
    {b : Named calling HttpFailure HttpBody Env Backend} (hclock : d.backend.world.clock ≤ e.now)
    (hb : d.backend.advance Backend.handle i e = some b) :
    (d.route i b).Follows site allow names s := by
  obtain ⟨op, k, hk, rfl⟩ := Named.advance_eq_some hb
  obtain ⟨hop, hnext⟩ := h.aside i _ hk hi
  refine h.comes hi rfl (hnext _) ?_
  exact h.world.aside hop ((le_max_left _ _).trans hclock)

/-- The process of a thread dies. -/
theorem halt (h : d.Refines site allow names s)
    {b : Named calling HttpFailure HttpBody Env Backend}
    (hb : d.backend.halt i (.failed .stopped) = some b) :
    ∃ s', (s' = s ∨ ∃ j, s.step (.stop j) = some s') ∧
      Refines site allow names { d with backend := b } s' := by
  by_cases hi : i ∈ names
  · obtain ⟨j, hj⟩ := List.mem_iff_getElem?.mp hi
    have hstopped : d.backend.halt i (services.error .stopped) = some b := hb
    obtain ⟨hsome, hthreads⟩ := h.threads.halt hj hstopped
    refine ⟨_, .inr ⟨j, Operations.step_stop.mpr ⟨hsome, rfl⟩⟩, ?_⟩
    obtain ⟨-, rfl⟩ := Named.halt_eq_some hb
    refine ⟨h.world, hthreads, ?_, h.asked, ?_, ?_⟩
    · exact h.commands.trans List.length_set.symm
    · exact Pool.forall_halt h.noCheck trivial
    · intro i' q hq hi'
      refine h.aside i' q ?_ hi'
      have hne : i' ≠ i := by
        rintro rfl
        exact hi' hi
      exact (Function.update_of_ne hne _ _).symm.trans hq
  · obtain ⟨-, rfl⟩ := Named.halt_eq_some hb
    exact ⟨s, .inl rfl, h.other hi rfl trivial h.world⟩

/-- Every move of the deployment is a move of the operations or none. -/
theorem step (h : d.Refines site allow names s) {m : SiteMove} (hm : allow m)
    (hs : site.step d m = some d') :
    d'.Follows site allow names s := by
  cases Site.step_eq_some.mp hs with
  | @request i request b hb =>
    obtain ⟨hnone, rfl⟩ := Named.spawn_eq_some hb
    refine h.comes (h.notMem_of_none hnone) rfl ?_ h.world
    exact (comes_handleRequest site request).imp
      (fun hp => hp.mono fun c hc => ⟨request, hm, hc⟩)
      fun ⟨c, hc, hp⟩ => ⟨c, ⟨request, hm, hc⟩, hp⟩
  | @deliver i n message b hready hb =>
    obtain ⟨hnone, rfl⟩ := Named.spawn_eq_some hb
    obtain ⟨hshows, hsame, htag⟩ := h.world.handOut n message
    refine ⟨_, _, .single ⟨.deliver n, ⟨i, hm⟩, ?_⟩, List.prefix_append _ _,
      h.start (h.notMem_of_none hnone) rfl (.inl trivial) hshows⟩
    refine Option.map_eq_some_iff.mpr ⟨message, hsame.symm ▸ hready, ?_⟩
    rw [← htag]
    rfl
  | @step i e b hclock hb =>
    by_cases hi : i ∈ names
    · obtain ⟨j, s', hs', h'⟩ := h.advance hi hclock hb
      exact follows (.single ⟨.step j e, ⟨i, hm⟩, hs'⟩) h'
    · exact h.advance_aside hi hclock hb
  | @stop i b hb =>
    obtain ⟨s', rfl | ⟨j, hs'⟩, h'⟩ := h.halt hb
    · exact follows .refl h'
    · exact follows (.single ⟨.stop j, ⟨i, hm⟩, hs'⟩) h'
  | @redeliver tag w hw =>
    obtain ⟨w', hw', hshows⟩ := h.world.redeliver hw
    refine follows (.single ⟨.redeliver tag, hm, ?_⟩) (h.withWorld rfl hshows)
    exact Option.map_eq_some_iff.mpr ⟨w', hw', rfl⟩
  | @expire key now w hw =>
    obtain ⟨w', hw', hshows⟩ := h.world.expire hw
    refine follows (.single ⟨.expire key now, hm, ?_⟩) (h.withWorld rfl hshows)
    exact Option.map_eq_some_iff.mpr ⟨w', hw', rfl⟩
  | broadcast | settle | recover | socket => exact follows .refl (h.withWorld rfl h.world)

end Refines

/-- The operations simulate the deployment, and a thread that has come to its command keeps its
place. -/
theorem simulates (site : Site) (allow : SiteMove → Prop) (names₀ : List ℕ) :
    Simulates site.step (fun _ => allow) Operations.step (site.Admits allow)
      fun d s => ∃ names, names₀ <+: names ∧ d.Refines site allow names s := by
  rintro d m d' s ⟨names, hnames, h⟩ hm hs
  obtain ⟨names', s', hs', hnames', h'⟩ := h.step hm hs
  exact ⟨s', hs', names', hnames.trans hnames', h'⟩

/-- A request that was answered with what a command resolved with. -/
theorem Refines.outcome {site : Site} {allow : SiteMove → Prop} {names : List ℕ} {d : Deployment}
    {s : Operations} (h : d.Refines site allow names s) {i : ℕ} {response : Response}
    (hi : d.backend.outcome i = some (.ok (.response response))) :
    ∃ (j : ℕ) (c : Command), names[j]? = some i ∧ s.commands[j]? = some c ∧
      (c.Consumes ∨ site.Asked allow i c) ∧ s.pool.outcome j = some (.ok response) := by
  have hret := Named.outcome_eq_some.mp hi
  by_cases hmem : i ∈ names
  · obtain ⟨j, hj⟩ := List.mem_iff_getElem?.mp hmem
    obtain ⟨p, hp, hlift⟩ := h.threads.exists_thread hj
    have hlt : j < s.commands.length := by
      rw [h.commands, ← h.threads.length]
      exact (List.getElem?_eq_some_iff.mp hj).1
    refine ⟨j, s.commands[j], hj, List.getElem?_eq_getElem hlt, ?_, ?_⟩
    · exact h.asked j i _ hj (List.getElem?_eq_getElem hlt)
    cases p with
    | ret a =>
      cases hlift.symm.trans hret
      rw [Pool.outcome, hp]
    | throw err => cases hlift.symm.trans hret
    | call op k => cases hlift.symm.trans hret
  · exact absurd rfl (h.aside i _ hret hmem response)

end Deployment

open Deployment

/-- Every run of the deployment is, for the rows, the locks and the queue of jobs, a run of the
operations. Its commands are those that requests with a valid token asked for, its executions run on
messages, and a request that was answered with what a command resolved with is one that asked for
this command. -/
theorem deployment_refines_operations {site : Site} {ms : List SiteMove} {d : Deployment}
    (h : ms.foldlM site.step .init = some d) :
    ∃ s names, Reachable Operations.step (site.Admits (· ∈ ms)) (.init .empty) s ∧
      d.Refines site (· ∈ ms) names s ∧
      ∀ i response, d.backend.outcome i = some (.ok (.response response)) →
        ∃ (j : ℕ) (c : Command), names[j]? = some i ∧ s.commands[j]? = some c ∧
          (c.Consumes ∨ site.Asked (· ∈ ms) i c) ∧ s.pool.outcome j = some (.ok response) := by
  have hrun : Reachable site.step (fun _ => (· ∈ ms)) .init d :=
    reachable_of_foldlM (fun _ _ hm => hm) h
  obtain ⟨s, hs, names, -, hrefines⟩ :=
    (simulates site (· ∈ ms) []).reachable ⟨[], List.prefix_refl _, .init⟩ hrun
  exact ⟨s, names, hs, hrefines, fun i response hi => hrefines.outcome hi⟩

/-- The thread that a move starts. -/
def SiteMove.starts : SiteMove → Option ℕ
  | request i _ | deliver i _ => some i
  | _ => none

/-- There are no other threads than those that were started. -/
theorem Deployment.awaited_eq_none {site : Site} {ms : List SiteMove} {d : Deployment} {i : ℕ}
    (h : ms.foldlM site.step .init = some d) (hi : i ∉ ms.filterMap SiteMove.starts) :
    d.backend.awaited i = none := by
  have hnot : ∀ m ∈ ms, m.starts ≠ some i := fun m hm hstarts =>
    hi (List.mem_filterMap.mpr ⟨m, hm, hstarts⟩)
  have hnone : d.backend.threads i = none := by
    refine foldlM_invariant_of_forall (P := fun m : SiteMove => m.starts ≠ some i)
      (I := fun d => d.backend.threads i = none) (fun d m d' hm hd hstep => ?_) hnot rfl h
    cases Site.step_eq_some.mp hstep with
    | request hb =>
      obtain ⟨-, rfl⟩ := Named.spawn_eq_some hb
      exact (Function.update_of_ne (fun heq => hm (congrArg some heq.symm)) _ _).trans hd
    | deliver _ hb =>
      obtain ⟨-, rfl⟩ := Named.spawn_eq_some hb
      exact (Function.update_of_ne (fun heq => hm (congrArg some heq.symm)) _ _).trans hd
    | @step j e b _ hb =>
      obtain ⟨op, k, hk, rfl⟩ := Named.advance_eq_some hb
      have hne : i ≠ j := by
        rintro rfl
        cases hd.symm.trans hk
      exact (Function.update_of_ne hne _ _).trans hd
    | @stop j b hb =>
      obtain ⟨⟨op, hop⟩, rfl⟩ := Named.halt_eq_some hb
      obtain ⟨k, hk⟩ := Named.awaited_eq_some.mp hop
      have hne : i ≠ j := by
        rintro rfl
        cases hd.symm.trans hk
      exact (Function.update_of_ne hne _ _).trans hd
    | redeliver | expire | broadcast | settle | recover | socket => exact hd
  rw [Named.awaited, hnone]

/-- Thread `i` is answered its next `n` calls, from time `t` on, one each millisecond. The ids
generated are the times. -/
def answers (i n t : ℕ) : List SiteMove :=
  (List.range n).map fun k => .step i ⟨t + k, t + k, .resolves⟩

/-- A request of an operator. -/
def operatorRequest (method path : String) : Request :=
  ⟨⟨.text "ops-local-token", .text "Alice"⟩, some "10.0.0.1", method, some path, path⟩

/-- An operator creates a job : two calls of the rate limiter, and those of the command. -/
def creating : List SiteMove :=
  .request 0 (.api (.createJob ⟨"ingest", "batch", [], none, none⟩
    ⟨by decide, by decide, by simp, by simp⟩) (operatorRequest "POST" "/api/v1/jobs")) ::
    answers 0 9 1

/-- The job is there, and the command was run for the operator whom the request names. -/
theorem deployment_refines_operations_created : ∃ d s names,
    creating.foldlM defaultSite.step .init = some d ∧
      Reachable Operations.step (defaultSite.Admits (· ∈ creating)) (.init .empty) s ∧
      d.Refines defaultSite (· ∈ creating) names s ∧
      s.pool.world.jobs.rows.map (fun job => (job.id, job.name)) = [(3, "ingest")] ∧
      s.pool.world.operatorActions.rows.map (·.operatorId) = ["alice"] := by
  obtain ⟨d, hd⟩ := Option.isSome_iff_exists.mp
    (by decide : (creating.foldlM defaultSite.step .init).isSome)
  have hrows : ∀ d ∈ creating.foldlM defaultSite.step .init,
      d.world.jobs.rows.map (fun job => (job.id, job.name)) = [(3, "ingest")] ∧
        d.world.operatorActions.rows.map (·.operatorId) = ["alice"] := by decide
  obtain ⟨s, names, hs, hrefines, -⟩ := deployment_refines_operations hd
  obtain ⟨events, clock, hworld⟩ := hrefines.world.same.exists
  refine ⟨d, s, names, hd, hs, hrefines, ?_⟩
  rw [hworld]
  exact hrows d hd

end RealtimeOps
