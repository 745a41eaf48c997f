import Mathlib.Algebra.Ring.Nat
import RealtimeOps.EventRelay
import RealtimeOps.Interleaving.Credit
import RealtimeOps.JobView
import RealtimeOps.Refinement

/-!
# Coming to rest

Nothing in the deployment runs for ever. A call costs one move, and what it leaves to be done later
: an event is still to be broadcast and settled, a lock to run out, a message to be handed out and
executed. Counted so, every command and every execution has a bounded cost (`HttpRequest.work`,
`executionWork`), and each move of a run in which nothing new arrives and nothing comes back takes
something off what is left to do.

A run that cannot go on has come to rest : every request is answered, the queues are empty and all
locks are gone (`AtRest.stuck` and its converse `atRest_of_stuck`). A delivery that is not settled
then was handed to a thread whose process has died (`Deployment.Held`).
-/

set_option autoImplicit false

namespace RealtimeOps

open Interleaving

/-! ## Costs -/

/-- The moves that a message brings about : it is handed out, and executed. -/
def executionWork : ℕ :=
  35

/-- The moves that a call brings about. -/
def Op.cost : Op → ℕ
  | sendToQueue _ => 2 + executionWork
  | publish _ _ => 3
  | setNX _ _ => 2
  | _ => 1

/-- What a call of a handler or an execution costs. -/
def SiteOp.cost : SiteOp → ℕ
  | service op => op.cost
  | _ => 1

theorem Op.one_le_cost (op : Op) : 1 ≤ op.cost := by
  cases op <;> exact Nat.le_of_ble_eq_true rfl

theorem SiteOp.one_le_cost (op : SiteOp) : 1 ≤ op.cost := by
  cases op with
  | service op => exact op.one_le_cost
  | _ => exact le_rfl

section Costs

open JobProcessorService

variable (job : JobEntity) (attempt : ProcessingAttemptEntity) (errorMessage : String)

theorem costs_reportFailure (finishedAt : Date) (alert : AlertEntity)
    (incident : Option IncidentEntity) :
    (reportFailure job attempt errorMessage finishedAt alert incident).Costs Op.cost 16 := by
  unfold reportFailure
  refine .await_bind rfl fun _ => .await_bind rfl fun _ => .await_bind rfl fun _ => ?_
  cases incident with
  | none => exact .await_bind rfl fun _ => .await_bind rfl fun _ => .await rfl
  | some incident =>
    refine .await_bind rfl fun _ => .await_bind rfl fun _ => .await_bind rfl fun _ => ?_
    exact .await_bind rfl fun _ => .await rfl

theorem costs_markFailed : (markFailed job attempt errorMessage).Costs Op.cost 21 := by
  refine .await_bind rfl fun _ => .await_bind rfl fun _ => .await_bind rfl fun _ => ?_
  refine .await_bind rfl fun _ => ?_
  split_ifs
  · exact .await_bind rfl fun _ => (costs_reportFailure _ _ _ _ _ _).of_ble rfl
  · exact (costs_reportFailure _ _ _ _ _ _).of_ble rfl

theorem costs_markCompleted : (markCompleted job attempt).Costs Op.cost 11 := by
  refine .await_bind rfl fun _ => .await_bind rfl fun _ => .await_bind rfl fun _ => ?_
  exact .await_bind rfl fun _ => .await_bind rfl fun _ => .await_bind rfl fun _ => .await rfl

theorem costs_processJob (input : ProcessJobInput) : (processJob input job).Costs Op.cost 29 := by
  refine .await_bind rfl fun _ => .await_bind rfl fun _ => .await_bind rfl fun _ => ?_
  refine .await_bind rfl fun _ => .await_bind rfl fun _ => .await_bind rfl fun _ => ?_
  split
  · exact (costs_markFailed _ _ _).of_ble rfl
  · exact (costs_markCompleted _ _).of_ble rfl

theorem costs_process (input : ProcessJobInput) : (process input).Costs Op.cost 33 := by
  refine .await_bind rfl fun acquired => ?_
  cases acquired with
  | false => trivial
  | true =>
    have hfin : (RedisLockService.releaseLock (lockKey input.jobId)).Costs Op.cost 1 := .await rfl
    refine Prog.Affords.tryFinally hfin (n := 30) (Prog.Costs.await_bind rfl fun found => ?_)
    cases found with
    | none => trivial
    | some job => exact costs_processJob job input

theorem costs_consumeCallback (delivery : Delivery) :
    (RabbitMqService.consumeCallback JobProcessingConsumer.onMessage delivery).Costs Op.cost
      executionWork := by
  have hnack : ∀ _ : Failure, (await (.nack delivery.tag)).Costs Op.cost 1 := fun _ => .await rfl
  have hack : ∀ _ : Unit, (await (.ack delivery.tag)).Costs Op.cost 1 := fun _ => .await rfl
  refine Prog.Affords.tryCatch hnack (n := 34) ?_
  obtain ⟨tag, ⟨content⟩⟩ := delivery
  cases content with
  | none => trivial
  | some payload =>
    refine Prog.Affords.bind hack (n := 33) ?_
    unfold JobProcessingConsumer.onMessage
    split
    · trivial
    · exact costs_process _

theorem costs_create (input : CreateJobInput) : (JobService.create input).Costs Op.cost 47 := by
  refine .await_bind rfl fun _ => .await_bind rfl fun _ => .await_bind rfl fun _ => ?_
  refine .await_bind rfl fun _ => .await_bind rfl fun _ => .await_bind rfl fun _ => ?_
  exact .await_bind rfl fun _ => trivial

theorem costs_retry (jobId : Uuid) (operatorId : String) :
    (JobService.retry jobId operatorId).Costs Op.cost 48 := by
  unfold JobService.retry
  rw [Prog.bind_eq, JobService.getById_bind]
  refine .await_bind rfl fun found => ?_
  cases found with
  | none => trivial
  | some job =>
    dsimp only
    split_ifs
    · trivial
    · trivial
    · refine .await_bind rfl fun _ => .await_bind rfl fun _ => .await_bind rfl fun _ => ?_
      refine .await_bind rfl fun _ => .await_bind rfl fun _ => .await_bind rfl fun _ => ?_
      exact .await_bind rfl fun _ => trivial

theorem costs_getStatus (jobId : Uuid) : (JobService.getStatus jobId).Costs Op.cost 2 := by
  unfold JobService.getStatus
  rw [Prog.bind_eq, JobService.getById_bind]
  refine .await_bind rfl fun found => ?_
  cases found with
  | none => trivial
  | some job => exact .await_bind rfl fun _ => trivial

theorem costs_announce (input : CreateAlertInput) (alert : AlertEntity)
    (incident : Option IncidentEntity) :
    (AlertService.announce input alert incident).Costs Op.cost 8 := by
  refine .await_bind rfl fun _ => .await_bind rfl fun _ => ?_
  cases incident with
  | none => exact .await_bind rfl fun _ => trivial
  | some incident => exact .await_bind rfl fun _ => .await_bind rfl fun _ => trivial

theorem costs_createAlert (input : CreateAlertInput) :
    (AlertService.create input).Costs Op.cost 10 := by
  unfold AlertService.create
  refine .await_bind rfl fun _ => ?_
  split_ifs
  · exact .await_bind rfl fun _ => costs_announce _ _ _
  · exact (costs_announce _ _ _).of_ble rfl

theorem costs_acknowledgeAlert (alertId : Uuid) (operatorId : String) :
    (AlertService.acknowledge alertId operatorId).Costs Op.cost 7 := by
  unfold AlertService.acknowledge
  rw [Prog.bind_eq, AlertService.getById_bind]
  refine .await_bind rfl fun found => ?_
  cases found with
  | none => trivial
  | some alert =>
    dsimp only
    split_ifs
    · trivial
    · refine .await_bind rfl fun _ => .await_bind rfl fun _ => .await_bind rfl fun _ => ?_
      exact .await_bind rfl fun _ => trivial

theorem costs_propagate (incident updated : IncidentEntity) (operatorId : String)
    (changes : Date → AlertUpdate) (action auditAction : String) (metadata payload : Record) :
    (IncidentService.propagate incident updated operatorId changes action auditAction metadata
      payload).Costs Op.cost 7 := by
  unfold IncidentService.propagate
  cases incident.alertId with
  | none =>
    exact .await_bind rfl fun _ => .await_bind rfl fun _ => .await_bind rfl fun _ => trivial
  | some alertId =>
    refine .await_bind rfl fun _ => .await_bind rfl fun _ => .await_bind rfl fun _ => ?_
    exact .await_bind rfl fun _ => .await_bind rfl fun _ => trivial

theorem costs_acknowledge (incidentId : Uuid) (operatorId : String) :
    (IncidentService.acknowledge incidentId operatorId).Costs Op.cost 10 := by
  unfold IncidentService.acknowledge
  rw [Prog.bind_eq, IncidentService.getIncident_bind]
  refine .await_bind rfl fun found => ?_
  cases found with
  | none => trivial
  | some incident =>
    dsimp only
    split_ifs
    · trivial
    · exact .await_bind rfl fun _ => .await_bind rfl fun _ => costs_propagate _ _ _ _ _ _ _ _

theorem costs_settle (incident : IncidentEntity) (operatorId : String) :
    (IncidentService.settle incident operatorId).Costs Op.cost 9 :=
  .await_bind rfl fun _ => .await_bind rfl fun _ => costs_propagate _ _ _ _ _ _ _ _

theorem costs_resolve (incidentId : Uuid) (operatorId : String) :
    (IncidentService.resolve incidentId operatorId).Costs Op.cost 11 := by
  unfold IncidentService.resolve
  rw [Prog.bind_eq, IncidentService.getIncident_bind]
  refine .await_bind rfl fun found => ?_
  cases found with
  | none => trivial
  | some incident =>
    dsimp only
    split_ifs
    · trivial
    · exact .await_bind rfl fun _ => costs_settle _ _
    · exact (costs_settle _ _).of_ble rfl

end Costs

/-- Every command is done after so many moves. -/
theorem Command.costs (c : Command) : c.prog.Costs Op.cost 48 := by
  cases c with
  | job call =>
    refine Prog.Affords.map ?_ Response.job
    cases call with
    | create input => exact ((costs_create input).of_ble rfl).map _
    | retry jobId operatorId => exact (costs_retry jobId operatorId).map _
    | getStatus jobId => exact ((costs_getStatus jobId).of_ble rfl).map _
    | process input => exact ((costs_process input).of_ble rfl).map _
    | consume delivery => exact ((costs_consumeCallback delivery).of_ble rfl).map _
  | createAlert input => exact ((costs_createAlert input).of_ble rfl).map _
  | acknowledgeAlert alertId operatorId =>
    exact ((costs_acknowledgeAlert alertId operatorId).of_ble rfl).map _
  | acknowledge incidentId operatorId =>
    exact ((costs_acknowledge incidentId operatorId).of_ble rfl).map _
  | resolve incidentId operatorId => exact ((costs_resolve incidentId operatorId).of_ble rfl).map _

/-! ## Requests -/

theorem costs_verdict (guard : RedisRateLimitGuard) (count : ℕ) :
    (guard.verdict count).Costs (fun _ => 1) 0 := by
  unfold RedisRateLimitGuard.verdict
  split_ifs <;> trivial

theorem costs_canActivate (guard : RedisRateLimitGuard) (context : ExecutionContext) :
    (guard.canActivate context).Costs (fun _ => 1) 2 := by
  rw [RedisRateLimitGuard.canActivate_eq]
  split_ifs
  · trivial
  · refine .await_bind rfl fun count => ?_
    unfold RedisRateLimitGuard.counted
    split_ifs
    · exact .await_bind rfl fun _ => costs_verdict guard count
    · exact (costs_verdict guard count).of_ble rfl

theorem Command.costs_handling {c : Command} {n : ℕ} (h : c.prog.Costs Op.cost n) :
    c.handling.Costs SiteOp.cost n :=
  Prog.Affords.map (Prog.Affords.embed (fun _ _ => ⟨_, rfl⟩) h) _

/-- The moves that a handler brings about. -/
def ApiRoute.work : ApiRoute → ℕ
  | read queries => queries
  | _ => 48

theorem ApiRoute.costs_reads : ∀ n, (ApiRoute.reads n).Costs SiteOp.cost n
  | 0 => trivial
  | n + 1 => Prog.Affords.await_bind le_rfl fun _ => costs_reads n

theorem costs_getHealth : HealthService.getHealth.Costs SiteOp.cost 6 := by
  have hdown : ∀ _ : HttpFailure, (Prog.ret false : Handling Bool).Costs SiteOp.cost 0 :=
    fun _ => trivial
  have hdatabase : HealthService.checkDatabase.Costs SiteOp.cost 1 :=
    Prog.Affords.tryCatch hdown (n := 1) (Prog.Costs.await_bind rfl fun _ => trivial)
  have hredis : HealthService.checkRedis.Costs SiteOp.cost 1 :=
    Prog.Affords.tryCatch hdown (n := 1) (Prog.Costs.await_bind rfl fun _ => trivial)
  have hrabbit : HealthService.checkRabbit.Costs SiteOp.cost 3 :=
    Prog.Affords.tryCatch hdown (n := 3) (Prog.Costs.await_bind rfl fun _ => trivial)
  have hnow : ∀ f : Date → HealthReport,
      (((await .now).embed services).bind fun t => .ret (f t)).Costs SiteOp.cost 1 := fun f =>
    Prog.Costs.await_bind rfl fun _ => trivial
  refine Prog.Affords.bind (m := 5) (fun _ => ?_) hdatabase
  refine Prog.Affords.bind (m := 4) (fun _ => ?_) hredis
  exact Prog.Affords.bind (m := 1) (fun _ => hnow _) hrabbit

theorem ApiRoute.costs_handler (route : ApiRoute) (operatorId : String) :
    (route.handler operatorId).Costs SiteOp.cost route.work := by
  cases route with
  | getHealth => exact Prog.Costs.of_ble (Prog.Affords.map costs_getHealth _) rfl
  | read queries => exact costs_reads queries
  | refused message => trivial
  | createJob | retryJob | getJobStatus | createAlert | acknowledgeIncident | resolveIncident =>
    exact Command.costs_handling (Command.costs _)

/-- The moves that a request brings about, with those of the rate limiter. -/
def HttpRequest.work : HttpRequest → ℕ
  | api route _ => 2 + route.work
  | realtimeHealth _ => 1
  | unrouted _ => 0

theorem Site.costs_authenticate (expectedToken : String) (context : ExecutionContext) :
    (Site.authenticate expectedToken context).Costs SiteOp.cost 0 :=
  Prog.Affords.resolve _ 0

theorem Site.costs_handleRequest (site : Site) (request : HttpRequest) :
    (site.handleRequest request).Costs SiteOp.cost request.work := by
  cases request with
  | api route request =>
    have hguard : ((site.limiter.canActivate ⟨route.isPublic, request⟩).embed limiting).Costs
        SiteOp.cost 2 := Prog.Affords.embed (fun _ err => ⟨err, rfl⟩) (costs_canActivate _ _)
    refine (Prog.Affords.bind (m := 2 + route.work) (fun operatorId => ?_)
      (costs_authenticate _ _)).mono (Nat.zero_add _).le
    exact Prog.Affords.bind (fun _ => route.costs_handler _) hguard
  | realtimeHealth request =>
    refine Prog.Affords.bind (m := 1) (fun _ => ?_) (costs_authenticate _ _)
    exact Prog.Costs.await_bind rfl fun _ => trivial
  | unrouted request => trivial

/-! ## What is left to do -/

/-- The moves that the world still asks for, and two for every event there was. -/
def World.tasks (w : World) : ℕ :=
  (1 + executionWork) * w.ready.length + 2 * w.events.length + w.locks.rows.length

/-- Only Redis adds a lock. -/
theorem perform_locks_length {e : Env} {w w' : World} {op : Op} {reply : op.Reply}
    (h : perform e w op = some (reply, w')) :
    w'.locks.rows.length ≤ w.locks.rows.length + if op matches .setNX _ _ then 1 else 0 := by
  cases op with
  | setNX key ttlSeconds =>
    simp only [perform] at h
    split at h
    · rename_i t ht
      cases h
      rw [(Table.insert_eq_some ht).1, List.length_append]
      exact le_rfl
    · cases h
      exact Nat.le_succ _
  | del key =>
    cases h
    exact List.length_filter_le _ _
  | _ => exact (congrArg (·.rows.length) (perform_locks rfl h)).le

theorem perform_tasks {e : Env} {w w' : World} {op : Op} {reply : op.Reply}
    (h : perform e w op = some (reply, w')) : w'.tasks + 1 ≤ w.tasks + op.cost := by
  have hready := congrArg List.length (perform_queue h).1
  have hevents := congrArg List.length (perform_events h)
  have hlocks := perform_locks_length h
  rw [List.length_append] at hready hevents
  unfold World.tasks
  rw [hready, hevents]
  cases op <;> simp [Op.sends, Op.event, Op.cost, executionWork] at * <;> omega

theorem Backend.handle_tasks (e : Env) (op : SiteOp) (b : Backend) :
    (Backend.handle e op b).2.world.tasks + 1 ≤ b.world.tasks + op.cost := by
  cases op with
  | service op =>
    change (RealtimeOps.handle e op b.world).2.tasks + 1 ≤ b.world.tasks + op.cost
    rcases handle_world e op b.world with h | ⟨reply, hp⟩
    · rw [h]
      exact Nat.add_le_add_left op.one_le_cost _
    · exact perform_tasks (w := { b.world with clock := e.now }) hp
  | counter | select | ping => exact le_rfl

namespace Deployment

variable {site : Site} {s s' : Deployment} {n : ℕ}

/-- The moves that the queues and the locks still ask for. -/
def load (s : Deployment) : ℕ :=
  (1 + executionWork) * s.world.ready.length + 2 * s.queue.waiting.length +
    s.queue.unsettled.length + s.world.locks.rows.length

theorem load_route {i : ℕ} {op : SiteOp} {e : Env}
    {b : Named calling HttpFailure HttpBody Env Backend}
    (hb : b.world = (Backend.handle e op s.backend.world).2) :
    (s.route i b).load + 1 ≤ s.load + op.cost := by
  obtain ⟨events, hevents⟩ := events_handle e op s.backend.world
  have htasks := Backend.handle_tasks e op s.backend.world
  rw [← hb] at hevents htasks
  rw [route_eq hevents]
  unfold World.tasks at htasks
  simp only [load, EventQueue.push, world, List.length_append, List.length_map, hevents]
    at htasks ⊢
  omega

end Deployment

/-! ## Moves -/

/-- Nothing arrives, and nothing comes back. -/
def SiteMove.Quiet : SiteMove → Prop
  | deliver _ _ | step _ _ | stop _ | expire _ _ | broadcast _ | settle => True
  | request _ _ | redeliver _ | recover | socket _ => False

instance : DecidablePred SiteMove.Quiet
  | .deliver _ _ | .step _ _ | .stop _ | .expire _ _ | .broadcast _ | .settle => .isTrue trivial
  | .request _ _ | .redeliver _ | .recover | .socket _ => .isFalse id

/-- The moves that the new thread brings about. -/
def SiteMove.work : SiteMove → ℕ
  | request _ arrived => arrived.work
  | deliver _ _ => executionWork
  | _ => 0

namespace Deployment

variable {site : Site} {s s' : Deployment} {n : ℕ} {m : SiteMove}

/-- What is left for the threads to do. -/
abbrev Owes (s : Deployment) (n : ℕ) : Prop :=
  s.backend.Affords (fun _ => 0) SiteOp.cost n

theorem Owes.step (h : s.Owes n) (hs : site.step s m = some s') :
    ∃ n', s'.Owes n' ∧ n' ≤ n + m.work ∧ (m.Quiet → n' + s'.load + 1 ≤ n + s.load) := by
  cases Site.step_eq_some.mp hs with
  | @request i request b hb =>
    exact ⟨_, h.spawn (site.costs_handleRequest request) hb, le_rfl, fun hm => hm.elim⟩
  | @deliver i k message b hready hb =>
    have hcost : (Command.job (.consume ⟨s.world.nextTag, message⟩)).prog.Costs Op.cost
        executionWork :=
      ((costs_consumeCallback _).map _).map _
    have hleft : (s.withWorld (handOut k ⟨s.world.nextTag, message⟩ s.world)).Owes n :=
      Named.Affords.of_threads h rfl
    refine ⟨_, hleft.spawn (Command.costs_handling hcost) hb, le_rfl, fun _ => ?_⟩
    obtain ⟨-, rfl⟩ := Named.spawn_eq_some hb
    have hlength := List.length_eraseIdx_add_one (List.getElem?_eq_some_iff.mp hready).1
    simp only [load, world, withWorld, handOut] at hlength ⊢
    rw [← hlength, Nat.mul_add_one]
    omega
  | @step i e b hclock hb =>
    obtain ⟨op, l, -, hworld, hl, hafter⟩ := h.advance hb
    rw [ite_self, Nat.add_zero] at hafter
    have hload := load_route (i := i) hworld
    exact ⟨l, hafter, by omega, fun _ => by omega⟩
  | @stop i b hb =>
    obtain ⟨op, l, -, hl, hafter⟩ := h.halt hb
    obtain ⟨-, rfl⟩ := Named.halt_eq_some hb
    have hcost := op.one_le_cost
    refine ⟨l, hafter, by omega, fun _ => ?_⟩
    change l + s.load + 1 ≤ n + s.load
    omega
  | redeliver hw => exact ⟨n, h, le_rfl, fun hm => hm.elim⟩
  | @expire key now w hw =>
    refine ⟨n, h, le_rfl, fun _ => ?_⟩
    obtain ⟨lock, hlock, -, rfl⟩ := expire_eq_some.mp hw
    have hlength : (s.world.locks.erase key).rows.length < s.world.locks.rows.length :=
      List.length_filter_lt_length_iff_exists.mpr
        ⟨lock, (Table.lookup_eq_some.mp hlock).1, by simp [(Table.lookup_eq_some.mp hlock).2]⟩
    simp only [load, world, withWorld] at hlength ⊢
    omega
  | @broadcast now x queue hq =>
    obtain ⟨hwaiting, hqueue⟩ := EventQueue.take_eq_some hq
    have hunsettled : queue.unsettled = s.queue.unsettled ++ [x] := by rw [hqueue]
    refine ⟨n, h, le_rfl, fun _ => ?_⟩
    simp only [load, world, hwaiting, hunsettled, List.length_append, List.length_cons,
      List.length_nil]
    omega
  | @settle queue hq =>
    obtain ⟨x, hunsettled, hqueue⟩ := EventQueue.settle_eq_some hq
    have hwaiting : queue.waiting = s.queue.waiting := by rw [hqueue]
    refine ⟨n, h, le_rfl, fun _ => ?_⟩
    simp only [load, world, hwaiting, hunsettled, List.length_cons]
    omega
  | recover => exact ⟨n, h, le_rfl, fun hm => hm.elim⟩
  | socket => exact ⟨n, h, le_rfl, fun hm => hm.elim⟩

end Deployment

/-! ## Deliveries -/

/-- The call settles the delivery with this tag. -/
def SiteOp.Settles (tag : ℕ) (op : SiteOp) : Prop :=
  op = .service (.ack tag) ∨ op = .service (.nack tag)

/-- An execution cannot end without settling its delivery. -/
theorem settles_handling (delivery : Delivery) :
    (Command.job (.consume delivery)).handling.Inevitably (SiteOp.Settles delivery.tag) := by
  refine .bind (.embed (.bind (.bind ?_)))
  have hack : ∀ _ : Unit, (Prog.tryCatch (await (.ack delivery.tag)) fun _ : Failure =>
      await (.nack delivery.tag)).Inevitably fun op : Op =>
        SiteOp.Settles delivery.tag (services.op op) := fun _ => .inl (.inl rfl)
  have hnack : ∀ _ : Failure, (await (.nack delivery.tag)).Inevitably fun op : Op =>
      SiteOp.Settles delivery.tag (services.op op) := fun _ => .inl (.inr rfl)
  unfold RabbitMqService.consumeCallback
  cases delivery.message.content with
  | none => exact hnack .malformed
  | some payload => exact .tryCatch_bind hack hnack _

/-- A call hands out no delivery, and the one it settles is settled. -/
theorem Backend.handle_unacked {e : Env} {op : SiteOp} {b : Backend} {delivery : Delivery}
    (h : delivery ∈ (Backend.handle e op b).2.world.unacked) :
    delivery ∈ b.world.unacked ∧ ¬op.Settles delivery.tag := by
  cases op with
  | service op =>
    refine ⟨?_, ?_⟩
    · rcases handle_world e op b.world with hworld | ⟨reply, hp⟩
      · change delivery ∈ (RealtimeOps.handle e op b.world).2.unacked at h
        rw [hworld] at h
        exact h
      · exact (perform_queue (w := { b.world with clock := e.now }) hp).2 h
    · rintro (hop | hop) <;> cases hop <;> simpa using (List.mem_filter.mp h).2
  | counter | select | ping => exact ⟨h, by rintro (hop | hop) <;> cases hop⟩

namespace Deployment

variable {site : Site} {s s' : Deployment} {m : SiteMove}

/-- The thread is bound to settle the delivery, or its process has died. -/
def Holds (tag : ℕ) (p : Handling HttpBody) : Prop :=
  p.Inevitably (SiteOp.Settles tag) ∨ p = .throw (.failed .stopped)

/-- Each delivery that is not settled is held by a thread it was handed to. -/
def Held (handed : Delivery → ℕ → Prop) (s : Deployment) : Prop :=
  ∀ delivery ∈ s.world.unacked,
    ∃ i, handed delivery i ∧ ∃ p ∈ s.backend.threads i, Holds delivery.tag p

variable {handed : Delivery → ℕ → Prop}

/-- Thread `i` moves, and goes on to hold what it has held. -/
theorem Held.update (h : s.Held handed) {i : ℕ} {p : Handling HttpBody}
    (hs : s'.backend.threads = Function.update s.backend.threads i (some p))
    (hunacked : ∀ delivery ∈ s'.world.unacked, delivery ∈ s.world.unacked ∧
      ∀ q ∈ s.backend.threads i, Holds delivery.tag q → Holds delivery.tag p) :
    s'.Held handed := by
  intro delivery hdelivery
  obtain ⟨hmem, hp⟩ := hunacked delivery hdelivery
  obtain ⟨j, hhanded, q, hq, hholds⟩ := h delivery hmem
  rw [hs]
  by_cases hj : j = i
  · cases hj
    exact ⟨i, hhanded, p, Function.update_self i (some p) s.backend.threads, hp q hq hholds⟩
  · exact ⟨j, hhanded, q, (Function.update_of_ne hj (some p) _).trans hq, hholds⟩

theorem Held.step (h : s.Held handed)
    (hnew : ∀ i n message, m = .deliver i n → s.world.ready[n]? = some message →
      handed ⟨s.world.nextTag, message⟩ i)
    (hs : site.step s m = some s') : s'.Held handed := by
  cases Site.step_eq_some.mp hs with
  | request hb =>
    obtain ⟨hnone, rfl⟩ := Named.spawn_eq_some hb
    exact h.update rfl fun delivery hd => ⟨hd, fun q hq => by cases hnone.symm.trans hq⟩
  | @deliver i n message b hready hb =>
    obtain ⟨hnone, rfl⟩ := Named.spawn_eq_some hb
    intro delivery hd
    rcases List.mem_append.mp hd with hd | hd
    · obtain ⟨j, hhanded, q, hq, hholds⟩ := h delivery hd
      have hj : j ≠ i := by
        rintro rfl
        cases hnone.symm.trans hq
      exact ⟨j, hhanded, q, (Function.update_of_ne hj _ _).trans hq, hholds⟩
    · cases List.mem_singleton.mp hd
      exact ⟨i, hnew i n message rfl hready, _,
        Function.update_self i (some _) s.backend.threads, .inl (settles_handling _)⟩
  | @step i e b hclock hb =>
    obtain ⟨op, k, hk, rfl⟩ := Named.advance_eq_some hb
    refine h.update rfl fun delivery hd => ?_
    obtain ⟨hmem, hop⟩ := Backend.handle_unacked hd
    refine ⟨hmem, fun q hq hholds => ?_⟩
    cases hk.symm.trans hq
    rcases hholds with (hsettles | hrest) | hstopped
    · exact absurd hsettles hop
    · exact .inl (hrest _)
    · cases hstopped
  | stop hb =>
    obtain ⟨-, rfl⟩ := Named.halt_eq_some hb
    exact h.update rfl fun delivery hd => ⟨hd, fun _ _ _ => .inr rfl⟩
  | redeliver hw =>
    obtain ⟨delivery, -, rfl⟩ := Option.map_eq_some_iff.mp hw
    exact fun d hd => h d (List.mem_filter.mp hd).1
  | expire hw =>
    obtain ⟨lock, -, -, rfl⟩ := expire_eq_some.mp hw
    exact h
  | broadcast | settle | recover | socket => exact h

/-- A thread that holds a delivery and awaits nothing was stopped. -/
theorem Holds.stopped {i : ℕ} {p : Handling HttpBody} {tag : ℕ} (h : Holds tag p)
    (hp : s.backend.threads i = some p) (hawaited : s.backend.awaited i = none) :
    s.backend.outcome i = some (.error (.failed .stopped)) := by
  refine Named.outcome_eq_some.mpr ?_
  cases p with
  | call op k =>
    have hcall : s.backend.awaited i = some op := Named.awaited_eq_some.mpr ⟨k, hp⟩
    cases hawaited.symm.trans hcall
  | ret | throw =>
    obtain hsettles | hstopped := h
    · exact hsettles.elim
    · rw [hp, hstopped]
      rfl

/-- Nothing is left to do. -/
structure AtRest (s : Deployment) : Prop where
  answered : ∀ i, s.backend.awaited i = none
  ready : s.world.ready = []
  waiting : s.queue.waiting = []
  unsettled : s.queue.unsettled = []
  locks : s.world.locks.rows = []

/-- At rest no quiet move is possible. -/
theorem AtRest.stuck (h : s.AtRest) (hm : m.Quiet) : site.step s m = none := by
  refine Option.eq_none_iff_forall_ne_some.mpr fun s' hs => ?_
  cases Site.step_eq_some.mp hs with
  | deliver hready =>
    rw [h.ready] at hready
    cases hready
  | @step i e b _ hb =>
    obtain ⟨op, k, hk, -⟩ := Named.advance_eq_some hb
    cases (h.answered i).symm.trans (Named.awaited_eq_some.mpr ⟨k, hk⟩)
  | @stop i b hb =>
    obtain ⟨⟨op, hop⟩, -⟩ := Named.halt_eq_some hb
    cases (h.answered i).symm.trans hop
  | expire hw =>
    obtain ⟨lock, hlock, -, -⟩ := expire_eq_some.mp hw
    have hmem := (Table.lookup_eq_some.mp hlock).1
    rw [h.locks] at hmem
    cases hmem
  | broadcast hq =>
    obtain ⟨hwaiting, -⟩ := EventQueue.take_eq_some hq
    cases h.waiting.symm.trans hwaiting
  | settle hq =>
    obtain ⟨x, hunsettled, -⟩ := EventQueue.settle_eq_some hq
    cases h.unsettled.symm.trans hunsettled
  | request | redeliver | recover | socket => exact hm

/-- A deployment that cannot move on its own is at rest. -/
theorem atRest_of_stuck {n : ℕ} (howes : s.Owes n)
    (hstuck : ∀ m : SiteMove, m.Quiet → site.step s m = none) : s.AtRest := by
  have hanswered : ∀ i, s.backend.awaited i = none := by
    intro i
    by_contra hi
    obtain ⟨op, hop⟩ := Option.ne_none_iff_exists'.mp hi
    obtain ⟨k, hk⟩ := Named.awaited_eq_some.mp hop
    have hstep := hstuck (.step i ⟨s.backend.world.clock, 0, .resolves⟩) trivial
    simp [Site.step, Named.advance, hk] at hstep
  refine ⟨hanswered, ?_, ?_, ?_, ?_⟩
  · by_contra hready
    obtain ⟨message, rest, hready⟩ := List.exists_cons_of_ne_nil hready
    obtain ⟨i, hi⟩ := howes.exists_free
    have hstep := hstuck (.deliver i 0) trivial
    simp [Site.step, deliver, hready, withWorld, Named.spawn, hi] at hstep
  · by_contra hwaiting
    obtain ⟨x, rest, hwaiting⟩ := List.exists_cons_of_ne_nil hwaiting
    have hstep := hstuck (.broadcast 0) trivial
    simp [Site.step, broadcast, EventQueue.take, hwaiting] at hstep
  · by_contra hunsettled
    obtain ⟨x, rest, hunsettled⟩ := List.exists_cons_of_ne_nil hunsettled
    have hstep := hstuck .settle trivial
    simp [Site.step, EventQueue.settle, hunsettled] at hstep
  · by_contra hlocks
    obtain ⟨lock, hlock⟩ := List.exists_mem_of_ne_nil _ hlocks
    have hstep := hstuck (.expire lock.key (max lock.expiresAt s.world.clock)) trivial
    simp [Site.step, expire, Table.lookup_of_mem hlock] at hstep

end Deployment

/-! ## Runs -/

open Deployment

/-- What the threads still have to do was asked for. -/
theorem Deployment.owes_run {site : Site} : ∀ {ms : List SiteMove} {s s' : Deployment} {n : ℕ},
    s.Owes n → ms.foldlM site.step s = some s' →
      ∃ n', s'.Owes n' ∧ n' ≤ n + (ms.map SiteMove.work).sum
  | [], s, s', n, h, hrun => by
    cases hrun
    exact ⟨n, h, le_rfl⟩
  | m :: ms, s, s', n, h, hrun => by
    obtain ⟨s₁, hs₁, hrest⟩ := Option.bind_eq_some_iff.mp (List.foldlM_cons (m := Option) ▸ hrun)
    obtain ⟨n₁, h₁, hn₁, -⟩ := h.step hs₁
    obtain ⟨n', h', hn'⟩ := owes_run h₁ hrest
    refine ⟨n', h', ?_⟩
    rw [List.map_cons, List.sum_cons]
    omega

/-- Each quiet move takes something off what is left to do. -/
theorem Deployment.quiet_run {site : Site} : ∀ {ms : List SiteMove} {s s' : Deployment} {n : ℕ},
    s.Owes n → (∀ m ∈ ms, m.Quiet) → ms.foldlM site.step s = some s' →
      ∃ n', s'.Owes n' ∧ ms.length + (n' + s'.load) ≤ n + s.load
  | [], s, s', n, h, _, hrun => by
    cases hrun
    exact ⟨n, h, (Nat.zero_add _).le⟩
  | m :: ms, s, s', n, h, hquiet, hrun => by
    obtain ⟨s₁, hs₁, hrest⟩ := Option.bind_eq_some_iff.mp (List.foldlM_cons (m := Option) ▸ hrun)
    obtain ⟨n₁, h₁, -, hn₁⟩ := h.step hs₁
    have hless := hn₁ (hquiet m List.mem_cons_self)
    obtain ⟨n', h', hn'⟩ :=
      quiet_run h₁ (fun m hm => hquiet m (List.mem_cons_of_mem _ hm)) hrest
    refine ⟨n', h', ?_⟩
    rw [List.length_cons]
    omega

/-- In the run `ms` the delivery was handed to thread `i`. -/
def Site.HandedTo (site : Site) (ms : List SiteMove) (delivery : Delivery) (i : ℕ) : Prop :=
  ∃ before n after s, ms = before ++ .deliver i n :: after ∧
    before.foldlM site.step .init = some s ∧ s.world.nextTag = delivery.tag ∧
    s.world.ready[n]? = some delivery.message

theorem Deployment.held_run {site : Site} {ms : List SiteMove} (before : List SiteMove) :
    ∀ {after : List SiteMove} {s : Deployment}, ms = before ++ after →
      before.foldlM site.step .init = some s → s.Held (site.HandedTo ms) := by
  induction before using List.reverseRecOn with
  | nil =>
    rintro after s - hrun delivery hdelivery
    cases hrun
    cases hdelivery
  | append_singleton before m ih =>
    intro after s hms hrun
    rw [List.append_assoc, List.singleton_append] at hms
    rw [List.foldlM_append] at hrun
    obtain ⟨s₁, hs₁, hlast⟩ := Option.bind_eq_some_iff.mp hrun
    rw [List.foldlM_cons] at hlast
    obtain ⟨s₂, hs₂, hend⟩ := Option.bind_eq_some_iff.mp hlast
    cases hend
    refine (ih hms hs₁).step ?_ hs₂
    rintro i n message rfl hready
    exact ⟨before, n, after, s₁, hms, hs₁, rfl, hready⟩

/-- Whatever has happened so far, the deployment comes to rest as soon as nothing new arrives and
nothing comes back : a run of other moves cannot be longer than what the requests and deliveries so
far have brought about and the queues and locks still ask for, and where no such move is possible
any more, every request is answered, all queues are empty, no lock is left, and the thread to which
a delivery that is not settled was handed was stopped, as its process has died. -/
theorem comes_to_rest {site : Site} {ms ms' : List SiteMove} {s s' : Deployment}
    (h : ms.foldlM site.step .init = some s) (h' : ms'.foldlM site.step s = some s')
    (hquiet : ∀ m ∈ ms', m.Quiet) :
    ms'.length ≤ (ms.map SiteMove.work).sum + s.load ∧
      ((∀ m : SiteMove, m.Quiet → site.step s' m = none) → s'.AtRest ∧
        ∀ delivery ∈ s'.world.unacked, ∃ i, site.HandedTo (ms ++ ms') delivery i ∧
          s'.backend.outcome i = some (.error (.failed .stopped))) := by
  obtain ⟨n, howes, hn⟩ := owes_run (Named.Affords.init _) h
  obtain ⟨n', howes', hn'⟩ := quiet_run howes hquiet h'
  have hrun : (ms ++ ms').foldlM site.step .init = some s' := by
    rw [List.foldlM_append, h]
    exact h'
  refine ⟨by omega, fun hstuck => ?_⟩
  have hrest := atRest_of_stuck howes' hstuck
  refine ⟨hrest, fun delivery hdelivery => ?_⟩
  obtain ⟨i, hhanded, p, hp, hholds⟩ :=
    held_run (ms ++ ms') (List.append_nil _).symm hrun delivery hdelivery
  exact ⟨i, hhanded, hholds.stopped hp (hrest.answered i)⟩

/-- An operator creates a job, and a worker takes its message. -/
def handing : List SiteMove :=
  creating ++ [.deliver 1 0]

/-- The worker dies, and the events are broadcast. -/
def dying : List SiteMove :=
  [.stop 1, .broadcast 20, .settle, .broadcast 21, .settle]

/-- The message is with the worker that has died, and nothing else is left to do. -/
theorem comes_to_rest_handed : ∃ s s' delivery, handing.foldlM defaultSite.step .init = some s ∧
    dying.foldlM defaultSite.step s = some s' ∧ s'.AtRest ∧ s'.world.unacked = [delivery] ∧
    ∃ i, defaultSite.HandedTo (handing ++ dying) delivery i ∧
      s'.backend.outcome i = some (.error (.failed .stopped)) := by
  obtain ⟨s, hs⟩ := Option.isSome_iff_exists.mp
    (by decide : (handing.foldlM defaultSite.step .init).isSome)
  have hall : ∀ s ∈ handing.foldlM defaultSite.step .init,
      ∃ s' ∈ dying.foldlM defaultSite.step s, s'.world.ready = [] ∧ s'.queue.waiting = [] ∧
        s'.queue.unsettled = [] ∧ s'.world.locks.rows = [] ∧ s'.world.unacked.length = 1 ∧
        s'.backend.awaited 0 = none ∧ s'.backend.awaited 1 = none := by decide
  obtain ⟨s', hs', hready, hwaiting, hunsettled, hlocks, hone, h0, h1⟩ := hall s hs
  have hrun : (handing ++ dying).foldlM defaultSite.step .init = some s' := by
    rw [List.foldlM_append, hs]
    exact hs'
  have hrest : s'.AtRest := by
    refine ⟨fun i => ?_, hready, hwaiting, hunsettled, hlocks⟩
    by_cases hi : i ∈ (handing ++ dying).filterMap SiteMove.starts
    · have hnames : (handing ++ dying).filterMap SiteMove.starts = [0, 1] := rfl
      rw [hnames] at hi
      rcases List.mem_pair.mp hi with rfl | rfl
      · exact h0
      · exact h1
    · exact awaited_eq_none hrun hi
  obtain ⟨delivery, hdelivery⟩ := List.length_eq_one_iff.mp hone
  obtain ⟨hrest', hhanded⟩ :=
    (comes_to_rest hs hs' (by decide)).2 fun m hm => hrest.stuck hm
  exact ⟨s, s', delivery, hs, hs', hrest', hdelivery,
    hhanded delivery (hdelivery ▸ List.mem_singleton_self _)⟩

end RealtimeOps
