import Mathlib.Algebra.Ring.Nat
import RealtimeOps.Interleaving.Credit
import RealtimeOps.Refinement

/-!
# Accounts

Nothing is recorded twice. Each operator action is paid for by a request of the operator that asked
for it, each audit entry of an operator by the operator action it goes with, each message for a job
by the audit entry of the command that sent it, and each attempt by the message it runs on. A failed
call may leave its effect behind, so a record can lack what should follow it, but what follows never
outnumbers what it follows.

A `Tariff` says what the calls cost and bring, and what the tables show to have been spent and
earned. Its `balance` holds in every run.
-/

set_option autoImplicit false

namespace RealtimeOps

open Interleaving

/-! ## What is booked -/

/-- What an operator can ask for that is recorded. -/
inductive OperatorCommand where
  | createJob
  | retryJob
  | createAlert
  | acknowledgeIncident
  | resolveIncident
  deriving DecidableEq

namespace OperatorCommand

/-- The operator action. -/
def action : OperatorCommand → String
  | createJob => "job.create"
  | retryJob => "job.retry"
  | createAlert => "alert.create"
  | acknowledgeIncident => "incident.acknowledge"
  | resolveIncident => "incident.resolve"

/-- The action of the audit entry. -/
def entry : OperatorCommand → String
  | createJob => "job.created"
  | retryJob => "job.retried"
  | createAlert => "alert.created"
  | acknowledgeIncident => "incident.acknowledged"
  | resolveIncident => "incident.resolved"

/-- The rows the command is about. -/
def type : OperatorCommand → EntityType
  | createJob | retryJob => .JOB
  | createAlert => .ALERT
  | acknowledgeIncident | resolveIncident => .INCIDENT

/-- The command sends a message for a job. -/
def sends : OperatorCommand → Bool
  | createJob | retryJob => true
  | createAlert | acknowledgeIncident | resolveIncident => false

theorem action_injective {k k' : OperatorCommand} (h : k.action = k'.action) : k = k' := by
  cases k <;> cases k' <;> first | rfl | exact absurd h (by decide)

theorem entry_injective {k k' : OperatorCommand} (h : k.entry = k'.entry) : k = k' := by
  cases k <;> cases k' <;> first | rfl | exact absurd h (by decide)

/-- The columns of the operator action on a row. -/
def acts (k : OperatorCommand) (operatorId : String) (target : Uuid) (payload : Record) :
    OperatorActionColumns :=
  ⟨operatorId, k.action, k.type, some target, payload⟩

/-- The columns of the audit entry on a row. -/
def logs (k : OperatorCommand) (operatorId : String) (target : Uuid) (metadata : Record) :
    CreateAuditEntryInput :=
  ⟨.OPERATOR, some operatorId, k.entry, k.type, some target, metadata⟩

end OperatorCommand

/-- What a command records, and for whom. -/
def Command.books : Command → Option (OperatorCommand × String)
  | job (.create input) => some (.createJob, input.operatorId)
  | job (.retry _ operatorId) => some (.retryJob, operatorId)
  | createAlert input => some (.createAlert, input.operatorId)
  | acknowledge _ operatorId => some (.acknowledgeIncident, operatorId)
  | resolve _ operatorId => some (.resolveIncident, operatorId)
  | _ => none

/-- What a route records. -/
def ApiRoute.books : ApiRoute → Option OperatorCommand
  | createJob _ _ => some .createJob
  | retryJob _ => some .retryJob
  | createAlert _ _ => some .createAlert
  | acknowledgeIncident _ => some .acknowledgeIncident
  | resolveIncident _ => some .resolveIncident
  | getHealth | getJobStatus _ | read _ | refused _ => none

/-- What a request with a valid token asks to be recorded, and for whom. -/
def Site.books (site : Site) : HttpRequest → Option (OperatorCommand × String)
  | .api route r =>
    if site.carriesToken (.api route r) then
      match AuthService.resolveOperatorId
          (OperatorAuthGuard.extractHeader r.headers.operatorId) with
      | .ok operatorId => route.books.map (·, operatorId)
      | .error _ => none
    else none
  | _ => none

/-- The action of the audit entry with which an execution starts. -/
def processingAction : String :=
  "job.processing"

/-- The calls that are booked. -/
def Op.Booked : Op → Prop
  | insertOperatorAction _ | sendToQueue _ => True
  | insertAuditEntry c => c.actorType = .OPERATOR ∨ c.action = processingAction
  | _ => False

/-- What the workers log is not booked but for the start of an execution. -/
theorem Op.not_booked_of_system {action : String} {actorId : Option String} {type : EntityType}
    {id : Option Uuid} {metadata : Record} (h : action ≠ processingAction) :
    ¬(Op.insertAuditEntry ⟨.SYSTEM, actorId, action, type, id, metadata⟩).Booked := by
  rintro (hbooked | hbooked)
  · cases hbooked
  · exact h hbooked

theorem ApiRoute.books_of_command {route : ApiRoute} {operatorId : String} {c : Command}
    (h : route.command operatorId = some c) : c.books = route.books.map (·, operatorId) := by
  cases route <;> cases h <;> rfl

theorem Site.Asks.books {site : Site} {request : HttpRequest} {c : Command}
    (h : site.Asks request c) : site.books request = c.books := by
  obtain ⟨htoken, route, r, operatorId, rfl, hoperator, hc⟩ := h
  rw [Site.books, if_pos htoken, hoperator]
  exact (ApiRoute.books_of_command hc).symm

/-! ## What is paid -/

section Programs

variable {gain cost : Op → ℕ} {n : ℕ}

/-- What is recorded of a command on a row, and the message that is sent. -/
def OperatorCommand.booking (k : OperatorCommand) (operatorId : String) (target : Uuid)
    (payload metadata : Record) (reason : String) : List Op :=
  .insertOperatorAction (k.acts operatorId target payload) ::
    .insertAuditEntry (k.logs operatorId target metadata) ::
      if k.sends then [.sendToQueue ⟨some ⟨some target, some reason, some operatorId⟩⟩] else []

/-- With `n` in hand the bookings of a command for the operator can be paid. -/
def OperatorCommand.Paid (gain cost : Op → ℕ) (n : ℕ) (k : OperatorCommand)
    (operatorId : String) : Prop :=
  ∀ target payload metadata reason, Prog.Pays (S := infrastructure) gain cost
    (k.booking operatorId target payload metadata reason) n

/-- The three bookings one after the other. -/
theorem OperatorCommand.paid {k : OperatorCommand} {operatorId : String}
    (h : ∀ target payload metadata, ∃ m l,
      m + cost (.insertOperatorAction (k.acts operatorId target payload)) ≤ n ∧
      l + cost (.insertAuditEntry (k.logs operatorId target metadata)) ≤
        m + gain (.insertOperatorAction (k.acts operatorId target payload)) ∧
      (k.sends = true → ∀ reason,
        cost (.sendToQueue ⟨some ⟨some target, some reason, some operatorId⟩⟩) ≤
          l + gain (.insertAuditEntry (k.logs operatorId target metadata)))) :
    k.Paid gain cost n operatorId := by
  intro target payload metadata reason
  obtain ⟨m, l, hm, hl, hsend⟩ := h target payload metadata
  refine ⟨m, hm, l, hl, ?_⟩
  split_ifs with hk
  · exact ⟨0, (Nat.zero_add _).trans_le (hsend hk reason), trivial⟩
  · trivial

section Free

variable (hfree : ∀ op : Op, ¬op.Booked → cost op = 0)

include hfree

theorem affords_create {input : CreateJobInput}
    (h : OperatorCommand.createJob.Paid gain cost n input.operatorId) :
    (JobService.create input).Affords gain cost n := by
  refine .await_free (hfree _ id) fun job => ?_
  refine .await_pays (h job.id _ _ "created") fun l hl _ => .await_pays hl fun l hl _ => ?_
  refine .await_free (hfree _ id) fun _ => .await_pays hl fun l _ _ => ?_
  exact .await_free (hfree _ id) fun _ => .await_free (hfree _ id) fun _ => trivial

theorem affords_retry {jobId : Uuid} {operatorId : String}
    (h : OperatorCommand.retryJob.Paid gain cost n operatorId) :
    (JobService.retry jobId operatorId).Affords gain cost n := by
  unfold JobService.retry
  rw [Prog.bind_eq, JobService.getById_bind]
  refine .await_free (hfree _ id) fun found => ?_
  cases found with
  | none => trivial
  | some job =>
    dsimp only
    split_ifs
    · trivial
    · trivial
    refine .await_free (hfree _ id) fun updated => ?_
    refine .await_pays (h updated.id _ _ "retry") fun l hl _ => .await_pays hl fun l hl _ => ?_
    refine .await_free (hfree _ id) fun _ => .await_pays hl fun l _ _ => ?_
    exact .await_free (hfree _ id) fun _ => .await_free (hfree _ id) fun _ => trivial

theorem affords_announce {input : CreateAlertInput}
    (h : OperatorCommand.createAlert.Paid gain cost n input.operatorId) (alert : AlertEntity)
    (incident : Option IncidentEntity) :
    (AlertService.announce input alert incident).Affords gain cost n := by
  refine .await_pays (h alert.id _ _ "") fun l hl _ => .await_pays hl fun l _ _ => ?_
  refine .await_free (hfree _ id) fun _ => ?_
  cases incident with
  | none => trivial
  | some incident => exact .await_free (hfree _ id) fun _ => trivial

theorem affords_createAlert {input : CreateAlertInput}
    (h : OperatorCommand.createAlert.Paid gain cost n input.operatorId) :
    (AlertService.create input).Affords gain cost n := by
  refine .await_free (hfree _ id) fun alert => ?_
  split_ifs
  · exact .await_free (hfree _ id) fun incident => affords_announce hfree h _ _
  · exact affords_announce hfree h _ _

theorem affords_propagate {k : OperatorCommand} (hk : k.type = .INCIDENT) {operatorId : String}
    (h : k.Paid gain cost n operatorId) (incident updated : IncidentEntity)
    (changes : Date → AlertUpdate) (metadata payload : Record) :
    (IncidentService.propagate incident updated operatorId changes k.action k.entry metadata
      payload).Affords gain cost n := by
  have hpays := h incident.id [] metadata ""
  unfold OperatorCommand.booking OperatorCommand.acts OperatorCommand.logs at hpays
  rw [hk] at hpays
  unfold IncidentService.propagate
  cases incident.alertId with
  | none =>
    refine .await_pays hpays fun l hl _ => .await_pays hl fun l _ _ => ?_
    exact .await_free (hfree _ id) fun _ => trivial
  | some alertId =>
    refine .await_free (hfree _ id) fun _ => .await_free (hfree _ id) fun _ => ?_
    refine .await_pays hpays fun l hl _ => .await_pays hl fun l _ _ => ?_
    exact .await_free (hfree _ id) fun _ => trivial

theorem affords_acknowledge {incidentId : Uuid} {operatorId : String}
    (h : OperatorCommand.acknowledgeIncident.Paid gain cost n operatorId) :
    (IncidentService.acknowledge incidentId operatorId).Affords gain cost n := by
  unfold IncidentService.acknowledge
  rw [Prog.bind_eq, IncidentService.getIncident_bind]
  refine .await_free (hfree _ id) fun found => ?_
  cases found with
  | none => trivial
  | some incident =>
    dsimp only
    split_ifs
    · trivial
    · exact .await_free (hfree _ id) fun _ => .await_free (hfree _ id) fun _ =>
        affords_propagate hfree rfl h _ _ _ _ _

theorem affords_settle {operatorId : String}
    (h : OperatorCommand.resolveIncident.Paid gain cost n operatorId) (incident : IncidentEntity) :
    (IncidentService.settle incident operatorId).Affords gain cost n :=
  .await_free (hfree _ id) fun _ => .await_free (hfree _ id) fun _ =>
    affords_propagate hfree rfl h _ _ _ _ _

theorem affords_resolve {incidentId : Uuid} {operatorId : String}
    (h : OperatorCommand.resolveIncident.Paid gain cost n operatorId) :
    (IncidentService.resolve incidentId operatorId).Affords gain cost n := by
  unfold IncidentService.resolve
  rw [Prog.bind_eq, IncidentService.getIncident_bind]
  refine .await_free (hfree _ id) fun found => ?_
  cases found with
  | none => trivial
  | some incident =>
    dsimp only
    split_ifs
    · trivial
    · exact .await_free (hfree _ id) fun _ => affords_settle hfree h _
    · exact affords_settle hfree h _

theorem affords_getStatus (jobId : Uuid) : (JobService.getStatus jobId).Affords gain cost n := by
  unfold JobService.getStatus
  rw [Prog.bind_eq, JobService.getById_bind]
  refine .await_free (hfree _ id) fun found => ?_
  cases found with
  | none => trivial
  | some job => exact .await_free (hfree _ id) fun _ => trivial

/-- A command that is asked for is paid with what its bookings need. -/
theorem affords_prog {site : Site} {request : HttpRequest} {c : Command}
    (hc : site.Asks request c)
    (h : ∀ k operatorId, c.books = some (k, operatorId) → k.Paid gain cost n operatorId) :
    c.prog.Affords gain cost n := by
  obtain ⟨-, route, r, operatorId, -, -, hroute⟩ := hc
  cases route with
  | getHealth | read | refused => cases hroute
  | createJob =>
    cases hroute
    exact ((affords_create hfree (h _ _ rfl)).map _).map _
  | retryJob =>
    cases hroute
    exact ((affords_retry hfree (h _ _ rfl)).map _).map _
  | getJobStatus =>
    cases hroute
    exact ((affords_getStatus hfree _).map _).map _
  | createAlert =>
    cases hroute
    exact (affords_createAlert hfree (h _ _ rfl)).map _
  | acknowledgeIncident =>
    cases hroute
    exact (affords_acknowledge hfree (h _ _ rfl)).map _
  | resolveIncident =>
    cases hroute
    exact (affords_resolve hfree (h _ _ rfl)).map _

/-! An execution pays for its start. -/

theorem affords_reportFailure (job : JobEntity) (attempt : ProcessingAttemptEntity)
    (errorMessage : String) (finishedAt : Date) (alert : AlertEntity)
    (incident : Option IncidentEntity) :
    (JobProcessorService.reportFailure job attempt errorMessage finishedAt alert
      incident).Affords gain cost n := by
  refine .await_free (hfree _ id) fun _ => ?_
  refine .await_free (hfree _ (Op.not_booked_of_system (by decide))) fun _ => ?_
  refine .await_free (hfree _ (Op.not_booked_of_system (by decide))) fun _ => ?_
  cases incident with
  | none =>
    exact .await_free (hfree _ id) fun _ => .await_free (hfree _ id) fun _ =>
      .of_calls (.await (hfree _ id)) _
  | some incident =>
    refine .await_free (hfree _ (Op.not_booked_of_system (by decide))) fun _ => ?_
    refine .await_free (hfree _ id) fun _ => .await_free (hfree _ id) fun _ => ?_
    exact .await_free (hfree _ id) fun _ => .of_calls (.await (hfree _ id)) _

theorem affords_markFailed (job : JobEntity) (attempt : ProcessingAttemptEntity)
    (errorMessage : String) :
    (JobProcessorService.markFailed job attempt errorMessage).Affords gain cost n := by
  refine .await_free (hfree _ id) fun _ => .await_free (hfree _ id) fun _ => ?_
  refine .await_free (hfree _ id) fun _ => .await_free (hfree _ id) fun _ => ?_
  split_ifs
  · exact .await_free (hfree _ id) fun _ => affords_reportFailure hfree _ _ _ _ _ _
  · exact affords_reportFailure hfree _ _ _ _ _ _

theorem affords_markCompleted (job : JobEntity) (attempt : ProcessingAttemptEntity) :
    (JobProcessorService.markCompleted job attempt).Affords gain cost n := by
  refine .await_free (hfree _ id) fun _ => .await_free (hfree _ id) fun _ => ?_
  refine .await_free (hfree _ id) fun _ => .await_free (hfree _ id) fun _ => ?_
  refine .await_free (hfree _ (Op.not_booked_of_system (by decide))) fun _ => ?_
  exact .await_free (hfree _ id) fun _ => .of_calls (.await (hfree _ id)) _

section Executions

variable (hstart : ∀ c : CreateAuditEntryInput, c.actorType = .SYSTEM →
  cost (.insertAuditEntry c) ≤ n)

include hstart

theorem affords_processJob (input : ProcessJobInput) (job : JobEntity) :
    (JobProcessorService.processJob input job).Affords gain cost n := by
  refine .await_free (hfree _ id) fun _ => .await_free (hfree _ id) fun _ => ?_
  refine .await_free (hfree _ id) fun _ => ?_
  refine .await_bind ((Nat.zero_add _).trans_le (hstart _ rfl)) fun _ => ?_
  refine .await_free (hfree _ id) fun _ => .await_free (hfree _ id) fun _ => ?_
  split
  · exact affords_markFailed hfree _ _ _
  · exact affords_markCompleted hfree _ _

theorem affords_process (input : ProcessJobInput) :
    (JobProcessorService.process input).Affords gain cost n := by
  refine .await_free (hfree _ id) fun acquired => ?_
  cases acquired with
  | false => trivial
  | true =>
    have hrelease : (RedisLockService.releaseLock (lockKey input.jobId)).Affords gain cost 0 :=
      .of_calls (.await (hfree _ id)) 0
    refine Prog.Affords.tryFinally hrelease (.await_free (hfree _ id) fun found => ?_)
    cases found with
    | none => trivial
    | some job => exact affords_processJob hfree hstart input job

theorem affords_consume (delivery : Delivery) :
    (Command.job (.consume delivery)).prog.Affords gain cost n := by
  have hack : ∀ _ : Unit, (await (.ack delivery.tag)).Affords gain cost 0 :=
    fun _ => .of_calls (.await (hfree _ id)) 0
  have hnack : ∀ _ : Failure, (await (.nack delivery.tag)).Affords gain cost 0 :=
    fun _ => .of_calls (.await (hfree _ id)) 0
  refine ((Prog.Affords.tryCatch hnack ?_).map _).map _
  obtain ⟨tag, ⟨content⟩⟩ := delivery
  cases content with
  | none => trivial
  | some payload =>
    refine Prog.Affords.bind hack ?_
    unfold JobProcessingConsumer.onMessage
    split
    · trivial
    · exact affords_process hfree hstart _

end Executions

end Free

end Programs

/-! ## Tariffs -/

/-- What calls cost and bring, and what the tables show to have been spent and earned. -/
structure Tariff where
  gain : Op → ℕ
  cost : Op → ℕ
  spent : World → ℕ
  earned : World → ℕ
  /-- What a request brings that asks for the command. -/
  share : OperatorCommand → String → ℕ
  /-- What a message brings that is handed out. -/
  execution : ℕ
  /-- What the return of a delivery brings. -/
  returned : ℕ
  free : ∀ op, ¬op.Booked → cost op = 0
  paid : ∀ (k : OperatorCommand) operatorId, k.Paid gain cost (share k operatorId) operatorId
  started : ∀ c : CreateAuditEntryInput, c.actorType = .SYSTEM →
    cost (.insertAuditEntry c) ≤ execution
  spends : ∀ {e w w'} {op : Op} {reply}, perform e w op = some (reply, w') →
    spent w' ≤ spent w + cost op
  earns : ∀ {e w w'} {op : Op} {reply}, perform e w op = some (reply, w') →
    earned w + gain op ≤ earned w'
  handOut : ∀ {n w m}, w.ready[n]? = some m →
    spent (Deployment.handOut n ⟨w.nextTag, m⟩ w) + execution ≤ spent w ∧
      earned (Deployment.handOut n ⟨w.nextTag, m⟩ w) = earned w
  redeliver : ∀ {tag w w'}, RealtimeOps.redeliver tag w = some w' →
    spent w' ≤ spent w + returned ∧ earned w' = earned w
  unlock : ∀ (w : World) locks clock, spent { w with locks, clock } = spent w ∧
    earned { w with locks, clock } = earned w

theorem sum_indicator {α : Type} (p : α → Prop) [DecidablePred p] (l : List α) :
    (l.map fun a => if p a then 1 else 0).sum = l.countP p := by
  induction l with
  | nil => rfl
  | cons a l ih =>
    rw [List.map_cons, List.sum_cons, ih, List.countP_cons, Nat.add_comm]
    simp only [decide_eq_true_eq]

namespace Tariff

variable (A : Tariff) (site : Site)

/-- What the calls of a handler cost or bring. -/
def lift (f : Op → ℕ) : SiteOp → ℕ
  | .service op => f op
  | _ => 0

/-- What has been spent, as the backend shows. -/
abbrev spentIn (b : Backend) : ℕ :=
  A.spent b.world

/-- What has been brought in, as the backend shows. -/
abbrev earnedIn (b : Backend) : ℕ :=
  A.earned b.world

/-- What a move brings from outside. -/
def income : SiteMove → ℕ
  | .request _ request =>
    match site.books request with
    | some (k, operatorId) => A.share k operatorId
    | none => 0
  | .redeliver _ => A.returned
  | _ => 0

/-- The threads can pay for all they do, and no more was spent than was earned and came from
outside. -/
def Balanced (s : Deployment) (total : ℕ) : Prop :=
  ∃ n, s.backend.Affords (lift A.gain) (lift A.cost) n ∧
    n + A.spent s.world ≤ A.earned s.world + total

variable {A} {site} {s s' : Deployment} {total : ℕ}

theorem affords_handling {c : Command} {n : ℕ} (h : c.prog.Affords A.gain A.cost n) :
    c.handling.Affords (lift A.gain) (lift A.cost) n :=
  Prog.Affords.map (Prog.Affords.embed (e := services) (fun _ _ => ⟨_, rfl⟩) h) _

theorem lift_of_aside {op : SiteOp} (h : op.Aside) : lift A.cost op = 0 := by
  cases op with
  | service op =>
    rcases h with rfl | ⟨-, rfl⟩
    · exact A.free _ id
    · exact A.free _ id
  | counter | select | ping => rfl

/-- Until a thread comes to its command it costs nothing. -/
theorem affords_of_arrives {P : Command → Prop} {n : ℕ}
    (hP : ∀ c, P c → c.handling.Affords (lift A.gain) (lift A.cost) n) :
    ∀ {p : Handling HttpBody}, Arrives P p → p.Affords (lift A.gain) (lift A.cost) n
  | .ret _, _ => trivial
  | .throw _, _ => trivial
  | .call op k, h => by
    have hnext : ∀ r, (k r).Affords (lift A.gain) (lift A.cost) n := by
      intro r
      rcases h.2 r with hr | ⟨c, hc, hr⟩
      · exact affords_of_arrives hP hr
      · exact hr ▸ hP c hc
    refine ⟨n, by rw [lift_of_aside h.1, Nat.add_zero], fun reply => ?_, fun _ => hnext _⟩
    exact (hnext _).mono (Nat.le_add_right _ _)

theorem affords_handleRequest (i : ℕ) (request : HttpRequest) :
    (site.handleRequest request).Affords (lift A.gain) (lift A.cost)
      (A.income site (.request i request)) := by
  have hcommand : ∀ c, site.Asks request c → c.handling.Affords (lift A.gain) (lift A.cost)
      (A.income site (.request i request)) := by
    intro c hc
    refine affords_handling (affords_prog A.free hc fun k operatorId hbooks => ?_)
    rw [income, hc.books, hbooks]
    exact A.paid k operatorId
  rcases comes_handleRequest site request with h | ⟨c, hc, h⟩
  · exact affords_of_arrives hcommand h
  · exact h ▸ hcommand c hc

variable (A) in
theorem handle_spends (e : Env) (op : Op) (w : World) :
    A.spent (handle e op w).2 ≤ A.spent w + A.cost op := by
  rw [← (A.unlock w w.locks e.now).1]
  rcases handle_world e op w with h | ⟨reply, hp⟩
  · rw [h]
    exact Nat.le_add_right _ _
  · exact A.spends hp

variable (A) in
theorem handle_earns (e : Env) (op : Op) (w : World) :
    A.earned w + (if (handle e op w).1.isOk then A.gain op else 0) ≤
      A.earned (handle e op w).2 := by
  rw [← (A.unlock w w.locks e.now).2]
  cases hr : (handle e op w).1 with
  | ok reply => exact A.earns (handle_eq_ok (Prod.ext hr rfl)).1
  | error err =>
    change A.earned _ + 0 ≤ _
    rcases handle_world e op w with h | ⟨reply, hp⟩
    · rw [h]
      exact le_rfl
    · exact (Nat.add_le_add_left (Nat.zero_le _) _).trans (A.earns hp)

variable (A) in
/-- A call spends what it costs and earns what it brings. -/
theorem backend_handle (e : Env) (op : SiteOp) (b : Backend) :
    A.spentIn (Backend.handle e op b).2 ≤ A.spentIn b + lift A.cost op ∧
      A.earnedIn b + (if (Backend.handle e op b).1.isOk then lift A.gain op else 0) ≤
        A.earnedIn (Backend.handle e op b).2 := by
  cases op with
  | counter | select | ping => exact ⟨le_rfl, by split_ifs <;> exact le_rfl⟩
  | service op =>
    refine ⟨A.handle_spends e op b.world, ?_⟩
    have h := A.handle_earns e op b.world
    change A.earned b.world + (if ((RealtimeOps.handle e op b.world).1.mapError
      HttpFailure.failed).isOk then A.gain op else 0) ≤ A.earned (RealtimeOps.handle e op b.world).2
    cases hr : (RealtimeOps.handle e op b.world).1 with
    | ok reply | error err =>
      rw [hr] at h
      exact h

theorem Balanced.step (h : A.Balanced s total) {m : SiteMove} (hs : site.step s m = some s') :
    A.Balanced s' (total + A.income site m) := by
  obtain ⟨n, hthreads, hn⟩ := h
  cases Site.step_eq_some.mp hs with
  | @request i request b hb =>
    refine ⟨_, hthreads.spawn (affords_handleRequest i request) hb, ?_⟩
    obtain ⟨-, rfl⟩ := Named.spawn_eq_some hb
    change n + _ + A.spent s.world ≤ A.earned s.world + _
    omega
  | @deliver i n' message b hready hb =>
    obtain ⟨hspent, hearned⟩ := A.handOut hready
    have hrun := affords_handling (affords_consume A.free A.started ⟨s.world.nextTag, message⟩)
    have hhanded : (s.withWorld (Deployment.handOut n' ⟨s.world.nextTag, message⟩
        s.world)).backend.Affords (lift A.gain) (lift A.cost) n := hthreads.of_threads rfl
    refine ⟨_, hhanded.spawn hrun hb, ?_⟩
    obtain ⟨-, rfl⟩ := Named.spawn_eq_some hb
    change n + A.execution + A.spent (Deployment.handOut n' _ s.world) ≤
      A.earned (Deployment.handOut n' _ s.world) + (total + 0)
    omega
  | @step i e b hclock hb =>
    have hspent := fun op => (A.backend_handle e op s.backend.world).1
    have hearned := fun op => (A.backend_handle e op s.backend.world).2
    obtain ⟨n', h', hn'⟩ := hthreads.balance hspent hearned hn hb
    exact ⟨n', h'.of_threads rfl, hn'⟩
  | @stop i b hb =>
    obtain ⟨op, n', -, hle, h'⟩ := hthreads.halt hb
    refine ⟨n', h', ?_⟩
    obtain ⟨-, rfl⟩ := Named.halt_eq_some hb
    change n' + A.spent s.world ≤ A.earned s.world + (total + 0)
    omega
  | @redeliver tag w hw =>
    obtain ⟨hspent, hearned⟩ := A.redeliver hw
    refine ⟨n, hthreads.of_threads rfl, ?_⟩
    change n + A.spent w ≤ A.earned w + (total + A.returned)
    omega
  | @expire key now w hw =>
    obtain ⟨lock, -, -, rfl⟩ := expire_eq_some.mp hw
    obtain ⟨hspent, hearned⟩ := A.unlock s.world (s.world.locks.erase key) now
    exact ⟨n, hthreads.of_threads rfl, hspent ▸ hearned ▸ hn⟩
  | broadcast | settle | recover | socket => exact ⟨n, hthreads, hn⟩

theorem Balanced.run : ∀ {ms : List SiteMove} {s : Deployment} {total : ℕ}, A.Balanced s total →
    ms.foldlM site.step s = some s' → A.Balanced s' (total + (ms.map (A.income site)).sum)
  | [], _, _, h, hrun => by
    cases hrun
    exact h
  | m :: ms, s, total, h, hrun => by
    obtain ⟨s₁, hs₁, hrest⟩ := Option.bind_eq_some_iff.mp (List.foldlM_cons (m := Option) ▸ hrun)
    have hlast := Balanced.run (h.step hs₁) hrest
    rwa [Nat.add_assoc, ← List.sum_cons, ← List.map_cons] at hlast

/-- What was spent in a run was earned, or came in with a move that has `p`. -/
theorem balance {p : SiteMove → Prop} [DecidablePred p] {ms : List SiteMove}
    (hinit : A.spent .empty = 0) (hp : ∀ m, A.income site m = if p m then 1 else 0)
    (h : ms.foldlM site.step .init = some s) :
    A.spent s.world ≤ A.earned s.world + ms.countP p := by
  have hstart : A.Balanced .init 0 := by
    refine ⟨0, .init _, ?_⟩
    change 0 + A.spent .empty ≤ _
    omega
  obtain ⟨n, -, hn⟩ := hstart.run h
  rw [funext hp, sum_indicator] at hn
  omega

theorem income_request {i : ℕ} {request : HttpRequest}
    (h : ∀ k operatorId, A.share k operatorId = 0) :
    A.income site (.request i request) = 0 := by
  rw [income]
  split
  · exact h _ _
  · rfl

/-- What was spent in a run was earned, if nothing comes in. -/
theorem balance_alone {ms : List SiteMove} (hinit : A.spent .empty = 0)
    (hp : ∀ m, A.income site m = 0) (h : ms.foldlM site.step .init = some s) :
    A.spent s.world ≤ A.earned s.world := by
  have hbalance := balance (p := fun _ => False) hinit hp h
  rwa [List.countP_eq_zero.mpr (by simp)] at hbalance

end Tariff

/-! ## Counts -/

/-- The operator actions with `p`. -/
def World.actions (w : World) (p : OperatorActionColumns → Bool) : ℕ :=
  w.operatorActions.rows.countP fun row => p row.toOperatorActionColumns

/-- The audit entries with `p`. -/
def World.entries (w : World) (p : CreateAuditEntryInput → Bool) : ℕ :=
  w.auditEntries.rows.countP fun row => p row.toCreateAuditEntryInput

/-- The messages for a job that wait or are not settled. -/
def World.messages (w : World) (jobId : Uuid) : ℕ :=
  w.ready.countP (·.jobId = some jobId) + w.unacked.countP (·.message.jobId = some jobId)

/-- The operator actions of this kind that a call writes. -/
def Op.actions (p : OperatorActionColumns → Bool) : Op → ℕ
  | insertOperatorAction c => if p c then 1 else 0
  | _ => 0

/-- The audit entries of this kind that a call writes. -/
def Op.entries (p : CreateAuditEntryInput → Bool) : Op → ℕ
  | insertAuditEntry c => if p c then 1 else 0
  | _ => 0

/-- The messages for a job that a call sends. -/
def Op.messages (jobId : Uuid) : Op → ℕ
  | sendToQueue message => if message.jobId = some jobId then 1 else 0
  | _ => 0

section Counts

variable {e : Env} {w w' : World} {op : Op} {reply : op.Reply}

/-- What the calls that insert neither leave. -/
theorem perform_records (h : perform e w op = some (reply, w')) :
    ((∀ c, op ≠ .insertOperatorAction c) → w'.operatorActions = w.operatorActions) ∧
      ((∀ c, op ≠ .insertAuditEntry c) → w'.auditEntries = w.auditEntries) := by
  cases op <;>
    simp only [perform, Option.ite_none_right_eq_some, Option.map_eq_some_iff, Prod.mk.injEq,
      Option.some.injEq] at h <;> grind

theorem perform_actions (p : OperatorActionColumns → Bool)
    (h : perform e w op = some (reply, w')) : w'.actions p = w.actions p + op.actions p := by
  cases op with
  | insertOperatorAction c =>
    obtain ⟨-, t, ht, -, rfl⟩ := perform_insertOperatorAction h
    unfold World.actions
    rw [(Table.insert_eq_some ht).1, List.countP_append, List.countP_singleton]
    rfl
  | _ =>
    rw [World.actions, (perform_records h).1 (by rintro c ⟨⟩)]
    rfl

theorem perform_entries (p : CreateAuditEntryInput → Bool)
    (h : perform e w op = some (reply, w')) : w'.entries p = w.entries p + op.entries p := by
  cases op with
  | insertAuditEntry c =>
    obtain ⟨-, t, ht, -, rfl⟩ := perform_insertAuditEntry h
    unfold World.entries
    rw [(Table.insert_eq_some ht).1, List.countP_append, List.countP_singleton]
    rfl
  | _ =>
    rw [World.entries, (perform_records h).2 (by rintro c ⟨⟩)]
    rfl

theorem perform_unacked (h : perform e w op = some (reply, w')) :
    w'.unacked.Sublist w.unacked := by
  cases op <;>
    simp only [perform, Option.ite_none_right_eq_some, Option.map_eq_some_iff, Prod.mk.injEq,
      Option.some.injEq] at h <;> grind [List.filter_sublist]

theorem perform_messages (jobId : Uuid) (h : perform e w op = some (reply, w')) :
    w'.messages jobId ≤ w.messages jobId + op.messages jobId := by
  have hunacked := (perform_unacked h).countP_le (p := (·.message.jobId = some jobId))
  have hready : w'.ready.countP (·.jobId = some jobId) =
      w.ready.countP (·.jobId = some jobId) + op.messages jobId := by
    rw [(perform_queue h).1, List.countP_append]
    cases op with
    | sendToQueue message =>
      change _ + List.countP _ [message] = _
      rw [List.countP_singleton]
      simp only [Op.messages, decide_eq_true_eq]
    | _ => rfl
  unfold World.messages
  omega

theorem messages_handOut (jobId : Uuid) {n : ℕ} {m : Message} (h : w.ready[n]? = some m) :
    (Deployment.handOut n ⟨w.nextTag, m⟩ w).messages jobId = w.messages jobId := by
  obtain ⟨hlt, rfl⟩ := List.getElem?_eq_some_iff.mp h
  have hready := (List.getElem_cons_eraseIdx_perm hlt).countP_eq (·.jobId = some jobId)
  rw [List.countP_cons] at hready
  simp only [World.messages, Deployment.handOut, List.countP_append, List.countP_singleton]
  omega

theorem messages_redeliver (jobId : Uuid) {tag : ℕ} (h : redeliver tag w = some w') :
    w'.messages jobId ≤ w.messages jobId := by
  obtain ⟨d, hd, rfl⟩ := Option.map_eq_some_iff.mp h
  have hsplit := List.countP_eq_countP_filter_add w.unacked
    (fun d => decide (d.message.jobId = some jobId)) fun d => decide (d.tag ≠ tag)
  have hback : (if d.message.jobId = some jobId then 1 else 0) ≤
      (w.unacked.filter fun d => !decide (d.tag ≠ tag)).countP
        (·.message.jobId = some jobId) := by
    split_ifs with hjob
    · refine List.countP_pos_iff.mpr ⟨d, List.mem_filter.mpr ⟨List.mem_of_find?_eq_some hd, ?_⟩, ?_⟩
      · simpa using List.find?_some hd
      · simpa using hjob
    · exact Nat.zero_le _
  simp only [World.messages, List.countP_append, List.countP_singleton, decide_eq_true_eq]
  omega

end Counts

/-! ## The books -/

namespace OperatorCommand

variable (k : OperatorCommand) (operatorId : String)

/-- An operator action of the command. -/
def isAction (c : OperatorActionColumns) : Bool :=
  decide (c.operatorId = operatorId ∧ c.action = k.action)

/-- An operator action of the command on the row. -/
def isActionOn (target : Uuid) (c : OperatorActionColumns) : Bool :=
  decide (c.operatorId = operatorId ∧ c.action = k.action ∧ c.targetType = k.type ∧
    c.targetId = some target)

/-- An audit entry of the command on the row. -/
def isEntryOn (target : Uuid) (c : CreateAuditEntryInput) : Bool :=
  decide (c.actorType = .OPERATOR ∧ c.actorId = some operatorId ∧ c.action = k.entry ∧
    c.entityType = k.type ∧ c.entityId = some target)

end OperatorCommand

/-- The audit entry of a command that sends a message. -/
def isQueued (c : CreateAuditEntryInput) : Bool :=
  decide (c.actorType = .OPERATOR ∧ c.entityType = .JOB ∧
    (c.action = OperatorCommand.createJob.entry ∨ c.action = OperatorCommand.retryJob.entry))

theorem isQueued_logs {k : OperatorCommand} (hk : k.sends = true) {operatorId : String}
    {target : Uuid} {metadata : Record} : isQueued (k.logs operatorId target metadata) = true := by
  cases k with
  | createJob => exact decide_eq_true ⟨rfl, rfl, .inl rfl⟩
  | retryJob => exact decide_eq_true ⟨rfl, rfl, .inr rfl⟩
  | _ => cases hk

/-- The audit entry of the start of an execution. -/
def isStart (c : CreateAuditEntryInput) : Bool :=
  decide (c.action = processingAction)

/-- Operator actions are paid for by requests. -/
def actionsTariff (k : OperatorCommand) (operatorId : String) : Tariff where
  gain _ := 0
  cost := Op.actions (k.isAction operatorId)
  spent w := w.actions (k.isAction operatorId)
  earned _ := 0
  share k' operatorId' := if k' = k ∧ operatorId' = operatorId then 1 else 0
  execution := 0
  returned := 0
  free op hop := by
    cases op with
    | insertOperatorAction c => exact absurd trivial hop
    | _ => rfl
  paid k' operatorId' := by
    refine OperatorCommand.paid fun target payload metadata => ⟨0, 0, ?_, le_rfl, fun _ _ => ?_⟩
    · by_cases h : k' = k ∧ operatorId' = operatorId
      · rw [if_pos h]
        simp only [Op.actions]
        split_ifs <;> omega
      · have hother : k.isAction operatorId (k'.acts operatorId' target payload) = false := by
          refine decide_eq_false fun hsame => h ⟨OperatorCommand.action_injective hsame.2, hsame.1⟩
        simp only [Op.actions, hother]
        exact Nat.zero_le _
    · exact le_rfl
  started c _ := le_rfl
  spends h := (perform_actions _ h).le
  earns _ := le_rfl
  handOut _ := ⟨le_rfl, rfl⟩
  redeliver h := by
    obtain ⟨d, -, rfl⟩ := Option.map_eq_some_iff.mp h
    exact ⟨le_rfl, rfl⟩
  unlock _ _ _ := ⟨rfl, rfl⟩

/-- Audit entries are paid for by operator actions. -/
def entriesTariff (k : OperatorCommand) (operatorId : String) (target : Uuid) : Tariff where
  gain := Op.actions (k.isActionOn operatorId target)
  cost := Op.entries (k.isEntryOn operatorId target)
  spent w := w.entries (k.isEntryOn operatorId target)
  earned w := w.actions (k.isActionOn operatorId target)
  share _ _ := 0
  execution := 0
  returned := 0
  free op hop := by
    cases op with
    | insertAuditEntry c => exact if_neg fun h => hop (.inl (of_decide_eq_true h).1)
    | _ => rfl
  paid k' operatorId' := by
    refine OperatorCommand.paid fun target' payload metadata =>
      ⟨0, 0, le_rfl, ?_, fun _ _ => Nat.zero_le _⟩
    simp only [Op.entries, Op.actions, Nat.zero_add]
    split_ifs with hentry haction
    · exact le_rfl
    · obtain ⟨-, hoperator, hsame, htype, htarget⟩ := of_decide_eq_true hentry
      cases OperatorCommand.entry_injective hsame
      exact absurd (decide_eq_true ⟨Option.some.inj hoperator, rfl, rfl, htarget⟩) haction
    · exact Nat.zero_le _
    · exact le_rfl
  started c hc := by
    refine (if_neg fun h => ?_).le
    cases hc.symm.trans (of_decide_eq_true h).1
  spends h := (perform_entries _ h).le
  earns h := (perform_actions _ h).ge
  handOut _ := ⟨le_rfl, rfl⟩
  redeliver h := by
    obtain ⟨d, -, rfl⟩ := Option.map_eq_some_iff.mp h
    exact ⟨le_rfl, rfl⟩
  unlock _ _ _ := ⟨rfl, rfl⟩

/-- The audit entry of a command that sends a message for the job. -/
def isQueuedFor (jobId : Uuid) (c : CreateAuditEntryInput) : Bool :=
  decide (isQueued c ∧ c.entityId = some jobId)

/-- Messages are paid for by audit entries. -/
def messagesTariff (jobId : Uuid) : Tariff where
  gain := Op.entries (isQueuedFor jobId)
  cost := Op.messages jobId
  spent w := w.messages jobId
  earned w := w.entries (isQueuedFor jobId)
  share _ _ := 0
  execution := 0
  returned := 0
  free op hop := by
    cases op with
    | sendToQueue message => exact absurd trivial hop
    | _ => rfl
  paid k operatorId := by
    refine OperatorCommand.paid fun target payload metadata =>
      ⟨0, 0, le_rfl, Nat.zero_le _, fun hk reason => ?_⟩
    simp only [Op.messages, Op.entries, Nat.zero_add]
    split_ifs with hjob hqueued
    · exact le_rfl
    · exact absurd (decide_eq_true ⟨isQueued_logs hk, hjob⟩) hqueued
    · exact Nat.zero_le _
    · exact le_rfl
  started c _ := le_rfl
  spends h := perform_messages _ h
  earns h := (perform_entries _ h).ge
  handOut h := ⟨(messages_handOut _ h).le, rfl⟩
  redeliver h := by
    refine ⟨messages_redeliver _ h, ?_⟩
    obtain ⟨d, -, rfl⟩ := Option.map_eq_some_iff.mp h
    rfl
  unlock _ _ _ := ⟨rfl, rfl⟩

/-- Executions are paid for by the audit entries of the commands that sent the messages, and by
deliveries that came back. -/
def executionsTariff : Tariff where
  gain := Op.entries isQueued
  cost op := op.entries isStart + op.sends.toList.length
  spent w := w.entries isStart + w.ready.length
  earned w := w.entries isQueued
  share _ _ := 0
  execution := 1
  returned := 1
  free op hop := by
    cases op with
    | sendToQueue message => exact absurd trivial hop
    | insertAuditEntry c => exact if_neg fun h => hop (.inr (of_decide_eq_true h))
    | _ => rfl
  paid k operatorId := by
    refine OperatorCommand.paid fun target payload metadata =>
      ⟨0, 0, le_rfl, ?_, fun hk reason => ?_⟩
    · cases k <;> exact Nat.zero_le _
    · simp only [Op.entries, if_pos (isQueued_logs hk)]
      exact le_rfl
  started c _ := by
    change (if _ then 1 else 0) + 0 ≤ 1
    split_ifs <;> omega
  spends h := by
    rw [perform_entries _ h, (perform_queue h).1, List.length_append]
    omega
  earns h := (perform_entries _ h).ge
  handOut {n w m} h := by
    have hlt := (List.getElem?_eq_some_iff.mp h).1
    refine ⟨?_, rfl⟩
    change w.entries isStart + (w.ready.eraseIdx n).length + 1 ≤ w.entries isStart + w.ready.length
    rw [List.length_eraseIdx_of_lt hlt]
    omega
  redeliver {tag w w'} h := by
    obtain ⟨d, -, rfl⟩ := Option.map_eq_some_iff.mp h
    refine ⟨?_, rfl⟩
    change w.entries isStart + (w.ready ++ [d.message]).length ≤
      w.entries isStart + w.ready.length + 1
    rw [List.length_append]
    exact le_rfl
  unlock _ _ _ := ⟨rfl, rfl⟩

/-- The request asks for the command for the operator. -/
def Site.AsksFor (site : Site) (k : OperatorCommand) (operatorId : String) : SiteMove → Prop
  | .request _ request => site.books request = some (k, operatorId)
  | _ => False

instance (site : Site) (k : OperatorCommand) (operatorId : String) :
    DecidablePred (site.AsksFor k operatorId)
  | .request _ _ => inferInstanceAs (Decidable (_ = _))
  | .deliver _ _ | .step _ _ | .stop _ | .redeliver _ | .expire _ _ | .broadcast _ | .settle
  | .recover | .socket _ => .isFalse id

/-- A delivery that was not settled comes back. -/
def SiteMove.Returns : SiteMove → Prop
  | .redeliver _ => True
  | _ => False

instance : DecidablePred SiteMove.Returns
  | .redeliver _ => .isTrue trivial
  | .request _ _ | .deliver _ _ | .step _ _ | .stop _ | .expire _ _ | .broadcast _ | .settle
  | .recover | .socket _ => .isFalse id

/-- The books of a run are in order. -/
structure Site.InOrder (site : Site) (ms : List SiteMove) (w : World) : Prop where
  /-- An operator has no more actions than requests asked for. -/
  actions : ∀ (k : OperatorCommand) (operatorId : String),
    w.actions (k.isAction operatorId) ≤ ms.countP (site.AsksFor k operatorId)
  /-- An operator has no more audit entries about a row than actions on it. -/
  entries : ∀ (k : OperatorCommand) (operatorId : String) (target : Uuid),
    w.entries (k.isEntryOn operatorId target) ≤ w.actions (k.isActionOn operatorId target)
  /-- There are no more messages for a job than audit entries of commands that send one. -/
  messages : ∀ jobId, w.messages jobId ≤ w.entries (isQueuedFor jobId)
  /-- No more executions have started or wait than such commands were recorded and deliveries came
  back. -/
  executions : w.entries isStart + w.ready.length ≤ w.entries isQueued + ms.countP SiteMove.Returns

/-- In every run the books are in order : what an operator did is recorded at most once for each
request of the operator with a valid token that asked for it, each record is followed at most once
by what it goes with, and each message is executed at most once for each time it was handed out. -/
theorem accounted {site : Site} {ms : List SiteMove} {s : Deployment}
    (h : ms.foldlM site.step .init = some s) : site.InOrder ms s.world where
  actions k operatorId := by
    refine ((actionsTariff k operatorId).balance (p := site.AsksFor k operatorId) rfl
      (fun m => ?_) h).trans_eq (Nat.zero_add _)
    cases m with
    | request i request =>
      have hasks : site.AsksFor k operatorId (.request i request) ↔
          site.books request = some (k, operatorId) := Iff.rfl
      rw [Tariff.income]
      cases hbooks : site.books request with
      | none => rw [if_neg (by simp [hasks, hbooks])]
      | some asked => exact if_congr (by simp [hasks, hbooks, Prod.ext_iff]) rfl rfl
    | _ => rfl
  entries k operatorId target := by
    refine (entriesTariff k operatorId target).balance_alone rfl (fun m => ?_) h
    cases m with
    | request i request => exact Tariff.income_request fun _ _ => rfl
    | _ => rfl
  messages jobId := by
    refine (messagesTariff jobId).balance_alone rfl (fun m => ?_) h
    cases m with
    | request i request => exact Tariff.income_request fun _ _ => rfl
    | _ => rfl
  executions := by
    refine executionsTariff.balance rfl (fun m => ?_) h
    cases m with
    | request i request => exact Tariff.income_request fun _ _ => rfl
    | _ => rfl

/-- An operator creates a job, and a worker starts on it. -/
def creatingAndStarting : List SiteMove :=
  creating ++ .deliver 1 0 :: answers 1 6 11

/-- The action, the audit entry and the start are each there once. -/
theorem accounted_started : ∃ s, creatingAndStarting.foldlM defaultSite.step .init = some s ∧
    defaultSite.InOrder creatingAndStarting s.world ∧
    s.world.actions (OperatorCommand.createJob.isAction "alice") = 1 ∧
    s.world.entries isQueued = 1 ∧ s.world.entries isStart = 1 ∧ s.world.ready = [] := by
  obtain ⟨s, hs⟩ := Option.isSome_iff_exists.mp
    (by decide : (creatingAndStarting.foldlM defaultSite.step .init).isSome)
  have hcounts : ∀ s ∈ creatingAndStarting.foldlM defaultSite.step .init,
      s.world.actions (OperatorCommand.createJob.isAction "alice") = 1 ∧
        s.world.entries isQueued = 1 ∧ s.world.entries isStart = 1 ∧ s.world.ready = [] := by
    decide
  exact ⟨s, hs, accounted hs, hcounts s hs⟩

end RealtimeOps
