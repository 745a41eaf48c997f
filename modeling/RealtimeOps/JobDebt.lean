import RealtimeOps.Interleaving.Phase
import RealtimeOps.Platform

/-!
# Writing a job and logging it

Each call that saves a job logs it in an awaited call of its own, some steps later. In between it
owes the audit log an entry. `owed` reads off the answered calls of a thread the row whose entry
it owes, and `Clears` says which entry settles the debt.

`debtMachine` has this debt as its phase. Every call of the platform simulates it from nothing
owed (`sim_debt`) : it saves a job, and inserts an attempt, only when it owes nothing, the next
entry it logs about a job is the one it owes, and it owes nothing when it returns.
-/

set_option autoImplicit false

namespace RealtimeOps

open Interleaving JobService JobProcessorService

/-! ## Entries and debts -/

/-- The status that an action on a job leaves it in. -/
def jobStatusAfter : String → Option JobStatus
  | "job.created" | "job.retried" => some .QUEUED
  | "job.processing" => some .PROCESSING
  | "job.completed" => some .COMPLETED
  | "job.failed" => some .FAILED
  | _ => none

theorem jobStatusAfter_eq_processing {action : String} :
    jobStatusAfter action = some .PROCESSING ↔ action = "job.processing" := by
  constructor
  · intro h
    unfold jobStatusAfter at h
    split at h
    all_goals first | rfl | cases h
  · rintro rfl
    rfl

/-- The entry tells the status of the row, and for a job in processing the attempt. -/
structure Clears (c : CreateAuditEntryInput) (row : JobEntity) : Prop where
  entityType : c.entityType = .JOB
  entityId : c.entityId = some row.id
  status : jobStatusAfter c.action = some row.status
  attempt : row.status = .PROCESSING →
    c.metadata.lookup "attemptNumber" = some (.num row.attemptCount)

/-- The call logs something about a job. -/
def Op.logsJob : Op → Bool
  | .insertAuditEntry c => c.entityType = .JOB
  | _ => false

/-- The row of a job that a resolved call has written. -/
def Op.writes : (op : Op) → op.Reply → Option JobEntity
  | .insertJob _, row => some row
  | .saveJob _, row => some row
  | _, _ => none

/-- What is owed after a resolved call. -/
def Op.debt (op : Op) (reply : op.Reply) (owed : Option JobEntity) : Option JobEntity :=
  match op.writes reply with
  | some row => some row
  | none => if op.logsJob then none else owed

/-- What is owed after an answered call. -/
def debtEntry (owed : Option JobEntity) (x : Entry infrastructure Failure Env) :
    Option JobEntity :=
  match x.reply with
  | .ok reply => x.op.debt reply owed
  | .error _ => owed

/-- The row of a job that the calls have written and not logged. -/
def owed (past : List (Entry infrastructure Failure Env)) : Option JobEntity :=
  past.foldl debtEntry none

/-- What thread `i` owes the audit log. -/
def owes (s : State) (i : ℕ) : Option JobEntity :=
  owed (s.past i)

theorem owed_concat (past : List (Entry infrastructure Failure Env)) (i : ℕ) (e : Env) (op : Op)
    (reply : op.Reply) : owed (past ++ [⟨i, e, op, .ok reply⟩]) = op.debt reply (owed past) := by
  simp [owed, debtEntry]

/-- A call keeps its accounts : it does not write a job, or insert an attempt, while it owes an
entry, and logs what it owes. -/
def Permits : Op → Option JobEntity → Prop
  | .insertJob _, owed | .saveJob _, owed | .insertAttempt _, owed => owed = none
  | .insertAuditEntry c, owed => c.entityType = .JOB → ∃ row ∈ owed, Clears c row
  | _, _ => True

/-! ## The machine -/

/-- What a thread owes, as long as none of its calls has been rejected. -/
inductive Debt where
  | fine (owed : Option JobEntity)
  | lost

/-- What an answered call does to the debt. -/
inductive DebtMove (op : Op) : Except Failure op.Reply → Debt → Debt → Prop where
  | done {owed : Option JobEntity} (reply : op.Reply) (h : Permits op owed) :
    DebtMove op (.ok reply) (.fine owed) (.fine (op.debt reply owed))
  | failed (err : Failure) (q : Debt) : DebtMove op (.error err) q .lost
  | lost (r : Except Failure op.Reply) : DebtMove op r .lost .lost

/-- Nothing is owed. -/
def Debt.Clear {α : Type} : Debt → Except Failure α → Prop
  | .fine owed, _ => owed = none
  | .lost, _ => True

/-- The debts of the threads. -/
abbrev debtMachine : PhaseMachine infrastructure Failure Result Env World where
  Phase := Debt
  Move _ op r _ q _ q' := DebtMove op r q q'
  Ends := Debt.Clear

/-- The program keeps its accounts and ends with nothing owed. -/
abbrev DebtSim {α : Type} (q : Debt) (p : Promise α) : Prop :=
  debtMachine.Sim handle Debt.Clear q p

section Await

variable {α : Type} {row : JobEntity} {owed : Option JobEntity}

/-- After a rejected call nothing is asked any more. -/
theorem sim_debt_lost (p : Promise α) : DebtSim .lost p := by
  induction p with
  | ret a => trivial
  | throw err => trivial
  | call op k ih => exact fun e w => ⟨.lost, .lost _, ih _⟩

theorem sim_debt_await {op : Op} {f : op.Reply → Promise α} (hop : Permits op owed)
    (hf : ∀ e (w : World) reply w', perform e w op = some (reply, w') →
      DebtSim (.fine (op.debt reply owed)) (f reply)) :
    DebtSim (.fine owed) ((await op).bind f) := by
  intro e w
  cases hh : handle e op w with
  | mk r w' =>
    cases r with
    | error err => exact ⟨.lost, .failed err _, trivial⟩
    | ok reply => exact ⟨_, .done reply hop, hf e _ reply w' (handle_eq_ok hh).1⟩

/-- A call that writes no job and logs nothing about one. -/
theorem sim_debt_step {op : Op} {f : op.Reply → Promise α} (hop : Permits op owed)
    (hkeep : ∀ reply, op.debt reply owed = owed)
    (hf : ∀ reply, DebtSim (.fine owed) (f reply)) :
    DebtSim (.fine owed) ((await op).bind f) :=
  sim_debt_await hop fun _ _ reply _ _ => (hkeep reply).symm ▸ hf reply

/-- A job is saved; its entry is owed. -/
theorem sim_debt_save {job : JobEntity} {f : JobEntity → Promise α}
    (hf : ∀ now, DebtSim (.fine (some { job with updatedAt := now }))
      (f { job with updatedAt := now })) :
    DebtSim (.fine none) ((await (.saveJob job)).bind f) := by
  refine sim_debt_await rfl fun e w reply w' hp => ?_
  cases hp
  exact hf _

/-- The entry owed is logged. -/
theorem sim_debt_log {c : CreateAuditEntryInput} {f : AuditEntryEntity → Promise α}
    (hc : Clears c row) (hf : ∀ entry, DebtSim (.fine none) (f entry)) :
    DebtSim (.fine (some row)) ((await (.insertAuditEntry c)).bind f) := by
  refine sim_debt_await (fun _ => ⟨row, rfl, hc⟩) fun e w reply w' hp => ?_
  have hnone : (Op.insertAuditEntry c).debt reply (some row) = none := by
    simp [Op.debt, Op.writes, Op.logsJob, hc.entityType]
  rw [hnone]
  exact hf reply

theorem sim_debt_last {op : Op} (hop : Permits op none)
    (hkeep : ∀ reply, op.debt reply none = none) : DebtSim (.fine none) (await op) := by
  rw [← Prog.bind_ret (await op)]
  exact sim_debt_step hop hkeep fun _ => rfl

/-- First `p`, then `f` of its value, each from nothing owed. -/
theorem sim_debt_bind {β : Type} {q : Debt} {p : Promise α} {f : α → Promise β}
    (hp : DebtSim q p) (hf : ∀ a, DebtSim (.fine none) (f a)) : DebtSim q (p.bind f) := by
  refine PhaseMachine.Sim.bind (M := debtMachine) ?_ ?_ hp
  · rintro (owed | _) a hq
    · cases hq
      exact hf a
    · exact sim_debt_lost _
  · rintro (owed | _) err hq
    · exact hq
    · trivial

end Await

/-! ## The functions of the services -/

/-- What `create` and `retry` do once the row is saved. -/
theorem sim_debt_announce {job : JobEntity} {action : OperatorActionColumns}
    {entry : CreateAuditEntryInput} {notification : CreateNotificationInput}
    {reason operatorId topic : String} {payload : Record} (hc : Clears entry job) :
    DebtSim (.fine (some job))
      (do
        let _ ← await (.insertOperatorAction action)
        let _ ← AuditService.log entry
        let notification ← NotificationService.create notification
        RabbitMqService.publishToQueue job.id reason operatorId
        RabbitMqService.publishEvent topic payload
        RealtimeEventPublisher.publishNotificationCreated notification.createdPayload
        return job) := by
  refine sim_debt_step trivial (fun _ => rfl) fun _ => ?_
  refine sim_debt_log hc fun _ => ?_
  refine sim_debt_step trivial (fun _ => rfl) fun _ => ?_
  refine sim_debt_step trivial (fun _ => rfl) fun _ => ?_
  refine sim_debt_step trivial (fun _ => rfl) fun _ => ?_
  refine sim_debt_step trivial (fun _ => rfl) fun _ => ?_
  rfl

theorem sim_debt_create (input : CreateJobInput) :
    DebtSim (.fine none) (JobService.create input) := by
  unfold JobService.create
  refine sim_debt_await rfl fun e w row w' hp => ?_
  obtain ⟨-, t, -, rfl, -⟩ := perform_insertJob hp
  exact sim_debt_announce ⟨rfl, rfl, rfl, by simp [newJob]⟩

theorem sim_debt_retry (jobId : Uuid) (operatorId : String) :
    DebtSim (.fine none) (JobService.retry jobId operatorId) := by
  unfold JobService.retry
  rw [Prog.bind_eq, JobService.getById_bind]
  refine sim_debt_step trivial (fun _ => rfl) fun found => ?_
  cases found with
  | none => rfl
  | some job =>
    dsimp only
    split_ifs
    · rfl
    · rfl
    refine sim_debt_save fun now => ?_
    exact sim_debt_announce ⟨rfl, rfl, rfl, by simp [requeued]⟩

theorem sim_debt_getStatus (jobId : Uuid) :
    DebtSim (.fine none) (JobService.getStatus jobId) := by
  unfold JobService.getStatus
  rw [Prog.bind_eq, JobService.getById_bind]
  refine sim_debt_step trivial (fun _ => rfl) fun found => ?_
  cases found with
  | none => rfl
  | some job => exact sim_debt_step trivial (fun _ => rfl) fun _ => rfl

theorem sim_debt_markCompleted (job : JobEntity) (attempt : ProcessingAttemptEntity) :
    DebtSim (.fine none) (markCompleted job attempt) := by
  unfold markCompleted
  refine sim_debt_step trivial (fun _ => rfl) fun finishedAt => ?_
  refine sim_debt_step trivial (fun _ => rfl) fun attempt => ?_
  refine sim_debt_save fun now => ?_
  refine sim_debt_step trivial (fun _ => rfl) fun _ => ?_
  refine sim_debt_log ⟨rfl, rfl, rfl, by simp [completed]⟩ fun _ => ?_
  refine sim_debt_step trivial (fun _ => rfl) fun _ => ?_
  exact sim_debt_last trivial fun _ => rfl

/-- A report starts with the failure of the job still to be logged. -/
theorem sim_debt_reportFailure {job : JobEntity} (hs : job.status = .FAILED)
    (attempt : ProcessingAttemptEntity) (errorMessage : String) (finishedAt : Date)
    (alert : AlertEntity) (incident : Option IncidentEntity) :
    DebtSim (.fine (some job))
      (reportFailure job attempt errorMessage finishedAt alert incident) := by
  unfold reportFailure
  refine sim_debt_step trivial (fun _ => rfl) fun _ => ?_
  refine sim_debt_log ⟨rfl, rfl, hs ▸ rfl, by simp [hs]⟩ fun _ => ?_
  refine sim_debt_step (fun h => by cases h) (fun _ => rfl) fun _ => ?_
  cases incident with
  | none =>
    refine sim_debt_step trivial (fun _ => rfl) fun _ => ?_
    refine sim_debt_step trivial (fun _ => rfl) fun _ => ?_
    exact sim_debt_last trivial fun _ => rfl
  | some incident =>
    refine sim_debt_step (fun h => by cases h) (fun _ => rfl) fun _ => ?_
    refine sim_debt_step trivial (fun _ => rfl) fun _ => ?_
    refine sim_debt_step trivial (fun _ => rfl) fun _ => ?_
    refine sim_debt_step trivial (fun _ => rfl) fun _ => ?_
    exact sim_debt_last trivial fun _ => rfl

theorem sim_debt_markFailed (job : JobEntity) (attempt : ProcessingAttemptEntity)
    (errorMessage : String) :
    DebtSim (.fine none) (markFailed job attempt errorMessage) := by
  unfold markFailed
  refine sim_debt_step trivial (fun _ => rfl) fun finishedAt => ?_
  refine sim_debt_step trivial (fun _ => rfl) fun attempt => ?_
  refine sim_debt_save fun now => ?_
  refine sim_debt_step trivial (fun _ => rfl) fun alert => ?_
  split_ifs
  · refine sim_debt_step trivial (fun _ => rfl) fun incident => ?_
    exact sim_debt_reportFailure rfl _ _ _ _ _
  · exact sim_debt_reportFailure rfl _ _ _ _ _

theorem sim_debt_processJob (input : ProcessJobInput) (job : JobEntity) :
    DebtSim (.fine none) (processJob input job) := by
  unfold processJob
  refine sim_debt_step trivial (fun _ => rfl) fun startedAt => ?_
  refine sim_debt_save fun now => ?_
  refine sim_debt_step trivial (fun _ => rfl) fun _ => ?_
  refine sim_debt_log ⟨rfl, rfl, rfl, fun _ => ?_⟩ fun _ => ?_
  · simp [started]
  refine sim_debt_step rfl (fun _ => rfl) fun attempt => ?_
  refine sim_debt_step trivial (fun _ => rfl) fun _ => ?_
  split
  · exact sim_debt_markFailed _ _ _
  · exact sim_debt_markCompleted _ _

theorem sim_debt_process (input : ProcessJobInput) :
    DebtSim (.fine none) (process input) := by
  unfold process
  refine sim_debt_step trivial (fun _ => rfl) fun acquired => ?_
  cases acquired with
  | false => rfl
  | true =>
    refine PhaseMachine.Sim.tryFinally (M := debtMachine) (Q := Debt.Clear) ?_ ?_
    · rintro (owed | _) r hq
      · cases hq
        refine sim_debt_step trivial (fun _ => rfl) fun _ => ?_
        exact PhaseMachine.sim_resolve.mpr rfl
      · exact sim_debt_lost _
    · refine sim_debt_step trivial (fun _ => rfl) fun found => ?_
      cases found with
      | none => rfl
      | some job => exact sim_debt_processJob input job

theorem sim_debt_consume (delivery : Delivery) :
    DebtSim (.fine none)
      (RabbitMqService.consumeCallback JobProcessingConsumer.onMessage delivery) := by
  unfold RabbitMqService.consumeCallback
  refine PhaseMachine.Sim.tryCatch (M := debtMachine) (Q := Debt.Clear)
    (fun _ _ h => h) ?_ ?_
  · rintro (owed | _) err hq
    · cases hq
      exact sim_debt_last trivial fun _ => rfl
    · exact sim_debt_lost _
  · obtain ⟨tag, ⟨content⟩⟩ := delivery
    cases content with
    | none => rfl
    | some payload =>
      refine sim_debt_bind ?_ fun _ => sim_debt_last trivial fun _ => rfl
      unfold JobProcessingConsumer.onMessage
      split
      · rfl
      · exact sim_debt_process _

/-- Every call of the platform keeps its accounts. -/
theorem sim_debt (call : Call) : DebtSim (.fine none) call.prog := by
  cases call with
  | create input => exact sim_debt_bind (sim_debt_create input) fun _ => rfl
  | retry jobId operatorId =>
    exact sim_debt_bind (sim_debt_retry jobId operatorId) fun _ => rfl
  | getStatus jobId => exact sim_debt_bind (sim_debt_getStatus jobId) fun _ => rfl
  | process input => exact sim_debt_bind (sim_debt_process input) fun _ => rfl
  | consume delivery => exact sim_debt_bind (sim_debt_consume delivery) fun _ => rfl

end RealtimeOps
