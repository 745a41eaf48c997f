import RealtimeOps.Abandonment
import RealtimeOps.Interleaving.Exclusive
import RealtimeOps.Permanence

/-!
# Setting up the database

The scripts that run before the services : `migrate`, `db-setup`, which waits for the database,
runs the migrations and seeds an empty database, and `seed`. `seedRunner` saves three jobs, then an
alert, an incident and a notification, and then three audit entries, each `save` in a transaction of
its own.

However the scripts fail, die and overlap, the services start on tables in which the constraints of
the schema hold, and a sample job that has not failed stays as it is for ever, for no message was
sent for it (`setup_sound`). If no script starts before the others have ended then there is one
sample at most, whole or cut short (`seeded_once`).
-/

set_option autoImplicit false

namespace RealtimeOps

open Interleaving

/-! ## Calls of the scripts -/

/-- The calls a script awaits. -/
inductive SetupOp where
  /-- `AppDataSource.initialize()`. -/
  | connect
  | runMigrations
  | destroy
  /-- `new Date()`. -/
  | now
  /-- `setTimeout`. -/
  | sleep (ms : ℕ)
  /-- `SELECT COUNT(1)` of the jobs. -/
  | countJobs
  | saveJobs (rows : List JobColumns)
  | saveAlert (c : AlertColumns)
  | saveIncident (c : IncidentColumns)
  | saveNotification (c : NotificationColumns)
  | saveAuditEntries (rows : List CreateAuditEntryInput)

/-- What a call is answered with. -/
def SetupOp.Reply : SetupOp → Type
  | now => Date
  | countJobs => ℕ
  | saveJobs _ => List JobEntity
  | saveAlert _ => AlertEntity
  | saveIncident _ => IncidentEntity
  | saveNotification _ => NotificationEntity
  | saveAuditEntries _ => List AuditEntryEntity
  | connect | runMigrations | destroy | sleep _ => Unit

/-- Why a script ends with an error. -/
inductive SetupFailure where
  | rejected
  | error (message : String)
  /-- The process running the script died. -/
  | stopped
  deriving DecidableEq

/-- The calls of the scripts with their replies. -/
abbrev setupCalls : Signature :=
  ⟨SetupOp, SetupOp.Reply⟩

/-- An async function of a script. -/
abbrev SetupPromise (α : Type) :=
  Prog setupCalls SetupFailure α

/-- `await` one call. -/
abbrev setupAwait (op : SetupOp) : SetupPromise op.Reply :=
  Prog.await (S := setupCalls) op

/-- What the environment chooses at a call : its time, the ids the database generates, and whether
it goes through. -/
structure SetupEnv where
  now : Date
  uuids : List Uuid
  outcome : Outcome

/-- Save new rows, all or none. -/
def saveAll {γ ρ : Type} (insert : Env → World → γ → Option (ρ × World)) (now : Date) :
    List γ → List Uuid → World → Option (List ρ × World)
  | [], _, w => some ([], w)
  | _ :: _, [], _ => none
  | c :: cs, id :: ids, w =>
    (insert ⟨now, id, .resolves⟩ w c).bind fun (row, w) =>
      (saveAll insert now cs ids w).map fun (rows, w) => (row :: rows, w)

/-- Save one new row. -/
def saveOne {ρ : Type} (insert : Env → Option (ρ × World)) (e : SetupEnv) : Option (ρ × World) :=
  e.uuids.head?.bind fun id => insert ⟨e.now, id, .resolves⟩

namespace SetupOp

/-- The effect of a call that goes through; `none` if the database refuses it. The migrations make
the tables, which are there from the start. -/
def perform (e : SetupEnv) (w : World) : (op : SetupOp) → Option (op.Reply × World)
  | now => some (e.now, w)
  | countJobs => some (w.jobs.rows.length, w)
  | saveJobs rows =>
    saveAll (fun e w c => RealtimeOps.perform e w (.insertJob c)) e.now rows e.uuids w
  | saveAlert c => saveOne (fun e => RealtimeOps.perform e w (.insertAlert c)) e
  | saveIncident c => saveOne (fun e => RealtimeOps.perform e w (.insertIncident c)) e
  | saveNotification c => saveOne (fun e => RealtimeOps.perform e w (.insertNotification c)) e
  | saveAuditEntries rows =>
    saveAll (fun e w c => RealtimeOps.perform e w (.insertAuditEntry c)) e.now rows e.uuids w
  | connect | runMigrations | destroy | sleep _ => some ((), w)

/-- A call that asks no other system. -/
def Local : SetupOp → Prop
  | now | sleep _ => True
  | _ => False

instance : DecidablePred Local
  | now | sleep _ => .isTrue trivial
  | connect | runMigrations | destroy | countJobs | saveJobs _ | saveAlert _ | saveIncident _
  | saveNotification _ | saveAuditEntries _ => .isFalse id

/-- A call that leaves the tables alone. -/
def Idle : SetupOp → Prop
  | connect | runMigrations | destroy | sleep _ => True
  | _ => False

theorem Idle.perform_eq {e : SetupEnv} {op : SetupOp} {reply : op.Reply} {w w' : World}
    (hop : op.Idle) (h : op.perform e w = some (reply, w')) : w' = w := by
  cases op with
  | connect | runMigrations | destroy | sleep =>
    cases h
    rfl
  | _ => cases hop

end SetupOp

/-- Answer a call of a script. -/
def setupHandle : Handler setupCalls SetupFailure SetupEnv World := fun e op w =>
  let w := { w with clock := e.now }
  match op.perform e w with
  | none => (.error .rejected, w)
  | some (reply, w') =>
    if op.Local then (.ok reply, w')
    else match e.outcome with
      | .resolves => (.ok reply, w')
      | .rejects => (.error .rejected, w)
      | .rejectsAfterEffect => (.error .rejected, w')

/-! ## The scripts -/

/-- The jobs of the sample. -/
def sampleJobs (now : Date) : List JobColumns :=
  [{ name := "Daily payment reconciliation"
     type := "financial-reconciliation"
     payload := [("source", .str "payments"), ("failTimes", .num 0)]
     status := .COMPLETED
     priority := 3
     attemptCount := 1
     maxAttempts := 3
     lastError := none
     startedAt := some (now - 1000 * 60 * 20)
     completedAt := some (now - 1000 * 60 * 18) },
   { name := "Warehouse sync"
     type := "inventory-sync"
     payload := [("source", .str "warehouse"), ("failTimes", .num 2)]
     status := .FAILED
     priority := 4
     attemptCount := 2
     maxAttempts := 4
     lastError := some "Processing failed on attempt 2"
     startedAt := some (now - 1000 * 60 * 10)
     completedAt := some (now - 1000 * 60 * 9) },
   { name := "Incident trend indexing"
     type := "analytics-index"
     payload := [("source", .str "incident-events"), ("failTimes", .num 1)]
     status := .QUEUED
     priority := 2
     attemptCount := 0
     maxAttempts := 3
     lastError := none
     startedAt := none
     completedAt := none }]

/-- The alert of the failing sample job. -/
def sampleAlert (failingJob : JobEntity) : AlertColumns where
  jobId := some failingJob.id
  source := "processing-service"
  severity := .CRITICAL
  status := .OPEN
  title := "Warehouse sync failure threshold reached"
  description := "Repeated failures exceeded expected retry behavior."

/-- The incident opened for the sample alert. -/
def sampleIncident (criticalAlert : AlertEntity) : IncidentColumns where
  alertId := some criticalAlert.id
  title := "Warehouse data freshness incident"
  summary := "Inventory feed has not updated for 30 minutes."
  status := .OPEN

/-- The notification of the sample alert. -/
def sampleNotification (failingJob : JobEntity) (criticalAlert : AlertEntity)
    (incident : IncidentEntity) : NotificationColumns where
  type := .ALERT
  message := "Critical alert created for warehouse sync pipeline"
  metadata :=
    [("jobId", .uuid failingJob.id), ("alertId", .uuid criticalAlert.id),
      ("incidentId", .uuid incident.id)]
  channel := "operator_feed"
  readAt := none

/-- The audit entries of the sample rows. -/
def sampleAuditEntries (primaryJob : JobEntity) (criticalAlert : AlertEntity)
    (incident : IncidentEntity) (notification : NotificationEntity) :
    List CreateAuditEntryInput :=
  [{ actorType := .SYSTEM
     actorId := none
     action := "seed.job.created"
     entityType := .JOB
     entityId := some primaryJob.id
     metadata := [] },
   { actorType := .SYSTEM
     actorId := none
     action := "seed.alert.created"
     entityType := .ALERT
     entityId := some criticalAlert.id
     metadata := [("incidentId", .uuid incident.id)] },
   { actorType := .SYSTEM
     actorId := none
     action := "seed.notification.created"
     entityType := .NOTIFICATION
     entityId := some notification.id
     metadata := [("type", .str notification.type.value)] }]

/-- The sample rows, one table after the other and with no transaction. -/
def seedRunner : SetupPromise Unit := do
  let now ← setupAwait .now
  let seededJobs ← setupAwait (.saveJobs (sampleJobs now))
  match seededJobs with
  | primaryJob :: failingJob :: _ =>
    let criticalAlert ← setupAwait (.saveAlert (sampleAlert failingJob))
    let incident ← setupAwait (.saveIncident (sampleIncident criticalAlert))
    let notification ← setupAwait
      (.saveNotification (sampleNotification failingJob criticalAlert incident))
    let _ ← setupAwait
      (.saveAuditEntries (sampleAuditEntries primaryJob criticalAlert incident notification))
    return ()
  | _ => .throw (.error "Seed job creation failed")

/-- `seedIfEmpty` of `db-setup`, and the same check in `seed`. -/
def seedIfEmpty : SetupPromise Unit := do
  let count : ℕ ← setupAwait .countJobs
  if count > 0 then return ()
  else seedRunner

/-- What is left of `waitForDatabase` with `n` attempts to go. -/
def waitForDatabase : ℕ → SetupPromise Unit
  | 0 => .throw (.error "Database did not become available in time")
  | n + 1 => Prog.tryCatch (setupAwait .connect)
      fun _ => (setupAwait (.sleep 2000)).bind fun _ => waitForDatabase n

/-- `MAX_RETRIES`. -/
def maxRetries : ℕ :=
  30

/-- The scripts. -/
inductive Script where
  | migrate
  | dbSetup
  | seed
  deriving DecidableEq

/-- What a script does. -/
def Script.prog : Script → SetupPromise Unit
  | migrate => do
    setupAwait .connect
    setupAwait .runMigrations
    setupAwait .destroy
  | dbSetup => do
    waitForDatabase maxRetries
    setupAwait .runMigrations
    seedIfEmpty
    setupAwait .destroy
  | seed => do
    setupAwait .connect
    seedIfEmpty
    setupAwait .destroy

/-! ## Runs of the scripts -/

/-- The scripts that run on the database. -/
abbrev Setup :=
  Pool setupCalls SetupFailure Unit SetupEnv World

namespace Setup

/-- No script has started, and the tables are empty. -/
def init : Setup :=
  ⟨.empty, [], []⟩

/-- What can happen to the scripts. -/
inductive Label where
  | start (script : Script)
  | step (i : ℕ) (e : SetupEnv)
  /-- The process running script `i` dies. -/
  | stop (i : ℕ)

/-- One move. The clock only moves forward. -/
def step (s : Setup) : Label → Option Setup
  | .start script => some (s.spawn script.prog)
  | .step i e => if s.world.clock ≤ e.now then s.advance setupHandle i e else none
  | .stop i => if (s.awaited i).isSome then some (s.halt i .stopped) else none

/-- A script starts only when all others have ended. -/
def Alone (s : Setup) : Label → Prop
  | .start _ => ∀ i < s.threads.length, (s.awaited i).isNone = true
  | _ => True

instance (s : Setup) : DecidablePred s.Alone
  | .start _ => inferInstanceAs (Decidable (∀ i < _, _))
  | .step _ _ | .stop _ => .isTrue trivial

end Setup

/-! ## What a call does -/

section Calls

variable {e : SetupEnv} {op : SetupOp} {reply : op.Reply} {w w' : World}

theorem setupHandle_world (e : SetupEnv) (op : SetupOp) (w : World) :
    (setupHandle e op w).2 = { w with clock := e.now } ∨
      ∃ reply, op.perform e { w with clock := e.now } = some (reply, (setupHandle e op w).2) := by
  unfold setupHandle
  dsimp only
  split
  · exact .inl rfl
  · rename_i reply w' hp
    split_ifs
    · exact .inr ⟨reply, hp⟩
    · split
      · exact .inr ⟨reply, hp⟩
      · exact .inl rfl
      · exact .inr ⟨reply, hp⟩

theorem setupHandle_eq_ok (h : setupHandle e op w = (.ok reply, w')) :
    op.perform e { w with clock := e.now } = some (reply, w') := by
  unfold setupHandle at h
  dsimp only at h
  split at h
  · cases h
  · rename_i hp
    split_ifs at h
    · cases h
      exact hp
    · split at h <;> cases h
      exact hp

theorem saveOne_eq_some {ρ : Type} {insert : Env → Option (ρ × World)} {row : ρ}
    (h : saveOne insert e = some (row, w')) : ∃ e, insert e = some (row, w') := by
  obtain ⟨id, -, h⟩ := Option.bind_eq_some_iff.mp h
  exact ⟨_, h⟩

/-- What relates the worlds before and after each insertion relates those before and after all. -/
theorem saveAll_induction {γ ρ : Type} {insert : Env → World → γ → Option (ρ × World)} {now : Date}
    {P : List γ → List ρ → World → World → Prop} (hnil : ∀ w, P [] [] w w)
    (hcons : ∀ {e w c row w' cs rows w''}, insert e w c = some (row, w') → P cs rows w' w'' →
      P (c :: cs) (row :: rows) w w'') :
    ∀ {cs : List γ} {ids : List Uuid} {w : World} {rows : List ρ} {w' : World},
      saveAll insert now cs ids w = some (rows, w') → P cs rows w w'
  | [], _, w, _, _, h => by
    cases h
    exact hnil w
  | _ :: _, [], _, _, _, h => by cases h
  | c :: cs, id :: ids, w, _, _, h => by
    obtain ⟨⟨row, w₁⟩, hrow, h⟩ := Option.bind_eq_some_iff.mp h
    obtain ⟨⟨rows, w₂⟩, hrows, h⟩ := Option.map_eq_some_iff.mp h
    cases h
    exact hcons hrow (saveAll_induction hnil hcons hrows)

end Calls

/-! ## The services after the scripts -/

/-- Nothing is undone, and the queue of jobs is left alone. -/
structure World.Prepares (w w' : World) : Prop where
  preserves : w.Preserves w'
  ready : w'.ready = w.ready
  unacked : w'.unacked ⊆ w.unacked

namespace World.Prepares

variable {w w' w'' : World}

theorem refl (w : World) : w.Prepares w :=
  ⟨.refl w, rfl, List.Subset.refl _⟩

theorem trans (h : w.Prepares w') (h' : w'.Prepares w'') : w.Prepares w'' :=
  ⟨h.preserves.trans h'.preserves, h'.ready.trans h.ready, List.Subset.trans h'.unacked h.unacked⟩

theorem perform {e : Env} {op : Op} {reply : op.Reply}
    (h : RealtimeOps.perform e w op = some (reply, w')) (hop : w.Permits op)
    (hsends : op.sends = none) : w.Prepares w' := by
  obtain ⟨hready, hunacked⟩ := perform_queue h
  rw [hsends, Option.toList_none, List.append_nil] at hready
  exact ⟨preserves_perform hop h, hready, hunacked⟩

theorem saveAll {γ ρ : Type} {insert : Env → World → γ → Option (ρ × World)} {now : Date}
    {cs : List γ} {ids : List Uuid} {rows : List ρ}
    (hinsert : ∀ {e w c row w'}, insert e w c = some (row, w') → World.Prepares w w')
    (h : RealtimeOps.saveAll insert now cs ids w = some (rows, w')) : w.Prepares w' :=
  saveAll_induction (P := fun _ _ w w' => World.Prepares w w') refl
    (fun hrow hrest => (hinsert hrow).trans hrest) h

end World.Prepares

/-- Nobody has acknowledged or resolved a new alert or incident. -/
def SetupOp.Permitted : SetupOp → Prop
  | saveAlert c => c.acknowledgedBy = none ∧ c.resolvedBy = none
  | saveIncident c => c.acknowledgedBy = none ∧ c.resolvedBy = none
  | _ => True

theorem prepares_perform {e : SetupEnv} {op : SetupOp} {reply : op.Reply} {w w' : World}
    (hop : op.Permitted) (h : op.perform e w = some (reply, w')) : w.Prepares w' := by
  cases op with
  | saveJobs rows =>
    refine .saveAll (fun {e w c row w'} hrow => ?_) h
    have hp : perform e w (.insertJob c) = some (row, w') := hrow
    exact .perform hp trivial rfl
  | saveAuditEntries rows =>
    refine .saveAll (fun {e w c row w'} hrow => ?_) h
    have hp : perform e w (.insertAuditEntry c) = some (row, w') := hrow
    exact .perform hp trivial rfl
  | saveAlert c =>
    obtain ⟨e, hp⟩ : ∃ e, perform e w (.insertAlert c) = some (reply, w') := saveOne_eq_some h
    exact .perform hp hop rfl
  | saveIncident c =>
    obtain ⟨e, hp⟩ : ∃ e, perform e w (.insertIncident c) = some (reply, w') := saveOne_eq_some h
    exact .perform hp hop rfl
  | saveNotification c =>
    obtain ⟨e, hp⟩ : ∃ e, perform e w (.insertNotification c) = some (reply, w') :=
      saveOne_eq_some h
    exact .perform hp trivial rfl
  | connect | runMigrations | destroy | now | sleep | countJobs =>
    cases h
    exact .refl _

/-- What all scripts keep to. -/
def preparation : Discipline setupHandle where
  le := World.Prepares
  refl := .refl
  trans := .trans
  allows _ op := op.Permitted
  up e op w hop := by
    have hclock : w.Prepares { w with clock := e.now } :=
      ⟨.of_same rfl rfl rfl rfl rfl rfl rfl (List.prefix_refl _), rfl, List.Subset.refl _⟩
    rcases setupHandle_world e op w with hw | ⟨reply, hp⟩
    · rw [hw]
      exact hclock
    · exact hclock.trans (prepares_perform hop hp)

theorem calls_seedRunner : seedRunner.Calls SetupOp.Permitted := by
  refine .await_bind trivial fun now => .await_bind trivial fun jobs => ?_
  match jobs with
  | [] | [_] => trivial
  | primaryJob :: failingJob :: _ =>
    refine .await_bind ⟨rfl, rfl⟩ fun alert => .await_bind ⟨rfl, rfl⟩ fun incident => ?_
    exact .await_bind trivial fun notification => .await_bind trivial fun _ => trivial

theorem calls_seedIfEmpty : seedIfEmpty.Calls SetupOp.Permitted := by
  refine .await_bind trivial fun count => ?_
  split_ifs
  · trivial
  · exact calls_seedRunner

theorem calls_waitForDatabase : ∀ n, (waitForDatabase n).Calls SetupOp.Permitted
  | 0 => trivial
  | n + 1 => .tryCatch (fun _ => .await_bind trivial fun _ => calls_waitForDatabase n)
    (.await trivial)

theorem Script.calls (script : Script) : script.prog.Calls SetupOp.Permitted := by
  cases script with
  | migrate => exact .await_bind trivial fun _ => .await_bind trivial fun _ => .await trivial
  | dbSetup =>
    refine .bind (calls_waitForDatabase _) fun _ => .await_bind trivial fun _ => ?_
    exact .bind calls_seedIfEmpty fun _ => .await trivial
  | seed =>
    refine .await_bind trivial fun _ => ?_
    exact .bind calls_seedIfEmpty fun _ => .await trivial

namespace Setup

/-- All scripts keep to the preparation, and have prepared the empty tables. -/
structure Prepared (s : Setup) : Prop where
  since : World.Prepares .empty s.world
  threads : s.Promising preparation fun _ _ _ => True

theorem Prepared.step {s s' : Setup} (h : s.Prepared) {l : Label} (hs : Setup.step s l = some s') :
    s'.Prepared := by
  cases l with
  | start script =>
    cases hs
    refine ⟨h.since, h.threads.spawn (fun _ _ => rfl) (.of_calls ?_ _)⟩
    exact script.calls.mono fun _ hop _ => hop
  | step i e =>
    obtain ⟨-, hs⟩ := Option.ite_none_right_eq_some.mp hs
    obtain ⟨hthreads, hw⟩ := h.threads.advance hs
    exact ⟨h.since.trans hw, hthreads⟩
  | stop i =>
    obtain ⟨-, hs⟩ := Option.ite_none_right_eq_some.mp hs
    cases hs
    exact ⟨h.since, h.threads.halt i _⟩

theorem prepared {allow : Setup → Label → Prop} {s : Setup}
    (h : Reachable Setup.step allow init s) : s.Prepared :=
  h.invariant (fun _ _ _ hs _ hstep => hs.step hstep)
    ⟨.refl _, fun i p hp => by cases hp⟩

end Setup

/-- Only messages start executions. -/
def Operations.Label.AsksNoExecution : Operations.Label → Prop
  | .start c => c.executes = none
  | _ => True

instance : DecidablePred Operations.Label.AsksNoExecution
  | .start _ => inferInstanceAs (Decidable (_ = none))
  | .deliver _ | .step _ _ | .redeliver _ | .stop _ | .expire _ _ => .isTrue trivial

/-- However the scripts fail, die and overlap, the constraints of the schema hold in every state of
every run of the services on the tables that they leave, and a sample job that has not failed is
still stored as it was, for no message is sent for it and no command changes it. -/
theorem setup_sound {S : Setup} (hS : Reachable Setup.step (fun _ _ => True) .init S)
    {s : Operations}
    (hs : Reachable Operations.step (fun _ l => l.AsksNoExecution) (.init S.world) s) :
    s.pool.world.Consistent ∧
      ∀ job ∈ S.world.jobs.rows, job.status ≠ .FAILED → job ∈ s.pool.world.jobs.rows := by
  have hprepared := (Setup.prepared hS).since
  have hconsistent := hprepared.preserves.consistent .empty
  refine ⟨((Operations.Disciplined.init S.world).run hs).2.consistent hconsistent, ?_⟩
  intro job hjob hstatus
  have hinit : (Operations.init S.world).Abandons job :=
    { has := Table.lookup_eq_some.mpr ⟨hjob, rfl⟩
      ready := fun m hm => by
        change m ∈ S.world.ready at hm
        rw [hprepared.ready] at hm
        cases hm
      unacked := fun d hd => by cases hprepared.unacked hd
      threads := fun i p hp => by cases hp }
  have hleft : s.Abandons job := by
    refine hs.invariant (I := fun t => t.Abandons job)
      (fun t l t' ht hl hstep => ht.step hstatus ?_ hstep) hinit
    cases l with
    | start c =>
      change c.executes ≠ some job.id
      rw [show c.executes = none from hl]
      exact (Option.some_ne_none _).symm
    | _ => trivial
  exact (Table.lookup_eq_some.mp hleft.has).1

/-- Script `i` is answered its next `n` calls, from time `t` on, one each millisecond. -/
def Setup.calls (i n t : ℕ) : List Setup.Label :=
  (List.range n).map fun k => .step i ⟨t + k, [3 * (t + k), 3 * (t + k) + 1, 3 * (t + k) + 2],
    .resolves⟩

/-- The database is there at the second attempt, and is seeded. A second script finds the sample. -/
def Setup.twice : List Setup.Label :=
  .start .dbSetup :: .step 0 ⟨0, [], .rejects⟩ :: calls 0 11 1 ++ .start .seed :: calls 1 3 12

/-- An operator retries the failed job of the sample, and a worker completes it. -/
def retryingSample : List Operations.Label :=
  .start (.job (.retry 19 "alice")) :: Operations.calls 0 8 20 ++
    .deliver 0 :: Operations.calls 1 14 40

theorem Setup.twice_run : ∃ S s, Reachable Setup.step Setup.Alone .init S ∧
    Reachable Operations.step (fun _ l => l.AsksNoExecution) (.init S.world) s ∧
    S.world.auditEntries.rows.length = 3 ∧
    S.world.jobs.rows.map (fun job => (job.id, job.status)) =
      [(18, .COMPLETED), (19, .FAILED), (20, .QUEUED)] ∧
    s.pool.world.jobs.rows.map (fun job => (job.id, job.status)) =
      [(18, .COMPLETED), (19, .COMPLETED), (20, .QUEUED)] := by
  obtain ⟨S, hS, ⟨hentries, hjobs⟩, s, hs, hlater⟩ :
      ∃ S, Reachable Setup.step Setup.Alone .init S ∧
        (S.world.auditEntries.rows.length = 3 ∧
          S.world.jobs.rows.map (fun job => (job.id, job.status)) =
            [(18, .COMPLETED), (19, .FAILED), (20, .QUEUED)]) ∧
        ∃ s ∈ Interleaving.execute Operations.step (fun _ l => l.AsksNoExecution)
            (.init S.world) retryingSample,
          s.pool.world.jobs.rows.map (fun job => (job.id, job.status)) =
            [(18, .COMPLETED), (19, .COMPLETED), (20, .QUEUED)] :=
    exists_reachable_of_execute _ Setup.twice _ (by decide)
  exact ⟨S, s, hS, reachable_of_execute hs, hentries, hjobs, hlater⟩

/-- The failed job of the sample is retried and completed, the queued one is left alone. -/
theorem setup_sound_retried : ∃ S s, Reachable Setup.step (fun _ _ => True) .init S ∧
    Reachable Operations.step (fun _ l => l.AsksNoExecution) (.init S.world) s ∧
    s.pool.world.Consistent ∧
    s.pool.world.jobs.rows.map (fun job => (job.id, job.status)) =
      [(18, .COMPLETED), (19, .COMPLETED), (20, .QUEUED)] ∧
    ∃ job ∈ S.world.jobs.rows, job.status = .QUEUED ∧ job ∈ s.pool.world.jobs.rows := by
  obtain ⟨S, s, hS, hs, -, hjobs, hlater⟩ := Setup.twice_run
  have hany : Reachable Setup.step (fun _ _ => True) .init S :=
    Relation.ReflTransGen.mono (fun _ _ ⟨l, _, hstep⟩ => ⟨l, trivial, hstep⟩) _ _ hS
  obtain ⟨hconsistent, hkept⟩ := setup_sound hany hs
  have hmem : (20, JobStatus.QUEUED) ∈ S.world.jobs.rows.map fun job => (job.id, job.status) := by
    rw [hjobs]
    decide
  obtain ⟨job, hjob, heq⟩ := List.mem_map.mp hmem
  have hqueued : job.status = .QUEUED := congrArg Prod.snd heq
  refine ⟨S, s, hany, hs, hconsistent, hlater, job, hjob, hqueued, hkept job hjob ?_⟩
  rw [hqueued]
  decide

/-! ## One sample at most -/

/-- The rows of the tables that a sample fills. -/
structure World.Contains (w : World) (jobs : List JobEntity) (alerts : List AlertEntity)
    (incidents : List IncidentEntity) (notifications : List NotificationEntity)
    (auditEntries : List AuditEntryEntity) : Prop where
  jobs : w.jobs.rows = jobs
  alerts : w.alerts.rows = alerts
  incidents : w.incidents.rows = incidents
  notifications : w.notifications.rows = notifications
  auditEntries : w.auditEntries.rows = auditEntries

/-- The tables are empty, or hold what one run of `seedRunner` has saved so far. -/
inductive World.Sampled (w : World) : Prop where
  | empty (h : w.Contains [] [] [] [] [])
  | jobs {now : Date} {j₁ j₂ j₃ : JobEntity}
      (hjobs : [j₁, j₂, j₃].map (·.toJobColumns) = sampleJobs now)
      (h : w.Contains [j₁, j₂, j₃] [] [] [] [])
  | alert {now : Date} {j₁ j₂ j₃ : JobEntity} {a : AlertEntity}
      (hjobs : [j₁, j₂, j₃].map (·.toJobColumns) = sampleJobs now)
      (ha : a.toAlertColumns = sampleAlert j₂) (h : w.Contains [j₁, j₂, j₃] [a] [] [] [])
  | incident {now : Date} {j₁ j₂ j₃ : JobEntity} {a : AlertEntity} {i : IncidentEntity}
      (hjobs : [j₁, j₂, j₃].map (·.toJobColumns) = sampleJobs now)
      (ha : a.toAlertColumns = sampleAlert j₂) (hi : i.toIncidentColumns = sampleIncident a)
      (h : w.Contains [j₁, j₂, j₃] [a] [i] [] [])
  | notification {now : Date} {j₁ j₂ j₃ : JobEntity} {a : AlertEntity} {i : IncidentEntity}
      {n : NotificationEntity} (hjobs : [j₁, j₂, j₃].map (·.toJobColumns) = sampleJobs now)
      (ha : a.toAlertColumns = sampleAlert j₂) (hi : i.toIncidentColumns = sampleIncident a)
      (hn : n.toNotificationColumns = sampleNotification j₂ a i)
      (h : w.Contains [j₁, j₂, j₃] [a] [i] [n] [])
  | whole {now : Date} {j₁ j₂ j₃ : JobEntity} {a : AlertEntity} {i : IncidentEntity}
      {n : NotificationEntity} {entries : List AuditEntryEntity}
      (hjobs : [j₁, j₂, j₃].map (·.toJobColumns) = sampleJobs now)
      (ha : a.toAlertColumns = sampleAlert j₂) (hi : i.toIncidentColumns = sampleIncident a)
      (hn : n.toNotificationColumns = sampleNotification j₂ a i)
      (hentries : entries.map (·.toCreateAuditEntryInput) = sampleAuditEntries j₁ a i n)
      (h : w.Contains [j₁, j₂, j₃] [a] [i] [n] entries)

section Sampling

variable {w w' : World} {js : List JobEntity} {as : List AlertEntity} {is : List IncidentEntity}
  {ns : List NotificationEntity} {es : List AuditEntryEntity}

theorem World.Contains.clock (h : w.Contains js as is ns es) (now : Date) :
    World.Contains { w with clock := now } js as is ns es :=
  ⟨h.jobs, h.alerts, h.incidents, h.notifications, h.auditEntries⟩

theorem World.Sampled.clock (h : w.Sampled) (now : Date) :
    World.Sampled { w with clock := now } := by
  cases h with
  | empty h => exact .empty (h.clock now)
  | jobs hjobs h => exact .jobs hjobs (h.clock now)
  | alert hjobs ha h => exact .alert hjobs ha (h.clock now)
  | incident hjobs ha hi h => exact .incident hjobs ha hi (h.clock now)
  | notification hjobs ha hi hn h => exact .notification hjobs ha hi hn (h.clock now)
  | whole hjobs ha hi hn hentries h => exact .whole hjobs ha hi hn hentries (h.clock now)

/-- Without jobs there is nothing of a sample. -/
theorem World.Sampled.contains_nil (h : w.Sampled) (hjobs : w.jobs.rows = []) :
    w.Contains [] [] [] [] [] := by
  cases h with
  | empty h => exact h
  | jobs _ h | alert _ _ h | incident _ _ _ h | notification _ _ _ _ h | whole _ _ _ _ _ h =>
    exact absurd (h.jobs.symm.trans hjobs) (List.cons_ne_nil _ _)

variable {e : SetupEnv}

/-- The payloads of the sample have no infinite numbers. -/
theorem stored_sampleJobs (now : Date) : (sampleJobs now).map (·.stored) = sampleJobs now :=
  rfl

theorem contains_saveJobs {cs : List JobColumns} {rows : List JobEntity}
    (h : (SetupOp.saveJobs cs).perform e w = some (rows, w')) (hw : w.Contains js as is ns es) :
    rows.map (·.toJobColumns) = cs.map (·.stored) ∧ w'.Contains (js ++ rows) as is ns es := by
  have hall : rows.map (·.toJobColumns) = cs.map (·.stored) ∧ ∀ js, w.Contains js as is ns es →
      w'.Contains (js ++ rows) as is ns es := by
    refine saveAll_induction (P := fun cs rows w w' =>
      rows.map (·.toJobColumns) = cs.map (·.stored) ∧
        ∀ js, World.Contains w js as is ns es → World.Contains w' (js ++ rows) as is ns es)
      (fun w => ⟨rfl, fun js hw => by rwa [List.append_nil]⟩) ?_ h
    intro e w c row w₁ cs rows w₂ hrow hrest
    obtain ⟨-, t, ht, rfl, rfl⟩ := perform_insertJob hrow
    refine ⟨by rw [List.map_cons, List.map_cons, hrest.1], fun js hw => ?_⟩
    rw [List.append_cons]
    refine hrest.2 _ ⟨?_, hw.alerts, hw.incidents, hw.notifications, hw.auditEntries⟩
    exact (Table.insert_eq_some ht).1.trans (hw.jobs ▸ rfl)
  exact ⟨hall.1, hall.2 js hw⟩

theorem contains_saveAlert {c : AlertColumns} {row : AlertEntity}
    (h : (SetupOp.saveAlert c).perform e w = some (row, w')) (hw : w.Contains js as is ns es) :
    row.toAlertColumns = c ∧ w'.Contains js (as ++ [row]) is ns es := by
  obtain ⟨e, hp⟩ : ∃ e, perform e w (.insertAlert c) = some (row, w') := saveOne_eq_some h
  obtain ⟨-, t, ht, rfl, rfl⟩ := perform_insertAlert hp
  refine ⟨rfl, hw.jobs, ?_, hw.incidents, hw.notifications, hw.auditEntries⟩
  exact (Table.insert_eq_some ht).1.trans (hw.alerts ▸ rfl)

theorem contains_saveIncident {c : IncidentColumns} {row : IncidentEntity}
    (h : (SetupOp.saveIncident c).perform e w = some (row, w'))
    (hw : w.Contains js as is ns es) :
    row.toIncidentColumns = c ∧ w'.Contains js as (is ++ [row]) ns es := by
  obtain ⟨e, hp⟩ : ∃ e, perform e w (.insertIncident c) = some (row, w') := saveOne_eq_some h
  obtain ⟨-, t, ht, rfl, rfl⟩ := perform_insertIncident hp
  refine ⟨rfl, hw.jobs, hw.alerts, ?_, hw.notifications, hw.auditEntries⟩
  exact (Table.insert_eq_some ht).1.trans (hw.incidents ▸ rfl)

theorem contains_saveNotification {c : NotificationColumns} {row : NotificationEntity}
    (h : (SetupOp.saveNotification c).perform e w = some (row, w'))
    (hw : w.Contains js as is ns es) :
    row.toNotificationColumns = c ∧ w'.Contains js as is (ns ++ [row]) es := by
  obtain ⟨e, hp⟩ : ∃ e, perform e w (.insertNotification c) = some (row, w') := saveOne_eq_some h
  obtain ⟨t, ht, rfl, rfl⟩ := perform_insertNotification hp
  refine ⟨rfl, hw.jobs, hw.alerts, hw.incidents, ?_, hw.auditEntries⟩
  exact (Table.insert_eq_some ht).1.trans (hw.notifications ▸ rfl)

theorem contains_saveAuditEntries {cs : List CreateAuditEntryInput} {rows : List AuditEntryEntity}
    (h : (SetupOp.saveAuditEntries cs).perform e w = some (rows, w'))
    (hw : w.Contains js as is ns es) :
    rows.map (·.toCreateAuditEntryInput) = cs ∧ w'.Contains js as is ns (es ++ rows) := by
  have hall : rows.map (·.toCreateAuditEntryInput) = cs ∧ ∀ es, w.Contains js as is ns es →
      w'.Contains js as is ns (es ++ rows) := by
    refine saveAll_induction (P := fun cs rows w w' =>
      rows.map (·.toCreateAuditEntryInput) = cs ∧
        ∀ es, World.Contains w js as is ns es → World.Contains w' js as is ns (es ++ rows))
      (fun w => ⟨rfl, fun es hw => by rwa [List.append_nil]⟩) ?_ h
    intro e w c row w₁ cs rows w₂ hrow hrest
    obtain ⟨-, t, ht, rfl, rfl⟩ := perform_insertAuditEntry hrow
    refine ⟨by rw [List.map_cons, hrest.1], fun es hw => ?_⟩
    rw [List.append_cons]
    refine hrest.2 _ ⟨hw.jobs, hw.alerts, hw.incidents, hw.notifications, ?_⟩
    exact (Table.insert_eq_some ht).1.trans (hw.auditEntries ▸ rfl)
  exact ⟨hall.1, hall.2 es hw⟩

/-- A call after each of whose effects the rest keeps to one sample. -/
theorem keeps_await {α : Type} {Q : α → World → Prop} {op : SetupOp}
    {f : op.Reply → SetupPromise α} (hw : w.Sampled)
    (hf : ∀ e reply w', op.perform e { w with clock := e.now } = some (reply, w') →
      (f reply).Keeps setupHandle World.Sampled Q w') :
    ((setupAwait op).bind f).Keeps setupHandle World.Sampled Q w := by
  refine .await_bind hw (fun e => ?_) fun e reply w' h => hf e reply w' (setupHandle_eq_ok h)
  rcases setupHandle_world e op w with hsame | ⟨reply, hp⟩
  · exact hsame ▸ hw.clock e.now
  · exact (hf e reply _ hp).holds

/-- From empty tables `seedRunner` saves one sample, one `save` after the other. -/
theorem keeps_seedRunner (hw : w.Contains [] [] [] [] []) :
    seedRunner.Keeps setupHandle World.Sampled (fun _ _ => True) w := by
  refine keeps_await (.empty hw) fun e now w hp => ?_
  cases hp
  have hw := hw.clock e.now
  refine keeps_await (.empty hw) fun e seeded w' hp => ?_
  obtain ⟨hjobs, hw⟩ := contains_saveJobs hp (hw.clock e.now)
  rw [stored_sampleJobs] at hjobs
  obtain ⟨j₁, j₂, j₃, rfl⟩ := List.length_eq_three.mp
    ((List.length_map _).symm.trans (congrArg List.length hjobs))
  refine keeps_await (.jobs hjobs hw) fun e a w' hp => ?_
  obtain ⟨ha, hw⟩ := contains_saveAlert hp (hw.clock e.now)
  refine keeps_await (.alert hjobs ha hw) fun e i w' hp => ?_
  obtain ⟨hi, hw⟩ := contains_saveIncident hp (hw.clock e.now)
  refine keeps_await (.incident hjobs ha hi hw) fun e n w' hp => ?_
  obtain ⟨hn, hw⟩ := contains_saveNotification hp (hw.clock e.now)
  refine keeps_await (.notification hjobs ha hi hn hw) fun e entries w' hp => ?_
  obtain ⟨hentries, hw⟩ := contains_saveAuditEntries hp (hw.clock e.now)
  exact ⟨.whole hjobs ha hi hn hentries hw, trivial⟩

theorem keeps_seedIfEmpty (hw : w.Sampled) :
    seedIfEmpty.Keeps setupHandle World.Sampled (fun _ _ => True) w := by
  refine keeps_await hw fun e count w' hp => ?_
  cases hp
  split_ifs with hcount
  · exact ⟨hw.clock e.now, trivial⟩
  · have hnone : w.jobs.rows = [] := List.length_eq_zero_iff.mp (Nat.eq_zero_of_not_pos hcount)
    exact keeps_seedRunner ((hw.contains_nil hnone).clock e.now)

/-- A call that leaves the tables alone, before the rest. -/
theorem keeps_idle {α : Type} {Q : α → World → Prop} {op : SetupOp} {f : op.Reply → SetupPromise α}
    (hop : op.Idle) (hw : w.Sampled)
    (hf : ∀ reply (w : World), w.Sampled → (f reply).Keeps setupHandle World.Sampled Q w) :
    ((setupAwait op).bind f).Keeps setupHandle World.Sampled Q w :=
  keeps_await hw fun e reply _ hp => hf reply _ (hop.perform_eq hp ▸ hw.clock e.now)

/-- A call that leaves the tables alone, as the last one. -/
theorem keeps_last {op : SetupOp} (hop : op.Idle) (hw : w.Sampled) :
    (setupAwait op).Keeps setupHandle World.Sampled (fun _ _ => True) w := by
  rw [← Prog.bind_ret (setupAwait op)]
  exact keeps_idle hop hw fun _ _ hw => ⟨hw, trivial⟩

theorem keeps_waitForDatabase (n : ℕ) : ∀ w : World, w.Sampled →
    (waitForDatabase n).Keeps setupHandle World.Sampled (fun _ _ => True) w := by
  induction n with
  | zero => exact fun _ hw => hw
  | succ n ih =>
    intro w hw
    have hconnect : (setupAwait .connect).Keeps setupHandle World.Sampled (fun _ _ => True) w :=
      keeps_last trivial hw
    exact hconnect.tryCatch fun _ _ hw => keeps_idle trivial hw fun _ => ih

/-- On tables with a sample or none, each script leaves a sample or none. -/
theorem Script.keeps (script : Script) (hw : w.Sampled) :
    script.prog.Keeps setupHandle World.Sampled (fun _ _ => True) w := by
  have hdestroy : ∀ w : World, w.Sampled →
      (setupAwait .destroy).Keeps setupHandle World.Sampled (fun _ _ => True) w :=
    fun _ hw => keeps_last trivial hw
  have hseed : ∀ w : World, w.Sampled →
      (seedIfEmpty.bind fun _ => setupAwait .destroy).Keeps setupHandle World.Sampled
        (fun _ _ => True) w :=
    fun _ hw => (keeps_seedIfEmpty hw).bind fun _ w hw _ => hdestroy w hw
  cases script with
  | migrate =>
    refine keeps_idle trivial hw fun _ _ hw => ?_
    exact keeps_idle trivial hw fun _ => hdestroy
  | dbSetup =>
    refine (keeps_waitForDatabase maxRetries w hw).bind fun _ w hw _ => ?_
    exact keeps_idle trivial hw fun _ => hseed
  | seed => exact keeps_idle trivial hw fun _ => hseed

end Sampling

namespace Setup

theorem exclusive_step {s s' : Setup} (h : s.Exclusive setupHandle World.Sampled) {l : Label}
    (hl : s.Alone l) (hs : Setup.step s l = some s') : s'.Exclusive setupHandle World.Sampled := by
  cases l with
  | start script =>
    cases hs
    refine h.spawn (fun i => ?_) (script.keeps h.holds)
    rcases Nat.lt_or_ge i s.threads.length with hi | hi
    · exact Option.isNone_iff_eq_none.mp (hl i hi)
    · unfold Pool.awaited
      rw [List.getElem?_eq_none hi]
  | step i e =>
    obtain ⟨-, hs⟩ := Option.ite_none_right_eq_some.mp hs
    exact h.advance hs
  | stop i =>
    obtain ⟨-, hs⟩ := Option.ite_none_right_eq_some.mp hs
    cases hs
    exact h.halt i _

end Setup

/-- If each script starts only when all others have ended, then in every state the tables hold at
most one sample, whole or cut short behind one of its saves, whatever calls fail before or after
their effect and wherever a script is stopped. -/
theorem seeded_once {S : Setup} (h : Reachable Setup.step Setup.Alone .init S) : S.world.Sampled :=
  Pool.Exclusive.holds <|
    h.invariant (I := fun s => Pool.Exclusive setupHandle World.Sampled s)
      (fun _ _ _ hs hl hstep => Setup.exclusive_step hs hl hstep)
      { holds := .empty ⟨rfl, rfl, rfl, rfl, rfl⟩
        keeps := fun i p hp => by cases hp
        alone := fun i j hi => by cases hi }

/-- The second script has left the sample of the first alone. -/
theorem seeded_once_twice : ∃ S, Reachable Setup.step Setup.Alone .init S ∧
    S.world.auditEntries.rows.length = 3 ∧ S.world.Sampled := by
  obtain ⟨S, s, hS, -, hentries, -⟩ := Setup.twice_run
  exact ⟨S, hS, hentries, seeded_once hS⟩

end RealtimeOps
