import Mathlib.Algebra.Order.Floor.Ring
import Mathlib.Data.Rat.Floor
import RealtimeOps.Books
import RealtimeOps.JobView

/-!
# A job driven to the end

`drive` takes a job from its creation to the end : its message is processed, and as long as a
retry is accepted it is retried and processed again. `Driven` says where that leads : the
payload fails the first `failures` attempts, or all of them, and `maxAttempts` bounds the
attempts that are made.

Each attempt adds one to `attemptCount`, and those that fail one alert, the last a critical one
with its incident (`ensures_attempt`). So `maxAttempts` rounds are enough (`driven_to_end`).
-/

set_option autoImplicit false

namespace RealtimeOps

open Interleaving JobProcessorService

/-! ## The loop -/

/-- Whether a command is accepted. -/
def accepts {α : Type} (command : Promise α) : Promise Bool :=
  Prog.tryCatch (do
    let _ ← command
    return true) fun _ => return false

/-- Process the job, and as long as a retry is accepted retry it and process it again. Gives the
number of attempts after the `n` made already; `none` once the fuel runs out. -/
def driveFrom (operators : ℕ → String) (jobId : Uuid) :
    ℕ → ℕ → QueuePayload → Promise (Option ℕ)
  | 0, _, _ => return none
  | fuel + 1, n, message => do
    JobProcessingConsumer.onMessage message
    if ← accepts (JobService.retry jobId (operators n)) then
      driveFrom operators jobId fuel (n + 1) ⟨some jobId, some "retry", some (operators n)⟩
    else
      return some (n + 1)

/-- Create a job and drive it to the end. -/
def drive (operators : ℕ → String) (fuel : ℕ) (input : CreateJobInput) :
    Promise (Uuid × Option ℕ) := do
  let job ← JobService.create input
  let attempts ← driveFrom operators job.id fuel 0
    ⟨some job.id, some "created", some input.operatorId⟩
  return (job.id, attempts)

/-! ## The plan of failures in a payload -/

/-- Every attempt is to fail. -/
def shouldFail (payload : Record) : Prop :=
  payload.lookup "shouldFail" = some (.bool true)

instance (payload : Record) : Decidable (shouldFail payload) :=
  inferInstanceAs (Decidable (_ = _))

/-- `failTimes` where it is a finite number, else 0. -/
def failTimes (payload : Record) : Rat :=
  match payload.lookup "failTimes" with
  | some (.num failTimesRaw) => failTimesRaw
  | _ => 0

/-- The attempts that are to fail. -/
def failures (payload : Record) : ℕ :=
  (max 0 ⌊failTimes payload⌋).toNat

theorem le_failures_iff (payload : Record) (n : ℕ) :
    n + 1 ≤ failures payload ↔ ((n + 1 : ℕ) : Rat) ≤ failTimes payload := by
  have hcast : ((n + 1 : ℕ) : Rat) = ((n + 1 : ℤ) : Rat) := by push_cast; rfl
  rw [hcast, ← Int.le_floor, failures]
  omega

theorem shouldFail_stored {payload : Record} : shouldFail payload.stored ↔ shouldFail payload := by
  unfold shouldFail
  rw [Record.lookup_stored]
  cases payload.lookup "shouldFail" with
  | none => rfl
  | some v => cases v <;> simp [Json.stored]

/-- Of what is stored of a payload, the attempts up to `failTimes` fail. An infinity is stored as
`null`, so it fails none. -/
theorem failsUpTo_stored {payload : Record} {n : ℕ} :
    failsUpTo (payload.stored.lookup "failTimes") n = true ↔ (n : Rat) ≤ failTimes payload := by
  unfold failTimes
  rw [Record.lookup_stored]
  cases payload.lookup "failTimes" with
  | none => simp [failsUpTo]
  | some v => cases v <;> simp [failsUpTo, Json.stored]

theorem evaluateFailure_isSome_iff {job : JobEntity} {payload : Record}
    (hpayload : job.payload = payload.stored) (n : ℕ) :
    (evaluateFailure job (n + 1)).isSome ↔ shouldFail payload ∨ n + 1 ≤ failures payload := by
  have hiff : shouldFail job.payload ∨ failsUpTo (job.payload.lookup "failTimes") (n + 1) = true ↔
      shouldFail payload ∨ n + 1 ≤ failures payload := by
    rw [hpayload, shouldFail_stored, failsUpTo_stored, le_failures_iff]
  rw [← hiff]
  change (if shouldFail job.payload ∨ failsUpTo (job.payload.lookup "failTimes") (n + 1) = true
    then _ else none).isSome ↔ _
  split_ifs with h
  · exact iff_of_true rfl h
  · exact iff_of_false Bool.false_ne_true h

/-- Some attempt is to succeed. -/
def Succeeds (input : CreateJobInput) : Prop :=
  ¬shouldFail input.payload ∧ failures input.payload < input.maxAttempts

instance (input : CreateJobInput) : Decidable (Succeeds input) :=
  inferInstanceAs (Decidable (_ ∧ _))

/-- Where a job that is driven to the end from `b` stands. -/
structure Driven (input : CreateJobInput) (b : Books) (jobId : Uuid) (attempts : ℕ) (b' : Books) :
    Prop where
  count : attempts =
    if Succeeds input then failures input.payload + 1 else input.maxAttempts
  job : ∃ job ∈ b'.jobs.lookup jobId, job.attemptCount = attempts ∧
    job.status = if Succeeds input then .COMPLETED else .FAILED
  alerts : ∃ new : List AlertEntity, b'.alerts.rows = b.alerts.rows ++ new ∧
    (∀ alert ∈ new, alert.jobId = some jobId) ∧
      new.map (·.severity) =
        if Succeeds input then List.replicate (failures input.payload) .HIGH
        else List.replicate (input.maxAttempts - 1) .HIGH ++ [.CRITICAL]
  incidents : ∃ new : List IncidentEntity, b'.incidents.rows = b.incidents.rows ++ new ∧
    new.length = if Succeeds input then 0 else 1

/-! ## Locks -/

/-- No execution holds the lock of a job. -/
def World.Unlocked (w : World) : Prop :=
  ∀ jobId, w.locks.lookup (lockKey jobId) = none

/-- The program calls no lock. -/
abbrev LeavesLocks {α : Type} (p : Promise α) : Prop :=
  p.Calls fun op : Op => op.redis = false

section LeavesLocks

variable {α : Type}

theorem Routine.leavesLocks {p : Promise α} (hp : Routine p) : LeavesLocks p :=
  hp.mono fun _ => Op.redis_of_routine

theorem leavesLocks_create (input : CreateJobInput) : LeavesLocks (JobService.create input) := by
  obtain ⟨k, hk, hroutine⟩ := JobService.create_eq_call input
  rw [hk]
  exact ⟨rfl, fun r => (hroutine r).leavesLocks⟩

theorem leavesLocks_createAlert (input : CreateAlertInput) :
    LeavesLocks (AlertService.create input) := by
  have announce : ∀ alert incident, LeavesLocks (AlertService.announce input alert incident) := by
    intro alert incident
    refine .await_bind rfl fun _ => .await_bind rfl fun _ => ?_
    refine .await_bind rfl fun _ => ?_
    cases incident with
    | none => trivial
    | some incident => exact .await_bind rfl fun _ => trivial
  refine .await_bind rfl fun _ => ?_
  split_ifs
  · exact .await_bind rfl fun _ => announce _ _
  · exact announce _ _

theorem leavesLocks_acknowledgeAlert (alertId : Uuid) (operatorId : String) :
    LeavesLocks (AlertService.acknowledge alertId operatorId) := by
  have getById : LeavesLocks (AlertService.getById alertId) := by
    refine .await_bind rfl fun found => ?_
    cases found <;> trivial
  refine getById.bind fun ⟨alert, incident⟩ => ?_
  dsimp only
  split_ifs
  · trivial
  · refine .await_bind rfl fun _ => .await_bind rfl fun _ => ?_
    exact .await_bind rfl fun _ => .await_bind rfl fun _ => trivial

theorem leavesLocks_getIncident (incidentId : Uuid) :
    LeavesLocks (IncidentService.getIncident incidentId) := by
  refine .await_bind rfl fun found => ?_
  cases found <;> trivial

theorem leavesLocks_propagate (incident updated : IncidentEntity) (operatorId : String)
    (changes : Date → AlertUpdate) (action auditAction : String) (metadata payload : Record) :
    LeavesLocks (IncidentService.propagate incident updated operatorId changes action auditAction
      metadata payload) := by
  unfold IncidentService.propagate
  cases incident.alertId with
  | none =>
    refine .await_bind rfl fun _ => .await_bind rfl fun _ => ?_
    exact .await_bind rfl fun _ => trivial
  | some alertId =>
    refine .await_bind rfl fun _ => .await_bind rfl fun _ => ?_
    refine .await_bind rfl fun _ => .await_bind rfl fun _ => ?_
    exact .await_bind rfl fun _ => trivial

theorem leavesLocks_acknowledge (incidentId : Uuid) (operatorId : String) :
    LeavesLocks (IncidentService.acknowledge incidentId operatorId) := by
  refine (leavesLocks_getIncident incidentId).bind fun incident => ?_
  split_ifs
  · trivial
  · refine .await_bind rfl fun _ => .await_bind rfl fun _ => ?_
    exact leavesLocks_propagate _ _ _ _ _ _ _ _

theorem leavesLocks_settle (incident : IncidentEntity) (operatorId : String) :
    LeavesLocks (IncidentService.settle incident operatorId) := by
  refine .await_bind rfl fun _ => .await_bind rfl fun _ => ?_
  exact leavesLocks_propagate _ _ _ _ _ _ _ _

theorem leavesLocks_resolve (incidentId : Uuid) (operatorId : String) :
    LeavesLocks (IncidentService.resolve incidentId operatorId) := by
  refine (leavesLocks_getIncident incidentId).bind fun incident => ?_
  split_ifs
  · trivial
  · exact .await_bind rfl fun _ => leavesLocks_settle _ _
  · exact leavesLocks_settle _ _

/-- A program that calls no lock leaves them. -/
theorem ensures_locks {p : Promise α} (hp : LeavesLocks p) (w : World) :
    Prog.Ensures handle (fun _ w' => w'.locks = w.locks) p w :=
  hp.ensures (fun _ _ _ _ _ hop hh hlocks => (perform_locks hop (handle_eq_ok hh).1).trans hlocks)
    rfl

end LeavesLocks

/-! ## One execution -/

/-- A call that is no lock's leaves the audit log as it is or longer. -/
theorem perform_trail {op : Op} {e : Env} {w w' : World} {reply : op.Reply}
    (hp : perform e w op = some (reply, w')) :
    w.auditEntries.rows.length ≤ w'.auditEntries.rows.length := by
  cases op
  case insertAuditEntry =>
    obtain ⟨-, t, ht, -, rfl⟩ := perform_insertAuditEntry hp
    change _ ≤ t.rows.length
    rw [(Table.insert_eq_some ht).1, List.length_append]
    exact Nat.le_add_right _ _
  all_goals
    simp only [perform, Option.ite_none_right_eq_some, Option.map_eq_some_iff, Prod.mk.injEq,
      Option.some.injEq] at hp
    grind

/-- An execution of a stored job whose lock is free does log. -/
theorem ensures_logs (input : ProcessJobInput) {w : World} (hfree : w.Unlocked) {job : JobEntity}
    (hjob : w.jobs.lookup input.jobId = some job) :
    Prog.Ensures handle
      (fun _ w' => w.auditEntries.rows.length < w'.auditEntries.rows.length) (process input) w := by
  have hgrows : ∀ e op reply (v v' : World), op.redis = false → handle e op v = (.ok reply, v') →
      w.auditEntries.rows.length < v.auditEntries.rows.length →
        w.auditEntries.rows.length < v'.auditEntries.rows.length := by
    intro e op reply v v' _ hh hlt
    have hle := perform_trail (handle_eq_ok hh).1
    exact hlt.trans_le hle
  unfold process RedisLockService.acquireLock
  refine ensures_await fun e acquired w₁ hp => ?_
  have hkey : ∀ lock ∈ w.locks.rows, lock.key ≠ lockKey input.jobId :=
    Table.lookup_eq_none.mp (hfree input.jobId)
  obtain ⟨t, ht⟩ := Table.exists_insert (t := w.locks)
    (a := ⟨lockKey input.jobId, e.now + 1000 * 60⟩) hkey
  simp only [perform, ht, Option.some.injEq, Prod.mk.injEq] at hp
  obtain ⟨rfl, rfl⟩ := hp
  rw [if_pos rfl]
  refine Prog.Ensures.tryFinally (Q := fun _ w' => w.auditEntries.rows.length <
    w'.auditEntries.rows.length) (fun r w' hlt => ensures_await fun e _ w₂ hp => ?_) ?_
  · cases hp
    cases r <;> exact hlt
  refine ensures_await fun e found w₂ hp => ?_
  cases hp
  dsimp only
  rw [hjob]
  -- The third call of the execution logs, and the rest adds to the log at most.
  refine ensures_await fun e₁ _ w₁ hp => ?_
  cases hp
  refine ensures_await fun e₂ _ w₁ hp => ?_
  cases hp
  refine ensures_await fun e₃ _ w₁ hp => ?_
  cases hp
  refine ensures_await fun e₄ _ w₁ hp => ?_
  obtain ⟨-, entries, hentries, -, rfl⟩ := perform_insertAuditEntry hp
  refine (routine_attempt _ _ _).leavesLocks.ensures hgrows ?_
  change _ < entries.rows.length
  rw [(Table.insert_eq_some hentries).1, List.length_append]
  exact Nat.lt_succ_self _

/-- An execution gives its lock back. -/
theorem ensures_unlocked (input : ProcessJobInput) {w : World} (hfree : w.Unlocked) :
    Prog.Ensures handle (fun _ w' => w'.Unlocked) (process input) w := by
  unfold process RedisLockService.acquireLock
  refine ensures_await fun e acquired w₁ hp => ?_
  simp only [perform] at hp
  split at hp
  · rename_i t ht
    cases hp
    rw [if_pos rfl]
    refine Prog.Ensures.tryFinally (Q := fun _ w' => w'.locks = t)
      (fun r w' hlocks => ensures_await fun e _ w₂ hp => ?_) ?_
    · cases hp
      have hfree' :
          ({ w' with locks := w'.locks.erase (lockKey input.jobId) } : World).Unlocked := by
        intro jobId
        change (w'.locks.erase _).lookup _ = none
        rw [Table.lookup_erase, hlocks]
        split_ifs with hkey
        · rfl
        · rw [Table.lookup_insert ht, if_neg hkey]
          exact hfree jobId
      cases r <;> exact hfree'
    · refine ensures_await fun e found w₂ hp => ?_
      cases hp
      cases hfound : w.jobs.lookup input.jobId with
      | none => rfl
      | some job => exact ensures_locks (routine_processJob input job).leavesLocks _
  · cases hp
    exact hfree

/-- Every command gives its locks back. -/
theorem ensures_unlocked_prog (command : Command) {w : World} (hfree : w.Unlocked) :
    Prog.Ensures handle (fun _ w' => w'.Unlocked) command.prog w := by
  have hleaves {α : Type} {p : Promise α} (hp : LeavesLocks p) :
      Prog.Ensures handle (fun _ (w' : World) => w'.Unlocked) p w := by
    refine (ensures_locks hp w).mono fun _ w' hlocks jobId => ?_
    rw [hlocks]
    exact hfree jobId
  cases command with
  | job call =>
    refine .map ?_
    cases call with
    | create input => exact .map (hleaves (leavesLocks_create input))
    | retry jobId operatorId =>
      exact .map (hleaves (JobService.routine_retry jobId operatorId).leavesLocks)
    | getStatus jobId => exact .map (hleaves (JobService.routine_getStatus jobId).leavesLocks)
    | process input => exact .map (ensures_unlocked input hfree)
    | consume delivery =>
      refine .map (.tryCatch (Q := fun _ (w' : World) => w'.Unlocked) (fun _ _ h => h) ?_ ?_)
      · intro err w' h e _ w₁ hh
        cases (handle_eq_ok hh).1
        exact h
      · obtain ⟨tag, ⟨content⟩⟩ := delivery
        cases content with
        | none => exact hfree
        | some payload =>
          change Prog.Ensures handle _ ((JobProcessingConsumer.onMessage payload).bind _) w
          refine .bind (Q := fun _ (w' : World) => w'.Unlocked) ?_ (fun _ _ h => h) ?_
          · intro _ w' h e _ w₁ hh
            cases (handle_eq_ok hh).1
            exact h
          · unfold JobProcessingConsumer.onMessage
            split
            · exact hfree
            · exact ensures_unlocked _ hfree
  | createAlert input => exact .map (hleaves (leavesLocks_createAlert input))
  | acknowledgeAlert alertId operatorId =>
    exact .map (hleaves (leavesLocks_acknowledgeAlert alertId operatorId))
  | acknowledge incidentId operatorId =>
    exact .map (hleaves (leavesLocks_acknowledge incidentId operatorId))
  | resolve incidentId operatorId =>
    exact .map (hleaves (leavesLocks_resolve incidentId operatorId))

/-- Between the commands of a session no lock is held. -/
theorem CommandSession.unlocked {s : CommandSession}
    (h : Reachable step (Runs fun _ => True) (init .empty) s) : s.world.Unlocked := by
  refine Reachable.invariant (I := fun s : CommandSession => s.world.Unlocked) ?_ (fun _ => rfl) h
  intro s l s' hs _ hstep
  obtain ⟨r, hfree, -⟩ := Session.step_spec hstep (ensures_unlocked_prog l.1 hs)
  exact hfree

/-! ## Rounds -/

/-- The `k` attempts made so far have failed, and some are left. -/
structure Partway (input : CreateJobInput) (b : Books) (jobId : Uuid) (k : ℕ) (b' : Books) :
    Prop where
  left : k < input.maxAttempts
  failing : shouldFail input.payload ∨ k ≤ failures input.payload
  job : ∃ job ∈ b'.jobs.lookup jobId, job.attemptCount = k ∧
    job.maxAttempts = input.maxAttempts ∧ job.payload = input.payload.stored
  alerts : ∃ new : List AlertEntity, b'.alerts.rows = b.alerts.rows ++ new ∧
    (∀ alert ∈ new, alert.jobId = some jobId) ∧ new.map (·.severity) = List.replicate k .HIGH
  incidents : b'.incidents = b.incidents

/-- What the next attempt leads to : the end, where no retry is accepted, or one more round. -/
inductive Round (input : CreateJobInput) (b : Books) (jobId : Uuid) (k : ℕ) (b' : Books) :
    Prop where
  | ended (h : Driven input b jobId (k + 1) b')
      (hrefuses : ∀ operatorId, b'.Refuses (.job (.retry jobId operatorId)))
  | failed (h : Partway input b jobId (k + 1) b')
      (haccepts : ∀ operatorId, ¬b'.Refuses (.job (.retry jobId operatorId)))

/-- The alert of a failed attempt is one more of the job's. -/
theorem Partway.alerts_concat {input : CreateJobInput} {b b' b'' : Books} {jobId : Uuid} {k : ℕ}
    {alert : AlertEntity} (h : Partway input b jobId k b')
    (hinsert : b'.alerts.insert alert = some b''.alerts) (habout : alert.jobId = some jobId) :
    ∃ new : List AlertEntity, b''.alerts.rows = b.alerts.rows ++ new ∧
      (∀ a ∈ new, a.jobId = some jobId) ∧
        new.map (·.severity) = List.replicate k .HIGH ++ [alert.severity] := by
  obtain ⟨new, halerts, hnew, hsevere⟩ := h.alerts
  refine ⟨new ++ [alert], ?_, fun a ha => ?_, ?_⟩
  · rw [(Table.insert_eq_some hinsert).1, halerts, List.append_assoc]
  · rcases List.mem_append.mp ha with ha | ha
    · exact hnew a ha
    · rw [List.mem_singleton.mp ha]
      exact habout
  · rw [List.map_append, hsevere]
    rfl

theorem Round.of_executed {input : CreateJobInput} {b b' b'' : Books} {jobId : Uuid} {k : ℕ}
    (h : Partway input b jobId k b') (hexecuted : Executed b' jobId b'')
    (hlogs : b'.trail.length < b''.trail.length) : Round input b jobId k b'' := by
  obtain ⟨job, hjob, hcount, hmax, hpayload⟩ := h.job
  obtain ⟨-, hid⟩ := Table.lookup_eq_some.mp (Option.mem_def.mp hjob)
  have hleft := h.left
  have hplan (t u : Date) : (evaluateFailure (startedRow job t u) (job.attemptCount + 1)).isSome ↔
      shouldFail input.payload ∨ k + 1 ≤ failures input.payload := by
    rw [hcount]
    exact evaluateFailure_isSome_iff hpayload k
  -- The row the attempt leaves is found under the job's id.
  have hsaved {row : JobEntity} (hjobs : b''.jobs = b'.jobs.save row) (hrow : row.id = job.id) :
      b''.jobs.lookup jobId = some row := by
    rw [hjobs, Table.lookup_save]
    exact if_pos (hrow.trans hid)
  -- The alert is critical after the last attempt, and about the job.
  have hraised {alert : AlertEntity} {errorMessage : String} {t u v x : Date}
      (halert : alert.toAlertColumns =
        failureAlert (failedRow (startedRow job t u) errorMessage v x) errorMessage) :
      (alert.severity = if job.attemptCount + 1 ≥ job.maxAttempts then .CRITICAL else .HIGH) ∧
        alert.jobId = some jobId := by
    refine ⟨congrArg AlertColumns.severity halert, ?_⟩
    rw [← hid]
    exact congrArg AlertColumns.jobId halert
  cases hexecuted with
  | idle hidle =>
    rw [hidle] at hlogs
    exact absurd hlogs (lt_irrefl _)
  | @completed row attempt n m m' t u v x hfound hgood hcols hjobs hattempts halerts hincidents
      hfeed hn htrail =>
    cases hfound.symm.trans hjob
    have hnot : ¬(shouldFail input.payload ∨ k + 1 ≤ failures input.payload) := by
      rw [← hplan t u, hgood]
      exact Bool.false_ne_true
    have hlast : failures input.payload = k := by
      have hfailing := h.failing.resolve_left fun hshould => hnot (.inl hshould)
      have hfew : ¬k + 1 ≤ failures input.payload := fun hle => hnot (.inr hle)
      omega
    have hsucceeds : Succeeds input := ⟨fun hshould => hnot (.inl hshould), hlast ▸ hleft⟩
    have hstored := hsaved hjobs rfl
    refine .ended ⟨?_, ⟨_, hstored, ?_, ?_⟩, ?_, ?_⟩ fun operatorId =>
      forall_mem_of_eq_some hstored (.inl (by rintro ⟨⟩))
    · rw [if_pos hsucceeds, hlast]
    · exact congrArg (· + 1) hcount
    · rw [if_pos hsucceeds]
      rfl
    · rw [if_pos hsucceeds, halerts, hlast]
      exact h.alerts
    · rw [if_pos hsucceeds, hincidents, h.incidents]
      exact ⟨[], (List.append_nil _).symm, rfl⟩
  | @failed row attempt alert n errorMessage m m' m'' t u v x hfound hbad hcols hjobs hattempts
      halert hinsert hhigh hincidents hfeed hn htrail =>
    cases hfound.symm.trans hjob
    obtain ⟨hsevere, habout⟩ := hraised halert
    split_ifs at hsevere with hlast
    · exact absurd hsevere hhigh
    have hstored := hsaved hjobs rfl
    refine .failed ⟨?_, ?_, ⟨_, hstored, congrArg (· + 1) hcount, hmax, hpayload⟩, ?_, ?_⟩ ?_
    · omega
    · rw [← hplan t u, hbad]
      rfl
    · have hnew := h.alerts_concat hinsert habout
      rw [hsevere] at hnew
      rwa [List.replicate_succ']
    · rw [hincidents, h.incidents]
    · intro operatorId hrefuses
      rcases hrefuses _ hstored with hstatus | hle
      · exact hstatus rfl
      · exact hlast hle
  | @escalated row attempt alert incident n errorMessage m m' m'' m''' t u v x hfound hbad hcols
      hjobs hattempts halert hinsert hcritical hincident hfree hincidents hfeed hn htrail =>
    cases hfound.symm.trans hjob
    obtain ⟨hsevere, habout⟩ := hraised halert
    rw [hcritical] at hsevere
    split_ifs at hsevere with hlast
    have hk : k + 1 = input.maxAttempts := by omega
    have hfails : ¬Succeeds input := by
      rintro ⟨hshould, hfew⟩
      have hfailing := (hplan t u).mp (by rw [hbad]; rfl)
      have hmany := hfailing.resolve_left hshould
      omega
    have hstored := hsaved hjobs rfl
    refine .ended ⟨?_, ⟨_, hstored, congrArg (· + 1) hcount, ?_⟩, ?_, ?_⟩ fun operatorId =>
      forall_mem_of_eq_some hstored (.inr hlast)
    · rw [if_neg hfails, hk]
    · rw [if_neg hfails]
      rfl
    · rw [if_neg hfails, ← hcritical, ← hk]
      exact h.alerts_concat hinsert habout
    · rw [if_neg hfails, (Table.insert_eq_some hincidents).1, h.incidents]
      exact ⟨[incident], rfl, rfl⟩

/-- One more execution. -/
theorem ensures_round {input : CreateJobInput} {b : Books} {jobId : Uuid} {k : ℕ} {w : World}
    (h : Partway input b jobId k w.books) (hfree : w.Unlocked) (request : ProcessJobInput)
    (hrequest : request.jobId = jobId) :
    Prog.Ensures handle
      (fun r w' => r = .ok () ∧ Round input b jobId k w'.books ∧ w'.Unlocked)
      (process request) w := by
  subst hrequest
  obtain ⟨job, hjob, -⟩ := h.job
  refine (((ensures_process request).and (ensures_logs request hfree hjob)).and
    (ensures_unlocked request hfree)).mono ?_
  rintro r w' ⟨⟨⟨rfl, hexecuted⟩, hlogs⟩, hfree'⟩
  refine ⟨rfl, .of_executed h hexecuted ?_, hfree'⟩
  change (w.auditEntries.rows.map _).length < (w'.auditEntries.rows.map _).length
  rwa [List.length_map, List.length_map]

/-- A retry is accepted exactly if it is not refused, and only asks for another attempt. -/
theorem ensures_accepts {w : World} {jobId : Uuid} {operatorId : String} {P : Bool → World → Prop}
    (hrefused : w.books.Refuses (.job (.retry jobId operatorId)) → ∀ w', w'.books = w.books →
      P false w')
    (haccepted : ∀ job t w', w.books.jobs.lookup jobId = some job →
      ¬w.books.Refuses (.job (.retry jobId operatorId)) → w'.locks = w.locks →
      w'.books.jobs = w.books.jobs.save { JobService.requeued job with updatedAt := t } →
      w'.books.alerts = w.books.alerts → w'.books.incidents = w.books.incidents → P true w') :
    Prog.Ensures handle (fun r w' => ∃ accepted, r = .ok accepted ∧ P accepted w')
      (accepts (JobService.retry jobId operatorId)) w := by
  have hretry := (ensures_retry jobId operatorId (w := w)).and
    (ensures_locks (JobService.routine_retry jobId operatorId).leavesLocks w)
  refine Prog.Ensures.tryCatch (Q := fun r w' => match r with
    | .ok accepted => ∃ accepted', accepted = accepted' ∧ P accepted' w'
    | .error _ => P false w') ?_ ?_ (.bind (f := fun _ => .ret true) ?_ ?_ hretry)
  · rintro accepted w' ⟨accepted', rfl, hP⟩
    exact ⟨_, rfl, hP⟩
  · rintro err w' hP
    exact ⟨false, rfl, hP⟩
  · rintro job w' ⟨hwrites, hlocks⟩
    refine ⟨true, rfl, ?_⟩
    cases hwrites with
    | retried hjob hstatus hleft hjobs hattempts halerts hincidents =>
      refine haccepted _ _ _ hjob (fun hrefuses => ?_) hlocks hjobs halerts hincidents
      rcases hrefuses _ hjob with hne | hle
      · exact hne hstatus
      · omega
  · rintro err w' ⟨hwrites, hlocks⟩
    generalize hb : w'.books = b' at hwrites
    cases hwrites with
    | refused hrefuses => exact hrefused hrefuses w' hb

/-- With enough fuel the loop ends as `Driven` says. -/
theorem ensures_driveFrom (operators : ℕ → String) {input : CreateJobInput} {b : Books}
    {jobId : Uuid} {fuel k : ℕ} (hfuel : input.maxAttempts ≤ k + fuel) {w : World}
    (h : Partway input b jobId k w.books) (hfree : w.Unlocked) (message : QueuePayload)
    (hmessage : message.jobId = some jobId) :
    Prog.Ensures handle
      (fun r w' => ∃ attempts, r = .ok (some attempts) ∧ Driven input b jobId attempts w'.books)
      (driveFrom operators jobId fuel k message) w := by
  induction fuel generalizing k w message with
  | zero => exact absurd h.left (Nat.not_lt.mpr hfuel)
  | succ fuel ih =>
    unfold driveFrom JobProcessingConsumer.onMessage
    simp only [hmessage]
    refine .bind ?_ ?_ (ensures_round h hfree _ rfl)
    · rintro _ w₁ ⟨-, hround, hfree₁⟩
      refine .bind (Q := fun r w₂ => ∃ accepted, r = .ok accepted ∧ (if accepted = true then
        Partway input b jobId (k + 1) w₂.books ∧ w₂.Unlocked
          else Driven input b jobId (k + 1) w₂.books)) ?_ ?_ (ensures_accepts ?_ ?_)
      · rintro accepted w₂ ⟨_, ⟨⟩, hnext⟩
        cases accepted with
        | true => exact ih (by omega) hnext.1 hnext.2 _ rfl
        | false => exact ⟨_, rfl, hnext⟩
      · rintro err w₂ ⟨_, ⟨⟩, -⟩
      · intro hrefuses w₂ hbooks
        cases hround with
        | ended hdriven => exact hbooks ▸ hdriven
        | failed _ haccepts => exact absurd hrefuses (haccepts _)
      · intro job t w₂ hjob hnot hlocks hjobs halerts hincidents
        cases hround with
        | ended _ hrefuses => exact absurd (hrefuses _) hnot
        | failed hhalf _ =>
          refine ⟨⟨hhalf.left, hhalf.failing, ?_, ?_, ?_⟩, fun jobId => ?_⟩
          · obtain ⟨job', hjob', hcount, hmax, hpayload⟩ := hhalf.job
            cases hjob.symm.trans hjob'
            obtain ⟨-, hid⟩ := Table.lookup_eq_some.mp hjob
            refine ⟨{ JobService.requeued job with updatedAt := t }, ?_, hcount, hmax, hpayload⟩
            rw [hjobs, Option.mem_def, Table.lookup_save]
            exact if_pos hid
          · rw [halerts]
            exact hhalf.alerts
          · rw [hincidents]
            exact hhalf.incidents
          · rw [hlocks]
            exact hfree₁ jobId
    · rintro err w₁ ⟨⟨⟩, -⟩

/-- The outcome of a job. Whatever its payload and however it is retried, with all calls
resolving and no execution under way at the start, `maxAttempts` rounds are enough for a new job
to end : completed after one attempt more than are to fail, each of these with a high alert, or
failed after `maxAttempts`, the last with a critical alert and its incident. -/
theorem driven_to_end (operators : ℕ → String) (input : CreateJobInput)
    (hmax : 1 ≤ input.maxAttempts) {fuel : ℕ} (hfuel : input.maxAttempts ≤ fuel) {w : World}
    (hfree : w.Unlocked) :
    Prog.Ensures handle
      (fun r w' => ∃ jobId attempts, r = .ok (jobId, some attempts) ∧
        attempts ≤ input.maxAttempts ∧ Driven input w.books jobId attempts w'.books)
      (drive operators fuel input) w := by
  refine .bind ?_ ?_ ((ensures_create input).and (ensures_locks (leavesLocks_create input) w))
  · rintro job w₁ ⟨hwrites, hlocks⟩
    obtain ⟨hcols, hjob, halerts, hincidents⟩ :
        job.toJobColumns = (JobService.newJob input).stored ∧
        w₁.books.jobs.lookup job.id = some job ∧ w₁.books.alerts = w.books.alerts ∧
          w₁.books.incidents = w.books.incidents := by
      cases hwrites with
      | created hcols hjobs hattempts halerts hincidents =>
        exact ⟨hcols, (Table.lookup_insert hjobs _).trans (if_pos rfl), halerts, hincidents⟩
    have hhalf : Partway input w.books job.id 0 w₁.books := by
      refine ⟨hmax, .inr (Nat.zero_le _), ⟨job, hjob, ?_, ?_, ?_⟩, ⟨[], ?_, by simp, rfl⟩,
        hincidents⟩
      · exact congrArg JobColumns.attemptCount hcols
      · exact congrArg JobColumns.maxAttempts hcols
      · exact congrArg JobColumns.payload hcols
      · rw [halerts, List.append_nil]
    refine .bind ?_ ?_ (ensures_driveFrom operators (by omega) hhalf (fun jobId => ?_) _ rfl)
    · rintro _ w₂ ⟨attempts, ⟨⟩, hdriven⟩
      refine ⟨job.id, attempts, rfl, ?_, hdriven⟩
      rw [hdriven.count]
      split_ifs with hsucceeds
      · exact hsucceeds.2
      · exact le_rfl
    · rintro err w₂ ⟨_, ⟨⟩, -⟩
    · rw [hlocks]
      exact hfree jobId
  · rintro err w₁ ⟨hwrites, -⟩
    generalize w₁.books = b' at hwrites
    cases hwrites with
    | refused hrefuses => cases hrefuses

/-- A job that fails once and succeeds at its second attempt. -/
theorem driven_to_end_flaky : ∃ (input : CreateJobInput) (jobId attempts : ℕ) (w' : World),
    failTimes input.payload = 3 / 2 ∧ attempts = 2 ∧
      (drive (fun _ => "bob") 3 input).run handle (CommandSession.smooth 1) 0 .empty =
        (.ok (jobId, some attempts), w') ∧
      Driven input World.empty.books jobId attempts w'.books := by
  have hgoes : (drive (fun _ => "bob") 3
      ⟨"ingest", "batch", [("failTimes", .num (3 / 2))], 1, 3, "alice"⟩).goes handle
        (CommandSession.smooth 1) 0 .empty = true := by decide +kernel
  obtain ⟨jobId, attempts, hr, -, h⟩ := (driven_to_end (fun _ => "bob")
    ⟨"ingest", "batch", [("failTimes", .num (3 / 2))], 1, 3, "alice"⟩ (by decide) (le_refl 3)
    (w := .empty) fun _ => rfl).run hgoes
  refine ⟨_, jobId, attempts, _, rfl, ?_, Prod.ext hr rfl, h⟩
  rw [h.count]
  decide +kernel

/-- Some attempt is to succeed if `Infinity` counts as a number of attempts that are to fail. -/
def SucceedsAsAsked (input : CreateJobInput) : Prop :=
  input.payload.lookup "failTimes" ≠ some (.infinity false) ∧ Succeeds input

instance (input : CreateJobInput) : Decidable (SucceedsAsAsked input) :=
  inferInstanceAs (Decidable (_ ∧ _))

/-- A job that asks for infinitely many failures, as `1e400` in a request does, succeeds at its
first attempt. -/
theorem not_driven_to_end : ¬∀ (operators : ℕ → String) (input : CreateJobInput),
    1 ≤ input.maxAttempts → Prog.Ensures handle
      (fun r w' => ∃ jobId attempts, r = .ok (jobId, some attempts) ∧
        ∃ job ∈ w'.jobs.lookup jobId,
          job.status = if SucceedsAsAsked input then .COMPLETED else .FAILED)
      (drive operators input.maxAttempts input) .empty := by
  intro h
  have hgoes : (drive (fun _ => "bob") 2
      ⟨"ingest", "batch", [("failTimes", .infinity false)], 1, 2, "alice"⟩).goes handle
        (CommandSession.smooth 1) 0 .empty = true := by decide +kernel
  have hcompleted : ∀ job ∈ ((drive (fun _ => "bob") 2
      ⟨"ingest", "batch", [("failTimes", .infinity false)], 1, 2, "alice"⟩).run handle
        (CommandSession.smooth 1) 0 .empty).2.jobs.rows, job.status = .COMPLETED := by
    decide +kernel
  obtain ⟨jobId, attempts, -, job, hjob, hstatus⟩ := (h (fun _ => "bob")
    ⟨"ingest", "batch", [("failTimes", .infinity false)], 1, 2, "alice"⟩ (by decide)).run hgoes
  rw [hcompleted job (Table.lookup_eq_some.mp hjob).1, if_neg fun hasked => hasked.1 rfl] at hstatus
  cases hstatus

end RealtimeOps
