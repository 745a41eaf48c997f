import Mathlib.Logic.Function.Basic
import RealtimeOps.AttemptCount
import RealtimeOps.Books
import RealtimeOps.JobDebt
import RealtimeOps.Stranding

/-!
# The audit log of jobs

A job's entries should replay to its stored status, and the latest `job.processing` should carry
its attempt counter. A save and its entry are apart, and nothing orders the entries of two calls
as their saves. The execution of a job that fails saves FAILED and then writes the alert, the
incident and the notification before it logs `job.failed`; a retry in between logs `job.retried`
first, and the log ends in FAILED while the job is queued (`not_log_replays`).

`JobLog` is what holds of the jobs, the entries and the debts of the calls at any time. It is kept
as long as the call that has saved a job last also logs it last, and each retry finds the counter
it has read (`InOrder`), and in the end gives `log_replays`.
-/

set_option autoImplicit false

namespace RealtimeOps

open Interleaving PhaseMachine JobService JobProcessorService

/-! ## Reading the log of a job -/

/-- The entry is a `job.processing` of the job. -/
def CreateAuditEntryInput.startsJob (c : CreateAuditEntryInput) (jobId : Uuid) : Prop :=
  c.entityType = .JOB ∧ c.entityId = some jobId ∧ c.action = "job.processing"

instance (c : CreateAuditEntryInput) (jobId : Uuid) : Decidable (c.startsJob jobId) :=
  inferInstanceAs (Decidable (_ ∧ _))

/-- The attempt number in the latest `job.processing` of the job, 0 if there is none. -/
def lastAttempt (trail : List CreateAuditEntryInput) (jobId : Uuid) : Json :=
  match (trail.filter fun c => c.startsJob jobId).getLast? with
  | some c => (c.metadata.lookup "attemptNumber").getD .null
  | none => .num 0

theorem lastAttempt_concat (trail : List CreateAuditEntryInput) (c : CreateAuditEntryInput)
    (jobId : Uuid) :
    lastAttempt (trail ++ [c]) jobId =
      if c.startsJob jobId then (c.metadata.lookup "attemptNumber").getD .null
      else lastAttempt trail jobId := by
  unfold lastAttempt
  rw [List.filter_append, List.filter_singleton]
  split_ifs with h
  · simp [h]
  · simp [h]

/-- The status the entries of the job replay to. -/
def loggedStatus (trail : List CreateAuditEntryInput) (jobId : Uuid) : Option JobStatus :=
  replay jobStatusAfter (actionsOn trail .JOB jobId)

theorem loggedStatus_concat (trail : List CreateAuditEntryInput) (c : CreateAuditEntryInput)
    (jobId : Uuid) :
    loggedStatus (trail ++ [c]) jobId =
      if c.entityType = .JOB ∧ c.entityId = some jobId then
        (jobStatusAfter c.action <|> loggedStatus trail jobId)
      else loggedStatus trail jobId := by
  unfold loggedStatus
  rw [actionsOn_append, actionsOn_cons, actionsOn_nil]
  split_ifs
  · exact replay_concat _ _ _
  · rw [List.append_nil]

/-- An entry about something else changes neither. -/
theorem logged_concat_of_ne {trail : List CreateAuditEntryInput} {c : CreateAuditEntryInput}
    {jobId : Uuid} (h : ¬(c.entityType = .JOB ∧ c.entityId = some jobId)) :
    loggedStatus (trail ++ [c]) jobId = loggedStatus trail jobId ∧
      lastAttempt (trail ++ [c]) jobId = lastAttempt trail jobId := by
  rw [loggedStatus_concat, lastAttempt_concat, if_neg h,
    if_neg fun hstarts : c.startsJob jobId => h ⟨hstarts.1, hstarts.2.1⟩]
  exact ⟨rfl, rfl⟩

/-! ## The ledger -/

/-- Nobody owes an entry about the job. -/
def NoDebt (owes : ℕ → Option JobEntity) (jobId : Uuid) : Prop :=
  ∀ i, ∀ row ∈ owes i, row.id ≠ jobId

/-- What holds of the jobs, their entries and what the threads owe. -/
structure JobLog (jobs : Table JobEntity.id) (trail : List CreateAuditEntryInput)
    (owes : ℕ → Option JobEntity) : Prop where
  /-- Entries are owed about stored jobs. -/
  stored : ∀ i, ∀ row ∈ owes i, (jobs.lookup row.id).isSome
  /-- Before there is a job nothing is logged as processing it. -/
  fresh : ∀ jobId, jobs.lookup jobId = none → lastAttempt trail jobId = .num 0
  /-- The entry about a stored row is owed, or no entry about the job is and they replay. -/
  status : ∀ row ∈ jobs.rows, (∃ i, owes i = some row) ∨
    (NoDebt owes row.id ∧ loggedStatus trail row.id = some row.status)
  /-- The counter of a stored row is logged, or somebody owes its entry. -/
  attempt : ∀ row ∈ jobs.rows,
    (∃ i, ∃ row' ∈ owes i, row'.id = row.id ∧ row'.status = .PROCESSING) ∨
      lastAttempt trail row.id = .num row.attemptCount

namespace JobLog

variable {jobs jobs' : Table JobEntity.id} {trail : List CreateAuditEntryInput}
  {owes : ℕ → Option JobEntity} {i : ℕ} {row : JobEntity} {c : CreateAuditEntryInput}

theorem empty : JobLog .empty [] fun _ => none where
  stored i row hrow := by cases hrow
  fresh jobId hnone := rfl
  status row hrow := by cases hrow
  attempt row hrow := by cases hrow

/-- What is owed is still owed when a thread that owed nothing takes a debt. -/
theorem owes_taken {k : ℕ} {r : JobEntity} (hi : owes i = none) (hk : owes k = some r) :
    Function.update owes i (some row) k = some r := by
  rw [Function.update_of_ne]
  · exact hk
  · rintro rfl
    cases hi.symm.trans hk

/-- When a thread has paid, what is owed is what the others owed. -/
theorem owes_paid {k : ℕ} {r : JobEntity} :
    Function.update owes i none k = some r ↔ k ≠ i ∧ owes k = some r := by
  rw [Function.update_apply]
  split_ifs with hki
  · simp [hki]
  · simp [hki]

/-- Who owes another row is not the thread that pays for this one. -/
theorem owes_paid_of_ne {k : ℕ} {r : JobEntity} (hi : owes i = some row) (hr : row ≠ r)
    (hk : owes k = some r) : Function.update owes i none k = some r := by
  refine owes_paid.mpr ⟨?_, hk⟩
  rintro rfl
  exact hr (Option.some.inj (hi.symm.trans hk))

/-- The stored rows after the write of one. -/
theorem mem_of_write (hlookup : ∀ jobId, jobs'.lookup jobId =
    if row.id = jobId then some row else jobs.lookup jobId) {r : JobEntity} (hr : r ∈ jobs'.rows) :
    r = row ∨ r.id ≠ row.id ∧ r ∈ jobs.rows := by
  have hl := Table.lookup_of_mem hr
  rw [hlookup] at hl
  split_ifs at hl with hid
  · exact .inl (Option.some.inj hl).symm
  · exact .inr ⟨Ne.symm hid, Table.mem_iff_lookup.mpr hl⟩

/-- The counter of a stored row stays logged or owed when a thread takes a debt. -/
theorem attempt_taken (h : JobLog jobs trail owes) (hi : owes i = none) (row : JobEntity)
    {r : JobEntity} (hr : r ∈ jobs.rows) :
    (∃ k, ∃ r' ∈ Function.update owes i (some row) k, r'.id = r.id ∧ r'.status = .PROCESSING) ∨
      lastAttempt trail r.id = .num r.attemptCount := by
  obtain ⟨k, r', hk, hr'⟩ | hlast := h.attempt r hr
  · exact .inl ⟨k, r', owes_taken hi hk, hr'⟩
  · exact .inr hlast

/-- A thread that owed nothing has written a row, and owes its entry. -/
theorem write (h : JobLog jobs trail owes) (hi : owes i = none)
    (hlookup : ∀ jobId, jobs'.lookup jobId =
      if row.id = jobId then some row else jobs.lookup jobId)
    (hcount : row.status = .PROCESSING ∨ lastAttempt trail row.id = .num row.attemptCount ∨
      ∃ before ∈ jobs.lookup row.id, before.attemptCount = row.attemptCount) :
    JobLog jobs' trail (Function.update owes i (some row)) := by
  refine ⟨fun k r hk => ?_, fun jobId hnone => ?_, fun r hr => ?_, fun r hr => ?_⟩
  · rw [hlookup]
    split_ifs with hid
    · rfl
    · rw [Option.mem_def, Function.update_apply] at hk
      split_ifs at hk with hki
      · cases hk
        exact absurd rfl hid
      · exact h.stored k r hk
  · rw [hlookup] at hnone
    split_ifs at hnone
    exact h.fresh jobId hnone
  · rcases mem_of_write hlookup hr with rfl | ⟨hne, hr⟩
    · exact .inl ⟨i, Function.update_self _ _ _⟩
    · obtain ⟨k, hk⟩ | ⟨hdebt, hlogged⟩ := h.status r hr
      · exact .inl ⟨k, owes_taken hi hk⟩
      · refine .inr ⟨fun k r' hk => ?_, hlogged⟩
        rw [Option.mem_def, Function.update_apply] at hk
        split_ifs at hk
        · cases hk
          exact Ne.symm hne
        · exact hdebt k r' hk
  · rcases mem_of_write hlookup hr with rfl | ⟨hne, hr⟩
    · obtain hs | hlast | ⟨before, hbefore, hcount⟩ := hcount
      · exact .inl ⟨i, r, Function.update_self _ _ _, rfl, hs⟩
      · exact .inr hlast
      · obtain ⟨hbefore, hid⟩ := Table.lookup_eq_some.mp hbefore
        have hattempt := h.attempt_taken hi r hbefore
        rwa [hid, hcount] at hattempt
    · exact h.attempt_taken hi _ hr

/-- An entry about something else. -/
theorem aside (h : JobLog jobs trail owes) (hc : c.entityType ≠ .JOB) :
    JobLog jobs (trail ++ [c]) owes := by
  have hsame (jobId : Uuid) : loggedStatus (trail ++ [c]) jobId = loggedStatus trail jobId ∧
      lastAttempt (trail ++ [c]) jobId = lastAttempt trail jobId :=
    logged_concat_of_ne fun hjob => hc hjob.1
  refine ⟨h.stored, fun jobId hnone => ?_, fun row hrow => ?_, fun row hrow => ?_⟩
  · rw [(hsame jobId).2]
    exact h.fresh jobId hnone
  · rw [(hsame row.id).1]
    exact h.status row hrow
  · rw [(hsame row.id).2]
    exact h.attempt row hrow

/-- An entry about one job changes nothing about another. -/
theorem logged_of_ne (hc : Clears c row) {jobId : Uuid} (hne : row.id ≠ jobId) :
    loggedStatus (trail ++ [c]) jobId = loggedStatus trail jobId ∧
      lastAttempt (trail ++ [c]) jobId = lastAttempt trail jobId :=
  logged_concat_of_ne fun habout => hne (Option.some.inj (hc.entityId.symm.trans habout.2))

/-- The entry about the row a thread has written : the statuses. -/
theorem status_paid (h : JobLog jobs trail owes) (hi : owes i = some row) (hc : Clears c row)
    (hlast : jobs.lookup row.id = some row → ∀ j ≠ i, ∀ row' ∈ owes j, row'.id ≠ row.id)
    {r : JobEntity} (hr : r ∈ jobs.rows) :
    (∃ k, Function.update owes i none k = some r) ∨
      (NoDebt (Function.update owes i none) r.id ∧
        loggedStatus (trail ++ [c]) r.id = some r.status) := by
  by_cases hrow : row = r
  · subst hrow
    refine .inr ⟨fun k r' hk => ?_, ?_⟩
    · obtain ⟨hne, hk⟩ := owes_paid.mp hk
      exact hlast (Table.lookup_of_mem hr) k hne r' hk
    · rw [loggedStatus_concat, if_pos ⟨hc.entityType, hc.entityId⟩, hc.status]
      rfl
  · obtain ⟨k, hk⟩ | ⟨hdebt, hlogged⟩ := h.status r hr
    · exact .inl ⟨k, owes_paid_of_ne hi hrow hk⟩
    · rw [(logged_of_ne hc (hdebt i row hi)).1]
      exact .inr ⟨fun k r' hk => hdebt k r' (owes_paid.mp hk).2, hlogged⟩

/-- The entry about the row a thread has written : the counters. -/
theorem attempt_paid (h : JobLog jobs trail owes) (hi : owes i = some row) (hc : Clears c row)
    (hcount : row.status = .PROCESSING → ∀ stored ∈ jobs.lookup row.id,
      stored.attemptCount = row.attemptCount) {r : JobEntity} (hr : r ∈ jobs.rows) :
    (∃ k, ∃ r' ∈ Function.update owes i none k, r'.id = r.id ∧ r'.status = .PROCESSING) ∨
      lastAttempt (trail ++ [c]) r.id = .num r.attemptCount := by
  by_cases hstarts : c.startsJob r.id
  · have hid : row.id = r.id := Option.some.inj (hc.entityId.symm.trans hstarts.2.1)
    have hs : row.status = .PROCESSING :=
      Option.some.inj (hc.status.symm.trans (jobStatusAfter_eq_processing.mpr hstarts.2.2))
    rw [lastAttempt_concat, if_pos hstarts, hc.attempt hs,
      hcount hs r (hid ▸ Table.lookup_of_mem hr)]
    exact .inr rfl
  · rw [lastAttempt_concat, if_neg hstarts]
    obtain ⟨k, r', hk, hid, hs⟩ | hlast := h.attempt r hr
    · refine .inl ⟨k, r', owes_paid_of_ne hi ?_ hk, hid, hs⟩
      -- had the thread owed the entry of an attempt, the entry would be one
      rintro rfl
      exact hstarts ⟨hc.entityType, hid ▸ hc.entityId,
        jobStatusAfter_eq_processing.mp (hs ▸ hc.status)⟩
    · exact .inr hlast

/-- A thread logs the row it has written. If that is the stored row, nobody else owes an entry
about the job. -/
theorem log (h : JobLog jobs trail owes) (hi : owes i = some row) (hc : Clears c row)
    (hcount : row.status = .PROCESSING → ∀ stored ∈ jobs.lookup row.id,
      stored.attemptCount = row.attemptCount)
    (hlast : jobs.lookup row.id = some row → ∀ j ≠ i, ∀ row' ∈ owes j, row'.id ≠ row.id) :
    JobLog jobs (trail ++ [c]) (Function.update owes i none) := by
  refine ⟨fun k r hk => h.stored k r (owes_paid.mp hk).2, fun jobId hnone => ?_,
    fun r hr => h.status_paid hi hc hlast hr, fun r hr => h.attempt_paid hi hc hcount hr⟩
  have hne : row.id ≠ jobId := by
    rintro rfl
    exact absurd (h.stored i row hi) (by simp [hnone])
  rw [(logged_of_ne hc hne).2]
  exact h.fresh jobId hnone

end JobLog

/-! ## One call -/

/-- A call that neither writes a job nor an entry. -/
theorem perform_unwritten {e : Env} {w w' : World} {op : Op} {reply : op.Reply}
    (h : perform e w op = some (reply, w')) (hjob : op.writes reply = none)
    (hentry : ∀ c, op ≠ .insertAuditEntry c) :
    w'.jobs = w.jobs ∧ w'.auditEntries = w.auditEntries := by
  cases op <;>
    simp only [perform, Option.ite_none_right_eq_some, Option.map_eq_some_iff, Prod.mk.injEq,
      Option.some.injEq] at h <;> grind [Op.writes]

/-- A call does to the log what it does to the debt of its thread. -/
theorem JobLog.answer {e : Env} {w w' : World} {op : Op} {reply : op.Reply} {i : ℕ}
    {owes : ℕ → Option JobEntity} (h : JobLog w.jobs w.books.trail owes)
    (hp : perform e w op = some (reply, w')) (hpermits : Permits op (owes i))
    (hnew : ∀ columns, op = .insertJob columns → columns.attemptCount = 0)
    (hsave : ∀ job ∈ op.saves, job.status = .PROCESSING ∨
      ∃ before ∈ w.jobs.lookup job.id, before.attemptCount = job.attemptCount)
    (hcount : ∀ row ∈ owes i, row.status = .PROCESSING → ∀ stored ∈ w.jobs.lookup row.id,
      stored.attemptCount = row.attemptCount)
    (hlast : op.logsJob = true → ∀ row ∈ owes i, w.jobs.lookup row.id = some row →
      ∀ j ≠ i, ∀ row' ∈ owes j, row'.id ≠ row.id) :
    JobLog w'.jobs w'.books.trail (Function.update owes i (op.debt reply (owes i))) := by
  have hunwritten (hjob : op.writes reply = none) (hentry : ∀ c, op ≠ .insertAuditEntry c)
      (hkeep : op.debt reply (owes i) = owes i) :
      JobLog w'.jobs w'.books.trail (Function.update owes i (op.debt reply (owes i))) := by
    obtain ⟨hjobs, hentries⟩ := perform_unwritten hp hjob hentry
    rw [hkeep, Function.update_eq_self, hjobs, World.books, hentries]
    exact h
  cases op with
  | insertJob columns =>
    obtain ⟨-, jobs, hjobs, rfl, rfl⟩ := perform_insertJob hp
    refine h.write hpermits (Table.lookup_insert hjobs) (.inr (.inl ?_))
    have hfree := Table.lookup_eq_none.mpr (Table.insert_eq_some hjobs).2
    rw [h.fresh _ hfree]
    exact congrArg (fun n : ℕ => Json.num n) (hnew columns rfl).symm
  | saveJob job =>
    cases hp
    exact h.write hpermits (fun jobId => Table.lookup_save _ _ _) ((hsave job rfl).imp id .inr)
  | insertAuditEntry columns =>
    obtain ⟨-, entries, hentries, -, rfl⟩ := perform_insertAuditEntry hp
    change JobLog w.jobs (entries.rows.map (·.toCreateAuditEntryInput)) _
    rw [trail_insert hentries]
    by_cases hjob : columns.entityType = .JOB
    · obtain ⟨row, hrow, hc⟩ := hpermits hjob
      have hnone : (Op.insertAuditEntry columns).debt reply (owes i) = none := by
        simp [Op.debt, Op.writes, Op.logsJob, hjob]
      rw [hnone]
      exact h.log hrow hc (hcount row hrow) (hlast (by simp [Op.logsJob, hjob]) row hrow)
    · have hkeep : (Op.insertAuditEntry columns).debt reply (owes i) = owes i := by
        simp [Op.debt, Op.writes, Op.logsJob, hjob]
      rw [hkeep, Function.update_eq_self]
      exact h.aside hjob
  | _ => exact hunwritten rfl (by simp) rfl

/-- What a call saves is a job in processing, or has the stored counter. -/
theorem Effect.saves_counted {e : Env} {op : Op} {reply : op.Reply} {c c' : JobStore}
    {q q' : JobPhase} (h : Effect e op reply c q c' q') (hq : Numbered c q)
    (hretry : ∀ job ∈ op.saves, job.status = .QUEUED →
      ∃ row ∈ c.jobs.lookup job.id, row.attemptCount = job.attemptCount) :
    ∀ job ∈ op.saves, job.status = .PROCESSING ∨
      ∃ before ∈ c.jobs.lookup job.id, before.attemptCount = job.attemptCount := by
  intro job hjob
  cases h with
  | neutral _ _ _ hop =>
    have hsaves : op.saves = none := by
      cases op <;> first | rfl | cases hop
    rw [hsaves] at hjob
    cases hjob
  | requeue =>
    cases hjob
    exact .inr (hretry _ rfl rfl)
  | start =>
    cases hjob
    exact .inl rfl
  | complete | fail =>
    cases hjob
    obtain ⟨before, hbefore, hcount⟩ := hq
    exact .inr ⟨before, hbefore, hcount⟩
  | _ => cases hjob

/-- A new job has no attempt yet. -/
theorem Effect.insertJob_attemptCount {e : Env} {columns : JobColumns} {reply : JobEntity}
    {c c' : JobStore} {q q' : JobPhase} (h : Effect e (.insertJob columns) reply c q c' q') :
    columns.attemptCount = 0 := by
  cases h with
  | neutral _ _ _ hop => cases hop
  | create => rfl

/-- A thread that owes the entry about a job in processing has just started it. -/
theorem Effect.started {e : Env} {op : Op} {reply : op.Reply} {c c' : JobStore} {q q' : JobPhase}
    {owed : Option JobEntity} (h : Effect e op reply c q c' q')
    (hq : ∀ row ∈ owed, row.status = .PROCESSING → q = .started row) (hop : Permits op owed) :
    ∀ row ∈ op.debt reply owed, row.status = .PROCESSING → q' = .started row := by
  intro row hrow hs
  cases h with
  | neutral _ _ _ hneutral =>
    refine hq row ?_ hs
    have hwrites : op.writes reply = none := by
      cases op <;> first | rfl | cases hneutral
    rw [Op.debt, hwrites] at hrow
    dsimp only at hrow
    split_ifs at hrow
    · cases hrow
    · exact hrow
  | create hcreated =>
    cases hrow
    rw [hcreated] at hs
    cases hs
  | requeue hrequeued =>
    cases hrow
    rw [hrequeued] at hs
    cases hs
  | start =>
    cases hrow
    rfl
  | complete _ hcompleted =>
    cases hrow
    rw [hcompleted] at hs
    cases hs
  | fail _ hfailed =>
    cases hrow
    rw [hfailed] at hs
    cases hs
  | attempt =>
    cases (show owed = none from hop)
    cases hrow
  | _ => cases hq row hrow hs

/-! ## Runs -/

/-- The call that has saved a job last also logs it last : when a thread logs about the stored
row, nobody else owes an entry about the job. -/
def LogsLast (s : State) (i : ℕ) (op : Op) : Prop :=
  op.logsJob = true → ∀ row ∈ owes s i, s.world.jobs.lookup row.id = some row →
    ∀ j < s.threads.length, j ≠ i → ∀ row' ∈ owes s j, row'.id ≠ row.id

instance (s : State) (i : ℕ) (op : Op) : Decidable (LogsLast s i op) :=
  inferInstanceAs (Decidable (_ → ∀ row ∈ owes s i, _ → ∀ j < _, _ → ∀ row' ∈ owes s j, _))

/-- A move of a run without failures in which the last to save a job is the last to log it, and
a retry saves over the counter it has read. -/
def InOrder (s : State) (m : Label) : Prop :=
  Unfailing m ∧ Resolves s m ∧ Answers s (fun i _ op => LogsLast s i op ∧
    ∀ job ∈ op.saves, job.status = .QUEUED →
      ∃ row ∈ s.world.jobs.lookup job.id, row.attemptCount = job.attemptCount) m

instance (s : State) : DecidablePred (InOrder s) := fun _ =>
  inferInstanceAs (Decidable (_ ∧ _ ∧ _))

theorem InOrder.keysLast {s : State} {m : Label} (h : InOrder s m) : KeysLast s m := by
  cases m with
  | expire => exact h.1.elim
  | _ => trivial

theorem InOrder.retryHolds {s : State} {A : Multiset JobLocal} {m : Label} (h : InOrder s m) :
    RetryHolds s A m := by
  rintro l - i e op job rfl hop - - rfl row hrow
  obtain ⟨row', hrow', hn⟩ := (h.2.2 _ hop).2 _ rfl rfl
  cases hrow.symm.trans hrow'
  exact hn

/-- The invariant : one holder a job, counters that bound the attempts, debts that are read off
the answered calls, and the log they leave. -/
structure Audited (s : State) (A : Multiset JobLocal) (B : Multiset debtMachine.Local) :
    Prop where
  locked : Locked s A
  counted : Counted s.world.store A
  /-- Who owes the entry about a job in processing has just started it. -/
  started : ∀ l ∈ A, ∀ row ∈ owed l.past, row.status = .PROCESSING → l.phase = .started row
  debts : ∀ l ∈ B, l.phase = .fine (owed l.past)
  log : JobLog s.world.jobs s.world.books.trail (owes s)

/-- A call is answered. Its thread may make it, and what is owed changes at this thread alone. -/
theorem debts_advance {s s' : State} {B : Multiset debtMachine.Local}
    (hB : debtMachine.Abstracts handle s B) (h : ∀ l ∈ B, l.phase = .fine (owed l.past)) {i : ℕ}
    {e : Env} {op : Op} {reply : op.Reply} (hs : s.advance handle i e = some s')
    (hop : s.awaited i = some op) (hr : (handle e op s.world).1 = .ok reply) :
    perform e { s.world with clock := e.now } op = some (reply, s'.world) ∧
      Permits op (owes s i) ∧ owes s' = Function.update (owes s) i (op.debt reply (owes s i)) ∧
      ∃ B', debtMachine.Abstracts handle s' B' ∧ ∀ l ∈ B', l.phase = .fine (owed l.past) := by
  obtain ⟨op', l, q, rest, hop', rfl, hpast, hmove, hB'⟩ := hB.advance hs
  cases hop.symm.trans hop'
  obtain ⟨hl, hrest⟩ := Multiset.forall_mem_cons.mp h
  obtain ⟨op', k, hk, rfl⟩ := Pool.advance_eq_some hs
  cases hop.symm.trans (Pool.awaited_eq_some.mpr ⟨k, hk⟩)
  rw [hr] at hmove
  rw [hl, hpast] at hmove
  cases hmove with
  | done _ hpermits =>
    refine ⟨(handle_eq_ok (Prod.ext hr rfl)).1, hpermits, ?_, _, hB', ?_⟩
    · funext j
      rw [owes, Pool.past_append rfl j, hr, Function.update_apply]
      by_cases hij : i = j
      · rw [if_pos hij, if_pos hij.symm, owed_concat, ← hij]
        rfl
      · rw [if_neg hij, if_neg (Ne.symm hij), List.append_nil]
        rfl
    · refine Multiset.forall_mem_cons.mpr ⟨?_, hrest⟩
      rw [hpast, hr, owed_concat]

namespace Audited

variable {s s' : State} {A : Multiset JobLocal} {B : Multiset debtMachine.Local}

/-- An answered call. -/
theorem answer (hA : Jobs s A) (hB : debtMachine.Abstracts handle s B) (h : Audited s A B) {i : ℕ}
    {e : Env} (hm : InOrder s (.step i e)) (hs : RealtimeOps.step s (.step i e) = some s') :
    ∃ A' B', Jobs s' A' ∧ debtMachine.Abstracts handle s' B' ∧ Audited s' A' B' := by
  obtain ⟨A', ht, hA'⟩ := turn_of_step hA hs
  have hL' := h.locked.turn hA hm.keysLast ht
  have hC' := (counted_turn h.locked h.counted hm.retryHolds ht).2
  rw [step_step] at hs
  obtain ⟨-, hs⟩ := hs
  cases ht with
  | @step _ _ _ op l q rest hop hpast hlog hnow hclock hmove =>
    obtain ⟨-, hok, hordered⟩ := hm
    obtain ⟨hlast, hretry⟩ := hordered op hop
    obtain ⟨reply, hr, he⟩ := hmove.effect (hok op hop)
    obtain ⟨hperform, hpermits, howes, B', hB', hdebts⟩ := debts_advance hB h.debts hs hop hr
    obtain ⟨hl, hrest⟩ := Multiset.forall_mem_cons.mp h.started
    obtain ⟨hnum, -⟩ := Multiset.forall_mem_cons.mp h.counted.numbered
    have howed : owes s i = owed l.past := congrArg owed hpast.symm
    refine ⟨_, B', hA', hB', hL', hC', Multiset.forall_mem_cons.mpr ⟨?_, hrest⟩, hdebts, ?_⟩
    · rw [entry, hr]
      intro row hrow
      rw [owed_concat] at hrow
      exact he.started hl (howed ▸ hpermits) row hrow
    · rw [howes]
      refine JobLog.answer (w := { s.world with clock := e.now }) h.log hperform hpermits ?_
        (he.saves_counted hnum hretry) ?_ ?_
      · rintro columns rfl
        exact he.insertJob_attemptCount
      · intro row hrow hs stored hstored
        rw [howed] at hrow
        rw [hl row hrow hs] at hnum
        obtain ⟨⟨before, hbefore, hcount⟩, -⟩ := hnum
        cases hstored.symm.trans hbefore
        exact hcount
      · intro hlogs row hrow hstored j hj row' hrow'
        by_cases hlt : j < s.threads.length
        · exact hlast hlogs row hrow hstored j hlt hj row' hrow'
        · have hpast := hA.past_eq_nil (List.getElem?_eq_none (Nat.not_lt.mp hlt))
          rw [owes, hpast] at hrow'
          cases hrow'

/-- A move that answers no call. -/
theorem unanswered (hA : Jobs s A) (h : Audited s A B) {m : Label} (hm : InOrder s m)
    (hs : RealtimeOps.step s m = some s') (hno : ¬Answering m)
    (hjobs : s'.world.jobs = s.world.jobs) (htrail : s'.world.books.trail = s.world.books.trail)
    (howes : owes s' = owes s) {B' : Multiset debtMachine.Local}
    (hB' : debtMachine.Abstracts handle s' B') (hdebts : ∀ l ∈ B', l.phase = .fine (owed l.past)) :
    ∃ A' B', Jobs s' A' ∧ debtMachine.Abstracts handle s' B' ∧ Audited s' A' B' := by
  obtain ⟨A', ht, hA'⟩ := turn_of_step hA hs
  refine ⟨A', B', hA', hB', h.locked.turn hA hm.keysLast ht,
    (counted_turn h.locked h.counted hm.retryHolds ht).2, ?_, hdebts, ?_⟩
  · refine ht.forall (fun call row hrow => by cases hrow) ?_ ?_ h.started
    · rintro i l rfl
      exact hm.1.elim
    · rintro i e op l q rfl
      exact absurd trivial hno
  · rw [hjobs, htrail, howes]
    exact h.log

/-- Every move of a run in order keeps the invariant. -/
theorem step (hA : Jobs s A) (hB : debtMachine.Abstracts handle s B) (h : Audited s A B)
    {m : Label} (hm : InOrder s m) (hs : RealtimeOps.step s m = some s') :
    ∃ A' B', Jobs s' A' ∧ debtMachine.Abstracts handle s' B' ∧ Audited s' A' B' := by
  have hdebts (l : debtMachine.Local) (hl : l = ⟨.fine none, []⟩) :
      ∀ l' ∈ l ::ₘ B, l'.phase = .fine (owed l'.past) :=
    Multiset.forall_mem_cons.mpr ⟨hl ▸ rfl, h.debts⟩
  cases m with
  | start call =>
    have hs' := hs
    cases hs'
    exact h.unanswered hA hm hs id rfl rfl rfl (hB.spawn (sim_debt call)) (hdebts _ rfl)
  | deliver n =>
    obtain ⟨m, -, rfl⟩ := Option.map_eq_some_iff.mp (show deliver n s = some s' from hs)
    exact h.unanswered hA hm hs id rfl rfl rfl
      ((hB.world _).spawn (sim_debt (.consume ⟨s.world.nextTag, m⟩))) (hdebts _ rfl)
  | step i e => exact h.answer hA hB hm hs
  | redeliver tag =>
    obtain ⟨w, hw, rfl⟩ := Option.map_eq_some_iff.mp hs
    obtain ⟨d, -, rfl⟩ := Option.map_eq_some_iff.mp hw
    exact h.unanswered hA hm hs id rfl rfl rfl (hB.world _) h.debts
  | stop | expire => exact hm.1.elim

end Audited

/-- The entries of each job replay to its stored status, and its latest `job.processing` carries
its attempt counter. -/
def JobsReplay (w : World) : Prop :=
  ∀ row ∈ w.jobs.rows, loggedStatus w.books.trail row.id = some row.status ∧
    lastAttempt w.books.trail row.id = .num row.attemptCount

instance (w : World) : Decidable (JobsReplay w) :=
  inferInstanceAs (Decidable (∀ row ∈ _, _ ∧ _))

/-- Nobody owes an entry once every call has returned. -/
theorem owes_of_finished {s : State} {B : Multiset debtMachine.Local}
    (hB : debtMachine.Abstracts handle s B) (h : ∀ l ∈ B, l.phase = .fine (owed l.past))
    (hs : s.Finished) (i : ℕ) : owes s i = none := by
  by_cases hi : i < s.threads.length
  · obtain ⟨r, hr⟩ := Option.isSome_iff_exists.mp (hs i hi)
    obtain ⟨l, hl, hpast, hends⟩ := hB.exists_ended hr
    rw [h l hl, hpast] at hends
    exact hends
  · rw [owes, hB.past_eq_nil (List.getElem?_eq_none (Nat.not_lt.mp hi))]
    rfl

/-- From empty tables, in every run without failures in which the last to save a job is the last
to log it and a retry saves over the counter it has read : once every call has returned, the log
of each job replays to its row. -/
theorem log_replays {s : State} (h : Reachable step InOrder (State.init .empty) s)
    (hq : Quiescent s) : JobsReplay s.world := by
  obtain ⟨A, B, hA, hB, hI⟩ : ∃ A B, Jobs s A ∧ debtMachine.Abstracts handle s B ∧
      Audited s A B := by
    refine h.invariant (I := fun s => ∃ A B, Jobs s A ∧ debtMachine.Abstracts handle s B ∧
      Audited s A B) ?_ ?_
    · rintro s m s' ⟨A, B, hA, hB, hI⟩ hm hs
      exact hI.step hA hB hm hs
    · exact ⟨0, 0, .init _, .init _, ⟨fun _ => Nat.zero_le _, by simp⟩,
        ⟨fun _ ha => absurd ha List.not_mem_nil, by simp⟩, by simp, by simp, .empty⟩
  have hnone := owes_of_finished hB hI.debts hq.1
  intro row hrow
  constructor
  · obtain ⟨i, hi⟩ | ⟨-, hlogged⟩ := hI.log.status row hrow
    · cases (hnone i).symm.trans hi
    · exact hlogged
  · obtain ⟨i, row', hi, -⟩ | hlast := hI.log.attempt row hrow
    · cases (hnone i).symm.trans hi
    · exact hlast

/-- A job fails, is retried once its failure is reported, and completes in its second attempt. -/
theorem log_replays_completed : ∃ s : State, Quiescent s ∧ JobsReplay s.world ∧
    ∃ row ∈ s.world.jobs.rows, row.status = .COMPLETED ∧ row.attemptCount = 2 := by
  obtain ⟨s, hs, hq, hrow⟩ : ∃ s, Reachable step InOrder (State.init .empty) s ∧
      Quiescent s ∧ ∃ row ∈ s.world.jobs.rows, row.status = .COMPLETED ∧ row.attemptCount = 2 :=
    exists_reachable_of_execute _
      (.start (.create ⟨"ingest", "batch", [("failTimes", .num 1)], 1, 3, "alice"⟩) ::
        calls 0 7 1 ++ [.deliver 0] ++ calls 1 20 10 ++ [.start (.retry 1 "alice")] ++
        calls 2 8 40 ++ [.deliver 0] ++ calls 3 17 60) _ (by decide)
  exact ⟨s, hq, log_replays hs hq, hrow⟩

/-- The label starts a retry. -/
def Label.retries : Label → Bool
  | .start (.retry _ _) => true
  | _ => false

/-- A single retry slips in between the save of a failure and its entry. -/
theorem not_log_replays : ¬∀ (ls : List Label) (s : State), ls.countP Label.retries ≤ 1 →
    execute step (fun s m => DeliversOnce m ∧ Unfailing m ∧ Resolves s m) (State.init .empty) ls =
      some s → Quiescent s → JobsReplay s.world := by
  intro hall
  obtain ⟨s, hs, hno⟩ := (Option.any_eq_true _ _).mp
    (show ((execute step (fun s m => DeliversOnce m ∧ Unfailing m ∧ Resolves s m)
      (State.init .empty) retryWhileReporting).any fun s =>
        decide (Quiescent s ∧ ¬JobsReplay s.world)) = true by decide)
  obtain ⟨hq, hno⟩ := of_decide_eq_true hno
  exact hno (hall retryWhileReporting s (by decide) hs hq)

end RealtimeOps
