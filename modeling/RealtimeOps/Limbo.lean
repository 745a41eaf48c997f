import RealtimeOps.Platform

/-!
# Jobs in limbo

One delivery of a queued job to a failing worker. `process` has no `catch` : an error goes
through its `finally` to the consumer, which drops the message without requeueing it. The
job is then where the last save left it. If that was the save of the result it has completed
or failed; before it, it is queued or processing with no message, and `retry` refuses it
(`not_outOfLimbo`).

`outOfLimbo_iff` says which choices of the environment are harmless. The calls of an
execution are counted from 0 : `SET NX` is 0, `findOne` 1, the save as processing 3, the
event 4, the audit entry 5, the attempt row 6, the save of the attempt 9 and the save of the
result 10; 2, 7 and 8 are the clock and the pause, which never reject.
-/

set_option autoImplicit false

namespace RealtimeOps

open Interleaving JobProcessorService

/-! ## One delivery -/

/-- The job has completed or failed. -/
def World.Ended (w : World) (jobId : Uuid) : Prop :=
  ∃ row ∈ w.jobs.lookup jobId, row.status = .COMPLETED ∨ row.status = .FAILED

/-- A message for the job waits or is with a consumer. -/
def World.HasMessage (w : World) (jobId : Uuid) : Prop :=
  (∃ m ∈ w.ready, m.jobId = some jobId) ∨ ∃ d ∈ w.unacked, d.message.jobId = some jobId

/-- If the execution of the delivered message rejects, then once the consumer has settled the
message the job has ended or has another message. -/
def OutOfLimbo (w : World) (tag : ℕ) (payload : QueuePayload) (jobId : Uuid)
    (script : ℕ → Env) : Prop :=
  ∀ err, ((JobProcessingConsumer.onMessage payload).run handle script 0 w).1 = .error err →
    ((Call.consume ⟨tag, ⟨some payload⟩⟩).prog.run handle script 0 w).2.Ended jobId ∨
      ((Call.consume ⟨tag, ⟨some payload⟩⟩).prog.run handle script 0 w).2.HasMessage jobId

/-- No call up to the save of the result fails, but that the answer of this save may be lost
after its effect. -/
structure ReachesResult (w : World) (job : JobEntity) (script : ℕ → Env) : Prop where
  resolves : ∀ k ∈ [0, 1, 3, 4, 5, 6, 9], (script k).outcome = .resolves
  saved : (script 10).outcome ≠ .rejects
  audit : ∀ a ∈ w.auditEntries.rows, a.id ≠ (script 5).uuid
  number : ∀ a ∈ w.attempts.rows, a.jobId = job.id → a.attemptNumber ≠ job.attemptCount + 1
  attempt : ∀ a ∈ w.attempts.rows, a.id ≠ (script 6).uuid

/-- The job has another message, or Redis answers that its lock is taken, or the execution
reaches its result. -/
def Harmless (w : World) (tag : ℕ) (job : JobEntity) (script : ℕ → Env) : Prop :=
  (∃ m ∈ w.ready, m.jobId = some job.id) ∨
    (∃ d ∈ w.unacked, d.tag ≠ tag ∧ d.message.jobId = some job.id) ∨
    ((w.locks.lookup (lockKey job.id)).isSome ∧ (script 0).outcome = .resolves) ∨
    ReachesResult w job script

/-! ## Calls that go through -/

/-- An audit entry with a fresh id and texts that fit is inserted. -/
theorem perform_insertAuditEntry_iff {e : Env} {w : World} {c : CreateAuditEntryInput}
    (ha : fits (c.actorId.getD "") 80) (hc : fits c.action 100) :
    (∃ res, perform e w (.insertAuditEntry c) = some res) ↔
      ∀ a ∈ w.auditEntries.rows, a.id ≠ e.uuid := by
  rw [exists_perform_insertAuditEntry]
  exact and_iff_right ⟨ha, hc⟩

/-- The attempt of an existing job is inserted if its number and its id are free. -/
theorem perform_insertAttempt_iff {e : Env} {w : World} {c : AttemptColumns} {j : JobEntity}
    (hjob : w.jobs.lookup c.jobId = some j) :
    (∃ res, perform e w (.insertAttempt c) = some res) ↔
      (∀ a ∈ w.attempts.rows, a.jobId = c.jobId → a.attemptNumber ≠ c.attemptNumber) ∧
        ∀ a ∈ w.attempts.rows, a.id ≠ e.uuid := by
  rw [exists_perform_insertAttempt, hjob]
  simp only [Option.isSome_some, true_and]

/-- The calls that write no job and no message. -/
def Op.quiet : Op → Bool
  | .insertJob _ | .saveJob _ | .sendToQueue _ | .ack _ | .nack _ => false
  | _ => true

/-- `w'` has the jobs and the messages of `w`. -/
structure SameQueue (w w' : World) : Prop where
  jobs : w'.jobs = w.jobs
  ready : w'.ready = w.ready
  unacked : w'.unacked = w.unacked

theorem SameQueue.trans {w w' w'' : World} (h : SameQueue w w') (h' : SameQueue w' w'') :
    SameQueue w w'' :=
  ⟨h'.jobs.trans h.jobs, h'.ready.trans h.ready, h'.unacked.trans h.unacked⟩

theorem handle_quiet {op : Op} (hop : op.quiet = true) (e : Env) (w : World) :
    SameQueue w (handle e op w).2 := by
  obtain h | ⟨reply, h⟩ := handle_world e op w
  · rw [h]
    exact ⟨rfl, rfl, rfl⟩
  · generalize (handle e op w).2 = w' at h
    cases op <;> simp only [Op.quiet, Bool.false_eq_true] at hop <;>
      simp only [perform, Option.ite_none_right_eq_some, Option.map_eq_some_iff, Prod.mk.injEq,
        Option.some.injEq] at h <;> grind [SameQueue]

/-! ## The execution -/

/-- The job has not ended, and the messages are those of `w`. -/
structure Halfway (w : World) (jobId : Uuid) (w' : World) : Prop where
  ready : w'.ready = w.ready
  unacked : w'.unacked = w.unacked
  row : ∃ row, w'.jobs.lookup jobId = some row ∧
    (row.status = .QUEUED ∨ row.status = .PROCESSING)

theorem Halfway.not_ended {w w' : World} {jobId : Uuid} (h : Halfway w jobId w') :
    ¬w'.Ended jobId := by
  rintro ⟨row, hrow, hs⟩
  obtain ⟨row', hrow', hs'⟩ := h.row
  cases hrow.symm.trans hrow'
  rcases hs with hs | hs <;> rw [hs] at hs' <;> simp at hs'

theorem Halfway.quiet {w w₁ w₂ : World} {jobId : Uuid} (h : Halfway w jobId w₁)
    (hq : SameQueue w₁ w₂) : Halfway w jobId w₂ :=
  ⟨hq.ready.trans h.ready, hq.unacked.trans h.unacked, by rw [hq.jobs]; exact h.row⟩

/-- The job is saved as processing, or the save fails. -/
theorem Halfway.save {w w₁ : World} {row : JobEntity} {jobId : Uuid} (h : Halfway w jobId w₁)
    (hid : row.id = jobId) (hs : row.status = .PROCESSING) (e : Env) :
    Halfway w jobId (handle e (.saveJob row) w₁).2 := by
  obtain hw | ⟨reply, hp⟩ := handle_world e (.saveJob row) w₁
  · rw [hw]
    exact h.quiet ⟨rfl, rfl, rfl⟩
  · obtain ⟨-, hw⟩ := Prod.mk.inj (Option.some.inj hp)
    rw [← hw]
    subst hid
    exact ⟨h.ready, h.unacked, _, Table.lookup_save_self w₁.jobs _, .inr hs⟩

/-- An execution that reaches its result ends the job; any other rejects halfway. -/
structure Verdict (w : World) (job : JobEntity) (script : ℕ → Env) (r : Except Failure Unit)
    (w' : World) : Prop where
  ready : w'.ready = w.ready
  unacked : w'.unacked = w.unacked
  reached : ReachesResult w job script → w'.Ended job.id
  missed : ¬ReachesResult w job script → (∃ err, r = .error err) ∧ ¬w'.Ended job.id

section Execution

variable {w : World} {job : JobEntity} {script : ℕ → Env}

/-- From a world the rest of an execution ends with its verdict. -/
abbrev Concludes (w : World) (job : JobEntity) (script : ℕ → Env) :
    Promise Unit → ℕ → World → Prop :=
  Prog.wp handle script fun r _ w' => Verdict w job script r w'

/-- A call before the result is saved : if it rejects, the execution misses its result. -/
theorem concludes_await {op : Op} {f : op.Reply → Promise Unit} {n : ℕ} {w₁ : World}
    (hgoes : ReachesResult w job script → (handle (script n) op w₁).1.isOk = true)
    (hstays : Halfway w job.id (handle (script n) op w₁).2)
    (hnext : ∀ reply w₂, Halfway w job.id w₂ →
      perform (script n) { w₁ with clock := (script n).now } op = some (reply, w₂) →
      (op.local = true ∨ (script n).outcome = .resolves) →
        Concludes w job script (f reply) (n + 1) w₂) :
    Concludes w job script ((await op).bind f) n w₁ := by
  change Prog.wp handle script _ ((Prog.resolve _).bind f) (n + 1) _
  cases hh : handle (script n) op w₁ with
  | mk r w₂ =>
    rw [hh] at hgoes hstays
    cases r with
    | ok reply =>
      obtain ⟨hp, ho⟩ := handle_eq_ok hh
      exact hnext reply w₂ hstays hp ho
    | error err =>
      exact ⟨hstays.ready, hstays.unacked, fun hr => (by cases hgoes hr),
        fun _ => ⟨⟨err, rfl⟩, hstays.not_ended⟩⟩

/-- A call that the world never refuses. -/
theorem concludes_plain {op : Op} {f : op.Reply → Promise Unit} {n : ℕ} {w₁ w₂ : World}
    {reply : op.Reply} (hp : perform (script n) { w₁ with clock := (script n).now } op =
      some (reply, w₂))
    (hgoes : ReachesResult w job script → op.local = true ∨ (script n).outcome = .resolves)
    (hstays : Halfway w job.id (handle (script n) op w₁).2)
    (hnext : Halfway w job.id w₂ → (op.local = true ∨ (script n).outcome = .resolves) →
      Concludes w job script (f reply) (n + 1) w₂) :
    Concludes w job script ((await op).bind f) n w₁ := by
  refine concludes_await (fun hr => ?_) hstays fun reply' w₂' h₂ hp' ho => ?_
  · rw [handle_of_perform hp (hgoes hr)]
    rfl
  · obtain ⟨rfl, rfl⟩ := Prod.mk.inj (Option.some.inj (hp.symm.trans hp'))
    exact hnext h₂ ho

theorem concludes_insertAuditEntry {c : CreateAuditEntryInput}
    {f : AuditEntryEntity → Promise Unit} {n : ℕ} {w₁ : World}
    (ha : fits (c.actorId.getD "") 80) (hc : fits c.action 100) (h : Halfway w job.id w₁)
    (hgoes : ReachesResult w job script → (script n).outcome = .resolves ∧
      ∀ a ∈ w₁.auditEntries.rows, a.id ≠ (script n).uuid)
    (hnext : ∀ entry w₂, Halfway w job.id w₂ → w₂.attempts = w₁.attempts →
      (script n).outcome = .resolves → (∀ a ∈ w₁.auditEntries.rows, a.id ≠ (script n).uuid) →
        Concludes w job script (f entry) (n + 1) w₂) :
    Concludes w job script ((await (.insertAuditEntry c)).bind f) n w₁ := by
  have hiff := perform_insertAuditEntry_iff (e := script n)
    (w := { w₁ with clock := (script n).now }) ha hc
  refine concludes_await (fun hr => ?_) (h.quiet (handle_quiet rfl _ _)) fun a w₂ h₂ hp ho => ?_
  · exact handle_isOk (hiff.mpr (hgoes hr).2) (hgoes hr).1
  · refine hnext a w₂ h₂ ?_ (ho.resolve_left Bool.false_ne_true) (hiff.mp ⟨_, hp⟩)
    obtain ⟨-, t, -, -, rfl⟩ := perform_insertAuditEntry hp
    rfl

theorem concludes_insertAttempt {c : AttemptColumns}
    {f : ProcessingAttemptEntity → Promise Unit} {n : ℕ} {w₁ : World}
    (hid : c.jobId = job.id) (h : Halfway w job.id w₁)
    (hgoes : ReachesResult w job script → (script n).outcome = .resolves ∧
      (∀ a ∈ w₁.attempts.rows, a.jobId = c.jobId → a.attemptNumber ≠ c.attemptNumber) ∧
        ∀ a ∈ w₁.attempts.rows, a.id ≠ (script n).uuid)
    (hnext : ∀ attempt w₂, Halfway w job.id w₂ → (script n).outcome = .resolves →
      (∀ a ∈ w₁.attempts.rows, a.jobId = c.jobId → a.attemptNumber ≠ c.attemptNumber) →
        (∀ a ∈ w₁.attempts.rows, a.id ≠ (script n).uuid) →
          Concludes w job script (f attempt) (n + 1) w₂) :
    Concludes w job script ((await (.insertAttempt c)).bind f) n w₁ := by
  obtain ⟨row, hrow, -⟩ := h.row
  have hiff := perform_insertAttempt_iff (e := script n)
    (w := { w₁ with clock := (script n).now }) (c := c) (j := row) (hid ▸ hrow)
  refine concludes_await (fun hr => ?_) (h.quiet (handle_quiet rfl _ _)) fun a w₂ h₂ hp ho => ?_
  · exact handle_isOk (hiff.mpr (hgoes hr).2) (hgoes hr).1
  · obtain ⟨hnumber, hfree⟩ := hiff.mp ⟨_, hp⟩
    exact hnext a w₂ h₂ (ho.resolve_left Bool.false_ne_true) hnumber hfree

/-- What is left to do once the result is saved leaves it there. -/
theorem concludes_quiet {p : Promise Unit} {n : ℕ} {w₁ : World}
    (hp : p.Calls fun op : Op => op.quiet = true) (hr : ReachesResult w job script)
    (hready : w₁.ready = w.ready) (hunacked : w₁.unacked = w.unacked)
    (hend : w₁.Ended job.id) : Concludes w job script p n w₁ := by
  refine (hp.wp (I := SameQueue w₁) (fun op e w₂ hop hw => hw.trans (handle_quiet hop e w₂))
    ⟨rfl, rfl, rfl⟩).mono fun r _ w₂ hw => ⟨hw.ready.trans hready, hw.unacked.trans hunacked,
      fun _ => ?_, fun hmissed => absurd hr hmissed⟩
  rw [World.Ended, hw.jobs]
  exact hend

/-- The calls up to the insertion of the attempt have gone through. -/
structure Begun (w : World) (job : JobEntity) (script : ℕ → Env) : Prop where
  resolves : ∀ k ∈ [0, 1, 3, 4, 5, 6], (script k).outcome = .resolves
  audit : ∀ a ∈ w.auditEntries.rows, a.id ≠ (script 5).uuid
  number : ∀ a ∈ w.attempts.rows, a.jobId = job.id → a.attemptNumber ≠ job.attemptCount + 1
  attempt : ∀ a ∈ w.attempts.rows, a.id ≠ (script 6).uuid

/-- The end of `markCompleted` and of `markFailed` : the attempt is saved, then the job as
`result`, then the rest is reported. -/
theorem concludes_result {w₁ : World} {attempt : Date → ProcessingAttemptEntity}
    {result : Date → JobEntity} {report : Date → ProcessingAttemptEntity → JobEntity → Promise Unit}
    (hpre : Begun w job script) (hid : ∀ t, (result t).id = job.id)
    (hs : ∀ t, (result t).status = .COMPLETED ∨ (result t).status = .FAILED)
    (hreport : ∀ t a j, (report t a j).Calls fun op : Op => op.quiet = true)
    (h : Halfway w job.id w₁) :
    Concludes w job script ((await .now).bind fun t => (await (.saveAttempt (attempt t))).bind
      fun a => (await (.saveJob (result t))).bind fun j => report t a j) 8 w₁ := by
  refine concludes_await (fun _ => rfl) (h.quiet (handle_quiet rfl _ _)) fun t w₂ h₂ _ _ => ?_
  refine concludes_await (fun hr => ?_) (h₂.quiet (handle_quiet rfl _ _)) fun a w₃ h₃ _ h9 => ?_
  · rw [handle_of_perform rfl (.inr (hr.resolves 9 (by simp)))]
    rfl
  have h9 : (script 9).outcome = .resolves := h9.resolve_left Bool.false_ne_true
  have hreached : (script 10).outcome ≠ .rejects → ReachesResult w job script := fun h10 =>
    ⟨fun k hk => ?_, h10, hpre.audit, hpre.number, hpre.attempt⟩
  · let row : JobEntity := { result t with
      updatedAt := savedAt JobEntity.updatedAt (script 10).now (w₃.jobs.lookup (result t).id)
        (result t) }
    let w₄ : World := { w₃ with clock := (script 10).now, jobs := w₃.jobs.save row }
    have hend : w₄.Ended job.id := by
      refine ⟨row, ?_, hs t⟩
      exact hid t ▸ Table.lookup_save_self w₃.jobs row
    change Prog.wp handle script _ ((Prog.resolve _).bind _) 11 _
    cases ho : (script 10).outcome with
    | resolves =>
      have hh : handle (script 10) (.saveJob (result t)) w₃ = (.ok row, w₄) :=
        handle_of_perform rfl (.inr ho)
      rw [hh]
      exact concludes_quiet (hreport t a row) (hreached (by simp [ho])) h₃.ready h₃.unacked hend
    | rejects =>
      have hh : handle (script 10) (.saveJob (result t)) w₃ =
          (.error .rejected, { w₃ with clock := (script 10).now }) := by
        simp [handle, perform, Op.local, ho]
      rw [hh]
      have h₄ : Halfway w job.id { w₃ with clock := (script 10).now } :=
        h₃.quiet ⟨rfl, rfl, rfl⟩
      exact ⟨h₄.ready, h₄.unacked, fun hr => absurd ho hr.saved,
        fun _ => ⟨⟨_, rfl⟩, h₄.not_ended⟩⟩
    | rejectsAfterEffect =>
      have hh : handle (script 10) (.saveJob (result t)) w₃ = (.error .rejected, w₄) := by
        simp [handle, perform, Op.local, ho, w₄, row]
      rw [hh]
      exact ⟨h₃.ready, h₃.unacked, fun _ => hend, fun hmissed =>
        absurd (hreached (by simp [ho])) hmissed⟩
  · rcases List.mem_append.mp (show k ∈ [0, 1, 3, 4, 5, 6] ++ [9] from hk) with hk | hk
    · exact hpre.resolves k hk
    · rw [List.mem_singleton.mp hk, h9]

theorem quiet_reportFailure (row : JobEntity) (attempt : ProcessingAttemptEntity)
    (errorMessage : String) (finishedAt : Date) (alert : AlertEntity)
    (incident : Option IncidentEntity) :
    (reportFailure row attempt errorMessage finishedAt alert incident).Calls
      fun op : Op => op.quiet = true :=
  calls_reportFailure (fun _ => rfl) (fun _ => rfl) (fun _ _ => rfl) _ _ _ _ _ _

theorem concludes_markFailed {w₁ : World} {row : JobEntity} {attempt : ProcessingAttemptEntity}
    {errorMessage : String} (hpre : Begun w job script) (hid : row.id = job.id)
    (h : Halfway w job.id w₁) :
    Concludes w job script (markFailed row attempt errorMessage) 8 w₁ := by
  unfold markFailed
  refine concludes_result hpre (fun _ => hid) (fun _ => .inr rfl) (fun t a j => ?_) h
  refine .await_bind rfl fun alert => ?_
  split_ifs
  · exact .await_bind rfl fun incident => quiet_reportFailure _ _ _ _ _ _
  · exact quiet_reportFailure _ _ _ _ _ _

theorem concludes_markCompleted {w₁ : World} {row : JobEntity}
    {attempt : ProcessingAttemptEntity} (hpre : Begun w job script) (hid : row.id = job.id)
    (h : Halfway w job.id w₁) :
    Concludes w job script (markCompleted row attempt) 8 w₁ := by
  unfold markCompleted
  refine concludes_result hpre (fun _ => hid) (fun _ => .inl rfl) (fun t a j => ?_) h
  exact .await_bind rfl fun _ => .await_bind rfl fun _ => .await_bind rfl
    fun _ => Prog.Calls.await rfl

/-- From the read on, with the lock held. -/
theorem concludes_body {w₁ : World} {input : ProcessJobInput}
    (hjob : w.jobs.lookup job.id = some job) (hinput : input.jobId = job.id)
    (h0 : (script 0).outcome = .resolves) (hjobs : w₁.jobs = w.jobs)
    (hattempts : w₁.attempts = w.attempts) (haudit : w₁.auditEntries = w.auditEntries)
    (h : Halfway w job.id w₁) :
    Concludes w job script
      (do
        let some job ← await (.findJob input.jobId) | return ()
        processJob input job) 1 w₁ := by
  have hfound : w₁.jobs.lookup input.jobId = some job := by rw [hjobs, hinput, hjob]
  refine concludes_plain rfl (fun hr => .inr (hr.resolves 1 (by simp)))
    (h.quiet (handle_quiet rfl _ _)) fun h₂ h1 => ?_
  simp only [hfound]
  unfold processJob
  refine concludes_plain rfl (fun _ => .inl rfl) (h₂.quiet (handle_quiet rfl _ _)) fun h₃ _ => ?_
  refine concludes_plain rfl (fun hr => .inr (hr.resolves 3 (by simp)))
    (h₃.save (by rfl) (by rfl) _) fun h₄ h3 => ?_
  refine concludes_plain rfl (fun hr => .inr (hr.resolves 4 (by simp)))
    (h₄.quiet (handle_quiet rfl _ _)) fun h₅ h4 => ?_
  refine concludes_insertAuditEntry (by exact (by decide : fits "" 80))
    (by exact (by decide : fits "job.processing" 100)) h₅
    (fun hr => ⟨hr.resolves 5 (by simp), by simpa only [haudit] using hr.audit⟩)
    fun entry w₆ h₆ hattempts₆ h5 hfree5 => ?_
  have hattempts₆ : w₆.attempts = w.attempts := hattempts₆.trans hattempts
  refine concludes_insertAttempt rfl h₆ (fun hr => ⟨hr.resolves 6 (by simp), ?_, ?_⟩)
    fun attempt w₇ h₇ h6 hnumber6 hfree6 => ?_
  · rw [hattempts₆]
    exact hr.number
  · rw [hattempts₆]
    exact hr.attempt
  rw [hattempts₆] at hnumber6 hfree6
  refine concludes_plain rfl (fun _ => .inl rfl) (h₇.quiet (handle_quiet rfl _ _)) fun h₈ _ => ?_
  have hpre : Begun w job script := by
    refine ⟨?_, by simpa only [haudit] using hfree5, hnumber6, hfree6⟩
    have h1 := h1.resolve_left Bool.false_ne_true
    have h3 := h3.resolve_left Bool.false_ne_true
    have h4 := h4.resolve_left Bool.false_ne_true
    simp only [List.mem_cons, List.not_mem_nil, or_false]
    rintro k (rfl | rfl | rfl | rfl | rfl | rfl) <;> assumption
  split
  · exact concludes_markFailed hpre rfl h₈
  · exact concludes_markCompleted hpre rfl h₈

/-- The release of the lock does not change the verdict. -/
theorem concludes_release {r : Except Failure Unit} {n : ℕ} {w₁ : World}
    (h : Verdict w job script r w₁) :
    Concludes w job script ((RedisLockService.releaseLock (lockKey job.id)).bind
      fun _ => .resolve r) n w₁ := by
  change Prog.wp handle script _ ((Prog.resolve _).bind _) (n + 1) _
  have hq : SameQueue w₁ (handle (script n) (.del (lockKey job.id)) w₁).2 :=
    handle_quiet rfl _ _
  have hend : (handle (script n) (.del (lockKey job.id)) w₁).2.Ended job.id ↔
      w₁.Ended job.id := by
    rw [World.Ended, hq.jobs]
    rfl
  have hafter : Verdict w job script r (handle (script n) (.del (lockKey job.id)) w₁).2 :=
    ⟨hq.ready.trans h.ready, hq.unacked.trans h.unacked, fun hr => hend.mpr (h.reached hr),
      fun hm => (h.missed hm).imp_right fun hne he => hne (hend.mp he)⟩
  cases (handle (script n) (.del (lockKey job.id)) w₁).1 with
  | ok _ => exact Prog.wp_resolve.mpr hafter
  | error err =>
    exact ⟨hafter.ready, hafter.unacked, hafter.reached,
      fun hm => ⟨⟨err, rfl⟩, (hafter.missed hm).2⟩⟩

/-- Redis answers that the lock is taken, or the execution reaches its result. -/
def Completes (w : World) (job : JobEntity) (script : ℕ → Env) : Prop :=
  ((w.locks.lookup (lockKey job.id)).isSome ∧ (script 0).outcome = .resolves) ∨
    ReachesResult w job script

/-- An execution that completes ends the job or resolves; any other rejects halfway. -/
structure Outcomes (w : World) (job : JobEntity) (script : ℕ → Env) (r : Except Failure Unit)
    (w' : World) : Prop where
  ready : w'.ready = w.ready
  unacked : w'.unacked = w.unacked
  completes : Completes w job script → ∀ err, r = .error err → w'.Ended job.id
  missed : ¬Completes w job script → (∃ err, r = .error err) ∧ ¬w'.Ended job.id

theorem process_outcomes (hjob : w.jobs.lookup job.id = some job) (hs : job.status = .QUEUED)
    {input : ProcessJobInput} (hinput : input.jobId = job.id) :
    Prog.wp handle script (fun r _ w' => Outcomes w job script r w') (process input) 0 w := by
  obtain ⟨_, reason, requestedBy⟩ := input
  subst hinput
  have hstart : Halfway w job.id w := ⟨rfl, rfl, job, hjob, .inl hs⟩
  unfold process RedisLockService.acquireLock
  change Prog.wp handle script _ ((Prog.resolve _).bind _) 1 _
  by_cases ho : (script 0).outcome = .resolves
  · cases hins : w.locks.insert ⟨lockKey job.id, (script 0).now + 1000 * 60⟩ with
    | none =>
      have hh : handle (script 0) (.setNX (lockKey job.id) 60) w =
          (.ok false, { w with clock := (script 0).now }) :=
        handle_of_perform (by simp [perform, hins]) (.inr ho)
      obtain ⟨lock, hlock⟩ : ∃ lock, w.locks.lookup (lockKey job.id) = some lock :=
        Table.exists_lookup_of_insert_eq_none hins
      rw [hh]
      exact ⟨rfl, rfl, fun _ err he => (by cases he),
        fun hm => absurd (.inl ⟨by rw [hlock]; rfl, ho⟩) hm⟩
    | some t =>
      have hh : handle (script 0) (.setNX (lockKey job.id) 60) w =
          (.ok true, { w with clock := (script 0).now, locks := t }) :=
        handle_of_perform (by simp [perform, hins]) (.inr ho)
      have hfree : w.locks.lookup (lockKey job.id) = none :=
        Table.lookup_eq_none.mpr (Table.insert_eq_some hins).2
      have hiff : Completes w job script ↔ ReachesResult w job script := by
        simp [Completes, hfree]
      rw [hh]
      refine Prog.wp.mono (fun r _ w' hv => ⟨hv.ready, hv.unacked,
        fun hc _ _ => hv.reached (hiff.mp hc), fun hm => hv.missed (mt hiff.mpr hm)⟩)
        (Prog.wp.tryFinally (Q := fun r _ w' => Verdict w job script r w')
          (fun r n w' hv => concludes_release hv) ?_)
      refine concludes_body hjob (show (⟨job.id, reason, requestedBy⟩ : ProcessJobInput).jobId =
        job.id from rfl) ho rfl rfl rfl ?_
      exact hstart.quiet ⟨rfl, rfl, rfl⟩
  · have hm : ¬Completes w job script := by
      rintro (⟨-, h0⟩ | hr)
      · exact ho h0
      · exact ho (hr.resolves 0 (by simp))
    have hafter : Halfway w job.id (handle (script 0) (.setNX (lockKey job.id) 60) w).2 :=
      hstart.quiet (handle_quiet rfl _ _)
    cases hh : handle (script 0) (.setNX (lockKey job.id) 60) w with
    | mk r w' =>
      rw [hh] at hafter
      cases r with
      | ok reply => exact absurd ((handle_eq_ok hh).2.resolve_left Bool.false_ne_true) ho
      | error err =>
        exact ⟨hafter.ready, hafter.unacked, fun hc => absurd hc hm,
          fun _ => ⟨⟨err, rfl⟩, hafter.not_ended⟩⟩

end Execution

/-! ## The delivery -/

/-- The consumer settles its message and leaves everything else as the execution left it. -/
structure Settles (tag : ℕ) (w w' : World) : Prop where
  jobs : w'.jobs = w.jobs
  ready : w'.ready = w.ready
  unacked : w'.unacked = w.unacked.filter fun d => d.tag ≠ tag

theorem consume_settles (w : World) (tag : ℕ) (payload : QueuePayload) (script : ℕ → Env) :
    Settles tag ((JobProcessingConsumer.onMessage payload).run handle script 0 w).2
      ((Call.consume ⟨tag, ⟨some payload⟩⟩).prog.run handle script 0 w).2 := by
  set w₁ := ((JobProcessingConsumer.onMessage payload).run handle script 0 w).2
  have hrun : Prog.wp handle script (fun _ _ w' => w' = w₁)
      (JobProcessingConsumer.onMessage payload) 0 w :=
    (Prog.wp_run (Q := fun _ w' => w' = w₁) _ 0 w).mpr rfl
  refine (Prog.wp_run (Q := fun _ w' => Settles tag w₁ w')
    (Call.consume ⟨tag, ⟨some payload⟩⟩).prog 0 w).mp ?_
  change Prog.wp handle script _ ((RabbitMqService.consumeCallback JobProcessingConsumer.onMessage
    ⟨tag, ⟨some payload⟩⟩).bind fun _ => .ret Result.done) 0 w
  refine Prog.wp.bind (Q := fun _ _ w' => Settles tag w₁ w') ?_ (fun _ _ _ h => h) ?_
  · intro _ n w' h
    exact h
  unfold RabbitMqService.consumeCallback
  refine Prog.wp.tryCatch
    (Q := fun r _ w' => r.isOk = true ∧ Settles tag w₁ w' ∨ r.isOk = false ∧ w' = w₁) ?_ ?_ ?_
  · rintro _ n w' (⟨-, h⟩ | ⟨h, -⟩)
    · exact h
    · cases h
  · rintro err n w' (⟨h, -⟩ | ⟨-, rfl⟩)
    · cases h
    · exact ⟨rfl, rfl, rfl⟩
  · refine Prog.wp.bind (Q := fun _ _ w' => w' = w₁) ?_ ?_ hrun
    · rintro _ n w' rfl
      exact .inl ⟨rfl, rfl, rfl, rfl⟩
    · rintro err n w' rfl
      exact .inr ⟨rfl, rfl⟩

theorem Settles.ended_iff {tag : ℕ} {w w' : World} (h : Settles tag w w') (jobId : Uuid) :
    w'.Ended jobId ↔ w.Ended jobId := by
  rw [World.Ended, h.jobs]
  rfl

/-- A job that waits for its first attempt. -/
def waitingJob : JobEntity :=
  { JobService.newJob ⟨"ingest", "batch", [], 1, 3, "alice"⟩ with
    id := 1
    createdAt := 1
    updatedAt := 1 }

/-- The message of `waitingJob`. -/
def waitingPayload : QueuePayload :=
  ⟨some 1, some "created", some "alice"⟩

/-- The message of `waitingJob` has just been handed to a consumer. -/
def deliveredWorld : World :=
  { World.empty with
    jobs := ⟨[waitingJob], List.nodup_singleton _⟩
    unacked := [⟨0, ⟨some waitingPayload⟩⟩]
    nextTag := 1
    clock := 1 }

/-- Call `k` is answered at time `k + 2`; `o` says how. -/
def scriptOf (o : ℕ → Outcome) (k : ℕ) : Env :=
  ⟨k + 2, k + 2, o k⟩

/-- The insertion of the attempt is rejected, and the job is left processing. -/
theorem not_outOfLimbo : ¬∀ (w : World) (job : JobEntity), w.jobs.lookup job.id = some job →
    job.status = .QUEUED → ∀ payload : QueuePayload, payload.jobId = some job.id →
    ∀ (tag : ℕ) (script : ℕ → Env), OutOfLimbo w tag payload job.id script := by
  intro hall
  let script := scriptOf fun k => if k = 6 then .rejects else .resolves
  obtain ⟨hrejects, hprocessing, hready, hunacked⟩ :
      ((JobProcessingConsumer.onMessage waitingPayload).run handle script 0
        deliveredWorld).1.isOk = false ∧
      (((Call.consume ⟨0, ⟨some waitingPayload⟩⟩).prog.run handle script 0
        deliveredWorld).2.jobs.lookup 1).map (·.status) = some .PROCESSING ∧
      ((Call.consume ⟨0, ⟨some waitingPayload⟩⟩).prog.run handle script 0
        deliveredWorld).2.ready = [] ∧
      ((Call.consume ⟨0, ⟨some waitingPayload⟩⟩).prog.run handle script 0
        deliveredWorld).2.unacked = [] := by decide
  cases he : ((JobProcessingConsumer.onMessage waitingPayload).run handle script 0
      deliveredWorld).1 with
  | ok _ => cases he ▸ hrejects
  | error err =>
    obtain ⟨row, hrow, hs⟩ | ⟨m, hm, -⟩ | ⟨d, hd, -⟩ :=
      hall deliveredWorld waitingJob rfl rfl waitingPayload rfl 0 script err he
    · obtain ⟨row', hrow', hs'⟩ := Option.map_eq_some_iff.mp hprocessing
      cases hrow.symm.trans hrow'
      rcases hs with hs | hs <;> cases hs.symm.trans hs'
    · exact absurd (hready ▸ hm) List.not_mem_nil
    · exact absurd (hunacked ▸ hd) List.not_mem_nil

/-- A settled delivery of a queued job that has rejected leaves the job ended or with another
message exactly if the environment's choices were harmless. -/
theorem outOfLimbo_iff {w : World} {job : JobEntity} (hjob : w.jobs.lookup job.id = some job)
    (hs : job.status = .QUEUED) {payload : QueuePayload} (hpayload : payload.jobId = some job.id)
    (tag : ℕ) (script : ℕ → Env) :
    OutOfLimbo w tag payload job.id script ↔ Harmless w tag job script := by
  have hprocess : JobProcessingConsumer.onMessage payload = process
      { jobId := job.id
        reason := payload.reason.getD "created"
        requestedBy := payload.requestedBy.getD "system" } := by
    simp only [JobProcessingConsumer.onMessage, hpayload]
  have ho : Outcomes w job script
      ((JobProcessingConsumer.onMessage payload).run handle script 0 w).1
      ((JobProcessingConsumer.onMessage payload).run handle script 0 w).2 := by
    rw [hprocess]
    exact (Prog.wp_run _ 0 w).mp (process_outcomes hjob hs rfl)
  have hsettles := consume_settles w tag payload script
  have hmessage : ((Call.consume ⟨tag, ⟨some payload⟩⟩).prog.run handle script 0 w).2.HasMessage
      job.id ↔ (∃ m ∈ w.ready, m.jobId = some job.id) ∨
        ∃ d ∈ w.unacked, d.tag ≠ tag ∧ d.message.jobId = some job.id := by
    rw [World.HasMessage, hsettles.ready, hsettles.unacked, ho.ready, ho.unacked]
    simp only [List.mem_filter, decide_eq_true_eq, and_assoc]
  have hharmless : Harmless w tag job script ↔
      ((∃ m ∈ w.ready, m.jobId = some job.id) ∨
        ∃ d ∈ w.unacked, d.tag ≠ tag ∧ d.message.jobId = some job.id) ∨
      Completes w job script := by
    rw [or_assoc]
    rfl
  rw [hharmless, OutOfLimbo]
  simp only [hmessage, hsettles.ended_iff]
  by_cases hc : Completes w job script
  · exact ⟨fun _ => .inr hc, fun _ err he => .inl (ho.completes hc err he)⟩
  · obtain ⟨⟨err, he⟩, hend⟩ := ho.missed hc
    refine ⟨fun h => .inl ((h err he).resolve_left hend), fun h err he => .inr ?_⟩
    exact h.resolve_right hc

/-- The event of a completed job is rejected : the message is dropped and the job has
ended. -/
theorem outOfLimbo_iff_late : OutOfLimbo deliveredWorld 0 waitingPayload 1
    (scriptOf fun k => if k = 13 then .rejects else .resolves) := by
  refine (outOfLimbo_iff (show deliveredWorld.jobs.lookup waitingJob.id = some waitingJob
    from rfl) rfl rfl 0 _).mpr
    (.inr (.inr (.inr ⟨?_, ?_, nofun, nofun, nofun⟩)))
  · decide
  · decide

end RealtimeOps
