import RealtimeOps.JobLock

/-!
# The job lifecycle

The documented changes of a job's status are queued to processing, processing to completed
or failed, and failed to queued with attempts left (`LegalChange`). `process` never looks at
the status it finds, and `retry` saves what it read some calls before, so a run may leave
them : a message delivered again after a worker died takes a completed job back to
processing (`not_lifecycle`).

What makes a run stay within them is how many messages there are. A job is saved as queued
once for every message, and an execution that ends uses one up. `Orderly` speaks of messages
and reads alone : no key runs out under a running execution, no message is executed again
once an execution of it has ended, and a retry saves over the very row it read. Then more
messages than ended executions mean that the job is queued or processing (`Paced.owed`), the
lock keeps it processing until its execution ends (`InStep`), and the guards of `retry` do
the rest (`lifecycle`).
-/

set_option autoImplicit false

namespace RealtimeOps

open Interleaving PhaseMachine JobService JobProcessorService

/-- The documented changes of a job row. -/
inductive LegalChange (before after : JobEntity) : Prop where
  | same (h : after.status = before.status)
  | process (h : before.status = .QUEUED) (h' : after.status = .PROCESSING)
  | complete (h : before.status = .PROCESSING) (h' : after.status = .COMPLETED)
  | fail (h : before.status = .PROCESSING) (h' : after.status = .FAILED)
  | retry (h : before.status = .FAILED) (h' : after.status = .QUEUED)
    (hleft : before.attemptCount < before.maxAttempts)

/-- Every job row of `t` is in `t'`, legally changed. -/
def Lawful (t t' : Table JobEntity.id) : Prop :=
  ∀ jobId before, t.lookup jobId = some before →
    ∃ after, t'.lookup jobId = some after ∧ LegalChange before after

/-! ## Messages and ended executions -/

/-- The job a call sends a message for. -/
def Op.requests (op : Op) : Option Uuid :=
  op.sends.bind (·.jobId)

/-- The job a call saves as completed or failed. -/
def Op.finishes : Op → Option Uuid
  | .saveJob job => if job.status = .COMPLETED ∨ job.status = .FAILED then some job.id else none
  | _ => none

/-- How many calls of the log are about the job and had their effect. -/
def effects (about : Op → Option Uuid) (log : List (Entry infrastructure Failure Env))
    (jobId : Uuid) : ℕ :=
  log.countP fun x => x.env.outcome ≠ .rejects ∧ about x.op = some jobId

/-- The messages sent for a job. -/
abbrev sent (log : List (Entry infrastructure Failure Env)) : Uuid → ℕ :=
  effects Op.requests log

/-- The executions of a job that have saved how it ended. -/
abbrev ended (log : List (Entry infrastructure Failure Env)) : Uuid → ℕ :=
  effects Op.finishes log

/-- No key runs out under a running execution, the holder of a lock reads its job only while
fewer executions of it have ended than messages were sent for it, and a retry saves over the
row it read. -/
def Orderly (s : State) (m : Label) : Prop :=
  KeysLast s m ∧ Answers s (fun i _ op =>
    (∀ jobId ∈ op.finds, Between s i (lockKey jobId) → ended s.log jobId < sent s.log jobId) ∧
    SavesOver Eq s i op) m

instance (s : State) : DecidablePred (Orderly s) := fun _ =>
  inferInstanceAs (Decidable (_ ∧ _))

/-- A call that is counted : it saves a job or sends a message. -/
def Op.counted : Op → Bool
  | .saveJob _ | .sendToQueue _ => true
  | _ => false

theorem Op.requests_eq_none {op : Op} (h : op.counted = false) : op.requests = none := by
  cases op <;> first | rfl | cases h

theorem Op.finishes_eq_none {op : Op} (h : op.counted = false) : op.finishes = none := by
  cases op <;> first | rfl | cases h

section Log

variable {about : Op → Option Uuid} {s s' : State} {i : ℕ} {e : Env} {op : Op}

theorem effects_entry (hlog : s'.log = s.log ++ [entry s i e op]) (jobId : Uuid) :
    effects about s'.log jobId = effects about s.log jobId +
      if e.outcome ≠ .rejects ∧ about op = some jobId then 1 else 0 := by
  rw [effects, hlog, List.countP_append, List.countP_singleton]
  simp only [decide_eq_true_eq]
  rfl

/-- A call that had its effect is counted. -/
theorem effects_of_applied (hlog : s'.log = s.log ++ [entry s i e op])
    (habout : op.counted = false → about op = none)
    (ho : op.counted = true → e.outcome ≠ .rejects) (jobId : Uuid) :
    effects about s'.log jobId =
      effects about s.log jobId + if about op = some jobId then 1 else 0 := by
  rw [effects_entry hlog]
  cases hop : op.counted with
  | false => simp [habout hop]
  | true => simp [ho hop]

/-- A call that had none is not. -/
theorem effects_of_rejected (hlog : s'.log = s.log ++ [entry s i e op])
    (habout : op.counted = false → about op = none)
    (ho : op.counted = true → e.outcome = .rejects) :
    effects about s'.log = effects about s.log := by
  funext jobId
  rw [effects_entry hlog]
  cases hop : op.counted with
  | false => simp [habout hop]
  | true => simp [ho hop]

end Log

/-- The world refuses no counted call. -/
theorem perform_ne_none {op : Op} (h : op.counted = true) (e : Env) (w : World) :
    perform e w op ≠ none := by
  cases op <;> first | exact Option.some_ne_none _ | cases h

/-- An answered call has its effect, after which its thread may give up, or it does nothing and
its thread gives up. The outcome tells which, if the call is counted. -/
theorem JobMove.outcome {e : Env} {op : Op} {w w' : World} {q q' : JobPhase}
    (h : JobMove e op (handle e op w).1 w q w' q') :
    (∃ reply q₁, Effect e op reply w.store q w'.store q₁ ∧ (q' = q₁ ∨ Drops q₁ q') ∧
      (op.counted = true → e.outcome ≠ .rejects)) ∨
    (w'.store = w.store ∧ Drops q q' ∧ (op.counted = true → e.outcome = .rejects)) := by
  generalize hr : (handle e op w).1 = r at h
  cases h with
  | @done reply _ _ _ _ h =>
    refine .inl ⟨reply, q', h, .inl rfl, fun hop => ?_⟩
    obtain hlocal | hresolves := (handle_eq_ok (Prod.ext hr rfl)).2
    · cases op with
      | saveJob | sendToQueue => cases hlocal
      | _ => cases hop
    · rw [hresolves]
      nofun
  | @lost reply _ _ _ q₁ h ho =>
    refine .inl ⟨reply, q₁, h, .inr h.drops_abort, fun _ => ?_⟩
    rw [ho]
    nofun
  | refused h ho =>
    exact .inr ⟨h, drops_abort q op, fun hop => ho.resolve_left (perform_ne_none hop e _)⟩

/-! ## The invariant -/

/-- The job is queued or processing. -/
def Unfinished (job : JobEntity) : Prop :=
  job.status = .QUEUED ∨ job.status = .PROCESSING

instance (job : JobEntity) : Decidable (Unfinished job) :=
  inferInstanceAs (Decidable (_ ∨ _))

/-- 1 if the stored job is queued or processing. -/
def unfinished (t : Table JobEntity.id) (jobId : Uuid) : ℕ :=
  if ∃ row ∈ t.lookup jobId, Unfinished row then 1 else 0

/-- 1 if the phase is to send a message for the job. -/
def JobPhase.sending (jobId : Uuid) : JobPhase → ℕ
  | queueing job => if job.id = jobId then 1 else 0
  | _ => 0

/-- An execution that has read its job found a message that no execution has ended, and from
its first save to its last the row of its job is processing. -/
def InStep (sent ended : Uuid → ℕ) (t : Table JobEntity.id) : JobPhase → Prop
  | .starting job => ended job.id < sent job.id
  | .started job | .running job _ | .finishing job _ =>
    ∃ row, t.lookup job.id = some row ∧ row.status = .PROCESSING
  | _ => True

/-- A job with more messages, sent or to be sent, than ended executions is unfinished, and
every execution is in step. -/
structure Paced (sent ended : Uuid → ℕ) (t : Table JobEntity.id) (A : Multiset JobLocal) :
    Prop where
  owed : ∀ jobId,
    sent jobId + tally (JobPhase.sending jobId) A ≤ ended jobId + unfinished t jobId
  inStep : ∀ l ∈ A, InStep sent ended t l.phase

theorem unfinished_le_one (t : Table JobEntity.id) (jobId : Uuid) : unfinished t jobId ≤ 1 := by
  unfold unfinished
  split_ifs <;> omega

theorem unfinished_of_lookup {t : Table JobEntity.id} {jobId : Uuid} {row : JobEntity}
    (h : t.lookup jobId = some row) :
    unfinished t jobId = if Unfinished row then 1 else 0 := by
  simp [unfinished, h]

/-- An execution stays in step while the messages grow, and nobody ends an execution of its job
or takes the row out of processing. -/
theorem InStep.mono {S S' F F' : Uuid → ℕ} {t t' : Table JobEntity.id} {q : JobPhase}
    (h : InStep S F t q) (hS : ∀ jobId, S jobId ≤ S' jobId)
    (hF : ∀ jobId, q.holds = some jobId → F' jobId = F jobId)
    (ht : ∀ jobId row, q.holds = some jobId → t.lookup jobId = some row →
      row.status = .PROCESSING → t'.lookup jobId = some row) : InStep S' F' t' q := by
  cases q with
  | starting job =>
    rw [InStep, hF job.id rfl]
    exact lt_of_lt_of_le h (hS job.id)
  | started job | running job | finishing job =>
    obtain ⟨row, hrow, hs⟩ := h
    exact ⟨row, ht _ row rfl hrow hs, hs⟩
  | _ => trivial

section Paced

variable {S F F' : Uuid → ℕ} {t t' : Table JobEntity.id} {l l' : JobLocal}
  {rest : Multiset JobLocal}

/-- A call that saves no job and sends nothing. -/
theorem Paced.keep (h : Paced S F t (l ::ₘ rest))
    (hsending : ∀ jobId, l'.phase.sending jobId ≤ l.phase.sending jobId)
    (hl' : InStep S F t l'.phase) : Paced S F t (l' ::ₘ rest) := by
  refine ⟨fun jobId => ?_, Multiset.forall_mem_cons.mpr
    ⟨hl', (Multiset.forall_mem_cons.mp h.inStep).2⟩⟩
  have howed := h.owed jobId
  have hle := hsending jobId
  simp only [tally_cons] at howed ⊢
  omega

theorem Paced.drop (h : Paced S F t (l ::ₘ rest)) (hd : Drops l.phase l'.phase) :
    Paced S F t (l' ::ₘ rest) := by
  generalize hq : l'.phase = q' at hd
  refine h.keep (fun jobId => ?_) ?_ <;> rw [hq] <;> cases hd
  · exact Nat.zero_le _
  · exact Nat.zero_le _
  · trivial
  · trivial

/-- The message of a job is sent. -/
theorem Paced.send {S' : Uuid → ℕ} {job : JobEntity} (h : Paced S F t (l ::ₘ rest))
    (hq : l.phase = .queueing job) (hq' : l'.phase = .queued job)
    (hS : ∀ jobId, S' jobId = S jobId + if job.id = jobId then 1 else 0) :
    Paced S' F t (l' ::ₘ rest) := by
  refine ⟨fun jobId => ?_, Multiset.forall_mem_cons.mpr ⟨?_, fun k hk => ?_⟩⟩
  · have howed := h.owed jobId
    simp only [tally_cons, hq, hq', JobPhase.sending, hS] at howed ⊢
    omega
  · rw [hq']
    trivial
  · refine (h.inStep k (Multiset.mem_cons_of_mem hk)).mono (fun jobId => ?_) (fun _ _ => rfl)
      fun _ _ _ hrow _ => hrow
    rw [hS]
    omega

/-- The row of a job is written. What is owed for the job stays covered, and another execution
of the job is in step after it as before. -/
theorem Paced.write {row : JobEntity} (h : Paced S F t (l ::ₘ rest))
    (ht : ∀ jobId, t'.lookup jobId = if row.id = jobId then some row else t.lookup jobId)
    (hF : ∀ jobId, row.id ≠ jobId → F' jobId = F jobId)
    (hsending : ∀ jobId, row.id ≠ jobId → l'.phase.sending jobId = 0)
    (howed : F row.id + unfinished t row.id + l'.phase.sending row.id ≤
      F' row.id + if Unfinished row then 1 else 0)
    (hl' : InStep S F' t' l'.phase)
    (hrest : ∀ k ∈ rest, k.phase.holds = some row.id → F' row.id = F row.id ∧
      ∀ before, t.lookup row.id = some before → before.status ≠ .PROCESSING) :
    Paced S F' t' (l' ::ₘ rest) := by
  refine ⟨fun jobId => ?_, Multiset.forall_mem_cons.mpr ⟨hl', fun k hk => ?_⟩⟩
  · have hbefore := h.owed jobId
    by_cases hid : row.id = jobId
    · subst hid
      have hafter := unfinished_of_lookup ((ht row.id).trans (if_pos rfl))
      simp only [tally_cons] at hbefore ⊢
      omega
    · have hsame : unfinished t' jobId = unfinished t jobId := by
        rw [unfinished, unfinished, ht, if_neg hid]
      have hnone := hsending jobId hid
      have hended := hF jobId hid
      simp only [tally_cons] at hbefore ⊢
      omega
  · refine (h.inStep k (Multiset.mem_cons_of_mem hk)).mono (fun _ => Nat.le_refl _)
      (fun jobId hj => ?_) fun jobId before hj hb hs => ?_
    · by_cases hid : row.id = jobId
      · subst hid
        exact (hrest k hk hj).1
      · exact hF jobId hid
    · rw [ht]
      split_ifs with hid
      · subst hid
        exact absurd hs ((hrest k hk hj).2 before hb)
      · exact hb

end Paced

/-! ## Lawful changes -/

theorem LegalChange.refl (job : JobEntity) : LegalChange job job :=
  .same rfl

theorem Lawful.refl (t : Table JobEntity.id) : Lawful t t :=
  fun _ before h => ⟨before, h, .refl before⟩

/-- Saving one row is lawful if its change is. -/
theorem Lawful.save {t : Table JobEntity.id} {row : JobEntity}
    (h : ∀ before, t.lookup row.id = some before → LegalChange before row) :
    Lawful t (t.save row) := by
  intro jobId before hb
  rw [Table.lookup_save]
  split_ifs with hid
  · exact ⟨row, rfl, h before (hid ▸ hb)⟩
  · exact ⟨before, hb, .refl before⟩

/-! ## Writes -/

section Writes

variable {c : JobStore} {S F F' : Uuid → ℕ} {l l' : JobLocal} {rest : Multiset JobLocal}
  {job row : JobEntity} {past : List (Entry infrastructure Failure Env)}

/-- A new job is queued, and its message is to be sent. -/
theorem Paced.create {t : Table JobEntity.id} (h : Paced S F c.jobs (l ::ₘ rest))
    (hst : row.status = .QUEUED) (ht : c.jobs.insert row = some t) :
    Lawful c.jobs t ∧ Paced S F t (⟨.queueing row, past⟩ ::ₘ rest) := by
  have hfree : c.jobs.lookup row.id = none :=
    Table.lookup_eq_none.mpr (Table.insert_eq_some ht).2
  refine ⟨fun jobId before hb => ⟨before, Table.lookup_of_insert ht hb, .refl before⟩,
    h.write (Table.lookup_insert ht) (fun _ _ => rfl) (fun _ hne => if_neg hne) ?_ trivial
      fun _ _ _ => ⟨rfl, fun before hb => by cases hfree.symm.trans hb⟩⟩
  simp [unfinished, hfree, JobPhase.sending, Unfinished, hst]

/-- A failed job is queued again over the very row that was read, and its message is to be
sent. -/
theorem Paced.requeue (h : Paced S F c.jobs (l ::ₘ rest)) (hid : row.id = job.id)
    (hst : row.status = .QUEUED) (hfailed : job.status = .FAILED)
    (hleft : job.attemptCount < job.maxAttempts)
    (hread : ∀ before ∈ c.jobs.lookup job.id, before = job) :
    Lawful c.jobs (c.jobs.save row) ∧
      Paced S F (c.jobs.save row) (⟨.queueing row, past⟩ ::ₘ rest) := by
  have hbefore : ∀ before, c.jobs.lookup row.id = some before → before = job :=
    fun before hb => hread before (hid ▸ hb)
  refine ⟨.save fun before hb => ?_, h.write (Table.lookup_save _ _) (fun _ _ => rfl)
    (fun _ hne => if_neg hne) ?_ trivial fun _ _ _ => ⟨rfl, fun before hb => ?_⟩⟩
  · obtain rfl := hbefore before hb
    exact .retry hfailed hst hleft
  · have hnone : unfinished c.jobs row.id = 0 := by
      refine if_neg ?_
      rintro ⟨before, hb, hu⟩
      obtain rfl := hbefore before hb
      simp [Unfinished, hfailed] at hu
    simp [hnone, JobPhase.sending, Unfinished, hst]
  · obtain rfl := hbefore before hb
    simp [hfailed]

/-- An execution with a message that none has ended starts its job. -/
theorem Paced.start (h : Paced S F c.jobs (l ::ₘ rest)) (hG : Guarded c (l ::ₘ rest))
    (hq : l.phase = .starting job) (hid : row.id = job.id) (hst : row.status = .PROCESSING) :
    Lawful c.jobs (c.jobs.save row) ∧
      Paced S F (c.jobs.save row) (⟨.started row, past⟩ ::ₘ rest) := by
  have hl := h.inStep l (Multiset.mem_cons_self _ _)
  rw [hq] at hl
  have hlt : F row.id < S row.id := hid ▸ hl
  have hheld : l.phase.holds = some row.id := by rw [hq, hid]; rfl
  have hunfinished : unfinished c.jobs row.id = 1 := by
    have howed := h.owed row.id
    have hone := unfinished_le_one c.jobs row.id
    omega
  refine ⟨.save fun before hb => ?_, h.write (Table.lookup_save _ _) (fun _ _ => rfl)
    (fun _ _ => rfl) ?_ ⟨row, Table.lookup_save_self _ row, hst⟩
    fun k hk hj => absurd hj (hG.alone hheld hk)⟩
  · rw [unfinished_of_lookup hb] at hunfinished
    rcases of_not_not fun hne => Nat.zero_ne_one ((if_neg hne).symm.trans hunfinished) with
      hqueued | hprocessing
    · exact .process hqueued hst
    · exact .same (hst.trans hprocessing.symm)
  · rw [hunfinished, if_pos (.inr hst)]
    exact Nat.le_refl _

/-- An execution saves how it ended, over a row that is processing. -/
theorem Paced.finish {a : ProcessingAttemptEntity} (h : Paced S F c.jobs (l ::ₘ rest))
    (hG : Guarded c (l ::ₘ rest)) (hq : l.phase = .finishing job a) (hid : row.id = job.id)
    (hst : row.status = .COMPLETED ∨ row.status = .FAILED)
    (hF : ∀ jobId, F' jobId = F jobId + if some row.id = some jobId then 1 else 0)
    (hsending : ∀ jobId, l'.phase.sending jobId = 0)
    (hl' : InStep S F' (c.jobs.save row) l'.phase) :
    Lawful c.jobs (c.jobs.save row) ∧ Paced S F' (c.jobs.save row) (l' ::ₘ rest) := by
  have hl := h.inStep l (Multiset.mem_cons_self _ _)
  rw [hq] at hl
  obtain ⟨stored, hstored, hprocessing⟩ := hl
  have hheld : l.phase.holds = some row.id := by rw [hq, hid]; rfl
  refine ⟨.save fun before hb => ?_, h.write (Table.lookup_save _ _) (fun jobId hne => ?_)
    (fun jobId _ => hsending jobId) ?_ hl' fun k hk hj => absurd hj (hG.alone hheld hk)⟩
  · cases hstored.symm.trans (hid ▸ hb)
    rcases hst with hst | hst
    · exact .complete hprocessing hst
    · exact .fail hprocessing hst
  · rw [hF, if_neg (Option.some_inj.not.mpr hne), Nat.add_zero]
  · have hone := unfinished_le_one c.jobs row.id
    rw [hF, if_pos rfl, hsending]
    omega

end Writes

/-- A call that goes through changes the rows lawfully and keeps the pace, given that an
execution reads its job in turn and a retry saves over the row it holds. -/
theorem lawful_effect {e : Env} {op : Op} {reply : op.Reply} {c c' : JobStore}
    {q q' : JobPhase} {past : List (Entry infrastructure Failure Env)}
    {rest : Multiset JobLocal} {S S' F F' : Uuid → ℕ} (he : Effect e op reply c q c' q')
    (hG : Guarded c (⟨q, past⟩ ::ₘ rest)) (h : Paced S F c.jobs (⟨q, past⟩ ::ₘ rest))
    (hfind : ∀ jobId, q = .reading jobId → op = .findJob jobId → F jobId < S jobId)
    (hsave : ∀ job, q = .requeueing job → op = .saveJob (requeued job) →
      (job.status = .FAILED ∧ job.attemptCount < job.maxAttempts) ∧
        ∀ row ∈ c.jobs.lookup job.id, row = job)
    (hS : ∀ jobId, S' jobId = S jobId + if op.requests = some jobId then 1 else 0)
    (hF : ∀ jobId, F' jobId = F jobId + if op.finishes = some jobId then 1 else 0)
    (past' : List (Entry infrastructure Failure Env)) :
    Lawful c.jobs c'.jobs ∧ Paced S' F' c'.jobs (⟨q', past'⟩ ::ₘ rest) := by
  have hl : InStep S F c.jobs q := h.inStep ⟨q, past⟩ (Multiset.mem_cons_self _ _)
  have hsame : op.requests = none → S' = S := fun hop => by
    funext jobId
    simp [hS, hop]
  have hsame' : op.finishes = none → F' = F := fun hop => by
    funext jobId
    simp [hF, hop]
  have hle : ∀ q : JobPhase, ∀ jobId, q.sending jobId ≤ q.sending jobId := fun _ _ =>
    Nat.le_refl _
  have hzero : ∀ q : JobPhase, ∀ jobId, 0 ≤ q.sending jobId := fun _ _ => Nat.zero_le _
  cases he with
  | neutral _ _ _ hop =>
    have hcounted : op.counted = false := by
      cases op <;> first | rfl | cases hop
    rw [hsame (Op.requests_eq_none hcounted), hsame' (Op.finishes_eq_none hcounted)]
    exact ⟨.refl _, h.keep (hle q) hl⟩
  | lockTaken | lock | readNone | escalate | unlock | reportNone | report | collect =>
    rw [hsame rfl, hsame' rfl]
    exact ⟨.refl _, h.keep (hzero _) trivial⟩
  | attempt | settle =>
    rw [hsame rfl, hsame' rfl]
    exact ⟨.refl _, h.keep (hzero _) hl⟩
  | retryRead k =>
    rw [hsame rfl, hsame' rfl]
    obtain ⟨err, hr⟩ | ⟨job, -, -, -, hr⟩ := afterRetryRead_cases k (c.jobs.lookup k) <;> rw [hr]
    · exact ⟨.refl _, h.keep (hzero _) trivial⟩
    · exact ⟨.refl _, h.keep (hzero _) trivial⟩
  | raise =>
    rw [hsame rfl, hsame' rfl]
    refine ⟨.refl _, ?_⟩
    split_ifs <;> exact h.keep (hzero _) trivial
  | read hj =>
    obtain ⟨-, rfl⟩ := Table.lookup_eq_some.mp hj
    rw [hsame rfl, hsame' rfl]
    exact ⟨.refl _, h.keep (hzero _) (hfind _ rfl rfl)⟩
  | enqueue hm =>
    rw [hsame' rfl]
    refine ⟨.refl _, h.send rfl rfl fun jobId => ?_⟩
    rw [hS, Op.requests, Op.sends, Option.bind_some, hm]
    simp only [Option.some.injEq]
  | create hrow ht =>
    rw [hsame rfl, hsame' rfl]
    exact h.create (by rw [hrow]; rfl) ht
  | requeue hrow =>
    rw [hsame rfl, hsame' rfl]
    obtain ⟨⟨hfailed, hleft⟩, hread⟩ := hsave _ rfl rfl
    exact h.requeue (by rw [hrow]; rfl) (by rw [hrow]; rfl) hfailed hleft hread
  | start hrow =>
    rw [hsame rfl, hsame' rfl]
    exact h.start hG rfl (by rw [hrow]; rfl) (by rw [hrow]; rfl)
  | @complete _ job row a finishedAt hv hrow =>
    have hid : row.id = job.id := by rw [hrow]; rfl
    rw [hsame rfl]
    exact h.finish hG rfl hid (.inl (by rw [hrow]; rfl)) (hid ▸ hF) (fun _ => rfl) trivial
  | @fail _ job row a finishedAt errorMessage hv hrow =>
    have hid : row.id = job.id := by rw [hrow]; rfl
    rw [hsame rfl]
    exact h.finish hG rfl hid (.inr (by rw [hrow]; rfl)) (hid ▸ hF) (fun _ => rfl) trivial

theorem Call.inStep (call : Call) (S F : Uuid → ℕ) (t : Table JobEntity.id) :
    (∀ jobId, call.phase.sending jobId = 0) ∧ InStep S F t call.phase := by
  cases call with
  | consume delivery =>
    simp only [Call.phase, consumerPhase]
    split <;> exact ⟨fun _ => rfl, trivial⟩
  | _ => exact ⟨fun _ => rfl, trivial⟩

/-- A call starts with nothing to send. -/
theorem Paced.spawn {S F : Uuid → ℕ} {t : Table JobEntity.id} {A : Multiset JobLocal}
    (h : Paced S F t A) (call : Call) : Paced S F t (⟨call.phase, []⟩ ::ₘ A) := by
  obtain ⟨hsending, hcall⟩ := call.inStep S F t
  refine ⟨fun jobId => ?_, Multiset.forall_mem_cons.mpr ⟨hcall, h.inStep⟩⟩
  have howed := h.owed jobId
  simp only [tally_cons, hsending]
  omega

/-- The pace of the platform. -/
abbrev PacedAt (s : State) (A : Multiset JobLocal) : Prop :=
  Paced (sent s.log) (ended s.log) s.world.store.jobs A

/-- A move that answers no call and writes no job. -/
theorem PacedAt.same {s s' : State} {A : Multiset JobLocal} (h : PacedAt s A)
    (hlog : s'.log = s.log) (hjobs : s'.world.jobs = s.world.jobs) :
    Lawful s.world.store.jobs s'.world.store.jobs ∧ PacedAt s' A := by
  change Lawful s.world.jobs s'.world.jobs ∧ Paced (sent s'.log) (ended s'.log) s'.world.jobs A
  rw [hlog, hjobs]
  exact ⟨.refl _, h⟩

theorem lawful_turn {s s' : State} {A A' : Multiset JobLocal} {m : Label} (hL : Locked s A)
    (hread : ∀ l ∈ A, RetryTrace l) (h : PacedAt s A) (hm : Orderly s m)
    (ht : Turn s A m s' A') :
    Lawful s.world.store.jobs s'.world.store.jobs ∧ PacedAt s' A' := by
  cases ht with
  | start _ call => exact ⟨.refl _, h.spawn call⟩
  | @deliver _ _ m w _ hn hclock hw =>
    exact PacedAt.same (h.spawn (.consume ⟨0, m⟩)) rfl (congrArg JobStore.jobs hw)
  | @step _ i e op l q rest hop hpast hlog hnow hclock hmove =>
    have hl := hread l (Multiset.mem_cons_self _ _)
    have htrace := hL.trace l (Multiset.mem_cons_self _ _)
    obtain ⟨hreads, hsaves⟩ := hm.2 op hop
    obtain ⟨reply, q₁, he, hq, ho⟩ | ⟨hstore, hd, ho⟩ := hmove.outcome
    · obtain ⟨hlawful, hpaced⟩ := lawful_effect he hL.guarded h
        (fun jobId hq hop' => hreads jobId (hop' ▸ rfl) (htrace.between hpast (by rw [hq]; rfl)))
        (fun job hq hop' => ⟨(hl job hq).2, hsaves.agree hl hpast hq hop'⟩)
        (effects_of_applied hlog Op.requests_eq_none ho)
        (effects_of_applied hlog Op.finishes_eq_none ho) (l.past ++ [entry s i e op])
      obtain rfl | hd := hq
      · exact ⟨hlawful, hpaced⟩
      · exact ⟨hlawful, hpaced.drop hd⟩
    · rw [PacedAt, sent, ended, effects_of_rejected hlog Op.requests_eq_none ho,
        effects_of_rejected hlog Op.finishes_eq_none ho, hstore]
      exact ⟨.refl _, h.drop hd⟩
  | redeliver _ hd hclock hw => exact h.same rfl (congrArg JobStore.jobs hw)
  | stop hpast => exact ⟨.refl _, h.drop (.idle _)⟩
  | expire _ hlock hexp hnow hclock hw => exact h.same rfl (congrArg JobStore.jobs hw)

/-- In an orderly run every change of a job row is a documented one. -/
theorem lifecycle {w : World} {s s' : State} {m : Label}
    (h : Reachable step Orderly (State.init w) s) (hm : Orderly s m) (hs : step s m = some s') :
    Lawful s.world.jobs s'.world.jobs := by
  obtain ⟨A, hA, hL, hread, hP⟩ := jobs_invariant (w := w)
    (I := fun s A => Locked s A ∧ (∀ l ∈ A, RetryTrace l) ∧ PacedAt s A)
    ⟨⟨fun _ => Nat.zero_le _, by simp⟩, by simp,
      fun _ => (Nat.zero_le _).trans (Nat.zero_le _), by simp⟩
    (fun s A m s' A' hA ⟨hL, hread, hP⟩ hm ht => ⟨hL.turn hA hm.1 ht, retryTrace_turn ht hread,
      (lawful_turn hL hread hP hm ht).2⟩) h
  obtain ⟨A', ht, -⟩ := turn_of_step hA hs
  exact (lawful_turn hL hread hP hm ht).1

/-- The moves of a run in which every call resolves and no key runs out. A worker may die,
and its message is then delivered again. -/
def AtLeastOnce (s : State) (m : Label) : Prop :=
  Resolves s m ∧ match m with
    | .start (.create _) | .start (.retry _ _) => True
    | .start _ | .expire _ _ => False
    | _ => True

instance (s : State) : DecidablePred (AtLeastOnce s)
  | .start (.create _) | .start (.retry _ _) | .step _ _ | .deliver _ | .redeliver _ | .stop _ =>
    inferInstanceAs (Decidable (Resolves s _ ∧ True))
  | .start (.getStatus _) | .start (.process _) | .start (.consume _) | .expire _ _ =>
    inferInstanceAs (Decidable (Resolves s _ ∧ False))

/-- A worker that dies between releasing the lock and acknowledging gets its message back,
and the completed job is processed again. -/
theorem not_lifecycle : ¬∀ s m s', Reachable step AtLeastOnce (State.init .empty) s →
    AtLeastOnce s m → step s m = some s' → Lawful s.world.jobs s'.world.jobs := by
  intro hall
  obtain ⟨s, hs, hcompleted, hm, hstep⟩ :
      ∃ s, Reachable step AtLeastOnce (State.init .empty) s ∧
        (s.world.jobs.lookup 1).map (·.status) = some .COMPLETED ∧
        AtLeastOnce s (.step 2 ⟨60, 60, .resolves⟩) ∧
        ((step s (.step 2 ⟨60, 60, .resolves⟩)).any fun s' =>
          (s'.world.jobs.lookup 1).map (·.status) = some .PROCESSING) :=
    exists_reachable_of_execute _
      (.start (.create ⟨"ingest", "batch", [], 1, 3, "alice"⟩) :: calls 0 7 1 ++
        [.deliver 0] ++ calls 1 16 10 ++ [.stop 1, .redeliver 0, .deliver 0] ++ calls 2 3 50)
      _ (by decide)
  obtain ⟨s', hs', hprocessing⟩ := (Option.any_eq_true _ _).mp hstep
  obtain ⟨before, hb, hbs⟩ := Option.map_eq_some_iff.mp hcompleted
  obtain ⟨after, ha, hchange⟩ := hall s _ s' hs hm hs' 1 before hb
  have has : after.status = .PROCESSING := by simpa [ha] using hprocessing
  cases hchange <;> simp_all

/-- A job that fails once, is retried and completes. -/
def retriedRun : List Label :=
  .start (.create ⟨"ingest", "batch", [("failTimes", .num 1)], 1, 3, "alice"⟩) :: calls 0 7 1 ++
    [.deliver 0] ++ calls 1 20 10 ++ [.start (.retry 1 "alice")] ++ calls 2 8 40 ++
    [.deliver 0] ++ calls 3 16 60

/-- The moves of `retriedRun` that change the status, with the status before and after. -/
def statusChanges : List (ℕ × JobStatus × JobStatus) :=
  [(12, .QUEUED, .PROCESSING), (19, .PROCESSING, .FAILED), (31, .FAILED, .QUEUED),
    (42, .QUEUED, .PROCESSING), (49, .PROCESSING, .COMPLETED)]

/-- The run is orderly, and each of its changes is documented. -/
theorem lifecycle_retried : statusChanges.Forall fun c => ∃ s s' : State,
    Reachable step Orderly (State.init .empty) s ∧
    (s.world.jobs.lookup 1).map (·.status) = some c.2.1 ∧
    (s'.world.jobs.lookup 1).map (·.status) = some c.2.2 ∧
    Lawful s.world.jobs s'.world.jobs := by
  refine List.forall_iff_forall_mem.mpr fun c hc => ?_
  obtain ⟨s, hs, hbefore, m, -, hm, hstep⟩ :
      ∃ s, Reachable step Orderly (State.init .empty) s ∧
        (s.world.jobs.lookup 1).map (·.status) = some c.2.1 ∧
        ∃ m ∈ retriedRun[c.1]?, Orderly s m ∧ (step s m).any fun s' =>
          (s'.world.jobs.lookup 1).map (·.status) = some c.2.2 := by
    refine exists_reachable_of_execute _ (retriedRun.take c.1) _ ?_
    revert c
    decide +kernel
  obtain ⟨s', hs', hafter⟩ := (Option.any_eq_true _ _).mp hstep
  exact ⟨s, s', hs, hbefore, by simpa using hafter, lifecycle hs hm hs'⟩

end RealtimeOps
