import RealtimeOps.JobLock

/-!
# Stranded jobs

A queued job needs somebody who will start it : a message that waits, a call that will send
one, or an execution on its way. `process` gives its message up without a word when the lock
is taken, and the lock is still taken while the execution that holds it reports a failure it
has already saved. A retry in this window queues the job, its message finds the lock taken
and is acknowledged, and the job stays queued with nobody to start it (`not_unstranded`).

`Carried` : every queued job has a message or a thread that carries it, every processing one
a thread that runs it. Each call keeps it but one : the refused `SET NX`. If that one always
leaves the job to somebody else (`Attended`), no job is stranded (`unstranded`).
-/

set_option autoImplicit false

namespace RealtimeOps

open Interleaving PhaseMachine JobService JobProcessorService

/-! ## Who carries a job -/

namespace JobPhase

/-- The phase has started the job and not yet saved how it ran. -/
def runs (jobId : Uuid) : JobPhase → Prop
  | started job | running job _ | finishing job _ => job.id = jobId
  | _ => False

/-- The phase holds the lock of the job and has not yet saved how it ran. -/
def executes (jobId : Uuid) : JobPhase → Prop
  | reading k => k = jobId
  | starting job | started job | running job _ | finishing job _ => job.id = jobId
  | _ => False

/-- The phase goes on to save how the job ran, or to a message for it. -/
def carries (jobId : Uuid) : JobPhase → Prop
  | locking k | reading k => k = jobId
  | requeueing job | queueing job | starting job | started job | running job _
  | finishing job _ => job.id = jobId
  | _ => False

/-- The phase needs the row of the job. -/
def needs (jobId : Uuid) : JobPhase → Prop
  | locking k | reading k => k = jobId
  | queueing job => job.id = jobId
  | _ => False

theorem runs.carries {jobId : Uuid} {q : JobPhase} (h : q.runs jobId) : q.carries jobId := by
  cases q <;> first | exact h | exact h.elim

theorem executes.carries {jobId : Uuid} {q : JobPhase} (h : q.executes jobId) :
    q.carries jobId := by
  cases q <;> first | exact h | exact h.elim

theorem carries.not_ends {jobId : Uuid} {q : JobPhase} {r : Except Failure Result}
    (h : q.carries jobId) : ¬q.Ends r := by
  cases q <;> first | exact id | exact h.elim

end JobPhase

/-- The job an answered call has stored as queued. -/
def queues : Entry infrastructure Failure Env → Option Uuid
  | ⟨_, _, .insertJob _, .ok job⟩ => some job.id
  | ⟨_, _, .saveJob job, _⟩ => if job.status = .QUEUED then some job.id else none
  | _ => none

/-- The thread has stored the job as queued and sent no message yet. -/
def Unsent (past : List (Entry infrastructure Failure Env)) (jobId : Uuid) : Prop :=
  (∃ x ∈ past, queues x = some jobId) ∧ ∀ x ∈ past, x.op.sends = none

/-- The thread has acquired the lock of the job and not yet saved how it ran. -/
def Unsaved (past : List (Entry infrastructure Failure Env)) (jobId : Uuid) : Prop :=
  lockKey jobId ∈ acquired past ∧
    ∀ x ∈ past, ∀ job ∈ x.op.saves, job.status ≠ .COMPLETED ∧ job.status ≠ .FAILED

instance (past : List (Entry infrastructure Failure Env)) (jobId : Uuid) :
    Decidable (Unsent past jobId) :=
  inferInstanceAs (Decidable (_ ∧ _))

instance (past : List (Entry infrastructure Failure Env)) (jobId : Uuid) :
    Decidable (Unsaved past jobId) :=
  inferInstanceAs (Decidable (_ ∧ _))

/-- What a thread has done tells where it is, and the rows it needs are there. -/
structure Tells (c : JobStore) (l : JobLocal) : Prop where
  row : ∀ jobId, l.phase.needs jobId → ∃ row, c.jobs.lookup jobId = some row
  unsent : ∀ jobId, Unsent l.past jobId → ∃ job, l.phase = .queueing job ∧ job.id = jobId
  unsaved : ∀ jobId, Unsaved l.past jobId → l.phase.executes jobId

/-- An answered call after which the past still tells the phase. -/
theorem Tells.answer {c c' : JobStore} {q q' : JobPhase}
    {past : List (Entry infrastructure Failure Env)} {x : Entry infrastructure Failure Env}
    (h : Tells c ⟨q, past⟩)
    (hrow : ∀ jobId, q'.needs jobId → ∃ row, c'.jobs.lookup jobId = some row)
    (hqueues : ∀ jobId, queues x = some jobId → ∃ job, q' = .queueing job ∧ job.id = jobId)
    (hacquires : ∀ jobId, acquires x = some (lockKey jobId) → q'.executes jobId)
    (hsends : ∀ job, q = .queueing job → q' = .queueing job ∨ x.op.sends ≠ none)
    (hsaves : ∀ jobId, q.executes jobId → q'.executes jobId ∨
      ∃ job ∈ x.op.saves, job.status = .COMPLETED ∨ job.status = .FAILED) :
    Tells c' ⟨q', past ++ [x]⟩ where
  row := hrow
  unsent jobId := by
    rintro ⟨⟨y, hy, hj⟩, hnone⟩
    have hx : x.op.sends = none := hnone x (by simp)
    rcases List.mem_append.mp hy with hy | hy
    · obtain ⟨job, rfl, hid⟩ :=
        h.unsent jobId ⟨⟨y, hy, hj⟩, fun z hz => hnone z (List.mem_append_left _ hz)⟩
      exact ⟨job, (hsends job rfl).resolve_right (not_not.mpr hx), hid⟩
    · rw [List.mem_singleton.mp hy] at hj
      exact hqueues jobId hj
  unsaved jobId := by
    rintro ⟨hacq, hnone⟩
    rw [acquired_append, List.mem_append, Option.mem_toList] at hacq
    rcases hacq with hacq | hacq
    · refine (hsaves jobId (h.unsaved jobId
        ⟨hacq, fun z hz => hnone z (List.mem_append_left _ hz)⟩)).resolve_right ?_
      rintro ⟨job, hjob, hs⟩
      obtain ⟨hc, hf⟩ := hnone x (by simp) job hjob
      exact hs.elim hc hf
    · exact hacquires jobId hacq

/-- Every queued job is carried, every processing one is run. -/
structure Carried (c : JobStore) (A : Multiset JobLocal) : Prop where
  queued : ∀ jobId row, c.jobs.lookup jobId = some row → row.status = .QUEUED →
    (∃ m ∈ c.ready, m.jobId = some jobId) ∨ ∃ l ∈ A, l.phase.carries jobId
  processing : ∀ jobId row, c.jobs.lookup jobId = some row → row.status = .PROCESSING →
    ∃ l ∈ A, l.phase.runs jobId
  message : ∀ m ∈ c.ready, ∀ jobId, m.jobId = some jobId →
    ∃ row, c.jobs.lookup jobId = some row
  tells : ∀ l ∈ A, Tells c l

/-- Rows that stay in the table. -/
theorem Tells.mono {c c' : JobStore} {l : JobLocal} (h : Tells c l)
    (hrow : ∀ jobId row, c.jobs.lookup jobId = some row →
      ∃ row', c'.jobs.lookup jobId = some row') : Tells c' l where
  row jobId hneeds := by
    obtain ⟨row, hr⟩ := h.row jobId hneeds
    exact hrow jobId row hr
  unsent := h.unsent
  unsaved := h.unsaved

/-- A call that writes no job and no message, to a phase that carries and runs what the phase
before it did. -/
theorem Carried.keep {c c' : JobStore} {l l' : JobLocal} {rest : Multiset JobLocal}
    (h : Carried c (l ::ₘ rest)) (hjobs : c'.jobs = c.jobs) (hready : c'.ready = c.ready)
    (hcarries : ∀ jobId, l.phase.carries jobId → l'.phase.carries jobId)
    (hruns : ∀ jobId, l.phase.runs jobId → l'.phase.runs jobId) (hl' : Tells c' l') :
    Carried c' (l' ::ₘ rest) where
  queued jobId row hrow hs := by
    rw [hready]
    rw [hjobs] at hrow
    refine (h.queued jobId row hrow hs).imp_right fun ⟨k, hk, hc⟩ => ?_
    rcases Multiset.mem_cons.mp hk with rfl | hk
    · exact ⟨l', Multiset.mem_cons_self _ _, hcarries jobId hc⟩
    · exact ⟨k, Multiset.mem_cons_of_mem hk, hc⟩
  processing jobId row hrow hs := by
    rw [hjobs] at hrow
    obtain ⟨k, hk, hr⟩ := h.processing jobId row hrow hs
    rcases Multiset.mem_cons.mp hk with rfl | hk
    · exact ⟨l', Multiset.mem_cons_self _ _, hruns jobId hr⟩
    · exact ⟨k, Multiset.mem_cons_of_mem hk, hr⟩
  message := by
    rw [hready, hjobs]
    exact h.message
  tells := by
    refine Multiset.forall_mem_cons.mpr ⟨hl', fun k hk => ?_⟩
    refine (h.tells k (Multiset.mem_cons_of_mem hk)).mono fun _ row hr => ⟨row, ?_⟩
    rw [hjobs]
    exact hr

/-- A call that writes the row of the job its thread carries. -/
theorem Carried.write {c : JobStore} {l l' : JobLocal} {rest : Multiset JobLocal}
    {row : JobEntity} {t : Table JobEntity.id} (h : Carried c (l ::ₘ rest))
    (ht : ∀ jobId, t.lookup jobId = if row.id = jobId then some row else c.jobs.lookup jobId)
    (hcarries : ∀ jobId, l.phase.carries jobId → jobId = row.id)
    (hqueued : row.status = .QUEUED → l'.phase.carries row.id)
    (hprocessing : row.status = .PROCESSING → l'.phase.runs row.id)
    (hl' : Tells { c with jobs := t } l') : Carried { c with jobs := t } (l' ::ₘ rest) := by
  have hkept : ∀ jobId before, c.jobs.lookup jobId = some before →
      ∃ after, t.lookup jobId = some after := by
    intro jobId before hb
    rw [ht]
    split_ifs
    · exact ⟨row, rfl⟩
    · exact ⟨before, hb⟩
  refine ⟨fun jobId r hr hs => ?_, fun jobId r hr hs => ?_, fun m hm jobId hj => ?_,
    Multiset.forall_mem_cons.mpr ⟨hl', fun k hk => ?_⟩⟩
  · change t.lookup jobId = some r at hr
    rw [ht] at hr
    split_ifs at hr with hid
    · cases hr
      exact .inr ⟨l', Multiset.mem_cons_self _ _, hid ▸ hqueued hs⟩
    · obtain hm | ⟨k, hk, hc⟩ := h.queued jobId r hr hs
      · exact .inl hm
      · rcases Multiset.mem_cons.mp hk with rfl | hk
        · exact absurd (hcarries jobId hc).symm hid
        · exact .inr ⟨k, Multiset.mem_cons_of_mem hk, hc⟩
  · change t.lookup jobId = some r at hr
    rw [ht] at hr
    split_ifs at hr with hid
    · cases hr
      exact ⟨l', Multiset.mem_cons_self _ _, hid ▸ hprocessing hs⟩
    · obtain ⟨k, hk, hr⟩ := h.processing jobId r hr hs
      rcases Multiset.mem_cons.mp hk with rfl | hk
      · exact absurd (hcarries jobId hr.carries).symm hid
      · exact ⟨k, Multiset.mem_cons_of_mem hk, hr⟩
  · obtain ⟨before, hb⟩ := h.message m hm jobId hj
    exact hkept jobId before hb
  · exact (h.tells k (Multiset.mem_cons_of_mem hk)).mono hkept

/-- A call after which a message for the job carries it in place of the thread. -/
theorem Carried.send {c : JobStore} {l l' : JobLocal} {rest : Multiset JobLocal} {m : Message}
    {jobId : Uuid} (h : Carried c (l ::ₘ rest)) (hm : m.jobId = some jobId)
    (hrow : ∃ row, c.jobs.lookup jobId = some row)
    (hcarries : ∀ k, l.phase.carries k → k = jobId) (hruns : ∀ {k}, ¬l.phase.runs k)
    (hl' : Tells { c with ready := c.ready ++ [m] } l') :
    Carried { c with ready := c.ready ++ [m] } (l' ::ₘ rest) where
  queued k row hr hs := by
    obtain ⟨n, hn, hj⟩ | ⟨j, hj, hc⟩ := h.queued k row hr hs
    · exact .inl ⟨n, List.mem_append_left _ hn, hj⟩
    · rcases Multiset.mem_cons.mp hj with rfl | hj
      · obtain rfl := hcarries k hc
        exact .inl ⟨m, List.mem_append_right _ (List.mem_singleton_self m), hm⟩
      · exact .inr ⟨j, Multiset.mem_cons_of_mem hj, hc⟩
  processing k row hr hs := by
    obtain ⟨j, hj, hr⟩ := h.processing k row hr hs
    rcases Multiset.mem_cons.mp hj with rfl | hj
    · exact absurd hr hruns
    · exact ⟨j, Multiset.mem_cons_of_mem hj, hr⟩
  message n hn k hk := by
    rcases List.mem_append.mp hn with hn | hn
    · exact h.message n hn k hk
    · rw [List.mem_singleton.mp hn, hm] at hk
      cases hk
      exact hrow
  tells := by
    refine Multiset.forall_mem_cons.mpr ⟨hl', fun j hj => ?_⟩
    exact (h.tells j (Multiset.mem_cons_of_mem hj)).mono fun _ r hr => ⟨r, hr⟩

/-- A thread that gives up the job it carries and leaves it to somebody else. -/
theorem Carried.leave {c : JobStore} {l l' : JobLocal} {rest : Multiset JobLocal}
    (h : Carried c (l ::ₘ rest)) (hruns : ∀ {jobId}, ¬l.phase.runs jobId)
    (hleft : ∀ jobId, l.phase.carries jobId →
      ∀ row, c.jobs.lookup jobId = some row → row.status = .QUEUED →
        (∃ m ∈ c.ready, m.jobId = some jobId) ∨ ∃ j ∈ rest, j.phase.carries jobId)
    (hl' : Tells c l') : Carried c (l' ::ₘ rest) where
  queued jobId row hr hs := by
    obtain hm | ⟨j, hj, hc⟩ := h.queued jobId row hr hs
    · exact .inl hm
    · rcases Multiset.mem_cons.mp hj with rfl | hj
      · exact (hleft jobId hc row hr hs).imp_right fun ⟨k, hk, hc⟩ =>
          ⟨k, Multiset.mem_cons_of_mem hk, hc⟩
      · exact .inr ⟨j, Multiset.mem_cons_of_mem hj, hc⟩
  processing jobId row hr hs := by
    obtain ⟨j, hj, hr⟩ := h.processing jobId row hr hs
    rcases Multiset.mem_cons.mp hj with rfl | hj
    · exact absurd hr hruns
    · exact ⟨j, Multiset.mem_cons_of_mem hj, hr⟩
  message := h.message
  tells := Multiset.forall_mem_cons.mpr
    ⟨hl', fun j hj => h.tells j (Multiset.mem_cons_of_mem hj)⟩

/-- A call that goes through keeps every job carried, given that a refused `SET NX` leaves
its job to somebody. -/
theorem Carried.effect {i : ℕ} {e : Env} {op : Op} {reply : op.Reply} {c c' : JobStore}
    {q q' : JobPhase} {past : List (Entry infrastructure Failure Env)}
    {rest : Multiset JobLocal} (h : Carried c (⟨q, past⟩ ::ₘ rest))
    (he : Effect e op reply c q c' q')
    (hleft : ∀ jobId lock, q = .locking jobId → op = .setNX (lockKey jobId) 60 →
      c.locks.lookup (lockKey jobId) = some lock →
      ∀ row, c.jobs.lookup jobId = some row → row.status = .QUEUED →
        (∃ m ∈ c.ready, m.jobId = some jobId) ∨ ∃ l ∈ rest, l.phase.carries jobId) :
    Carried c' (⟨q', past ++ [⟨i, e, op, .ok reply⟩]⟩ ::ₘ rest) := by
  have hl := h.tells ⟨q, past⟩ (Multiset.mem_cons_self _ _)
  cases he with
  | neutral _ _ _ hop =>
    refine h.keep rfl rfl (fun _ => id) (fun _ => id) (hl.answer hl.row ?_ ?_ (fun _ => .inl)
      fun _ => .inl)
    · intro jobId hj
      cases op <;> cases hop <;> cases hj
    · intro jobId hj
      cases op <;> cases hop <;> cases hj
  | @create _ input row t hrow ht =>
    have hid : t.lookup row.id = some row := by rw [Table.lookup_insert ht, if_pos rfl]
    refine h.write (Table.lookup_insert ht) (by rintro _ ⟨⟩) (fun _ => rfl)
      (by rw [hrow]; rintro ⟨⟩) (hl.answer ?_ ?_ (by rintro _ ⟨⟩) (by rintro _ ⟨⟩) (by rintro _ ⟨⟩))
    · rintro jobId rfl
      exact ⟨row, hid⟩
    · rintro jobId hj
      cases hj
      exact ⟨row, rfl, rfl⟩
  | @enqueue _ job m hm =>
    exact h.send hm (hl.row job.id rfl) (fun _ => Eq.symm) id (hl.answer (by rintro _ ⟨⟩)
      (by rintro _ ⟨⟩) (by rintro _ ⟨⟩) (fun _ _ => .inr (by rintro ⟨⟩)) (by rintro _ ⟨⟩))
  | retryRead k =>
    refine h.keep rfl rfl (by rintro _ ⟨⟩) (by rintro _ ⟨⟩)
      (hl.answer ?_ (by rintro _ ⟨⟩) (by rintro _ ⟨⟩) (by rintro _ ⟨⟩) (by rintro _ ⟨⟩))
    obtain ⟨err, hr⟩ | ⟨job, -, -, -, hr⟩ := afterRetryRead_cases k (c.jobs.lookup k) <;>
      rw [hr] <;> rintro _ ⟨⟩
  | @requeue _ job row hrow =>
    have hid : row.id = job.id := by rw [hrow]; rfl
    refine h.write (Table.lookup_save c.jobs row) (fun jobId hj => ?_) (fun _ => rfl)
      (by rw [hrow]; rintro ⟨⟩)
      (hl.answer ?_ ?_ (by rintro _ ⟨⟩) (by rintro _ ⟨⟩) (by rintro _ ⟨⟩))
    · rw [hid]
      exact hj.symm
    · rintro jobId rfl
      exact ⟨row, Table.lookup_save_self _ _⟩
    · rintro jobId hj
      cases hj
      exact ⟨row, rfl, hid⟩
  | @lockTaken _ k lock hlock =>
    refine h.leave id (fun jobId hc => ?_) (hl.answer (by rintro _ ⟨⟩) (by rintro _ ⟨⟩)
      (by rintro _ ⟨⟩) (by rintro _ ⟨⟩) (by rintro _ ⟨⟩))
    obtain rfl : k = jobId := hc
    exact hleft k lock rfl rfl hlock
  | @lock _ k t ht =>
    refine h.keep rfl rfl (fun _ => id) (fun _ => id)
      (hl.answer hl.row (by rintro _ ⟨⟩) ?_ (by rintro _ ⟨⟩) (by rintro _ ⟨⟩))
    intro jobId hj
    exact lockKey_injective (Option.some.inj hj)
  | @readNone _ k hk =>
    obtain ⟨row, hr⟩ := hl.row k rfl
    cases hk.symm.trans hr
  | @read _ k job hj =>
    obtain ⟨-, rfl⟩ := Table.lookup_eq_some.mp hj
    exact h.keep rfl rfl (fun _ => id) (fun _ => id) (hl.answer (by rintro _ ⟨⟩)
      (by rintro _ ⟨⟩) (by rintro _ ⟨⟩) (by rintro _ ⟨⟩) fun _ => .inl)
  | @start _ job row startedAt hrow =>
    have hid : row.id = job.id := by rw [hrow]; rfl
    refine h.write (Table.lookup_save c.jobs row) (fun jobId hj => ?_) (by rw [hrow]; rintro ⟨⟩)
      (fun _ => rfl) (hl.answer (by rintro _ ⟨⟩) ?_ (by rintro _ ⟨⟩) (by rintro _ ⟨⟩)
        fun jobId hj => .inl ?_)
    · rw [hid]
      exact hj.symm
    · rintro jobId hj
      cases hj
    · exact hid.trans hj
  | attempt =>
    exact h.keep rfl rfl (fun _ => id) (fun _ => id) (hl.answer (by rintro _ ⟨⟩)
      (by rintro _ ⟨⟩) (by rintro _ ⟨⟩) (by rintro _ ⟨⟩) fun _ => .inl)
  | settle =>
    exact h.keep rfl rfl (fun _ => id) (fun _ => id) (hl.answer (by rintro _ ⟨⟩)
      (by rintro _ ⟨⟩) (by rintro _ ⟨⟩) (by rintro _ ⟨⟩) fun _ => .inl)
  | @complete _ job row a finishedAt hv hrow =>
    have hid : row.id = job.id := by rw [hrow]; rfl
    refine h.write (Table.lookup_save c.jobs row) (fun jobId hj => ?_) (by rw [hrow]; rintro ⟨⟩)
      (by rw [hrow]; rintro ⟨⟩) (hl.answer (by rintro _ ⟨⟩) ?_ (by rintro _ ⟨⟩) (by rintro _ ⟨⟩)
        fun jobId hj => .inr ?_)
    · rw [hid]
      exact hj.symm
    · rintro jobId hj
      cases hj
    · exact ⟨_, rfl, .inl rfl⟩
  | @fail _ job row a finishedAt errorMessage hv hrow =>
    have hid : row.id = job.id := by rw [hrow]; rfl
    refine h.write (Table.lookup_save c.jobs row) (fun jobId hj => ?_) (by rw [hrow]; rintro ⟨⟩)
      (by rw [hrow]; rintro ⟨⟩) (hl.answer (by rintro _ ⟨⟩) ?_ (by rintro _ ⟨⟩) (by rintro _ ⟨⟩)
        fun jobId hj => .inr ?_)
    · rw [hid]
      exact hj.symm
    · rintro jobId hj
      cases hj
    · exact ⟨_, rfl, .inr rfl⟩
  | raise =>
    refine h.keep rfl rfl (by rintro _ ⟨⟩) (by rintro _ ⟨⟩)
      (hl.answer ?_ (by rintro _ ⟨⟩) (by rintro _ ⟨⟩) (by rintro _ ⟨⟩) (by rintro _ ⟨⟩))
    split_ifs <;> rintro _ ⟨⟩
  | escalate | unlock | reportNone | report | collect =>
    exact h.keep rfl rfl (by rintro _ ⟨⟩) (by rintro _ ⟨⟩) (hl.answer (by rintro _ ⟨⟩)
      (by rintro _ ⟨⟩) (by rintro _ ⟨⟩) (by rintro _ ⟨⟩) (by rintro _ ⟨⟩))

/-! ## Who is left with the job -/

/-- Thread `k` will execute the job or send a message for it : it awaits the lock of the job
or the save that queues it, or it has stored it as queued with its message still to be sent,
or it holds the lock with its result still to be saved. -/
def Underway (s : State) (k : ℕ) (jobId : Uuid) : Prop :=
  s.awaited k = some (.setNX (lockKey jobId) 60) ∨
    (∃ op ∈ s.awaited k, ∃ job ∈ op.saves, job.id = jobId ∧ job.status = .QUEUED) ∨
    Unsent (s.past k) jobId ∨ Unsaved (s.past k) jobId

instance (s : State) (k : ℕ) (jobId : Uuid) : Decidable (Underway s k jobId) :=
  inferInstanceAs (Decidable (_ ∨ _ ∨ _ ∨ _))

/-- A waiting message or a thread other than `i` will bring the job on. -/
def LeftTo (s : State) (i : ℕ) (jobId : Uuid) : Prop :=
  (∃ m ∈ s.world.ready, m.jobId = some jobId) ∨
    ∃ k < s.threads.length, k ≠ i ∧ Underway s k jobId

instance (s : State) (i : ℕ) (jobId : Uuid) : Decidable (LeftTo s i jobId) :=
  inferInstanceAs (Decidable (_ ∨ _))

/-- A move of a run in which no call fails or is refused by the database, no process dies, no key
runs out, and executions come from messages only, one for each. -/
def Smooth (s : State) (m : Label) : Prop :=
  DeliversOnce m ∧ Unfailing m ∧ Resolves s m

/-- Whenever an execution of a queued job finds the lock taken, the job is left to somebody
else. -/
def Attended (s : State) (m : Label) : Prop :=
  Smooth s m ∧ Answers s (fun i _ op => ∀ row ∈ s.world.jobs.rows, row.status = .QUEUED →
    op = .setNX (lockKey row.id) 60 → (s.world.locks.lookup (lockKey row.id)).isSome →
      LeftTo s i row.id) m

instance (s : State) : DecidablePred (Smooth s) := fun _ =>
  inferInstanceAs (Decidable (_ ∧ _ ∧ _))

instance (s : State) : DecidablePred (Attended s) := fun _ =>
  inferInstanceAs (Decidable (_ ∧ _))

/-- Only an execution that has not tried the lock sets its key. -/
theorem Effect.of_setNX {e : Env} {key : String} {ttl : ℕ} {reply : Bool} {c c' : JobStore}
    {q q' : JobPhase} (h : Effect e (.setNX key ttl) reply c q c' q') :
    ∃ jobId, q = .locking jobId ∧ key = lockKey jobId := by
  cases h with
  | neutral _ _ _ hop => cases hop
  | lockTaken | lock => exact ⟨_, rfl, rfl⟩

/-- Only a retry saves a job as queued. -/
theorem Effect.of_saveJob {e : Env} {job reply : JobEntity} {c c' : JobStore}
    {q q' : JobPhase} (h : Effect e (.saveJob job) reply c q c' q') (hs : job.status = .QUEUED) :
    q.carries job.id := by
  cases h with
  | neutral _ _ _ hop => cases hop
  | requeue => rfl
  | start | complete | fail => cases hs

theorem locking_of_awaited {q : JobPhase} {jobId : Uuid}
    {k : Except Failure Bool → Promise Result}
    (h : JobSim JobPhase.Ends q (.call (.setNX (lockKey jobId) 60) k)) : q = .locking jobId := by
  obtain ⟨c, q', he⟩ := exists_effect_of_awaited h
    (show (handle ⟨0, 0, .resolves⟩ (.setNX (lockKey jobId) 60) .empty).1 = .ok true from rfl)
  obtain ⟨id, rfl, hkey⟩ := he.of_setNX
  rw [lockKey_injective hkey]

theorem carries_of_awaited {q : JobPhase} {job : JobEntity}
    {k : Except Failure JobEntity → Promise Result}
    (h : JobSim JobPhase.Ends q (.call (.saveJob job) k)) (hs : job.status = .QUEUED) :
    q.carries job.id := by
  obtain ⟨c, q', he⟩ := exists_effect_of_awaited h
    (show (handle ⟨0, 0, .resolves⟩ (.saveJob job) .empty).1 = .ok job from rfl)
  exact he.of_saveJob hs

/-- A thread that is under way is in a phase that carries the job. -/
theorem Underway.carries {s : State} {k : ℕ} {jobId : Uuid} (h : Underway s k jobId)
    {l : JobLocal} {p : Promise Result} {c : JobStore}
    (hp : s.threads[k]? = some p) (hpast : l.past = s.past k)
    (hsim : JobSim JobPhase.Ends l.phase p) (hl : Tells c l) : l.phase.carries jobId := by
  rcases h with hawaited | ⟨op, hop, job, hjob, rfl, hs⟩ | hunsent | hunsaved
  · obtain ⟨f, hf⟩ := Pool.awaited_eq_some.mp hawaited
    cases hp.symm.trans hf
    rw [locking_of_awaited hsim]
    rfl
  · obtain ⟨f, hf⟩ := Pool.awaited_eq_some.mp hop
    cases hp.symm.trans hf
    cases op <;> cases hjob
    exact carries_of_awaited hsim hs
  · rw [← hpast] at hunsent
    obtain ⟨job, hq, hid⟩ := hl.unsent jobId hunsent
    rw [hq]
    exact hid
  · rw [← hpast] at hunsaved
    exact (hl.unsaved jobId hunsaved).carries

/-- What a refused execution leaves to somebody else, another phase or message carries. -/
theorem LeftTo.carries {s : State} {i : ℕ} {jobId : Uuid} {l : JobLocal}
    {rest : Multiset JobLocal} (hA : Jobs s (l ::ₘ rest))
    (h : LeftTo s i jobId) (hop : s.awaited i = some (.setNX (lockKey jobId) 60))
    (hpast : l.past = s.past i) (hq : l.phase = .locking jobId)
    (htells : ∀ l' ∈ l ::ₘ rest, Tells s.world.store l') :
    (∃ m ∈ s.world.store.ready, m.jobId = some jobId) ∨
      ∃ l' ∈ rest, l'.phase.carries jobId := by
  refine h.imp_right fun ⟨k, hk, hki, hunder⟩ => ?_
  obtain ⟨f, hf⟩ := Pool.awaited_eq_some.mp hop
  have hp : s.threads[k]? = some s.threads[k] := List.getElem?_eq_getElem hk
  obtain ⟨l₁, l₂, rest', hA', hpast₁, hpast₂, hsim₁, hsim₂⟩ := hA.exists_pair hki.symm hf hp
  -- Thread `i` has one phase, so what is left of `A` is the same on both sides.
  have hl : l = l₁ := by
    cases l
    cases l₁
    obtain rfl := hpast.trans hpast₁.symm
    obtain rfl := hq.trans (locking_of_awaited hsim₁).symm
    rfl
  subst hl
  obtain rfl := Multiset.cons_inj_right l |>.mp hA'
  exact ⟨l₂, Multiset.mem_cons_self _ _,
    hunder.carries hp hpast₂ hsim₂ (htells l₂ (by simp))⟩

/-! ## Runs -/

/-- A call that starts carries nothing. -/
theorem Carried.spawn {c : JobStore} {A : Multiset JobLocal} (h : Carried c A) {call : Call}
    (hcall : DeliversOnce (.start call)) : Carried c (⟨call.phase, []⟩ ::ₘ A) where
  queued jobId row hrow hs := (h.queued jobId row hrow hs).imp_right
    fun ⟨l, hl, hc⟩ => ⟨l, Multiset.mem_cons_of_mem hl, hc⟩
  processing jobId row hrow hs := by
    obtain ⟨l, hl, hr⟩ := h.processing jobId row hrow hs
    exact ⟨l, Multiset.mem_cons_of_mem hl, hr⟩
  message := h.message
  tells := by
    refine Multiset.forall_mem_cons.mpr
      ⟨⟨?_, by simp [Unsent], by simp [Unsaved, acquired]⟩, h.tells⟩
    cases call with
    | process | consume => exact hcall.elim
    | _ => rintro _ ⟨⟩

theorem consumerPhase_of_jobId {m : Message} {jobId : Uuid} (h : m.jobId = some jobId) :
    consumerPhase m = .locking jobId := by
  rw [consumerPhase, h]

/-- A message that is handed out is carried by its consumer. -/
theorem Carried.deliver {c c' : JobStore} {A : Multiset JobLocal} (h : Carried c A) {n : ℕ}
    {m : Message} (hn : c.ready[n]? = some m)
    (hc : c' = { c with ready := c.ready.eraseIdx n }) :
    Carried c' (⟨consumerPhase m, []⟩ ::ₘ A) := by
  subst hc
  obtain ⟨hlt, rfl⟩ := List.getElem?_eq_some_iff.mp hn
  have hperm := List.getElem_cons_eraseIdx_perm hlt
  refine ⟨fun jobId row hrow hs => ?_, fun jobId row hrow hs => ?_, fun n hn => ?_,
    Multiset.forall_mem_cons.mpr ⟨⟨fun jobId hneeds => ?_, by simp [Unsent],
      by simp [Unsaved, acquired]⟩, fun l hl => (h.tells l hl).mono fun _ r hr => ⟨r, hr⟩⟩⟩
  · obtain ⟨m', hm', hj⟩ | ⟨l, hl, hc⟩ := h.queued jobId row hrow hs
    · rcases List.mem_cons.mp (hperm.mem_iff.mpr hm') with rfl | hm'
      · exact .inr ⟨_, Multiset.mem_cons_self _ _, (consumerPhase_of_jobId hj).symm ▸ rfl⟩
      · exact .inl ⟨m', hm', hj⟩
    · exact .inr ⟨l, Multiset.mem_cons_of_mem hl, hc⟩
  · obtain ⟨l, hl, hr⟩ := h.processing jobId row hrow hs
    exact ⟨l, Multiset.mem_cons_of_mem hl, hr⟩
  · exact h.message n (List.mem_of_mem_eraseIdx hn)
  · cases hj : c.ready[n].jobId with
    | none =>
      rw [consumerPhase, hj] at hneeds
      exact hneeds.elim
    | some k =>
      rw [consumerPhase_of_jobId hj] at hneeds
      exact h.message _ (List.getElem_mem hlt) jobId (hj.trans (congrArg some hneeds))

theorem Carried.turn {s s' : State} {A A' : Multiset JobLocal} {m : Label} (hA : Jobs s A)
    (h : Carried s.world.store A) (hm : Attended s m) (ht : Turn s A m s' A') :
    Carried s'.world.store A' := by
  obtain ⟨⟨honce, hunfailing, hok⟩, hleft⟩ := hm
  cases ht with
  | start _ call => exact h.spawn honce
  | deliver _ hn hclock hw => exact h.deliver hn hw
  | @step _ i e op l q rest hop hpast hlog hnow hclock hmove =>
    obtain ⟨reply, hr, he⟩ := hmove.effect (hok op hop)
    rw [entry, hr]
    refine h.effect he fun jobId lock hq hset hlock row hrow hs => ?_
    subst hset
    obtain ⟨hmem, rfl⟩ := Table.lookup_eq_some.mp hrow
    exact (hleft _ hop row hmem hs rfl (Option.isSome_iff_exists.mpr ⟨lock, hlock⟩)).carries hA
      hop hpast hq h.tells
  | redeliver | expire => exact honce.elim
  | stop => exact hunfailing.elim

/-- A job that fails once is retried while its worker reports the failure; the second message
finds the lock taken. -/
def retryWhileReporting : List Label :=
  .start (.create ⟨"ingest", "batch", [("failTimes", .num 1)], 1, 3, "alice"⟩) ::
    calls 0 7 1 ++ [.deliver 0] ++ calls 1 11 10 ++ [.start (.retry 1 "alice")] ++
    calls 2 8 30 ++ [.deliver 0] ++ calls 3 2 40 ++ calls 1 9 50

/-- Every call has returned, the queue is empty, and the job is queued. -/
theorem not_unstranded : ¬∀ s : State,
    Reachable step Smooth (State.init .empty) s → Quiescent s →
    ∀ job ∈ s.world.jobs.rows, job.status ≠ .QUEUED ∧ job.status ≠ .PROCESSING := by
  intro hall
  obtain ⟨s, hs, hq, job, hjob, hqueued⟩ :
      ∃ s, Reachable step Smooth (State.init .empty) s ∧ Quiescent s ∧
        ∃ job ∈ s.world.jobs.rows, job.status = .QUEUED :=
    exists_reachable_of_execute _ retryWhileReporting _ (by decide)
  exact (hall s hs hq job hjob).1 hqueued

/-- As long as no call fails or is refused by the database, and every execution of a queued job
that finds the lock taken leaves the job to somebody else, no job is queued or processing once
every call has returned and the queue is empty. -/
theorem unstranded {s : State} (h : Reachable step Attended (State.init .empty) s)
    (hq : Quiescent s) {job : JobEntity} (hjob : job ∈ s.world.jobs.rows) :
    job.status ≠ .QUEUED ∧ job.status ≠ .PROCESSING := by
  obtain ⟨A, hA, hC⟩ := jobs_invariant (w := .empty) (I := fun s A => Carried s.world.store A)
    ⟨by rintro _ _ ⟨⟩, by rintro _ _ ⟨⟩, by rintro _ ⟨⟩, by simp⟩
    (fun s A m s' A' hA hC hm ht => hC.turn hA hm ht) h
  have hrow : s.world.store.jobs.lookup job.id = some job := Table.lookup_of_mem hjob
  have hnone : ¬∃ l ∈ A, l.phase.carries job.id := by
    rintro ⟨l, hl, hc⟩
    obtain ⟨i, p, hp, -, hsim⟩ := hA.exists_thread hl
    have hover := hq.1 i (List.getElem?_eq_some_iff.mp hp).1
    simp only [Pool.outcome, hp] at hover
    cases p with
    | call op k => cases hover
    | ret a => exact hc.not_ends hsim
    | throw err => exact hc.not_ends hsim
  refine ⟨fun hs => ?_, fun hs => ?_⟩
  · obtain ⟨m, hm, -⟩ | hl := hC.queued job.id job hrow hs
    · rw [show s.world.store.ready = [] from hq.2] at hm
      cases hm
    · exact hnone hl
  · obtain ⟨l, hl, hr⟩ := hC.processing job.id job hrow hs
    exact hnone ⟨l, hl, hr.carries⟩

/-- Two retries overlap; the second message finds the lock taken by an execution that has
yet to save its result, and the job completes. -/
theorem unstranded_refused : ∃ s, Reachable step Attended (State.init .empty) s ∧
    Quiescent s ∧ (∃ x ∈ s.log, x.op = .setNX (lockKey 1) 60 ∧ acquires x = none) ∧
    ∃ job ∈ s.world.jobs.rows, job.status ≠ .QUEUED ∧ job.status ≠ .PROCESSING := by
  obtain ⟨s, hs, hq, hrefused, job, hjob⟩ :
      ∃ s, Reachable step Attended (State.init .empty) s ∧ Quiescent s ∧
        (∃ x ∈ s.log, x.op = .setNX (lockKey 1) 60 ∧ acquires x = none) ∧
        ∃ job ∈ s.world.jobs.rows, True :=
    exists_reachable_of_execute _
      (.start (.create ⟨"ingest", "batch", [("failTimes", .num 1)], 1, 3, "alice"⟩) ::
        calls 0 7 1 ++ [.deliver 0] ++ calls 1 20 10 ++
        [.start (.retry 1 "alice"), .start (.retry 1 "bob")] ++ calls 2 1 40 ++ calls 3 1 41 ++
        calls 2 7 42 ++ calls 3 7 50 ++ [.deliver 0, .deliver 0] ++ calls 4 1 60 ++
        calls 5 2 61 ++ calls 4 16 70) _ (by decide)
  exact ⟨s, hs, hq, hrefused, job, hjob.1, unstranded hs hq hjob.1⟩

end RealtimeOps
