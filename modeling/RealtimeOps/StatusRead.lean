import RealtimeOps.Turns

/-!
# Terminal statuses and their attempts

`getStatus` reads the job and then its attempts, and anything may happen between the two
reads. A job row that says completed or failed is nevertheless backed by the attempt with
its number (`Backed`), in every run, however calls are rejected, messages repeated, locks
expired and processes killed.

Three facts carry it. An execution saves its attempt before its job; the unique constraint
gives each started attempt to one execution (`Consistent.owner`); and an attempt that has
succeeded or failed is never written again (`TerminalKept`), so what backs a row when it is
saved, or read, backs it ever after.
-/

set_option autoImplicit false

namespace RealtimeOps

open Interleaving PhaseMachine JobService JobProcessorService

/-- The table of attempts. -/
abbrev Attempts := Table ProcessingAttemptEntity.id

/-! ## Backed statuses -/

/-- A terminal status is the status of the attempt with the job's number. -/
structure Backed (t : Attempts) (job : JobEntity) : Prop where
  completed : job.status = .COMPLETED → ∃ a ∈ t.rows, a.jobId = job.id ∧
    a.attemptNumber = job.attemptCount ∧ a.status = .SUCCEEDED
  failed : job.status = .FAILED → ∃ a ∈ t.rows, a.jobId = job.id ∧
    a.attemptNumber = job.attemptCount ∧ a.status = .FAILED ∧ a.errorMessage = job.lastError

/-- The unique constraint on `(jobId, attemptNumber)`. -/
def UniqueNumbers (t : Attempts) : Prop :=
  ∀ a ∈ t.rows, ∀ b ∈ t.rows, a.jobId = b.jobId → a.attemptNumber = b.attemptNumber → a = b

/-- Every attempt of `t` that has succeeded or failed is in `t'`. -/
def TerminalKept (t t' : Attempts) : Prop :=
  ∀ a ∈ t.rows, a.status ≠ .STARTED → a ∈ t'.rows

theorem Backed.mono {t t' : Attempts} {job : JobEntity} (h : Backed t job)
    (ht : TerminalKept t t') : Backed t' job where
  completed hs := by
    obtain ⟨a, ha, hid, hn, hst⟩ := h.completed hs
    exact ⟨a, ht a ha (by simp [hst]), hid, hn, hst⟩
  failed hs := by
    obtain ⟨a, ha, hid, hn, hst, herr⟩ := h.failed hs
    exact ⟨a, ht a ha (by simp [hst]), hid, hn, hst, herr⟩

theorem Backed.of_queued {t : Attempts} {job : JobEntity} (h : job.status = .QUEUED) :
    Backed t job :=
  ⟨fun hs => by simp [h] at hs, fun hs => by simp [h] at hs⟩

theorem Backed.of_processing {t : Attempts} {job : JobEntity} (h : job.status = .PROCESSING) :
    Backed t job :=
  ⟨fun hs => by simp [h] at hs, fun hs => by simp [h] at hs⟩

/-- Attempts of one job with different numbers sort strictly. -/
theorem attemptsOf_strict {t : Attempts} (hu : UniqueNumbers t) (jobId : Uuid) :
    (attemptsOf jobId t).Pairwise fun a b => b.attemptNumber < a.attemptNumber := by
  let r : ProcessingAttemptEntity → ProcessingAttemptEntity → Prop :=
    fun a b => b.attemptNumber ≤ a.attemptNumber
  have : Std.Total r := ⟨fun a b => Nat.le_total _ _⟩
  have : IsTrans ProcessingAttemptEntity r := ⟨fun a b c hab hbc => Nat.le_trans hbc hab⟩
  have hsorted : (attemptsOf jobId t).Pairwise r := List.pairwise_insertionSort r _
  have hnodup : (attemptsOf jobId t).Nodup :=
    (List.perm_insertionSort r _).nodup_iff.mpr ((List.Nodup.of_map _ t.nodup).filter _)
  refine (hsorted.and hnodup).imp_of_mem fun {a b} ha hb hab => ?_
  have hmem : ∀ {x}, x ∈ attemptsOf jobId t → x ∈ t.rows ∧ x.jobId = jobId := fun hx => by
    simpa [attemptsOf] using hx
  refine lt_of_le_of_ne hab.1 fun hn => hab.2 ?_
  exact hu a (hmem ha).1 b (hmem hb).1 ((hmem ha).2.trans (hmem hb).2.symm) hn.symm

/-- A report whose terminal status is the status of its one attempt with that number. -/
structure ReportBacked (report : JobStatusReport) : Prop where
  completed : report.status = .COMPLETED → ∃ a,
    (report.attempts.filter fun a => a.attemptNumber = report.attemptCount) = [a] ∧
      a.status = .SUCCEEDED
  failed : report.status = .FAILED → ∃ a,
    (report.attempts.filter fun a => a.attemptNumber = report.attemptCount) = [a] ∧
      a.status = .FAILED ∧ a.errorMessage = report.lastError
  strict : report.attempts.Pairwise fun a b => b.attemptNumber < a.attemptNumber

/-- A strictly decreasing list has one element with a number it has. -/
theorem filter_eq_singleton {l : List ProcessingAttemptEntity} {a : ProcessingAttemptEntity}
    {n : ℕ} (hl : l.Pairwise fun a b => b.attemptNumber < a.attemptNumber) (ha : a ∈ l)
    (hn : a.attemptNumber = n) : (l.filter fun b => b.attemptNumber = n) = [a] := by
  subst hn
  induction l with
  | nil => cases ha
  | cons b l ih =>
    obtain ⟨hb, hl⟩ := List.pairwise_cons.mp hl
    rcases List.mem_cons.mp ha with rfl | ha
    · have : (l.filter fun b => b.attemptNumber = a.attemptNumber) = [] := by
        simp only [List.filter_eq_nil_iff, decide_eq_true_eq]
        exact fun c hc => (hb c hc).ne
      simp [this]
    · have := (hb a ha).ne'
      simp [this, ih hl ha]

theorem Backed.report {t : Attempts} {job : JobEntity} (h : Backed t job)
    (hu : UniqueNumbers t) : ReportBacked (reportOf job (attemptsOf job.id t)) where
  completed hs := by
    obtain ⟨a, ha, hid, hn, hst⟩ := h.completed hs
    have hmem : a ∈ attemptsOf job.id t := by simp [attemptsOf, ha, hid]
    exact ⟨a, filter_eq_singleton (attemptsOf_strict hu _) hmem hn, hst⟩
  failed hs := by
    obtain ⟨a, ha, hid, hn, hst, herr⟩ := h.failed hs
    have hmem : a ∈ attemptsOf job.id t := by simp [attemptsOf, ha, hid]
    exact ⟨a, filter_eq_singleton (attemptsOf_strict hu _) hmem hn, hst, herr⟩
  strict := attemptsOf_strict hu _

/-! ## The invariant -/

/-- The attempt an execution has saved says how it ran. -/
structure Ran (job : JobEntity) (a : ProcessingAttemptEntity) : Prop where
  jobId : a.jobId = job.id
  number : a.attemptNumber = job.attemptCount
  succeeded : evaluateFailure job job.attemptCount = none → a.status = .SUCCEEDED
  failed : ∀ errorMessage, evaluateFailure job job.attemptCount = some errorMessage →
    a.status = .FAILED ∧ a.errorMessage = some errorMessage

/-- What a phase relies on of the attempts. -/
def Sound (t : Attempts) : JobPhase → Prop
  | .running job a => a ∈ t.rows ∧ a.status = .STARTED ∧ a.jobId = job.id ∧
      a.attemptNumber = job.attemptCount
  | .finishing job a => a ∈ t.rows ∧ Ran job a
  | .collecting job => Backed t job
  | .reported report => ReportBacked report
  | _ => True

/-- 1 if the phase has started the attempt and not yet saved how it ran. -/
def JobPhase.owns (id : Uuid) : JobPhase → ℕ
  | .running _ a => if a.id = id then 1 else 0
  | _ => 0

/-- Job rows and reads are backed, and a started attempt has one owner. -/
structure Consistent (c : JobStore) (A : Multiset JobLocal) : Prop where
  rows : ∀ job ∈ c.jobs.rows, Backed c.attempts job
  unique : UniqueNumbers c.attempts
  sound : ∀ l ∈ A, Sound c.attempts l.phase
  owner : ∀ id, tally (JobPhase.owns id) A ≤ 1

theorem Ran.terminal {job : JobEntity} {a : ProcessingAttemptEntity} (h : Ran job a) :
    a.status ≠ .STARTED := by
  cases hv : evaluateFailure job job.attemptCount with
  | none => simp [h.succeeded hv]
  | some errorMessage => simp [(h.failed errorMessage hv).1]

theorem ran_settled {job : JobEntity} {a : ProcessingAttemptEntity} (hid : a.jobId = job.id)
    (hn : a.attemptNumber = job.attemptCount) (finishedAt : Date) :
    Ran job (settled job a finishedAt) := by
  unfold settled
  cases hv : evaluateFailure job job.attemptCount with
  | none => exact ⟨hid, hn, fun _ => rfl, fun _ h => by simp [hv] at h⟩
  | some errorMessage =>
    exact ⟨hid, hn, fun h => by simp [hv] at h, fun _ h => by
      cases hv.symm.trans h
      exact ⟨rfl, rfl⟩⟩

/-- What a phase relies on outlives a change of the attempts that keeps its own and the
terminal ones. -/
theorem Sound.mono {t t' : Attempts} {q : JobPhase} (h : Sound t q) (ht : TerminalKept t t')
    (hown : ∀ job a, q = .running job a → a ∈ t'.rows) : Sound t' q := by
  cases q with
  | running job a => exact ⟨hown job a rfl, h.2⟩
  | finishing job a => exact ⟨ht a h.1 h.2.terminal, h.2⟩
  | collecting job => exact Backed.mono h ht
  | reported report => exact h
  | _ => trivial

/-- A call that leaves the attempts alone, writes backed job rows and leads to a phase that
is sound. -/
theorem Consistent.keep {c c' : JobStore} {l l' : JobLocal} {rest : Multiset JobLocal}
    (h : Consistent c (l ::ₘ rest)) (ht : c'.attempts = c.attempts)
    (hjobs : ∀ job ∈ c'.jobs.rows, job ∈ c.jobs.rows ∨ Backed c.attempts job)
    (hl' : Sound c.attempts l'.phase) (howns : ∀ id, l'.phase.owns id ≤ l.phase.owns id) :
    Consistent c' (l' ::ₘ rest) where
  rows job hjob := by
    rw [ht]
    exact (hjobs job hjob).elim (h.rows job) id
  unique := by
    rw [ht]
    exact h.unique
  sound := by
    rw [ht]
    exact Multiset.forall_mem_cons.mpr ⟨hl', (Multiset.forall_mem_cons.mp h.sound).2⟩
  owner id := by
    have := h.owner id
    have := howns id
    simp only [tally_cons] at *
    omega

/-- Inserting an attempt leaves every other attempt alone. -/
theorem Consistent.attempt {c : JobStore} {l : JobLocal} {rest : Multiset JobLocal}
    {job : JobEntity} {row : ProcessingAttemptEntity} {t : Attempts}
    {past : List (Entry infrastructure Failure Env)} (h : Consistent c (l ::ₘ rest))
    (hid : row.jobId = job.id) (hn : row.attemptNumber = job.attemptCount)
    (hst : row.status = .STARTED)
    (hfree : ∀ a ∈ c.attempts.rows, a.jobId = job.id → a.attemptNumber ≠ job.attemptCount)
    (ht : c.attempts.insert row = some t) :
    Consistent { c with attempts := t } (⟨.running job row, past⟩ ::ₘ rest) where
  rows job' hjob := (h.rows job' hjob).mono fun a ha _ => (Table.mem_insert ht).mpr (.inl ha)
  unique a ha b hb hab hnum := by
    rcases (Table.mem_insert ht).mp ha with ha | rfl <;>
      rcases (Table.mem_insert ht).mp hb with hb | rfl
    · exact h.unique a ha b hb hab hnum
    · exact absurd (hnum.trans hn) (hfree a ha (hab.trans hid))
    · exact absurd (hnum.symm.trans hn) (hfree b hb (hab.symm.trans hid))
    · rfl
  sound := by
    refine Multiset.forall_mem_cons.mpr ⟨⟨(Table.mem_insert ht).mpr (.inr rfl), hst, hid, hn⟩,
      fun l' hl' => ?_⟩
    have hs := h.sound l' (Multiset.mem_cons_of_mem hl')
    refine hs.mono (fun a ha _ => (Table.mem_insert ht).mpr (.inl ha)) fun job' a hq => ?_
    rw [hq] at hs
    exact (Table.mem_insert ht).mpr (.inl hs.1)
  owner id := by
    have hle := h.owner id
    have hfresh : row.id = id → tally (JobPhase.owns id) rest = 0 := by
      rintro rfl
      by_contra hne
      obtain ⟨l', hl', hown⟩ := exists_of_tally_ne_zero hne
      have hs := h.sound l' (Multiset.mem_cons_of_mem hl')
      cases hq : l'.phase with
      | running job' a =>
        rw [hq] at hs hown
        have hsame : a.id = row.id := by simpa [JobPhase.owns] using hown
        exact (Table.insert_eq_some ht).2 a hs.1 hsame
      | _ => exact hown (by rw [hq]; rfl)
    simp only [tally_cons, JobPhase.owns] at hle ⊢
    split_ifs with hrow
    · rw [hfresh hrow]
    · omega

/-- Saving how an attempt ran changes no terminal attempt and no other execution's. -/
theorem Consistent.settle {c : JobStore} {rest : Multiset JobLocal} {job : JobEntity}
    {a a' : ProcessingAttemptEntity} {past past' : List (Entry infrastructure Failure Env)}
    (h : Consistent c (⟨.running job a, past⟩ ::ₘ rest)) (hid : a'.id = a.id)
    (hran : Ran job a') :
    Consistent { c with attempts := c.attempts.save a' }
      (⟨.finishing job a', past'⟩ ::ₘ rest) := by
  obtain ⟨hmem, hst, hjob, hn⟩ : a ∈ c.attempts.rows ∧ a.status = .STARTED ∧ a.jobId = job.id ∧
    a.attemptNumber = job.attemptCount := h.sound _ (Multiset.mem_cons_self _ _)
  have hkept : TerminalKept c.attempts (c.attempts.save a') := by
    refine fun b hb hne => Table.mem_save.mpr (.inr ⟨hb, fun hba => hne ?_⟩)
    rw [c.attempts.key_injOn hb hmem (hba.trans hid)]
    exact hst
  have hother : ∀ b ∈ c.attempts.rows, b.jobId = job.id → b.attemptNumber = job.attemptCount →
      b.id = a'.id := fun b hb hbj hbn => by
    rw [h.unique b hb a hmem (hbj.trans hjob.symm) (hbn.trans hn.symm), hid]
  refine ⟨fun job' hj => (h.rows job' hj).mono hkept, ?_, ?_, ?_⟩
  · intro b hb d hd hbd hnum
    rcases Table.mem_save.mp hb with rfl | ⟨hb', hbne⟩ <;>
      rcases Table.mem_save.mp hd with rfl | ⟨hd', hdne⟩
    · rfl
    · exact absurd (hother d hd' (hbd.symm.trans hran.jobId) (hnum.symm.trans hran.number)) hdne
    · exact absurd (hother b hb' (hbd.trans hran.jobId) (hnum.trans hran.number)) hbne
    · exact h.unique b hb' d hd' hbd hnum
  · refine Multiset.forall_mem_cons.mpr ⟨⟨Table.mem_save.mpr (.inl rfl), hran⟩, fun l hl => ?_⟩
    have hs := h.sound l (Multiset.mem_cons_of_mem hl)
    refine hs.mono hkept fun job' b hq => ?_
    -- A second execution running with `a` would own it too.
    have hne : b.id ≠ a'.id := by
      intro hba
      have hown := h.owner a.id
      have hle := le_tally (JobPhase.owns a.id) hl
      rw [hq] at hle
      simp only [tally_cons, JobPhase.owns, hba.trans hid, if_true] at hown hle
      omega
    rw [hq] at hs
    exact Table.mem_save.mpr (.inr ⟨hs.1, hne⟩)
  · intro id
    have := h.owner id
    simp only [tally_cons, JobPhase.owns] at this ⊢
    omega

theorem Consistent.effect {e : Env} {op : Op} {reply : op.Reply} {c c' : JobStore}
    {q q' : JobPhase} (he : Effect e op reply c q c' q') {rest : Multiset JobLocal}
    {past : List (Entry infrastructure Failure Env)} (h : Consistent c (⟨q, past⟩ ::ₘ rest))
    (past' : List (Entry infrastructure Failure Env)) :
    Consistent c' (⟨q', past'⟩ ::ₘ rest) := by
  have hq : Sound c.attempts q := h.sound ⟨q, past⟩ (Multiset.mem_cons_self _ _)
  have hsaved : ∀ {row : JobEntity}, Backed c.attempts row →
      ∀ job ∈ (c.jobs.save row).rows, job ∈ c.jobs.rows ∨ Backed c.attempts job :=
    fun hrow job hjob => by
      rcases Table.mem_save.mp hjob with rfl | ⟨hjob, -⟩
      · exact .inr hrow
      · exact .inl hjob
  have hold : ∀ job ∈ c.jobs.rows, job ∈ c.jobs.rows ∨ Backed c.attempts job :=
    fun _ hjob => .inl hjob
  cases he with
  | neutral => exact h.keep rfl hold hq fun _ => Nat.le_refl _
  | create hrow ht =>
    refine h.keep rfl (fun job hjob => ?_) trivial fun _ => Nat.zero_le _
    rcases (Table.mem_insert ht).mp hjob with hjob | rfl
    · exact .inl hjob
    · exact .inr (.of_queued (by rw [hrow]; rfl))
  | enqueue | lockTaken | lock | readNone | read | escalate | unlock | reportNone =>
    exact h.keep rfl hold trivial fun _ => Nat.zero_le _
  | retryRead k =>
    obtain ⟨err, hr⟩ | ⟨job, -, -, -, hr⟩ := afterRetryRead_cases k (c.jobs.lookup k) <;> rw [hr]
    · exact h.keep rfl hold trivial fun _ => Nat.zero_le _
    · exact h.keep rfl hold trivial fun _ => Nat.zero_le _
  | requeue hrow =>
    exact h.keep rfl (hsaved (.of_queued (by rw [hrow]; rfl))) trivial fun _ => Nat.zero_le _
  | start hrow =>
    exact h.keep rfl (hsaved (.of_processing (by rw [hrow]; rfl))) trivial
      fun _ => Nat.zero_le _
  | attempt hrow hfree ht =>
    subst hrow
    exact h.attempt rfl rfl rfl hfree ht
  | settle ha =>
    subst ha
    exact h.settle (by unfold settled; split <;> rfl) (ran_settled hq.2.2.1 hq.2.2.2 _)
  | complete hv hrow =>
    refine h.keep rfl (hsaved ⟨fun _ => ?_, fun hs => by simp [hrow, completed] at hs⟩) trivial
      fun _ => Nat.zero_le _
    exact ⟨_, hq.1, by rw [hrow, hq.2.jobId]; rfl, by rw [hrow, hq.2.number]; rfl,
      hq.2.succeeded hv⟩
  | fail hv hrow =>
    refine h.keep rfl (hsaved ⟨fun hs => by simp [hrow, failedJob] at hs, fun _ => ?_⟩) trivial
      fun _ => Nat.zero_le _
    obtain ⟨hst, herr⟩ := hq.2.failed _ hv
    exact ⟨_, hq.1, by rw [hrow, hq.2.jobId]; rfl, by rw [hrow, hq.2.number]; rfl, hst,
      by rw [herr, hrow]; rfl⟩
  | raise =>
    refine h.keep rfl hold ?_ fun _ => ?_
    · split_ifs <;> trivial
    · split_ifs <;> exact Nat.zero_le _
  | report hj =>
    exact h.keep rfl hold (h.rows _ (Table.lookup_eq_some.mp hj).1) fun _ => Nat.zero_le _
  | collect job => exact h.keep rfl hold (Backed.report hq h.unique) fun _ => Nat.zero_le _

theorem Consistent.drop {c : JobStore} {q q' : JobPhase} {rest : Multiset JobLocal}
    {past past' : List (Entry infrastructure Failure Env)} (hd : Drops q q')
    (h : Consistent c (⟨q, past⟩ ::ₘ rest)) : Consistent c (⟨q', past'⟩ ::ₘ rest) := by
  cases hd <;> exact h.keep rfl (fun _ hjob => .inl hjob) trivial fun _ => Nat.zero_le _

/-- A new thread has read nothing and started no attempt. -/
theorem Consistent.spawn {c : JobStore} {A : Multiset JobLocal} (h : Consistent c A)
    (call : Call) : Consistent c (⟨call.phase, []⟩ ::ₘ A) := by
  have hcall : Sound c.attempts call.phase ∧ ∀ id, call.phase.owns id = 0 := by
    cases call with
    | consume delivery =>
      simp only [Call.phase, consumerPhase]
      split <;> exact ⟨trivial, fun _ => rfl⟩
    | _ => exact ⟨trivial, fun _ => rfl⟩
  refine ⟨h.rows, h.unique, Multiset.forall_mem_cons.mpr ⟨hcall.1, h.sound⟩, fun id => ?_⟩
  rw [tally_cons, hcall.2 id, Nat.zero_add]
  exact h.owner id

theorem Consistent.turn {s s' : State} {A A' : Multiset JobLocal} {m : Label}
    (h : Consistent s.world.store A) (ht : Turn s A m s' A') : Consistent s'.world.store A' :=
  (ht.tables (R := fun _ _ => True) h
    (fun hc => ⟨trivial, fun hB => ⟨by rw [hc.jobs, hc.attempts]; exact hB.rows,
      by rw [hc.attempts]; exact hB.unique, by rw [hc.attempts]; exact hB.sound, hB.owner⟩⟩)
    (fun call hB => hB.spawn call) (fun hd hB _ => hB.drop hd)
    fun _ _ _ hA he past' => ⟨trivial, Consistent.effect he (hA ▸ h) past'⟩).2

theorem consistent_empty : Consistent World.empty.store 0 where
  rows _ hjob := absurd hjob List.not_mem_nil
  unique _ ha := absurd ha List.not_mem_nil
  sound l hl := absurd hl (Multiset.notMem_zero l)
  owner _ := Nat.zero_le 1

/-- Whenever `getStatus` reports a completed or failed job, the attempt with the reported
number is listed once and says the same, and the list is strictly decreasing. -/
theorem getStatus_backed {s : State}
    (h : Reachable step (fun _ _ => True) (State.init .empty) s) {i : ℕ}
    {report : JobStatusReport} (hi : s.outcome i = some (.ok (.report report))) :
    (report.status = .COMPLETED → ∃ a,
      (report.attempts.filter fun a => a.attemptNumber = report.attemptCount) = [a] ∧
        a.status = .SUCCEEDED) ∧
    (report.status = .FAILED → ∃ a,
      (report.attempts.filter fun a => a.attemptNumber = report.attemptCount) = [a] ∧
        a.status = .FAILED ∧ a.errorMessage = report.lastError) ∧
    report.attempts.Pairwise fun a b => b.attemptNumber < a.attemptNumber := by
  obtain ⟨A, hA, hc⟩ := jobs_invariant (I := fun s A => Consistent s.world.store A)
    (w := .empty) consistent_empty
    (fun s A m s' A' _ hc _ ht => hc.turn ht) h
  obtain ⟨l, hl, -, hends⟩ := hA.exists_ended hi
  have hs := hc.sound l hl
  cases hq : l.phase with
  | reported r =>
    rw [hq] at hs hends
    cases hends
    exact ⟨hs.completed, hs.failed, hs.strict⟩
  | idle =>
    rw [hq] at hends
    rcases hends with h | ⟨err, h⟩ <;> cases h
  | queued job =>
    rw [hq] at hends
    cases hends
  | refused err =>
    rw [hq] at hends
    cases hends
  | _ =>
    rw [hq] at hends
    exact hends.elim

/-- A status read while the worker is still reporting the failure. -/
theorem getStatus_backed_failed : ∃ (s : State) (report : JobStatusReport),
    s.outcome 2 = some (.ok (.report report)) ∧
      report.lastError = some "Processing failed on attempt 1" ∧ ∃ a,
        (report.attempts.filter fun a => a.attemptNumber = report.attemptCount) = [a] ∧
          a.status = .FAILED ∧ a.errorMessage = report.lastError := by
  obtain ⟨s, hs, hreport⟩ : ∃ s, Reachable step (fun _ _ => True) (State.init .empty) s ∧
      s.outcome 2 = some (.ok (.report
        { jobId := 1
          status := .FAILED
          attemptCount := 1
          maxAttempts := 3
          lastError := some "Processing failed on attempt 1"
          startedAt := some 12
          completedAt := some 18
          attempts :=
            [{ jobId := 1
               attemptNumber := 1
               status := .FAILED
               errorMessage := some "Processing failed on attempt 1"
               durationMs := some 6
               startedAt := 12
               finishedAt := some 18
               id := 16
               createdAt := 16 }] })) :=
    exists_reachable_of_execute _
      (.start (.create ⟨"ingest", "batch", [("shouldFail", .bool true)], 1, 3, "alice"⟩) ::
        calls 0 7 1 ++ [.deliver 0] ++ calls 1 11 10 ++ [.start (.getStatus 1)] ++ calls 2 2 30)
      _ (by decide)
  exact ⟨s, _, hreport, rfl, (getStatus_backed hs hreport).2.1 rfl⟩

end RealtimeOps
