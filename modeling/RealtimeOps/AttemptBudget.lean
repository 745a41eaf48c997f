import RealtimeOps.Turns

/-!
# The attempt budget

`retry` checks `attemptCount < maxAttempts`; the increment happens later, in `process`,
which checks nothing. What links the two is the number of messages : a message that waits,
or an execution that has not started, is a token for one more attempt. Two overlapping
retries put two tokens in flight for one check, and the counter passes the budget
(`not_attempt_budget`).

If every retry finds the status and the counter it read when it saves (`RetriesInTurn`), a
job never has more
than one token or running execution, the counter is below the budget while there is a
token, and once a critical alert is due the job is frozen : failed, out of attempts,
nothing in flight (`Budget`). So the budget holds, and a job gets at most one critical alert
and one incident (`attempt_budget`).
-/

set_option autoImplicit false

namespace RealtimeOps

open Interleaving PhaseMachine JobService JobProcessorService

/-! ## What is in flight -/

namespace JobPhase

/-- 1 if the phase will start the job, or send a message that will. -/
def token (jobId : Uuid) : JobPhase → ℕ
  | queueing job | starting job => if job.id = jobId then 1 else 0
  | locking k | reading k => if k = jobId then 1 else 0
  | _ => 0

/-- 1 if the phase has started the job and not yet saved how it ran. -/
def active (jobId : Uuid) : JobPhase → ℕ
  | started job | running job _ | finishing job _ => if job.id = jobId then 1 else 0
  | _ => 0

/-- 1 if the phase will raise a critical alert for the job. -/
def raising (jobId : Uuid) : JobPhase → ℕ
  | alerting job => if job.id = jobId ∧ job.maxAttempts ≤ job.attemptCount then 1 else 0
  | _ => 0

/-- 1 if the phase will open an incident for the job. -/
def opening (jobId : Uuid) : JobPhase → ℕ
  | alerting job => if job.id = jobId ∧ job.maxAttempts ≤ job.attemptCount then 1 else 0
  | escalating job _ => if job.id = jobId then 1 else 0
  | _ => 0

end JobPhase

/-- The critical alerts of a job. -/
def criticalAlerts (c : JobStore) (jobId : Uuid) : List AlertEntity :=
  c.alerts.rows.filter fun a => a.jobId = some jobId ∧ a.severity = .CRITICAL

/-- The incidents opened for an alert of the job. -/
def incidentsOf (c : JobStore) (jobId : Uuid) : List IncidentEntity :=
  c.incidents.rows.filter fun i =>
    ∃ a ∈ c.alerts.rows, i.alertId = some a.id ∧ a.jobId = some jobId

/-- The attempts under way to be started. -/
def tokens (c : JobStore) (A : Multiset JobLocal) (jobId : Uuid) : ℕ :=
  tally (JobPhase.token jobId) A + c.ready.countP fun m => m.jobId = some jobId

/-- The critical alerts raised or about to be. -/
def criticals (c : JobStore) (A : Multiset JobLocal) (jobId : Uuid) : ℕ :=
  (criticalAlerts c jobId).length + tally (JobPhase.raising jobId) A

/-- The incidents opened or about to be. -/
def openings (c : JobStore) (A : Multiset JobLocal) (jobId : Uuid) : ℕ :=
  (incidentsOf c jobId).length + tally (JobPhase.opening jobId) A

/-! ## The invariant -/

/-- A job has one attempt in flight at most, within its budget, and is frozen once a
critical alert is due. -/
structure Budget (c : JobStore) (A : Multiset JobLocal) (jobId : Uuid) : Prop where
  one : tokens c A jobId + tally (JobPhase.active jobId) A ≤ 1
  queued : tokens c A jobId ≠ 0 → ∃ row, c.jobs.lookup jobId = some row ∧
    row.status = .QUEUED ∧ (1 ≤ row.maxAttempts → row.attemptCount < row.maxAttempts)
  processing : tally (JobPhase.active jobId) A ≠ 0 → ∃ row, c.jobs.lookup jobId = some row ∧
    row.status = .PROCESSING
  bound : ∀ row, c.jobs.lookup jobId = some row → 1 ≤ row.maxAttempts →
    row.attemptCount ≤ row.maxAttempts
  critical : criticals c A jobId ≤ 1
  opening : openings c A jobId ≤ 1
  frozen : criticals c A jobId + openings c A jobId ≠ 0 → ∃ row,
    c.jobs.lookup jobId = some row ∧ row.status = .FAILED ∧ row.maxAttempts ≤ row.attemptCount

/-- The stored row of a job a phase has in memory has the same budget, and the same counter
while the phase runs it. -/
def Current (c : JobStore) : JobPhase → Prop
  | .requeueing job => job.attemptCount < job.maxAttempts ∧
      ∃ row, c.jobs.lookup job.id = some row ∧ row.maxAttempts = job.maxAttempts
  | .starting job | .started job | .running job _ | .finishing job _ =>
    ∃ row, c.jobs.lookup job.id = some row ∧ row.maxAttempts = job.maxAttempts ∧
      row.attemptCount = job.attemptCount
  | .escalating job alert => alert ∈ c.alerts.rows ∧ alert.jobId = some job.id
  | _ => True

/-- Every job within its budget, every phase current, every incident with its alert. -/
structure Budgeted (c : JobStore) (A : Multiset JobLocal) : Prop where
  budget : ∀ jobId, Budget c A jobId
  current : ∀ l ∈ A, Current c l.phase
  linked : ∀ i ∈ c.incidents.rows, ∀ id, i.alertId = some id → ∃ a ∈ c.alerts.rows, a.id = id

/-- Less in flight and nothing written is within the budget. -/
theorem Budget.mono {c c' : JobStore} {A A' : Multiset JobLocal} {jobId : Uuid}
    (h : Budget c A jobId) (hrow : c'.jobs.lookup jobId = c.jobs.lookup jobId)
    (ht : tokens c' A' jobId ≤ tokens c A jobId)
    (ha : tally (JobPhase.active jobId) A' ≤ tally (JobPhase.active jobId) A)
    (hc : criticals c' A' jobId ≤ criticals c A jobId)
    (ho : openings c' A' jobId ≤ openings c A jobId) : Budget c' A' jobId where
  one := by
    have := h.one
    omega
  queued hne := by
    rw [hrow]
    exact h.queued (by omega)
  processing hne := by
    rw [hrow]
    exact h.processing (by omega)
  bound := by
    rw [hrow]
    exact h.bound
  critical := hc.trans h.critical
  opening := ho.trans h.opening
  frozen hne := by
    rw [hrow]
    exact h.frozen (by omega)

/-- The budget of a job with the row `row`. -/
theorem Budget.of_row {c : JobStore} {A : Multiset JobLocal} {jobId : Uuid} {row : JobEntity}
    (hrow : c.jobs.lookup jobId = some row)
    (one : tokens c A jobId + tally (JobPhase.active jobId) A ≤ 1)
    (queued : tokens c A jobId ≠ 0 → row.status = .QUEUED ∧
      (1 ≤ row.maxAttempts → row.attemptCount < row.maxAttempts))
    (processing : tally (JobPhase.active jobId) A ≠ 0 → row.status = .PROCESSING)
    (bound : 1 ≤ row.maxAttempts → row.attemptCount ≤ row.maxAttempts)
    (critical : criticals c A jobId ≤ 1) (opening : openings c A jobId ≤ 1)
    (frozen : criticals c A jobId + openings c A jobId ≠ 0 →
      row.status = .FAILED ∧ row.maxAttempts ≤ row.attemptCount) : Budget c A jobId where
  one := one
  queued hne := ⟨row, hrow, queued hne⟩
  processing hne := ⟨row, hrow, processing hne⟩
  bound row' hrow' := by
    cases hrow.symm.trans hrow'
    exact bound
  critical := critical
  opening := opening
  frozen hne := ⟨row, hrow, frozen hne⟩

/-- The facts of a budget about the row it is given. -/
theorem Budget.row {c : JobStore} {A : Multiset JobLocal} {jobId : Uuid} {row : JobEntity}
    (h : Budget c A jobId) (hrow : c.jobs.lookup jobId = some row) :
    (tokens c A jobId ≠ 0 → row.status = .QUEUED ∧
      (1 ≤ row.maxAttempts → row.attemptCount < row.maxAttempts)) ∧
    (tally (JobPhase.active jobId) A ≠ 0 → row.status = .PROCESSING) ∧
    (criticals c A jobId + openings c A jobId ≠ 0 →
      row.status = .FAILED ∧ row.maxAttempts ≤ row.attemptCount) := by
  refine ⟨fun hne => ?_, fun hne => ?_, fun hne => ?_⟩
  · obtain ⟨row', hrow', hs⟩ := h.queued hne
    cases hrow.symm.trans hrow'
    exact hs
  · obtain ⟨row', hrow', hs⟩ := h.processing hne
    cases hrow.symm.trans hrow'
    exact hs
  · obtain ⟨row', hrow', hs⟩ := h.frozen hne
    cases hrow.symm.trans hrow'
    exact hs

/-- A failed job has nothing in flight. -/
theorem Budget.idle {c : JobStore} {A : Multiset JobLocal} {jobId : Uuid} {row : JobEntity}
    (h : Budget c A jobId) (hrow : c.jobs.lookup jobId = some row) (hs : row.status = .FAILED) :
    tokens c A jobId = 0 ∧ tally (JobPhase.active jobId) A = 0 := by
  obtain ⟨hqueued, hprocessing, -⟩ := h.row hrow
  constructor
  · by_contra hne
    cases hs.symm.trans (hqueued hne).1
  · by_contra hne
    cases hs.symm.trans (hprocessing hne)

/-- A job that has not failed has no critical alert due. -/
theorem Budget.notFrozen {c : JobStore} {A : Multiset JobLocal} {jobId : Uuid}
    {row : JobEntity} (h : Budget c A jobId) (hrow : c.jobs.lookup jobId = some row)
    (hs : row.status ≠ .FAILED) : criticals c A jobId = 0 ∧ openings c A jobId = 0 := by
  have hdue : criticals c A jobId + openings c A jobId = 0 := by
    by_contra hne
    exact hs ((h.row hrow).2.2 hne).1
  omega

/-- A job without a row has nothing in flight. -/
theorem Budget.absent {c : JobStore} {A : Multiset JobLocal} {jobId : Uuid}
    (h : Budget c A jobId) (hrow : c.jobs.lookup jobId = none) :
    tokens c A jobId = 0 ∧ tally (JobPhase.active jobId) A = 0 ∧
      criticals c A jobId = 0 ∧ openings c A jobId = 0 := by
  have hno : ∀ {p : JobEntity → Prop}, ¬∃ row, c.jobs.lookup jobId = some row ∧ p row := by
    rintro p ⟨row, hr, -⟩
    cases hrow.symm.trans hr
  have htok : tokens c A jobId = 0 := by
    by_contra hne
    exact hno (h.queued hne)
  have hact : tally (JobPhase.active jobId) A = 0 := by
    by_contra hne
    exact hno (h.processing hne)
  have hdue : criticals c A jobId + openings c A jobId = 0 := by
    by_contra hne
    exact hno (h.frozen hne)
  omega

/-- The phase has nothing in flight for the job. -/
structure Weightless (jobId : Uuid) (q : JobPhase) : Prop where
  token : q.token jobId = 0
  active : q.active jobId = 0
  raising : q.raising jobId = 0
  opening : q.opening jobId = 0

/-- A phase stays current when alerts are kept and rows keep their budget, and their counter
if the phase has the job in flight. -/
theorem Current.mono {c c' : JobStore} {q : JobPhase} (h : Current c q)
    (halerts : ∀ a ∈ c.alerts.rows, a ∈ c'.alerts.rows)
    (hrow : ∀ jobId row, c.jobs.lookup jobId = some row → ∃ row',
      c'.jobs.lookup jobId = some row' ∧ row'.maxAttempts = row.maxAttempts ∧
        (q.token jobId + q.active jobId ≠ 0 → row'.attemptCount = row.attemptCount)) :
    Current c' q := by
  cases q with
  | requeueing job =>
    obtain ⟨hlt, row, hr, hmax⟩ := h
    obtain ⟨row', hr', hmax', -⟩ := hrow _ row hr
    exact ⟨hlt, row', hr', hmax'.trans hmax⟩
  | starting job | started job | running job | finishing job =>
    obtain ⟨row, hr, hmax, hcount⟩ := h
    obtain ⟨row', hr', hmax', hcount'⟩ := hrow _ row hr
    refine ⟨row', hr', hmax'.trans hmax, (hcount' ?_).trans hcount⟩
    simp [JobPhase.token, JobPhase.active]
  | escalating job alert => exact ⟨halerts _ h.1, h.2⟩
  | _ => trivial

/-- `c'` has the jobs, alerts and incidents of `c`. -/
structure SameBooks (c c' : JobStore) : Prop where
  jobs : c'.jobs = c.jobs
  alerts : c'.alerts = c.alerts
  incidents : c'.incidents = c.incidents

/-- A turn that writes no job, alert or incident, with no more in flight after it. -/
theorem Budgeted.keep {c c' : JobStore} {A A' : Multiset JobLocal} (h : Budgeted c A)
    (hc : SameBooks c c') (hcur : ∀ l ∈ A', l ∈ A ∨ Current c l.phase)
    (ht : ∀ jobId, tokens c' A' jobId ≤ tokens c A jobId)
    (hw : ∀ jobId, tally (JobPhase.active jobId) A' ≤ tally (JobPhase.active jobId) A ∧
      tally (JobPhase.raising jobId) A' ≤ tally (JobPhase.raising jobId) A ∧
      tally (JobPhase.opening jobId) A' ≤ tally (JobPhase.opening jobId) A) :
    Budgeted c' A' where
  budget jobId := by
    obtain ⟨ha, hr, ho⟩ := hw jobId
    refine (h.budget jobId).mono (by rw [hc.jobs]) (ht jobId) ha ?_ ?_
    · simp only [criticals, criticalAlerts, hc.alerts]
      omega
    · simp only [openings, incidentsOf, hc.alerts, hc.incidents]
      omega
  current l hl := by
    refine Current.mono ((hcur l hl).elim (h.current l) id)
      (by rw [hc.alerts]; exact fun _ => id) ?_
    rw [hc.jobs]
    exact fun _ row hr => ⟨row, hr, rfl, fun _ => rfl⟩
  linked := by
    rw [hc.incidents, hc.alerts]
    exact h.linked

/-- A call that writes no job, alert or incident and leads to a phase with no more in
flight. -/
theorem Budgeted.keepPhase {c c' : JobStore} {l l' : JobLocal} {rest : Multiset JobLocal}
    (h : Budgeted c (l ::ₘ rest)) (hc : SameBooks c c') (hready : c'.ready = c.ready)
    (hcur : Current c l'.phase)
    (hw : ∀ jobId, l'.phase.token jobId ≤ l.phase.token jobId ∧
      l'.phase.active jobId ≤ l.phase.active jobId ∧
      l'.phase.raising jobId ≤ l.phase.raising jobId ∧
      l'.phase.opening jobId ≤ l.phase.opening jobId) : Budgeted c' (l' ::ₘ rest) := by
  refine h.keep hc (fun k hk => ?_) (fun jobId => ?_) fun jobId => ?_
  · rcases Multiset.mem_cons.mp hk with rfl | hk
    · exact .inr hcur
    · exact .inl (Multiset.mem_cons_of_mem hk)
  · have := (hw jobId).1
    simp only [tokens, hready, tally_cons]
    omega
  · have := (hw jobId).2
    simp only [tally_cons]
    omega

/-- A call that writes no job, alert or incident and leaves its thread with nothing in
flight. -/
theorem Budgeted.keepWeightless {c c' : JobStore} {l l' : JobLocal} {rest : Multiset JobLocal}
    (h : Budgeted c (l ::ₘ rest)) (hc : SameBooks c c') (hready : c'.ready = c.ready)
    (hcur : Current c l'.phase) (hw : ∀ jobId, Weightless jobId l'.phase) :
    Budgeted c' (l' ::ₘ rest) :=
  h.keepPhase hc hready hcur fun jobId => by
    simp [(hw jobId).token, (hw jobId).active, (hw jobId).raising, (hw jobId).opening]

/-- A call that writes the row of a job nobody else has in flight, and takes its phase from
this job to this job. -/
theorem Budgeted.write {c : JobStore} {l l' : JobLocal} {rest : Multiset JobLocal}
    {row : JobEntity} {t : Table JobEntity.id} (h : Budgeted c (l ::ₘ rest))
    (ht : ∀ jobId, t.lookup jobId = if row.id = jobId then some row else c.jobs.lookup jobId)
    (hmax : ∀ before, c.jobs.lookup row.id = some before → row.maxAttempts = before.maxAttempts)
    (hrest : tally (JobPhase.token row.id) rest + tally (JobPhase.active row.id) rest = 0)
    (hw : ∀ jobId, row.id ≠ jobId → Weightless jobId l'.phase)
    (hcur : Current { c with jobs := t } l'.phase)
    (hb : Budget { c with jobs := t } (l' ::ₘ rest) row.id) :
    Budgeted { c with jobs := t } (l' ::ₘ rest) where
  budget jobId := by
    by_cases hid : row.id = jobId
    · exact hid ▸ hb
    · obtain ⟨htok, ha, hr, ho⟩ := hw jobId hid
      refine (h.budget jobId).mono (by rw [ht, if_neg hid]) ?_ ?_ ?_ ?_
      · simp [tokens, htok]
      · simp [ha]
      · simp [criticals, criticalAlerts, hr]
      · simp [openings, incidentsOf, ho]
  current := by
    refine Multiset.forall_mem_cons.mpr ⟨hcur, fun k hk => ?_⟩
    refine (h.current k (Multiset.mem_cons_of_mem hk)).mono (fun _ => id) fun jobId before hbf => ?_
    rw [ht]
    split_ifs with hid
    · subst hid
      refine ⟨row, rfl, hmax before hbf, fun hne => ?_⟩
      have h1 := le_tally (JobPhase.token row.id) hk
      have h2 := le_tally (JobPhase.active row.id) hk
      omega
    · exact ⟨before, hbf, rfl, fun _ => rfl⟩
  linked := h.linked

section Writes

variable {c : JobStore} {l : JobLocal} {rest : Multiset JobLocal} {job row : JobEntity}
  {past : List (Entry infrastructure Failure Env)}

/-- A new job gets its token. -/
theorem Budgeted.create {t : Table JobEntity.id} {input : CreateJobInput}
    (h : Budgeted c (l ::ₘ rest)) (hq : l.phase = .creating input)
    (hst : row.status = .QUEUED) (hcount : row.attemptCount = 0)
    (ht : c.jobs.insert row = some t) :
    Budgeted { c with jobs := t } (⟨.queueing row, past⟩ ::ₘ rest) := by
  have hfree : c.jobs.lookup row.id = none :=
    Table.lookup_eq_none.mpr (Table.insert_eq_some ht).2
  obtain ⟨htok, hact, hcrit, hopen⟩ := (h.budget row.id).absent hfree
  simp only [tokens, criticals, openings, tally_cons, hq, JobPhase.token, JobPhase.active,
    JobPhase.raising, JobPhase.opening] at htok hact hcrit hopen
  refine h.write (Table.lookup_insert ht) (fun _ hb => ?_) (by omega)
    (fun _ hne => ⟨if_neg hne, rfl, rfl, rfl⟩) trivial
    (.of_row (by rw [Table.lookup_insert ht, if_pos rfl]) ?_ (fun _ => ⟨hst, ?_⟩) ?_ ?_ ?_ ?_ ?_)
  · cases hfree.symm.trans hb
  all_goals simp only [tokens, criticals, criticalAlerts, openings, incidentsOf, tally_cons,
    JobPhase.token, JobPhase.active, JobPhase.raising, JobPhase.opening, if_true] at *
  all_goals omega

/-- A retry that saves over the failed row it read gets the job its one token. -/
theorem Budgeted.requeue (h : Budgeted c (l ::ₘ rest)) (hq : l.phase = .requeueing job)
    (hid : row.id = job.id) (hst : row.status = .QUEUED)
    (hmax : row.maxAttempts = job.maxAttempts) (hcount : row.attemptCount = job.attemptCount)
    (hread : ∀ before, c.jobs.lookup job.id = some before →
      before.status = .FAILED ∧ before.attemptCount = job.attemptCount) :
    Budgeted { c with jobs := c.jobs.save row } (⟨.queueing row, past⟩ ::ₘ rest) := by
  have hcur := h.current l (Multiset.mem_cons_self _ _)
  rw [hq] at hcur
  obtain ⟨hlt, before, hb, hbmax⟩ := hcur
  obtain ⟨hfailed, hbcount⟩ := hread before hb
  rw [← hid] at hb
  obtain ⟨htok, hact⟩ := (h.budget row.id).idle hb hfailed
  have hdue : criticals c (l ::ₘ rest) row.id + openings c (l ::ₘ rest) row.id = 0 := by
    by_contra hne
    have := ((h.budget row.id).row hb).2.2 hne
    omega
  simp only [tokens, criticals, openings, tally_cons, hq, JobPhase.token, JobPhase.active,
    JobPhase.raising, JobPhase.opening] at htok hact hdue
  refine h.write (Table.lookup_save c.jobs row) (fun before' hb' => ?_) (by omega)
    (fun _ hne => ⟨if_neg hne, rfl, rfl, rfl⟩) trivial
    (.of_row (Table.lookup_save_self _ _) ?_ (fun _ => ⟨hst, ?_⟩) ?_ ?_ ?_ ?_ ?_)
  · cases hb.symm.trans hb'
    omega
  all_goals simp only [tokens, criticals, criticalAlerts, openings, incidentsOf, tally_cons,
    JobPhase.token, JobPhase.active, JobPhase.raising, JobPhase.opening, if_true] at *
  all_goals omega

/-- The execution with the token starts the job. -/
theorem Budgeted.start (h : Budgeted c (l ::ₘ rest)) (hq : l.phase = .starting job)
    (hid : row.id = job.id) (hst : row.status = .PROCESSING)
    (hmax : row.maxAttempts = job.maxAttempts)
    (hcount : row.attemptCount = job.attemptCount + 1) :
    Budgeted { c with jobs := c.jobs.save row } (⟨.started row, past⟩ ::ₘ rest) := by
  have hcur := h.current l (Multiset.mem_cons_self _ _)
  rw [hq] at hcur
  obtain ⟨before, hb, hbmax, hbcount⟩ := hcur
  rw [← hid] at hb
  have hone := (h.budget row.id).one
  have htok : tokens c (l ::ₘ rest) row.id ≠ 0 := by
    simp [tokens, hq, JobPhase.token, hid]
  obtain ⟨hqueued, hleft⟩ := ((h.budget row.id).row hb).1 htok
  obtain ⟨hcrit, hopen⟩ := (h.budget row.id).notFrozen hb (by simp [hqueued])
  simp only [tokens, criticals, openings, tally_cons, hq, JobPhase.token, JobPhase.active,
    JobPhase.raising, JobPhase.opening, hid, if_true] at hone hcrit hopen
  refine h.write (Table.lookup_save c.jobs row) (fun before' hb' => ?_) (by rw [hid]; omega)
    (fun _ hne => ⟨rfl, if_neg hne, rfl, rfl⟩) ⟨row, Table.lookup_save_self _ _, rfl, rfl⟩
    (.of_row (Table.lookup_save_self _ _) ?_ ?_ (fun _ => hst) ?_ ?_ ?_ ?_)
  · cases hb.symm.trans hb'
    omega
  all_goals simp only [tokens, criticals, criticalAlerts, openings, incidentsOf, tally_cons,
    JobPhase.token, JobPhase.active, JobPhase.raising, JobPhase.opening, if_true] at *
  all_goals rw [hid] at *
  all_goals omega

/-- An execution that has run saves its job, and goes on to a phase that owes at most one
alert and one incident, those of a job that failed without attempts left. -/
theorem Budgeted.finish {a : ProcessingAttemptEntity} {q : JobPhase}
    (h : Budgeted c (l ::ₘ rest)) (hq : l.phase = .finishing job a) (hid : row.id = job.id)
    (hmax : row.maxAttempts = job.maxAttempts) (hcount : row.attemptCount = job.attemptCount)
    (hw : ∀ jobId, row.id ≠ jobId → Weightless jobId q)
    (hdone : q.token row.id = 0 ∧ q.active row.id = 0)
    (hdue : q.raising row.id ≤ 1 ∧ q.opening row.id ≤ 1)
    (hlast : q.raising row.id + q.opening row.id ≠ 0 →
      row.status = .FAILED ∧ row.maxAttempts ≤ row.attemptCount)
    (hcur : Current { c with jobs := c.jobs.save row } q) :
    Budgeted { c with jobs := c.jobs.save row } (⟨q, past⟩ ::ₘ rest) := by
  have hcur' := h.current l (Multiset.mem_cons_self _ _)
  rw [hq] at hcur'
  obtain ⟨before, hb, hbmax, hbcount⟩ := hcur'
  rw [← hid] at hb
  have hone := (h.budget row.id).one
  have hbound := (h.budget row.id).bound before hb
  have hact : tally (JobPhase.active row.id) (l ::ₘ rest) ≠ 0 := by
    simp [hq, JobPhase.active, hid]
  have hprocessing := ((h.budget row.id).row hb).2.1 hact
  obtain ⟨hcrit, hopen⟩ := (h.budget row.id).notFrozen hb (by simp [hprocessing])
  simp only [tokens, criticals, openings, tally_cons, hq, JobPhase.token, JobPhase.active,
    JobPhase.raising, JobPhase.opening, hid, if_true] at hone hcrit hopen
  rw [← hid] at hone hcrit hopen
  refine h.write (Table.lookup_save c.jobs row) (fun before' hb' => ?_) (by omega) hw hcur
    (.of_row (Table.lookup_save_self _ _) ?_ (fun hne => ?_) (fun hne => ?_) ?_ ?_ ?_
      fun hne => hlast ?_)
  · cases hb.symm.trans hb'
    omega
  all_goals simp only [tokens, criticals, criticalAlerts, openings, incidentsOf, tally_cons,
    hdone] at *
  all_goals omega

end Writes

theorem failureSeverity_eq_critical {job : JobEntity} :
    failureSeverity job = .CRITICAL ↔ job.maxAttempts ≤ job.attemptCount := by
  simp [failureSeverity]

/-- The alert of a failed attempt is raised; a critical one was due. -/
theorem Budgeted.raise {c : JobStore} {l : JobLocal} {rest : Multiset JobLocal}
    {job : JobEntity} {row : AlertEntity} {t : Table AlertEntity.id}
    {past : List (Entry infrastructure Failure Env)} (h : Budgeted c (l ::ₘ rest))
    (hq : l.phase = .alerting job) (hjob : row.jobId = some job.id)
    (hsev : row.severity = failureSeverity job) (ht : c.alerts.insert row = some t) :
    Budgeted { c with alerts := t }
      (⟨if failureSeverity job = .CRITICAL then .escalating job row else .closing job.id, past⟩ ::ₘ
        rest) := by
  obtain ⟨hrows, hfree⟩ := Table.insert_eq_some ht
  have hkept : ∀ a ∈ c.alerts.rows, a ∈ t.rows := fun a ha => (Table.mem_insert ht).mpr (.inl ha)
  -- No incident there is was opened for the new alert.
  have hincidents : ∀ jobId, incidentsOf { c with alerts := t } jobId = incidentsOf c jobId := by
    intro jobId
    refine List.filter_congr fun i hi => decide_eq_decide.mpr ⟨?_, ?_⟩
    · rintro ⟨a, ha, hia, haj⟩
      rcases (Table.mem_insert ht).mp ha with ha | rfl
      · exact ⟨a, ha, hia, haj⟩
      · obtain ⟨b, hb, hba⟩ := h.linked i hi _ hia
        exact absurd hba (hfree b hb)
    · rintro ⟨a, ha, hia, haj⟩
      exact ⟨a, hkept a ha, hia, haj⟩
  have hcriticals : ∀ jobId, (criticalAlerts { c with alerts := t } jobId).length =
      (criticalAlerts c jobId).length +
        if job.id = jobId ∧ job.maxAttempts ≤ job.attemptCount then 1 else 0 := by
    intro jobId
    simp only [criticalAlerts, hrows, List.filter_append, List.length_append, List.filter_cons,
      List.filter_nil, hjob, hsev, failureSeverity_eq_critical, Option.some.injEq,
      decide_eq_true_eq]
    split_ifs <;> rfl
  refine ⟨fun jobId => (h.budget jobId).mono rfl ?_ ?_ ?_ ?_, ?_, fun i hi id hid => ?_⟩
  · simp only [tokens, tally_cons, hq]
    split_ifs <;> simp [JobPhase.token]
  · simp only [tally_cons, hq]
    split_ifs <;> simp [JobPhase.active]
  · have hdone : (if failureSeverity job = .CRITICAL then JobPhase.escalating job row
        else .closing job.id).raising jobId = 0 := by
      split_ifs <;> rfl
    have hdue : (JobPhase.alerting job).raising jobId =
        if job.id = jobId ∧ job.maxAttempts ≤ job.attemptCount then 1 else 0 := rfl
    simp only [criticals, tally_cons, hq, hcriticals, hdone, hdue]
    omega
  · simp only [openings, tally_cons, hq, hincidents, failureSeverity_eq_critical]
    split_ifs with hcrit <;> simp [JobPhase.opening, hcrit]
  · refine Multiset.forall_mem_cons.mpr ⟨?_, fun k hk => ?_⟩
    · split_ifs
      · exact ⟨(Table.mem_insert ht).mpr (.inr rfl), hjob⟩
      · trivial
    · exact (h.current k (Multiset.mem_cons_of_mem hk)).mono hkept
        fun _ before hb => ⟨before, hb, rfl, fun _ => rfl⟩
  · obtain ⟨a, ha, haid⟩ := h.linked i hi id hid
    exact ⟨a, hkept a ha, haid⟩

/-- The incident of a critical alert is opened; it was due. -/
theorem Budgeted.escalate {c : JobStore} {l : JobLocal} {rest : Multiset JobLocal}
    {job : JobEntity} {alert : AlertEntity} {row : IncidentEntity}
    {t : Table IncidentEntity.id} {past : List (Entry infrastructure Failure Env)}
    (h : Budgeted c (l ::ₘ rest)) (hq : l.phase = .escalating job alert)
    (halert : row.alertId = some alert.id) (ht : c.incidents.insert row = some t) :
    Budgeted { c with incidents := t } (⟨.closing job.id, past⟩ ::ₘ rest) := by
  have hcur := h.current l (Multiset.mem_cons_self _ _)
  rw [hq] at hcur
  obtain ⟨hmem, hjob⟩ := hcur
  have hconcerns : ∀ jobId, (∃ a ∈ c.alerts.rows, row.alertId = some a.id ∧
      a.jobId = some jobId) ↔ job.id = jobId := by
    intro jobId
    constructor
    · rintro ⟨a, ha, hid, haj⟩
      have hsame : a = alert :=
        c.alerts.key_injOn ha hmem (Option.some.inj (hid.symm.trans halert))
      rw [hsame, hjob] at haj
      exact Option.some.inj haj
    · rintro rfl
      exact ⟨alert, hmem, halert, hjob⟩
  have hincidents : ∀ jobId, (incidentsOf { c with incidents := t } jobId).length =
      (incidentsOf c jobId).length + if job.id = jobId then 1 else 0 := by
    intro jobId
    simp only [incidentsOf, (Table.insert_eq_some ht).1, List.filter_append, List.length_append,
      List.filter_cons, List.filter_nil, hconcerns, decide_eq_true_eq]
    split_ifs <;> rfl
  refine ⟨fun jobId => (h.budget jobId).mono rfl ?_ ?_ ?_ ?_, ?_, fun i hi id hid => ?_⟩
  · simp [tokens, hq, JobPhase.token]
  · simp [hq, JobPhase.active]
  · simp [criticals, criticalAlerts, hq, JobPhase.raising]
  · simp only [openings, tally_cons, hq, hincidents, JobPhase.opening]
    omega
  · refine Multiset.forall_mem_cons.mpr ⟨trivial, fun k hk => ?_⟩
    exact (h.current k (Multiset.mem_cons_of_mem hk)).mono (fun _ => id)
      fun _ before hb => ⟨before, hb, rfl, fun _ => rfl⟩
  · rcases (Table.mem_insert ht).mp hi with hi | rfl
    · exact h.linked i hi id hid
    · exact ⟨alert, hmem, Option.some.inj (halert.symm.trans hid)⟩

/-- A call that goes through keeps every job within its budget, given what a retry saves
over. -/
theorem Budgeted.effect {e : Env} {op : Op} {reply : op.Reply} {c c' : JobStore}
    {q q' : JobPhase} {past : List (Entry infrastructure Failure Env)}
    {rest : Multiset JobLocal} (h : Budgeted c (⟨q, past⟩ ::ₘ rest))
    (he : Effect e op reply c q c' q')
    (hsave : ∀ job, q = .requeueing job → op = .saveJob (requeued job) →
      ∀ row ∈ c.jobs.lookup job.id,
        row.status = .FAILED ∧ row.attemptCount = job.attemptCount)
    (past' : List (Entry infrastructure Failure Env)) : Budgeted c' (⟨q', past'⟩ ::ₘ rest) := by
  have hcur : Current c q := h.current ⟨q, past⟩ (Multiset.mem_cons_self _ _)
  have hsame : ∀ {c₁ : JobStore}, c₁.jobs = c.jobs → c₁.alerts = c.alerts →
      c₁.incidents = c.incidents → SameBooks c c₁ := fun hj ha hi => ⟨hj, ha, hi⟩
  have hle : ∀ {f₁ f₂ f₃ f₄ : Uuid → ℕ} (jobId : Uuid),
      f₁ jobId ≤ f₁ jobId ∧ f₂ jobId ≤ f₂ jobId ∧ f₃ jobId ≤ f₃ jobId ∧ f₄ jobId ≤ f₄ jobId :=
    fun _ => ⟨Nat.le_refl _, Nat.le_refl _, Nat.le_refl _, Nat.le_refl _⟩
  cases he with
  | neutral => exact h.keepPhase (hsame rfl rfl rfl) rfl hcur hle
  | create hrow ht => exact h.create rfl (by rw [hrow]; rfl) (by rw [hrow]; rfl) ht
  | @enqueue _ job m hm =>
    refine h.keep (hsame rfl rfl rfl) (fun l hl => ?_) (fun jobId => ?_) fun _ => ?_
    · rcases Multiset.mem_cons.mp hl with rfl | hl
      · exact .inr trivial
      · exact .inl (Multiset.mem_cons_of_mem hl)
    · simp only [tokens, tally_cons, JobPhase.token, List.countP_append, List.countP_singleton,
        hm, Option.some.injEq, decide_eq_true_eq]
      omega
    · simp [JobPhase.active, JobPhase.raising, JobPhase.opening]
  | retryRead k =>
    obtain ⟨err, hr⟩ | ⟨job, hj, hs, hlt, hr⟩ := afterRetryRead_cases k (c.jobs.lookup k) <;>
      rw [hr]
    · exact h.keepWeightless (hsame rfl rfl rfl) rfl trivial fun _ => ⟨rfl, rfl, rfl, rfl⟩
    · obtain ⟨-, rfl⟩ := Table.lookup_eq_some.mp hj
      exact h.keepWeightless (hsame rfl rfl rfl) rfl ⟨hlt, job, hj, rfl⟩
        fun _ => ⟨rfl, rfl, rfl, rfl⟩
  | requeue hrow =>
    exact h.requeue rfl (by rw [hrow]; rfl) (by rw [hrow]; rfl) (by rw [hrow]; rfl)
      (by rw [hrow]; rfl) (hsave _ rfl rfl)
  | lockTaken | readNone | unlock | reportNone | report | collect =>
    exact h.keepWeightless (hsame rfl rfl rfl) rfl trivial fun _ => ⟨rfl, rfl, rfl, rfl⟩
  | lock => exact h.keepPhase (hsame rfl rfl rfl) rfl trivial hle
  | read hj =>
    obtain ⟨-, rfl⟩ := Table.lookup_eq_some.mp hj
    exact h.keepPhase (hsame rfl rfl rfl) rfl ⟨_, hj, rfl, rfl⟩ hle
  | start hrow =>
    exact h.start rfl (by rw [hrow]; rfl) (by rw [hrow]; rfl) (by rw [hrow]; rfl)
      (by rw [hrow]; rfl)
  | attempt => exact h.keepPhase (hsame rfl rfl rfl) rfl hcur hle
  | settle => exact h.keepPhase (hsame rfl rfl rfl) rfl hcur hle
  | complete hv hrow =>
    exact h.finish rfl (by rw [hrow]; rfl) (by rw [hrow]; rfl) (by rw [hrow]; rfl)
      (fun _ _ => ⟨rfl, rfl, rfl, rfl⟩) ⟨rfl, rfl⟩ ⟨Nat.zero_le _, Nat.zero_le _⟩
      (fun hne => absurd rfl hne) trivial
  | @fail _ job row a finishedAt errorMessage hv hrow =>
    have hst : row.status = .FAILED := by rw [hrow]; rfl
    refine h.finish rfl (by rw [hrow]; rfl) (by rw [hrow]; rfl) (by rw [hrow]; rfl)
      (fun jobId hne => ⟨rfl, rfl, ?_, ?_⟩) ⟨rfl, rfl⟩ ⟨?_, ?_⟩ (fun hne => ⟨hst, ?_⟩) trivial
    · simp [JobPhase.raising, hne]
    · simp [JobPhase.opening, hne]
    · simp only [JobPhase.raising]
      split_ifs <;> omega
    · simp only [JobPhase.opening]
      split_ifs <;> omega
    · simp only [JobPhase.raising, JobPhase.opening] at hne
      split_ifs at hne with hleft
      · exact hleft.2
      · exact absurd rfl hne
  | raise hrow ht => exact h.raise rfl (by rw [hrow]; rfl) (by rw [hrow]; rfl) ht
  | escalate hrow ht => exact h.escalate rfl (by rw [hrow]; rfl) ht

/-! ## Runs -/

/-- The stored row has the status and the counter of the one that was read. -/
def SameAttempt (row read : JobEntity) : Prop :=
  row.status = read.status ∧ row.attemptCount = read.attemptCount

instance : DecidableRel SameAttempt := fun _ _ =>
  inferInstanceAs (Decidable (_ ∧ _))

/-- Each message is delivered once, no key runs out, and a retry saves over a row with the
status and the counter it read. -/
def RetriesInTurn (s : State) (m : Label) : Prop :=
  DeliversOnce m ∧ Answers s (fun i _ op => SavesOver SameAttempt s i op) m

instance (s : State) : DecidablePred (RetriesInTurn s) := fun _ =>
  inferInstanceAs (Decidable (_ ∧ _))

theorem Budgeted.drop {c : JobStore} {q q' : JobPhase} {rest : Multiset JobLocal}
    {past : List (Entry infrastructure Failure Env)} (h : Budgeted c (⟨q, past⟩ ::ₘ rest))
    (hd : Drops q q') (past' : List (Entry infrastructure Failure Env)) :
    Budgeted c (⟨q', past'⟩ ::ₘ rest) := by
  cases hd <;>
    exact h.keepWeightless ⟨rfl, rfl, rfl⟩ rfl trivial fun _ => ⟨rfl, rfl, rfl, rfl⟩

/-- A request starts with nothing in flight. -/
theorem Budgeted.spawn {c : JobStore} {A : Multiset JobLocal} (h : Budgeted c A) {call : Call}
    (hcall : DeliversOnce (.start call)) : Budgeted c (⟨call.phase, []⟩ ::ₘ A) := by
  have hw : Current c call.phase ∧ ∀ jobId, Weightless jobId call.phase := by
    cases call with
    | process | consume => exact hcall.elim
    | _ => exact ⟨trivial, fun _ => ⟨rfl, rfl, rfl, rfl⟩⟩
  refine h.keep ⟨rfl, rfl, rfl⟩ (fun l hl => ?_) (fun jobId => ?_) fun jobId => ?_
  · rcases Multiset.mem_cons.mp hl with rfl | hl
    · exact .inr hw.1
    · exact .inl hl
  · simp [tokens, (hw.2 jobId).token]
  · simp [(hw.2 jobId).active, (hw.2 jobId).raising, (hw.2 jobId).opening]

/-- A delivered message stays one token. -/
theorem Budgeted.deliver {c c' : JobStore} {A : Multiset JobLocal} (h : Budgeted c A) {n : ℕ}
    {m : Message} (hn : c.ready[n]? = some m)
    (hc : c' = { c with ready := c.ready.eraseIdx n }) :
    Budgeted c' (⟨consumerPhase m, []⟩ ::ₘ A) := by
  subst hc
  obtain ⟨hlt, rfl⟩ := List.getElem?_eq_some_iff.mp hn
  have hperm := List.getElem_cons_eraseIdx_perm hlt
  refine h.keep ⟨rfl, rfl, rfl⟩ (fun l hl => ?_) (fun jobId => ?_) fun jobId => ?_
  · rcases Multiset.mem_cons.mp hl with rfl | hl
    · refine .inr ?_
      unfold consumerPhase
      split <;> trivial
    · exact .inl hl
  · have hcount := hperm.countP_eq fun m => decide (m.jobId = some jobId)
    have htoken : (consumerPhase c.ready[n]).token jobId =
        if c.ready[n].jobId = some jobId then 1 else 0 := by
      unfold consumerPhase
      cases c.ready[n].jobId <;> simp [JobPhase.token]
    rw [List.countP_cons] at hcount
    simp only [decide_eq_true_eq] at hcount
    simp only [tokens, tally_cons, htoken]
    omega
  · have hw : (consumerPhase c.ready[n]).active jobId = 0 ∧
        (consumerPhase c.ready[n]).raising jobId = 0 ∧
        (consumerPhase c.ready[n]).opening jobId = 0 := by
      unfold consumerPhase
      split <;> exact ⟨rfl, rfl, rfl⟩
    simp [hw.1, hw.2.1, hw.2.2]

theorem Budgeted.turn {s s' : State} {A A' : Multiset JobLocal} {m : Label}
    (h : Budgeted s.world.store A) (hread : ∀ l ∈ A, RetryTrace l) (hm : RetriesInTurn s m)
    (ht : Turn s A m s' A') : Budgeted s'.world.store A' := by
  cases ht with
  | start _ call => exact h.spawn hm.1
  | deliver _ hn hclock hw => exact h.deliver hn hw
  | @step _ i e op l q rest hop hpast hlog hnow hclock hmove =>
    -- The row that was read had failed, as the guard of `retry` saw.
    have hl := hread l (Multiset.mem_cons_self _ _)
    have hsave : ∀ job, l.phase = .requeueing job → op = .saveJob (requeued job) →
        ∀ row ∈ s.world.jobs.lookup job.id,
          row.status = .FAILED ∧ row.attemptCount = job.attemptCount := by
      intro job hq hop' row hrow
      obtain ⟨hstatus, hcount⟩ := (hm.2 op hop).agree hl hpast hq hop' row hrow
      exact ⟨hstatus.trans (hl job hq).2.1, hcount⟩
    obtain ⟨q₁, ⟨rfl, reply, hr, he⟩ | ⟨hq, hr, hd, ⟨rfl, hs⟩ | ⟨reply, he⟩⟩⟩ := hmove.split
    · exact h.effect he hsave _
    · rw [hs]
      exact h.drop hd _
    · exact (h.effect he hsave []).drop hd _
  | stop hpast => exact h.drop (.idle _) _
  | redeliver => exact hm.1.elim
  | expire => exact hm.1.elim

/-- Two retries of a job that has failed once both read it before either saves it, and both
messages are executed. -/
def doubleRetry : List Label :=
  .start (.create ⟨"ingest", "batch", [("shouldFail", .bool true)], 1, 2, "alice"⟩) ::
    calls 0 7 1 ++ [.deliver 0] ++ calls 1 20 10 ++
    [.start (.retry 1 "alice"), .start (.retry 1 "bob")] ++ calls 2 1 40 ++ calls 3 8 50 ++
    calls 2 7 60 ++ [.deliver 0] ++ calls 4 23 70 ++ [.deliver 0] ++ calls 5 4 100

/-- A job of two attempts is started a third time. -/
theorem not_attempt_budget : ¬∀ s : State,
    Reachable step (fun _ m => DeliversOnce m ∧ Unfailing m) (State.init .empty) s →
    ∀ job ∈ s.world.jobs.rows, 1 ≤ job.maxAttempts →
      job.attemptCount ≤ job.maxAttempts ∧ (criticalAlerts s.world.store job.id).length ≤ 1 ∧
        (incidentsOf s.world.store job.id).length ≤ 1 := by
  intro hall
  obtain ⟨s, hs, job, hjob, hmax, hlt⟩ :
      ∃ s, Reachable step (fun _ m => DeliversOnce m ∧ Unfailing m) (State.init .empty) s ∧
        ∃ job ∈ s.world.jobs.rows, 1 ≤ job.maxAttempts ∧ job.maxAttempts < job.attemptCount :=
    exists_reachable_of_execute _ doubleRetry _ (by decide)
  exact absurd (hall s hs job hjob hmax).1 (Nat.not_le_of_lt hlt)

/-- As long as every retry saves over the status and the counter it read, no job exceeds its
attempts, and none gets a second critical alert or a second incident. -/
theorem attempt_budget {s : State} (h : Reachable step RetriesInTurn (State.init .empty) s)
    {job : JobEntity} (hjob : job ∈ s.world.jobs.rows) (hmax : 1 ≤ job.maxAttempts) :
    job.attemptCount ≤ job.maxAttempts ∧ (criticalAlerts s.world.store job.id).length ≤ 1 ∧
      (incidentsOf s.world.store job.id).length ≤ 1 := by
  have h₀ : Budgeted World.empty.store 0 :=
    ⟨fun _ => ⟨Nat.zero_le 1, fun hne => absurd rfl hne, fun hne => absurd rfl hne, nofun,
      Nat.zero_le 1, Nat.zero_le 1, fun hne => absurd rfl hne⟩, by simp, nofun⟩
  obtain ⟨A, -, hB, -⟩ := jobs_invariant
    (I := fun s A => Budgeted s.world.store A ∧ ∀ l ∈ A, RetryTrace l) ⟨h₀, by simp⟩
    (fun s A m s' A' _ hI hm ht => ⟨hI.1.turn hI.2 hm ht, retryTrace_turn ht hI.2⟩) h
  have hb := hB.budget job.id
  exact ⟨hb.bound job (Table.lookup_of_mem hjob) hmax,
    (Nat.le_add_right _ _).trans hb.critical, (Nat.le_add_right _ _).trans hb.opening⟩

/-- A job of two attempts, failed and retried to the end, with its alert and incident. -/
theorem attempt_budget_last : ∃ s, Reachable step RetriesInTurn (State.init .empty) s ∧
    ∃ job ∈ s.world.jobs.rows, job.maxAttempts = 2 ∧ job.attemptCount = 2 ∧
      (criticalAlerts s.world.store job.id).length = 1 ∧
      (incidentsOf s.world.store job.id).length = 1 := by
  obtain ⟨s, hs, job, hjob, hmax, hcount, halert, hincident⟩ :
      ∃ s, Reachable step RetriesInTurn (State.init .empty) s ∧
        ∃ job ∈ s.world.jobs.rows, job.maxAttempts = 2 ∧ 2 ≤ job.attemptCount ∧
          1 ≤ (criticalAlerts s.world.store job.id).length ∧
          1 ≤ (incidentsOf s.world.store job.id).length :=
    exists_reachable_of_execute _
      (.start (.create ⟨"ingest", "batch", [("shouldFail", .bool true)], 1, 2, "alice"⟩) ::
        calls 0 7 1 ++ [.deliver 0] ++ calls 1 20 10 ++ [.start (.retry 1 "alice")] ++
        calls 2 8 40 ++ [.deliver 0] ++ calls 3 23 60) _ (by decide)
  obtain ⟨hbound, halerts, hincidents⟩ := attempt_budget hs hjob (by omega)
  exact ⟨s, hs, job, hjob, hmax, by omega, by omega, by omega⟩

end RealtimeOps
