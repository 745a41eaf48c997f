import Mathlib.Data.Rat.Defs
import RealtimeOps.Interleaving.Census
import RealtimeOps.Interleaving.Deletion
import RealtimeOps.RetryRace

/-!
# The status summary

`getStatusSummary` sends seven queries at once and waits for all of them. The database answers
each at a moment of its own, and the workers and the API go on in between. So a job may be in one
status when that is counted and in another one when that is, or in none of them.

No job being created meanwhile, the four counts are those of one table exactly if each job left a
status already counted for one still to be counted as often as the other way
(`summary_counts_once_iff`).
-/

set_option autoImplicit false

namespace RealtimeOps

open Interleaving

namespace ProcessingStatusService

/-! ## The queries -/

/-- The queries in `Promise.all`. -/
inductive Query where
  /-- `jobRepository.count({ where: { status } })`. -/
  | jobs (status : JobStatus)
  | openAlerts
  | openIncidents
  | avgDuration
  deriving DecidableEq

/-- The queries `getSummary` sends, in the order of its `Promise.all`. -/
def queries : List Query :=
  [.jobs .QUEUED, .jobs .PROCESSING, .jobs .COMPLETED, .jobs .FAILED, .openAlerts, .openIncidents,
    .avgDuration]

/-- `jobRepository.count`. -/
def countJobs (status : JobStatus) (w : World) : ℕ :=
  w.jobs.rows.countP fun job => job.status = status

/-- `alertRepository.count`. -/
def countAlerts (status : AlertStatus) (w : World) : ℕ :=
  w.alerts.rows.countP fun alert => alert.status = status

/-- `incidentRepository.count`. -/
def countIncidents (status : IncidentStatus) (w : World) : ℕ :=
  w.incidents.rows.countP fun incident => incident.status = status

/-- `AVG(attempt.durationMs)` of the attempts that have one, as the exact number. -/
def avgDuration (w : World) : Option ℚ :=
  match w.attempts.rows.filterMap (·.durationMs) with
  | [] => none
  | durations => some (durations.sum / durations.length)

/-- `jobs` of a summary. -/
structure JobCounts where
  queued : ℕ
  processing : ℕ
  completed : ℕ
  failed : ℕ
  deriving DecidableEq

/-- What `getSummary` returns. -/
structure StatusSummary where
  jobs : JobCounts
  /-- `alerts.open`. -/
  openAlerts : ℕ
  /-- `incidents.open`. -/
  openIncidents : ℕ
  /-- `performance.averageAttemptDurationMs`. -/
  averageAttemptDurationMs : Option ℚ
  timestamp : Date
  deriving DecidableEq

/-- The world a query was answered on, and how. -/
structure Answer where
  world : World
  outcome : Outcome

/-- What `getStatusSummary` ends with once these answers are in, if it does. `Promise.all` rejects
with the first rejection and resolves with the last answer. -/
def getStatusSummary (answers : Query → Option Answer) (now : Date) :
    Option (Except Failure StatusSummary) :=
  if queries.any fun q => (answers q).any fun a => a.outcome ≠ .resolves then
    some (.error .rejected)
  else do
    let queued := countJobs .QUEUED (← answers (.jobs .QUEUED)).world
    let processing := countJobs .PROCESSING (← answers (.jobs .PROCESSING)).world
    let completed := countJobs .COMPLETED (← answers (.jobs .COMPLETED)).world
    let failed := countJobs .FAILED (← answers (.jobs .FAILED)).world
    let openAlerts := countAlerts .OPEN (← answers .openAlerts).world
    let openIncidents := countIncidents .OPEN (← answers .openIncidents).world
    let averageAttemptDurationMs := avgDuration (← answers .avgDuration).world
    return .ok
      { jobs := { queued, processing, completed, failed }
        openAlerts
        openIncidents
        averageAttemptDurationMs
        timestamp := now }

/-- The jobs with a status. -/
def jobsIn (status : JobStatus) (w : World) : Finset Uuid :=
  ((w.jobs.rows.filter fun job => job.status = status).map (·.id)).toFinset

instance : Fintype JobStatus where
  elems := {.QUEUED, .PROCESSING, .COMPLETED, .FAILED}
  complete status := by cases status <;> decide

theorem sum_jobStatus (f : JobStatus → ℕ) :
    ∑ status, f status = f .QUEUED + f .PROCESSING + f .COMPLETED + f .FAILED := by
  change f .QUEUED + (f .PROCESSING + (f .COMPLETED + (f .FAILED + 0))) = _
  omega

/-! ## The call and the platform -/

/-- A call of `getStatusSummary` next to the threads of the platform. -/
structure Summarizing where
  platform : State
  answers : Query → Option Answer
  result : Option (Except Failure StatusSummary)

/-- The call has sent its queries, and none is answered yet. -/
def begin (s : State) : Summarizing :=
  ⟨s, fun _ => none, none⟩

/-- A move of the platform, or an answer to the call. -/
inductive Move where
  | platform (l : Label)
  /-- A query is answered. -/
  | answer (q : Query) (e : Env)
  deriving DecidableEq

namespace Summarizing

/-- The rows of the database. -/
abbrev world (s : Summarizing) : World :=
  s.platform.world

/-- The database answers a query. -/
def answered (s : Summarizing) (q : Query) (e : Env) : Summarizing :=
  let world := { s.world with clock := e.now }
  let answers := Function.update s.answers q (some ⟨world, e.outcome⟩)
  { platform := { s.platform with world }
    answers
    result := s.result <|> getStatusSummary answers e.now }

/-- One move. -/
def step (s : Summarizing) : Move → Option Summarizing
  | .platform l => (RealtimeOps.step s.platform l).map fun platform => { s with platform }
  | .answer q e =>
    if (s.answers q).isNone ∧ s.world.clock ≤ e.now then some (s.answered q e) else none

/-- The statuses of the jobs, and the jobs found in the statuses counted so far. -/
def survey (s : Summarizing) : Survey Uuid JobStatus where
  classOf id := (s.world.jobs.lookup id).map (·.status)
  found status := (s.answers (.jobs status)).map fun answer => jobsIn status answer.world

/-- The job was in the status when that was counted. -/
def CountedUnder (s : Summarizing) (id : Uuid) (status : JobStatus) : Prop :=
  ∃ answer ∈ s.answers (.jobs status), ∃ job ∈ answer.world.jobs.lookup id, job.status = status

/-- The job leaves a status already counted for one still to be counted. -/
def CountedAgain (id : Uuid) (s s' : Summarizing) : Prop :=
  Survey.Repeats id s.survey s'.survey

/-- The job leaves a status still to be counted for one already counted. -/
def Missed (id : Uuid) (s s' : Summarizing) : Prop :=
  Survey.Misses id s.survey s'.survey

instance (id : Uuid) : DecidableRel (CountedAgain id) := fun _ _ =>
  inferInstanceAs (Decidable (Survey.Repeats id _ _))

instance (id : Uuid) : DecidableRel (Missed id) := fun _ _ =>
  inferInstanceAs (Decidable (Survey.Misses id _ _))

/-- The counts of the summary add up to the number of jobs, and each job was counted once. -/
structure CountsOnce (summary : StatusSummary) (s : Summarizing) : Prop where
  total : summary.jobs.queued + summary.jobs.processing + summary.jobs.completed +
    summary.jobs.failed = s.world.jobs.rows.length
  once : ∀ job ∈ s.world.jobs.rows, ∃! status, s.CountedUnder job.id status

/-! ## What was counted -/

section

variable {w : World} {status : JobStatus} {id : Uuid} {s s' t : Summarizing}

theorem mem_jobsIn : id ∈ jobsIn status w ↔ (w.jobs.lookup id).map (·.status) = some status := by
  rw [jobsIn, List.mem_toFinset, List.mem_map, Option.map_eq_some_iff]
  refine exists_congr fun job => ?_
  rw [List.mem_filter, decide_eq_true_eq, Table.lookup_eq_some]
  exact and_right_comm

theorem card_jobsIn (status : JobStatus) (w : World) :
    (jobsIn status w).card = countJobs status w := by
  rw [jobsIn, List.toFinset_card_of_nodup, List.length_map, countJobs, List.countP_eq_length_filter]
  exact w.jobs.nodup.sublist (List.filter_sublist.map _)

theorem countedUnder_iff : s.CountedUnder id status ↔ s.survey.Counted id status := by
  unfold CountedUnder Survey.Counted survey
  constructor
  · rintro ⟨answer, hanswer, job, hjob, hstatus⟩
    refine ⟨_, Option.map_eq_some_iff.mpr ⟨answer, hanswer, rfl⟩, mem_jobsIn.mpr ?_⟩
    exact Option.map_eq_some_iff.mpr ⟨job, hjob, hstatus⟩
  · rintro ⟨items, hitems, hid⟩
    obtain ⟨answer, hanswer, rfl⟩ := Option.map_eq_some_iff.mp hitems
    obtain ⟨job, hjob, hstatus⟩ := Option.map_eq_some_iff.mp (mem_jobsIn.mp hid)
    exact ⟨answer, hanswer, job, hjob, hstatus⟩

theorem step_answer {q : Query} {e : Env} : s.step (.answer q e) = some s' ↔
    (s.answers q = none ∧ s.world.clock ≤ e.now) ∧ s.answered q e = s' := by
  simp only [step, Option.ite_none_right_eq_some, Option.isNone_iff_eq_none, Option.some.injEq]

/-- A move of the platform moves jobs, and the answer to a query counts one status or none. -/
theorem change_of_step {m : Move} (h : s.step m = some s') :
    Survey.Change s.survey s'.survey := by
  cases m with
  | platform l =>
    obtain ⟨platform, -, rfl⟩ := Option.map_eq_some_iff.mp h
    exact .moved rfl
  | answer q e =>
    obtain ⟨⟨hq, -⟩, rfl⟩ := step_answer.mp h
    have hother : ∀ status, .jobs status ≠ q →
        (s.answered q e).survey.found status = s.survey.found status := fun status hne => by
      simp only [survey, answered, Function.update_of_ne hne]
    cases q with
    | jobs status =>
      refine .counted status (jobsIn status s.world) ?_ rfl (fun id => mem_jobsIn) ?_
      · simp only [survey, hq, Option.map_none]
      · funext status'
        by_cases hstatus : status' = status
        · subst hstatus
          rw [Function.update_self]
          simp only [survey, answered, Function.update_self, Option.map_some]
          rfl
        · rw [Function.update_of_ne hstatus]
          exact hother status' fun h => hstatus (Query.jobs.inj h)
    | openAlerts | openIncidents | avgDuration =>
      exact .moved (funext fun status => hother status (by simp))

/-! ## What the summary says -/

/-- The call resolves once every query is answered. -/
theorem isSome_of_settle {answers : Query → Option Answer} {now : Date} {summary : StatusSummary}
    (h : getStatusSummary answers now = some (.ok summary)) (q : Query) : (answers q).isSome := by
  unfold getStatusSummary at h
  split_ifs at h
  · cases h
  · simp only [Option.bind_eq_bind, Option.bind_eq_some_iff] at h
    obtain ⟨_, hqueued, _, hprocessing, _, hcompleted, _, hfailed, _, halerts, _, hincidents, _,
      hduration, -⟩ := h
    rcases q with (_ | _ | _ | _) | _ | _ | _ <;> simp only [*, Option.isSome_some]

/-- The counts of a summary are those of the worlds the counts were answered on. -/
theorem exists_answers {answers : Query → Option Answer} {now : Date} {summary : StatusSummary}
    (h : getStatusSummary answers now = some (.ok summary)) :
    ∃ answer : Query → Answer, (∀ q, answers q = some (answer q)) ∧
      summary.jobs.queued = countJobs .QUEUED (answer (.jobs .QUEUED)).world ∧
      summary.jobs.processing = countJobs .PROCESSING (answer (.jobs .PROCESSING)).world ∧
      summary.jobs.completed = countJobs .COMPLETED (answer (.jobs .COMPLETED)).world ∧
      summary.jobs.failed = countJobs .FAILED (answer (.jobs .FAILED)).world := by
  choose answer hanswer using fun q => Option.isSome_iff_exists.mp (isSome_of_settle h q)
  refine ⟨answer, hanswer, ?_⟩
  obtain rfl : answers = fun q => some (answer q) := funext hanswer
  unfold getStatusSummary at h
  split_ifs at h
  · cases h
  · cases h
    exact ⟨rfl, rfl, rfl, rfl⟩

/-- What has been counted is the sum of the summary. -/
theorem sum_card_survey {now : Date} {summary : StatusSummary}
    (h : getStatusSummary s.answers now = some (.ok summary)) :
    ∑ status, ((s.survey.found status).getD ∅).card = summary.jobs.queued +
      summary.jobs.processing + summary.jobs.completed + summary.jobs.failed := by
  obtain ⟨answer, hanswer, hqueued, hprocessing, hcompleted, hfailed⟩ := exists_answers h
  have hcard : ∀ status, ((s.survey.found status).getD ∅).card =
      countJobs status (answer (.jobs status)).world := fun status => by
    simp only [survey, hanswer, Option.map_some, Option.getD_some, card_jobsIn]
  rw [hqueued, hprocessing, hcompleted, hfailed, sum_jobStatus]
  simp only [hcard]

/-! ## Jobs stay -/

theorem handle_jobs_advance (e : Env) (op : Op) (w : World) :
    Table.Advances (fun _ _ => True) w.jobs (handle e op w).2.jobs := by
  by_cases hop : op.keepsJobs = true
  · exact .of_eq (fun _ => trivial) (handle_keepsJobs hop e w)
  · obtain h | ⟨reply, h⟩ := handle_world e op w
    · rw [h]
      exact .of_eq (fun _ => trivial) rfl
    · generalize (handle e op w).2 = w' at h
      cases op with
      | insertJob c =>
        obtain ⟨-, jobs, hjobs, -, rfl⟩ := perform_insertJob h
        exact .insert (fun _ => trivial) hjobs
      | saveJob job =>
        obtain ⟨-, rfl⟩ := Prod.mk.inj (Option.some.inj h)
        exact .save_of (fun _ => trivial) fun _ _ _ => trivial
      | _ => exact absurd rfl hop

theorem step_jobs_advance {s s' : State} {l : Label} (h : RealtimeOps.step s l = some s') :
    Table.Advances (fun _ _ => True) s.world.jobs s'.world.jobs := by
  cases l with
  | start call =>
    cases h
    exact .of_eq (fun _ => trivial) rfl
  | deliver n =>
    obtain ⟨m, -, rfl⟩ := Option.map_eq_some_iff.mp h
    exact .of_eq (fun _ => trivial) rfl
  | step i e =>
    obtain ⟨op, k, -, rfl⟩ := Pool.advance_eq_some (step_step.mp h).2
    exact handle_jobs_advance e op s.world
  | redeliver tag =>
    obtain ⟨w, hw, rfl⟩ := Option.map_eq_some_iff.mp h
    obtain ⟨d, -, rfl⟩ := Option.map_eq_some_iff.mp hw
    exact .of_eq (fun _ => trivial) rfl
  | stop i =>
    obtain ⟨-, rfl⟩ := step_stop.mp h
    exact .of_eq (fun _ => trivial) rfl
  | expire key now =>
    obtain ⟨w, hw, rfl⟩ := Option.map_eq_some_iff.mp h
    obtain ⟨lock, -, -, rfl⟩ := expire_eq_some.mp hw
    exact .of_eq (fun _ => trivial) rfl

/-! ## Runs -/

/-- The result is what the answers give, and the jobs that were counted are still there. -/
structure Recorded (s : Summarizing) : Prop where
  result : ∀ summary, s.result = some (.ok summary) →
    ∃ now, getStatusSummary s.answers now = some (.ok summary)
  counted : ∀ q, ∀ answer ∈ s.answers q,
    Table.Advances (fun _ _ => True) answer.world.jobs s.world.jobs

theorem Recorded.begin (s : State) : Recorded (begin s) :=
  ⟨nofun, nofun⟩

theorem Recorded.step (h : Recorded s) {m : Move} (hstep : s.step m = some s') :
    Recorded s' := by
  cases m with
  | platform l =>
    obtain ⟨platform, hplatform, rfl⟩ := Option.map_eq_some_iff.mp hstep
    exact ⟨h.result, fun q answer hanswer => (h.counted q answer hanswer).trans
      (fun _ _ => trivial) (step_jobs_advance hplatform)⟩
  | answer q e =>
    obtain ⟨⟨hq, -⟩, rfl⟩ := step_answer.mp hstep
    refine ⟨fun summary hresult => ?_, fun q' answer hanswer => ?_⟩
    · change (s.result <|> _) = _ at hresult
      cases hsettled : s.result with
      | none =>
        rw [hsettled] at hresult
        exact ⟨e.now, hresult⟩
      | some result =>
        -- All queries had been answered then.
        rw [hsettled] at hresult
        cases hresult
        obtain ⟨now, hsettle⟩ := h.result summary hsettled
        have hanswered := isSome_of_settle hsettle q
        rw [hq] at hanswered
        cases hanswered
    · change Function.update s.answers q _ q' = some answer at hanswer
      by_cases hqq : q' = q
      · rw [hqq, Function.update_self] at hanswer
        cases hanswer
        exact .of_eq (fun _ => trivial) rfl
      · rw [Function.update_of_ne hqq] at hanswer
        exact h.counted q' answer hanswer

/-- A job that was counted is in the table. -/
theorem Recorded.found_subset (h : Recorded s) :
    ∀ found ∈ s.survey.found status, found ⊆ (s.world.jobs.rows.map (·.id)).toFinset := by
  intro found hfound id hid
  obtain ⟨answer, hanswer, rfl⟩ := Option.map_eq_some_iff.mp hfound
  obtain ⟨job, hjob, -⟩ := Option.map_eq_some_iff.mp (mem_jobsIn.mp hid)
  obtain ⟨job', hjob', -⟩ := (h.counted _ answer hanswer).exists_lookup hjob
  obtain ⟨hmem, rfl⟩ := Table.lookup_eq_some.mp hjob'
  exact List.mem_toFinset.mpr (List.mem_map_of_mem hmem)

/-- If each job was counted once, the counts add up to the number of jobs. -/
theorem Recorded.total (h : Recorded s) {now : Date} {summary : StatusSummary}
    (hsettle : getStatusSummary s.answers now = some (.ok summary))
    (honce : ∀ job ∈ s.world.jobs.rows, ∃! status, s.CountedUnder job.id status) :
    summary.jobs.queued + summary.jobs.processing + summary.jobs.completed +
      summary.jobs.failed = s.world.jobs.rows.length := by
  have htimes : ∀ id ∈ (s.world.jobs.rows.map (·.id)).toFinset, s.survey.times id = 1 := by
    intro id hid
    obtain ⟨job, hjob, rfl⟩ := List.mem_map.mp (List.mem_toFinset.mp hid)
    rw [Survey.times_eq_one_iff]
    simpa only [countedUnder_iff] using honce job hjob
  rw [← sum_card_survey hsettle, Survey.sum_card_found fun _ => h.found_subset,
    Finset.sum_congr rfl htimes, ← Finset.card_eq_sum_ones,
    List.toFinset_card_of_nodup s.world.jobs.nodup, List.length_map]

/-- In every run from any state in which no job is created, a summary that is returned counts each
job once exactly if each job left a status already counted for one still to be counted as often as
the other way. -/
theorem summary_counts_once_iff {s : State} {ms : List Move} {t : Summarizing}
    {summary : StatusSummary} (hrun : ms.foldlM Summarizing.step (begin s) = some t)
    (hnew : ∀ job ∈ t.world.jobs.rows, (s.world.jobs.lookup job.id).isSome)
    (hresult : t.result = some (.ok summary)) :
    CountsOnce summary t ↔ ∀ job ∈ t.world.jobs.rows,
      occurrences Summarizing.step (CountedAgain job.id) (begin s) ms =
        occurrences Summarizing.step (Missed job.id) (begin s) ms := by
  have ht : Recorded t :=
    foldlM_invariant (fun _ _ _ h hs => h.step hs) (Recorded.begin s) hrun
  obtain ⟨now, hsettle⟩ := ht.result summary hresult
  have hlast : ∀ status, (t.survey.found status).isSome := fun status => by
    rw [survey, Option.isSome_map]
    exact isSome_of_settle hsettle _
  have honce : ∀ job ∈ t.world.jobs.rows, ((∃! status, t.CountedUnder job.id status) ↔
      occurrences Summarizing.step (CountedAgain job.id) (begin s) ms =
        occurrences Summarizing.step (Missed job.id) (begin s) ms) := fun job hjob => by
    simp only [countedUnder_iff]
    refine Survey.counted_once_iff (fun _ _ _ => change_of_step) hrun (fun _ => rfl) ?_ hlast
    rw [survey, Option.isSome_map]
    exact hnew job hjob
  constructor
  · rintro ⟨-, hcounted⟩ job hjob
    exact (honce job hjob).mp (hcounted job hjob)
  · intro hmoves
    have hcounted := fun job hjob => (honce job hjob).mpr (hmoves job hjob)
    exact ⟨ht.total hsettle hcounted, hcounted⟩

end

/-- The queries are answered, one after the other. -/
def answering (queries : List Query) (now : Date) : List Move :=
  queries.map fun q => .answer q ⟨now, 0, .resolves⟩

/-- A retry reads the job and saves it as queued. -/
def requeueing (now : Date) : List Move :=
  .platform (.start (.retry 1 "alice")) :: (calls 0 2 now).map .platform

/-- The job is requeued once all statuses are counted. -/
def requeuedAfter : List Move :=
  answering (queries.take 4) 3 ++ requeueing 4 ++ answering (queries.drop 4) 6

/-- The failed jobs are counted before the job is requeued, and the queued ones after it. -/
def requeuedBetween : List Move :=
  answering [.jobs .FAILED] 3 ++ requeueing 4 ++ answering (queries.erase (.jobs .FAILED)) 6

theorem summary_counts_once_after : ∃ t summary,
    requeuedAfter.foldlM Summarizing.step (begin (State.init failedWorld)) = some t ∧
      t.result = some (.ok summary) ∧ CountsOnce summary t := by
  obtain ⟨t, ht⟩ := Option.isSome_iff_exists.mp (by decide :
    (requeuedAfter.foldlM Summarizing.step (begin (State.init failedWorld))).isSome)
  have hend : ∀ t ∈ requeuedAfter.foldlM Summarizing.step (begin (State.init failedWorld)),
      t.result = some (.ok ⟨⟨0, 0, 0, 1⟩, 0, 0, none, 6⟩) ∧
        ∀ job ∈ t.world.jobs.rows, job.id = 1 := by decide
  obtain ⟨hresult, hid⟩ := hend t ht
  refine ⟨t, _, ht, hresult, ?_⟩
  refine (summary_counts_once_iff ht (fun job hjob => ?_) hresult).mpr fun job hjob => ?_
  · rw [hid job hjob]
    decide
  · rw [hid job hjob]
    decide

/-- The job is counted as failed and as queued. -/
theorem not_summary_counts_once : ¬∀ (s : State) (ms : List Move) (t : Summarizing)
    (summary : StatusSummary), ms.foldlM Summarizing.step (begin s) = some t →
      (∀ job ∈ t.world.jobs.rows, (s.world.jobs.lookup job.id).isSome) →
      t.result = some (.ok summary) → CountsOnce summary t := by
  intro hall
  obtain ⟨t, ht⟩ := Option.isSome_iff_exists.mp (by decide :
    (requeuedBetween.foldlM Summarizing.step (begin (State.init failedWorld))).isSome)
  have hend : ∀ t ∈ requeuedBetween.foldlM Summarizing.step (begin (State.init failedWorld)),
      t.result = some (.ok ⟨⟨1, 0, 0, 1⟩, 0, 0, none, 6⟩) ∧
        (∀ job ∈ t.world.jobs.rows, (failedWorld.jobs.lookup job.id).isSome) ∧
          t.world.jobs.rows.length = 1 := by decide
  obtain ⟨hresult, hnew, hlength⟩ := hend t ht
  have htotal := (hall _ _ t _ ht hnew hresult).total
  rw [hlength] at htotal
  cases htotal

end Summarizing

end ProcessingStatusService

end RealtimeOps
