import RealtimeOps.Guarantees

/-!
# Abandoned jobs

A job without a message is left to itself. A worker runs a job only on a message that names it, only
`create` and `retry` send one, `create` for a new job and `retry` for a failed one. So a job that is
not FAILED, at a time when everything is at rest and no delivery of a message for it can come back,
keeps its row for ever, whatever is requested, fails or dies from then on (`abandoned_for_ever`).
-/

set_option autoImplicit false

namespace RealtimeOps

open Interleaving JobProcessorService

/-! ## Calls that leave a job alone -/

/-- The call does not save the job and sends no message for it. -/
def Op.LeavesAlone (jobId : Uuid) : Op → Prop
  | saveJob job => job.id ≠ jobId
  | sendToQueue message => message.jobId ≠ some jobId
  | _ => True

/-- The job is stored as it is. -/
def World.Has (w : World) (job : JobEntity) : Prop :=
  w.jobs.lookup job.id = some job

theorem perform_has {e : Env} {w w' : World} {op : Op} {reply : op.Reply} {job : JobEntity}
    (h : w.Has job) (hop : op.LeavesAlone job.id) (hp : perform e w op = some (reply, w')) :
    w'.Has job := by
  cases op with
  | insertJob columns =>
    obtain ⟨-, t, ht, -, rfl⟩ := perform_insertJob hp
    exact Table.lookup_of_insert ht h
  | saveJob other =>
    cases hp
    exact (Table.lookup_save _ _ _).trans ((if_neg hop).trans h)
  | _ =>
    have hsame : w'.jobs = w.jobs := by
      simp only [perform, Option.ite_none_right_eq_some, Option.map_eq_some_iff, Prod.mk.injEq,
        Option.some.injEq] at hp
      grind
    rw [World.Has, hsame]
    exact h

theorem handle_has {e : Env} {w : World} {op : Op} {job : JobEntity} (h : w.Has job)
    (hop : op.LeavesAlone job.id) : (handle e op w).2.Has job := by
  rcases handle_world e op w with hworld | ⟨reply, hp⟩
  · rw [hworld]
    exact h
  · exact perform_has (w := { w with clock := e.now }) h hop hp

/-- While the job is stored as it is, it is left alone. -/
def abandonment (job : JobEntity) : Discipline handle where
  le w w' := w.Has job → w'.Has job
  refl _ := id
  trans h h' := h' ∘ h
  allows w op := w.Has job → op.LeavesAlone job.id
  up _ _ _ hop hw := handle_has hw (hop hw)

/-! ## Programs that leave a job alone -/

/-- Nothing is promised. -/
abbrev LeftAlone {α : Type} (job : JobEntity) (p : Promise α) : Prop :=
  p.Delivers (abandonment job) (·.Has job) fun _ _ => True

section Programs

variable {job : JobEntity} {α : Type}

/-- A call that leaves the job alone; `R` is what its reply tells. -/
theorem leftAlone_await {op : Op} {f : op.Reply → Promise α} (R : op.Reply → Prop)
    (hop : op.LeavesAlone job.id)
    (hR : ∀ e w reply w', w.Has job → perform e w op = some (reply, w') → R reply)
    (hf : ∀ reply, R reply → LeftAlone job (f reply)) : LeftAlone job ((await op).bind f) := by
  refine .await_bind (R := fun reply _ => R reply) (fun _ _ _ => hop)
    (fun e w reply w' hw hh _ _ =>
      hR e { w with clock := e.now } reply w' hw (handle_eq_ok hh).1) fun reply => ?_
  refine .of_fact (fun _ hw => hw.2) fun hreply => ?_
  exact (hf reply hreply).mono (fun _ hw => hw.1) fun _ _ h => h

theorem leftAlone_of_calls {p : Promise α} (h : p.Calls fun op : Op => op.LeavesAlone job.id) :
    LeftAlone job p :=
  .of_calls (h.mono fun _ hop _ _ => hop)

/-- What is saved keeps its id. -/
theorem leftAlone_saveJob {saved : JobEntity} {f : JobEntity → Promise α} (hid : saved.id ≠ job.id)
    (hf : ∀ row : JobEntity, row.id ≠ job.id → LeftAlone job (f row)) :
    LeftAlone job ((await (.saveJob saved)).bind f) := by
  refine leftAlone_await (fun row => row.id ≠ job.id) hid (fun e w row w' _ hp => ?_) hf
  cases hp
  exact hid

/-- A job that is found is the one that is asked for. -/
theorem leftAlone_findJob {jobId : Uuid} {f : Option JobEntity → Promise α}
    (hnone : LeftAlone job (f none))
    (hf : ∀ found : JobEntity, found.id = jobId → (jobId = job.id → found = job) →
      LeftAlone job (f (some found))) : LeftAlone job ((await (.findJob jobId)).bind f) := by
  refine leftAlone_await (fun found : Option JobEntity =>
    ∀ row ∈ found, row.id = jobId ∧ (jobId = job.id → row = job)) trivial
    (fun e w found w' hw hp => ?_) fun found hfound => ?_
  · cases hp
    intro row hrow
    refine ⟨(Table.lookup_eq_some.mp hrow).2, fun hid => ?_⟩
    rw [hid] at hrow
    exact Option.some.inj (hrow.symm.trans hw)
  · cases found with
    | none => exact hnone
    | some row => exact hf row (hfound row rfl).1 (hfound row rfl).2

theorem leftAlone_create (input : CreateJobInput) : LeftAlone job (JobService.create input) := by
  unfold JobService.create
  refine leftAlone_await (fun row : JobEntity => row.id ≠ job.id) trivial
    (fun e w row w' hw hp => ?_) fun row hrow => ?_
  · obtain ⟨-, t, ht, rfl, -⟩ := perform_insertJob hp
    exact ((Table.insert_eq_some ht).2 job (Table.lookup_eq_some.mp hw).1).symm
  · have hsend : (⟨some ⟨some row.id, some "created", some input.operatorId⟩⟩ : Message).jobId ≠
        some job.id := fun heq => hrow (Option.some.inj heq)
    refine leftAlone_of_calls ?_
    refine .await_bind trivial fun _ => .await_bind trivial fun _ => .await_bind trivial fun _ => ?_
    refine .await_bind hsend fun _ => .await_bind trivial fun _ => ?_
    exact .await_bind trivial fun _ => trivial

/-- A job that is not FAILED is not retried. -/
theorem leftAlone_retry (hjob : job.status ≠ .FAILED) (jobId : Uuid) (operatorId : String) :
    LeftAlone job (JobService.retry jobId operatorId) := by
  unfold JobService.retry
  rw [Prog.bind_eq, JobService.getById_bind]
  refine leftAlone_findJob .throw fun found hid hsame => ?_
  dsimp only
  split_ifs with hstatus
  · exact .throw
  · exact .throw
  have hother : found.id ≠ job.id := by
    intro heq
    have hfound := hsame (hid.symm.trans heq)
    rw [hfound] at hstatus
    exact hstatus hjob
  have hsaved : (JobService.requeued found).id ≠ job.id := hother
  refine leftAlone_saveJob hsaved fun updated hupdated => ?_
  have hsend : (⟨some ⟨some updated.id, some "retry", some operatorId⟩⟩ : Message).jobId ≠
      some job.id := fun heq => hupdated (Option.some.inj heq)
  refine leftAlone_of_calls ?_
  refine .await_bind trivial fun _ => .await_bind trivial fun _ => .await_bind trivial fun _ => ?_
  refine .await_bind hsend fun _ => .await_bind trivial fun _ => ?_
  exact .await_bind trivial fun _ => trivial

theorem leftAlone_markCompleted {other : JobEntity} (hother : other.id ≠ job.id)
    (attempt : ProcessingAttemptEntity) : LeftAlone job (markCompleted other attempt) := by
  refine leftAlone_of_calls ?_
  refine .await_bind trivial fun _ => .await_bind trivial fun _ => .await_bind hother fun _ => ?_
  refine .await_bind trivial fun _ => .await_bind trivial fun _ => .await_bind trivial fun _ => ?_
  exact .await trivial

theorem leftAlone_markFailed {other : JobEntity} (hother : other.id ≠ job.id)
    (attempt : ProcessingAttemptEntity) (errorMessage : String) :
    LeftAlone job (markFailed other attempt errorMessage) := by
  have hreport : ∀ other attempt finishedAt alert incident,
      (reportFailure other attempt errorMessage finishedAt alert incident).Calls
        fun op : Op => op.LeavesAlone job.id := fun _ _ _ _ _ =>
    calls_reportFailure (fun _ => trivial) (fun _ => trivial) (fun _ _ => trivial) _ _ _ _ _ _
  refine leftAlone_of_calls ?_
  refine .await_bind trivial fun _ => .await_bind trivial fun _ => .await_bind hother fun _ => ?_
  refine .await_bind trivial fun _ => ?_
  split_ifs
  · exact .await_bind trivial fun _ => hreport _ _ _ _ _
  · exact hreport _ _ _ _ _

theorem leftAlone_processJob (input : ProcessJobInput) {other : JobEntity}
    (hother : other.id ≠ job.id) : LeftAlone job (processJob input other) := by
  unfold processJob
  refine leftAlone_await (fun _ => True) trivial (fun _ _ _ _ _ _ => trivial) fun startedAt _ => ?_
  have hsaved : (started other startedAt).id ≠ job.id := hother
  refine leftAlone_saveJob hsaved fun other hother => ?_
  refine leftAlone_await (fun _ => True) trivial (fun _ _ _ _ _ _ => trivial) fun _ _ => ?_
  refine leftAlone_await (fun _ => True) trivial (fun _ _ _ _ _ _ => trivial) fun _ _ => ?_
  refine leftAlone_await (fun _ => True) trivial (fun _ _ _ _ _ _ => trivial) fun attempt _ => ?_
  refine leftAlone_await (fun _ => True) trivial (fun _ _ _ _ _ _ => trivial) fun _ _ => ?_
  split
  · exact leftAlone_markFailed hother _ _
  · exact leftAlone_markCompleted hother _

theorem leftAlone_process {input : ProcessJobInput} (hinput : input.jobId ≠ job.id) :
    LeftAlone job (process input) := by
  unfold process
  refine leftAlone_await (fun _ => True) trivial (fun _ _ _ _ _ _ => trivial) fun acquired _ => ?_
  cases acquired with
  | false => exact .ret fun _ _ => trivial
  | true =>
    refine .tryFinally (leftAlone_findJob (.ret fun _ _ => trivial) fun found hid _ => ?_) ?_
    · exact leftAlone_processJob input (hid ▸ hinput)
    · exact leftAlone_of_calls (.await trivial)

/-- An execution runs the job that its message names. -/
theorem leftAlone_consume {delivery : Delivery} (hdelivery : delivery.message.jobId ≠ some job.id) :
    LeftAlone job
      (RabbitMqService.consumeCallback JobProcessingConsumer.onMessage delivery) := by
  unfold RabbitMqService.consumeCallback
  refine .tryCatch ?_ fun _ => leftAlone_of_calls (.await trivial)
  obtain ⟨tag, ⟨content⟩⟩ := delivery
  cases content with
  | none => exact .throw
  | some payload =>
    have hack : LeftAlone job (await (.ack tag)) := leftAlone_of_calls (.await trivial)
    refine .bind (Q := fun _ _ => True) ?_ fun _ => hack.mono (fun _ hw => hw.1) fun _ _ h => h
    unfold JobProcessingConsumer.onMessage
    split
    · exact .ret fun _ _ => trivial
    · rename_i jobId hjobId
      exact leftAlone_process fun heq => hdelivery (hjobId.trans (congrArg some heq))

end Programs

theorem leftAlone_prog {job : JobEntity} (hjob : job.status ≠ .FAILED) {c : Command}
    (hc : c.executes ≠ some job.id) : LeftAlone job c.prog := by
  have hmap : ∀ {α β : Type} {p : Promise α} {f : α → β}, LeftAlone job p →
      LeftAlone job (p.bind fun a => .ret (f a)) := fun hp =>
    .bind hp fun _ => .ret fun _ _ => trivial
  cases c with
  | job call =>
    refine hmap ?_
    cases call with
    | create input => exact hmap (leftAlone_create input)
    | retry jobId operatorId => exact hmap (leftAlone_retry hjob jobId operatorId)
    | getStatus jobId =>
      refine hmap (leftAlone_of_calls ?_)
      refine .bind (.await_bind trivial fun found => ?_) fun _ =>
        .await_bind trivial fun _ => trivial
      cases found <;> trivial
    | process input => exact hmap (leftAlone_process fun heq => hc (congrArg some heq))
    | consume delivery => exact hmap (leftAlone_consume hc)
  | createAlert | acknowledgeAlert | acknowledge | resolve =>
    refine leftAlone_of_calls ((onAlerts_prog (by rintro call ⟨⟩)).mono fun op hop => ?_)
    cases op <;> trivial

/-! ## Runs -/

namespace Operations

/-- Nobody starts an execution of the job. -/
def Label.Spares (jobId : Uuid) : Label → Prop
  | .start c => c.executes ≠ some jobId
  | _ => True

/-- The job is stored, no message for it is left, and all threads leave it alone. -/
structure Abandons (s : Operations) (job : JobEntity) : Prop where
  has : s.pool.world.Has job
  ready : ∀ m ∈ s.pool.world.ready, m.jobId ≠ some job.id
  unacked : ∀ delivery ∈ s.pool.world.unacked, delivery.message.jobId ≠ some job.id
  threads : s.pool.Promising (abandonment job) fun _ _ _ => True

namespace Abandons

variable {s s' : Operations} {job : JobEntity}

theorem start (h : s.Abandons job) (hjob : job.status ≠ .FAILED) {c : Command}
    (hc : c.executes ≠ some job.id) : (s.start c).Abandons job :=
  ⟨h.has, h.ready, h.unacked, h.threads.spawn (fun _ _ => rfl)
    (leftAlone_prog hjob hc _ fun _ hw => hw h.has)⟩

theorem withWorld (h : s.Abandons job) {w : World} (hjobs : w.jobs = s.pool.world.jobs)
    (hready : ∀ m ∈ w.ready, m.jobId ≠ some job.id)
    (hunacked : ∀ delivery ∈ w.unacked, delivery.message.jobId ≠ some job.id) :
    (s.withWorld w).Abandons job := by
  have hhas : w.Has job := by
    rw [World.Has, hjobs]
    exact h.has
  exact ⟨hhas, hready, hunacked, h.threads.up fun _ => hhas⟩

theorem step (h : s.Abandons job) (hjob : job.status ≠ .FAILED) {l : Label}
    (hl : l.Spares job.id) (hs : s.step l = some s') : s'.Abandons job := by
  cases l with
  | start c =>
    cases hs
    exact h.start hjob hl
  | deliver n =>
    obtain ⟨m, hm, rfl⟩ := Option.map_eq_some_iff.mp hs
    have hmessage : m.jobId ≠ some job.id := h.ready m (List.mem_of_getElem? hm)
    have hready : ∀ m ∈ s.pool.world.ready.eraseIdx n, m.jobId ≠ some job.id := fun m hm =>
      h.ready m (List.mem_of_mem_eraseIdx hm)
    refine Abandons.start ?_ hjob hmessage
    refine h.withWorld rfl hready fun delivery hdelivery => ?_
    rcases List.mem_append.mp hdelivery with hdelivery | hdelivery
    · exact h.unacked delivery hdelivery
    · cases List.mem_singleton.mp hdelivery
      exact hmessage
  | step i e =>
    obtain ⟨-, pool, hpool, rfl⟩ := step_step.mp hs
    obtain ⟨hthreads, hle⟩ := h.threads.advance hpool
    obtain ⟨op, k, hk, rfl⟩ := Pool.advance_eq_some hpool
    have hop : op.LeavesAlone job.id := (h.threads i _ hk s.pool.world id).1 h.has
    refine ⟨hle h.has, fun m hm => ?_, fun delivery hd => ?_, hthreads⟩
    all_goals dsimp only at *
    all_goals rcases handle_world e op s.pool.world with hworld | ⟨reply, hp⟩
    · rw [hworld] at hm
      exact h.ready m hm
    · rw [(perform_queue hp).1] at hm
      rcases List.mem_append.mp hm with hm | hm
      · exact h.ready m hm
      · cases op with
        | sendToQueue message =>
          cases List.mem_singleton.mp hm
          exact hop
        | _ => cases hm
    · rw [hworld] at hd
      exact h.unacked delivery hd
    · exact h.unacked delivery ((perform_queue hp).2 hd)
  | redeliver tag =>
    obtain ⟨w, hw, rfl⟩ := Option.map_eq_some_iff.mp hs
    obtain ⟨delivery, hd, rfl⟩ := Option.map_eq_some_iff.mp hw
    refine h.withWorld rfl (fun m hm => ?_) fun d hd => h.unacked d (List.mem_filter.mp hd).1
    rcases List.mem_append.mp hm with hm | hm
    · exact h.ready m hm
    · cases List.mem_singleton.mp hm
      exact h.unacked delivery (List.mem_of_find?_eq_some hd)
  | stop i =>
    obtain ⟨-, rfl⟩ := step_stop.mp hs
    exact ⟨h.has, h.ready, h.unacked, h.threads.halt i _⟩
  | expire key now =>
    obtain ⟨w, hw, rfl⟩ := Option.map_eq_some_iff.mp hs
    obtain ⟨lock, -, -, rfl⟩ := expire_eq_some.mp hw
    exact h.withWorld rfl h.ready h.unacked

end Abandons

end Operations

/-- No request asks for an execution. -/
theorem Site.Admits.spares {site : Site} {allow : SiteMove → Prop} {s : Operations}
    {l : Operations.Label} {jobId : Uuid} (h : site.Admits allow s l) : l.Spares jobId := by
  cases l with
  | start c =>
    obtain ⟨i, request, -, -, route, r, operatorId, -, -, hc⟩ := h
    cases route <;> cases hc <;> rintro ⟨⟩
  | _ => trivial

namespace Deployment

/-- The job is stored and is not to be retried, all requests and executions have ended, and no
message for the job is left. -/
structure Abandoned (d : Deployment) (job : JobEntity) : Prop where
  has : d.world.Has job
  status : job.status ≠ .FAILED
  ended : ∀ i, d.backend.awaited i = none
  ready : ∀ m ∈ d.world.ready, m.jobId ≠ some job.id
  unacked : ∀ delivery ∈ d.world.unacked, delivery.message.jobId ≠ some job.id

/-- The operations behind it abandon the job. -/
theorem Abandoned.abandons {site : Site} {allow : SiteMove → Prop} {names : List ℕ}
    {d : Deployment} {s : Operations} {job : JobEntity} (h : d.Abandoned job)
    (hrefines : d.Refines site allow names s) : s.Abandons job := by
  obtain ⟨events, clock, hworld⟩ := hrefines.world.same.exists
  refine ⟨?_, ?_, ?_, fun j p hp => ?_⟩
  · rw [hworld]
    exact h.has
  · rw [hworld]
    exact h.ready
  · rw [hworld]
    exact h.unacked
  · cases p with
    | ret a => exact fun _ _ => trivial
    | throw err => trivial
    | call op k =>
      -- A thread that awaits a call would be one of the deployment's.
      have hlt : j < names.length := hrefines.threads.length ▸ (List.getElem?_eq_some_iff.mp hp).1
      have hi := hrefines.threads.threads j _ _ (List.getElem?_eq_getElem hlt) hp
      cases (h.ended _).symm.trans (Named.awaited_eq_some.mpr ⟨_, hi⟩)

end Deployment

open Deployment

/-- Take a job that is stored with another status than FAILED at a time when every request and
execution has ended and no message for the job is waiting or can come back. Its row is the same in
every later state of every run, whatever is requested, fails, dies or comes back from then on. -/
theorem abandoned_for_ever {site : Site} {ms ms' : List SiteMove} {d d' : Deployment}
    {job : JobEntity} (h : ms.foldlM site.step .init = some d)
    (h' : ms'.foldlM site.step d = some d') (hjob : d.Abandoned job) :
    d'.world.jobs.lookup job.id = some job := by
  have hrun : Reachable site.step (fun _ => (· ∈ ms)) .init d :=
    reachable_of_foldlM (fun _ _ hm => hm) h
  have hrun' : Reachable site.step (fun _ => (· ∈ ms ++ ms')) d d' :=
    reachable_of_foldlM (fun _ _ hm => List.mem_append_right _ hm) h'
  obtain ⟨s, hs, names, -, hrefines⟩ :=
    (simulates site (· ∈ ms) []).reachable ⟨[], List.prefix_refl _, .init⟩ hrun
  have hmono : d.Refines site (· ∈ ms ++ ms') names s :=
    hrefines.mono fun m hm => List.mem_append_left _ hm
  obtain ⟨s', hs', names', hnames, hrefines'⟩ :=
    (simulates site (· ∈ ms ++ ms') names).reachable ⟨names, List.prefix_refl _, hmono⟩ hrun'
  have habandons : s'.Abandons job :=
    hs'.invariant (I := fun t => t.Abandons job)
      (fun _ _ _ ht hl hstep => ht.step hjob.status hl.spares hstep) (hjob.abandons hrefines)
  obtain ⟨events, clock, hworld⟩ := hrefines'.world.same.exists
  have hhas := habandons.has
  rw [hworld] at hhas
  exact hhas

/-- A job is created, but its message cannot be sent. -/
def creatingInVain : List SiteMove :=
  creating.take 7 ++ [.step 0 ⟨7, 7, .rejects⟩]

/-- An operator asks for the job to be retried. -/
def retryingInVain : List SiteMove :=
  .request 1 (.api (.retryJob 3) (operatorRequest "POST" "/api/v1/jobs/:id/retry")) ::
    answers 1 3 8

/-- The retry is refused, as the job is QUEUED, and so it stays. -/
theorem abandoned_for_ever_created : ∃ d d' job,
    creatingInVain.foldlM defaultSite.step .init = some d ∧
      retryingInVain.foldlM defaultSite.step d = some d' ∧ d.Abandoned job ∧
      d'.backend.outcome 1 =
        some (.error (.failed (.badRequest "Only failed jobs can be retried"))) ∧
      job.status = .QUEUED ∧ d'.world.jobs.lookup 3 = some job := by
  obtain ⟨d, hd⟩ := Option.isSome_iff_exists.mp
    (by decide : (creatingInVain.foldlM defaultSite.step .init).isSome)
  have hall : ∀ d ∈ creatingInVain.foldlM defaultSite.step .init,
      d.backend.awaited 0 = none ∧ d.world.ready = [] ∧ d.world.unacked = [] ∧
        (∃ job ∈ d.world.jobs.lookup 3, job.status = .QUEUED) ∧
        ∃ d' ∈ retryingInVain.foldlM defaultSite.step d, d'.backend.outcome 1 =
          some (.error (.failed (.badRequest "Only failed jobs can be retried"))) := by
    decide
  obtain ⟨hended, hready, hunacked, ⟨job, hjob, hstatus⟩, d', hd', houtcome⟩ := hall d hd
  have hid : job.id = 3 := (Table.lookup_eq_some.mp hjob).2
  have habandoned : d.Abandoned job := by
    refine ⟨?_, ?_, fun i => ?_, ?_, ?_⟩
    · rw [World.Has, hid]
      exact hjob
    · rw [hstatus]
      decide
    · by_cases hi : i = 0
      · rw [hi]
        exact hended
      · have hstarts : creatingInVain.filterMap SiteMove.starts = [0] := by rfl
        exact awaited_eq_none hd (hstarts ▸ mt List.mem_singleton.mp hi)
    · simp [hready]
    · simp [hunacked]
  refine ⟨d, d', job, hd, hd', habandoned, houtcome, hstatus, ?_⟩
  rw [← hid]
  exact abandoned_for_ever hd hd' habandoned

end RealtimeOps
