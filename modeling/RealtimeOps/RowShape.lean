import RealtimeOps.Turns

/-!
# The shape of a job row

Five saves in two services each write the whole row of an entity loaded earlier, and each
changes other columns. Which columns are set is nevertheless a function of the status
(`Shaped`), in every run, however calls are rejected, messages repeated, locks expired and
processes killed : no save leaves a column to what was loaded unless the status allows it.

What `create` was given is never changed. A phase that holds an entity holds a copy of what
`create` was given (`Copied`), so no save, however late, writes anything else.
-/

set_option autoImplicit false

namespace RealtimeOps

open Interleaving PhaseMachine JobService JobProcessorService

/-! ## Shapes -/

/-- The columns that are set are those of the status. -/
def Shaped (job : JobColumns) : Prop :=
  match job.status with
  | .QUEUED => job.startedAt = none ∧ job.completedAt = none ∧ job.lastError = none
  | .PROCESSING =>
    job.startedAt.isSome ∧ job.completedAt = none ∧ job.lastError = none ∧ 1 ≤ job.attemptCount
  | .COMPLETED =>
    job.startedAt.isSome ∧ job.completedAt.isSome ∧ job.lastError = none ∧ 1 ≤ job.attemptCount
  | .FAILED =>
    job.startedAt.isSome ∧ job.completedAt.isSome ∧ job.lastError.isSome ∧ 1 ≤ job.attemptCount

/-- The columns `create` is given are the same. -/
structure SameRequest (c c' : JobColumns) : Prop where
  name : c'.name = c.name
  type : c'.type = c.type
  payload : c'.payload = c.payload
  priority : c'.priority = c.priority
  maxAttempts : c'.maxAttempts = c.maxAttempts

theorem SameRequest.refl (c : JobColumns) : SameRequest c c :=
  ⟨rfl, rfl, rfl, rfl, rfl⟩

theorem SameRequest.trans {c c' c'' : JobColumns} (h : SameRequest c c')
    (h' : SameRequest c' c'') : SameRequest c c'' :=
  ⟨h'.name.trans h.name, h'.type.trans h.type, h'.payload.trans h.payload,
    h'.priority.trans h.priority, h'.maxAttempts.trans h.maxAttempts⟩

theorem shaped_newJob (input : CreateJobInput) : Shaped (newJob input).stored :=
  ⟨rfl, rfl, rfl⟩

theorem shaped_requeued (job : JobEntity) : Shaped (requeued job).toJobColumns :=
  ⟨rfl, rfl, rfl⟩

theorem shaped_started (job : JobEntity) (startedAt : Date) :
    Shaped (started job startedAt).toJobColumns :=
  ⟨rfl, rfl, rfl, Nat.le_add_left 1 _⟩

/-- The entity of a started execution. -/
structure Underwent (job : JobEntity) : Prop where
  startedAt : job.startedAt.isSome
  attemptCount : 1 ≤ job.attemptCount

theorem shaped_completed {job : JobEntity} (h : Underwent job) (finishedAt : Date) :
    Shaped (completed job finishedAt).toJobColumns :=
  ⟨h.startedAt, rfl, rfl, h.attemptCount⟩

theorem shaped_failedJob {job : JobEntity} (h : Underwent job) (errorMessage : String)
    (finishedAt : Date) : Shaped (failedJob job errorMessage finishedAt).toJobColumns :=
  ⟨h.startedAt, rfl, rfl, h.attemptCount⟩

/-! ## Who inserts jobs -/

/-- The calls that insert no job. -/
def Op.insertsNoJob : Op → Bool
  | .insertJob _ => false
  | _ => true

/-- The program inserts no job. -/
abbrev InsertsNoJob {α : Type} (p : Promise α) : Prop :=
  p.Calls fun op : Op => op.insertsNoJob = true

theorem Op.insertsNoJob_of_routine {op : Op} (h : op.routine = true) :
    op.insertsNoJob = true := by
  cases op with
  | insertJob _ => cases h
  | _ => rfl

theorem Routine.insertsNoJob {α : Type} {p : Promise α} (hp : Routine p) : InsertsNoJob p :=
  hp.mono fun _ => Op.insertsNoJob_of_routine

/-- The entity is a copy of what `create` was given for a stored row. -/
def Copied (t : Table JobEntity.id) (job : JobEntity) : Prop :=
  ∃ row, t.lookup job.id = some row ∧ SameRequest row.toJobColumns job.toJobColumns

/-- What a phase knows of the entity it goes on to save. -/
def Held (t : Table JobEntity.id) : JobPhase → Prop
  | .requeueing job | .starting job => Copied t job
  | .started job | .running job _ | .finishing job _ => Copied t job ∧ Underwent job
  | _ => True

/-- Every row has its shape, and every phase knows the entity it goes on to save. -/
structure AllShaped (c : JobStore) (A : Multiset JobLocal) : Prop where
  rows : ∀ row ∈ c.jobs.rows, Shaped row.toJobColumns
  held : ∀ l ∈ A, Held c.jobs l.phase

/-- Every row stays and keeps what `create` was given. -/
def RequestsKept (t t' : Table JobEntity.id) : Prop :=
  ∀ jobId row, t.lookup jobId = some row → ∃ row', t'.lookup jobId = some row' ∧
    SameRequest row.toJobColumns row'.toJobColumns

/-- Every row of `c'` is a row of `c` with what `create` was given, or it is new and the move
`m` answers the insertion of a job with these columns. -/
def RequestsKnown (s : State) (m : Label) (c c' : JobStore) : Prop :=
  RequestsKept c.jobs c'.jobs ∧ ∀ jobId row', c'.jobs.lookup jobId = some row' →
    (∃ row, c.jobs.lookup jobId = some row ∧ SameRequest row.toJobColumns row'.toJobColumns) ∨
    c.jobs.lookup jobId = none ∧ ∃ i e columns, m = .step i e ∧
      s.awaited i = some (.insertJob columns) ∧ SameRequest columns.stored row'.toJobColumns

theorem RequestsKept.refl (t : Table JobEntity.id) : RequestsKept t t :=
  fun _ row h => ⟨row, h, .refl _⟩

theorem Copied.mono {t t' : Table JobEntity.id} {job : JobEntity} (h : Copied t job)
    (ht : RequestsKept t t') : Copied t' job := by
  obtain ⟨row, hrow, hsame⟩ := h
  obtain ⟨row', hrow', hsame'⟩ := ht _ row hrow
  exact ⟨row', hrow', ⟨hsame.name.trans hsame'.name.symm, hsame.type.trans hsame'.type.symm,
    hsame.payload.trans hsame'.payload.symm, hsame.priority.trans hsame'.priority.symm,
    hsame.maxAttempts.trans hsame'.maxAttempts.symm⟩⟩

theorem Held.mono {t t' : Table JobEntity.id} {q : JobPhase} (h : Held t q)
    (ht : RequestsKept t t') : Held t' q := by
  cases q with
  | requeueing job | starting job => exact Copied.mono h ht
  | started job | running job | finishing job => exact ⟨Copied.mono h.1 ht, h.2⟩
  | _ => trivial

theorem RequestsKnown.refl (s : State) (m : Label) {c c' : JobStore} (h : c'.jobs = c.jobs) :
    RequestsKnown s m c c' := by
  rw [RequestsKnown, h]
  exact ⟨.refl _, fun _ row hrow => .inl ⟨row, hrow, .refl _⟩⟩

/-- A call that leaves the rows alone. -/
theorem AllShaped.keep {c c' : JobStore} {l l' : JobLocal} {rest : Multiset JobLocal}
    (h : AllShaped c (l ::ₘ rest)) (hj : c'.jobs = c.jobs) (hq : Held c.jobs l'.phase) :
    AllShaped c' (l' ::ₘ rest) where
  rows := hj ▸ h.rows
  held := Multiset.forall_mem_cons.mpr ⟨hj ▸ hq, fun k hk =>
    hj ▸ h.held k (Multiset.mem_cons_of_mem hk)⟩

/-- A save of a shaped row with what `create` was given. -/
theorem AllShaped.save {s : State} {m : Label} {c : JobStore} {l l' : JobLocal}
    {rest : Multiset JobLocal} {job row : JobEntity} (h : AllShaped c (l ::ₘ rest))
    (hcopied : Copied c.jobs job) (hid : row.id = job.id)
    (hsame : SameRequest job.toJobColumns row.toJobColumns) (hshape : Shaped row.toJobColumns)
    (hq : Copied (c.jobs.save row) row → Held (c.jobs.save row) l'.phase) :
    RequestsKnown s m c { c with jobs := c.jobs.save row } ∧
      AllShaped { c with jobs := c.jobs.save row } (l' ::ₘ rest) := by
  obtain ⟨before, hbefore, hb⟩ := hcopied
  have hkept : RequestsKept c.jobs (c.jobs.save row) := by
    intro jobId r hr
    rw [Table.lookup_save]
    split_ifs with hj
    · subst hj
      cases hbefore.symm.trans (hid ▸ hr)
      exact ⟨row, rfl, hb.trans hsame⟩
    · exact ⟨r, hr, .refl _⟩
  refine ⟨⟨hkept, fun jobId row' hrow' => .inl ?_⟩, fun r hr => ?_,
    Multiset.forall_mem_cons.mpr ⟨?_, fun k hk => ?_⟩⟩
  · rw [Table.lookup_save] at hrow'
    split_ifs at hrow' with hj
    · cases hrow'
      exact ⟨before, by rw [← hj, hid]; exact hbefore, hb.trans hsame⟩
    · exact ⟨row', hrow', .refl _⟩
  · rcases Table.mem_save.mp hr with rfl | ⟨hr, -⟩
    · exact hshape
    · exact h.rows r hr
  · exact hq ⟨row, Table.lookup_save_self _ _, .refl _⟩
  · exact (h.held k (Multiset.mem_cons_of_mem hk)).mono hkept

/-- A call that goes through keeps the shapes and what `create` was given. -/
theorem AllShaped.effect {s : State} {m : Label} {i : ℕ} {e : Env} {op : Op} {reply : op.Reply}
    {c c' : JobStore} {q q' : JobPhase} {past : List (Entry infrastructure Failure Env)}
    {rest : Multiset JobLocal} (h : AllShaped c (⟨q, past⟩ ::ₘ rest))
    (he : Effect e op reply c q c' q') (hm : m = .step i e) (hop : s.awaited i = some op)
    (past' : List (Entry infrastructure Failure Env)) :
    RequestsKnown s m c c' ∧ AllShaped c' (⟨q', past'⟩ ::ₘ rest) := by
  have hl := h.held ⟨q, past⟩ (Multiset.mem_cons_self _ _)
  cases he with
  | neutral => exact ⟨.refl s m rfl, h.keep rfl hl⟩
  | enqueue | lockTaken | lock | readNone | escalate | unlock | reportNone | report | collect =>
    exact ⟨.refl s m rfl, h.keep rfl trivial⟩
  | attempt | settle => exact ⟨.refl s m rfl, h.keep rfl hl⟩
  | raise =>
    refine ⟨.refl s m rfl, h.keep rfl ?_⟩
    split_ifs <;> trivial
  | retryRead k =>
    refine ⟨.refl s m rfl, h.keep rfl ?_⟩
    obtain ⟨err, hr⟩ | ⟨job, hfound, -, -, hr⟩ := afterRetryRead_cases k (c.jobs.lookup k)
    · rw [hr]
      trivial
    · rw [hr]
      obtain ⟨-, rfl⟩ := Table.lookup_eq_some.mp hfound
      exact ⟨job, hfound, .refl _⟩
  | read hj =>
    obtain ⟨-, rfl⟩ := Table.lookup_eq_some.mp hj
    exact ⟨.refl s m rfl, h.keep rfl ⟨_, hj, .refl _⟩⟩
  | @create _ input row t hrow ht =>
    have hkept : RequestsKept c.jobs t := fun jobId r hr =>
      ⟨r, Table.lookup_of_insert ht hr, .refl _⟩
    refine ⟨⟨hkept, fun jobId row' hrow' => ?_⟩, fun r hr => ?_,
      Multiset.forall_mem_cons.mpr ⟨trivial, fun k hk => ?_⟩⟩
    · change t.lookup jobId = some row' at hrow'
      rw [Table.lookup_insert ht] at hrow'
      split_ifs at hrow' with hid
      · cases hrow'
        refine .inr ⟨?_, i, e, newJob input, hm, hop, by rw [hrow]; exact .refl _⟩
        exact hid ▸ Table.lookup_eq_none.mpr (Table.insert_eq_some ht).2
      · exact .inl ⟨row', hrow', .refl _⟩
    · rcases (Table.mem_insert ht).mp hr with hr | rfl
      · exact h.rows r hr
      · rw [hrow]
        exact shaped_newJob input
    · exact (h.held k (Multiset.mem_cons_of_mem hk)).mono hkept
  | @requeue _ job row hrow =>
    subst hrow
    exact h.save hl rfl ⟨rfl, rfl, rfl, rfl, rfl⟩ (shaped_requeued job) fun _ => trivial
  | @start _ job row startedAt hrow =>
    subst hrow
    exact h.save hl rfl ⟨rfl, rfl, rfl, rfl, rfl⟩ (shaped_started job startedAt)
      fun hcopied => ⟨hcopied, rfl, Nat.le_add_left 1 _⟩
  | @complete _ job row a finishedAt hv hrow =>
    subst hrow
    exact h.save hl.1 rfl ⟨rfl, rfl, rfl, rfl, rfl⟩ (shaped_completed hl.2 finishedAt)
      fun _ => trivial
  | @fail _ job row a finishedAt errorMessage hv hrow =>
    subst hrow
    exact h.save hl.1 rfl ⟨rfl, rfl, rfl, rfl, rfl⟩
      (shaped_failedJob hl.2 errorMessage finishedAt) fun _ => trivial

theorem Drops.held {q q' : JobPhase} (h : Drops q q') (t : Table JobEntity.id) : Held t q' := by
  cases h <;> trivial

theorem Call.held (call : Call) (t : Table JobEntity.id) : Held t call.phase := by
  cases call with
  | consume delivery =>
    simp only [Call.phase, consumerPhase]
    split <;> trivial
  | _ => trivial

theorem AllShaped.turn {s s' : State} {A A' : Multiset JobLocal} {m : Label}
    (h : AllShaped s.world.store A) (ht : Turn s A m s' A') :
    RequestsKnown s m s.world.store s'.world.store ∧ AllShaped s'.world.store A' := by
  refine ht.tables (R := RequestsKnown s m) h
    (fun hc => ⟨.refl s m hc.jobs, fun hB => ⟨hc.jobs ▸ hB.rows, hc.jobs ▸ hB.held⟩⟩)
    (fun call hB => ⟨hB.rows, Multiset.forall_mem_cons.mpr ⟨call.held _, hB.held⟩⟩)
    (fun hd hB _ => hB.keep rfl (hd.held _)) ?_
  rintro i e op reply c' l q' rest hm hop - rfl he past'
  exact h.effect he hm hop past'

theorem exists_allShaped {s : State}
    (h : Reachable step (fun _ _ => True) (State.init .empty) s) :
    ∃ A, Jobs s A ∧ AllShaped s.world.store A :=
  jobs_invariant (I := fun s A => AllShaped s.world.store A)
    ⟨fun _ hrow => absurd hrow List.not_mem_nil, by simp⟩
    (fun _ _ _ _ _ _ hI _ ht => (hI.turn ht).2) h

/-- The row was inserted on the way to `s`, by a `create` with this input. -/
def CreatedBy (s : State) (jobId : Uuid) (input : CreateJobInput) : Prop :=
  ∃ u u' i e, Reachable step (fun _ _ => True) (State.init .empty) u ∧
    u.threads[i]? = some (Call.create input).prog ∧ u.world.jobs.lookup jobId = none ∧
    step u (.step i e) = some u' ∧ (u'.world.jobs.lookup jobId).isSome ∧
    Reachable step (fun _ _ => True) u' s

theorem log_subset_of_step {s s' : State} {m : Label} (h : step s m = some s') :
    s.log ⊆ s'.log := by
  cases m with
  | start call =>
    cases h
    exact List.Subset.refl _
  | deliver n =>
    obtain ⟨_, -, rfl⟩ := Option.map_eq_some_iff.mp h
    exact List.Subset.refl _
  | step i e =>
    obtain ⟨op, k, -, -, -, hlog, -⟩ := Pool.advance_threads (step_step.mp h).2
    rw [hlog]
    exact List.subset_append_left _ _
  | redeliver tag | expire key now =>
    obtain ⟨_, -, rfl⟩ := Option.map_eq_some_iff.mp h
    exact List.Subset.refl _
  | stop i =>
    obtain ⟨-, rfl⟩ := step_stop.mp h
    exact List.Subset.refl _

/-- The `create` of a row is in the log. -/
theorem CreatedBy.logged {s : State} {jobId : Uuid} {input : CreateJobInput}
    (h : CreatedBy s jobId input) :
    ∃ i e reply, ⟨i, e, .insertJob (newJob input), reply⟩ ∈ s.log := by
  obtain ⟨u, u', i, e, -, hi, -, hstep, -, hlater⟩ := h
  obtain ⟨op, k, hop, -, -, hlog, -⟩ := Pool.advance_threads (step_step.mp hstep).2
  obtain ⟨k', hk', -⟩ := create_eq_call input
  have hprog : (Call.create input).prog = .call op k := Option.some.inj (hi.symm.trans hop)
  change (create input).bind _ = _ at hprog
  rw [hk'] at hprog
  cases hprog
  have hmem : ⟨i, e, .insertJob (newJob input), _⟩ ∈ u'.log :=
    hlog ▸ List.mem_append_right _ (List.mem_singleton_self _)
  exact ⟨i, e, _, hlater.invariant (fun _ _ _ ht _ hstep => log_subset_of_step hstep ht) hmem⟩

end RealtimeOps
