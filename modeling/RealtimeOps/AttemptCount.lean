import RealtimeOps.JobLock

/-!
# The attempt counter

`process` adds one to `attemptCount` and gives the attempt that number. `retry` saves the
whole job as it read it, without the lock, so a slow retry can write back an older counter
(`not_attemptCount_mono`), and the next execution then computes a number that is taken.

As long as every retry finds the counter it read (`CountsFresh`), the stored counter never
decreases and no execution hits the unique constraint (`attemptCount_mono`). The invariant
is `Counted` : the counter bounds the numbers of the job's attempts, an execution holds the
stored counter, and before its attempt is written that number is free.
-/

set_option autoImplicit false

namespace RealtimeOps

open Interleaving PhaseMachine JobService JobProcessorService

/-- No key runs out under a running execution, and a retry saves over the counter it read. -/
def CountsFresh (s : State) (m : Label) : Prop :=
  KeysLast s m ∧ Answers s (fun i _ op =>
    SavesOver (fun row read => row.attemptCount = read.attemptCount) s i op) m

instance (s : State) : DecidablePred (CountsFresh s) := fun _ =>
  inferInstanceAs (Decidable (_ ∧ _))

/-- Every job row of `t` is in `t'`, with a counter at least as large. -/
def CounterGrows (t t' : Table JobEntity.id) : Prop :=
  ∀ jobId before, t.lookup jobId = some before →
    ∃ after, t'.lookup jobId = some after ∧ before.attemptCount ≤ after.attemptCount

/-- The stored counter of a job is `n`. -/
def CounterIs (t : Table JobEntity.id) (jobId : Uuid) (n : ℕ) : Prop :=
  ∃ row, t.lookup jobId = some row ∧ row.attemptCount = n

/-- The attempts of a job are numbered below `n`. -/
def NumbersBelow (c : JobStore) (jobId : Uuid) (n : ℕ) : Prop :=
  ∀ a ∈ c.attempts.rows, a.jobId = jobId → a.attemptNumber < n

/-- What a phase knows of the counter and the numbers. -/
def Numbered (c : JobStore) : JobPhase → Prop
  | .starting job | .finishing job _ => CounterIs c.jobs job.id job.attemptCount
  | .started job =>
    CounterIs c.jobs job.id job.attemptCount ∧ NumbersBelow c job.id job.attemptCount
  | .running job a =>
    CounterIs c.jobs job.id job.attemptCount ∧ a.jobId = job.id ∧
      a.attemptNumber = job.attemptCount
  | _ => True

/-- The numbers of a job's attempts are at most its counter. -/
def NumbersBounded (c : JobStore) : Prop :=
  ∀ a ∈ c.attempts.rows, ∃ row, c.jobs.lookup a.jobId = some row ∧
    a.attemptNumber ≤ row.attemptCount

/-- The counter bounds the numbers, and every phase knows what it needs. -/
structure Counted (c : JobStore) (A : Multiset JobLocal) : Prop where
  bound : NumbersBounded c
  numbered : ∀ l ∈ A, Numbered c l.phase

theorem CounterGrows.refl (t : Table JobEntity.id) : CounterGrows t t :=
  fun _ before h => ⟨before, h, Nat.le_refl _⟩

theorem CounterGrows.save {t : Table JobEntity.id} {row : JobEntity}
    (h : ∀ before, t.lookup row.id = some before → before.attemptCount ≤ row.attemptCount) :
    CounterGrows t (t.save row) := by
  intro jobId before hb
  rw [Table.lookup_save]
  split_ifs with hid
  · exact ⟨row, rfl, h before (hid ▸ hb)⟩
  · exact ⟨before, hb, Nat.le_refl _⟩

theorem CounterGrows.insert {t t' : Table JobEntity.id} {row : JobEntity}
    (ht : t.insert row = some t') : CounterGrows t t' := by
  intro jobId before hb
  exact ⟨before, Table.lookup_of_insert ht hb, Nat.le_refl _⟩

/-- A phase keeps what it knows when the counter of the job it holds is unchanged and no
attempt of it is added. -/
theorem Numbered.mono {c c' : JobStore} {q : JobPhase} (h : Numbered c q)
    (hcount : ∀ jobId n, q.holds = some jobId → CounterIs c.jobs jobId n →
      CounterIs c'.jobs jobId n)
    (hnum : ∀ jobId n, q.holds = some jobId → NumbersBelow c jobId n →
      NumbersBelow c' jobId n) : Numbered c' q := by
  cases q with
  | starting job | finishing job => exact hcount _ _ rfl h
  | started job => exact ⟨hcount _ _ rfl h.1, hnum _ _ rfl h.2⟩
  | running job a => exact ⟨hcount _ _ rfl h.1, h.2⟩
  | _ => trivial

/-- A call that leaves the rows and the attempts alone. -/
theorem Counted.keep {c c' : JobStore} {l l' : JobLocal} {rest : Multiset JobLocal}
    (h : Counted c (l ::ₘ rest)) (hj : c'.jobs = c.jobs) (ha : c'.attempts = c.attempts)
    (hq : Numbered c' l'.phase) : Counted c' (l' ::ₘ rest) where
  bound := by
    rw [NumbersBounded, hj, ha]
    exact h.bound
  numbered := by
    refine Multiset.forall_mem_cons.mpr ⟨hq, fun k hk => ?_⟩
    refine (h.numbered k (Multiset.mem_cons_of_mem hk)).mono (fun _ _ _ => ?_) fun _ _ _ => ?_
    · rw [hj]
      exact id
    · rw [NumbersBelow, NumbersBelow, ha]
      exact id

/-- A call that saves a row with a counter at least the stored one, and equal to it if
another execution holds the job. -/
theorem Counted.save {c : JobStore} {l l' : JobLocal} {rest : Multiset JobLocal}
    {row : JobEntity} (h : Counted c (l ::ₘ rest))
    (hle : ∀ before, c.jobs.lookup row.id = some before →
      before.attemptCount ≤ row.attemptCount)
    (heq : ∀ k ∈ rest, k.phase.holds = some row.id → ∀ before,
      c.jobs.lookup row.id = some before → before.attemptCount = row.attemptCount)
    (hq : Numbered { c with jobs := c.jobs.save row } l'.phase) :
    CounterGrows c.jobs (c.jobs.save row) ∧
      Counted { c with jobs := c.jobs.save row } (l' ::ₘ rest) := by
  have hgrows := CounterGrows.save hle
  refine ⟨hgrows, fun a ha => ?_, Multiset.forall_mem_cons.mpr ⟨hq, fun k hk => ?_⟩⟩
  · obtain ⟨before, hb, hn⟩ := h.bound a ha
    obtain ⟨after, hafter, hle⟩ := hgrows _ before hb
    exact ⟨after, hafter, hn.trans hle⟩
  · refine (h.numbered k (Multiset.mem_cons_of_mem hk)).mono
      (fun jobId n hj ⟨before, hb, hn⟩ => ?_) fun _ _ _ => id
    rw [CounterIs, Table.lookup_save]
    split_ifs with hid
    · subst hid
      exact ⟨row, rfl, (heq k hk hj before hb).symm.trans hn⟩
    · exact ⟨before, hb, hn⟩

/-- The holder of a job saves its row with a counter at least the stored one. -/
theorem Counted.saveHeld {c : JobStore} {l l' : JobLocal} {rest : Multiset JobLocal}
    {row : JobEntity} (h : Counted c (l ::ₘ rest)) (hG : Guarded c (l ::ₘ rest))
    (hheld : l.phase.holds = some row.id)
    (hle : ∀ before, c.jobs.lookup row.id = some before →
      before.attemptCount ≤ row.attemptCount)
    (hq : Numbered { c with jobs := c.jobs.save row } l'.phase) :
    CounterGrows c.jobs (c.jobs.save row) ∧
      Counted { c with jobs := c.jobs.save row } (l' ::ₘ rest) :=
  h.save hle (fun _ hk hj => absurd hj (hG.alone hheld hk)) hq

/-- It does so over a counter it knows. -/
theorem Counted.saveOver {c : JobStore} {l l' : JobLocal} {rest : Multiset JobLocal}
    {row : JobEntity} {n : ℕ} (h : Counted c (l ::ₘ rest)) (hG : Guarded c (l ::ₘ rest))
    (hheld : l.phase.holds = some row.id) (hcounter : CounterIs c.jobs row.id n)
    (hn : n ≤ row.attemptCount) (hq : Numbered { c with jobs := c.jobs.save row } l'.phase) :
    CounterGrows c.jobs (c.jobs.save row) ∧
      Counted { c with jobs := c.jobs.save row } (l' ::ₘ rest) := by
  obtain ⟨stored, hstored, rfl⟩ := hcounter
  refine h.saveHeld hG hheld (fun before hb => ?_) hq
  cases hstored.symm.trans hb
  exact hn

theorem CounterIs.save {t : Table JobEntity.id} {row : JobEntity} :
    CounterIs (t.save row) row.id row.attemptCount :=
  ⟨row, Table.lookup_save_self t row, rfl⟩

/-- A call that goes through lets the counters grow and the phases know what they need,
given what a retry saves over. -/
theorem counted_effect {e : Env} {op : Op} {reply : op.Reply} {c c' : JobStore}
    {q q' : JobPhase} {past : List (Entry infrastructure Failure Env)}
    {rest : Multiset JobLocal} (he : Effect e op reply c q c' q')
    (hG : Guarded c (⟨q, past⟩ ::ₘ rest)) (h : Counted c (⟨q, past⟩ ::ₘ rest))
    (hsave : ∀ job, q = .requeueing job → op = .saveJob (requeued job) →
      ∀ row ∈ c.jobs.lookup job.id, row.attemptCount = job.attemptCount)
    (past' : List (Entry infrastructure Failure Env)) :
    CounterGrows c.jobs c'.jobs ∧ Counted c' (⟨q', past'⟩ ::ₘ rest) := by
  obtain ⟨hl, hrest⟩ := Multiset.forall_mem_cons.mp h.numbered
  cases he with
  | neutral => exact ⟨.refl _, h.keep rfl rfl hl⟩
  | enqueue | lockTaken | lock | readNone | escalate | unlock | reportNone | report | collect =>
    exact ⟨.refl _, h.keep rfl rfl trivial⟩
  | retryRead k =>
    obtain ⟨err, hr⟩ | ⟨job, -, -, -, hr⟩ := afterRetryRead_cases k (c.jobs.lookup k) <;> rw [hr]
    · exact ⟨.refl _, h.keep rfl rfl trivial⟩
    · exact ⟨.refl _, h.keep rfl rfl trivial⟩
  | raise =>
    refine ⟨.refl _, h.keep rfl rfl ?_⟩
    split_ifs <;> trivial
  | read hj =>
    obtain ⟨-, rfl⟩ := Table.lookup_eq_some.mp hj
    exact ⟨.refl _, h.keep rfl rfl ⟨_, hj, rfl⟩⟩
  | create hrow ht =>
    have hgrows := CounterGrows.insert ht
    have hlookup : ∀ {jobId before}, c.jobs.lookup jobId = some before →
        Table.lookup _ jobId = some before := fun hb => Table.lookup_of_insert ht hb
    refine ⟨hgrows, fun a ha => ?_, Multiset.forall_mem_cons.mpr ⟨trivial, fun k hk => ?_⟩⟩
    · obtain ⟨before, hb, hn⟩ := h.bound a ha
      exact ⟨before, hlookup hb, hn⟩
    · exact (hrest k hk).mono (fun _ _ _ ⟨before, hb, hn⟩ => ⟨before, hlookup hb, hn⟩)
        fun _ _ _ => id
  | @requeue _ job row hrow =>
    have hid : row.id = job.id := by rw [hrow]; rfl
    have hn : row.attemptCount = job.attemptCount := by rw [hrow]; rfl
    have heq : ∀ before, c.jobs.lookup row.id = some before →
        before.attemptCount = row.attemptCount := fun before hb => by
      rw [hn]
      exact hsave _ rfl rfl before (hid ▸ hb)
    exact h.save (fun before hb => (heq before hb).le) (fun _ _ _ => heq) trivial
  | @start _ job row startedAt hrow =>
    have hid : row.id = job.id := by rw [hrow]; rfl
    have hn : row.attemptCount = job.attemptCount + 1 := by rw [hrow]; rfl
    obtain ⟨before, hb, hcount⟩ := hl
    refine h.saveHeld hG (by rw [hid]; rfl) (fun before' hb' => ?_) ⟨.save, fun a ha hj => ?_⟩
    · cases hb.symm.trans (hid ▸ hb')
      omega
    · obtain ⟨before', hb', hle⟩ := h.bound a ha
      rw [hj, hid] at hb'
      cases hb.symm.trans hb'
      omega
  | @attempt _ job startedAt row t hrow hfree ht =>
    have hid : row.jobId = job.id := by rw [hrow]; rfl
    have hn : row.attemptNumber = job.attemptCount := by rw [hrow]; rfl
    obtain ⟨hcount, hbelow⟩ := hl
    refine ⟨.refl _, fun a ha => ?_, Multiset.forall_mem_cons.mpr
      ⟨⟨hcount, hid, hn⟩, fun k hk => (hrest k hk).mono (fun _ _ _ => id) ?_⟩⟩
    · rcases (Table.mem_insert ht).mp ha with ha | rfl
      · exact h.bound a ha
      · obtain ⟨before, hb, hcount⟩ := hcount
        exact ⟨before, hid ▸ hb, by omega⟩
    · intro jobId n hj hbelow a ha hja
      rcases (Table.mem_insert ht).mp ha with ha | rfl
      · exact hbelow a ha hja
      · exact absurd (hj.trans (congrArg some (hja.symm.trans hid))) (hG.alone rfl hk)
  | @settle _ job a a' finishedAt ha' =>
    obtain ⟨⟨before, hb, hcount⟩, hid, hn⟩ := hl
    have hid' : a'.jobId = job.id := by rw [ha', settled]; split <;> exact hid
    have hn' : a'.attemptNumber = job.attemptCount := by rw [ha', settled]; split <;> exact hn
    refine ⟨.refl _, fun b hmem => ?_, Multiset.forall_mem_cons.mpr
      ⟨⟨before, hb, hcount⟩, fun k hk => (hrest k hk).mono (fun _ _ _ => id) ?_⟩⟩
    · rcases Table.mem_save.mp hmem with rfl | ⟨hmem, -⟩
      · exact ⟨before, hid' ▸ hb, by omega⟩
      · exact h.bound b hmem
    · intro jobId n hj hbelow b hmem hjb
      rcases Table.mem_save.mp hmem with rfl | ⟨hmem, -⟩
      · exact absurd (hj.trans (congrArg some (hjb.symm.trans hid'))) (hG.alone rfl hk)
      · exact hbelow b hmem hjb
  | @complete _ job row a finishedAt hv hrow =>
    have hid : row.id = job.id := by rw [hrow]; rfl
    have hn : row.attemptCount = job.attemptCount := by rw [hrow]; rfl
    exact h.saveOver hG (by rw [hid]; rfl) (hid.symm ▸ hl) hn.ge trivial
  | @fail _ job row a finishedAt errorMessage hv hrow =>
    have hid : row.id = job.id := by rw [hrow]; rfl
    have hn : row.attemptCount = job.attemptCount := by rw [hrow]; rfl
    exact h.saveOver hG (by rw [hid]; rfl) (hid.symm ▸ hl) hn.ge trivial

theorem Drops.numbered {q q' : JobPhase} (h : Drops q q') (c : JobStore) : Numbered c q' := by
  cases h <;> trivial

theorem Call.numbered (call : Call) (c : JobStore) : Numbered c call.phase := by
  cases call with
  | consume delivery =>
    simp only [Call.phase, consumerPhase]
    split <;> trivial
  | _ => trivial

/-- A retry whose save is answered holds the stored counter. -/
def RetryHolds (s : State) (A : Multiset JobLocal) (m : Label) : Prop :=
  ∀ l ∈ A, ∀ i e op job, m = .step i e → s.awaited i = some op → l.past = s.past i →
    l.phase = .requeueing job → op = .saveJob (requeued job) →
    ∀ row ∈ s.world.jobs.lookup job.id, row.attemptCount = job.attemptCount

theorem CountsFresh.retryHolds {s : State} {A : Multiset JobLocal} {m : Label}
    (h : CountsFresh s m) (hread : ∀ l ∈ A, RetryTrace l) : RetryHolds s A m := by
  rintro l hl i e op job rfl hop hpast hq hop'
  exact (h.2 op hop).agree (hread l hl) hpast hq hop'

theorem counted_turn {s s' : State} {A A' : Multiset JobLocal} {m : Label} (hL : Locked s A)
    (h : Counted s.world.store A) (hm : RetryHolds s A m) (ht : Turn s A m s' A') :
    CounterGrows s.world.store.jobs s'.world.store.jobs ∧ Counted s'.world.store A' := by
  refine ht.tables (R := fun c c' => CounterGrows c.jobs c'.jobs) h
    (fun hc => ⟨hc.jobs ▸ .refl _, fun hB => ?_⟩)
    (fun call hB => ⟨hB.bound, Multiset.forall_mem_cons.mpr ⟨call.numbered _, hB.numbered⟩⟩)
    (fun hd hB _ => hB.keep rfl rfl (hd.numbered _)) ?_
  · refine ⟨by rw [NumbersBounded, hc.jobs, hc.attempts]; exact hB.bound,
      fun l hl => (hB.numbered l hl).mono (fun _ _ _ => ?_) fun _ _ _ => ?_⟩
    · rw [hc.jobs]
      exact id
    · rw [NumbersBelow, NumbersBelow, hc.attempts]
      exact id
  · rintro i e op reply c' l q' rest rfl hop hpast rfl he past'
    exact counted_effect he hL.guarded h (fun job =>
      hm l (Multiset.mem_cons_self _ _) i e op job rfl hop hpast) past'

/-- Only a started job has an attempt inserted, with its own number. -/
theorem Effect.of_insertAttempt {e : Env} {columns : AttemptColumns}
    {reply : ProcessingAttemptEntity} {c c' : JobStore} {q q' : JobPhase}
    (h : Effect e (.insertAttempt columns) reply c q c' q') :
    ∃ job startedAt, q = .started job ∧
      columns = newAttempt job job.attemptCount startedAt := by
  cases h with
  | neutral _ _ _ hop => cases hop
  | attempt => exact ⟨_, _, rfl, rfl⟩

/-- A thread that awaits the insertion of an attempt has started a job. -/
theorem started_of_awaited {q : JobPhase} {columns : AttemptColumns}
    {k : Except Failure ProcessingAttemptEntity → Promise Result}
    (h : JobSim JobPhase.Ends q (.call (.insertAttempt columns) k)) :
    ∃ job startedAt, q = .started job ∧
      columns = newAttempt job job.attemptCount startedAt := by
  -- In a world with the job and no attempts the insertion goes through.
  let job : JobEntity :=
    { newJob ⟨"", "", [], 0, 0, ""⟩ with id := columns.jobId, createdAt := 0, updatedAt := 0 }
  let w : World := { World.empty with jobs := ⟨[job], by simp⟩ }
  have hok : (handle ⟨0, 0, .resolves⟩ (Op.insertAttempt columns) w).1 =
      .ok ({ columns with id := 0, createdAt := 0 } : ProcessingAttemptEntity) := by
    simp [handle, perform, w, job, World.empty, Table.lookup, Table.insert, Op.local]
  obtain ⟨c, q', he⟩ := exists_effect_of_awaited h hok
  exact he.of_insertAttempt

/-- Two retries of a job that has failed once overlap, and a worker runs between the read
and the save of the first. -/
def staleRetry : List Label :=
  .start (.create ⟨"ingest", "batch", [("shouldFail", .bool true)], 1, 5, "alice"⟩) ::
    calls 0 7 1 ++ [.deliver 0] ++ calls 1 20 10 ++
    [.start (.retry 1 "alice"), .start (.retry 1 "bob")] ++ calls 2 1 40 ++ calls 3 8 50 ++
    [.deliver 0] ++ calls 4 20 60

/-- The save of the stale retry takes the counter back from 2 to 1. -/
theorem not_attemptCount_mono : ¬∀ s : State,
    Reachable step (fun _ m => Unfailing m) (State.init .empty) s →
    (∀ m s', Unfailing m → step s m = some s' → CounterGrows s.world.jobs s'.world.jobs) ∧
    ∀ i columns, s.awaited i = some (.insertAttempt columns) → ∀ a ∈ s.world.attempts.rows,
      a.jobId = columns.jobId → a.attemptNumber ≠ columns.attemptNumber := by
  intro hall
  obtain ⟨s, hs, htwo, hstep⟩ :
      ∃ s, Reachable step (fun _ m => Unfailing m) (State.init .empty) s ∧
        (s.world.jobs.lookup 1).map (·.attemptCount) = some 2 ∧
        ((step s (.step 2 ⟨100, 100, .resolves⟩)).any fun s' =>
          (s'.world.jobs.lookup 1).map (·.attemptCount) = some 1) :=
    exists_reachable_of_execute _ staleRetry _ (by decide)
  obtain ⟨s', hs', hone⟩ := (Option.any_eq_true _ _).mp hstep
  obtain ⟨before, hb, hn⟩ := Option.map_eq_some_iff.mp htwo
  obtain ⟨after, ha, hle⟩ :=
    (hall s hs).1 (.step 2 ⟨100, 100, .resolves⟩) s' rfl hs' 1 before hb
  have hn' : after.attemptCount = 1 := by simpa [ha] using hone
  omega

/-- As long as every retry finds the counter it read, no step lowers a stored counter, and
no execution awaits the insertion of an attempt whose number is taken. -/
theorem attemptCount_mono {w : World} (hw : NumbersBounded w.store) {s : State}
    (h : Reachable step CountsFresh (State.init w) s) :
    (∀ m s', CountsFresh s m → step s m = some s' → CounterGrows s.world.jobs s'.world.jobs) ∧
    ∀ i columns, s.awaited i = some (.insertAttempt columns) → ∀ a ∈ s.world.attempts.rows,
      a.jobId = columns.jobId → a.attemptNumber ≠ columns.attemptNumber := by
  obtain ⟨A, hA, hL, hC, hread⟩ := jobs_invariant (w := w)
    (I := fun s A => Locked s A ∧ Counted s.world.store A ∧ ∀ l ∈ A, RetryTrace l)
    ⟨⟨fun _ => Nat.zero_le _, by simp⟩, ⟨hw, by simp⟩, by simp⟩
    (fun s A m s' A' hA ⟨hL, hC, hread⟩ hm ht => ⟨hL.turn hA hm.1 ht,
      (counted_turn hL hC (hm.retryHolds hread) ht).2, retryTrace_turn ht hread⟩) h
  refine ⟨fun m s' hm hs => ?_, fun i columns hi a ha hj hn => ?_⟩
  · obtain ⟨A', ht, -⟩ := turn_of_step hA hs
    exact (counted_turn hL hC (hm.retryHolds hread) ht).1
  · obtain ⟨k, hk⟩ := Pool.awaited_eq_some.mp hi
    obtain ⟨l, hl, -, hsim⟩ := hA.exists_local hk
    obtain ⟨job, startedAt, hq, rfl⟩ := started_of_awaited hsim
    have hnum := hC.numbered l hl
    rw [hq] at hnum
    exact absurd hn (hnum.2 a ha hj).ne

/-- A second execution after a retry is about to insert attempt 2. -/
theorem attemptCount_mono_second : ∃ (s : State) (columns : AttemptColumns),
    s.awaited 3 = some (.insertAttempt columns) ∧ columns.attemptNumber = 2 ∧
      s.world.attempts.rows ≠ [] ∧ ∀ a ∈ s.world.attempts.rows,
        a.jobId = columns.jobId → a.attemptNumber ≠ columns.attemptNumber := by
  obtain ⟨s, hs, hawaited, hrows⟩ :
      ∃ s, Reachable step CountsFresh (State.init .empty) s ∧
        s.awaited 3 = some (.insertAttempt
          { jobId := 1
            attemptNumber := 2
            status := .STARTED
            errorMessage := none
            durationMs := none
            startedAt := 62
            finishedAt := none }) ∧ s.world.attempts.rows ≠ [] :=
    exists_reachable_of_execute _
      (.start (.create ⟨"ingest", "batch", [("shouldFail", .bool true)], 1, 5, "alice"⟩) ::
        calls 0 7 1 ++ [.deliver 0] ++ calls 1 20 10 ++ [.start (.retry 1 "alice")] ++
        calls 2 8 40 ++ [.deliver 0] ++ calls 3 6 60) _ (by decide)
  exact ⟨s, _, hawaited, rfl, hrows,
    (attemptCount_mono (fun _ ha => absurd ha List.not_mem_nil) hs).2 3 _ hawaited⟩

end RealtimeOps
