import RealtimeOps.JobMachine

/-!
# Turns

A move of the platform, seen from the job machine : which phases there are before and
after, and what became of the world. `turn_of_step` is the one place where `step` is
taken apart; every invariant of the job store is proved kept by each `Turn` and holds in
every run by `jobs_invariant`.

An answered call either has its effect or leaves the store alone, and its thread either
goes on or gives up (`JobMove.split`). An invariant that survives threads giving up
(`Drops`) is therefore kept by rejected calls once it is kept by every `Effect`.
-/

set_option autoImplicit false

namespace RealtimeOps

open Interleaving

/-- A phase and the answered calls of its thread. -/
abbrev JobLocal := jobMachine.Local

/-- The threads of `s` are in the phases `A` of the job machine. -/
abbrev Jobs (s : State) (A : Multiset JobLocal) : Prop :=
  jobMachine.Abstracts handle s A

/-! ## Giving up -/

/-- A thread gives up : it is over, or all it has left is to release the lock it holds. -/
inductive Drops : JobPhase → JobPhase → Prop where
  | idle (q : JobPhase) : Drops q .idle
  | closing {q : JobPhase} {jobId : Uuid} (h : q.holds = some jobId) : Drops q (.closing jobId)

theorem drops_abort (q : JobPhase) (op : Op) : Drops q (q.abort op) := by
  unfold JobPhase.abort
  split
  · exact .idle q
  · split
    · rename_i h
      exact .closing h
    · exact .idle q

/-- A call whose answer is lost after its effect leaves the thread to give up from the
phase the effect led to. -/
theorem Effect.drops_abort {e : Env} {op : Op} {reply : op.Reply} {c c' : JobStore}
    {q q' : JobPhase} (h : Effect e op reply c q c' q') : Drops q' (q.abort op) := by
  cases h with
  | neutral => exact RealtimeOps.drops_abort q op
  | raise =>
    split_ifs
    · exact .closing rfl
    · exact .closing rfl
  | start hrow =>
    subst hrow
    exact .closing rfl
  | fail _ hrow =>
    subst hrow
    exact .closing rfl
  | read h =>
    obtain ⟨-, rfl⟩ := Table.lookup_eq_some.mp h
    exact .closing rfl
  | readNone | attempt | settle | complete | escalate => exact .closing rfl
  | create | enqueue | retryRead | requeue | lockTaken | lock | unlock | reportNone | report
  | collect => exact .idle _

/-- An answered call has its effect or leaves the store alone; a resolved one has its
effect and its thread goes on, after a rejected one the thread gives up. -/
theorem JobMove.split {e : Env} {op : Op} {r : Except Failure op.Reply} {w w' : World}
    {q q' : JobPhase} (h : JobMove e op r w q w' q') :
    ∃ q₁, (q' = q₁ ∧ (∃ reply, r = .ok reply ∧ Effect e op reply w.store q w'.store q₁)) ∨
      (q' = q.abort op ∧ r = .error .rejected ∧ Drops q₁ q' ∧
        ((q₁ = q ∧ w'.store = w.store) ∨
          ∃ reply, Effect e op reply w.store q w'.store q₁)) := by
  cases h with
  | done h => exact ⟨q', .inl ⟨rfl, _, rfl, h⟩⟩
  | @lost reply _ _ _ q₁ h => exact ⟨q₁, .inr ⟨rfl, rfl, h.drops_abort, .inr ⟨reply, h⟩⟩⟩
  | refused h => exact ⟨q, .inr ⟨rfl, rfl, drops_abort q op, .inl ⟨rfl, h⟩⟩⟩

/-- A resolved call has its effect. -/
theorem JobMove.effect {e : Env} {op : Op} {r : Except Failure op.Reply} {w w' : World}
    {q q' : JobPhase} (h : JobMove e op r w q w' q') (hr : r.isOk = true) :
    ∃ reply, r = .ok reply ∧ Effect e op reply w.store q w'.store q' := by
  obtain ⟨q₁, ⟨rfl, reply, hreply, he⟩ | ⟨-, rfl, -⟩⟩ := h.split
  · exact ⟨reply, hreply, he⟩
  · cases hr

/-- A call the thread awaits is one its phase makes. -/
theorem exists_effect_of_awaited {α : Type} {Q : JobPhase → Except Failure α → Prop}
    {q : JobPhase} {op : Op} {k : Except Failure op.Reply → Promise α}
    (h : JobSim Q q (.call op k)) {e : Env} {w : World} {reply : op.Reply}
    (hok : (handle e op w).1 = .ok reply) : ∃ c q', Effect e op reply w.store q c q' := by
  obtain ⟨q', hm, -⟩ := h e w
  rw [hok] at hm
  obtain ⟨reply', hr, he⟩ := JobMove.effect hm rfl
  cases hr
  exact ⟨_, _, he⟩

/-! ## Turns -/

/-- The entry an answered call leaves in the log. -/
def entry (s : State) (i : ℕ) (e : Env) (op : Op) : Entry infrastructure Failure Env :=
  ⟨i, e, op, (handle e op s.world).1⟩

theorem past_step {s s' : State} {i : ℕ} {e : Env} {op : Op}
    (hlog : s'.log = s.log ++ [entry s i e op]) : s'.past i = s.past i ++ [entry s i e op] := by
  rw [Pool.past_append hlog]
  exact congrArg _ (if_pos rfl)

/-- A move of the platform with the phases before and after it. -/
inductive Turn (s : State) : Multiset JobLocal → Label → State → Multiset JobLocal → Prop where
  | start (A : Multiset JobLocal) (call : Call) :
    Turn s A (.start call) (s.spawn call.prog) (⟨call.phase, []⟩ ::ₘ A)
  | deliver (A : Multiset JobLocal) {n : ℕ} {m : Message} {w : World} {p : Promise Result}
    (hn : s.world.store.ready[n]? = some m) (hclock : w.clock = s.world.clock)
    (hw : w.store = { s.world.store with ready := s.world.store.ready.eraseIdx n }) :
    Turn s A (.deliver n) (({ s with world := w } : State).spawn p)
      (⟨consumerPhase m, []⟩ ::ₘ A)
  | step {s' : State} {i : ℕ} {e : Env} {op : Op} {l : JobLocal} {q : JobPhase}
    {rest : Multiset JobLocal} (hop : s.awaited i = some op) (hpast : l.past = s.past i)
    (hlog : s'.log = s.log ++ [entry s i e op]) (hnow : s.world.clock ≤ e.now)
    (hclock : s'.world.clock = e.now)
    (hm : JobMove e op (handle e op s.world).1 s.world l.phase s'.world q) :
    Turn s (l ::ₘ rest) (.step i e) s' (⟨q, l.past ++ [entry s i e op]⟩ ::ₘ rest)
  | redeliver (A : Multiset JobLocal) {tag : ℕ} {d : Delivery} {w : World}
    (hd : d ∈ s.world.unacked) (hclock : w.clock = s.world.clock)
    (hw : w.store = { s.world.store with ready := s.world.store.ready ++ [d.message] }) :
    Turn s A (.redeliver tag) { s with world := w } A
  | stop {i : ℕ} {l : JobLocal} {rest : Multiset JobLocal} (hpast : l.past = s.past i) :
    Turn s (l ::ₘ rest) (.stop i) (s.halt i .stopped) (⟨.idle, l.past⟩ ::ₘ rest)
  | expire (A : Multiset JobLocal) {key : String} {now : Date} {lock : RedisLock} {w : World}
    (hlock : s.world.store.locks.lookup key = some lock) (hexp : lock.expiresAt ≤ now)
    (hnow : s.world.clock ≤ now) (hclock : w.clock = now)
    (hw : w.store = { s.world.store with locks := s.world.store.locks.erase key }) :
    Turn s A (.expire key now) { s with world := w } A

/-- A call is answered at the chosen time. -/
theorem handle_clock (e : Env) (op : Op) (w : World) : (handle e op w).2.clock = e.now := by
  have hperform : ∀ {reply : op.Reply} {w₁ w' : World},
      perform e w₁ op = some (reply, w') → w'.clock = w₁.clock := by
    intro reply w₁ w' h
    cases op <;>
      simp only [perform, Option.ite_none_right_eq_some, Option.map_eq_some_iff, Prod.mk.injEq,
        Option.some.injEq] at h <;> grind
  unfold handle
  dsimp only
  split
  · rfl
  · rename_i h
    split
    · exact hperform h
    · cases e.outcome
      · exact hperform h
      · rfl
      · exact hperform h

/-- Every move of the platform is a turn of the machine. -/
theorem turn_of_step {s s' : State} {l : Label} {A : Multiset JobLocal} (hA : Jobs s A)
    (h : step s l = some s') : ∃ A', Turn s A l s' A' ∧ Jobs s' A' := by
  cases l with
  | start call =>
    cases h
    exact ⟨_, .start A call, hA.spawn (sim_call call)⟩
  | deliver n =>
    obtain ⟨m, hn, rfl⟩ := Option.map_eq_some_iff.mp h
    exact ⟨_, .deliver A hn rfl rfl, (hA.world _).spawn (sim_call (.consume ⟨s.world.nextTag, m⟩))⟩
  | step i e =>
    obtain ⟨hnow, h⟩ := step_step.mp h
    obtain ⟨op, l, q, rest, hop, rfl, hpast, hm, hA'⟩ := hA.advance h
    obtain ⟨op', k, hk, rfl⟩ := Pool.advance_eq_some h
    obtain rfl : op = op' := by
      have : s.awaited i = some op' := Pool.awaited_eq_some.mpr ⟨k, hk⟩
      exact Option.some.inj (hop.symm.trans this)
    exact ⟨_, .step hop hpast rfl hnow (handle_clock e op s.world) hm, hA'⟩
  | redeliver tag =>
    obtain ⟨w, hw, rfl⟩ := Option.map_eq_some_iff.mp h
    obtain ⟨d, hd, rfl⟩ := Option.map_eq_some_iff.mp hw
    exact ⟨_, .redeliver A (List.mem_of_find?_eq_some hd) rfl rfl, hA.world _⟩
  | stop i =>
    obtain ⟨hi, rfl⟩ := step_stop.mp h
    obtain ⟨op, hop⟩ := Option.isSome_iff_exists.mp hi
    obtain ⟨k, hk⟩ := Pool.awaited_eq_some.mp hop
    obtain ⟨l, rest, rfl, hpast, hA'⟩ := hA.halt
      (show jobMachine.Ends .idle (.error .stopped) from .inr ⟨_, rfl⟩)
      (List.getElem?_eq_some_iff.mp hk).1
    exact ⟨_, .stop hpast, hA'⟩
  | expire key now =>
    obtain ⟨w, hw, rfl⟩ := Option.map_eq_some_iff.mp h
    obtain ⟨lock, hlock, ⟨hexp, hnow⟩, rfl⟩ := expire_eq_some.mp hw
    exact ⟨_, .expire A hlock hexp hnow rfl rfl, hA.world _⟩

/-- What holds of a thread from its start, and is kept by its own answered calls and when it
is stopped, holds of every thread after a turn. -/
theorem Turn.forall {P : JobLocal → Prop} {s s' : State} {A A' : Multiset JobLocal} {m : Label}
    (ht : Turn s A m s' A') (hstart : ∀ call : Call, P ⟨call.phase, []⟩)
    (hstop : ∀ i l, m = .stop i → P l → P ⟨.idle, l.past⟩)
    (hmove : ∀ i e op l q, m = .step i e → s.awaited i = some op → P l →
      JobMove e op (handle e op s.world).1 s.world l.phase s'.world q →
      P ⟨q, l.past ++ [entry s i e op]⟩)
    (hA : ∀ l ∈ A, P l) : ∀ l ∈ A', P l := by
  cases ht with
  | start _ call => exact Multiset.forall_mem_cons.mpr ⟨hstart call, hA⟩
  | @deliver _ _ m => exact Multiset.forall_mem_cons.mpr ⟨hstart (.consume ⟨0, m⟩), hA⟩
  | step hop hpast hlog hnow hclock hm =>
    obtain ⟨hl, hrest⟩ := Multiset.forall_mem_cons.mp hA
    exact Multiset.forall_mem_cons.mpr ⟨hmove _ _ _ _ _ rfl hop hl hm, hrest⟩
  | redeliver => exact hA
  | stop =>
    obtain ⟨hl, hrest⟩ := Multiset.forall_mem_cons.mp hA
    exact Multiset.forall_mem_cons.mpr ⟨hstop _ _ rfl hl, hrest⟩
  | expire => exact hA

/-! ## What a retry has read -/

/-- The job an answered call has read. -/
def foundJob : Entry infrastructure Failure Env → Option JobEntity
  | ⟨_, _, .findJob _, .ok (some job)⟩ => some job
  | _ => none

/-- The jobs a thread has read. -/
def found (past : List (Entry infrastructure Failure Env)) : List JobEntity :=
  past.filterMap foundJob

@[simp]
theorem found_append (past past' : List (Entry infrastructure Failure Env)) :
    found (past ++ past') = found past ++ found past' :=
  List.filterMap_append

/-- If the call of thread `i` saves a job as queued, then the stored row agrees with the one that
the thread has read. -/
def SavesOver (agree : JobEntity → JobEntity → Prop) (s : State) (i : ℕ) (op : Op) : Prop :=
  ∀ job ∈ op.saves, job.status = .QUEUED → ∀ read ∈ found (s.past i),
    ∀ row ∈ s.world.jobs.lookup job.id, agree row read

instance (agree : JobEntity → JobEntity → Prop) [DecidableRel agree] (s : State) (i : ℕ)
    (op : Op) : Decidable (SavesOver agree s i op) :=
  inferInstanceAs (Decidable (∀ _ ∈ _, _))

/-- A retry that is to save has read its job, failed and with attempts left. -/
def RetryTrace (l : JobLocal) : Prop :=
  ∀ job, l.phase = .requeueing job →
    job ∈ found l.past ∧ job.status = .FAILED ∧ job.attemptCount < job.maxAttempts

theorem RetryTrace.move {s : State} {w' : World} {i : ℕ} {e : Env} {op : Op} {l : JobLocal}
    {q : JobPhase} (hl : RetryTrace l)
    (hm : JobMove e op (handle e op s.world).1 s.world l.phase w' q) :
    RetryTrace ⟨q, l.past ++ [entry s i e op]⟩ := by
  rintro job rfl
  obtain ⟨q₁, ⟨rfl, reply, hr, he⟩ | ⟨hq, -, hd, -⟩⟩ := hm.split
  · have hx : entry s i e op = ⟨i, e, op, .ok reply⟩ := by rw [entry, hr]
    rw [hx]
    generalize hq : l.phase = q at he
    generalize hq' : JobPhase.requeueing job = q' at he
    generalize s.world.store = c, w'.store = c' at he
    cases he with
    | neutral =>
      obtain ⟨hmem, hrest⟩ := hl job (hq.trans hq'.symm)
      exact ⟨by simp [hmem], hrest⟩
    | retryRead k =>
      obtain ⟨err, h⟩ | ⟨job', hj, hs, hlt, h⟩ := afterRetryRead_cases k (c.jobs.lookup k)
      · cases hq'.trans h
      · cases hq'.trans h
        exact ⟨by simp [found, foundJob, hj], hs, hlt⟩
    | raise => split_ifs at hq'
    | _ => cases hq'
  · cases hd

/-- Every retry has its trace. -/
theorem retryTrace_turn {s s' : State} {A A' : Multiset JobLocal} {m : Label}
    (ht : Turn s A m s' A') (h : ∀ l ∈ A, RetryTrace l) : ∀ l ∈ A', RetryTrace l := by
  refine ht.forall (fun call job hq => ?_) (fun _ _ _ _ => nofun)
    (fun _ _ _ _ _ _ _ hl hmove => hl.move hmove) h
  cases call with
  | consume delivery =>
    simp only [Call.phase, consumerPhase] at hq
    split at hq <;> cases hq
  | create | retry | getStatus | process => cases hq

/-- What a retry saves over agrees with what it holds. -/
theorem SavesOver.agree {agree : JobEntity → JobEntity → Prop} {s : State} {i : ℕ} {op : Op}
    {l : JobLocal} (h : SavesOver agree s i op) (hl : RetryTrace l) (hpast : l.past = s.past i)
    {job : JobEntity} (hq : l.phase = .requeueing job)
    (hop : op = .saveJob (JobService.requeued job)) :
    ∀ row ∈ s.world.jobs.lookup job.id, agree row job := by
  subst hop
  exact h _ rfl rfl job (hpast ▸ (hl job hq).1)

/-- The tables of `c'` are those of `c`. -/
structure SameTables (c c' : JobStore) : Prop where
  jobs : c'.jobs = c.jobs
  attempts : c'.attempts = c.attempts
  alerts : c'.alerts = c.alerts
  incidents : c'.incidents = c.incidents

/-- What every effect does to the store (`R`) and keeps of the store and the phases (`I`),
every turn does and keeps, if `I` is about the tables alone, takes new threads and survives
threads giving up. -/
theorem Turn.tables {R : JobStore → JobStore → Prop} {I : JobStore → Multiset JobLocal → Prop}
    {s s' : State} {A A' : Multiset JobLocal} {m : Label} (ht : Turn s A m s' A')
    (hI : I s.world.store A)
    (hsame : ∀ {c c' : JobStore}, SameTables c c' → R c c' ∧ ∀ {B}, I c B → I c' B)
    (hspawn : ∀ {c : JobStore} {B} (call : Call), I c B → I c (⟨call.phase, []⟩ ::ₘ B))
    (hdrop : ∀ {c : JobStore} {q q' : JobPhase} {past B}, Drops q q' → I c (⟨q, past⟩ ::ₘ B) →
      ∀ past', I c (⟨q', past'⟩ ::ₘ B))
    (heffect : ∀ {i e op} {reply : op.Reply} {c' : JobStore} {l q' rest}, m = .step i e →
      s.awaited i = some op → l.past = s.past i → A = l ::ₘ rest →
      Effect e op reply s.world.store l.phase c' q' →
      ∀ past', R s.world.store c' ∧ I c' (⟨q', past'⟩ ::ₘ rest)) :
    R s.world.store s'.world.store ∧ I s'.world.store A' := by
  have hrefl : R s.world.store s.world.store := (hsame ⟨rfl, rfl, rfl, rfl⟩).1
  cases ht with
  | start _ call => exact ⟨hrefl, hspawn call hI⟩
  | @deliver _ _ m w _ hn hclock hw =>
    have hw : SameTables s.world.store w.store := hw ▸ ⟨rfl, rfl, rfl, rfl⟩
    obtain ⟨hR, hB⟩ := hsame hw
    exact ⟨hR, hB (hspawn (.consume ⟨0, m⟩) hI)⟩
  | @step _ i e op l q rest hop hpast hlog hnow hclock hm =>
    obtain ⟨q₁, ⟨rfl, reply, hr, he⟩ | ⟨hq, hr, hd, ⟨rfl, hs⟩ | ⟨reply, he⟩⟩⟩ := hm.split
    · exact heffect rfl hop hpast rfl he _
    · rw [hs]
      exact ⟨hrefl, hdrop hd hI _⟩
    · obtain ⟨hR, hB⟩ := heffect rfl hop hpast rfl he []
      exact ⟨hR, hdrop hd hB _⟩
  | @redeliver _ _ _ w hd hclock hw =>
    have hw : SameTables s.world.store w.store := hw ▸ ⟨rfl, rfl, rfl, rfl⟩
    obtain ⟨hR, hB⟩ := hsame hw
    exact ⟨hR, hB hI⟩
  | stop hpast => exact ⟨hrefl, hdrop (.idle _) hI _⟩
  | @expire _ _ _ _ w hlock hexp hnow hclock hw =>
    have hw : SameTables s.world.store w.store := hw ▸ ⟨rfl, rfl, rfl, rfl⟩
    obtain ⟨hR, hB⟩ := hsame hw
    exact ⟨hR, hB hI⟩

/-- What holds of the first state and no phases, and is kept by every allowed turn, holds in
every state of every run. -/
theorem jobs_invariant {allow : State → Label → Prop} {I : State → Multiset JobLocal → Prop}
    {w : World} (h₀ : I (State.init w) 0)
    (hI : ∀ s A l s' A', Jobs s A → I s A → allow s l → Turn s A l s' A' → I s' A')
    {s : State} (h : Reachable step allow (State.init w) s) : ∃ A, Jobs s A ∧ I s A := by
  refine Reachable.invariant (I := fun s => ∃ A, Jobs s A ∧ I s A) ?_ ⟨0, .init w, h₀⟩ h
  rintro s l s' ⟨A, hA, hs⟩ hl hstep
  obtain ⟨A', ht, hA'⟩ := turn_of_step hA hstep
  exact ⟨A', hA', hI s A l s' A' hA hs hl ht⟩

end RealtimeOps
