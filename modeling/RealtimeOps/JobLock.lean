import RealtimeOps.Turns

/-!
# The job lock

Each execution takes the key of its job with `SET NX` and drops it with `DEL`. `Guarded` :
for every job at most as many phases hold the lock as there are keys, so at most one. It
survives rejected calls, crashes and redeliveries, and breaks only when a key runs out
while its holder is still running (`Guarded.turn`).

Which keys a thread has set and deleted is read off its answered calls (`acquired`,
`released`, `Between`); `LockTrace` ties that to its phase.
-/

set_option autoImplicit false

namespace RealtimeOps

open Interleaving PhaseMachine

/-! ## Keys set and deleted by a thread -/

/-- The key an answered call has set for its thread. -/
def acquires : Entry infrastructure Failure Env → Option String
  | ⟨_, _, .setNX key _, .ok true⟩ => some key
  | _ => none

/-- The key an answered call has deleted. -/
def releases (x : Entry infrastructure Failure Env) : Option String :=
  x.op.deletes

/-- The keys set by successful `acquireLock` calls, in order. -/
def acquired (past : List (Entry infrastructure Failure Env)) : List String :=
  past.filterMap acquires

/-- The keys deleted by `releaseLock` calls, in order. -/
def released (past : List (Entry infrastructure Failure Env)) : List String :=
  past.filterMap releases

/-- Thread `i` is between a successful `acquireLock` and its `releaseLock`. -/
def Between (s : State) (i : ℕ) (key : String) : Prop :=
  key ∈ acquired (s.past i) ∧ key ∉ released (s.past i)

instance (s : State) (i : ℕ) (key : String) : Decidable (Between s i key) :=
  inferInstanceAs (Decidable (_ ∧ _))

theorem acquires_eq_none {x : Entry infrastructure Failure Env} (h : x.op.redis = false) :
    acquires x = none := by
  unfold acquires
  split
  · cases h
  · rfl

theorem releases_eq_none {x : Entry infrastructure Failure Env} (h : x.op.redis = false) :
    releases x = none := by
  unfold releases Op.deletes
  split
  · rename_i hop
    rw [hop] at h
    cases h
  · rfl

theorem holds_afterRetryRead (jobId : Uuid) (found : Option JobEntity) :
    (afterRetryRead jobId found).holds = none := by
  obtain ⟨err, h⟩ | ⟨job, -, -, -, h⟩ := afterRetryRead_cases jobId found <;> rw [h] <;> rfl

/-- What a resolved call does to the keys : it sets the key of the job its thread goes on to
hold, it drops the one its thread held, or it touches none. -/
inductive KeyChange (e : Env) (op : Op) (reply : op.Reply) (c : JobStore) (q : JobPhase)
    (c' : JobStore) (q' : JobPhase) : Prop where
  | set (jobId : Uuid) (hq : q = .locking jobId) (hq' : q' = .reading jobId)
    (ha : ∀ i, acquires ⟨i, e, op, .ok reply⟩ = some (lockKey jobId))
    (hr : ∀ i, releases ⟨i, e, op, .ok reply⟩ = none)
    (hc : c.locks.insert ⟨lockKey jobId, e.now + 1000 * 60⟩ = some c'.locks)
  | dropped (jobId : Uuid) (hq : q = .closing jobId) (hq' : q' = .idle)
    (ha : ∀ i, acquires ⟨i, e, op, .ok reply⟩ = none)
    (hr : ∀ i, releases ⟨i, e, op, .ok reply⟩ = some (lockKey jobId))
    (hc : c'.locks = c.locks.erase (lockKey jobId))
  | kept (ha : ∀ i, acquires ⟨i, e, op, .ok reply⟩ = none)
    (hr : ∀ i, releases ⟨i, e, op, .ok reply⟩ = none) (hh : q'.holds = q.holds)
    (hlocking : ∀ jobId, q' = .locking jobId → q = .locking jobId) (hc : c'.locks = c.locks)

theorem Effect.keyChange {e : Env} {op : Op} {reply : op.Reply} {c c' : JobStore}
    {q q' : JobPhase} (h : Effect e op reply c q c' q') : KeyChange e op reply c q c' q' := by
  cases h with
  | neutral _ _ _ hop =>
    have hredis : op.redis = false := by
      cases op <;> first | rfl | cases hop
    exact .kept (fun _ => acquires_eq_none hredis) (fun _ => releases_eq_none hredis) rfl
      (fun _ h => h) rfl
  | create | enqueue | requeue | attempt | settle | escalate | reportNone | report | collect
  | readNone | lockTaken | complete =>
    exact .kept (fun _ => rfl) (fun _ => rfl) rfl (fun _ h => by cases h) rfl
  | start hrow | fail _ hrow =>
    subst hrow
    exact .kept (fun _ => rfl) (fun _ => rfl) rfl (fun _ h => by cases h) rfl
  | retryRead k =>
    refine .kept (fun _ => rfl) (fun _ => rfl) (holds_afterRetryRead k _) (fun _ h => ?_) rfl
    obtain ⟨err, h'⟩ | ⟨job, -, -, -, h'⟩ := afterRetryRead_cases k _
    · cases h'.symm.trans h
    · cases h'.symm.trans h
  | read h =>
    obtain ⟨-, rfl⟩ := Table.lookup_eq_some.mp h
    exact .kept (fun _ => rfl) (fun _ => rfl) rfl (fun _ h => by cases h) rfl
  | raise =>
    refine .kept (fun _ => rfl) (fun _ => rfl) ?_ (fun _ h => ?_) rfl
    · split_ifs <;> rfl
    · split_ifs at h
  | @lock _ k _ ht => exact .set k rfl rfl (fun _ => rfl) (fun _ => rfl) ht
  | unlock k => exact .dropped k rfl rfl (fun _ => rfl) (fun _ => rfl) rfl

/-! ## Holders -/

/-- 1 if the key of the job exists. -/
def JobStore.locked (c : JobStore) (jobId : Uuid) : ℕ :=
  if (c.locks.lookup (lockKey jobId)).isSome then 1 else 0

/-- 1 if the phase holds the lock of the job. -/
def JobPhase.holding (jobId : Uuid) (q : JobPhase) : ℕ :=
  if q.holds = some jobId then 1 else 0

theorem JobPhase.holding_ne_zero {jobId : Uuid} {q : JobPhase} :
    q.holding jobId ≠ 0 ↔ q.holds = some jobId := by
  simp [holding]

/-- No job has more holders than keys. -/
def Guarded (c : JobStore) (A : Multiset JobLocal) : Prop :=
  ∀ jobId, tally (JobPhase.holding jobId) A ≤ c.locked jobId

theorem JobStore.locked_le_one (c : JobStore) (jobId : Uuid) : c.locked jobId ≤ 1 := by
  unfold locked
  split_ifs <;> omega

theorem JobStore.locked_congr {c c' : JobStore} (h : c.locks = c'.locks) (jobId : Uuid) :
    c.locked jobId = c'.locked jobId := by
  rw [locked, locked, h]

/-- A key comes and goes together with its holder. -/
theorem KeyChange.balance {e : Env} {op : Op} {reply : op.Reply} {c c' : JobStore}
    {q q' : JobPhase} (h : KeyChange e op reply c q c' q') (jobId : Uuid)
    (hq : q.holding jobId ≤ c.locked jobId) :
    q'.holding jobId + c.locked jobId = q.holding jobId + c'.locked jobId := by
  cases h with
  | set k hk hk' _ _ hc =>
    subst hk hk'
    have hfree : c.locked k = 0 := by
      simp [JobStore.locked, Table.lookup_eq_none.mpr (Table.insert_eq_some hc).2]
    by_cases hj : k = jobId
    · subst hj
      rw [hfree]
      simp [JobPhase.holding, JobPhase.holds, JobStore.locked, Table.lookup_insert hc]
    · simp [JobPhase.holding, JobPhase.holds, hj, JobStore.locked, Table.lookup_insert hc,
        lockKey_injective.eq_iff]
  | dropped k hk hk' _ _ hc =>
    subst hk hk'
    by_cases hj : k = jobId
    · subst hj
      have hheld : (JobPhase.closing k).holding k = 1 := if_pos rfl
      have hset : c.locked k = 1 := by
        have := c.locked_le_one k
        omega
      have hfree : c'.locked k = 0 := by simp [JobStore.locked, hc, Table.lookup_erase]
      rw [hheld, hset, hfree]
      rfl
    · simp [JobPhase.holding, JobPhase.holds, hj, JobStore.locked, hc, Table.lookup_erase,
        lockKey_injective.eq_iff]
  | kept _ _ hh _ hc =>
    rw [JobPhase.holding, hh, ← JobPhase.holding, JobStore.locked_congr hc]

/-- A thread that gives up holds no lock it did not hold before. -/
theorem Drops.holding_le {q q' : JobPhase} (h : Drops q q') (jobId : Uuid) :
    q'.holding jobId ≤ q.holding jobId := by
  cases h with
  | idle => exact Nat.zero_le _
  | closing h =>
    rw [JobPhase.holding, JobPhase.holding, h]
    rfl

/-- No call starts with a lock. -/
theorem Call.holds_phase (call : Call) : call.phase.holds = none := by
  cases call with
  | consume delivery =>
    simp only [Call.phase, consumerPhase]
    split <;> rfl
  | _ => rfl

/-- The lock excludes : unless a held key runs out, no turn makes a second holder. -/
theorem Guarded.turn {s s' : State} {A A' : Multiset JobLocal} {m : Label}
    (hG : Guarded s.world.store A) (ht : Turn s A m s' A')
    (hexp : ∀ key now, m = .expire key now →
      ∀ l ∈ A, ∀ jobId, l.phase.holds = some jobId → key ≠ lockKey jobId) :
    Guarded s'.world.store A' := by
  have hspawn : ∀ (call : Call) (c : JobStore), c.locks = s.world.store.locks →
      Guarded c (⟨call.phase, []⟩ ::ₘ A) := fun call c hc jobId => by
    simpa [JobPhase.holding, call.holds_phase, JobStore.locked, hc] using hG jobId
  cases ht with
  | start _ call => exact hspawn call _ rfl
  | @deliver _ _ m _ _ hn hclock hw => exact hspawn (.consume ⟨0, m⟩) _ (by simp [Pool.spawn, hw])
  | step hop hpast hlog hnow hclock hm =>
    intro jobId
    have h := hG jobId
    obtain ⟨q₁, ⟨rfl, reply, hr, he⟩ | ⟨hq, hr, hd, ⟨rfl, hs⟩ | ⟨reply, he⟩⟩⟩ := hm.split
    · have := he.keyChange.balance jobId
      simp only [tally_cons] at h ⊢
      omega
    · have := hd.holding_le jobId
      rw [hs]
      simp only [tally_cons] at h ⊢
      omega
    · have hb := he.keyChange.balance jobId
      have := hd.holding_le jobId
      simp only [tally_cons] at h ⊢
      omega
  | redeliver _ hd hclock hw =>
    intro jobId
    simpa [JobStore.locked, hw] using hG jobId
  | stop hpast =>
    intro jobId
    have h := hG jobId
    have hidle : JobPhase.idle.holding jobId = 0 := rfl
    simp only [tally_cons, hidle] at h ⊢
    exact (Nat.add_le_add_right (Nat.zero_le _) _).trans h
  | @expire _ key now lock w hlock hexpired hnow hclock hw =>
    intro jobId
    have h := hG jobId
    by_cases hk : key = lockKey jobId
    · have hzero : tally (JobPhase.holding jobId) A = 0 := by
        by_contra hne
        obtain ⟨l, hl, hj⟩ := exists_of_tally_ne_zero hne
        exact hexp key now rfl l hl jobId (JobPhase.holding_ne_zero.mp hj) hk
      omega
    · simpa [JobStore.locked, hw, Table.lookup_erase, hk] using h

/-! ## Traces -/

theorem Op.deletes_eq_some {op : Op} {key : String} :
    op.deletes = some key ↔ op = .del key := by
  cases op <;> simp [deletes]

/-- The phase tells the keys of the thread, as long as it can still need them. -/
structure LockTrace (l : JobLocal) : Prop where
  /-- A holder has set its key and deleted nothing. -/
  holder : ∀ jobId, l.phase.holds = some jobId →
    acquired l.past = [lockKey jobId] ∧ released l.past = []
  /-- An execution that has not tried the lock has touched no key. -/
  fresh : ∀ jobId, l.phase = .locking jobId → acquired l.past = [] ∧ released l.past = []

theorem LockTrace.idle (past : List (Entry infrastructure Failure Env)) :
    LockTrace ⟨.idle, past⟩ :=
  ⟨nofun, nofun⟩

/-- A thread that holds no lock has deleted the key it set, if it set one. -/
def Settled (l : JobLocal) : Prop :=
  l.phase.holds = none → acquired l.past = released l.past ∧ (acquired l.past).length ≤ 1

@[simp] theorem acquired_append (past : List (Entry infrastructure Failure Env))
    (x : Entry infrastructure Failure Env) :
    acquired (past ++ [x]) = acquired past ++ (acquires x).toList := by
  cases h : acquires x <;> simp [acquired, h]

@[simp] theorem released_append (past : List (Entry infrastructure Failure Env))
    (x : Entry infrastructure Failure Env) :
    released (past ++ [x]) = released past ++ (releases x).toList := by
  cases h : releases x <;> simp [released, h]

theorem LockTrace.move {s : State} {w' : World} {i : ℕ} {e : Env} {op : Op} {l : JobLocal}
    {q : JobPhase} (hl : LockTrace l)
    (hm : JobMove e op (handle e op s.world).1 s.world l.phase w' q) :
    LockTrace ⟨q, l.past ++ [entry s i e op]⟩ := by
  obtain ⟨q₁, ⟨rfl, reply, hr, he⟩ | ⟨rfl, hr, -⟩⟩ := hm.split
  · have hx : entry s i e op = ⟨i, e, op, .ok reply⟩ := by rw [entry, hr]
    rw [hx]
    cases he.keyChange with
    | set jobId hq hq' ha hd =>
      subst hq'
      obtain ⟨hnone, hnone'⟩ := hl.fresh jobId hq
      refine ⟨fun k hk => ?_, fun k hk => by cases hk⟩
      cases hk
      simp [ha, hd, hnone, hnone']
    | dropped jobId hq hq' =>
      subst hq'
      exact .idle _
    | kept ha hd hh hlock =>
      refine ⟨fun k hk => ?_, fun k hk => ?_⟩
      · simpa [ha, hd] using hl.holder k (hh ▸ hk)
      · simpa [ha, hd] using hl.fresh k (hlock k hk)
  · have hx : entry s i e op = ⟨i, e, op, .error .rejected⟩ := by rw [entry, hr]
    rw [hx]
    -- A rejected `del` ends the thread; any other rejected call touches no key.
    unfold JobPhase.abort
    split
    · exact .idle _
    · rename_i hdel
      split
      · rename_i jobId hj
        refine ⟨fun k hk => ?_, fun k hk => by cases hk⟩
        cases hk
        have ha : acquires ⟨i, e, op, .error .rejected⟩ = none := by
          unfold acquires
          grind
        have hd : releases ⟨i, e, op, .error .rejected⟩ = none := by
          unfold releases Op.deletes
          grind
        simpa [ha, hd] using hl.holder jobId hj
      · exact .idle _

/-! ## Runs in which no held key runs out -/

/-- No key runs out while an execution that is still running holds it. -/
def KeysLast (s : State) : Label → Prop
  | .expire key _ => ∀ i < s.threads.length, s.outcome i = none → ¬Between s i key
  | _ => True

instance (s : State) : DecidablePred (KeysLast s)
  | .expire _ _ => inferInstanceAs (Decidable (∀ i < _, _))
  | .step _ _ | .start _ | .deliver _ | .redeliver _ | .stop _ => .isTrue trivial

/-- At most one holder a job, each with its trace. -/
structure Locked (s : State) (A : Multiset JobLocal) : Prop where
  guarded : Guarded s.world.store A
  trace : ∀ l ∈ A, LockTrace l

theorem JobPhase.Ends.holds_eq_none {q : JobPhase} {r : Except Failure Result} (h : q.Ends r) :
    q.holds = none := by
  cases q <;> first | rfl | exact h.elim

/-- A thread in a phase that holds a lock is still running. -/
theorem outcome_eq_none {s : State} {i : ℕ} {p : Promise Result} {q : JobPhase}
    (hi : s.threads[i]? = some p) (hsim : JobSim JobPhase.Ends q p) (hq : q.holds ≠ none) :
    s.outcome i = none := by
  unfold Pool.outcome
  rw [hi]
  cases p with
  | ret a => exact absurd (JobPhase.Ends.holds_eq_none hsim) hq
  | throw err => exact absurd (JobPhase.Ends.holds_eq_none hsim) hq
  | call op k => rfl

theorem LockTrace.between {s : State} {i : ℕ} {l : JobLocal} {jobId : Uuid} (h : LockTrace l)
    (hpast : l.past = s.past i) (hq : l.phase.holds = some jobId) :
    Between s i (lockKey jobId) := by
  obtain ⟨hacq, hrel⟩ := h.holder jobId hq
  rw [Between, ← hpast, hacq, hrel]
  simp

/-- A holder is the only one of its job. -/
theorem Guarded.alone {c : JobStore} {l l' : JobLocal} {rest : Multiset JobLocal} {jobId : Uuid}
    (hG : Guarded c (l ::ₘ rest)) (hq : l.phase.holds = some jobId) (hl' : l' ∈ rest) :
    l'.phase.holds ≠ some jobId := by
  intro hq'
  have hsum := hG jobId
  have hone := c.locked_le_one jobId
  have hle := le_tally (JobPhase.holding jobId) hl'
  have h1 : l.phase.holding jobId = 1 := if_pos hq
  have h2 : l'.phase.holding jobId = 1 := if_pos hq'
  simp only [tally_cons] at hsum
  omega

theorem LockTrace.spawn (call : Call) : LockTrace ⟨call.phase, []⟩ :=
  ⟨fun jobId h => absurd h (by simp [call.holds_phase]), fun _ _ => ⟨rfl, rfl⟩⟩

theorem lockTrace_turn {s s' : State} {A A' : Multiset JobLocal} {m : Label}
    (ht : Turn s A m s' A') (h : ∀ l ∈ A, LockTrace l) : ∀ l ∈ A', LockTrace l :=
  ht.forall .spawn (fun _ _ _ _ => .idle _) (fun _ _ _ _ _ _ _ hl hmove => hl.move hmove) h

theorem Locked.turn {s s' : State} {A A' : Multiset JobLocal} {m : Label} (hA : Jobs s A)
    (h : Locked s A) (hm : KeysLast s m) (ht : Turn s A m s' A') : Locked s' A' := by
  refine ⟨h.guarded.turn ht ?_, lockTrace_turn ht h.trace⟩
  rintro key now rfl l hl jobId hq rfl
  obtain ⟨i, p, hi, hpast, hsim⟩ := hA.exists_thread hl
  refine hm i (List.getElem?_eq_some_iff.mp hi).1 (outcome_eq_none hi hsim ?_)
    ((h.trace l hl).between hpast hq)
  simp [hq]

/-! ## Mutual exclusion -/

/-- The moves of a run in which Redis answers, no process dies, and no key runs out while
its holder is running. -/
def RedisAnswers (s : State) (m : Label) : Prop :=
  Answers s (fun _ e op => op.redis = true → (handle e op s.world).1.isOk = true) m ∧
    match m with
    | .stop _ => False
    | .expire key _ => ∀ i < s.threads.length, ¬Between s i key
    | _ => True

instance (s : State) : DecidablePred (RedisAnswers s)
  | .stop _ => .isFalse fun h => h.2
  | .expire _ _ => inferInstanceAs (Decidable (Answers s _ _ ∧ ∀ i < _, _))
  | .step _ _ | .start _ | .deliver _ | .redeliver _ =>
    inferInstanceAs (Decidable (Answers s _ _ ∧ True))

/-- A key for every holder and a holder for every key, each holder with its trace. -/
structure Balanced (s : State) (A : Multiset JobLocal) : Prop where
  balance : ∀ jobId, tally (JobPhase.holding jobId) A = s.world.store.locked jobId
  trace : ∀ l ∈ A, LockTrace l ∧ Settled l

theorem between_iff {s : State} {i : ℕ} {l : JobLocal} (hpast : l.past = s.past i)
    (hl : LockTrace l) (hs : Settled l) (jobId : Uuid) :
    Between s i (lockKey jobId) ↔ l.phase.holds = some jobId := by
  rw [Between, ← hpast]
  cases hh : l.phase.holds with
  | none =>
    rw [(hs hh).1]
    simp
  | some k =>
    rw [(hl.holder k hh).1, (hl.holder k hh).2]
    simp [lockKey_injective.eq_iff, eq_comm]

/-- A rejected call other than `del` leaves its thread holding what it held. -/
theorem JobPhase.holds_abort {op : Op} (hop : op.redis = false) (q : JobPhase) :
    (q.abort op).holds = q.holds := by
  unfold abort
  split
  · cases hop
  · split
    · rename_i h
      exact h.symm
    · rename_i h
      exact h.symm

/-- A call that is not of Redis touches no key and leaves its thread holding what it held. -/
theorem Effect.kept {e : Env} {op : Op} {reply : op.Reply} {c c' : JobStore}
    {q q' : JobPhase} (h : Effect e op reply c q c' q') (hop : op.redis = false) :
    q'.holds = q.holds ∧ c'.locks = c.locks := by
  cases h.keyChange with
  | set _ _ _ ha => cases (acquires_eq_none hop).symm.trans (ha 0)
  | dropped _ _ _ _ hr => cases (releases_eq_none hop).symm.trans (hr 0)
  | kept _ _ hh _ hc => exact ⟨hh, hc⟩

theorem redis_of_rejected {op : Op} {r : Except Failure op.Reply}
    (h : op.redis = true → r.isOk = true) (hr : r = .error .rejected) : op.redis = false := by
  by_contra hop
  rw [Bool.not_eq_false] at hop
  cases hr ▸ h hop

/-- As long as Redis answers, an answered call changes the keys as a resolved one, or it is
rejected and touches none. -/
theorem JobMove.keyChange {e : Env} {op : Op} {r : Except Failure op.Reply} {w w' : World}
    {q q' : JobPhase} (hm : JobMove e op r w q w' q') (hop : op.redis = true → r.isOk = true) :
    (∃ reply, r = .ok reply ∧ KeyChange e op reply w.store q w'.store q') ∨
      op.redis = false ∧ w'.store.locks = w.store.locks ∧ q'.holds = q.holds := by
  obtain ⟨q₁, ⟨rfl, reply, hr, he⟩ | ⟨rfl, hr, -, hq⟩⟩ := hm.split
  · exact .inl ⟨reply, hr, he.keyChange⟩
  · have hredis := redis_of_rejected hop hr
    refine .inr ⟨hredis, ?_, JobPhase.holds_abort hredis q⟩
    obtain ⟨-, hs⟩ | ⟨reply, he⟩ := hq
    · rw [hs]
    · exact (he.kept hredis).2

theorem Settled.move {s : State} {w' : World} {i : ℕ} {e : Env} {op : Op} {l : JobLocal}
    {q : JobPhase} (hs : Settled l) (hl : LockTrace l)
    (hop : op.redis = true → (handle e op s.world).1.isOk = true)
    (hm : JobMove e op (handle e op s.world).1 s.world l.phase w' q) :
    Settled ⟨q, l.past ++ [entry s i e op]⟩ := by
  intro hq
  obtain ⟨reply, hr, hk⟩ | ⟨hredis, -, hh⟩ := hm.keyChange hop
  · have hx : entry s i e op = ⟨i, e, op, .ok reply⟩ := by rw [entry, hr]
    rw [hx]
    cases hk with
    | set _ _ hq' =>
      subst hq'
      cases hq
    | dropped jobId hph _ ha hd =>
      obtain ⟨hacq, hrel⟩ := hl.holder jobId (by rw [hph]; rfl)
      simp [ha, hd, hacq, hrel]
    | kept ha hd hh => simpa [ha, hd] using hs (hh ▸ hq)
  · have ha : acquires (entry s i e op) = none := acquires_eq_none hredis
    have hd : releases (entry s i e op) = none := releases_eq_none hredis
    simpa [ha, hd] using hs (hh ▸ hq)

theorem Balanced.turn {s s' : State} {A A' : Multiset JobLocal} {m : Label} (hA : Jobs s A)
    (hB : Balanced s A) (hm : RedisAnswers s m) (ht : Turn s A m s' A') : Balanced s' A' := by
  refine ⟨fun jobId => ?_, ?_⟩
  · have hspawn : ∀ call : Call, tally (JobPhase.holding jobId) (⟨call.phase, []⟩ ::ₘ A) =
        s.world.store.locked jobId := fun call => by
      simpa [JobPhase.holding, call.holds_phase] using hB.balance jobId
    have h := hB.balance jobId
    cases ht with
    | start _ call => exact hspawn call
    | @deliver _ _ m _ _ hn hclock hw =>
      exact (hspawn (.consume ⟨0, m⟩)).trans
        (JobStore.locked_congr (congrArg JobStore.locks hw.symm) jobId)
    | step hop hpast hlog hnow hclock hmove =>
      simp only [tally_cons] at h ⊢
      obtain ⟨reply, -, hk⟩ | ⟨-, hlocks, hh⟩ := hmove.keyChange (hm.1 _ hop)
      · have := hk.balance jobId (by omega)
        omega
      · rw [JobPhase.holding, hh, ← JobPhase.holding, h, JobStore.locked_congr hlocks]
    | redeliver _ hd hclock hw =>
      exact h.trans (JobStore.locked_congr (congrArg JobStore.locks hw.symm) jobId)
    | stop => exact hm.2.elim
    | @expire _ key now lock w hlock hexp hnow hclock hw =>
      by_cases hk : key = lockKey jobId
      · -- A key that exists is held by a running thread, so it may not run out.
        have hne : tally (JobPhase.holding jobId) A ≠ 0 := by
          rw [h, JobStore.locked, ← hk, hlock]
          exact Nat.one_ne_zero
        obtain ⟨l, hl, hj⟩ := exists_of_tally_ne_zero hne
        obtain ⟨i, p, hi, hpast, -⟩ := hA.exists_thread hl
        have hbetween : Between s i (lockKey jobId) :=
          (hB.trace l hl).1.between hpast (JobPhase.holding_ne_zero.mp hj)
        exact absurd (hk ▸ hbetween) (hm.2 i (List.getElem?_eq_some_iff.mp hi).1)
      · simpa [JobStore.locked, hw, Table.lookup_erase, hk] using h
  · refine ht.forall (fun call => ?_) (fun i l h => ?_) (fun i e op l q h hop hl hmove => ?_)
      hB.trace
    · exact ⟨.spawn call, fun _ => ⟨rfl, Nat.zero_le _⟩⟩
    · subst h
      exact hm.2.elim
    · subst h
      exact ⟨hl.1.move hmove, hl.2.move hl.1 (hm.1 op hop) hmove⟩

/-- In every state of every run in which Redis answers, a job has at most one execution
between a successful `acquireLock` and its `releaseLock`, and its key exists exactly when it
has one. An execution that is over has deleted the key it set once; one that set no key
deletes none. -/
theorem mutual_exclusion {w : World} (hw : w.locks = .empty) {s : State}
    (h : Reachable step RedisAnswers (State.init w) s) :
    (∀ jobId i k, Between s i (lockKey jobId) → Between s k (lockKey jobId) → i = k) ∧
    (∀ jobId, (s.world.locks.lookup (lockKey jobId)).isSome ↔
      ∃ i, Between s i (lockKey jobId)) ∧
    (∀ i key, (s.outcome i).isSome → key ∈ acquired (s.past i) →
      (released (s.past i)).count key = 1) ∧
    ∀ i key, key ∉ acquired (s.past i) → key ∉ released (s.past i) := by
  obtain ⟨A, hA, hB⟩ := jobs_invariant (I := Balanced) (w := w)
    ⟨fun jobId => by simp [State.init, World.store, JobStore.locked, hw], by simp⟩
    (fun s A m s' A' hA hB hm ht => hB.turn hA hm ht) h
  have hlocal : ∀ {i key}, key ∈ acquired (s.past i) ∨ key ∈ released (s.past i) →
      ∃ p, s.threads[i]? = some p := by
    intro i key hkey
    cases hi : s.threads[i]? with
    | some p => exact ⟨p, rfl⟩
    | none =>
      rw [hA.past_eq_nil hi] at hkey
      simp [acquired, released] at hkey
  have hheld : ∀ {i p l jobId}, s.threads[i]? = some p → l ∈ A → l.past = s.past i →
      (Between s i (lockKey jobId) ↔ l.phase.holding jobId ≠ 0) :=
    fun _ hl hpast => (between_iff hpast (hB.trace _ hl).1 (hB.trace _ hl).2 _).trans
      JobPhase.holding_ne_zero.symm
  refine ⟨fun jobId i k hi hk => ?_, fun jobId => ⟨fun hkey => ?_, ?_⟩, fun i key hi hkey => ?_,
    fun i key hkey => ?_⟩
  · by_contra hik
    obtain ⟨p, hp⟩ := hlocal (.inl hi.1)
    obtain ⟨p', hp'⟩ := hlocal (.inl hk.1)
    obtain ⟨l, l', rest, rfl, hpast, hpast', -⟩ := hA.exists_pair hik hp hp'
    have hl := (hheld hp (by simp) hpast).mp hi
    have hl' := (hheld hp' (by simp) hpast').mp hk
    have hsum := hB.balance jobId
    have hone := s.world.store.locked_le_one jobId
    simp only [tally_cons] at hsum
    omega
  · have hne : tally (JobPhase.holding jobId) A ≠ 0 := by
      rw [hB.balance jobId, JobStore.locked]
      exact (if_pos hkey).trans_ne Nat.one_ne_zero
    obtain ⟨l, hl, hj⟩ := exists_of_tally_ne_zero hne
    obtain ⟨i, p, hp, hpast, -⟩ := hA.exists_thread hl
    exact ⟨i, (hheld hp hl hpast).mpr hj⟩
  · rintro ⟨i, hi⟩
    obtain ⟨p, hp⟩ := hlocal (.inl hi.1)
    obtain ⟨l, hl, hpast, -⟩ := hA.exists_local hp
    have hle := le_tally (JobPhase.holding jobId) hl
    have hj := (hheld hp hl hpast).mp hi
    rw [hB.balance jobId, JobStore.locked] at hle
    by_contra hkey
    rw [if_neg (show ¬(s.world.store.locks.lookup (lockKey jobId)).isSome = true from hkey)] at hle
    omega
  · obtain ⟨r, hr⟩ := Option.isSome_iff_exists.mp hi
    obtain ⟨l, hl, hpast, hends⟩ := hA.exists_ended hr
    obtain ⟨heq, hlen⟩ := (hB.trace l hl).2 hends.holds_eq_none
    rw [hpast] at heq hlen
    have hpos : 0 < (acquired (s.past i)).count key := List.count_pos_iff.mpr hkey
    have := List.count_le_length (a := key) (l := acquired (s.past i))
    rw [← heq]
    omega
  · intro hrel
    obtain ⟨p, hp⟩ := hlocal (.inr hrel)
    obtain ⟨l, hl, hpast, -⟩ := hA.exists_local hp
    rw [← hpast] at hkey hrel
    cases hh : l.phase.holds with
    | none => exact hkey (((hB.trace l hl).2 hh).1 ▸ hrel)
    | some jobId =>
      rw [((hB.trace l hl).1.holder jobId hh).2] at hrel
      cases hrel

/-- Two executions of one job at once : the second is refused and deletes nothing. -/
theorem mutual_exclusion_two : ∃ s, Reachable step RedisAnswers (State.init .empty) s ∧
    Between s 0 (lockKey 7) ∧ (s.outcome 1).isSome ∧
    lockKey 7 ∉ released (s.past 1) ∧ ∀ i, Between s i (lockKey 7) → i = 0 := by
  obtain ⟨s, hs, h0, h1, hacq⟩ : ∃ s, Reachable step RedisAnswers (State.init .empty) s ∧
      Between s 0 (lockKey 7) ∧ (s.outcome 1).isSome ∧ lockKey 7 ∉ acquired (s.past 1) :=
    exists_reachable_of_execute _
      [.start (.process ⟨7, "created", "alice"⟩), .start (.process ⟨7, "retry", "bob"⟩),
        .step 0 ⟨1, 0, .resolves⟩, .step 1 ⟨2, 0, .resolves⟩] _ (by decide)
  obtain ⟨hone, -, -, hnone⟩ := mutual_exclusion rfl hs
  exact ⟨s, hs, h0, h1, hnone 1 _ hacq, fun i hi => hone 7 i 0 hi h0⟩

end RealtimeOps
