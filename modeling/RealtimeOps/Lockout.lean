import RealtimeOps.RateLimit

/-!
# Locked out for good

The TTL of a counter is set by the request that creates it, in a second call, and by no other.
So if that call is lost, or the answer to the first one, or the process in between, then the
counter stays : every later request only increments it. If none of this happens, every counter has
a TTL as soon as no request is between its two calls (`no_lockout`).
-/

set_option autoImplicit false

namespace RealtimeOps

open Interleaving

namespace RedisRateLimitGuard

/-- Request `i` has created the counter of the key, and has to set its TTL. -/
def Pending (guard : RedisRateLimitGuard) (key : String) (s : Limiter) (i : ℕ) : Prop :=
  s.awaited i = some (.expire key guard.windowSeconds)

/-- If no request is between its two calls, every counter has a TTL, and is gone within
`windowSeconds` unless it is created again. -/
def NoLockout (guard : RedisRateLimitGuard) (s : Limiter) : Prop :=
  (∀ key i, ¬guard.Pending key s i) → ∀ key c, s.world.counters key = some c →
    c.expiresAt.isSome ∧
      ∀ now, s.world.clock + 1000 * guard.windowSeconds ≤ now → s.world.get now key = none

/-- The answer to an `INCR` that creates the counter is not lost, and an `EXPIRE` takes effect. -/
def Lossless (r : Redis) (e : Env) : CounterOp → Prop
  | .incr key => r.get e.now key = none → e.outcome ≠ .rejectsAfterEffect
  | .expire _ _ => e.outcome ≠ .rejects

instance (r : Redis) (e : Env) : DecidablePred (Lossless r e)
  | .incr _ => inferInstanceAs (Decidable (_ → _))
  | .expire _ _ => inferInstanceAs (Decidable (_ ≠ _))

/-- Each call is lossless, and no process dies before an `EXPIRE`. -/
def Completes (s : Limiter) : LimiterMove → Prop
  | .request _ _ => True
  | .step i e => ∀ op ∈ s.awaited i, Lossless s.world e op
  | .stop i => ∀ op ∈ s.awaited i, op = .incr (CounterOp.key op)

instance (s : Limiter) : DecidablePred (Completes s)
  | .request _ _ => .isTrue trivial
  | .step _ _ | .stop _ => inferInstanceAs (Decidable (∀ op ∈ _, _))

/-- The counter of the key has no TTL, and no request is about to set one. -/
def LockedOut (guard : RedisRateLimitGuard) (key : String) (s : Limiter) : Prop :=
  (∃ c, s.world.counters key = some c ∧ c.expiresAt = none ∧ 0 < c.count) ∧
    ∀ i, ¬guard.Pending key s i

/-! ## The stages of a request -/

/-- What is left of a request. -/
inductive Stage (guard : RedisRateLimitGuard) : Prog counting HttpFailure Bool → Prop
  | arrived (context : ExecutionContext) : Stage guard (guard.canActivate context)
  | created (key : String) : Stage guard (guard.counted key 1)
  | ended (r : Except HttpFailure Bool) : Stage guard (.resolve r)

/-- Every request is at a stage. -/
def Staged (guard : RedisRateLimitGuard) (s : Limiter) : Prop :=
  ∀ i p, s.threads i = some p → guard.Stage p

section Stages

variable {guard : RedisRateLimitGuard} {s s' : Limiter} {i j : ℕ} {key : String} {e : Env}

/-- The end of a request. -/
theorem exists_verdict (guard : RedisRateLimitGuard) (count : ℕ) :
    ∃ r, guard.verdict count = .resolve r := by
  rw [verdict]
  split_ifs
  · exact ⟨.error _, rfl⟩
  · exact ⟨.ok true, rfl⟩

/-- A call of a request : it increments its counter, or sets the TTL of the counter it has
created. -/
theorem advance_cases (h : guard.Staged s) (hs : s.advance Redis.handle i e = some s') :
    (∃ key, s.awaited i = some (.incr key) ∧
      s'.world = (Redis.handle e (.incr key) s.world).2 ∧
      s'.threads = Function.update s.threads i
        (some ((Prog.resolve (Redis.handle e (.incr key) s.world).1).bind (guard.counted key)))) ∨
    ∃ key, guard.Pending key s i ∧
      s'.world = (Redis.handle e (.expire key guard.windowSeconds) s.world).2 ∧
      ∃ r, s'.threads = Function.update s.threads i (some (.resolve r)) := by
  obtain ⟨op, k, hk, rfl⟩ := Named.advance_eq_some hs
  have hstage := h i _ hk
  generalize hp : Prog.call op k = p at hstage
  cases hstage with
  | arrived context =>
    rw [canActivate_eq] at hp
    split_ifs at hp
    cases hp
    exact .inl ⟨_, Named.awaited_eq_some.mpr ⟨_, hk⟩, rfl, rfl⟩
  | created key =>
    cases hp
    refine .inr ⟨key, Named.awaited_eq_some.mpr ⟨_, hk⟩, rfl, ?_⟩
    cases (Redis.handle e (.expire key guard.windowSeconds) s.world).1 with
    | ok reply =>
      obtain ⟨r, hr⟩ := guard.exists_verdict 1
      exact ⟨r, by rw [← hr]; rfl⟩
    | error err => exact ⟨.error err, rfl⟩
  | ended r => cases r <;> cases hp

/-- After the increment the first request sets the TTL, and every other is at its end. -/
theorem counted_cases (guard : RedisRateLimitGuard) (key : String) (r : Except HttpFailure ℕ) :
    r = .ok 1 ∧ (Prog.resolve r).bind (guard.counted key) = guard.counted key 1 ∨
      r ≠ .ok 1 ∧ ∃ r', (Prog.resolve r).bind (guard.counted key) = .resolve r' := by
  cases r with
  | error err => exact .inr ⟨by simp, .error err, rfl⟩
  | ok count =>
    by_cases hcount : count = 1
    · subst hcount
      exact .inl ⟨rfl, rfl⟩
    · obtain ⟨r', hr'⟩ := guard.exists_verdict count
      exact .inr ⟨by simpa using hcount, r', (if_neg hcount).trans hr'⟩

theorem Staged.update (h : guard.Staged s) {p : Prog counting HttpFailure Bool}
    (hthreads : s'.threads = Function.update s.threads i (some p)) (hp : guard.Stage p) :
    guard.Staged s' := by
  intro j q hq
  rw [hthreads] at hq
  by_cases hji : j = i
  · rw [hji, Function.update_self] at hq
    cases hq
    exact hp
  · rw [Function.update_of_ne hji] at hq
    exact h j q hq

theorem Staged.step (h : guard.Staged s) {m : LimiterMove} (hs : guard.step s m = some s') :
    guard.Staged s' := by
  cases m with
  | request i context =>
    obtain ⟨-, rfl⟩ := Named.spawn_eq_some hs
    exact h.update rfl (.arrived context)
  | step i e =>
    rw [RedisRateLimitGuard.step_step] at hs
    rcases advance_cases h hs.2 with ⟨key, -, -, hthreads⟩ | ⟨key, -, -, r, hthreads⟩
    · refine h.update hthreads ?_
      rcases guard.counted_cases key _ with ⟨-, hp⟩ | ⟨-, r, hp⟩
      · exact hp ▸ .created key
      · exact hp ▸ .ended r
    · exact h.update hthreads (.ended r)
  | stop i =>
    obtain ⟨-, rfl⟩ := Named.halt_eq_some hs
    exact h.update rfl (.ended (.error (.failed .stopped)))

/-- A request that arrives or ends has no TTL to set. -/
theorem not_pending_of_resolve {r : Except HttpFailure Bool}
    (hthreads : s'.threads = Function.update s.threads i (some (.resolve r))) :
    ¬guard.Pending key s' i := by
  intro hi
  obtain ⟨k, hk⟩ := (Named.awaited_self hthreads).mp hi
  cases r <;> cases hk

theorem not_pending_of_canActivate {context : ExecutionContext}
    (hthreads : s'.threads = Function.update s.threads i (some (guard.canActivate context))) :
    ¬guard.Pending key s' i := by
  intro hi
  obtain ⟨k, hk⟩ := (Named.awaited_self hthreads).mp hi
  rw [canActivate_eq] at hk
  split_ifs at hk
  cases hk

/-- A request has the TTL of its own key to set. -/
theorem pending_of_counted {k : String}
    (hthreads : s'.threads = Function.update s.threads i (some (guard.counted key 1))) :
    guard.Pending k s' i ↔ k = key := by
  refine (Named.awaited_self hthreads).trans ⟨?_, ?_⟩
  · rintro ⟨_, hk⟩
    cases hk
    rfl
  · rintro rfl
    exact ⟨_, rfl⟩

end Stages

/-! ## Runs without a loss -/

/-- The counter of the key, if there is one, has a TTL, or the request that has created it sets
one next, and only that one. -/
structure Expiring (guard : RedisRateLimitGuard) (key : String) (s : Limiter) : Prop where
  positive : ∀ c, s.world.counters key = some c → 0 < c.count
  expiry : ∀ c, s.world.counters key = some c →
    (∃ t ∈ c.expiresAt, t ≤ s.world.clock + 1000 * guard.windowSeconds) ∨
      c.expiresAt = none ∧ ∃ i, guard.Pending key s i
  pending : ∀ i, guard.Pending key s i → ∃ c, s.world.counters key = some c ∧ c.expiresAt = none
  unique : ∀ i j, guard.Pending key s i → guard.Pending key s j → i = j

section Expiring

variable {guard : RedisRateLimitGuard} {s s' : Limiter} {i : ℕ} {key : String} {e : Env}

/-- What changes neither the counter nor who sets its TTL. -/
theorem Expiring.of_same (h : guard.Expiring key s) (hclock : s.world.clock ≤ s'.world.clock)
    (hcounter : s'.world.counters key = s.world.counters key)
    (hpending : ∀ j, guard.Pending key s' j ↔ guard.Pending key s j) : guard.Expiring key s' where
  positive c hc := h.positive c (hcounter ▸ hc)
  expiry c hc := by
    refine (h.expiry c (hcounter ▸ hc)).imp ?_ ?_
    · exact fun ⟨t, ht, hle⟩ => ⟨t, ht, hle.trans (Nat.add_le_add_right hclock _)⟩
    · exact fun ⟨hnone, i, hi⟩ => ⟨hnone, i, (hpending i).mpr hi⟩
  pending j hj := hcounter ▸ h.pending j ((hpending j).mp hj)
  unique j j' hj hj' := h.unique j j' ((hpending j).mp hj) ((hpending j').mp hj')

/-- Request `i` has no TTL of the key to set, neither before nor after. -/
theorem pending_iff_of_update {p : Option (Prog counting HttpFailure Bool)}
    (hthreads : s'.threads = Function.update s.threads i p) (hbefore : ¬guard.Pending key s i)
    (hafter : ¬guard.Pending key s' i) (j : ℕ) :
    guard.Pending key s' j ↔ guard.Pending key s j := by
  by_cases hji : j = i
  · rw [hji]
    exact iff_of_false hafter hbefore
  · rw [Pending, Named.awaited_of_ne hthreads hji, Pending]

/-- A request has one call to make. -/
theorem not_pending_of_awaited {op : CounterOp} (hop : s.awaited i = some op)
    (hne : op ≠ .expire key guard.windowSeconds) : ¬guard.Pending key s i := fun hi =>
  hne (Option.some.inj (hop.symm.trans hi))

/-- A counter without a TTL is there at any time. -/
theorem get_of_none {r : Redis} {c : Counter} (hc : r.counters key = some c)
    (hnone : c.expiresAt = none) (now : Date) : r.get now key = some c := by
  simp [Redis.get, hc, Option.filter, Counter.overdue, hnone]

/-- A counter that is not there any more had a TTL, which nobody is about to set. -/
theorem Expiring.not_pending (h : guard.Expiring key s) {now : Date}
    (hget : s.world.get now key = none) (j : ℕ) : ¬guard.Pending key s j := fun hj => by
  obtain ⟨c, hc, hnone⟩ := h.pending j hj
  cases hget.symm.trans (get_of_none hc hnone now)

/-- Request `i` creates the counter, and knows it. -/
theorem Expiring.create (h : guard.Expiring key s) {now : Date}
    (hget : s.world.get now key = none) (hcounter : s'.world.counters key = some ⟨1, none⟩)
    (hthreads : s'.threads = Function.update s.threads i (some (guard.counted key 1))) :
    guard.Expiring key s' := by
  have hpending : ∀ j, guard.Pending key s' j → j = i := fun j hj => by
    by_contra hji
    rw [Pending, Named.awaited_of_ne hthreads hji] at hj
    exact h.not_pending hget j hj
  refine ⟨fun c hc => ?_, fun c hc => ?_, fun j hj => ⟨_, hcounter, rfl⟩, fun j j' hj hj' => ?_⟩
  · cases hcounter.symm.trans hc
    exact Nat.one_pos
  · cases hcounter.symm.trans hc
    exact .inr ⟨rfl, i, (pending_of_counted hthreads).mpr rfl⟩
  · rw [hpending j hj, hpending j' hj']

/-- Request `i` increments a counter that is there. -/
theorem Expiring.increment (h : guard.Expiring key s) {c : Counter}
    (hc : s.world.counters key = some c)
    (hcounter : s'.world.counters key = some { c with count := c.count + 1 })
    (hclock : s.world.clock ≤ s'.world.clock)
    (hpending : ∀ j, guard.Pending key s' j ↔ guard.Pending key s j) : guard.Expiring key s' := by
  refine ⟨fun c' hc' => ?_, fun c' hc' => ?_, fun j hj => ?_, fun j j' hj hj' => ?_⟩
  · cases hcounter.symm.trans hc'
    exact Nat.succ_pos _
  · cases hcounter.symm.trans hc'
    refine (h.expiry c hc).imp ?_ ?_
    · exact fun ⟨t, ht, hle⟩ => ⟨t, ht, hle.trans (Nat.add_le_add_right hclock _)⟩
    · exact fun ⟨hnone, i, hi⟩ => ⟨hnone, i, (hpending i).mpr hi⟩
  · obtain ⟨c', hc', hnone⟩ := h.pending j ((hpending j).mp hj)
    cases hc.symm.trans hc'
    exact ⟨_, hcounter, hnone⟩
  · exact h.unique j j' ((hpending j).mp hj) ((hpending j').mp hj')

/-- Request `i` sets the TTL of the counter it has created. -/
theorem Expiring.expire (h : guard.Expiring key s) (hi : guard.Pending key s i) {c : Counter}
    {t : Date} (hc : s.world.counters key = some c)
    (hcounter : s'.world.counters key = some { c with expiresAt := some t })
    (ht : t ≤ s'.world.clock + 1000 * guard.windowSeconds) {r : Except HttpFailure Bool}
    (hthreads : s'.threads = Function.update s.threads i (some (.resolve r))) :
    guard.Expiring key s' := by
  have hno : ∀ j, ¬guard.Pending key s' j := fun j hj => by
    by_cases hji : j = i
    · exact not_pending_of_resolve hthreads (hji ▸ hj)
    · rw [Pending, Named.awaited_of_ne hthreads hji] at hj
      exact hji (h.unique j i hj hi)
  refine ⟨fun c' hc' => ?_, fun c' hc' => ?_, fun j hj => absurd hj (hno j),
    fun j j' hj => absurd hj (hno j)⟩
  · cases hcounter.symm.trans hc'
    exact h.positive c hc
  · cases hcounter.symm.trans hc'
    exact .inl ⟨t, rfl, ht⟩

/-! What a call does to the counter of its key. -/

theorem incr_of_none {now : Date} {r : Redis} (hget : r.get now key = none) :
    r.perform now (.incr key) = (1, r.set key ⟨1, none⟩) := by
  simp only [Redis.perform, hget]

theorem incr_of_some {now : Date} {r : Redis} {c : Counter} (hget : r.get now key = some c) :
    r.perform now (.incr key) = (c.count + 1, r.set key { c with count := c.count + 1 }) := by
  simp only [Redis.perform, hget]

/-- Who increments a counter that is there does not take it for new. -/
theorem incr_ne_one {r : Redis} {c : Counter} (hget : r.get e.now key = some c)
    (hpos : 0 < c.count) : (Redis.handle e (.incr key) r).1 ≠ .ok 1 := by
  have hperform := incr_of_some (r := { r with clock := e.now }) hget
  cases ho : e.outcome with
  | resolves =>
    rw [Redis.handle_resolves ho, hperform]
    simpa using hpos.ne'
  | rejects =>
    rw [Redis.handle_rejects ho]
    simp
  | rejectsAfterEffect =>
    rw [Redis.handle_rejectsAfterEffect ho]
    simp

theorem expire_of_some {now : Date} {r : Redis} {c : Counter} (hget : r.get now key = some c)
    (seconds : ℕ) : r.perform now (.expire key seconds) =
      (true, r.set key { c with expiresAt := some (now + 1000 * seconds) }) := by
  simp only [Redis.perform, hget]

theorem Expiring.incr (h : guard.Expiring key s) (hnow : s.world.clock ≤ e.now)
    (hop : s.awaited i = some (.incr key))
    (hlost : s.world.get e.now key = none → e.outcome ≠ .rejectsAfterEffect)
    (hworld : s'.world = (Redis.handle e (.incr key) s.world).2)
    (hthreads : s'.threads = Function.update s.threads i
      (some ((Prog.resolve (Redis.handle e (.incr key) s.world).1).bind (guard.counted key)))) :
    guard.Expiring key s' := by
  have hclock : s.world.clock ≤ s'.world.clock := by
    rw [hworld, Redis.clock_handle]
    exact hnow
  have hbefore : ¬guard.Pending key s i := not_pending_of_awaited hop (by simp)
  -- A request that does not learn that it created the counter has nothing left to do with it.
  have hended : (Redis.handle e (.incr key) s.world).1 ≠ .ok 1 →
      ∀ j, guard.Pending key s' j ↔ guard.Pending key s j := fun hne => by
    rcases guard.counted_cases key (Redis.handle e (.incr key) s.world).1 with ⟨heq, -⟩ | ⟨-, r, hr⟩
    · exact absurd heq hne
    · rw [hr] at hthreads
      exact pending_iff_of_update hthreads hbefore (not_pending_of_resolve hthreads)
  cases hget : s.world.get e.now key with
  | none =>
    have hperform := incr_of_none (r := { s.world with clock := e.now }) hget
    cases ho : e.outcome with
    | resolves =>
      rw [Redis.handle_resolves ho, hperform] at hworld hthreads
      refine h.create hget ?_ hthreads
      rw [hworld]
      exact Redis.counters_set_self _ _ _
    | rejects =>
      rw [Redis.handle_rejects ho] at hworld hended
      exact h.of_same hclock (by rw [hworld]) (hended (by simp))
    | rejectsAfterEffect => exact absurd ho (hlost hget)
  | some c =>
    obtain ⟨hc, -⟩ := Option.filter_eq_some_iff.mp hget
    have hpending := hended (incr_ne_one hget (h.positive c hc))
    have hperform := incr_of_some (r := { s.world with clock := e.now }) hget
    rcases Redis.handle_redis e (.incr key) s.world with hr | hr
    · exact h.of_same hclock (by rw [hworld, hr]) hpending
    · refine h.increment hc ?_ hclock hpending
      rw [hworld, hr, hperform]
      exact Redis.counters_set_self _ _ _

/-- What request `i` does with another key. -/
theorem Expiring.of_advance_ne (h : guard.Expiring key s) (hnow : s.world.clock ≤ e.now)
    {op : CounterOp} (hop : s.awaited i = some op) (hkey : key ≠ op.key)
    (hworld : s'.world = (Redis.handle e op s.world).2) {p : Prog counting HttpFailure Bool}
    (hthreads : s'.threads = Function.update s.threads i (some p))
    (hafter : ¬guard.Pending key s' i) : guard.Expiring key s' := by
  refine h.of_same ?_ ?_ (pending_iff_of_update hthreads (not_pending_of_awaited hop ?_) hafter)
  · rw [hworld, Redis.clock_handle]
    exact hnow
  · rw [hworld, Redis.counters_handle_of_ne hkey]
  · rintro rfl
    exact hkey rfl

/-- A move without a loss. -/
theorem expiring_step (hstaged : guard.Staged s) (h : ∀ key, guard.Expiring key s)
    {m : LimiterMove} (hm : Completes s m) (hs : guard.step s m = some s') (key : String) :
    guard.Expiring key s' := by
  cases m with
  | request i context =>
    obtain ⟨hfree, rfl⟩ := Named.spawn_eq_some hs
    refine (h key).of_same le_rfl rfl (pending_iff_of_update rfl (fun hi => ?_)
      (not_pending_of_canActivate rfl))
    obtain ⟨k, hk⟩ := Named.awaited_eq_some.mp hi
    cases hfree.symm.trans hk
  | step i e =>
    rw [RedisRateLimitGuard.step_step] at hs
    rcases advance_cases hstaged hs.2 with ⟨k, hop, hworld, hthreads⟩ | ⟨k, hi, hworld, r, hthreads⟩
    · by_cases hk : key = k
      · subst hk
        exact (h key).incr hs.1 hop (hm _ hop) hworld hthreads
      · refine (h key).of_advance_ne hs.1 hop hk hworld hthreads ?_
        rcases guard.counted_cases k _ with ⟨-, hp⟩ | ⟨-, r, hp⟩ <;> rw [hp] at hthreads
        · exact fun hi => hk ((pending_of_counted hthreads).mp hi)
        · exact not_pending_of_resolve hthreads
    · by_cases hk : key = k
      · subst hk
        obtain ⟨c, hc, hnone⟩ := (h key).pending i hi
        have heffect := expire_of_some (r := { s.world with clock := e.now })
          (get_of_none hc hnone e.now) guard.windowSeconds
        have hset : s'.world = Redis.set key
            { c with expiresAt := some (e.now + 1000 * guard.windowSeconds) }
            { s.world with clock := e.now } := by
          rw [hworld]
          cases ho : e.outcome with
          | resolves => rw [Redis.handle_resolves ho, heffect]
          | rejects => exact absurd ho (hm _ hi)
          | rejectsAfterEffect => rw [Redis.handle_rejectsAfterEffect ho, heffect]
        refine (h key).expire hi hc (by rw [hset]; exact Redis.counters_set_self _ _ _) ?_ hthreads
        rw [hset]
        exact le_rfl
      · exact (h key).of_advance_ne hs.1 hi hk hworld hthreads (not_pending_of_resolve hthreads)
  | stop i =>
    obtain ⟨⟨op, hop⟩, rfl⟩ := Named.halt_eq_some hs
    refine (h key).of_same le_rfl rfl (pending_iff_of_update rfl (not_pending_of_awaited hop ?_)
      (not_pending_of_resolve (r := .error (.failed .stopped)) rfl))
    rintro rfl
    cases hm _ hop

theorem expiring_init (key : String) : guard.Expiring key Limiter.init where
  positive := by simp [Limiter.init, Named.init, Redis.empty]
  expiry := by simp [Limiter.init, Named.init, Redis.empty]
  pending := by simp [Pending, Limiter.init, Named.init, Named.awaited]
  unique := by simp [Pending, Limiter.init, Named.init, Named.awaited]

theorem Expiring.bound (h : guard.Expiring key s) (hno : ∀ i, ¬guard.Pending key s i) {c : Counter}
    (hc : s.world.counters key = some c) : c.expiresAt.isSome ∧
      ∀ now, s.world.clock + 1000 * guard.windowSeconds ≤ now → s.world.get now key = none := by
  rcases h.expiry c hc with ⟨t, ht, hle⟩ | ⟨-, i, hi⟩
  · refine ⟨by rw [ht]; rfl, fun now hnow => ?_⟩
    have hover : t ≤ now := hle.trans hnow
    simp [Redis.get, hc, Option.filter, Counter.overdue, Option.mem_def.mp ht, hover]
  · exact absurd hi (hno i)

end Expiring

/-! ## After a loss -/

section Lockout

variable {guard : RedisRateLimitGuard} {s s' : Limiter} {i : ℕ} {key : String} {e : Env}

/-- Nobody sets the TTL if nobody did before and request `i` does not. -/
theorem not_pending_of_update {p : Option (Prog counting HttpFailure Bool)}
    (hthreads : s'.threads = Function.update s.threads i p)
    (hbefore : ∀ j, j ≠ i → ¬guard.Pending key s j) (hafter : ¬guard.Pending key s' i) (j : ℕ) :
    ¬guard.Pending key s' j := by
  by_cases hji : j = i
  · exact hji ▸ hafter
  · rw [Pending, Named.awaited_of_ne hthreads hji]
    exact hbefore j hji

/-- The TTL is always the window. -/
theorem pending_of_expire (hstaged : guard.Staged s) {seconds : ℕ}
    (hop : s.awaited i = some (.expire key seconds)) : guard.Pending key s i := by
  obtain ⟨k, hk⟩ := Named.awaited_eq_some.mp hop
  have hstage := hstaged i _ hk
  generalize hp : Prog.call (S := counting) (.expire key seconds) k = p at hstage
  cases hstage with
  | arrived context =>
    rw [canActivate_eq] at hp
    split_ifs at hp
    cases hp
  | created key =>
    cases hp
    exact hop
  | ended r => cases r <;> cases hp

/-- A move with a loss leaves a counter without a TTL, which nobody is about to set. -/
theorem lockedOut_of_loss (hstaged : guard.Staged s) (h : ∀ key, guard.Expiring key s)
    {m : LimiterMove} (hm : ¬Completes s m) (hs : guard.step s m = some s') :
    ∃ key, guard.LockedOut key s' := by
  cases m with
  | request i context => exact absurd trivial hm
  | step i e =>
    rw [RedisRateLimitGuard.step_step] at hs
    rcases advance_cases hstaged hs.2 with
      ⟨key, hop, hworld, hthreads⟩ | ⟨key, hi, hworld, r, hthreads⟩
    · obtain ⟨hget, ho⟩ : s.world.get e.now key = none ∧ e.outcome = .rejectsAfterEffect := by
        simpa [Completes, Lossless, hop] using hm
      have hperform := incr_of_none (r := { s.world with clock := e.now }) hget
      rw [Redis.handle_rejectsAfterEffect ho] at hthreads
      rw [Redis.handle_rejectsAfterEffect ho, hperform] at hworld
      refine ⟨key, ⟨⟨1, none⟩, ?_, rfl, Nat.one_pos⟩, not_pending_of_update hthreads
        (fun j _ => (h key).not_pending hget j)
        (not_pending_of_resolve (r := .error (.failed .rejected)) hthreads)⟩
      rw [hworld]
      exact Redis.counters_set_self _ _ _
    · have ho : e.outcome = .rejects := by
        simpa [Completes, Lossless, show s.awaited i = some (.expire key _) from hi] using hm
      obtain ⟨c, hc, hnone⟩ := (h key).pending i hi
      rw [Redis.handle_rejects ho] at hworld
      refine ⟨key, ⟨c, ?_, hnone, (h key).positive c hc⟩, not_pending_of_update hthreads
        (fun j hji hj => hji ((h key).unique j i hj hi)) (not_pending_of_resolve hthreads)⟩
      rw [hworld]
      exact hc
  | stop i =>
    obtain ⟨⟨op, hop⟩, rfl⟩ := Named.halt_eq_some hs
    cases op with
    | incr key => exact absurd (by simp [Completes, hop, CounterOp.key]) hm
    | expire key seconds =>
      have hi := pending_of_expire hstaged hop
      obtain ⟨c, hc, hnone⟩ := (h key).pending i hi
      exact ⟨key, ⟨c, hc, hnone, (h key).positive c hc⟩, not_pending_of_update rfl
        (fun j hji hj => hji ((h key).unique j i hj hi))
        (not_pending_of_resolve (r := .error (.failed .stopped)) rfl)⟩

/-- Nothing gives the counter a TTL any more. -/
theorem LockedOut.step (hstaged : guard.Staged s) (h : guard.LockedOut key s) {m : LimiterMove}
    (hs : guard.step s m = some s') : guard.LockedOut key s' := by
  obtain ⟨⟨c, hc, hnone, hpos⟩, hno⟩ := h
  cases m with
  | request i context =>
    obtain ⟨-, rfl⟩ := Named.spawn_eq_some hs
    exact ⟨⟨c, hc, hnone, hpos⟩, not_pending_of_update rfl (fun j _ => hno j)
      (not_pending_of_canActivate rfl)⟩
  | step i e =>
    rw [RedisRateLimitGuard.step_step] at hs
    rcases advance_cases hstaged hs.2 with ⟨k, hop, hworld, hthreads⟩ | ⟨k, hi, hworld, r, hthreads⟩
    · refine ⟨?_, not_pending_of_update hthreads (fun j _ => hno j) ?_⟩
      · by_cases hk : key = k
        · subst hk
          have hperform := incr_of_some (r := { s.world with clock := e.now })
            (get_of_none hc hnone e.now)
          rcases Redis.handle_redis e (.incr key) s.world with hr | hr
          · exact ⟨c, by rw [hworld, hr]; exact hc, hnone, hpos⟩
          · refine ⟨{ c with count := c.count + 1 }, ?_, hnone, Nat.succ_pos _⟩
            rw [hworld, hr, hperform]
            exact Redis.counters_set_self _ _ _
        · exact ⟨c, by rw [hworld, Redis.counters_handle_of_ne hk, hc], hnone, hpos⟩
      · rcases guard.counted_cases k _ with ⟨hone, hp⟩ | ⟨-, r, hp⟩ <;> rw [hp] at hthreads
        · rw [pending_of_counted hthreads]
          rintro rfl
          exact incr_ne_one (get_of_none hc hnone e.now) hpos hone
        · exact not_pending_of_resolve hthreads
    · have hk : key ≠ k := by
        rintro rfl
        exact hno i hi
      refine ⟨⟨c, ?_, hnone, hpos⟩, not_pending_of_update hthreads (fun j _ => hno j)
        (not_pending_of_resolve hthreads)⟩
      rw [hworld, Redis.counters_handle_of_ne hk, hc]
  | stop i =>
    obtain ⟨-, rfl⟩ := Named.halt_eq_some hs
    exact ⟨⟨c, hc, hnone, hpos⟩, not_pending_of_update rfl (fun j _ => hno j)
      (not_pending_of_resolve (r := .error (.failed .stopped)) rfl)⟩

/-- Counters expire : in every run in which no answer to a creating `INCR` is lost, no `EXPIRE`
fails to take effect and no process dies before it, every counter has a TTL whenever no request
is between its two calls. After any other move, some counter has none for ever. -/
theorem no_lockout (h : Reachable guard.step Completes Limiter.init s) :
    guard.NoLockout s ∧ ∀ m s', ¬Completes s m → guard.step s m = some s' →
      ∃ key, ∀ t, Reachable guard.step (fun _ _ => True) s' t → guard.LockedOut key t := by
  obtain ⟨hstaged, hexpiring⟩ : guard.Staged s ∧ ∀ key, guard.Expiring key s := by
    refine Reachable.invariant (I := fun s => guard.Staged s ∧ ∀ key, guard.Expiring key s) ?_
      ⟨fun _ _ hp => (by cases hp), expiring_init⟩ h
    exact fun s m s' hI hm hs => ⟨hI.1.step hs, expiring_step hI.1 hI.2 hm hs⟩
  refine ⟨fun hno key c hc => (hexpiring key).bound (hno key) hc, fun m s' hm hs => ?_⟩
  obtain ⟨key, hkey⟩ := lockedOut_of_loss hstaged hexpiring hm hs
  refine ⟨key, fun t ht => ?_⟩
  have hlast : guard.Staged t ∧ guard.LockedOut key t :=
    Reachable.invariant (I := fun s => guard.Staged s ∧ guard.LockedOut key s)
      (fun s m s' hI _ hs => ⟨hI.1.step hs, hI.2.step hI.1 hs⟩) ⟨hstaged.step hs, hkey⟩ ht
  exact hlast.2

/-- A request is counted and has given the counter its minute. -/
theorem no_lockout_counted :
    let request : Request := ⟨⟨.absent, .absent⟩, some "::1", "GET", none, "/api/v1/jobs"⟩
    ∃ s, (⟨1, 60⟩ : RedisRateLimitGuard).NoLockout s ∧
      s.world.counters (rateLimitKey request) = some ⟨1, some 60006⟩ := by
  intro request
  obtain ⟨s, hs, hcounter⟩ :
      ∃ s, Reachable (RedisRateLimitGuard.step ⟨1, 60⟩) Completes Limiter.init s ∧
        s.world.counters (rateLimitKey request) = some ⟨1, some 60006⟩ :=
    exists_reachable_of_execute _ [.request 0 ⟨false, request⟩, .step 0 ⟨5, 0, .resolves⟩,
      .step 0 ⟨6, 0, .resolves⟩] _ (by decide)
  exact ⟨s, (no_lockout hs).1, hcounter⟩

/-- Redis rejects the `EXPIRE` : the counter stays without a TTL. -/
theorem not_no_lockout : ∃ s,
    Reachable (RedisRateLimitGuard.step ⟨1, 60⟩) (fun _ _ => True) Limiter.init s ∧
      ¬(⟨1, 60⟩ : RedisRateLimitGuard).NoLockout s := by
  let request : Request := ⟨⟨.absent, .absent⟩, some "::1", "GET", none, "/api/v1/jobs"⟩
  have hrun : execute (RedisRateLimitGuard.step ⟨1, 60⟩) (fun _ _ => True) Limiter.init
      [.request 0 ⟨false, request⟩, .step 0 ⟨5, 0, .resolves⟩, .step 0 ⟨6, 0, .rejects⟩] =
        some _ := rfl
  refine ⟨_, reachable_of_execute hrun, fun h => ?_⟩
  have hno := h (fun key i hi => ?_) "rate-limit:::1:GET:/api/v1/jobs" ⟨1, none⟩ rfl
  · exact absurd hno.1 (by decide)
  · by_cases h0 : i = 0
    · subst h0
      cases hi
    · rw [Pending, Named.awaited_of_ne rfl h0, Named.awaited_of_ne rfl h0,
        Named.awaited_of_ne rfl h0] at hi
      cases hi

end Lockout

end RedisRateLimitGuard

end RealtimeOps
