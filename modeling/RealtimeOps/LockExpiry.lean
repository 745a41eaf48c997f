import RealtimeOps.JobLock

/-!
# The lock's TTL

`releaseLock` deletes the key of the job whoever set it, and every holder sets the same
value. An execution that runs for longer than the TTL can therefore delete the key of the
execution that came after it (`not_deletesOwn`). It deletes only its own key as long as
each release comes within the TTL of its own acquire, or finds no key
(`deletesOwn_of_inTime`).

`lastHolder` reads off the log whose `acquireLock` last set a key. The invariant is
`Owned` : a key set less than a TTL ago and not yet released is still there, with the
expiry its holder gave it, and nobody has set it since.
-/

set_option autoImplicit false

namespace RealtimeOps

open Interleaving PhaseMachine

/-- The thread whose `acquireLock` last set the key. -/
def lastHolder (log : List (Entry infrastructure Failure Env)) (key : String) : Option ℕ :=
  (log.reverse.find? fun x => acquires x = some key).map Entry.thread

@[simp] theorem lastHolder_append (log : List (Entry infrastructure Failure Env))
    (x : Entry infrastructure Failure Env) (key : String) :
    lastHolder (log ++ [x]) key =
      if acquires x = some key then some x.thread else lastHolder log key := by
  simp only [lastHolder, List.reverse_append, List.reverse_singleton, List.singleton_append,
    List.find?_cons]
  by_cases h : acquires x = some key <;> simp [h]

/-- A `releaseLock` that deletes a key deletes the one its own execution set. -/
def DeletesOwn (s : State) : Label → Prop :=
  Answers s fun i _ op => ∀ key ∈ op.deletes, (s.world.locks.lookup key).isSome →
    lastHolder s.log key = some i

/-- The moves of a run in which Redis answers. A key may run out whenever its TTL has. -/
abbrev RedisTimed (s : State) : Label → Prop :=
  Answers s fun _ e op => op.redis = true → (handle e op s.world).1.isOk = true

/-- A `releaseLock` comes within the TTL of its execution's own `acquireLock`, or finds no
key. -/
abbrev InTime (s : State) : Label → Prop :=
  Answers s fun i e op => ∀ key ∈ op.deletes, s.world.locks.lookup key = none ∨
    ∃ x ∈ s.past i, acquires x = some key ∧ e.now < x.env.now + 1000 * 60

/-- A key set less than a TTL ago and not released by its holder is the holder's. -/
structure Owned (s : State) (A : Multiset JobLocal) : Prop where
  trace : ∀ l ∈ A, LockTrace l
  own : ∀ i key, ∀ x ∈ s.past i, acquires x = some key → key ∉ released (s.past i) →
    s.world.clock < x.env.now + 1000 * 60 →
      s.world.store.locks.lookup key = some ⟨key, x.env.now + 1000 * 60⟩ ∧
        lastHolder s.log key = some i

/-- What an answered call adds to the past of a thread. -/
theorem mem_past_append {s s' : State} {x y : Entry infrastructure Failure Env} {k : ℕ}
    (hlog : s'.log = s.log ++ [x]) (hy : y ∈ s'.past k) :
    y ∈ s.past k ∨ y = x ∧ x.thread = k := by
  rw [Pool.past_append hlog] at hy
  split_ifs at hy with hk <;> simp_all

theorem Owned.turn {s s' : State} {A A' : Multiset JobLocal} {m : Label} (hO : Owned s A)
    (hm : RedisTimed s m) (htime : InTime s m) (ht : Turn s A m s' A') : Owned s' A' := by
  refine ⟨lockTrace_turn ht hO.trace, ?_⟩
  cases ht with
  | start => exact hO.own
  | deliver _ hn hclock hw =>
    intro i key x hx ha hr hlt
    obtain ⟨h, hlast⟩ := hO.own i key x hx ha hr (hclock ▸ hlt)
    exact ⟨by simpa [Pool.spawn, hw] using h, hlast⟩
  | redeliver _ hd hclock hw =>
    intro i key x hx ha hr hlt
    obtain ⟨h, hlast⟩ := hO.own i key x hx ha hr (hclock ▸ hlt)
    exact ⟨by simpa [hw] using h, hlast⟩
  | stop => exact hO.own
  | @expire _ key now lock w hlock hexp hnow hclock hw =>
    intro i key' x hx ha hr hlt
    replace hlt : now < x.env.now + 1000 * 60 := hclock ▸ hlt
    obtain ⟨h, hlast⟩ := hO.own i key' x hx ha hr (hnow.trans_lt hlt)
    refine ⟨?_, hlast⟩
    rw [hw, Table.lookup_erase, if_neg]
    · exact h
    · rintro rfl
      rw [hlock] at h
      cases h
      exact absurd hexp (Nat.not_le.mpr hlt)
  | @step _ i e op l q rest hop hpast hlog hnow hclock hmove =>
    intro k key x hx ha hr hlt
    replace hlt : e.now < x.env.now + 1000 * 60 := hclock ▸ hlt
    have hrel : key ∉ released (s.past k) := fun h => hr (by
      rw [released, Pool.past_append hlog, List.filterMap_append]
      exact List.mem_append_left _ h)
    have hlast : lastHolder s'.log key =
        if acquires (entry s i e op) = some key then some i else lastHolder s.log key := by
      rw [hlog, lastHolder_append]
      rfl
    rw [hlast]
    have hkept : acquires (entry s i e op) = none → s'.world.store.locks = s.world.store.locks →
        s'.world.store.locks.lookup key = some ⟨key, x.env.now + 1000 * 60⟩ ∧
          (if acquires (entry s i e op) = some key then some i else lastHolder s.log key) =
            some k := by
      intro hset hlocks
      rw [hset, hlocks]
      obtain hx | ⟨rfl, rfl⟩ := mem_past_append hlog hx
      · simpa using hO.own k key x hx ha hrel (hnow.trans_lt hlt)
      · cases hset.symm.trans ha
    obtain ⟨reply, hreply, hk⟩ | ⟨hredis, hlocks, -⟩ := hmove.keyChange (hm _ hop)
    · have hentry : entry s i e op = ⟨i, e, op, .ok reply⟩ := by rw [entry, hreply]
      cases hk with
      | set jobId _ _ hset _ hins =>
        replace hset : acquires (entry s i e op) = some (lockKey jobId) := hentry ▸ hset i
        rw [hset, Table.lookup_insert hins]
        obtain hx | ⟨rfl, rfl⟩ := mem_past_append hlog hx
        · -- The key was free, so it is not one that somebody still owns.
          obtain ⟨h, hown⟩ := hO.own k key x hx ha hrel (hnow.trans_lt hlt)
          have hne : lockKey jobId ≠ key := by
            rintro rfl
            rw [Table.lookup_eq_none.mpr (Table.insert_eq_some hins).2] at h
            cases h
          simp [hne, h, hown]
        · cases hset.symm.trans ha
          simp [entry]
      | dropped jobId hq _ hset hdel hc =>
        replace hset : acquires (entry s i e op) = none := hentry ▸ hset i
        replace hdel : releases (entry s i e op) = some (lockKey jobId) := hentry ▸ hdel i
        obtain hx | ⟨rfl, rfl⟩ := mem_past_append hlog hx
        · obtain ⟨h, hown⟩ := hO.own k key x hx ha hrel (hnow.trans_lt hlt)
          have hne : lockKey jobId ≠ key := by
            rintro rfl
            -- In time, the key dropped is the one its own execution set, and `k` owns it.
            obtain hnone | ⟨y, hy, hya, hylt⟩ := htime op hop _ hdel
            · cases h.symm.trans hnone
            · have hfresh : lockKey jobId ∉ released (s.past i) := by
                rw [← hpast, ((hO.trace l (by simp)).holder jobId (by rw [hq]; rfl)).2]
                exact List.not_mem_nil
              obtain ⟨-, hown'⟩ := hO.own i _ y hy hya hfresh (hnow.trans_lt hylt)
              obtain rfl : k = i := Option.some.inj (hown.symm.trans hown')
              refine hr ?_
              rw [past_step hlog, released_append, hdel]
              simp
          rw [hset, hc, Table.lookup_erase, if_neg hne]
          simp [h, hown]
        · cases hset.symm.trans ha
      | kept hset _ _ _ hc => exact hkept (hentry ▸ hset i) hc
    · exact hkept (acquires_eq_none hredis) hlocks

/-- An execution slower than the TTL deletes the key of the one that came after it. -/
theorem not_deletesOwn : ¬∀ s m s', Reachable step RedisTimed (State.init .empty) s →
    RedisTimed s m → step s m = some s' → DeletesOwn s m := by
  intro hall
  -- Job 1 is created; thread 1 acquires at 100 and saves its attempt a minute later; the key
  -- runs out at 60100 and thread 2 acquires at 60200.
  obtain ⟨s, hs, hdel, hset, hlast, hm, hstep⟩ :
      ∃ s, Reachable step RedisTimed (State.init .empty) s ∧
        s.awaited 1 = some (.del (lockKey 1)) ∧ (s.world.locks.lookup (lockKey 1)).isSome ∧
        lastHolder s.log (lockKey 1) = some 2 ∧ RedisTimed s (.step 1 ⟨60400, 0, .resolves⟩) ∧
        (step s (.step 1 ⟨60400, 0, .resolves⟩)).isSome :=
    exists_reachable_of_execute _
      (.start (.create ⟨"ingest", "batch", [], 1, 3, "alice"⟩) :: calls 0 7 1 ++
        [.start (.process ⟨1, "created", "alice"⟩), .start (.process ⟨1, "retry", "alice"⟩)] ++
        calls 1 9 100 ++ [.expire (lockKey 1) 60100] ++ calls 2 1 60200 ++ calls 1 6 60300)
      _ (by decide)
  obtain ⟨s', hs'⟩ := Option.isSome_iff_exists.mp hstep
  have := hall s _ s' hs hm hs' _ hdel (lockKey 1) rfl hset
  rw [hlast] at this
  cases this

/-- In every run in which each release comes within the TTL of its own acquire or finds no
key, an execution deletes only the key it set. -/
theorem deletesOwn_of_inTime {w : World} {s s' : State} {m : Label}
    (h : Reachable step (fun s m => RedisTimed s m ∧ InTime s m) (State.init w) s)
    (hm : RedisTimed s m) (htime : InTime s m) (hs : step s m = some s') : DeletesOwn s m := by
  obtain ⟨A, hA, hO⟩ := jobs_invariant (I := Owned) (w := w)
    ⟨by simp, by simp [State.init, Pool.past]⟩
    (fun s A m s' A' hA hO hm ht => hO.turn hm.1 hm.2 ht) h
  obtain ⟨A', ht, -⟩ := turn_of_step hA hs
  cases ht with
  | @step _ i e op l q rest hop hpast hlog hnow hclock hmove =>
    intro op' hop' key hdel hset
    obtain rfl : op = op' := Option.some.inj (hop.symm.trans hop')
    obtain ⟨x, hx, ha, hlt⟩ :=
      (htime op hop key hdel).resolve_left (Option.isSome_iff_ne_none.mp hset)
    refine (hO.own i key x hx ha ?_ (hnow.trans_lt hlt)).2
    obtain rfl := Op.deletes_eq_some.mp hdel
    obtain ⟨reply, hreply, hk⟩ | ⟨hredis, -⟩ := hmove.keyChange (hm _ hop)
    · cases hk with
      | set _ _ _ ha => cases ha i
      | dropped jobId hq =>
        rw [← hpast, ((hO.trace l (by simp)).holder jobId (by rw [hq]; rfl)).2]
        exact List.not_mem_nil
      | kept _ hr => cases hr i
    · cases hredis
  | _ => trivial

/-- Two executions one after the other, the second of which is about to release its key. -/
theorem deletesOwn_second : ∃ s : State, s.awaited 1 = some (.del (lockKey 7)) ∧
    (s.world.locks.lookup (lockKey 7)).isSome ∧ lastHolder s.log (lockKey 7) = some 1 := by
  obtain ⟨s, hs, hdel, hset, hm, htime, hstep⟩ :
      ∃ s, Reachable step (fun s m => RedisTimed s m ∧ InTime s m) (State.init .empty) s ∧
        s.awaited 1 = some (.del (lockKey 7)) ∧ (s.world.locks.lookup (lockKey 7)).isSome ∧
        RedisTimed s (.step 1 ⟨90000, 0, .resolves⟩) ∧ InTime s (.step 1 ⟨90000, 0, .resolves⟩) ∧
        (step s (.step 1 ⟨90000, 0, .resolves⟩)).isSome :=
    exists_reachable_of_execute _
      ([.start (.process ⟨7, "created", "alice"⟩), .start (.process ⟨7, "retry", "bob"⟩)] ++
        calls 0 3 100 ++ calls 1 2 50000) _ (by decide)
  obtain ⟨s', hs'⟩ := Option.isSome_iff_exists.mp hstep
  exact ⟨s, hdel, hset, deletesOwn_of_inTime hs hm htime hs' _ hdel _ rfl hset⟩

end RealtimeOps
