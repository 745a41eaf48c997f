import RealtimeOps.RateLimit

/-!
# Fixed windows

What the limiter is for, read off the order of its calls alone : the first `INCR` of a key opens a
window, the `EXPIRE` of the request that opened it closes it so many seconds later, and the first
`INCR` after that opens the next (`Window.read`). As long as no call fails, the counter in Redis is
that of the window (`Windowed`), the first `maxRequests` requests of a window are admitted and all
others are rejected (`fixed_window`).
-/

set_option autoImplicit false

namespace RealtimeOps

open Interleaving

/-! ## Windows -/

/-- The requests that have incremented the counter of a key, in order, and when the key goes. -/
structure Window where
  hits : List ℕ
  closes : Option Date
  deriving DecidableEq

/-- The key is gone. -/
def Window.over (now : Date) (w : Window) : Bool :=
  w.closes.any fun t => t ≤ now

/-- Request `i` increments the counter. -/
def Window.hit (now : Date) (i : ℕ) : List Window → List Window
  | [] => [⟨[i], none⟩]
  | w :: ws =>
    if w.over now then ⟨[i], none⟩ :: w :: ws else { w with hits := w.hits ++ [i] } :: ws

/-- Request `i` sets the TTL. Only the request that has opened a window closes it, and once. -/
def Window.close (time : Date) (i : ℕ) : List Window → List Window
  | [] => []
  | w :: ws =>
    if w.closes = none ∧ w.hits.head? = some i then { w with closes := some time } :: ws
    else w :: ws

/-- The windows of a key after one more answered call, the latest first. -/
def Window.read (windowSeconds : ℕ) (key : String) (ws : List Window)
    (x : Entry counting HttpFailure Env) : List Window :=
  match x.op with
  | .incr k => if k = key then hit x.env.now x.thread ws else ws
  | .expire k _ => if k = key then close (x.env.now + 1000 * windowSeconds) x.thread ws else ws

namespace RedisRateLimitGuard

/-- The windows of a key in a run, the latest first. -/
def windows (guard : RedisRateLimitGuard) (key : String) (s : Limiter) : List Window :=
  s.log.foldl (Window.read guard.windowSeconds key) []

/-- What is left of the latest window at a time, as a counter. -/
def current (guard : RedisRateLimitGuard) (key : String) (s : Limiter) (now : Date) :
    Option Counter :=
  ((guard.windows key s).head?.filter fun w => !w.over now).map fun w =>
    ⟨w.hits.length, w.closes⟩

/-- A move of a run in which no call of Redis fails. -/
def Smooth : LimiterMove → Prop
  | .step _ e => e.outcome = .resolves
  | .request _ _ => True
  | .stop _ => False

instance : DecidablePred Smooth
  | .step _ _ => inferInstanceAs (Decidable (_ = _))
  | .request _ _ => .isTrue trivial
  | .stop _ => .isFalse id

/-- Request `i` has incremented the counter of the key. -/
def Placed (guard : RedisRateLimitGuard) (key : String) (s : Limiter) (i : ℕ) : Prop :=
  ∃ w ∈ guard.windows key s, i ∈ w.hits

/-- Request `i` with this context came in a run to `s` in which no call fails. -/
def Came (guard : RedisRateLimitGuard) (s : Limiter) (i : ℕ) (context : ExecutionContext) : Prop :=
  ∃ s₀ s₁, Reachable guard.step (fun _ m => Smooth m) Limiter.init s₀ ∧
    guard.step s₀ (.request i context) = some s₁ ∧
    Reachable guard.step (fun _ m => Smooth m) s₁ s

/-- The limiter as it is meant to be. -/
structure FixedWindow (guard : RedisRateLimitGuard) (key : String) (s : Limiter) : Prop where
  /-- The counter in Redis is that of the window, from now on. -/
  counter : ∀ now, s.world.clock ≤ now → s.world.get now key = guard.current key s now
  /-- The `n`-th request of a window is admitted if and only if `n < maxRequests`. -/
  decided : ∀ w ∈ guard.windows key s, ∀ n i, w.hits[n]? = some i → ∀ r, s.outcome i = some r →
    r = if n < guard.maxRequests then .ok true
      else .error (.tooManyRequests "Rate limit exceeded")
  /-- A request that opens a window is admitted. -/
  first : ∀ w ∈ guard.windows key s, ∀ i, w.hits.head? = some i → ∀ r, s.outcome i = some r →
    r = .ok true
  /-- A window without an end is the latest, and the request that opened it has its `EXPIRE` to
  call. -/
  closing : ∀ w ∈ guard.windows key s, w.closes = none → (guard.windows key s).head? = some w ∧
    ∃ i, w.hits.head? = some i ∧ s.awaited i = some (.expire key guard.windowSeconds)
  /-- No request of the key is decided without a place in a window, unless its route is public. -/
  placed : ∀ i context, guard.Came s i context → context.isPublic = false →
    rateLimitKey context.request = key → (s.outcome i).isSome → guard.Placed key s i

/-! ## The programs follow the windows -/

/-- What is left to do for the `n`-th request of a window. -/
def rest (guard : RedisRateLimitGuard) (key : String) (w : Window) (n : ℕ) :
    Prog counting HttpFailure Bool :=
  if w.closes = none then guard.counted key (n + 1) else guard.verdict (n + 1)

/-- The counters are those of the windows, and each request does what its place asks. -/
structure Windowed (guard : RedisRateLimitGuard) (s : Limiter) : Prop where
  counter : ∀ key now, s.world.clock ≤ now → s.world.get now key = guard.current key s now
  older : ∀ key, ∀ w ∈ (guard.windows key s).tail, w.closes.isSome
  nonempty : ∀ key, ∀ w ∈ guard.windows key s, w.hits ≠ []
  rest : ∀ key, ∀ w ∈ guard.windows key s, ∀ (n : ℕ) i, w.hits[n]? = some i →
    s.threads i = some (guard.rest key w n)
  threads : ∀ i p, s.threads i = some p →
    (∃ context, p = guard.canActivate context) ∧ (∀ key, ¬guard.Placed key s i) ∨
      ∃ key, guard.Placed key s i

section Windows

variable {guard : RedisRateLimitGuard} {s s' : Limiter} {i : ℕ} {key : String}

theorem windows_append {x : Entry counting HttpFailure Env} (h : s'.log = s.log ++ [x])
    (key : String) :
    guard.windows key s' = Window.read guard.windowSeconds key (guard.windows key s) x := by
  rw [windows, h, List.foldl_concat, windows]

/-- A request with a place has a program, which is not the whole one. -/
theorem Windowed.of_placed (h : Windowed guard s) (hi : guard.Placed key s i) :
    ∃ w ∈ guard.windows key s, ∃ n : ℕ, w.hits[n]? = some i ∧
      s.threads i = some (guard.rest key w n) := by
  obtain ⟨w, hw, hmem⟩ := hi
  obtain ⟨n, hn⟩ := List.mem_iff_getElem?.mp hmem
  exact ⟨w, hw, n, hn, h.rest key w hw n i hn⟩

/-- A call of request `i` on the key : the rest is as it was. -/
theorem Windowed.of_call (h : Windowed guard s) {p : Prog counting HttpFailure Bool}
    (hclock : s.world.clock ≤ s'.world.clock)
    (hthreads : s'.threads = Function.update s.threads i (some p))
    (hother : ∀ k, k ≠ key → guard.windows k s' = guard.windows k s ∧ ¬guard.Placed k s i ∧
      s'.world.counters k = s.world.counters k)
    (hcounter : ∀ now, s'.world.clock ≤ now → s'.world.get now key = guard.current key s' now)
    (holder : ∀ w ∈ (guard.windows key s').tail, w.closes.isSome)
    (hnonempty : ∀ w ∈ guard.windows key s', w.hits ≠ [])
    (hrest : ∀ w ∈ guard.windows key s', ∀ (n : ℕ) j, w.hits[n]? = some j →
      s'.threads j = some (guard.rest key w n))
    (hplaced : ∀ j, guard.Placed key s' j ↔ guard.Placed key s j ∨ j = i) : Windowed guard s' := by
  have hplaced' : ∀ k j, j ≠ i → (guard.Placed k s' j ↔ guard.Placed k s j) := fun k j hj => by
    by_cases hk : k = key
    · rw [hk, hplaced, or_iff_left hj]
    · rw [Placed, (hother k hk).1, Placed]
  refine ⟨fun k now hnow => ?_, fun k => ?_, fun k => ?_, fun k w hw n j hj => ?_,
    fun j q hq => ?_⟩
  · by_cases hk : k = key
    · rw [hk, hcounter now hnow]
    · rw [Redis.get, (hother k hk).2.2, current, (hother k hk).1]
      exact h.counter k now (hclock.trans hnow)
  · by_cases hk : k = key
    · exact hk ▸ holder
    · rw [(hother k hk).1]
      exact h.older k
  · by_cases hk : k = key
    · exact hk ▸ hnonempty
    · rw [(hother k hk).1]
      exact h.nonempty k
  · by_cases hk : k = key
    · subst hk
      exact hrest w hw n j hj
    · rw [(hother k hk).1] at hw
      have hji : j ≠ i := by
        rintro rfl
        exact (hother k hk).2.1 ⟨w, hw, List.mem_of_getElem? hj⟩
      rw [hthreads, Function.update_of_ne hji]
      exact h.rest k w hw n j hj
  · by_cases hji : j = i
    · exact .inr ⟨key, (hplaced j).mpr (.inr hji)⟩
    · rw [hthreads, Function.update_of_ne hji] at hq
      rcases h.threads j q hq with ⟨hprog, hno⟩ | ⟨k, hk⟩
      · exact .inl ⟨hprog, fun k hk => hno k ((hplaced' k j hji).mp hk)⟩
      · exact .inr ⟨k, (hplaced' k j hji).mpr hk⟩

/-- Without a window that is left, a request opens one. -/
theorem hit_of_none {now : Date} (h : guard.current key s now = none) :
    Window.hit now i (guard.windows key s) = ⟨[i], none⟩ :: guard.windows key s ∧
      ∀ w ∈ (guard.windows key s).head?, w.over now = true := by
  unfold current at h
  cases hws : guard.windows key s with
  | nil => exact ⟨rfl, by simp⟩
  | cons w ws =>
    rw [hws] at h
    have hover : w.over now = true := by simpa using h
    exact ⟨by rw [Window.hit, if_pos hover], by simpa using hover⟩

/-- A request joins the window that is left. -/
theorem hit_of_some {now : Date} {c : Counter} (h : guard.current key s now = some c) :
    ∃ w ws, guard.windows key s = w :: ws ∧ c = ⟨w.hits.length, w.closes⟩ ∧
      Window.hit now i (guard.windows key s) = { w with hits := w.hits ++ [i] } :: ws := by
  unfold current at h
  cases hws : guard.windows key s with
  | nil => simp [hws] at h
  | cons w ws =>
    rw [hws] at h
    obtain ⟨hover, rfl⟩ : w.over now = false ∧ ⟨w.hits.length, w.closes⟩ = c := by simpa using h
    exact ⟨w, ws, rfl, rfl, by rw [Window.hit, if_neg (by simp [hover])]⟩

/-- The counter is that of the latest window. -/
theorem counter_eq_current {w : Window} {ws : List Window} (hws : guard.windows key s' = w :: ws)
    {r : Redis} (hr : s'.world = r.set key ⟨w.hits.length, w.closes⟩) (now : Date) :
    s'.world.get now key = guard.current key s' now := by
  rw [hr, Redis.get_set, current, hws, List.head?_cons]
  have hoverdue : Counter.overdue now ⟨w.hits.length, w.closes⟩ = w.over now := rfl
  cases hover : w.over now <;> simp [Option.filter, hover, hoverdue]

theorem current_eq_get (h : Windowed guard s) {now : Date} (hnow : s.world.clock ≤ now)
    (key : String) : guard.current key s now = s.world.get now key :=
  (h.counter key now hnow).symm

/-- Once the latest window is over, all have an end. -/
theorem Windowed.closed_of_over (h : Windowed guard s) {now : Date}
    (hover : ∀ w ∈ (guard.windows key s).head?, w.over now = true) :
    ∀ w ∈ guard.windows key s, w.closes.isSome := by
  have holder := h.older key
  cases hws : guard.windows key s with
  | nil => simp
  | cons w ws =>
    rw [hws] at hover holder
    refine List.forall_mem_cons.mpr ⟨?_, holder⟩
    obtain ⟨t, ht, -⟩ := (Option.any_eq_true _ _).mp (hover w rfl)
    rw [ht]
    rfl

/-- Request `i`, which has no place yet, increments the counter. -/
theorem Windowed.incr (h : Windowed guard s) {e : Env} (hnow : s.world.clock ≤ e.now)
    (hi : ∀ k, ¬guard.Placed k s i) {reply : Except HttpFailure ℕ}
    (hworld : s'.world = (({ s.world with clock := e.now } : Redis).perform e.now (.incr key)).2)
    (hlog : s'.log = s.log ++ [⟨i, e, .incr key, reply⟩])
    (hthreads : s'.threads = Function.update s.threads i (some (guard.counted key
      (({ s.world with clock := e.now } : Redis).perform e.now (.incr key)).1))) :
    Windowed guard s' := by
  have hclock : s'.world.clock = e.now := by rw [hworld, Redis.clock_perform]
  have hother : ∀ k, k ≠ key → guard.windows k s' = guard.windows k s ∧ ¬guard.Placed k s i ∧
      s'.world.counters k = s.world.counters k := fun k hk => by
    refine ⟨?_, hi k, ?_⟩
    · rw [windows_append hlog, Window.read]
      exact if_neg (Ne.symm hk)
    · rw [hworld, Redis.counters_perform_of_ne hk]
  have hwindows : guard.windows key s' = Window.hit e.now i (guard.windows key s) := by
    rw [windows_append hlog, Window.read]
    exact if_pos rfl
  have hget : ({ s.world with clock := e.now } : Redis).get e.now key =
      guard.current key s e.now := (current_eq_get h hnow key).symm
  have hfree : ∀ w ∈ guard.windows key s, ∀ (n : ℕ) j, w.hits[n]? = some j → j ≠ i := by
    rintro w hw n j hj rfl
    exact hi key ⟨w, hw, List.mem_of_getElem? hj⟩
  have hold : ∀ w ∈ guard.windows key s, ∀ (n : ℕ) j, w.hits[n]? = some j →
      s'.threads j = some (guard.rest key w n) := fun w hw n j hj => by
    rw [hthreads, Function.update_of_ne (hfree w hw n j hj)]
    exact h.rest key w hw n j hj
  cases hcurrent : guard.current key s e.now with
  | none =>
    rw [hcurrent] at hget
    obtain ⟨hhit, hover⟩ := hit_of_none hcurrent
    rw [hhit] at hwindows
    simp only [Redis.perform, hget] at hworld hthreads
    refine h.of_call (hclock ▸ hnow) hthreads hother
      (fun now _ => counter_eq_current hwindows hworld now) ?_ ?_ ?_ ?_
    · rw [hwindows, List.tail_cons]
      exact h.closed_of_over hover
    · rw [hwindows]
      exact List.forall_mem_cons.mpr ⟨by simp, h.nonempty key⟩
    · rw [hwindows]
      refine List.forall_mem_cons.mpr ⟨fun n j hj => ?_, hold⟩
      obtain ⟨rfl, rfl⟩ : n = 0 ∧ i = j := by simpa [List.getElem?_singleton] using hj
      rw [hthreads, Function.update_self]
      rfl
    · intro j
      rw [Placed, hwindows]
      simp [Placed, or_comm]
  | some c =>
    rw [hcurrent] at hget
    obtain ⟨w, ws, hws, rfl, hhit⟩ := hit_of_some hcurrent
    rw [hhit] at hwindows
    simp only [Redis.perform, hget] at hworld hthreads
    have hr : s'.world = Redis.set key ⟨(w.hits ++ [i]).length, w.closes⟩
        { s.world with clock := e.now } := by
      rw [hworld, List.length_append, List.length_singleton]
    have hmem : w ∈ guard.windows key s := by simp [hws]
    refine h.of_call (hclock ▸ hnow) hthreads hother
      (fun now _ => counter_eq_current hwindows hr now) ?_ ?_ ?_ ?_
    · have := h.older key
      rw [hws] at this
      rw [hwindows]
      exact this
    · rw [hwindows]
      refine List.forall_mem_cons.mpr ⟨by simp, fun w' hw' => h.nonempty key w' ?_⟩
      rw [hws]
      exact List.mem_cons_of_mem _ hw'
    · rw [hwindows]
      refine List.forall_mem_cons.mpr ⟨fun n j hj => ?_, fun w' hw' => hold w' ?_⟩
      · rcases Nat.lt_or_ge n w.hits.length with hn | hn
        · rw [List.getElem?_append_left hn] at hj
          exact hold w hmem n j hj
        · obtain ⟨hn', rfl⟩ : n - w.hits.length = 0 ∧ i = j := by
            rw [List.getElem?_append_right hn] at hj
            simpa [List.getElem?_singleton] using hj
          obtain rfl : n = w.hits.length := by omega
          have hpos := List.length_pos_iff.mpr (h.nonempty key w hmem)
          rw [hthreads, Function.update_self, RedisRateLimitGuard.rest,
            guard.counted_succ key hpos.ne', ite_self]
      · rw [hws]
        exact List.mem_cons_of_mem _ hw'
    · intro j
      rw [Placed, hwindows, Placed, hws]
      simp only [List.exists_mem_cons_iff, List.mem_append, List.mem_singleton]
      exact or_right_comm

/-- The request that opened the latest window sets its TTL. -/
theorem Windowed.expire (h : Windowed guard s) {e : Env} (hnow : s.world.clock ≤ e.now)
    {w : Window} {ws : List Window} (hws : guard.windows key s = w :: ws)
    (hcloses : w.closes = none)
    (hi : w.hits.head? = some i) {reply : Except HttpFailure Bool}
    (hother : ∀ k, k ≠ key → ¬guard.Placed k s i)
    (hworld : s'.world = (({ s.world with clock := e.now } : Redis).perform e.now
      (.expire key guard.windowSeconds)).2)
    (hlog : s'.log = s.log ++ [⟨i, e, .expire key guard.windowSeconds, reply⟩])
    (hthreads : s'.threads = Function.update s.threads i (some (guard.verdict 1))) :
    Windowed guard s' := by
  have hclock : s'.world.clock = e.now := by rw [hworld, Redis.clock_perform]
  have hwindows : guard.windows key s' =
      { w with closes := some (e.now + 1000 * guard.windowSeconds) } :: ws := by
    rw [windows_append hlog, hws]
    exact (if_pos rfl).trans (if_pos ⟨hcloses, hi⟩)
  have hget : ({ s.world with clock := e.now } : Redis).get e.now key =
      some ⟨w.hits.length, none⟩ := by
    refine (h.counter key e.now hnow).trans ?_
    simp [current, hws, Window.over, hcloses]
  simp only [Redis.perform, hget] at hworld
  have hmem : w ∈ guard.windows key s := by simp [hws]
  have hpending : s.threads i = some (guard.counted key 1) := by
    rw [h.rest key w hmem 0 i (List.head?_eq_getElem? ▸ hi), RedisRateLimitGuard.rest,
      if_pos hcloses]
  -- No other place of the windows is of the request : it would have its verdict there.
  have hother' : ∀ w' ∈ guard.windows key s, ∀ (n : ℕ) j, w'.hits[n]? = some j →
      (w'.closes.isSome ∨ n ≠ 0) → s'.threads j = some (guard.verdict (n + 1)) := by
    intro w' hw' n j hj hlater
    have hverdict : guard.rest key w' n = guard.verdict (n + 1) := by
      rw [RedisRateLimitGuard.rest]
      rcases hlater with hsome | hn
      · rw [if_neg (Option.isSome_iff_ne_none.mp hsome)]
      · rw [guard.counted_succ key hn, ite_self]
    have hj' := h.rest key w' hw' n j hj
    rw [hverdict] at hj'
    have hji : j ≠ i := by
      rintro rfl
      exact guard.verdict_ne_counted key _ (Option.some.inj (hj'.symm.trans hpending))
    rw [hthreads, Function.update_of_ne hji, hj']
  have holder := h.older key
  rw [hws, List.tail_cons] at holder
  have htail : ∀ w' ∈ ws, w' ∈ guard.windows key s := fun w' hw' => by
    rw [hws]
    exact List.mem_cons_of_mem _ hw'
  refine h.of_call (hclock ▸ hnow) hthreads (fun k hk => ⟨?_, hother k hk, ?_⟩)
    (fun now _ => counter_eq_current hwindows hworld now) ?_ ?_ ?_ ?_
  · rw [windows_append hlog, Window.read]
    exact if_neg (Ne.symm hk)
  · rw [hworld]
    exact Function.update_of_ne hk _ _
  · rw [hwindows]
    exact holder
  · rw [hwindows]
    exact List.forall_mem_cons.mpr ⟨h.nonempty key w hmem, fun w' hw' =>
      h.nonempty key w' (htail w' hw')⟩
  · rw [hwindows]
    refine List.forall_mem_cons.mpr ⟨fun n j hj => ?_, fun w' hw' n j hj => ?_⟩
    · rw [RedisRateLimitGuard.rest, if_neg (by simp)]
      by_cases hn : n = 0
      · subst hn
        cases (List.head?_eq_getElem? ▸ hi).symm.trans hj
        rw [hthreads, Function.update_self]
      · exact hother' w hmem n j hj (.inr hn)
    · rw [RedisRateLimitGuard.rest, if_neg (Option.isSome_iff_ne_none.mp (holder w' hw'))]
      exact hother' w' (htail w' hw') n j hj (.inl (holder w' hw'))
  · intro j
    rw [Placed, hwindows, Placed, hws]
    simp only [List.exists_mem_cons_iff]
    refine ⟨.inl, fun hj => hj.elim id ?_⟩
    rintro rfl
    exact .inl (List.mem_of_mem_head? hi)

/-- The one call left after the increment is the `EXPIRE` of the request that opened a window. -/
theorem rest_eq_call {w : Window} {n : ℕ} {op : CounterOp}
    {k : Except HttpFailure op.Reply → Prog counting HttpFailure Bool}
    (h : guard.rest key w n = Prog.call (S := counting) op k) :
    n = 0 ∧ w.closes = none ∧ Prog.call (S := counting) op k = guard.counted key 1 := by
  have hverdict : ∀ count, guard.verdict count ≠ Prog.call (S := counting) op k := fun count => by
    rw [verdict]
    split_ifs <;> simp
  rw [rest] at h
  split_ifs at h with hcloses
  · by_cases hn : n = 0
    · subst hn
      exact ⟨rfl, hcloses, h.symm⟩
    · rw [guard.counted_succ key hn] at h
      exact absurd h (hverdict _)
  · exact absurd h (hverdict _)

/-- A window without an end is the latest. -/
theorem Windowed.eq_cons_of_closes (h : Windowed guard s) {w : Window}
    (hw : w ∈ guard.windows key s) (hcloses : w.closes = none) :
    ∃ ws, guard.windows key s = w :: ws := by
  have holder := h.older key
  cases hws : guard.windows key s with
  | nil => simp [hws] at hw
  | cons w' ws =>
    rw [hws] at hw holder
    rcases List.mem_cons.mp hw with rfl | hw
    · exact ⟨ws, rfl⟩
    · have := holder w hw
      rw [hcloses] at this
      cases this

theorem Windowed.advance (h : Windowed guard s) {e : Env} (hnow : s.world.clock ≤ e.now)
    (ho : e.outcome = .resolves) (hs : s.advance Redis.handle i e = some s') :
    Windowed guard s' := by
  obtain ⟨op, k, hk, rfl⟩ := Named.advance_eq_some hs
  rcases h.threads i _ hk with ⟨⟨context, hprog⟩, hno⟩ | ⟨key, hplaced⟩
  · rw [canActivate_eq] at hprog
    split_ifs at hprog
    cases hprog
    refine h.incr hnow hno ?_ rfl ?_
    · dsimp only
      rw [Redis.handle_resolves ho]
    · dsimp only
      rw [Redis.handle_resolves ho]
      rfl
  · obtain ⟨w, hw, n, hn, hrest⟩ := h.of_placed hplaced
    obtain ⟨rfl, hcloses, hcall⟩ := rest_eq_call (Option.some.inj (hrest.symm.trans hk))
    cases hcall
    obtain ⟨ws, hws⟩ := h.eq_cons_of_closes hw hcloses
    refine h.expire hnow hws hcloses (List.head?_eq_getElem? ▸ hn) (fun k hne hk' => ?_) ?_ rfl ?_
    · obtain ⟨w', -, n', -, hrest'⟩ := h.of_placed hk'
      obtain ⟨-, -, hcall⟩ := rest_eq_call (Option.some.inj (hrest'.symm.trans hk))
      cases hcall
      exact hne rfl
    · dsimp only
      rw [Redis.handle_resolves ho]
    · dsimp only
      rw [Redis.handle_resolves ho]
      rfl

/-- A request that arrives has no place yet. -/
theorem Windowed.spawn (h : Windowed guard s) {context : ExecutionContext}
    (hs : s.spawn i (guard.canActivate context) = some s') : Windowed guard s' := by
  obtain ⟨hfree, rfl⟩ := Named.spawn_eq_some hs
  have hno : ∀ key, ¬guard.Placed key s i := fun key hi => by
    obtain ⟨w, -, n, -, hrest⟩ := h.of_placed hi
    rw [hfree] at hrest
    cases hrest
  refine ⟨h.counter, h.older, h.nonempty, fun key w hw n j hj => ?_, fun j p hp => ?_⟩
  · have hji : j ≠ i := by
      rintro rfl
      exact hno key ⟨w, hw, List.mem_of_getElem? hj⟩
    dsimp only
    rw [Function.update_of_ne hji]
    exact h.rest key w hw n j hj
  · dsimp only at hp
    by_cases hji : j = i
    · subst hji
      rw [Function.update_self] at hp
      cases hp
      exact .inl ⟨⟨context, rfl⟩, hno⟩
    · rw [Function.update_of_ne hji] at hp
      exact h.threads j p hp

theorem Windowed.step (h : Windowed guard s) {m : LimiterMove} (hm : Smooth m)
    (hs : guard.step s m = some s') : Windowed guard s' := by
  cases m with
  | request i context => exact h.spawn hs
  | step i e =>
    rw [RedisRateLimitGuard.step_step] at hs
    exact h.advance hs.1 hm hs.2
  | stop i => exact hm.elim

theorem windowed_init : Windowed guard Limiter.init where
  counter := fun key now _ => rfl
  older := by simp [windows, Limiter.init, Named.init]
  nonempty := by simp [windows, Limiter.init, Named.init]
  rest := by simp [windows, Limiter.init, Named.init]
  threads := by simp [Limiter.init, Named.init]

theorem exists_mem_hit {now : Date} {j : ℕ} : ∀ {ws : List Window},
    (∃ w ∈ Window.hit now j ws, i ∈ w.hits) ↔ (∃ w ∈ ws, i ∈ w.hits) ∨ i = j
  | [] => by simp [Window.hit]
  | w :: ws => by
    rw [Window.hit]
    split_ifs
    · simp [or_comm]
    · simp [or_right_comm]

theorem exists_mem_close {time : Date} {j : ℕ} : ∀ {ws : List Window},
    (∃ w ∈ Window.close time j ws, i ∈ w.hits) ↔ ∃ w ∈ ws, i ∈ w.hits
  | [] => Iff.rfl
  | w :: ws => by
    rw [Window.close]
    split_ifs
    · simp
    · rfl

/-- A place in a window is never lost. -/
theorem Placed.append (h : guard.Placed key s i) {x : Entry counting HttpFailure Env}
    (hlog : s'.log = s.log ++ [x]) : guard.Placed key s' i := by
  rw [Placed, windows_append hlog, Window.read]
  split <;> split_ifs
  · exact exists_mem_hit.mpr (.inl h)
  · exact h
  · exact exists_mem_close.mpr h
  · exact h

/-- A request that is not public is to increment its counter, or has a place. -/
theorem placed_step {context : ExecutionContext} (hpublic : context.isPublic = false)
    (h : s.threads i = some (guard.canActivate context) ∨
      guard.Placed (rateLimitKey context.request) s i)
    {m : LimiterMove} (hm : Smooth m) (hs : guard.step s m = some s') :
    s'.threads i = some (guard.canActivate context) ∨
      guard.Placed (rateLimitKey context.request) s' i := by
  cases m with
  | stop j => exact hm.elim
  | request j context' =>
    obtain ⟨hfree, rfl⟩ := Named.spawn_eq_some hs
    refine h.imp_left fun hi => ?_
    have hne : i ≠ j := by
      rintro rfl
      cases hfree.symm.trans hi
    exact (Function.update_of_ne hne _ _).trans hi
  | step j e =>
    obtain ⟨op, k, hk, rfl⟩ := Named.advance_eq_some (step_step.mp hs).2
    rcases h with hi | hi
    · by_cases hij : i = j
      · subst hij
        rw [hi, canActivate_eq, hpublic, if_neg Bool.false_ne_true] at hk
        cases hk
        refine .inr ?_
        rw [Placed, windows_append rfl, Window.read]
        dsimp only
        rw [if_pos rfl]
        exact exists_mem_hit.mpr (.inr rfl)
      · exact .inl ((Function.update_of_ne hij _ _).trans hi)
    · exact .inr (hi.append rfl)

/-- Who was decided has a place. -/
theorem Came.placed {context : ExecutionContext} (h : guard.Came s i context)
    (hpublic : context.isPublic = false) (hi : (s.outcome i).isSome) :
    guard.Placed (rateLimitKey context.request) s i := by
  obtain ⟨s₀, s₁, -, hs, hrun⟩ := h
  obtain ⟨-, rfl⟩ := Named.spawn_eq_some hs
  obtain ⟨r, hr⟩ := Option.isSome_iff_exists.mp hi
  refine Or.resolve_left (hrun.invariant (fun _ _ _ h hm hs => placed_step hpublic h hm hs)
    (.inl (Function.update_self _ _ _))) fun hwaits => ?_
  rw [Named.outcome_eq_some.mp hr, canActivate_eq, hpublic, if_neg Bool.false_ne_true] at hwaits
  cases r <;> cases hwaits

/-- How a request of a window ended. -/
theorem Windowed.outcome (h : Windowed guard s) {w : Window} (hw : w ∈ guard.windows key s) {n : ℕ}
    (hn : w.hits[n]? = some i) {r : Except HttpFailure Bool} (hr : s.outcome i = some r) :
    r = if n < guard.maxRequests then .ok true
      else .error (.tooManyRequests "Rate limit exceeded") := by
  have hrest := h.rest key w hw n i hn
  rw [Named.outcome_eq_some.mp hr, Option.some.injEq] at hrest
  have hverdict : Prog.resolve r = guard.verdict (n + 1) := by
    rw [hrest, RedisRateLimitGuard.rest]
    split_ifs with hcloses
    · by_cases h0 : n = 0
      · subst h0
        rw [RedisRateLimitGuard.rest, if_pos hcloses] at hrest
        cases r <;> cases hrest
      · exact guard.counted_succ key h0
    · rfl
  rw [verdict] at hverdict
  by_cases hlt : n < guard.maxRequests
  · rw [if_neg (by omega)] at hverdict
    rw [if_pos hlt]
    cases r <;> cases hverdict
    rfl
  · rw [if_pos (by omega)] at hverdict
    rw [if_neg hlt]
    cases r <;> cases hverdict
    rfl

/-- The limiter counts in fixed windows : in every run in which no call fails, of any requests
with their calls in any order, the counter of each key is that of its window, the first
`maxRequests` requests of each window are admitted and the others are rejected. No request but
those to public routes is decided without a place in a window. -/
theorem fixed_window (hmax : 1 ≤ guard.maxRequests)
    (h : Reachable guard.step (fun _ m => Smooth m) Limiter.init s) (key : String) :
    guard.FixedWindow key s := by
  have hwindowed : Windowed guard s :=
    Reachable.invariant (fun _ _ _ hs hm hstep => hs.step hm hstep) windowed_init h
  refine ⟨hwindowed.counter key, fun w hw n i hn r hr => hwindowed.outcome hw hn hr,
    fun w hw i hi r hr => ?_, fun w hw hcloses => ?_, ?_⟩
  · rw [hwindowed.outcome hw (List.head?_eq_getElem? ▸ hi) hr]
    exact if_pos hmax
  · obtain ⟨ws, hws⟩ := hwindowed.eq_cons_of_closes hw hcloses
    obtain ⟨i, hi⟩ : ∃ i, w.hits.head? = some i := by
      obtain ⟨i, hits, hw⟩ := List.exists_cons_of_ne_nil (hwindowed.nonempty key w hw)
      exact ⟨i, by rw [hw, List.head?_cons]⟩
    refine ⟨by rw [hws, List.head?_cons], i, hi, ?_⟩
    have hrest := hwindowed.rest key w hw 0 i (List.head?_eq_getElem? ▸ hi)
    rw [RedisRateLimitGuard.rest, if_pos hcloses] at hrest
    exact Named.awaited_eq_some.mpr ⟨_, hrest⟩
  · rintro i context hcame hpublic rfl hi
    exact hcame.placed hpublic hi

/-- Two requests share a window of one request, and a third comes when it is over. -/
theorem fixed_window_three :
    let request : Request := ⟨⟨.absent, .absent⟩, some "::1", "GET", none, "/api/v1/jobs"⟩
    let guard : RedisRateLimitGuard := ⟨1, 60⟩
    ∃ s, guard.FixedWindow (rateLimitKey request) s ∧
      guard.windows (rateLimitKey request) s = [⟨[2], some 120008⟩, ⟨[0, 1], some 60007⟩] ∧
      s.outcome 1 = some (.error (.tooManyRequests "Rate limit exceeded")) ∧
      s.outcome 2 = some (.ok true) := by
  intro request guard
  obtain ⟨s, hs, hwindows, h1, h2⟩ :
      ∃ s, Reachable guard.step (fun _ m => Smooth m) Limiter.init s ∧
        guard.windows (rateLimitKey request) s = [⟨[2], some 120008⟩, ⟨[0, 1], some 60007⟩] ∧
        s.outcome 1 = some (.error (.tooManyRequests "Rate limit exceeded")) ∧
        s.outcome 2 = some (.ok true) :=
    exists_reachable_of_execute _
      [.request 0 ⟨false, request⟩, .request 1 ⟨false, request⟩, .step 0 ⟨5, 0, .resolves⟩,
        .step 1 ⟨6, 0, .resolves⟩, .step 0 ⟨7, 0, .resolves⟩, .request 2 ⟨false, request⟩,
        .step 2 ⟨60007, 0, .resolves⟩, .step 2 ⟨60008, 0, .resolves⟩] _ (by decide)
  exact ⟨s, fixed_window (by decide) hs _, hwindows, h1, h2⟩

end Windows

end RedisRateLimitGuard

end RealtimeOps
