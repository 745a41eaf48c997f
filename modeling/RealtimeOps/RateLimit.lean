import RealtimeOps.ApiGateway
import RealtimeOps.Interleaving.Named

/-!
# The rate limiter

`RedisRateLimitGuard` over the counters of Redis. A counter whose TTL has run out is not there any
more, whoever looks : `Redis.get` at a time finds the counters that are left by then. `INCR`
creates a counter without a TTL, and `EXPIRE` gives it one in a call of its own.

Requests are threads with names over one Redis. Each call may be rejected, before or after its
effect, and a process may die at any call of a request.
-/

set_option autoImplicit false

namespace RealtimeOps

open Interleaving

/-! ## Redis -/

/-- The value of a key, and the time its TTL runs out if it has one. -/
structure Counter where
  count : ℕ
  expiresAt : Option Date
  deriving DecidableEq

/-- The TTL has run out. -/
def Counter.overdue (now : Date) (c : Counter) : Bool :=
  c.expiresAt.any fun t => t ≤ now

/-- The counters of the rate limiter and the time of the last answer. -/
structure Redis where
  counters : String → Option Counter
  clock : Date

/-- The calls of the guard. -/
inductive CounterOp where
  | incr (key : String)
  | expire (key : String) (seconds : ℕ)
  deriving DecidableEq

/-- The key a call is about. -/
def CounterOp.key : CounterOp → String
  | incr key | expire key _ => key

/-- `INCR` answers the new count, `EXPIRE` whether there was a key. -/
abbrev CounterOp.Reply : CounterOp → Type
  | incr _ => ℕ
  | expire _ _ => Bool

/-- The calls of the guard with their replies. -/
abbrev counting : Signature :=
  ⟨CounterOp, CounterOp.Reply⟩

namespace Redis

/-- No key. -/
def empty : Redis :=
  ⟨fun _ => none, 0⟩

/-- The counter of a key at a time. -/
def get (r : Redis) (now : Date) (key : String) : Option Counter :=
  (r.counters key).filter fun c => !c.overdue now

/-- Write the counter of a key. -/
def set (key : String) (c : Counter) (r : Redis) : Redis :=
  { r with counters := Function.update r.counters key (some c) }

/-- The effect of a call. -/
def perform (now : Date) (r : Redis) : (op : CounterOp) → op.Reply × Redis
  | .incr key =>
    match r.get now key with
    | some c => (c.count + 1, r.set key { c with count := c.count + 1 })
    | none => (1, r.set key ⟨1, none⟩)
  | .expire key seconds =>
    match r.get now key with
    | some c => (true, r.set key { c with expiresAt := some (now + 1000 * seconds) })
    | none => (false, r)

end Redis

/-- What a request is refused with. -/
inductive HttpFailure where
  | unauthorized (message : String)
  | tooManyRequests (message : String)
  | failed (failure : Failure)
  deriving DecidableEq

/-- Answer a call at the chosen time. -/
def Redis.handle : Handler counting HttpFailure Env Redis := fun e op r =>
  let r := { r with clock := e.now }
  let (reply, r') := r.perform e.now op
  match e.outcome with
  | .resolves => (.ok reply, r')
  | .rejects => (.error (.failed .rejected), r)
  | .rejectsAfterEffect => (.error (.failed .rejected), r')

namespace Redis

variable {e : Env} {op : CounterOp} {r r' : Redis}

theorem counters_set_self (key : String) (c : Counter) (r : Redis) :
    (r.set key c).counters key = some c :=
  Function.update_self _ _ _

/-- A counter that was set is there until its TTL runs out. -/
theorem get_set (key : String) (c : Counter) (r : Redis) (now : Date) :
    (r.set key c).get now key = (some c).filter fun c => !c.overdue now := by
  simp [Redis.get, Redis.set]

theorem clock_perform (now : Date) (r : Redis) (op : CounterOp) :
    (r.perform now op).2.clock = r.clock := by
  cases op with
  | incr key => cases h : r.get now key <;> simp only [perform, h, set]
  | expire key seconds => cases h : r.get now key <;> simp only [perform, h, set]

theorem counters_perform_of_ne {now : Date} {key : String} (hkey : key ≠ op.key) :
    (r.perform now op).2.counters key = r.counters key := by
  cases op with
  | incr k =>
    cases h : r.get now k <;> simp only [perform, h, set] <;> exact Function.update_of_ne hkey _ _
  | expire k seconds =>
    cases h : r.get now k <;> simp only [perform, h, set]
    exact Function.update_of_ne hkey _ _

/-- A call depends on its own counter only. -/
theorem perform_congr (now : Date) (hop : r'.counters op.key = r.counters op.key) :
    (r'.perform now op).1 = (r.perform now op).1 ∧
      (r'.perform now op).2.counters op.key = (r.perform now op).2.counters op.key := by
  have hget : r'.get now op.key = r.get now op.key := by rw [get, hop, get]
  cases op with
  | incr k =>
    rw [CounterOp.key] at hget
    cases h : r.get now k <;> simp [perform, hget, h, set, CounterOp.key]
  | expire k seconds =>
    rw [CounterOp.key] at hget
    cases h : r.get now k
    · simpa [perform, hget, h] using hop
    · simp [perform, hget, h, set, CounterOp.key]

/-- A call has its effect or leaves everything but the clock. -/
theorem handle_redis (e : Env) (op : CounterOp) (r : Redis) :
    (handle e op r).2 = { r with clock := e.now } ∨
      (handle e op r).2 = (({ r with clock := e.now } : Redis).perform e.now op).2 := by
  unfold handle
  cases e.outcome
  · exact .inr rfl
  · exact .inl rfl
  · exact .inr rfl

theorem clock_handle : (handle e op r).2.clock = e.now := by
  rcases handle_redis e op r with h | h
  · rw [h]
  · rw [h, clock_perform]

theorem counters_handle_of_ne {key : String} (h : key ≠ op.key) :
    (handle e op r).2.counters key = r.counters key := by
  rcases handle_redis e op r with hr | hr
  · rw [hr]
  · rw [hr, counters_perform_of_ne h]

/-- A call that resolves. -/
theorem handle_resolves {e : Env} (ho : e.outcome = .resolves) (op : CounterOp) (r : Redis) :
    handle e op r = (.ok (({ r with clock := e.now } : Redis).perform e.now op).1,
      (({ r with clock := e.now } : Redis).perform e.now op).2) := by
  rw [handle, ho]

/-- A call that is rejected. -/
theorem handle_rejects {e : Env} (ho : e.outcome = .rejects) (op : CounterOp) (r : Redis) :
    handle e op r = (.error (.failed .rejected), { r with clock := e.now }) := by
  rw [handle, ho]

/-- A call whose answer is lost. -/
theorem handle_rejectsAfterEffect {e : Env} (ho : e.outcome = .rejectsAfterEffect)
    (op : CounterOp) (r : Redis) : handle e op r = (.error (.failed .rejected),
      (({ r with clock := e.now } : Redis).perform e.now op).2) := by
  rw [handle, ho]

theorem handle_congr (h : r'.counters op.key = r.counters op.key) :
    (handle e op r').1 = (handle e op r).1 ∧
      (handle e op r').2.counters op.key = (handle e op r).2.counters op.key := by
  let at_now (r : Redis) : Redis := { r with clock := e.now }
  obtain ⟨hreply, hcounter⟩ := @perform_congr op (at_now r) (at_now r') e.now h
  unfold handle
  cases e.outcome
  · exact ⟨congrArg Except.ok hreply, hcounter⟩
  · exact ⟨rfl, h⟩
  · exact ⟨rfl, hcounter⟩

end Redis

/-! ## The guard -/

/-- `request.ip ?? 'unknown-ip'`. -/
def Request.identifier (request : Request) : String :=
  request.ip.getD "unknown-ip"

/-- `routePath ?? request.path`. -/
def Request.limitedPath (request : Request) : String :=
  request.routePath.getD request.path

/-- The key of a request. -/
def rateLimitKey (request : Request) : String :=
  "rate-limit:" ++ request.identifier ++ ":" ++ request.method ++ ":" ++ request.limitedPath

/-- `RATE_LIMIT_MAX_REQUESTS` and `RATE_LIMIT_WINDOW_SECONDS`. -/
structure RedisRateLimitGuard where
  maxRequests : ℕ
  windowSeconds : ℕ

namespace RedisRateLimitGuard

/-- The end of a request that has incremented its counter. -/
def verdict (guard : RedisRateLimitGuard) (count : ℕ) : Prog counting HttpFailure Bool :=
  if count > guard.maxRequests then .throw (.tooManyRequests "Rate limit exceeded") else return true

/-- A request increments the counter of its key, and the one that made the key gives it its TTL. If
that second call fails, the key stays without one. -/
def canActivate (guard : RedisRateLimitGuard) (context : ExecutionContext) :
    Prog counting HttpFailure Bool :=
  if context.isPublic then return true
  else do
    let key := rateLimitKey context.request
    let count ← Prog.await (S := counting) (.incr key)
    if count = 1 then
      let _ ← Prog.await (S := counting) (.expire key guard.windowSeconds)
      guard.verdict count
    else guard.verdict count

/-- What is left to do once the counter is incremented. -/
def counted (guard : RedisRateLimitGuard) (key : String) (count : ℕ) :
    Prog counting HttpFailure Bool :=
  if count = 1 then
    (Prog.await (S := counting) (.expire key guard.windowSeconds)).bind fun _ => guard.verdict count
  else guard.verdict count

/-- Only the first request sets the TTL. -/
theorem counted_succ (guard : RedisRateLimitGuard) (key : String) {n : ℕ} (hn : n ≠ 0) :
    guard.counted key (n + 1) = guard.verdict (n + 1) :=
  if_neg (by omega)

theorem verdict_ne_counted (guard : RedisRateLimitGuard) (key : String) (n : ℕ) :
    guard.verdict n ≠ guard.counted key 1 := by
  rw [counted, if_pos rfl, verdict]
  split_ifs <;> simp [Prog.await]

/-- A request that is not public increments its counter, and goes on with its count. -/
theorem canActivate_eq (guard : RedisRateLimitGuard) (context : ExecutionContext) :
    guard.canActivate context = if context.isPublic then .ret true else
      (Prog.await (S := counting) (.incr (rateLimitKey context.request))).bind
        (guard.counted (rateLimitKey context.request)) :=
  rfl

/-- A request calls its own key only. -/
theorem calls_canActivate (guard : RedisRateLimitGuard) (context : ExecutionContext) :
    (guard.canActivate context).Calls fun op : CounterOp =>
      op.key = rateLimitKey context.request := by
  have hverdict : ∀ count, (guard.verdict count).Calls fun op : CounterOp =>
      op.key = rateLimitKey context.request := fun count => by
    unfold verdict
    split_ifs <;> trivial
  unfold canActivate
  split_ifs
  · trivial
  · refine Prog.Calls.await_bind rfl fun count => ?_
    dsimp only
    split_ifs
    · exact Prog.Calls.await_bind rfl fun _ => hverdict count
    · exact hverdict count

end RedisRateLimitGuard

/-! ## Runs -/

/-- Requests over one Redis. -/
abbrev Limiter := Named counting HttpFailure Bool Env Redis

/-- Nothing counted yet. -/
def Limiter.init : Limiter :=
  Named.init .empty

/-- What can happen to the requests. -/
inductive LimiterMove where
  /-- A request arrives, and is known as `i` from then on. -/
  | request (i : ℕ) (context : ExecutionContext)
  /-- The call request `i` awaits is answered. -/
  | step (i : ℕ) (e : Env)
  /-- The process running request `i` dies. -/
  | stop (i : ℕ)
  deriving DecidableEq

/-- One move. The clock only moves forward. -/
def RedisRateLimitGuard.step (guard : RedisRateLimitGuard) (s : Limiter) :
    LimiterMove → Option Limiter
  | .request i context => s.spawn i (guard.canActivate context)
  | .step i e => if s.world.clock ≤ e.now then s.advance Redis.handle i e else none
  | .stop i => s.halt i (.failed .stopped)

theorem RedisRateLimitGuard.step_step {guard : RedisRateLimitGuard} {s s' : Limiter} {i : ℕ}
    {e : Env} : guard.step s (.step i e) = some s' ↔
      s.world.clock ≤ e.now ∧ s.advance Redis.handle i e = some s' :=
  Option.ite_none_right_eq_some

end RealtimeOps
