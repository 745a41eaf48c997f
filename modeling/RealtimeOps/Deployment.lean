import RealtimeOps.Operations
import RealtimeOps.RateLimit
import RealtimeOps.RealtimeGateway

/-!
# The deployment

The API gateway, the workers and the realtime gateway together. HTTP requests and executions are
threads with names over one `Backend`, the world of the services and the counters of the rate
limiter. A request passes `OperatorAuthGuard` and then `RedisRateLimitGuard` before its handler
runs.

What is published on `ops.events` goes to the queue of the realtime gateway, which is bound with
`#`. The gateway broadcasts the messages in order and settles each; if it loses its connection,
those that are not settled come back. Every message keeps the name of the thread that published
it. That is ghost state, and so is `told`, the messages handed to the gateway so far.
-/

set_option autoImplicit false

namespace RealtimeOps

open Interleaving

/-! ## Calls -/

/-- The calls of all services. -/
inductive SiteOp where
  | service (op : Op)
  | counter (op : CounterOp)
  /-- A query whose answer is only passed on. -/
  | select
  | ping
  deriving DecidableEq

/-- What a call is answered with. -/
abbrev SiteOp.Reply : SiteOp → Type
  | service op => op.Reply
  | counter op => op.Reply
  | select => Unit
  | ping => String

/-- All calls of the processes with their replies. -/
abbrev calling : Signature :=
  ⟨SiteOp, SiteOp.Reply⟩

/-- A request handler or an execution. -/
abbrev Handling (α : Type) := Prog calling HttpFailure α

/-- The failure of a service. -/
def HttpFailure.failure : HttpFailure → Failure
  | failed failure => failure
  | unauthorized _ | tooManyRequests _ => .rejected

/-- A service called by a handler. -/
def services : Prog.Embedding infrastructure calling Failure HttpFailure where
  op := .service
  answer _ r := r.mapError HttpFailure.failure
  error := .failed

/-- The rate limiter called by the router. -/
def limiting : Prog.Embedding counting calling HttpFailure HttpFailure where
  op := .counter
  answer _ r := r
  error := id

/-- PostgreSQL and RabbitMQ, the locks, and the counters of the rate limiter. -/
structure Backend where
  world : World
  redis : Redis

namespace Backend

/-- Nothing stored and nothing counted. -/
def empty : Backend :=
  ⟨.empty, .empty⟩

/-- The latest time something was answered at. -/
def clock (b : Backend) : Date :=
  max b.world.clock b.redis.clock

/-- Answer a call that changes nothing. -/
def look {α : Type} (e : Env) (answer : α) : Except HttpFailure α :=
  if e.outcome = .resolves then .ok answer else .error (.failed .rejected)

/-- A call goes to the system it is for. -/
def handle : Handler calling HttpFailure Env Backend := fun e op b =>
  match op with
  | .service op =>
    let (r, world) := RealtimeOps.handle e op b.world
    (r.mapError .failed, { b with world })
  | .counter op =>
    let (r, redis) := Redis.handle e op b.redis
    (r, { b with redis })
  | .select => (look e (), b)
  | .ping => (look e "PONG", b)

end Backend

/-! ## Handlers -/

/-- The body of `GET /health`. -/
structure HealthReport where
  status : String
  database : String
  redis : String
  rabbitmq : String
  timestamp : Date
  deriving DecidableEq

namespace HealthService

/-- `SELECT 1` is answered. -/
def checkDatabase : Handling Bool :=
  Prog.tryCatch
    (do
      let _ ← Prog.await (S := calling) .select
      return true)
    fun _ => return false

/-- `PING` is answered with `PONG`. -/
def checkRedis : Handling Bool :=
  Prog.tryCatch
    (do
      let response ← Prog.await (S := calling) .ping
      return response == "PONG")
    fun _ => return false

/-- An event is published and not rejected : the check is seen by the operators. -/
def checkRabbit : Handling Bool :=
  Prog.tryCatch
    (do
      let _ ← (RabbitMqService.publishEvent "system.health"
        [("source", .str "health-check")]).embed services
      return true)
    fun _ => return false

/-- The three checks are started together. Only the last has an effect, so they are in a row. -/
def getHealth : Handling HealthReport := do
  let dbHealthy ← checkDatabase
  let redisHealthy ← checkRedis
  let rabbitHealthy ← checkRabbit
  let timestamp ← (await .now).embed services
  return {
    status := if dbHealthy && redisHealthy && rabbitHealthy then "ok" else "degraded"
    database := if dbHealthy then "up" else "down"
    redis := if redisHealthy then "up" else "down"
    rabbitmq := if rabbitHealthy then "up" else "down"
    timestamp := timestamp }

end HealthService

/-- What a request or an execution ends with. -/
inductive HttpBody where
  | health (report : HealthReport)
  | alive (status : String) (timestamp : Date)
  | response (response : Response)
  | page
  deriving DecidableEq

/-- A command or an execution, run as a thread. -/
def Command.handling (command : Command) : Handling HttpBody := do
  return .response (← command.prog.embed services)

/-- `RealtimeHealthController.getHealth`. -/
def RealtimeHealthController.getHealth : Handling HttpBody := do
  let timestamp ← (await .now).embed services
  return .alive "ok" timestamp

/-- The routes of the API gateway. A body is one that its pipe accepts. -/
inductive ApiRoute where
  | getHealth
  | createJob (dto : CreateJobDto) (valid : dto.Valid)
  | retryJob (id : Uuid)
  | getJobStatus (id : Uuid)
  | createAlert (dto : CreateAlertDto) (valid : dto.Valid)
  | acknowledgeIncident (id : Uuid)
  | resolveIncident (id : Uuid)
  /-- A route that only reads, with this many queries. -/
  | read (queries : ℕ)
  /-- A route whose pipe refuses the body or a parameter. -/
  | refused (message : String)

namespace ApiRoute

/-- The routes marked `@Public()`. -/
def isPublic : ApiRoute → Bool
  | getHealth => true
  | _ => false

/-- That many queries. -/
def reads : ℕ → Handling HttpBody
  | 0 => return .page
  | n + 1 => do
    let _ ← Prog.await (S := calling) .select
    reads n

/-- The handler of the route, for the operator the guard has found. -/
def handler (operatorId : String) : ApiRoute → Handling HttpBody
  | getHealth => do return .health (← HealthService.getHealth)
  | createJob dto _ => (Command.job (.create (JobsController.createJob dto operatorId))).handling
  | retryJob id => (Command.job (.retry id operatorId)).handling
  | getJobStatus id => (Command.job (.getStatus id)).handling
  | createAlert dto _ =>
    (Command.createAlert (AlertsController.createAlert dto operatorId)).handling
  | acknowledgeIncident id => (Command.acknowledge id operatorId).handling
  | resolveIncident id => (Command.resolve id operatorId).handling
  | read queries => reads queries
  | refused message => .throw (.failed (.badRequest message))

end ApiRoute

/-- A request to one of the gateways. -/
inductive HttpRequest where
  | api (route : ApiRoute) (request : Request)
  | realtimeHealth (request : Request)
  /-- There is no such route. -/
  | unrouted (request : Request)

/-- What the services are set up with. -/
structure Site where
  expectedToken : String
  limiter : RedisRateLimitGuard
  realtime : RealtimeEventsGateway

namespace Site

/-- `OperatorAuthGuard` on a request. -/
def authenticate (expectedToken : String) (context : ExecutionContext) :
    Handling (Option String) :=
  .resolve ((OperatorAuthGuard.canActivate expectedToken context).mapError .unauthorized)

/-- The guards, in the order they are registered, and the handler. -/
def handleRequest (site : Site) : HttpRequest → Handling HttpBody
  | .api route request => do
    let context : ExecutionContext := ⟨route.isPublic, request⟩
    let operatorId ← authenticate site.expectedToken context
    let _ ← (site.limiter.canActivate context).embed limiting
    route.handler (operatorId.getD "unknown")
  | .realtimeHealth request => do
    let _ ← authenticate site.realtime.expectedToken ⟨true, request⟩
    RealtimeHealthController.getHealth
  | .unrouted request =>
    .throw (.failed (.notFound ("Cannot " ++ request.method ++ " " ++ request.path)))

/-- The request brings a token that is valid where it goes. -/
def carriesToken (site : Site) : HttpRequest → Bool
  | .api _ request => valid site.expectedToken request
  | .realtimeHealth request => valid site.realtime.expectedToken request
  | .unrouted request =>
    valid site.expectedToken request || valid site.realtime.expectedToken request
where
  valid (expectedToken : String) (request : Request) : Bool :=
    AuthService.validateToken expectedToken
      (OperatorAuthGuard.extractHeader request.headers.token)

end Site

/-! ## Runs -/

/-- An event, and the name of the thread that published it. -/
structure Published where
  publisher : ℕ
  event : Event
  deriving DecidableEq

/-- The queue of the realtime gateway. -/
structure EventQueue where
  waiting : List Published
  /-- The messages handed to the gateway and not settled. -/
  unsettled : List Published
  /-- The messages handed to the gateway so far. -/
  told : List Published

namespace EventQueue

/-- Nothing published yet. -/
def empty : EventQueue :=
  ⟨[], [], []⟩

/-- Messages join the end of the queue. -/
def push (xs : List Published) (q : EventQueue) : EventQueue :=
  { q with waiting := q.waiting ++ xs }

/-- Hand out the next message. -/
def take (q : EventQueue) : Option (Published × EventQueue) :=
  match q.waiting with
  | [] => none
  | x :: waiting => some (x, ⟨waiting, q.unsettled ++ [x], q.told ++ [x]⟩)

/-- The oldest message that is not settled is now. -/
def settle (q : EventQueue) : Option EventQueue :=
  match q.unsettled with
  | [] => none
  | _ :: unsettled => some { q with unsettled }

/-- The messages that are not settled come back. -/
def recover (q : EventQueue) : EventQueue :=
  { q with waiting := q.unsettled ++ q.waiting, unsettled := [] }

end EventQueue

/-- The API, the workers and the realtime gateway over one backend. -/
structure Deployment where
  backend : Named calling HttpFailure HttpBody Env Backend
  queue : EventQueue
  server : Server

/-- What can happen. -/
inductive SiteMove where
  /-- An HTTP request arrives, and is known as `i` from then on. -/
  | request (i : ℕ) (request : HttpRequest)
  /-- The `n`-th message of `jobs.processing` is handed to a worker, as thread `i`. -/
  | deliver (i n : ℕ)
  /-- The call thread `i` awaits is answered. -/
  | step (i : ℕ) (e : Env)
  /-- The process running thread `i` dies. -/
  | stop (i : ℕ)
  /-- An unsettled delivery goes back to `jobs.processing`. -/
  | redeliver (tag : ℕ)
  /-- Redis removes a lock whose TTL has run out. -/
  | expire (key : String) (now : Date)
  /-- The realtime gateway is handed the next event, and broadcasts it. -/
  | broadcast (now : Date)
  /-- The broker learns that the oldest of the unsettled events is settled. -/
  | settle
  /-- The unsettled events come back. -/
  | recover
  /-- A socket connects, disconnects or sends a message. -/
  | socket (move : RealtimeMove)

namespace Deployment

/-- The processes have just started on empty stores. -/
def init : Deployment where
  backend := .init .empty
  queue := .empty
  server := .init

/-- What PostgreSQL, RabbitMQ and the locks hold. -/
def world (s : Deployment) : World :=
  s.backend.world.world

/-- What the rate limiter has counted. -/
def counters (s : Deployment) : String → Option Counter :=
  s.backend.world.redis.counters

/-- The world of the services changes. -/
def withWorld (s : Deployment) (w : World) : Deployment :=
  { s with backend := { s.backend with world := { s.backend.world with world := w } } }

/-- Thread `i` has done something : what it has published is routed to the queue. -/
def route (i : ℕ) (s : Deployment) (backend : Named calling HttpFailure HttpBody Env Backend) :
    Deployment :=
  { s with
    backend
    queue := s.queue.push ((backend.world.world.events.drop s.world.events.length).map (⟨i, ·⟩)) }

/-- Message `n` of `jobs.processing` is handed out. -/
def handOut (n : ℕ) (delivery : Delivery) (w : World) : World :=
  { w with
    ready := w.ready.eraseIdx n
    unacked := w.unacked ++ [delivery]
    nextTag := w.nextTag + 1 }

/-- Hand message `n` to a worker. -/
def deliver (i n : ℕ) (s : Deployment) : Option Deployment := do
  let message ← s.world.ready[n]?
  let delivery : Delivery := ⟨s.world.nextTag, message⟩
  let s := s.withWorld (handOut n delivery s.world)
  let backend ← s.backend.spawn i (Command.job (.consume delivery)).handling
  return { s with backend }

/-- `RealtimeEventConsumer` broadcasts the next event. What `broadcast` throws only has the message
settled with a `nack`. -/
def broadcast (now : Date) (s : Deployment) : Option Deployment := do
  let (x, queue) ← s.queue.take
  return { s with
    queue
    server := RealtimeEventsGateway.afterBroadcast x.event.topic x.event.payload
      (some x.event.emittedAt) now s.server }

end Deployment

/-- The gateway broadcasts what it is handed, and nothing else. -/
def RealtimeMove.ofSocket : RealtimeMove → Bool
  | broadcast _ _ _ _ => false
  | _ => true

/-- One move. The clock only moves forward. -/
def Site.step (site : Site) (s : Deployment) : SiteMove → Option Deployment
  | .request i request => do
    let backend ← s.backend.spawn i (site.handleRequest request)
    return { s with backend }
  | .deliver i n => s.deliver i n
  | .step i e =>
    if s.backend.world.clock ≤ e.now then (s.backend.advance Backend.handle i e).map (s.route i)
    else none
  | .stop i => do
    let backend ← s.backend.halt i (.failed .stopped)
    return { s with backend }
  | .redeliver tag => (redeliver tag s.world).map s.withWorld
  | .expire key now => (expire key now s.world).map s.withWorld
  | .broadcast now => s.broadcast now
  | .settle => s.queue.settle.map fun queue => { s with queue }
  | .recover => some { s with queue := s.queue.recover }
  | .socket move =>
    if move.ofSocket then (site.realtime.step s.server move).map fun server => { s with server }
    else none

/-- What a move that is possible does. -/
inductive Site.Transition (site : Site) (s : Deployment) : SiteMove → Deployment → Prop where
  | request {i : ℕ} {request : HttpRequest}
    {backend : Named calling HttpFailure HttpBody Env Backend}
    (spawned : s.backend.spawn i (site.handleRequest request) = some backend) :
    Transition site s (.request i request) { s with backend }
  | deliver {i n : ℕ} {message : Message}
    {backend : Named calling HttpFailure HttpBody Env Backend}
    (ready : s.world.ready[n]? = some message)
    (spawned : (s.withWorld (Deployment.handOut n ⟨s.world.nextTag, message⟩ s.world)).backend.spawn
      i (Command.job (.consume ⟨s.world.nextTag, message⟩)).handling = some backend) :
    Transition site s (.deliver i n) { s with backend }
  | step {i : ℕ} {e : Env} {backend : Named calling HttpFailure HttpBody Env Backend}
    (clock : s.backend.world.clock ≤ e.now)
    (advanced : s.backend.advance Backend.handle i e = some backend) :
    Transition site s (.step i e) (s.route i backend)
  | stop {i : ℕ} {backend : Named calling HttpFailure HttpBody Env Backend}
    (halted : s.backend.halt i (.failed .stopped) = some backend) :
    Transition site s (.stop i) { s with backend }
  | redeliver {tag : ℕ} {w : World} (returned : RealtimeOps.redeliver tag s.world = some w) :
    Transition site s (.redeliver tag) (s.withWorld w)
  | expire {key : String} {now : Date} {w : World}
    (expired : RealtimeOps.expire key now s.world = some w) :
    Transition site s (.expire key now) (s.withWorld w)
  | broadcast {now : Date} {x : Published} {queue : EventQueue}
    (taken : s.queue.take = some (x, queue)) :
    Transition site s (.broadcast now)
      { s with
        queue
        server := RealtimeEventsGateway.afterBroadcast x.event.topic x.event.payload
          (some x.event.emittedAt) now s.server }
  | settle {queue : EventQueue} (settled : s.queue.settle = some queue) :
    Transition site s .settle { s with queue }
  | recover : Transition site s .recover { s with queue := s.queue.recover }
  | socket {move : RealtimeMove} {server : Server} (ofSocket : move.ofSocket = true)
    (moved : site.realtime.step s.server move = some server) :
    Transition site s (.socket move) { s with server }

theorem Site.step_eq_some {site : Site} {s s' : Deployment} {m : SiteMove} :
    site.step s m = some s' ↔ site.Transition s m s' := by
  constructor
  · intro hs
    cases m with
    | request i request =>
      obtain ⟨b, hb, heq⟩ := Option.bind_eq_some_iff.mp hs
      cases heq
      exact .request hb
    | deliver i n =>
      obtain ⟨message, hmessage, hrest⟩ := Option.bind_eq_some_iff.mp hs
      obtain ⟨b, hb, heq⟩ := Option.bind_eq_some_iff.mp hrest
      cases heq
      exact .deliver hmessage hb
    | step i e =>
      obtain ⟨hclock, hs⟩ := Option.ite_none_right_eq_some.mp hs
      obtain ⟨b, hb, rfl⟩ := Option.map_eq_some_iff.mp hs
      exact .step hclock hb
    | stop i =>
      obtain ⟨b, hb, heq⟩ := Option.bind_eq_some_iff.mp hs
      cases heq
      exact .stop hb
    | redeliver tag =>
      obtain ⟨w, hw, rfl⟩ := Option.map_eq_some_iff.mp hs
      exact .redeliver hw
    | expire key now =>
      obtain ⟨w, hw, rfl⟩ := Option.map_eq_some_iff.mp hs
      exact .expire hw
    | broadcast now =>
      obtain ⟨⟨x, q⟩, hq, heq⟩ := Option.bind_eq_some_iff.mp hs
      cases heq
      exact .broadcast hq
    | settle =>
      obtain ⟨q, hq, rfl⟩ := Option.map_eq_some_iff.mp hs
      exact .settle hq
    | recover =>
      cases hs
      exact .recover
    | socket move =>
      obtain ⟨hof, hs⟩ := Option.ite_none_right_eq_some.mp hs
      obtain ⟨u, hu, rfl⟩ := Option.map_eq_some_iff.mp hs
      exact .socket hof hu
  · rintro (h | ⟨hready, h⟩ | ⟨hclock, h⟩ | h | h | h | h | h | _ | ⟨hof, h⟩)
    · exact Option.bind_eq_some_iff.mpr ⟨_, h, rfl⟩
    · exact Option.bind_eq_some_iff.mpr ⟨_, hready, Option.bind_eq_some_iff.mpr ⟨_, h, rfl⟩⟩
    · exact Option.ite_none_right_eq_some.mpr ⟨hclock, Option.map_eq_some_iff.mpr ⟨_, h, rfl⟩⟩
    · exact Option.bind_eq_some_iff.mpr ⟨_, h, rfl⟩
    · exact Option.map_eq_some_iff.mpr ⟨_, h, rfl⟩
    · exact Option.map_eq_some_iff.mpr ⟨_, h, rfl⟩
    · exact Option.bind_eq_some_iff.mpr ⟨_, h, rfl⟩
    · exact Option.map_eq_some_iff.mpr ⟨_, h, rfl⟩
    · rfl
    · exact Option.ite_none_right_eq_some.mpr ⟨hof, Option.map_eq_some_iff.mpr ⟨_, h, rfl⟩⟩

end RealtimeOps
