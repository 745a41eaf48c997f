import RealtimeOps.AlertService
import RealtimeOps.IncidentService
import RealtimeOps.Platform

/-!
# Operations

The whole back end : the calls on jobs of `Platform` and the commands on alerts and incidents,
as threads over one `World`. A state keeps, next to the pool, the command each thread runs;
that is ghost state, as the log is.
-/

set_option autoImplicit false

namespace RealtimeOps

open Interleaving

/-- The commands and executions that run as a thread. -/
inductive Command where
  /-- A call on jobs, or an execution. -/
  | job (call : Call)
  | createAlert (input : CreateAlertInput)
  | acknowledgeAlert (alertId : Uuid) (operatorId : String)
  | acknowledge (incidentId : Uuid) (operatorId : String)
  | resolve (incidentId : Uuid) (operatorId : String)
  deriving DecidableEq

/-- What a command resolves with. -/
inductive Response where
  | job (result : Result)
  | raised (alert : AlertEntity) (incident : Option IncidentEntity)
  | alert (alert : AlertEntity) (incident : Option IncidentEntity)
  | incident (incident : IncidentEntity)
  deriving DecidableEq

/-- The program of a command. -/
def Command.prog : Command → Promise Response
  | job call => do return .job (← call.prog)
  | createAlert input => do
    let (alert, incident) ← AlertService.create input
    return .raised alert incident
  | acknowledgeAlert alertId operatorId => do
    let (alert, incident) ← AlertService.acknowledge alertId operatorId
    return .alert alert incident
  | acknowledge incidentId operatorId => do
    return .incident (← IncidentService.acknowledge incidentId operatorId)
  | resolve incidentId operatorId => do
    return .incident (← IncidentService.resolve incidentId operatorId)

/-- The threads over the shared world, and the command of each. -/
structure Operations where
  pool : Pool infrastructure Failure Response Env World
  commands : List Command

namespace Operations

/-- Nothing running over `w`. -/
def init (w : World) : Operations :=
  ⟨⟨w, [], []⟩, []⟩

/-- The commands all started over `w`, none answered yet. -/
def running (w : World) (commands : List Command) : Operations :=
  ⟨⟨w, commands.map Command.prog, []⟩, commands⟩

/-- Start a command. -/
def start (command : Command) (s : Operations) : Operations :=
  ⟨s.pool.spawn command.prog, s.commands ++ [command]⟩

/-- The moves of `Platform`, with any command to start. -/
inductive Label where
  | start (command : Command)
  | deliver (n : ℕ)
  | step (i : ℕ) (e : Env)
  | redeliver (tag : ℕ)
  | stop (i : ℕ)
  | expire (key : String) (now : Date)
  deriving DecidableEq

/-- Something the environment does to the world. -/
def withWorld (s : Operations) (w : World) : Operations :=
  { s with pool := { s.pool with world := w } }

/-- Hand message `n` to a consumer. -/
def deliver (n : ℕ) (s : Operations) : Option Operations :=
  s.pool.world.ready[n]?.map fun m =>
    let delivery : Delivery := ⟨s.pool.world.nextTag, m⟩
    let w := { s.pool.world with
      ready := s.pool.world.ready.eraseIdx n
      unacked := s.pool.world.unacked ++ [delivery]
      nextTag := s.pool.world.nextTag + 1 }
    (s.withWorld w).start (.job (.consume delivery))

/-- One move. -/
def step (s : Operations) : Label → Option Operations
  | .start command => some (s.start command)
  | .deliver n => s.deliver n
  | .step i e =>
    if s.pool.world.clock ≤ e.now then
      (s.pool.advance handle i e).map fun pool => { s with pool }
    else none
  | .redeliver tag => (redeliver tag s.pool.world).map s.withWorld
  | .stop i =>
    if (s.pool.awaited i).isSome then some { s with pool := s.pool.halt i .stopped } else none
  | .expire key now => (expire key now s.pool.world).map s.withWorld

theorem step_step {s s' : Operations} {i : ℕ} {e : Env} : s.step (.step i e) = some s' ↔
    s.pool.world.clock ≤ e.now ∧
      ∃ pool, s.pool.advance handle i e = some pool ∧ { s with pool } = s' := by
  simp only [step, Option.ite_none_right_eq_some, Option.map_eq_some_iff]

theorem step_stop {s s' : Operations} {i : ℕ} : s.step (.stop i) = some s' ↔
    (s.pool.awaited i).isSome = true ∧ { s with pool := s.pool.halt i .stopped } = s' := by
  simp only [step, Option.ite_none_right_eq_some, Option.some.injEq]

/-- A call is answered and resolves. -/
def Resolving (s : Operations) : Label → Prop
  | .step i e => ∀ op ∈ s.pool.awaited i, (handle e op s.pool.world).1.isOk = true
  | _ => False

instance (s : Operations) : DecidablePred s.Resolving
  | .step _ _ => inferInstanceAs (Decidable (∀ op ∈ s.pool.awaited _, _))
  | .start _ | .deliver _ | .redeliver _ | .stop _ | .expire _ _ => .isFalse id

/-- Thread `i` is answered its next `n` calls, from time `t` on, one each millisecond. The
ids generated are the times. -/
def calls (i n t : ℕ) : List Label :=
  (List.range n).map fun k => .step i ⟨t + k, t + k, .resolves⟩

/-- The label answers a call of thread `i` : then `p` of the choice and the call. -/
def Answers (s : Operations) (p : ℕ → Env → Op → Prop) : Label → Prop
  | .step i e => ∀ op ∈ s.pool.awaited i, p i e op
  | _ => True

instance (s : Operations) (p : ℕ → Env → Op → Prop) [∀ i e op, Decidable (p i e op)] :
    DecidablePred (s.Answers p)
  | .step _ _ => inferInstanceAs (Decidable (∀ op ∈ s.pool.awaited _, _))
  | .start _ | .deliver _ | .redeliver _ | .stop _ | .expire _ _ => .isTrue trivial

end Operations

end RealtimeOps
