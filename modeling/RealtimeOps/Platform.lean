import RealtimeOps.Interleaving.Serial
import RealtimeOps.JobProcessor
import RealtimeOps.JobService

/-!
# The platform

The API gateway and the workers as threads over one `World`. A move of the platform
(`Label`) starts a call, hands a waiting message to a consumer, answers the call one thread
awaits, or is something the environment does : a delivery comes back to the queue, the
process running a thread dies, a Redis key whose TTL has run out is removed.

How many workers there are is not fixed, and a worker may hold ten messages at once, so
any waiting message can be handed out at any time. The clock only moves forward.
-/

set_option autoImplicit false

namespace RealtimeOps

open Interleaving

/-- A call that resolves has had its effect. -/
theorem ensures_await {α : Type} {Q : Except Failure α → World → Prop} {op : Op} {w : World}
    {f : op.Reply → Promise α}
    (h : ∀ e reply w', perform e { w with clock := e.now } op = some (reply, w') →
      Prog.Ensures handle Q (f reply) w') : Prog.Ensures handle Q ((await op).bind f) w :=
  fun e reply w' hh => h e reply w' (handle_eq_ok hh).1

/-- The calls that run as a thread. -/
inductive Call where
  | create (input : CreateJobInput)
  | retry (jobId : Uuid) (operatorId : String)
  | getStatus (jobId : Uuid)
  /-- `JobProcessorService.process`, called directly. -/
  | process (input : ProcessJobInput)
  /-- The consumer's callback on a delivery. -/
  | consume (delivery : Delivery)
  deriving DecidableEq

/-- What a call resolves with. -/
inductive Result where
  | job (job : JobEntity)
  | report (report : JobStatusReport)
  | done
  deriving DecidableEq

/-- The program of a call. -/
def Call.prog : Call → Promise Result
  | create input => do return .job (← JobService.create input)
  | retry jobId operatorId => do return .job (← JobService.retry jobId operatorId)
  | getStatus jobId => do return .report (← JobService.getStatus jobId)
  | process input => do
    JobProcessorService.process input
    return .done
  | consume delivery => do
    RabbitMqService.consumeCallback JobProcessingConsumer.onMessage delivery
    return .done

/-- The threads of the API gateway and the workers over the shared world. -/
abbrev State := Pool infrastructure Failure Result Env World

/-- Nothing running over `w`. -/
def State.init (w : World) : State :=
  ⟨w, [], []⟩

/-- The calls all started over `w`, none answered yet. -/
def State.running (w : World) (calls : List Call) : State :=
  ⟨w, calls.map Call.prog, []⟩

/-- Run the calls alone over `w`, one after the other in the given order, each under the
choices its own calls were answered with in `s`. Gives how each ended and the last world. -/
def State.inOrder (s : State) (calls : List Call) (order : List ℕ) (w : World) :
    List (Except Failure Result) × World :=
  Prog.inTurn handle (order.filterMap fun i => calls[i]?.map fun call =>
    (call.prog, s.script ⟨0, 0, .resolves⟩ i)) w

theorem State.inOrder_cons {s : State} {calls : List Call} {i : ℕ} {order : List ℕ} {w w' : World}
    {call : Call} {r : Except Failure Result} (hi : calls[i]? = some call)
    (h : call.prog.run handle (s.script ⟨0, 0, .resolves⟩ i) 0 w = (r, w')) :
    s.inOrder calls (i :: order) w =
      (r :: (s.inOrder calls order w').1, (s.inOrder calls order w').2) := by
  simp only [State.inOrder, List.filterMap_cons, hi, Option.map_some, Prog.inTurn, h]

/-- What can happen to the platform. -/
inductive Label where
  /-- An API request or a direct execution starts. -/
  | start (call : Call)
  /-- The `n`-th waiting message is handed to a consumer. -/
  | deliver (n : ℕ)
  /-- The call thread `i` awaits is answered. -/
  | step (i : ℕ) (e : Env)
  /-- An unsettled delivery goes back to the queue. -/
  | redeliver (tag : ℕ)
  /-- The process running thread `i` dies. -/
  | stop (i : ℕ)
  /-- Redis removes a key whose TTL has run out. -/
  | expire (key : String) (now : Date)
  deriving DecidableEq

/-- Hand message `n` to a consumer : it is unacknowledged until the consumer settles it. -/
def deliver (n : ℕ) (s : State) : Option State :=
  s.world.ready[n]?.map fun m =>
    let delivery : Delivery := ⟨s.world.nextTag, m⟩
    let w := { s.world with
      ready := s.world.ready.eraseIdx n
      unacked := s.world.unacked ++ [delivery]
      nextTag := s.world.nextTag + 1 }
    { s with world := w }.spawn (Call.consume delivery).prog

/-- Put the message of an unsettled delivery back in the queue. -/
def redeliver (tag : ℕ) (w : World) : Option World :=
  (w.unacked.find? fun d => d.tag = tag).map fun d =>
    { w with
      unacked := w.unacked.filter fun d => d.tag ≠ tag
      ready := w.ready ++ [d.message] }

/-- Remove a key whose TTL has run out. -/
def expire (key : String) (now : Date) (w : World) : Option World :=
  match w.locks.lookup key with
  | some lock =>
    if lock.expiresAt ≤ now ∧ w.clock ≤ now then
      some { w with locks := w.locks.erase key, clock := now }
    else none
  | none => none

/-- One move of the platform. -/
def step (s : State) : Label → Option State
  | .start call => some (s.spawn call.prog)
  | .deliver n => deliver n s
  | .step i e => if s.world.clock ≤ e.now then s.advance handle i e else none
  | .redeliver tag => (redeliver tag s.world).map fun w => { s with world := w }
  | .stop i => if (s.awaited i).isSome then some (s.halt i .stopped) else none
  | .expire key now => (expire key now s.world).map fun w => { s with world := w }

theorem step_step {s s' : State} {i : ℕ} {e : Env} :
    step s (.step i e) = some s' ↔ s.world.clock ≤ e.now ∧ s.advance handle i e = some s' :=
  Option.ite_none_right_eq_some

theorem step_stop {s s' : State} {i : ℕ} :
    step s (.stop i) = some s' ↔ (s.awaited i).isSome = true ∧ s.halt i .stopped = s' := by
  simp only [step, Option.ite_none_right_eq_some, Option.some.injEq]

theorem expire_eq_some {key : String} {now : Date} {w w' : World} :
    expire key now w = some w' ↔ ∃ lock, w.locks.lookup key = some lock ∧
      (lock.expiresAt ≤ now ∧ w.clock ≤ now) ∧
        { w with locks := w.locks.erase key, clock := now } = w' := by
  unfold expire
  cases w.locks.lookup key with
  | none => simp
  | some lock => simp only [Option.ite_none_right_eq_some, Option.some.injEq, exists_eq_left']

/-- Nothing is left to do : every call has returned and the queue is empty. -/
def Quiescent (s : State) : Prop :=
  s.Finished ∧ s.world.ready = []

/-- Thread `i` is answered its next `n` calls, from time `t` on, one each millisecond. The
ids generated are the times. -/
def calls (i n t : ℕ) : List Label :=
  (List.range n).map fun k => .step i ⟨t + k, t + k, .resolves⟩

/-- If a move answers a call, then `p` of the thread, the choice and the call. -/
def Answers (s : State) (p : ℕ → Env → Op → Prop) : Label → Prop
  | .step i e => ∀ op ∈ s.awaited i, p i e op
  | _ => True

instance (s : State) (p : ℕ → Env → Op → Prop) [∀ i e op, Decidable (p i e op)] :
    DecidablePred (Answers s p)
  | .step _ _ => inferInstanceAs (Decidable (∀ op ∈ s.awaited _, _))
  | .start _ | .deliver _ | .redeliver _ | .stop _ | .expire _ _ => .isTrue trivial

/-- The call a move answers resolves. -/
abbrev Resolves (s : State) : Label → Prop :=
  Answers s fun _ e op => (handle e op s.world).1.isOk = true

/-- A move that answers a call. -/
def Answering : Label → Prop
  | .step _ _ => True
  | .start _ | .deliver _ | .redeliver _ | .stop _ | .expire _ _ => False

instance : DecidablePred Answering
  | .step _ _ => .isTrue trivial
  | .start _ | .deliver _ | .redeliver _ | .stop _ | .expire _ _ => .isFalse id

/-- A move of a run in which executions come from messages only, each message is delivered
once and no key runs out. -/
def DeliversOnce : Label → Prop
  | .start (.create _) | .start (.retry _ _) | .start (.getStatus _) => True
  | .start (.process _) | .start (.consume _) | .redeliver _ | .expire _ _ => False
  | .deliver _ | .step _ _ | .stop _ => True

instance : DecidablePred DeliversOnce
  | .start (.create _) | .start (.retry _ _) | .start (.getStatus _) | .deliver _ | .step _ _
  | .stop _ => .isTrue trivial
  | .start (.process _) | .start (.consume _) | .redeliver _ | .expire _ _ => .isFalse id

/-- A move of a run in which no call fails, no process dies and no key runs out. -/
def Unfailing : Label → Prop
  | .step _ e => e.outcome = .resolves
  | .stop _ | .expire _ _ => False
  | .start _ | .deliver _ | .redeliver _ => True

instance : DecidablePred Unfailing
  | .step _ _ => inferInstanceAs (Decidable (_ = _))
  | .stop _ | .expire _ _ => .isFalse id
  | .start _ | .deliver _ | .redeliver _ => .isTrue trivial

instance (s : State) : Decidable (Quiescent s) :=
  inferInstanceAs (Decidable (_ ∧ _))

end RealtimeOps
