import RealtimeOps.Interleaving.Monitor
import RealtimeOps.Platform

/-!
# The order of lifecycle events

`create` and `retry` send the message of a job before they publish `job.created`, and a worker
may start as soon as the message is out. So its `job.processing` can overtake the `job.created`
it answers to (`not_events_in_order`).

`Signal` is what a call tells of the lifecycle, and `storyMonitor` reads the signals of a thread :
a command enqueues and then publishes `job.created` with its very next call, an execution
publishes `job.processing` and then one `job.completed` or `job.failed` with the same attempt
number. A `Trace` knows in addition which thread has sent the message that an execution came
from. As long as no execution publishes `job.processing` while the sender of its message has
`job.created` still to publish, events are published in lifecycle order (`events_in_order`).
-/

set_option autoImplicit false

namespace RealtimeOps

open Interleaving JobService JobProcessorService

/-! ## Signals -/

/-- What a call tells of the lifecycle of a job. -/
inductive Signal where
  /-- The message of the job is sent. -/
  | enqueued
  | created
  | processing (attemptNumber : Option Json)
  /-- `job.completed` or `job.failed`. -/
  | finished (attemptNumber : Option Json)
  deriving DecidableEq

/-- An execution starts. -/
def Signal.starts : Signal → Bool
  | .processing _ => true
  | .enqueued | .created | .finished _ => false

/-- The signal of a call, if it has one. -/
def Op.signal : Op → Option Signal
  | .sendToQueue _ => some .enqueued
  | .publish "job.created" _ => some .created
  | .publish "job.processing" payload => some (.processing (payload.lookup "attemptNumber"))
  | .publish "job.completed" payload | .publish "job.failed" payload =>
    some (.finished (payload.lookup "attemptNumber"))
  | _ => none

/-- The signal an answered call has given. -/
def signalOf (x : Entry infrastructure Failure Env) : Option Signal :=
  match x.reply with
  | .ok _ => x.op.signal
  | .error _ => none

/-- What thread `i` has told, in order. -/
def told (s : State) (i : ℕ) : List Signal :=
  (s.past i).filterMap signalOf

/-- The event of a call, if it publishes one. -/
def Op.event (now : Date) : Op → Option Event
  | .publish topic payload => some ⟨topic, now, payload⟩
  | _ => none

/-- The event an answered call has published. -/
def eventOf (x : Entry infrastructure Failure Env) : Option Event :=
  match x.reply with
  | .ok _ => x.op.event x.env.now
  | .error _ => none

/-- A call publishes its event. -/
theorem perform_events {e : Env} {w w' : World} {op : Op} {reply : op.Reply}
    (h : perform e w op = some (reply, w')) :
    w'.events = w.events ++ (op.event e.now).toList := by
  cases op <;>
    simp only [perform, Option.ite_none_right_eq_some, Option.map_eq_some_iff, Prod.mk.injEq,
      Option.some.injEq] at h <;> grind [Op.event]

/-- A key that runs out changes no message and no event. -/
theorem expire_queue {key : String} {now : Date} {w w' : World} (h : expire key now w = some w') :
    w'.ready = w.ready ∧ w'.events = w.events := by
  obtain ⟨lock, -, -, rfl⟩ := expire_eq_some.mp h
  exact ⟨rfl, rfl⟩

/-- What a thread may have told. An execution enqueues nothing. -/
inductive Story : Bool → List Signal → Prop
  | silent (executes : Bool) : Story executes []
  | enqueued : Story false [.enqueued]
  | announced : Story false [.enqueued, .created]
  | processing (executes : Bool) (n : ℕ) : Story executes [.processing (some (.num n))]
  | finished (executes : Bool) (n : ℕ) :
    Story executes [.processing (some (.num n)), .finished (some (.num n))]

/-- `job.created` comes right after the message. -/
theorem Story.eq_of_created {executes : Bool} {signals : List Signal}
    (h : Story executes (signals ++ [.created])) : signals = [.enqueued] := by
  generalize hnext : signals ++ [Signal.created] = next at h
  have hlast : next.getLast? = some .created := by simp [← hnext]
  cases h with
  | announced =>
    have hsplit : signals ++ [Signal.created] = [.enqueued] ++ [.created] := hnext
    exact (List.append_inj' hsplit rfl).1
  | silent | enqueued | processing | finished => simp at hlast

/-- The story of a thread that has sent a message. -/
theorem Story.of_enqueued {executes : Bool} {signals : List Signal} (h : Story executes signals)
    (hsent : .enqueued ∈ signals) : signals = [.enqueued] ∨ signals = [.enqueued, .created] := by
  cases h with
  | enqueued => exact .inl rfl
  | announced => exact .inr rfl
  | silent | processing | finished => simp at hsent

/-- What a thread has told when it ends. -/
inductive WholeStory : Bool → List Signal → Prop
  | silent (executes : Bool) : WholeStory executes []
  | announced : WholeStory false [.enqueued, .created]
  | finished (executes : Bool) (n : ℕ) :
    WholeStory executes [.processing (some (.num n)), .finished (some (.num n))]

theorem WholeStory.story {executes : Bool} {signals : List Signal}
    (h : WholeStory executes signals) :
    Story executes signals := by
  cases h with
  | silent => exact .silent _
  | announced => exact .announced
  | finished _ n => exact .finished _ n

theorem WholeStory.ne_enqueued {executes : Bool} {signals : List Signal}
    (h : WholeStory executes signals) : signals ≠ [.enqueued] := by
  rintro rfl
  cases h

/-- A resolved call adds its signal to what its thread has told. -/
theorem told_concat {s s' : State} {i : ℕ} {e : Env} {op : Op} {reply : op.Reply}
    (hlog : s'.log = s.log ++ [⟨i, e, op, .ok reply⟩]) (j : ℕ) :
    told s' j = told s j ++ if i = j then op.signal.toList else [] := by
  rw [told, Pool.past_append hlog, List.filterMap_append]
  by_cases hij : i = j
  · cases h : op.signal <;> simp [told, signalOf, hij, h]
  · simp [told, hij]

/-- Reads the signals of a thread, of which it is known if it is an execution. -/
abbrev storyMonitor : Monitor infrastructure where
  State := Bool × List Signal
  next q op _ := (q.1, q.2 ++ op.signal.toList)
  Permits q op := Story q.1 q.2 ∧ Story q.1 (q.2 ++ op.signal.toList) ∧
    (q.2 = [.enqueued] → op.signal = some .created)

theorem read_storyMonitor (executes : Bool) (signals : List Signal)
    (past : List (Entry infrastructure Failure Env)) :
    storyMonitor.read (executes, signals) past =
      (executes, signals ++ past.filterMap signalOf) := by
  induction past generalizing signals with
  | nil => simp [Monitor.read]
  | cons x past ih =>
    obtain ⟨i, e, op, r⟩ := x
    rw [Monitor.read, List.foldl_cons]
    cases r with
    | ok reply =>
      change storyMonitor.read (executes, signals ++ op.signal.toList) past = _
      rw [ih]
      cases h : op.signal <;> simp [signalOf, h]
    | error err =>
      change storyMonitor.read (executes, signals) past = _
      rw [ih]
      simp [List.filterMap_cons, signalOf]

/-! ## The calls of the platform -/

/-- From what has been told on, the program tells the rest. -/
abbrev Narrates {α : Type} (executes : Bool) (signals : List Signal) (p : Promise α) : Prop :=
  p.Follows handle storyMonitor (fun q _ => q.1 = executes ∧ WholeStory executes q.2)
    (executes, signals)

section Rules

variable {α β : Type} {executes : Bool} {signals : List Signal}

/-- A call that gives no signal. -/
theorem narrates_step {op : Op} {f : op.Reply → Promise α} (hop : op.signal = none)
    (hstory : Story executes signals) (hsent : signals ≠ [.enqueued])
    (hf : ∀ e (w : World) reply w', perform e w op = some (reply, w') →
      Narrates executes signals (f reply)) : Narrates executes signals ((await op).bind f) := by
  refine .await_bind ⟨hstory, ?_, fun h => absurd h hsent⟩ fun e w reply w' hh => ?_
  · rw [hop]
    simpa using hstory
  · dsimp only
    rw [hop, Option.toList_none, List.append_nil]
    exact hf _ _ _ _ (handle_eq_ok hh).1

/-- A call with a signal. -/
theorem narrates_signal {op : Op} {signal : Signal} {f : op.Reply → Promise α}
    (hop : op.signal = some signal) (hstory : Story executes signals)
    (hnext : Story executes (signals ++ [signal]))
    (hsent : signals = [.enqueued] → signal = .created)
    (hf : ∀ reply, Narrates executes (signals ++ [signal]) (f reply)) :
    Narrates executes signals ((await op).bind f) := by
  refine .await_bind ⟨hstory, ?_, fun h => hsent h ▸ hop⟩ fun e w reply w' hh => ?_
  · rw [hop]
    exact hnext
  · dsimp only
    rw [hop]
    exact hf reply

/-- A last call that gives no signal. -/
theorem narrates_last {op : Op} (hop : op.signal = none) (hwhole : WholeStory executes signals) :
    Narrates executes signals (await op) := by
  rw [← Prog.bind_ret (await op)]
  exact narrates_step hop hwhole.story hwhole.ne_enqueued fun _ _ _ _ _ => ⟨rfl, hwhole⟩

/-- What follows tells nothing more. -/
theorem narrates_map {p : Promise α} {f : α → β} (hp : Narrates executes signals p) :
    Narrates executes signals (p.bind fun a => .ret (f a)) :=
  Prog.Follows.bind (m := storyMonitor) (f := fun a => .ret (f a)) (fun _ _ h => h)
    (fun _ _ h => h) hp

end Rules

/-- What follows the write of a job as queued. -/
theorem narrates_announce {job : JobEntity} {action : OperatorActionColumns}
    {entry : CreateAuditEntryInput} {notification : CreateNotificationInput}
    {reason operatorId : String} {payload : Record} :
    Narrates false []
      (do
        let _ ← await (.insertOperatorAction action)
        let _ ← AuditService.log entry
        let notification ← NotificationService.create notification
        RabbitMqService.publishToQueue job.id reason operatorId
        RealtimeEventPublisher.publishJobCreated payload
        RealtimeEventPublisher.publishNotificationCreated notification.createdPayload
        return job) := by
  refine narrates_step rfl (.silent _) (by simp) fun _ _ _ _ _ => ?_
  refine narrates_step rfl (.silent _) (by simp) fun _ _ _ _ _ => ?_
  refine narrates_step rfl (.silent _) (by simp) fun _ _ notification _ _ => ?_
  refine narrates_signal rfl (.silent _) .enqueued (by simp) fun _ => ?_
  refine narrates_signal rfl .enqueued .announced (fun _ => rfl) fun _ => ?_
  refine narrates_step rfl .announced (by simp) fun _ _ _ _ _ => ?_
  exact ⟨rfl, .announced⟩

theorem narrates_create (input : CreateJobInput) : Narrates false [] (JobService.create input) := by
  unfold JobService.create
  exact narrates_step rfl (.silent _) (by simp) fun _ _ _ _ _ => narrates_announce

theorem narrates_retry (jobId : Uuid) (operatorId : String) :
    Narrates false [] (JobService.retry jobId operatorId) := by
  unfold JobService.retry
  rw [Prog.bind_eq, JobService.getById_bind]
  refine narrates_step rfl (.silent _) (by simp) fun _ _ found _ _ => ?_
  cases found with
  | none => exact ⟨rfl, .silent _⟩
  | some job =>
    dsimp only
    split_ifs
    · exact ⟨rfl, .silent _⟩
    · exact ⟨rfl, .silent _⟩
    exact narrates_step rfl (.silent _) (by simp) fun _ _ _ _ _ => narrates_announce

theorem narrates_getStatus (jobId : Uuid) : Narrates false [] (JobService.getStatus jobId) := by
  unfold JobService.getStatus
  rw [Prog.bind_eq, JobService.getById_bind]
  refine narrates_step rfl (.silent _) (by simp) fun _ _ found _ _ => ?_
  cases found with
  | none => exact ⟨rfl, .silent _⟩
  | some job => exact narrates_step rfl (.silent _) (by simp) fun _ _ _ _ _ => ⟨rfl, .silent _⟩

section Executions

variable (executes : Bool) {attempt : ProcessingAttemptEntity} {n : ℕ}

theorem narrates_markCompleted (job : JobEntity) (hn : attempt.attemptNumber = n) :
    Narrates executes [.processing (some (.num n))] (markCompleted job attempt) := by
  subst hn
  unfold markCompleted
  refine narrates_step rfl (.processing _ _) (by simp) fun _ _ finishedAt _ _ => ?_
  refine narrates_step rfl (.processing _ _) (by simp) fun _ _ saved _ hp => ?_
  cases hp
  refine narrates_step rfl (.processing _ _) (by simp) fun _ _ job _ _ => ?_
  refine narrates_step rfl (.processing _ _) (by simp) fun _ _ notification _ _ => ?_
  refine narrates_step rfl (.processing _ _) (by simp) fun _ _ _ _ _ => ?_
  refine narrates_signal rfl (.processing _ _) (.finished _ _) (by simp) fun _ => ?_
  exact narrates_last rfl (.finished _ _)

theorem narrates_reportFailure (job : JobEntity) (hn : attempt.attemptNumber = n)
    (errorMessage : String) (finishedAt : Date) (alert : AlertEntity)
    (incident : Option IncidentEntity) :
    Narrates executes [.processing (some (.num n))]
      (reportFailure job attempt errorMessage finishedAt alert incident) := by
  subst hn
  unfold reportFailure
  refine narrates_step rfl (.processing _ _) (by simp) fun _ _ notification _ _ => ?_
  refine narrates_step rfl (.processing _ _) (by simp) fun _ _ _ _ _ => ?_
  refine narrates_step rfl (.processing _ _) (by simp) fun _ _ _ _ _ => ?_
  cases incident with
  | none =>
    refine narrates_signal rfl (.processing _ _) (.finished _ _) (by simp) fun _ => ?_
    refine narrates_step rfl (.finished _ _) (by simp) fun _ _ _ _ _ => ?_
    exact narrates_last rfl (.finished _ _)
  | some incident =>
    refine narrates_step rfl (.processing _ _) (by simp) fun _ _ _ _ _ => ?_
    refine narrates_signal rfl (.processing _ _) (.finished _ _) (by simp) fun _ => ?_
    refine narrates_step rfl (.finished _ _) (by simp) fun _ _ _ _ _ => ?_
    refine narrates_step rfl (.finished _ _) (by simp) fun _ _ _ _ _ => ?_
    exact narrates_last rfl (.finished _ _)

theorem narrates_markFailed (job : JobEntity) (hn : attempt.attemptNumber = n)
    (errorMessage : String) :
    Narrates executes [.processing (some (.num n))] (markFailed job attempt errorMessage) := by
  unfold markFailed
  refine narrates_step rfl (.processing _ _) (by simp) fun _ _ finishedAt _ _ => ?_
  refine narrates_step rfl (.processing _ _) (by simp) fun _ _ saved _ hp => ?_
  cases hp
  refine narrates_step rfl (.processing _ _) (by simp) fun _ _ job _ _ => ?_
  refine narrates_step rfl (.processing _ _) (by simp) fun _ _ alert _ _ => ?_
  split_ifs
  · refine narrates_step rfl (.processing _ _) (by simp) fun _ _ incident _ _ => ?_
    exact narrates_reportFailure executes _ hn _ _ _ _
  · exact narrates_reportFailure executes _ hn _ _ _ _

theorem narrates_processJob (input : ProcessJobInput) (job : JobEntity) :
    Narrates executes [] (processJob input job) := by
  unfold processJob
  refine narrates_step rfl (.silent _) (by simp) fun _ _ startedAt _ _ => ?_
  refine narrates_step rfl (.silent _) (by simp) fun _ _ saved _ _ => ?_
  refine narrates_signal rfl (.silent _) (.processing _ (job.attemptCount + 1)) (by simp)
    fun _ => ?_
  refine narrates_step rfl (.processing _ _) (by simp) fun _ _ _ _ _ => ?_
  refine narrates_step rfl (.processing _ _) (by simp) fun _ _ attempt _ hp => ?_
  obtain ⟨-, attempts, -, rfl, -⟩ := perform_insertAttempt hp
  refine narrates_step rfl (.processing _ _) (by simp) fun _ _ _ _ _ => ?_
  split
  · exact narrates_markFailed executes (n := job.attemptCount + 1) _ rfl _
  · exact narrates_markCompleted executes (n := job.attemptCount + 1) _ rfl

theorem narrates_process (input : ProcessJobInput) : Narrates executes [] (process input) := by
  unfold process
  refine narrates_step rfl (.silent _) (by simp) fun _ _ acquired _ _ => ?_
  cases acquired with
  | false => exact ⟨rfl, .silent _⟩
  | true =>
    refine Prog.Follows.tryFinally (m := storyMonitor)
      (Q := fun q _ => q.1 = executes ∧ WholeStory executes q.2) ?_ ?_
    · rintro ⟨_, signals⟩ r ⟨rfl, hwhole⟩
      exact narrates_step rfl hwhole.story hwhole.ne_enqueued fun _ _ _ _ _ =>
        Prog.follows_resolve.mpr ⟨rfl, hwhole⟩
    · refine narrates_step rfl (.silent _) (by simp) fun _ _ found _ _ => ?_
      cases found with
      | none => exact ⟨rfl, .silent _⟩
      | some job => exact narrates_processJob executes input job

theorem narrates_consume (delivery : Delivery) :
    Narrates executes []
      (RabbitMqService.consumeCallback JobProcessingConsumer.onMessage delivery) := by
  unfold RabbitMqService.consumeCallback
  refine Prog.Follows.tryCatch (m := storyMonitor)
    (Q := fun q _ => q.1 = executes ∧ WholeStory executes q.2) (fun _ _ h => h) ?_ ?_
  · rintro ⟨_, signals⟩ err ⟨rfl, hwhole⟩
    exact narrates_last rfl hwhole
  · obtain ⟨tag, ⟨content⟩⟩ := delivery
    cases content with
    | none => exact ⟨rfl, .silent _⟩
    | some payload =>
      refine Prog.Follows.bind (m := storyMonitor)
        (Q := fun q _ => q.1 = executes ∧ WholeStory executes q.2) ?_ (fun _ _ h => h) ?_
      · rintro ⟨_, signals⟩ - ⟨rfl, hwhole⟩
        exact narrates_last rfl hwhole
      · unfold JobProcessingConsumer.onMessage
        split
        · exact ⟨rfl, .silent _⟩
        · exact narrates_process executes _

end Executions

/-- Every call of the platform tells the lifecycle in order. -/
theorem narrates_call (call : Call) : Narrates false [] call.prog := by
  cases call with
  | create input => exact narrates_map (narrates_create input)
  | retry jobId operatorId => exact narrates_map (narrates_retry jobId operatorId)
  | getStatus jobId => exact narrates_map (narrates_getStatus jobId)
  | process input => exact narrates_map (narrates_process false input)
  | consume delivery => exact narrates_map (narrates_consume false delivery)

/-! ## Runs -/

/-- A state, with what the messages do not carry : who sent them. -/
structure Trace where
  state : State
  /-- The thread that has sent each waiting message, if one of the run has. -/
  senders : List (Option ℕ)
  /-- The thread that has sent the message each thread came from, if it came from one. -/
  origins : List (Option ℕ)

namespace Trace

/-- Nothing running over `w`. -/
def init (w : World) : Trace :=
  ⟨State.init w, w.ready.map fun _ => none, []⟩

/-- The thread that has sent the message thread `j` came from. -/
def origin (t : Trace) (j : ℕ) : Option ℕ :=
  t.origins[j]?.join

/-- One move of the platform. -/
def step (t : Trace) (m : Label) : Option Trace :=
  (RealtimeOps.step t.state m).map fun s =>
    match m with
    | .start _ => ⟨s, t.senders, t.origins ++ [none]⟩
    | .deliver n => ⟨s, t.senders.eraseIdx n, t.origins ++ [t.senders[n]?.join]⟩
    | .step i _ =>
      let sent := s.world.ready.length - t.state.world.ready.length
      ⟨s, t.senders ++ List.replicate sent (some i), t.origins⟩
    | .redeliver _ | .stop _ | .expire _ _ => ⟨s, t.senders, t.origins⟩

/-- A move of a run in which no call and no process fails. -/
def Faultless (t : Trace) (m : Label) : Prop :=
  (match m with
    | .redeliver _ | .stop _ => False
    | .start _ | .deliver _ | .step _ _ | .expire _ _ => True) ∧ Resolves t.state m

instance (t : Trace) : DecidablePred t.Faultless
  | .start _ | .deliver _ | .step _ _ | .expire _ _ =>
    inferInstanceAs (Decidable (True ∧ Resolves _ _))
  | .redeliver _ | .stop _ => inferInstanceAs (Decidable (False ∧ _))

/-- Thread `i` has `job.created` to publish next. -/
def announces (s : State) (i : ℕ) : Prop :=
  ∃ op ∈ s.awaited i, op.signal = some .created

instance (s : State) (i : ℕ) : Decidable (announces s i) :=
  inferInstanceAs (Decidable (∃ op ∈ s.awaited i, _))

/-- An execution does not publish `job.processing` while the sender of its message has
`job.created` still to publish. -/
def Waits (t : Trace) (m : Label) : Prop :=
  Answers t.state (fun j _ op =>
    op.signal.any Signal.starts = true → ∀ i ∈ t.origin j, ¬announces t.state i) m

instance (t : Trace) : DecidablePred t.Waits := fun _ =>
  inferInstanceAs (Decidable (Answers _ _ _))

/-- Thread `i` has published `job.created` among the first `k` answered calls. -/
def Announced (s : State) (k i : ℕ) : Prop :=
  ∃ y ∈ s.log.take k, y.thread = i ∧ signalOf y = some .created

instance (s : State) (k i : ℕ) : Decidable (Announced s k i) :=
  inferInstanceAs (Decidable (∃ y ∈ _, _))

/-- When an execution has published `job.processing`, the sender of its message had published
`job.created` before. -/
def CreatedFirst (t : Trace) : Prop :=
  ∀ k < t.state.log.length, ∀ x ∈ t.state.log[k]?,
    (signalOf x).any Signal.starts = true → ∀ i ∈ t.origin x.thread, Announced t.state k i

instance (t : Trace) : Decidable t.CreatedFirst :=
  inferInstanceAs (Decidable (∀ k < _, ∀ x ∈ _, _ → ∀ i ∈ _, Announced _ _ _))

/-- The lifecycle of each execution of a message that `create` or `retry` has sent. -/
structure LifecycleOrder (t : Trace) : Prop where
  created : t.CreatedFirst
  /-- `job.processing` first, then one end with its attempt number. -/
  execution : ∀ j, (t.origin j).isSome → told t.state j = [] ∨ ∃ n : ℕ,
    told t.state j = [.processing (some (.num n))] ∨
      told t.state j = [.processing (some (.num n)), .finished (some (.num n))]
  /-- An execution that is over has told its end if it has told its start. -/
  ended : ∀ j, (t.origin j).isSome → (t.state.outcome j).isSome → told t.state j = [] ∨ ∃ n : ℕ,
    told t.state j = [.processing (some (.num n)), .finished (some (.num n))]

/-- The senders and origins of a trace have enqueued something, and each thread follows the
monitor, as an execution if it came from a message. -/
structure Attributed (t : Trace) : Prop where
  senders : t.senders.length = t.state.world.ready.length
  origins : t.origins.length = t.state.threads.length
  sent : ∀ i, some i ∈ t.senders → .enqueued ∈ told t.state i
  came : ∀ j, ∀ i ∈ t.origin j, .enqueued ∈ told t.state i
  monitored : t.state.Monitored handle storyMonitor (fun q _ => WholeStory q.1 q.2)
    fun j => ((t.origin j).isSome, [])

namespace Attributed

variable {t t' : Trace} {i j : ℕ}

theorem origin_concat (s : State) (senders : List (Option ℕ)) (o : Option ℕ) (j : ℕ) :
    origin ⟨s, senders, t.origins ++ [o]⟩ j =
      if j = t.origins.length then o else t.origin j := by
  rw [origin, origin]
  rcases Nat.lt_trichotomy j t.origins.length with hj | rfl | hj
  · rw [List.getElem?_append_left hj, if_neg hj.ne]
  · simp
  · rw [List.getElem?_eq_none (by simp; omega), List.getElem?_eq_none hj.le, if_neg hj.ne']

theorem init (w : World) : (init w).Attributed where
  senders := List.length_map _
  origins := rfl
  sent := by simp [Trace.init]
  came := by simp [Trace.init, origin]
  monitored := .init w

/-- At any time a thread has told a part of its story. -/
theorem story (h : t.Attributed) (i : ℕ) : Story (t.origin i).isSome (told t.state i) := by
  have hread := read_storyMonitor (t.origin i).isSome [] (t.state.past i)
  cases hi : t.state.threads[i]? with
  | none =>
    have hpast := h.monitored.past_eq_nil (List.getElem?_eq_none_iff.mp hi)
    rw [told, hpast]
    exact .silent _
  | some p =>
    have hp := h.monitored.follows i p hi
    rw [hread] at hp
    cases p with
    | ret a => exact hp.story
    | throw err => exact hp.story
    | call op k => exact hp.1.1

/-- A thread that has enqueued and not yet published `job.created` does so next. -/
theorem announces (h : t.Attributed) (hi : told t.state i = [.enqueued]) :
    announces t.state i := by
  have hread := read_storyMonitor (t.origin i).isSome [] (t.state.past i)
  rw [List.nil_append] at hread
  change _ = (_, told t.state i) at hread
  have hpast : t.state.past i ≠ [] := by
    intro hnil
    rw [told, hnil] at hi
    cases hi
  obtain ⟨p, hp⟩ : ∃ p, t.state.threads[i]? = some p := by
    by_contra hno
    refine hpast (h.monitored.past_eq_nil (List.getElem?_eq_none_iff.mp ?_))
    exact Option.eq_none_iff_forall_ne_some.mpr fun p hp => hno ⟨p, hp⟩
  have hfollows := h.monitored.follows i p hp
  rw [hread, hi] at hfollows
  cases p with
  | ret a => exact absurd rfl hfollows.ne_enqueued
  | throw err => exact absurd rfl hfollows.ne_enqueued
  | call op k => exact ⟨op, Pool.awaited_eq_some.mpr ⟨k, hp⟩, hfollows.1.2.2 rfl⟩

/-- A thread starts. -/
theorem spawn {call : Call} {o : Option ℕ} {senders : List (Option ℕ)} {w : World}
    (h : t.Attributed)
    (hprog : Narrates o.isSome [] call.prog) (hsenders : senders.length = w.ready.length)
    (hsent : ∀ i, some i ∈ senders → .enqueued ∈ told t.state i)
    (hcame : ∀ i ∈ o, .enqueued ∈ told t.state i) :
    Attributed ⟨Pool.spawn call.prog { t.state with world := w }, senders, t.origins ++ [o]⟩ := by
  have horigin := origin_concat (t := t) (Pool.spawn call.prog { t.state with world := w })
    senders o
  refine ⟨hsenders, by simp [Pool.spawn, h.origins], hsent, fun j i hi => ?_, ?_⟩
  · rw [horigin] at hi
    split_ifs at hi
    · exact hcame i hi
    · exact h.came j i hi
  · refine (h.monitored.world w).spawn (fun i hi => ?_) ?_
    · rw [horigin, if_neg (h.origins ▸ hi.ne)]
    · rw [horigin, if_pos h.origins.symm]
      refine hprog.mono ?_
      rintro ⟨_, signals⟩ r ⟨rfl, hwhole⟩
      exact hwhole

/-- A call resolves. -/
theorem advance {s : State} {e : Env} (h : t.Attributed)
    (hok : ∀ op ∈ t.state.awaited i, (handle e op t.state.world).1.isOk = true)
    (hs : t.state.advance handle i e = some s) :
    Attributed ⟨s, t.senders ++
      List.replicate (s.world.ready.length - t.state.world.ready.length) (some i), t.origins⟩ ∧
      ∃ op reply, t.state.awaited i = some op ∧
        s.log = t.state.log ++ [⟨i, e, op, .ok reply⟩] ∧
        s.world.events = t.state.world.events ++ (op.event e.now).toList := by
  obtain ⟨op, k, hk, hworld, -, hlog, -, hlength, -⟩ := Pool.advance_threads hs
  have hop := Pool.awaited_eq_some.mpr ⟨k, hk⟩
  obtain ⟨⟨reply, w⟩, hh⟩ : ∃ res : op.Reply × World, handle e op t.state.world =
      (.ok res.1, res.2) := by
    have hok := hok op hop
    cases hh : handle e op t.state.world with
    | mk r w =>
      rw [hh] at hok
      cases r with
      | ok reply => exact ⟨(reply, w), rfl⟩
      | error err => cases hok
  rw [hh] at hworld hlog
  have htold := told_concat hlog
  have hgrows : ∀ j, .enqueued ∈ told t.state j → .enqueued ∈ told s j := fun j hj => by
    rw [htold]
    exact List.mem_append_left _ hj
  have hperform := (handle_eq_ok hh).1
  obtain ⟨hready, -⟩ := perform_queue hperform
  have hevents := perform_events hperform
  rw [← hworld] at hready hevents
  refine ⟨⟨?_, h.origins.trans hlength.symm, fun j hj => ?_, fun j k hk => ?_, ?_⟩, op, reply, hop,
    hlog, hevents⟩
  · rw [List.length_append, List.length_replicate, h.senders, hready, List.length_append]
    exact Nat.add_sub_cancel' (Nat.le_add_right _ _)
  · rcases List.mem_append.mp hj with hj | hj
    · exact hgrows j (h.sent j hj)
    · obtain ⟨hne, hij⟩ := List.mem_replicate.mp hj
      cases hij
      rw [htold, if_pos rfl]
      rw [hready, List.length_append] at hne
      cases op with
      | sendToQueue m => simp [Op.signal]
      | _ => exact absurd (Nat.add_sub_cancel_left _ _) hne
  · exact hgrows k (h.came j k hk)
  · exact h.monitored.advance hok hs

/-- The sender of an execution's message has published `job.created` unless it does so next. -/
theorem created_iff (h : t.Attributed) (hi : i ∈ t.origin j) :
    .created ∈ told t.state i ↔ ¬Trace.announces t.state i := by
  constructor
  · rintro hcreated ⟨op, hop, hsignal⟩
    have hpermits := (h.monitored.permits hop).2.1
    rw [read_storyMonitor, List.nil_append, hsignal] at hpermits
    have htold : told t.state i = [.enqueued] := hpermits.eq_of_created
    rw [htold] at hcreated
    simp at hcreated
  · intro hno
    rcases (h.story i).of_enqueued (h.came j i hi) with htold | htold
    · exact absurd (h.announces htold) hno
    · simp [htold]

/-- Every move of a run without failures. -/
theorem step {m : Label} (h : t.Attributed) (hm : t.Faultless m) (hs : t.step m = some t') :
    t'.Attributed := by
  obtain ⟨s, hmove, rfl⟩ := Option.map_eq_some_iff.mp hs
  cases m with
  | start call =>
    cases hmove
    exact h.spawn (narrates_call call) h.senders h.sent (by simp)
  | deliver n =>
    obtain ⟨message, hmessage, rfl⟩ := Option.map_eq_some_iff.mp hmove
    refine h.spawn (narrates_map (narrates_consume _ _)) ?_
      (fun i hi => h.sent i (List.mem_of_mem_eraseIdx hi)) fun i hi => ?_
    · simp only [List.length_eraseIdx, h.senders]
    · exact h.sent i (List.mem_of_getElem? (Option.join_eq_some_iff.mp hi))
  | step i e =>
    exact (h.advance hm.2 (step_step.mp hmove).2).1
  | expire key now =>
    obtain ⟨w, hw, rfl⟩ := Option.map_eq_some_iff.mp hmove
    exact ⟨h.senders.trans (congrArg _ (expire_queue hw).1.symm), h.origins, h.sent, h.came,
      h.monitored.world w⟩
  | redeliver | stop => exact hm.1.elim

end Attributed

/-! ## The order of the events -/

section Order

variable {t t' : Trace}

theorem announced_length_iff {s : State} {i : ℕ} :
    Announced s s.log.length i ↔ .created ∈ told s i := by
  simp only [Announced, told, Pool.past, List.take_length, List.mem_filterMap, List.mem_filter,
    decide_eq_true_eq, and_assoc]

/-- One more answered call. -/
theorem createdFirst_concat {s : State} {senders : List (Option ℕ)}
    {x : Entry infrastructure Failure Env} (hlog : s.log = t.state.log ++ [x]) :
    CreatedFirst ⟨s, senders, t.origins⟩ ↔ t.CreatedFirst ∧
      ((signalOf x).any Signal.starts = true →
        ∀ i ∈ t.origin x.thread, .created ∈ told t.state i) := by
  have hannounced : ∀ k ≤ t.state.log.length, ∀ i,
      Announced s k i ↔ Announced t.state k i := fun k hk i => by
    rw [Announced, Announced, hlog, List.take_append_of_le_length hk]
  have hlast : s.log[t.state.log.length]? = some x := by
    rw [hlog, List.getElem?_concat_length]
  constructor
  · refine fun h => ⟨fun k hk y hy hstarts i hi => ?_, fun hstarts i hi => ?_⟩
    · refine (hannounced k hk.le i).mp (h k ?_ y ?_ hstarts i hi)
      · rw [hlog, List.length_append]
        exact hk.trans (Nat.lt_succ_self _)
      · rw [hlog, List.getElem?_append_left hk]
        exact hy
    · refine announced_length_iff.mp ((hannounced _ le_rfl i).mp ?_)
      refine h _ ?_ x hlast hstarts i hi
      rw [hlog, List.length_append]
      exact Nat.lt_succ_self _
  · rintro ⟨h, hnew⟩ k hk y hy hstarts i hi
    rw [hlog, List.length_append, List.length_singleton] at hk
    rcases Nat.lt_succ_iff_lt_or_eq.mp hk with hk | rfl
    · rw [hlog, List.getElem?_append_left hk] at hy
      exact (hannounced k hk.le i).mpr (h k hk y hy hstarts i hi)
    · cases hlast.symm.trans hy
      exact (hannounced _ le_rfl i).mpr (announced_length_iff.mpr (hnew hstarts i hi))

/-- No call is answered. -/
theorem CreatedFirst.of_log (h : t.CreatedFirst) (hlog : t'.state.log = t.state.log)
    (horigin : ∀ x ∈ t.state.log, t'.origin x.thread = t.origin x.thread) : t'.CreatedFirst := by
  intro k hk x hx hstarts i hi
  rw [hlog] at hk hx
  rw [horigin x (List.mem_of_getElem? hx)] at hi
  have hannounced := h k hk x hx hstarts i hi
  rw [Announced] at hannounced ⊢
  rw [hlog]
  exact hannounced

/-- A move keeps `job.created` first if and only if no execution overtakes it. -/
theorem Attributed.createdFirst_iff {m : Label} (h : t.Attributed) (hfirst : t.CreatedFirst)
    (hm : t.Faultless m) (hs : t.step m = some t') : t'.CreatedFirst ↔ t.Waits m := by
  obtain ⟨s, hmove, rfl⟩ := Option.map_eq_some_iff.mp hs
  have hspawn : ∀ (s : State) (senders : List (Option ℕ)) (o : Option ℕ),
      s.log = t.state.log → CreatedFirst ⟨s, senders, t.origins ++ [o]⟩ := by
    refine fun s senders o hlog => hfirst.of_log hlog fun x hx => ?_
    have hthread : x.thread ≠ t.origins.length := by
      rw [h.origins]
      exact (h.monitored.log x hx).ne
    rw [origin_concat, if_neg hthread]
  cases m with
  | start call =>
    cases hmove
    exact iff_of_true (hspawn _ _ _ rfl) trivial
  | deliver n =>
    obtain ⟨message, -, rfl⟩ := Option.map_eq_some_iff.mp hmove
    exact iff_of_true (hspawn _ _ _ rfl) trivial
  | step i e =>
    obtain ⟨-, op, reply, hop, hlog, -⟩ := h.advance hm.2 (step_step.mp hmove).2
    have hwaits : t.Waits (.step i e) ↔ (op.signal.any Signal.starts = true →
        ∀ j ∈ t.origin i, ¬Trace.announces t.state j) := by
      simp only [Waits, Answers, hop, Option.mem_some_iff, forall_eq']
    refine (createdFirst_concat hlog).trans ((and_iff_right hfirst).trans ?_)
    rw [hwaits]
    refine imp_congr_right fun _ => forall₂_congr fun j hj => ?_
    exact h.created_iff hj
  | expire key now =>
    obtain ⟨w, -, rfl⟩ := Option.map_eq_some_iff.mp hmove
    exact iff_of_true (hfirst.of_log rfl fun _ _ => rfl) trivial
  | redeliver | stop => exact hm.1.elim

/-- What the calls of a run publish is what is on the exchange. -/
theorem Attributed.events {m : Label} {events : List Event} (h : t.Attributed)
    (hevents : t.state.world.events = events ++ t.state.log.filterMap eventOf)
    (hm : t.Faultless m) (hs : t.step m = some t') :
    t'.state.world.events = events ++ t'.state.log.filterMap eventOf := by
  obtain ⟨s, hmove, rfl⟩ := Option.map_eq_some_iff.mp hs
  cases m with
  | start call =>
    cases hmove
    exact hevents
  | deliver n =>
    obtain ⟨message, -, rfl⟩ := Option.map_eq_some_iff.mp hmove
    exact hevents
  | step i e =>
    obtain ⟨-, op, reply, -, hlog, hworld⟩ := h.advance hm.2 (step_step.mp hmove).2
    dsimp only
    rw [hworld, hlog, hevents, List.filterMap_append, List.append_assoc]
    cases hop : op.event e.now <;> simp [eventOf, hop]
  | expire key now =>
    obtain ⟨w, hw, rfl⟩ := Option.map_eq_some_iff.mp hmove
    exact (expire_queue hw).2.trans hevents
  | redeliver | stop => exact hm.1.elim

/-- With `job.created` first, the rest of the order is in the programs. -/
theorem Attributed.lifecycleOrder (h : t.Attributed) (hfirst : t.CreatedFirst) :
    t.LifecycleOrder where
  created := hfirst
  execution := fun j hj => by
    have hstory := h.story j
    rw [hj] at hstory
    generalize told t.state j = signals at hstory
    cases hstory with
    | silent => exact .inl rfl
    | processing _ n => exact .inr ⟨n, .inl rfl⟩
    | finished _ n => exact .inr ⟨n, .inr rfl⟩
  ended := fun j hj hends => by
    obtain ⟨r, hr⟩ := Option.isSome_iff_exists.mp hends
    have hwhole := h.monitored.ends hr
    rw [read_storyMonitor, hj, List.nil_append] at hwhole
    change WholeStory true (told t.state j) at hwhole
    generalize told t.state j = signals at hwhole
    cases hwhole with
    | silent => exact .inl rfl
    | finished _ n => exact .inr ⟨n, rfl⟩

/-- In every run without failures in which no execution publishes `job.processing` while the
sender of its message has `job.created` still to publish, each lifecycle is published in order :
`job.created`, `job.processing`, and one end with the same attempt number. The next move of such a
run keeps that order if and only if it meets the condition as well. The answered calls are what is
on the exchange. -/
theorem events_in_order {w : World}
    (h : Reachable step (fun t m => t.Faultless m ∧ t.Waits m) (init w) t) :
    t.LifecycleOrder ∧ (∀ m t', t.Faultless m → t.step m = some t' →
      (t'.LifecycleOrder ↔ t.Waits m)) ∧
      t.state.world.events = w.events ++ t.state.log.filterMap eventOf := by
  obtain ⟨hattributed, hfirst, hevents⟩ : t.Attributed ∧ t.CreatedFirst ∧
      t.state.world.events = w.events ++ t.state.log.filterMap eventOf := by
    refine Reachable.invariant (I := fun t : Trace => t.Attributed ∧ t.CreatedFirst ∧
      t.state.world.events = w.events ++ t.state.log.filterMap eventOf) ?_
      ⟨.init w, by simp [CreatedFirst, init, State.init], by simp [init, State.init]⟩ h
    rintro t m t' ⟨hattributed, hfirst, hevents⟩ ⟨hm, hwaits⟩ hs
    exact ⟨hattributed.step hm hs, (hattributed.createdFirst_iff hfirst hm hs).mpr hwaits,
      hattributed.events hevents hm hs⟩
  refine ⟨hattributed.lifecycleOrder hfirst, fun m t' hm hs => ?_, hevents⟩
  have hiff := hattributed.createdFirst_iff hfirst hm hs
  exact ⟨fun horder => hiff.mp horder.created, fun hwaits =>
    (hattributed.step hm hs).lifecycleOrder (hiff.mpr hwaits)⟩

/-- A job is created and processed, each event in its turn. -/
theorem events_in_order_created : ∃ t : Trace, t.LifecycleOrder ∧ Quiescent t.state ∧
    t.state.world.events.map Event.topic =
      ["job.created", "notification.created", "job.processing", "job.completed",
        "notification.created"] := by
  obtain ⟨t, ht, hq, hevents⟩ :
      ∃ t, Reachable step (fun t m => t.Faultless m ∧ t.Waits m) (init .empty) t ∧
        Quiescent t.state ∧ t.state.world.events.map Event.topic =
          ["job.created", "notification.created", "job.processing", "job.completed",
            "notification.created"] :=
    exists_reachable_of_execute _
      (.start (.create ⟨"ingest", "batch", [], 1, 1, "alice"⟩) :: calls 0 7 1 ++
        .deliver 0 :: calls 1 17 20) _ (by decide)
  exact ⟨t, (events_in_order ht).1, hq, hevents⟩

/-- An execution publishes `job.processing` before `create` has published `job.created`. -/
theorem not_events_in_order : ∃ t : Trace,
    Reachable step (fun t m => t.Faultless m) (init .empty) t ∧ ¬t.LifecycleOrder := by
  obtain ⟨t, ht, hfirst⟩ : ∃ t, Reachable step (fun t m => t.Faultless m) (init .empty) t ∧
      ¬t.CreatedFirst :=
    exists_reachable_of_execute _
      (.start (.create ⟨"ingest", "batch", [], 1, 1, "alice"⟩) :: calls 0 5 1 ++
        .deliver 0 :: calls 1 5 20) _ (by decide)
  exact ⟨t, ht, fun h => hfirst h.created⟩

end Order

end Trace

end RealtimeOps
