import RealtimeOps.Links
import RealtimeOps.Permanence
import RealtimeOps.RowShape
import RealtimeOps.StatusRead

/-!
# The calls on jobs apart

The commands on alerts and incidents share their tables with the executions, which raise alerts and
open incidents of their own, but no call on a job reads what they have changed. So every run of the
operations, without these commands, is a run of the platform (`Operations.simulates`) : a call that
was refused because of a row that is not there is rejected instead. What holds of the jobs in every
state of the platform then holds in the deployment, whatever the operators do to alerts and
incidents.

An execution opens an incident for the alert it has raised; that the platform has this alert is a
promise of the execution (`incidents`).
-/

set_option autoImplicit false

namespace RealtimeOps

open Interleaving JobProcessorService

/-! ## Worlds -/

/-- The identity of an incident and its link. -/
def IncidentEntity.linkedIdentity (incident : IncidentEntity) :
    Option Uuid × String × String × Date :=
  (incident.alertId, incident.identity)

/-- Where links are kept, they are kept with the rest of the identity. -/
theorem World.Preserves.linked {w w' : World} (h : w.Preserves w') (hle : w ≤ w') :
    Keeping IncidentEntity.linkedIdentity w.incidents w'.incidents := by
  intro incident hincident
  obtain ⟨row, hrow, hid, hlink, hsame⟩ :=
    (World.Keeps.incidents hle).and h.incidents incident hincident
  exact ⟨row, hrow, hid, Prod.ext hlink hsame⟩

/-- `w'` is the world of the calls on jobs in the world `w` of the operations : it lacks rows and
events of the commands on alerts and incidents, its alerts and incidents may have other statuses,
and its clock may be behind. -/
structure World.Thins (w w' : World) : Prop where
  jobs : w'.jobs = w.jobs
  attempts : w'.attempts = w.attempts
  locks : w'.locks = w.locks
  ready : w'.ready = w.ready
  unacked : w'.unacked = w.unacked
  nextTag : w'.nextTag = w.nextTag
  alerts : Keeping AlertEntity.identity w'.alerts w.alerts
  incidents : Keeping IncidentEntity.linkedIdentity w'.incidents w.incidents
  notifications : w'.notifications.rows.Sublist w.notifications.rows
  operatorActions : w'.operatorActions.rows.Sublist w.operatorActions.rows
  auditEntries : w'.auditEntries.rows.Sublist w.auditEntries.rows
  events : w'.events.Sublist w.events
  clock : w'.clock ≤ w.clock

/-- The alert that the call opens an incident for is stored. -/
def Op.FindsAlert (op : Op) (w : World) : Prop :=
  ∀ c, op = .insertIncident c → ∀ id ∈ c.alertId, (w.alerts.lookup id).isSome

namespace World.Thins

variable {w w' w₁ : World} {e : Env} {op : Op}

theorem refl (w : World) : w.Thins w where
  jobs := rfl
  attempts := rfl
  locks := rfl
  ready := rfl
  unacked := rfl
  nextTag := rfl
  alerts := .refl _ _
  incidents := .refl _ _
  notifications := .refl _
  operatorActions := .refl _
  auditEntries := .refl _
  events := .refl _
  clock := le_rfl

/-- A call on jobs that goes through does so in the thinner world, with the same reply. -/
theorem perform (h : w.Thins w') (hop : op.Working) (halert : op.FindsAlert w')
    {reply : op.Reply} (hp : RealtimeOps.perform e w op = some (reply, w₁)) :
    ∃ w₁', RealtimeOps.perform e w' op = some (reply, w₁') ∧ w₁.Thins w₁' := by
  cases op with
  | findJob id =>
    cases hp
    exact ⟨w', by rw [RealtimeOps.perform, h.jobs], h⟩
  | insertJob c =>
    obtain ⟨hfits, t, ht, rfl, rfl⟩ := perform_insertJob hp
    refine ⟨{ w' with jobs := t }, ?_, { h with jobs := rfl }⟩
    rw [RealtimeOps.perform, if_pos hfits, h.jobs, ht]
    rfl
  | saveJob job =>
    cases hp
    exact ⟨{ w' with jobs := w.jobs.save _ }, by rw [RealtimeOps.perform, h.jobs],
      { h with jobs := rfl }⟩
  | findAttempts jobId =>
    cases hp
    exact ⟨w', by rw [RealtimeOps.perform, h.attempts], h⟩
  | insertAttempt c =>
    obtain ⟨hguard, t, ht, rfl, rfl⟩ := perform_insertAttempt hp
    refine ⟨{ w' with attempts := t }, ?_, { h with attempts := rfl }⟩
    rw [RealtimeOps.perform, h.jobs, h.attempts, if_pos hguard, ht]
    rfl
  | saveAttempt attempt =>
    cases hp
    exact ⟨_, rfl, { h with attempts := by rw [h.attempts] }⟩
  | insertAlert c =>
    obtain ⟨hguard, t, ht, rfl, rfl⟩ := perform_insertAlert hp
    obtain ⟨t', ht', halerts⟩ := h.alerts.exists_insert (fun _ => rfl) ht
    refine ⟨{ w' with alerts := t' }, ?_, { h with alerts := halerts }⟩
    rw [RealtimeOps.perform, h.jobs, if_pos hguard, ht']
    rfl
  | insertIncident c =>
    obtain ⟨⟨hfree, hfits⟩, t, ht, rfl, rfl⟩ := perform_insertIncident hp
    obtain ⟨t', ht', hincidents⟩ := h.incidents.exists_insert (fun _ => rfl) ht
    have hguard : ∀ id, c.alertId = some id → (w'.alerts.lookup id).isSome ∧
        ∀ i ∈ w'.incidents.rows, i.alertId ≠ some id := by
      intro id hid
      refine ⟨halert c rfl id hid, fun i hi hlink => ?_⟩
      obtain ⟨i', hi', -, hsame⟩ := h.incidents i hi
      exact (hfree id hid).2 i' hi' ((Prod.mk.inj hsame).1.trans hlink)
    refine ⟨{ w' with incidents := t' }, ?_, { h with incidents := hincidents }⟩
    rw [RealtimeOps.perform, if_pos ⟨hguard, hfits⟩, ht']
    rfl
  | insertNotification c =>
    obtain ⟨t, ht, rfl, rfl⟩ := perform_insertNotification hp
    obtain ⟨t', ht', hsub⟩ := Table.exists_insert_of_sublist h.notifications ht
    refine ⟨{ w' with notifications := t' }, ?_, { h with notifications := hsub }⟩
    rw [RealtimeOps.perform, ht']
    rfl
  | insertAuditEntry c =>
    obtain ⟨hfits, t, ht, rfl, rfl⟩ := perform_insertAuditEntry hp
    obtain ⟨t', ht', hsub⟩ := Table.exists_insert_of_sublist h.auditEntries ht
    refine ⟨{ w' with auditEntries := t' }, ?_, { h with auditEntries := hsub }⟩
    rw [RealtimeOps.perform, if_pos hfits, ht']
    rfl
  | insertOperatorAction c =>
    obtain ⟨hfits, t, ht, rfl, rfl⟩ := perform_insertOperatorAction hp
    obtain ⟨t', ht', hsub⟩ := Table.exists_insert_of_sublist h.operatorActions ht
    refine ⟨{ w' with operatorActions := t' }, ?_, { h with operatorActions := hsub }⟩
    rw [RealtimeOps.perform, if_pos hfits, ht']
    rfl
  | setNX key ttlSeconds =>
    simp only [RealtimeOps.perform, h.locks] at hp ⊢
    split at hp
    · cases hp
      exact ⟨_, rfl, { h with locks := rfl }⟩
    · cases hp
      exact ⟨w', rfl, h⟩
  | del key =>
    cases hp
    exact ⟨_, rfl, { h with locks := by rw [h.locks] }⟩
  | sendToQueue message =>
    cases hp
    exact ⟨_, rfl, { h with ready := by rw [h.ready] }⟩
  | publish topic payload =>
    cases hp
    exact ⟨_, rfl, { h with events := h.events.append_right _ }⟩
  | ack tag | nack tag =>
    cases hp
    exact ⟨_, rfl, { h with unacked := by rw [h.unacked] }⟩
  | sleep | now =>
    cases hp
    exact ⟨w', rfl, h⟩
  | findAlert | saveAlert | updateAlert | findIncident | saveIncident => exact hop.elim

/-- The time passes in both. -/
theorem tick (h : w.Thins w') (now : Date) :
    World.Thins { w with clock := now } { w' with clock := now } :=
  { h with clock := le_rfl }

/-- A call on jobs has the same answer in the thinner world, under a choice that rejects it if it
was refused. -/
theorem handle (h : w.Thins w') (hop : op.Working) (halert : op.FindsAlert w') (e : Env) :
    ∃ e', e'.now = e.now ∧ (RealtimeOps.handle e' op w').1 = (RealtimeOps.handle e op w).1 ∧
      (RealtimeOps.handle e op w).2.Thins (RealtimeOps.handle e' op w').2 := by
  cases hp : RealtimeOps.perform e { w with clock := e.now } op with
  | some res =>
    obtain ⟨reply, w₁⟩ := res
    obtain ⟨w₁', hp', hthins⟩ := (h.tick e.now).perform hop halert hp
    refine ⟨e, rfl, ?_⟩
    simp only [RealtimeOps.handle, hp, hp']
    split
    · exact ⟨rfl, hthins⟩
    · cases e.outcome
      · exact ⟨rfl, hthins⟩
      · exact ⟨rfl, h.tick e.now⟩
      · exact ⟨rfl, hthins⟩
  | none =>
    have hlocal : op.local = false := by
      cases op with
      | ack | nack | sleep | now => cases hp
      | _ => rfl
    refine ⟨{ e with outcome := .rejects }, rfl, ?_⟩
    have hrefused : RealtimeOps.handle e op w = (.error .rejected, { w with clock := e.now }) := by
      simp only [RealtimeOps.handle, hp]
    rw [hrefused]
    rcases handle_cases (e := { e with outcome := .rejects }) hlocal w' with ⟨-, hh⟩ | ⟨_, _, -, hh⟩
    · rw [hh]
      exact ⟨rfl, h.tick e.now⟩
    · rcases hh with ⟨ho, -⟩ | ⟨ho, -⟩ <;> cases ho

/-- A call on alerts changes nothing that a call on jobs reads. -/
theorem aside (h : w.Thins w') (hop : op.OnAlerts) (hclock : w.clock ≤ e.now)
    (hw : w.Preserves (RealtimeOps.handle e op w).2) (hle : w ≤ (RealtimeOps.handle e op w).2) :
    (RealtimeOps.handle e op w).2.Thins w' := by
  obtain ⟨hjobs, hattempts, hlocks, hready, hunacked, htag⟩ :
      (RealtimeOps.handle e op w).2.jobs = w.jobs ∧
        (RealtimeOps.handle e op w).2.attempts = w.attempts ∧
        (RealtimeOps.handle e op w).2.locks = w.locks ∧
        (RealtimeOps.handle e op w).2.ready = w.ready ∧
        (RealtimeOps.handle e op w).2.unacked = w.unacked ∧
        (RealtimeOps.handle e op w).2.nextTag = w.nextTag := by
    rcases handle_world e op w with hw | ⟨reply, hp⟩
    · rw [hw]
      exact ⟨rfl, rfl, rfl, rfl, rfl, rfl⟩
    generalize (RealtimeOps.handle e op w).2 = w₁ at hp
    cases op <;> first
      | exact hop.elim
      | simp only [RealtimeOps.perform, Option.ite_none_right_eq_some, Option.map_eq_some_iff,
          Prod.mk.injEq, Option.some.injEq] at hp
        grind
  exact
    { jobs := h.jobs.trans hjobs.symm
      attempts := h.attempts.trans hattempts.symm
      locks := h.locks.trans hlocks.symm
      ready := h.ready.trans hready.symm
      unacked := h.unacked.trans hunacked.symm
      nextTag := h.nextTag.trans htag.symm
      alerts := h.alerts.trans (fun h h' => h'.trans h) hw.alerts
      incidents := h.incidents.trans (fun h h' => h'.trans h) (hw.linked hle)
      notifications := h.notifications.trans hw.notifications.sublist
      operatorActions := h.operatorActions.trans hw.operatorActions.sublist
      auditEntries := h.auditEntries.trans hw.auditEntries.sublist
      events := h.events.trans hw.events.sublist
      clock := h.clock.trans (hclock.trans_eq (handle_clock e op w).symm) }

/-- A message is handed out. -/
theorem handOut (h : w.Thins w') (n : ℕ) (m : Message) :
    World.Thins
      { w with
        ready := w.ready.eraseIdx n
        unacked := w.unacked ++ [⟨w.nextTag, m⟩]
        nextTag := w.nextTag + 1 }
      { w' with
        ready := w'.ready.eraseIdx n
        unacked := w'.unacked ++ [⟨w'.nextTag, m⟩]
        nextTag := w'.nextTag + 1 } :=
  { h with
    ready := by rw [h.ready]
    unacked := by rw [h.unacked, h.nextTag]
    nextTag := by rw [h.nextTag] }

theorem redeliver (h : w.Thins w') {tag : ℕ} (hs : RealtimeOps.redeliver tag w = some w₁) :
    ∃ w₁', RealtimeOps.redeliver tag w' = some w₁' ∧ w₁.Thins w₁' := by
  obtain ⟨d, hd, rfl⟩ := Option.map_eq_some_iff.mp hs
  refine ⟨_, Option.map_eq_some_iff.mpr ⟨d, h.unacked.symm ▸ hd, rfl⟩, ?_⟩
  exact { h with unacked := by rw [h.unacked], ready := by rw [h.ready] }

theorem expire (h : w.Thins w') {key : String} {now : Date}
    (hs : RealtimeOps.expire key now w = some w₁) :
    ∃ w₁', RealtimeOps.expire key now w' = some w₁' ∧ w₁.Thins w₁' := by
  obtain ⟨lock, hlock, ⟨hover, hnow⟩, rfl⟩ := expire_eq_some.mp hs
  refine ⟨_, expire_eq_some.mpr ⟨lock, h.locks.symm ▸ hlock, ⟨hover, h.clock.trans hnow⟩, rfl⟩, ?_⟩
  exact { h with locks := by rw [h.locks], clock := le_rfl }

end World.Thins

/-! ## The incidents of the executions -/

/-- No call deletes an alert, and an incident is opened for an alert that is stored. -/
def incidents : Discipline handle where
  le w w' := ∀ id, (w.alerts.lookup id).isSome → (w'.alerts.lookup id).isSome
  refl _ _ h := h
  trans h h' id hid := h' id (h id hid)
  allows w op := op.FindsAlert w
  up e op w _ := by
    rcases handle_world e op w with hw | ⟨reply, hp⟩
    · rw [hw]
      exact fun _ h => h
    generalize (handle e op w).2 = w₁ at hp
    have hsave : ∀ (alert : AlertEntity) id, (w.alerts.lookup id).isSome →
        ((w.alerts.save alert).lookup id).isSome := fun alert id =>
      Table.Advances.isSome_lookup (R := fun _ _ => True)
        (.save_of (fun _ => trivial) fun _ _ _ => trivial)
    intro id hid
    cases op with
    | insertAlert c =>
      obtain ⟨-, t, ht, rfl, rfl⟩ := perform_insertAlert hp
      exact Table.isSome_lookup_insert ht id hid
    | saveAlert alert incident =>
      obtain ⟨-, rfl, incidents, -, rfl⟩ := perform_saveAlert hp
      exact hsave _ id hid
    | updateAlert alertId changes =>
      obtain ⟨rfl, -⟩ | ⟨alert, -, -, rfl⟩ := perform_updateAlert hp
      · exact hid
      · exact hsave _ id hid
    | _ =>
      have halerts : w₁.alerts = w.alerts := by
        simp only [perform, Option.ite_none_right_eq_some, Option.map_eq_some_iff, Prod.mk.injEq,
          Option.some.injEq] at hp
        grind
      rw [halerts]
      exact hid

theorem Op.OnJobs.findsAlert {op : Op} (h : op.OnJobs) (w : World) : op.FindsAlert w := by
  rintro c rfl
  exact h.elim

section Programs

variable {α : Type} {K : World → Prop} {Q : α → World → Prop}

/-- A call on jobs, whose reply is not needed. -/
theorem finds_step {op : Op} {f : op.Reply → Promise α} (hop : op.OnJobs)
    (hf : ∀ reply, (f reply).Delivers incidents K Q) :
    ((await op).bind f).Delivers incidents K Q :=
  .await_bind (R := fun _ _ => True) (fun w _ => hop.findsAlert w) (fun _ _ _ _ _ _ _ _ => trivial)
    fun reply => (hf reply).mono (fun _ h => h.1) fun _ _ h => h

theorem finds_of_onJobs {p : Promise α} (h : p.Calls Op.OnJobs) :
    p.Delivers incidents K fun _ _ => True :=
  .of_calls (h.mono fun _ hop w => hop.findsAlert w)

theorem finds_markFailed (job : JobEntity) (attempt : ProcessingAttemptEntity)
    (errorMessage : String) :
    (markFailed job attempt errorMessage).Delivers incidents K fun _ _ => True := by
  unfold markFailed
  refine finds_step trivial fun finishedAt => finds_step trivial fun attempt => ?_
  refine finds_step trivial fun job => ?_
  refine .await_bind (R := fun (alert : AlertEntity) w => (w.alerts.lookup alert.id).isSome)
    (by rintro _ - _ ⟨⟩) ?_ fun alert => ?_
  · intro e w alert w₁ _ h w₂ hup
    obtain ⟨-, t, ht, rfl, rfl⟩ := perform_insertAlert (handle_eq_ok h).1
    refine hup _ ?_
    rw [Table.lookup_insert_self ht]
    rfl
  split_ifs
  · refine .await_bind (R := fun _ _ => True) ?_ (fun _ _ _ _ _ _ _ _ => trivial) fun incident =>
      finds_of_onJobs (onJobs_reportFailure _ _ _ _ _ _)
    rintro w ⟨-, halert⟩ _ ⟨⟩ _ ⟨⟩
    exact halert
  · exact finds_of_onJobs (onJobs_reportFailure _ _ _ _ _ _)

theorem finds_processJob (input : ProcessJobInput) (job : JobEntity) :
    (processJob input job).Delivers incidents K fun _ _ => True := by
  unfold processJob
  refine finds_step trivial fun startedAt => finds_step trivial fun job => ?_
  refine finds_step (onJobs_publish (by decide)) fun _ => finds_step trivial fun _ => ?_
  refine finds_step trivial fun attempt => finds_step trivial fun _ => ?_
  split
  · exact finds_markFailed _ _ _
  · exact finds_of_onJobs (onJobs_markCompleted _ _)

theorem finds_process (input : ProcessJobInput) :
    (process input).Delivers incidents K fun _ _ => True := by
  unfold process
  refine finds_step trivial fun acquired => ?_
  cases acquired with
  | false => exact .ret fun _ _ => trivial
  | true =>
    refine .tryFinally (finds_step trivial fun found => ?_) (finds_of_onJobs (.await trivial))
    cases found with
    | none => exact .ret fun _ _ => trivial
    | some job => exact finds_processJob input job

theorem finds_consume (delivery : Delivery) :
    (RabbitMqService.consumeCallback JobProcessingConsumer.onMessage delivery).Delivers incidents
      K fun _ _ => True := by
  unfold RabbitMqService.consumeCallback
  refine .tryCatch ?_ fun _ => finds_of_onJobs (.await trivial)
  obtain ⟨tag, ⟨content⟩⟩ := delivery
  cases content with
  | none => exact .throw
  | some payload =>
    refine Prog.Delivers.bind (Q := fun _ _ => True) ?_ fun _ => finds_of_onJobs (.await trivial)
    unfold JobProcessingConsumer.onMessage
    split
    · exact .ret fun _ _ => trivial
    · exact finds_process _

theorem finds_call (call : Call) : call.prog.Delivers incidents K fun _ _ => True := by
  have hret : ∀ {β : Type} (f : β → Result) (b : β) (K' : World → Prop),
      (Prog.ret (f b) : Promise Result).Delivers incidents K' fun _ _ => True :=
    fun _ _ _ => .ret fun _ _ => trivial
  cases call with
  | create input => exact (finds_of_onJobs (onJobs_create input)).bind fun job => hret .job job _
  | retry jobId operatorId =>
    exact (finds_of_onJobs (onJobs_retry jobId operatorId)).bind fun job => hret .job job _
  | getStatus jobId =>
    exact (finds_of_onJobs (onJobs_getStatus jobId)).bind fun report => hret .report report _
  | process input => exact (finds_process input).bind fun u => hret (fun _ => .done) u _
  | consume delivery => exact (finds_consume delivery).bind fun u => hret (fun _ => .done) u _

end Programs

/-! ## The simulation -/

/-- Only calls with `P` are started. -/
def StartsOnly (P : Call → Prop) (_ : State) : Label → Prop
  | .start call => P call
  | _ => True

theorem Command.job_prog (call : Call) :
    (Command.job call).prog = Named.lifted (.id infrastructure Failure) Response.job call.prog := by
  rw [Named.lifted, Prog.embed_id]
  rfl

namespace Operations

/-- The platform has done what the calls on jobs have done, which are the threads with the given
places. -/
structure Projects (names : List ℕ) (s : Operations) (t : State) : Prop where
  world : s.pool.world.Thins t.world
  threads : s.pool.named.Embeds (.id infrastructure Failure) .job names t
  length : s.commands.length = s.pool.threads.length
  mem_names : ∀ i, i ∈ names ↔ ∃ call, s.commands[i]? = some (.job call)
  onAlerts : ∀ i p, s.pool.threads[i]? = some p → i ∉ names → p.Calls Op.OnAlerts
  working : ∀ p ∈ t.threads, p.Calls Op.Working
  finds : t.Promising RealtimeOps.incidents fun _ _ _ => True

namespace Projects

variable {names : List ℕ} {s s' : Operations} {t : State} {i : ℕ} {w w' : World}

theorem init (w : World) : Projects [] (.init w) (.init w) where
  world := .refl w
  threads := ⟨List.nodup_nil, rfl, fun _ _ _ hi => by cases hi⟩
  length := rfl
  mem_names i := by simp [Operations.init]
  onAlerts _ _ hp := by cases hp
  working _ hp := by cases hp
  finds _ _ hp := by cases hp

theorem length_notMem (h : Projects names s t) : s.pool.threads.length ∉ names := by
  intro hmem
  obtain ⟨call, hcall⟩ := (h.mem_names _).mp hmem
  exact absurd (List.getElem?_eq_some_iff.mp hcall).1 (h.length ▸ lt_irrefl _)

theorem withWorld (h : Projects names s t) (hw : w.Thins w')
    (halerts : w'.alerts = t.world.alerts) :
    Projects names (s.withWorld w) { t with world := w' } where
  world := hw
  threads := h.threads.of_threads rfl rfl
  length := h.length
  mem_names := h.mem_names
  onAlerts := h.onAlerts
  working := h.working
  finds := h.finds.up fun _ hid => halerts ▸ hid

/-- A call on jobs starts in both. -/
theorem start (h : Projects names s t) (call : Call) :
    Projects (names ++ [s.pool.threads.length]) (s.start (.job call)) (t.spawn call.prog) where
  world := h.world
  threads := by
    refine h.threads.begin h.length_notMem ?_ rfl
    rw [← Command.job_prog]
    exact Pool.named_spawn _ _
  length := by simp [Operations.start, Pool.spawn, h.length]
  mem_names i := by
    rw [List.mem_append, List.mem_singleton, h.mem_names, ← h.length, Operations.start,
      List.getElem?_append]
    split_ifs with hi
    · simp [hi.ne]
    · constructor
      · rintro (⟨c, hc⟩ | rfl)
        · exact absurd (List.getElem?_eq_some_iff.mp hc).1 hi
        · exact ⟨call, by simp⟩
      · rintro ⟨c, hc⟩
        have := (List.getElem?_eq_some_iff.mp hc).1
        simp only [List.length_singleton] at this
        exact .inr (by omega)
  onAlerts i p hp hi := by
    obtain ⟨hnot, hne⟩ : i ∉ names ∧ i ≠ s.pool.threads.length := by simpa using hi
    rcases Nat.lt_or_gt_of_ne hne with hlt | hgt
    · exact h.onAlerts i p ((List.getElem?_append_left hlt).symm.trans hp) hnot
    · have := (List.getElem?_eq_some_iff.mp hp).1
      simp only [Operations.start, Pool.spawn, List.length_append, List.length_singleton] at this
      omega
  working := Pool.forall_spawn h.working (working_call call)
  finds := h.finds.spawn (fun _ _ => rfl)
    (finds_call (K := fun _ => True) call _ fun _ _ => trivial)

/-- A command on alerts starts. -/
theorem start_aside (h : Projects names s t) {c : Command} (hc : ∀ call, c ≠ .job call) :
    Projects names (s.start c) t where
  world := h.world
  threads := h.threads.other h.length_notMem (Pool.named_spawn _ _)
  length := by simp [Operations.start, Pool.spawn, h.length]
  mem_names i := by
    rw [h.mem_names, Operations.start, List.getElem?_append]
    split_ifs with hi
    · rfl
    · constructor
      · rintro ⟨call, hcall⟩
        exact absurd (List.getElem?_eq_some_iff.mp hcall).1 hi
      · rintro ⟨call, hcall⟩
        exact absurd (List.mem_singleton.mp (List.mem_of_getElem? hcall)).symm (hc call)
  onAlerts i p hp hi := by
    change (s.pool.threads ++ [c.prog])[i]? = some p at hp
    rw [List.getElem?_append] at hp
    split_ifs at hp with hlt
    · exact h.onAlerts i p hp hi
    · rw [List.mem_singleton.mp (List.mem_of_getElem? hp)]
      exact onAlerts_prog hc
  working := h.working
  finds := h.finds

/-- A call on jobs is answered in both. -/
theorem advance (h : Projects names s t) (hi : i ∈ names) {e : Env}
    {pool : Pool infrastructure Failure Response Env World} (hclock : s.pool.world.clock ≤ e.now)
    (hpool : s.pool.advance handle i e = some pool) :
    ∃ j e' t', RealtimeOps.step t (.step j e') = some t' ∧ Projects names { s with pool } t' := by
  obtain ⟨j, hj⟩ := List.mem_iff_getElem?.mp hi
  obtain ⟨p, hp, hlift⟩ := h.threads.exists_thread hj
  have hnamed := Pool.named_advance hpool
  obtain ⟨_, _, hk, rfl⟩ := Pool.advance_eq_some hpool
  cases p with
  | ret a => cases hlift.symm.trans hk
  | throw err => cases hlift.symm.trans hk
  | call op k =>
    cases hlift.symm.trans hk
    obtain ⟨hfinds, -⟩ := h.finds j _ hp t.world fun _ h => h
    obtain ⟨e', hnow, hanswer, hthins⟩ :=
      h.world.handle (h.working _ (List.mem_of_getElem? hp)).1 hfinds e
    obtain ⟨_, _, t', hk', ht', hw, -, hthreads⟩ := h.threads.advance (e := e') hj
      (fun op k hk => by
        cases hp.symm.trans hk
        exact hanswer.symm) hnamed
    cases hp.symm.trans hk'
    have hnow : t.world.clock ≤ e'.now := (h.world.clock.trans hclock).trans_eq hnow.symm
    refine ⟨j, e', t', RealtimeOps.step_step.mpr ⟨hnow, ht'⟩, hw ▸ hthins, hthreads,
      h.length.trans List.length_set.symm, h.mem_names, fun i' q hq hi' => ?_, ?_,
      (h.finds.advance ht').1⟩
    · have hne : i ≠ i' := by
        rintro rfl
        exact hi' hi
      exact h.onAlerts i' q ((List.getElem?_set_ne hne).symm.trans hq) hi'
    · exact Pool.forall_advance h.working (fun op k hc r => hc.2 r) ht'

/-- A command on alerts is answered. -/
theorem advance_aside (h : Projects names s t) (hi : i ∉ names) {e : Env}
    {pool : Pool infrastructure Failure Response Env World} (hclock : s.pool.world.clock ≤ e.now)
    (hpool : s.pool.advance handle i e = some pool) (hw : s.pool.world.Preserves pool.world)
    (hle : s.pool.world ≤ pool.world) : Projects names { s with pool } t := by
  have hthreads := Pool.named_advance hpool
  obtain ⟨op, k, hk, rfl⟩ := Pool.advance_eq_some hpool
  have hop := h.onAlerts i _ hk hi
  obtain ⟨_, _, -, hnamed⟩ := Named.advance_eq_some hthreads
  refine ⟨h.world.aside hop.1 hclock hw hle, h.threads.other hi (congrArg Named.threads hnamed),
    h.length.trans List.length_set.symm, h.mem_names, ?_, h.working, h.finds⟩
  intro i' q hq hi'
  change (s.pool.threads.set i _)[i']? = some q at hq
  rw [List.getElem?_set] at hq
  split_ifs at hq with hii hlt
  · cases hq
    exact hop.2 _
  · exact h.onAlerts i' q hq hi'

/-- The process of a thread dies. -/
theorem halt (h : Projects names s t) (hi : (s.pool.awaited i).isSome) :
    ∃ t', (t' = t ∨ ∃ j, RealtimeOps.step t (.stop j) = some t') ∧
      Projects names { s with pool := s.pool.halt i .stopped } t' := by
  have hlength : s.commands.length = (s.pool.halt i .stopped).threads.length :=
    h.length.trans List.length_set.symm
  have hnamed := Pool.named_halt hi .stopped
  have hothers : ∀ i' p, (s.pool.halt i .stopped).threads[i']? = some p → i' ∉ names →
      p.Calls Op.OnAlerts := by
    intro i' p hp hi'
    rw [Pool.halt, List.getElem?_set] at hp
    split_ifs at hp
    · cases hp
      trivial
    · exact h.onAlerts i' p hp hi'
  by_cases hmem : i ∈ names
  · obtain ⟨j, hj⟩ := List.mem_iff_getElem?.mp hmem
    obtain ⟨hsome, hthreads⟩ := h.threads.halt hj hnamed
    refine ⟨_, .inr ⟨j, RealtimeOps.step_stop.mpr ⟨hsome, rfl⟩⟩, h.world, hthreads, hlength,
      h.mem_names, hothers, Pool.forall_halt h.working trivial, h.finds.halt j _⟩
  · obtain ⟨-, hset⟩ := Named.halt_eq_some hnamed
    exact ⟨t, .inl rfl, h.world, h.threads.other hmem (congrArg Named.threads hset), hlength,
      h.mem_names, hothers, h.working, h.finds⟩

/-- A message is handed to a consumer in both. -/
theorem deliver (h : Projects names s t) {n : ℕ} (hs : s.deliver n = some s') :
    ∃ t', RealtimeOps.step t (.deliver n) = some t' ∧
      Projects (names ++ [s.pool.threads.length]) s' t' := by
  obtain ⟨m, hm, rfl⟩ := Option.map_eq_some_iff.mp hs
  refine ⟨_, Option.map_eq_some_iff.mpr ⟨m, h.world.ready ▸ hm, rfl⟩, ?_⟩
  have hstart := (h.withWorld (h.world.handOut n m) rfl).start (.consume ⟨t.world.nextTag, m⟩)
  dsimp only
  rw [h.world.nextTag] at hstart ⊢
  exact hstart

/-- Every move of the operations is a move of the platform or none. -/
theorem step (h : Projects names s t) {w₀ : World} {n : ℕ} (hd : s.Disciplined w₀ n)
    (hlinking : s.Linking) {P : Call → Prop} {l : Operations.Label}
    (hP : ∀ call, l = .start (.job call) → P call)
    (hs : s.step l = some s') :
    ∃ names' t', Relation.ReflGen (Next RealtimeOps.step (StartsOnly P)) t t' ∧
      names <+: names' ∧ Projects names' s' t' := by
  have hsame : ∀ {s' t'}, Relation.ReflGen (Next RealtimeOps.step (StartsOnly P)) t t' →
      Projects names s' t' → ∃ names' t', Relation.ReflGen (Next RealtimeOps.step (StartsOnly P))
        t t' ∧ names <+: names' ∧ Projects names' s' t' :=
    fun ht h => ⟨names, _, ht, List.prefix_refl _, h⟩
  cases l with
  | start c =>
    cases hs
    cases c with
    | job call =>
      exact ⟨_, _, .single ⟨.start call, hP call rfl, rfl⟩, List.prefix_append _ _, h.start call⟩
    | createAlert | acknowledgeAlert | acknowledge | resolve =>
      exact hsame .refl (h.start_aside (by rintro call ⟨⟩))
  | deliver n =>
    obtain ⟨t', ht', h'⟩ := h.deliver hs
    exact ⟨_, t', .single ⟨.deliver n, trivial, ht'⟩, List.prefix_append _ _, h'⟩
  | step i e =>
    have hw := (hd.step hs).2
    obtain ⟨hclock, pool, hpool, rfl⟩ := Operations.step_step.mp hs
    by_cases hi : i ∈ names
    · obtain ⟨j, e', t', ht', h'⟩ := h.advance hi hclock hpool
      exact hsame (.single ⟨.step j e', trivial, ht'⟩) h'
    · exact hsame .refl (h.advance_aside hi hclock hpool hw (hlinking.advance hpool).2)
  | redeliver tag =>
    obtain ⟨w, hw, rfl⟩ := Option.map_eq_some_iff.mp hs
    obtain ⟨w', hw', hthins⟩ := h.world.redeliver hw
    obtain ⟨d, -, hsame'⟩ := Option.map_eq_some_iff.mp hw'
    refine hsame (.single ⟨.redeliver tag, trivial, ?_⟩) (h.withWorld hthins (hsame' ▸ rfl))
    exact Option.map_eq_some_iff.mpr ⟨w', hw', rfl⟩
  | stop i =>
    obtain ⟨hi, rfl⟩ := Operations.step_stop.mp hs
    obtain ⟨t', rfl | ⟨j, ht'⟩, h'⟩ := h.halt hi
    · exact hsame .refl h'
    · exact hsame (.single ⟨.stop j, trivial, ht'⟩) h'
  | expire key now =>
    obtain ⟨w, hw, rfl⟩ := Option.map_eq_some_iff.mp hs
    obtain ⟨w', hw', hthins⟩ := h.world.expire hw
    obtain ⟨lock, -, -, hsame'⟩ := expire_eq_some.mp hw'
    refine hsame (.single ⟨.expire key now, trivial, ?_⟩) (h.withWorld hthins (hsame' ▸ rfl))
    exact Option.map_eq_some_iff.mpr ⟨w', hw', rfl⟩

/-- What a call on a job has answered, it has answered in the platform. -/
theorem outcome (h : Projects names s t) {call : Call} (hi : s.commands[i]? = some (.job call))
    {result : Result} (hr : s.pool.outcome i = some (.ok (.job result))) :
    ∃ j : ℕ, names[j]? = some i ∧ t.outcome j = some (.ok result) := by
  obtain ⟨j, hj⟩ := List.mem_iff_getElem?.mp ((h.mem_names i).mpr ⟨call, hi⟩)
  obtain ⟨p, hp, hlift⟩ := h.threads.exists_thread hj
  have hret : s.pool.threads[i]? = some (.ret (.job result)) := by
    unfold Pool.outcome at hr
    split at hr
    · rename_i hp
      cases hr
      exact hp
    · cases hr
    · cases hr
  refine ⟨j, hj, ?_⟩
  cases p with
  | ret a =>
    cases hlift.symm.trans hret
    rw [Pool.outcome, hp]
  | throw err => cases hlift.symm.trans hret
  | call op k => cases hlift.symm.trans hret

end Projects

/-- The platform simulates the operations of which none acknowledges an alert. -/
theorem simulates {allow : Operations → Operations.Label → Prop} {P : Call → Prop}
    (hP : ∀ s call, allow s (.start (.job call)) → P call)
    (halerts : ∀ s c, allow s (.start c) → ¬c.AcknowledgesAlert) (w₀ : World) :
    Simulates Operations.step allow RealtimeOps.step (StartsOnly P)
      fun s t => s.Disciplined w₀ 0 ∧ s.Linking ∧ ∃ names, Projects names s t := by
  rintro s l s' t ⟨hd, hlinking, names, h⟩ hl hs
  obtain ⟨names', t', ht', -, h'⟩ :=
    h.step hd hlinking (P := P) (by rintro call rfl; exact hP s call hl) hs
  have hlinking' : s'.Linking := hlinking.step (by rintro c rfl; exact halerts s c hl) hs
  exact ⟨t', ht', (hd.step hs).1, hlinking', names', h'⟩

end Operations

/-! ## The deployment -/

/-- What the deployment shows of the operations is left out of them in the platform. -/
theorem World.Shows.thins {w w₁ w' : World} (h : w.Shows w₁) (h' : w₁.Thins w') : w.Thins w' := by
  obtain ⟨events, clock, rfl⟩ := h.same.exists
  exact
    { h' with
      events := h'.events.trans (h.events ▸ List.filter_sublist)
      clock := h'.clock.trans h.clock }

/-- The command whose answer is about a call on a job is such a call. -/
theorem Command.Kept.exists_call {c : Command} {w₀ w : World} {result : Result}
    (h : c.Kept w₀ (.job result) w) : ∃ call, c = .job call := by
  cases c with
  | job call => exact ⟨call, rfl⟩
  | createAlert | acknowledgeAlert | acknowledge | resolve => exact h.1.elim

/-- The operations that a run of the deployment refines project onto a run of the platform, and
what a call on a job has answered is the outcome of its thread there. -/
theorem Deployment.exists_projection {site : Site} {ms : List SiteMove} {d : Deployment}
    (h : ms.foldlM site.step .init = some d) :
    ∃ (t : State) (s : Operations) (names calls : List ℕ),
      Reachable step (StartsOnly fun call => ∃ i, site.Asked (· ∈ ms) i (.job call))
        (.init .empty) t ∧
      d.Refines site (· ∈ ms) names s ∧ Operations.Projects calls s t ∧
      ∀ i result, d.backend.outcome i = some (.ok (.response (.job result))) →
        ∃ k j : ℕ, names[k]? = some i ∧ calls[j]? = some k ∧ t.outcome j = some (.ok result) := by
  have hrun : Reachable site.step (fun _ => (· ∈ ms)) .init d :=
    reachable_of_foldlM (fun _ _ hm => hm) h
  obtain ⟨s, hs, names, -, hrefines⟩ :=
    (Deployment.simulates site (· ∈ ms) []).reachable ⟨[], List.prefix_refl _, .init⟩ hrun
  obtain ⟨t, ht, hdisciplined, -, calls, hprojects⟩ :=
    (Operations.simulates (P := fun call => ∃ i, site.Asked (· ∈ ms) i (.job call))
      (fun _ _ hcall => hcall) (fun _ _ ⟨_, _, _, hasks⟩ => hasks.not_acknowledgesAlert)
      .empty).reachable ⟨.init .empty, .init _, [], .init .empty⟩ hs
  refine ⟨t, s, names, calls, ht, hrefines, hprojects, fun i result hi => ?_⟩
  obtain ⟨k, c, hk, hc, -, houtcome⟩ := hrefines.outcome hi
  obtain ⟨call, rfl⟩ := (hdisciplined.kept (Nat.zero_le k) hc houtcome (.refl _)).exists_call
  obtain ⟨j, hj, hjoutcome⟩ := hprojects.outcome hc houtcome
  exact ⟨k, j, hk, hj, hjoutcome⟩

/-- Every run of the deployment is, for the jobs, their attempts, the locks and the queue of jobs, a
run of the platform in which only the calls are started that requests with a valid token asked for.
What a call on a job has answered is the outcome of a thread of the platform, of another one for
each request. -/
theorem deployment_refines_platform {site : Site} {ms : List SiteMove} {d : Deployment}
    (h : ms.foldlM site.step .init = some d) :
    ∃ (t : State) (places : List ℕ),
      Reachable step (StartsOnly fun call => ∃ i, site.Asked (· ∈ ms) i (.job call))
        (.init .empty) t ∧
      d.world.Thins t.world ∧ places.Nodup ∧
      ∀ i result, d.backend.outcome i = some (.ok (.response (.job result))) →
        ∃ j : ℕ, places[j]? = some i ∧ t.outcome j = some (.ok result) := by
  obtain ⟨t, s, names, calls, ht, hrefines, hprojects, houtcome⟩ := Deployment.exists_projection h
  have hlt : ∀ i ∈ calls, i < names.length := by
    intro i hi
    obtain ⟨call, hcall⟩ := (hprojects.mem_names i).mp hi
    rw [hrefines.threads.length, ← hrefines.commands]
    exact (List.getElem?_eq_some_iff.mp hcall).1
  refine ⟨t, calls.map fun k => names.getD k 0, ht, hrefines.world.thins hprojects.world, ?_, ?_⟩
  · refine hprojects.threads.nodup.map_on fun k hk k' hk' heq => ?_
    rw [List.getD_eq_getElem?_getD, List.getD_eq_getElem?_getD, List.getElem?_eq_getElem (hlt k hk),
      List.getElem?_eq_getElem (hlt k' hk')] at heq
    exact hrefines.threads.nodup.getElem_inj_iff.mp heq
  · intro i result hi
    obtain ⟨k, j, hk, hj, hjoutcome⟩ := houtcome i result hi
    exact ⟨j, by simp [hj, List.getD_eq_getElem?_getD, hk], hjoutcome⟩

/-- A job fails for good, an operator acknowledges its incident, and then asks for the job. -/
def acknowledgingFailure : List SiteMove :=
  .request 0 (.api (.createJob ⟨"ingest", "batch", [("shouldFail", .bool true)], none, some 1⟩
    ⟨by decide, by decide, by simp, by simp⟩) (operatorRequest "POST" "/api/v1/jobs")) ::
    answers 0 9 1 ++ .deliver 1 0 :: answers 1 19 20 ++
    .request 2 (.api (.acknowledgeIncident 32)
      (operatorRequest "POST" "/api/v1/incidents/:id/acknowledge")) :: answers 2 10 50 ++
    .request 3 (.api (.getJobStatus 3) (operatorRequest "GET" "/api/v1/jobs/:id/status")) ::
    answers 3 4 70

/-- What the operator is told of the job. -/
def failureReport : JobStatusReport where
  jobId := 3
  status := .FAILED
  attemptCount := 1
  maxAttempts := 1
  lastError := some "Processing failed on attempt 1"
  startedAt := some 22
  completedAt := some 28
  attempts :=
    [{ jobId := 3
       attemptNumber := 1
       status := .FAILED
       errorMessage := some "Processing failed on attempt 1"
       durationMs := some 6
       startedAt := 22
       finishedAt := some 28
       id := 26
       createdAt := 26 }]

theorem acknowledgingFailure_run : ∃ d,
    acknowledgingFailure.foldlM defaultSite.step .init = some d ∧
      d.backend.outcome 3 = some (.ok (.response (.job (.report failureReport)))) ∧
      d.world.incidents.rows.map (·.acknowledgedBy) = [some "alice"] ∧
      d.world.jobs.rows.map (·.status) = [.FAILED] := by
  obtain ⟨d, hd⟩ := Option.isSome_iff_exists.mp
    (by decide : (acknowledgingFailure.foldlM defaultSite.step .init).isSome)
  have hall : ∀ d ∈ acknowledgingFailure.foldlM defaultSite.step .init,
      d.backend.outcome 3 = some (.ok (.response (.job (.report failureReport)))) ∧
        d.world.incidents.rows.map (·.acknowledgedBy) = [some "alice"] ∧
        d.world.jobs.rows.map (·.status) = [.FAILED] := by decide
  exact ⟨d, hd, hall d hd⟩

/-- The incident is acknowledged, and in the platform, which knows of no such command, the job has
failed all the same and its report is the answer. -/
theorem deployment_refines_platform_acknowledged : ∃ d t j,
    acknowledgingFailure.foldlM defaultSite.step .init = some d ∧
      d.world.incidents.rows.map (·.acknowledgedBy) = [some "alice"] ∧
      Reachable step (StartsOnly fun call =>
        ∃ i, defaultSite.Asked (· ∈ acknowledgingFailure) i (.job call)) (.init .empty) t ∧
      t.world.jobs.rows.map (·.status) = [.FAILED] ∧
      t.outcome j = some (.ok (.report failureReport)) := by
  obtain ⟨d, hd, houtcome, hincident, hjob⟩ := acknowledgingFailure_run
  obtain ⟨t, places, ht, hthins, -, hall⟩ := deployment_refines_platform hd
  obtain ⟨j, -, hj⟩ := hall 3 _ houtcome
  exact ⟨d, t, j, hd, hincident, ht, hthins.jobs ▸ hjob, hj⟩

/-- A report of the platform is backed by the attempts it lists. -/
theorem reportBacked_of_outcome {t : State}
    (h : Reachable step (fun _ _ => True) (.init .empty) t) {j : ℕ} {report : JobStatusReport}
    (hj : t.outcome j = some (.ok (.report report))) : ReportBacked report := by
  obtain ⟨A, hA, hc⟩ := jobs_invariant (I := fun s A => Consistent s.world.store A)
    (w := .empty) consistent_empty (fun s A m s' A' _ hc _ ht => hc.turn ht) h
  obtain ⟨l, hl, -, hends⟩ := hA.exists_ended hj
  have hsound := hc.sound l hl
  cases hq : l.phase with
  | reported r =>
    rw [hq] at hsound hends
    cases hends
    exact hsound
  | idle =>
    rw [hq] at hends
    rcases hends with h | ⟨err, h⟩ <;> cases h
  | queued | refused =>
    rw [hq] at hends
    cases hends
  | _ =>
    rw [hq] at hends
    exact hends.elim

/-- Whatever the operators and the workers do in a deployment, every job row has the shape of its
status, a completed or failed job has the attempt with its number and that end, and the report that
answers a request says no more than the attempts it lists. -/
theorem jobs_in_shape {site : Site} {ms : List SiteMove} {d : Deployment}
    (h : ms.foldlM site.step .init = some d) :
    (∀ job ∈ d.world.jobs.rows, Shaped job.toJobColumns ∧ Backed d.world.attempts job) ∧
      ∀ i report, d.backend.outcome i = some (.ok (.response (.job (.report report)))) →
        ReportBacked report := by
  obtain ⟨t, s, names, calls, hstarts, hrefines, hprojects, houtcome⟩ :=
    Deployment.exists_projection h
  have hthins : d.world.Thins t.world := hrefines.world.thins hprojects.world
  have ht : Reachable step (fun _ _ => True) (.init .empty) t :=
    Relation.ReflTransGen.mono (fun _ _ ⟨l, _, hs⟩ => ⟨l, trivial, hs⟩) _ _ hstarts
  obtain ⟨_, -, hshaped⟩ := exists_allShaped ht
  obtain ⟨_, -, hc⟩ := jobs_invariant (I := fun s A => Consistent s.world.store A)
    (w := .empty) consistent_empty (fun s A m s' A' _ hc _ ht => hc.turn ht) ht
  refine ⟨fun job hjob => ?_, fun i report hi => ?_⟩
  · rw [← hthins.jobs] at hjob
    exact ⟨hshaped.rows job hjob, hthins.attempts ▸ hc.rows job hjob⟩
  · obtain ⟨k, j, -, -, hj⟩ := houtcome i _ hi
    exact reportBacked_of_outcome ht hj

/-- The operator is told of the attempt that failed. -/
theorem jobs_in_shape_failed : ∃ d,
    acknowledgingFailure.foldlM defaultSite.step .init = some d ∧ ReportBacked failureReport ∧
      ∃ job ∈ d.world.jobs.rows, job.status = .FAILED ∧ Shaped job.toJobColumns ∧
        Backed d.world.attempts job := by
  obtain ⟨d, hd, houtcome, -, hstatus⟩ := acknowledgingFailure_run
  obtain ⟨hrows, hreports⟩ := jobs_in_shape hd
  have hmem : JobStatus.FAILED ∈ d.world.jobs.rows.map (·.status) :=
    hstatus ▸ List.mem_singleton_self _
  obtain ⟨job, hjob, hfailed⟩ := List.mem_map.mp hmem
  exact ⟨d, hd, hreports 3 _ houtcome, job, hjob, hfailed, hrows job hjob⟩

end RealtimeOps
