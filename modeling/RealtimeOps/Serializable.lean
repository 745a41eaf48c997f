import RealtimeOps.JobLock
import RealtimeOps.JobView

/-!
# Executions are serializable

Executions of any jobs, several of one job among them, with their calls interleaved in any
order, none failing and no lock running out. Seen from one job the run is serial : its world
is the one that the executions that took the lock of the job leave when they are run one
after the other, in the order in which they took it (`serializable`).

`Working` says of a program what it does until it gives the lock back : it makes calls it
owns, on the view of the job. `Stage` says where each execution is, and `Serialized` adds
that replaying the executions of a job one after the other, as far as each has come, gives a
world that agrees with the shared one on the job.
-/

set_option autoImplicit false

namespace RealtimeOps

open Interleaving JobProcessorService

/-! ## What an execution does while it holds the lock -/

section Owned

variable {α β : Type} {jobId : Uuid}

/-- As long as every call goes through, the calls of the program on the view of the job are
owned. -/
def OwnsAll (jobId : Uuid) : Promise α → JobView → Prop
  | .ret _, _ => True
  | .throw _, _ => True
  | .call op k, v => Owns jobId v op ∧
      ∀ e reply v', v.perform e op = some (reply, v') → OwnsAll jobId (k (.ok reply)) v'

theorem OwnsAll.await {op : Op} {f : op.Reply → Promise α} {v : JobView} (h : Owns jobId v op)
    (hf : ∀ e reply v', v.perform e op = some (reply, v') → OwnsAll jobId (f reply) v') :
    OwnsAll jobId ((await op).bind f) v :=
  ⟨h, hf⟩

theorem OwnsAll.last {op : Op} {v : JobView} (h : Owns jobId v op) :
    OwnsAll jobId (RealtimeOps.await op) v :=
  ⟨h, fun _ _ _ _ => trivial⟩

/-- The program makes calls it owns until it deletes the key of the job, and ends there. -/
def Working (jobId : Uuid) : Promise α → JobView → Prop
  | .ret _, _ => False
  | .throw _, _ => False
  | .call op k, v => (op = .del (lockKey jobId) ∧ ∀ reply, ∃ r, k (.ok reply) = .resolve r) ∨
      Owns jobId v op ∧
        ∀ e reply v', v.perform e op = some (reply, v') → Working jobId (k (.ok reply)) v'

/-- The finalizer deletes the key. -/
theorem OwnsAll.working {f : α → Promise β} (hf : ∀ a, ∃ r, f a = .resolve r) :
    ∀ {p : Promise α} {v : JobView}, OwnsAll jobId p v →
      Working jobId ((p.tryFinally (RedisLockService.releaseLock (lockKey jobId))).bind f) v
  | .ret a, _, _ => .inl ⟨rfl, fun _ => hf a⟩
  | .throw err, _, _ => .inl ⟨rfl, fun _ => ⟨.error err, rfl⟩⟩
  | .call _ _, _, h => .inr ⟨h.1, fun e reply v' hp => (h.2 e reply v' hp).working hf⟩

end Owned

/-! ## Each function of an execution -/

theorem ownsAll_publishNotificationCreated {jobId : Uuid} {v : JobView} {n : NotificationEntity}
    (hn : n ∈ v.notifications) :
    OwnsAll jobId (RealtimeEventPublisher.publishNotificationCreated n.createdPayload) v := by
  refine .last ⟨.inr (.inl ⟨n, hn, rfl⟩), ?_, ?_, ?_⟩
  · simp [NotificationEntity.createdPayload, List.lookup_cons]
  · rintro id hid
    cases hid
    exact ⟨n, hn, rfl⟩
  · simp [NotificationEntity.createdPayload, List.lookup_cons]

/-- An event that names the job. -/
theorem owns_publish {jobId : Uuid} {v : JobView} {topic : String} {payload : Record}
    (hjob : payload.lookup "jobId" = some (.uuid jobId))
    (hnotification : payload.lookup "notificationId" = none)
    (hincident : ∀ id, payload.lookup "incidentId" = some (.uuid id) →
      ∃ i ∈ v.incidents, i.id = id) : Owns jobId v (.publish topic payload) := by
  refine ⟨.inl hjob, fun id hid => ?_, fun id hid => ?_, hincident⟩
  · exact (Json.uuid.inj (Option.some.inj (hjob.symm.trans hid))).symm
  · cases hnotification.symm.trans hid

theorem ownsAll_markCompleted {jobId : Uuid} {job : JobEntity} {attempt : ProcessingAttemptEntity}
    {v : JobView} (hid : job.id = jobId) (hjob : attempt.jobId = jobId)
    (hattempt : attempt ∈ v.attempts) : OwnsAll jobId (markCompleted job attempt) v := by
  subst hid
  unfold markCompleted
  refine .await trivial fun e finishedAt _ hp => ?_
  cases hp
  refine .await ⟨hjob, attempt, hattempt, rfl⟩ fun e _ _ hp => ?_
  cases hp
  refine .await rfl fun e row _ hp => ?_
  cases hp
  refine .await rfl fun e notification _ hp => ?_
  cases hp
  refine .await rfl fun e _ _ hp => ?_
  cases hp
  refine .await (owns_publish rfl rfl ?_) fun e _ _ hp => ?_
  · simp [List.lookup_cons]
  cases hp
  exact ownsAll_publishNotificationCreated List.mem_concat_self

theorem ownsAll_reportFailure {jobId : Uuid} {job : JobEntity} {attempt : ProcessingAttemptEntity}
    {errorMessage : String} {finishedAt : Date} {alert : AlertEntity}
    {incident : Option IncidentEntity} {v : JobView} (hid : job.id = jobId)
    (halert : alert ∈ v.alerts) (hincident : ∀ i, incident = some i → i ∈ v.incidents) :
    OwnsAll jobId (reportFailure job attempt errorMessage finishedAt alert incident) v := by
  subst hid
  unfold reportFailure
  refine .await rfl fun e notification _ hp => ?_
  cases hp
  refine .await rfl fun e _ _ hp => ?_
  cases hp
  refine .await ⟨alert, halert, rfl⟩ fun e _ _ hp => ?_
  cases hp
  cases incident with
  | none =>
    refine .await (owns_publish rfl rfl (by simp [List.lookup_cons])) fun e _ _ hp => ?_
    cases hp
    refine .await (owns_publish rfl rfl (by simp [List.lookup_cons, Json.ofUuid?]))
      fun e _ _ hp => ?_
    cases hp
    exact ownsAll_publishNotificationCreated List.mem_concat_self
  | some incident =>
    have hmem := hincident incident rfl
    refine .await ⟨incident, hmem, rfl⟩ fun e _ _ hp => ?_
    cases hp
    refine .await (owns_publish rfl rfl (by simp [List.lookup_cons])) fun e _ _ hp => ?_
    cases hp
    refine .await (owns_publish rfl rfl ?_) fun e _ _ hp => ?_
    · rintro id hid
      cases hid
      exact ⟨incident, hmem, rfl⟩
    cases hp
    refine .await ⟨.inr (.inr ⟨incident, hmem, rfl⟩), ?_, ?_, ?_⟩ fun e _ _ hp => ?_
    · simp [List.lookup_cons]
    · simp [List.lookup_cons]
    · rintro id hid
      cases hid
      exact ⟨incident, hmem, rfl⟩
    cases hp
    exact ownsAll_publishNotificationCreated List.mem_concat_self

theorem ownsAll_markFailed {jobId : Uuid} {job : JobEntity} {attempt : ProcessingAttemptEntity}
    {errorMessage : String} {v : JobView} (hid : job.id = jobId) (hjob : attempt.jobId = jobId)
    (hattempt : attempt ∈ v.attempts) :
    OwnsAll jobId (markFailed job attempt errorMessage) v := by
  subst hid
  unfold markFailed
  refine .await trivial fun e finishedAt _ hp => ?_
  cases hp
  refine .await ⟨hjob, attempt, hattempt, rfl⟩ fun e _ _ hp => ?_
  cases hp
  refine .await rfl fun e row _ hp => ?_
  cases hp
  refine .await rfl fun e alert _ hp => ?_
  cases hp
  split_ifs
  · refine .await ⟨_, List.mem_concat_self, rfl⟩ fun e incident _ hp => ?_
    cases hp
    refine ownsAll_reportFailure rfl List.mem_concat_self ?_
    rintro i hi
    cases hi
    exact List.mem_concat_self
  · refine ownsAll_reportFailure rfl List.mem_concat_self ?_
    rintro i hi
    cases hi

theorem ownsAll_processJob (input : ProcessJobInput) (job : JobEntity) (v : JobView) :
    OwnsAll job.id (processJob input job) v := by
  unfold processJob
  refine .await trivial fun e startedAt _ hp => ?_
  cases hp
  refine .await rfl fun e row _ hp => ?_
  cases hp
  refine .await (owns_publish rfl rfl (by simp [List.lookup_cons])) fun e _ _ hp => ?_
  cases hp
  refine .await rfl fun e _ _ hp => ?_
  cases hp
  refine .await rfl fun e attempt _ hp => ?_
  cases hp
  refine .await trivial fun e _ _ hp => ?_
  cases hp
  split
  · exact ownsAll_markFailed rfl rfl List.mem_concat_self
  · exact ownsAll_markCompleted rfl rfl List.mem_concat_self

/-- An execution tries the lock of its job. Refused, it ends; with the lock, it works until it
gives it back. -/
theorem process_prog (input : ProcessJobInput) :
    ∃ k, (Call.process input).prog = .call (.setNX (lockKey input.jobId) 60) k ∧
      (∃ r, k (.ok false) = .resolve r) ∧
      ∀ v : JobView, (∀ job, v.row = some job → job.id = input.jobId) →
        Working input.jobId (k (.ok true)) v := by
  refine ⟨_, rfl, ⟨.ok .done, rfl⟩, fun v hv => ?_⟩
  refine OwnsAll.working (fun _ => ⟨.ok Result.done, rfl⟩)
    (OwnsAll.await rfl fun e found _ hp => ?_)
  cases hp
  cases hrow : v.row with
  | none => trivial
  | some job =>
    rw [← hv job hrow]
    exact ownsAll_processJob input job v

/-! ## The order of the lock -/

/-- The threads that have taken the lock of the job, in the order in which they took it. -/
def State.acquirers (s : State) (jobId : Uuid) : List ℕ :=
  (s.log.filter fun x => acquires x = some (lockKey jobId)).map Entry.thread

theorem State.acquirers_append {s s' : State} {x : Entry infrastructure Failure Env}
    (h : s'.log = s.log ++ [x]) (jobId : Uuid) :
    s'.acquirers jobId =
      s.acquirers jobId ++ if acquires x = some (lockKey jobId) then [x.thread] else [] := by
  unfold acquirers
  rw [h, List.filter_append, List.map_append]
  split_ifs with hx <;> simp [hx]

/-- A thread that has answered no call has taken no lock. -/
theorem State.not_mem_acquirers {s : State} {i : ℕ} (h : s.past i = []) (jobId : Uuid) :
    i ∉ s.acquirers jobId := by
  intro hi
  obtain ⟨x, hx, hxi⟩ := List.mem_map.mp hi
  have hmem : x ∈ s.past i :=
    List.mem_filter.mpr ⟨List.mem_of_mem_filter hx, decide_eq_true hxi⟩
  rw [h] at hmem
  cases hmem

/-- Replaying the executions `order` one after the other over `w`, as far as each has come,
ends in the world given. -/
inductive Replayed (s : State) (inputs : List ProcessJobInput) (w : World) :
    List ℕ → World → Prop
  | nil : Replayed s inputs w [] w
  | snoc {order : List ℕ} {u u' : World} {i : ℕ} {input : ProcessJobInput} {p : Promise Result}
    (h : Replayed s inputs w order u) (hi : inputs[i]? = some input)
    (hp : s.threads[i]? = some p)
    (hreplay : (Call.process input).prog.replay handle (s.choices i) u = (p, u')) :
    Replayed s inputs w (order ++ [i]) u'

section Replayed

variable {s s' : State} {inputs : List ProcessJobInput} {w : World}

/-- Only the executions in the order matter. -/
theorem Replayed.congr {order : List ℕ} {u : World} (h : Replayed s inputs w order u)
    (hs : ∀ i ∈ order, s'.threads[i]? = s.threads[i]? ∧ s'.past i = s.past i) :
    Replayed s' inputs w order u := by
  induction h with
  | nil => exact .nil
  | @snoc order u u' i input p h hi hp hreplay ih =>
    obtain ⟨hthread, hpast⟩ := hs i List.mem_concat_self
    refine (ih fun j hj => hs j (List.mem_append_left _ hj)).snoc hi (hthread.trans hp) ?_
    rw [Pool.choices, hpast]
    exact hreplay

theorem Replayed.last {order : List ℕ} {i : ℕ} {u' : World}
    (h : Replayed s inputs w (order ++ [i]) u') :
    ∃ u input p, Replayed s inputs w order u ∧ inputs[i]? = some input ∧
      s.threads[i]? = some p ∧
      (Call.process input).prog.replay handle (s.choices i) u = (p, u') := by
  generalize hl : order ++ [i] = l at h
  cases h with
  | nil => simp at hl
  | snoc h hi hp hreplay =>
    obtain ⟨rfl, hij⟩ := List.append_inj' hl rfl
    obtain rfl := List.singleton_inj.mp hij
    exact ⟨_, _, _, h, hi, hp, hreplay⟩

/-- The replays of executions that have ended are their runs. -/
theorem Replayed.inOrder {order : List ℕ} {u : World} (h : Replayed s inputs w order u)
    (hended : ∀ i ∈ order, (s.outcome i).isSome) :
    (s.inOrder (inputs.map .process) order w).2 = u := by
  induction h with
  | nil => rfl
  | @snoc order u u' i input p h hi hp hreplay ih =>
    have hcall : (inputs.map Call.process)[i]? = some (.process input) := by simp [hi]
    obtain ⟨r, rfl⟩ : ∃ r, p = .resolve r := by
      have := hended i List.mem_concat_self
      rw [Pool.outcome, hp] at this
      cases p with
      | ret a => exact ⟨.ok a, rfl⟩
      | throw err => exact ⟨.error err, rfl⟩
      | call op k => cases this
    have hrun : (Call.process input).prog.run handle (s.script ⟨0, 0, .resolves⟩ i) 0 u = (r, u') :=
      Prog.run_of_replay hreplay fun n e hn => by
        rw [Nat.zero_add]
        exact Pool.script_eq hn
    have hone : s.inOrder (inputs.map .process) [i] u = ([r], u') := State.inOrder_cons hcall hrun
    have hbefore := ih fun j hj => hended j (List.mem_append_left _ hj)
    rw [State.inOrder, List.filterMap_append, Prog.inTurn_append]
    rw [State.inOrder] at hbefore hone
    rw [hbefore, hone]

end Replayed

/-! ## Where each execution is -/

/-- An execution has not begun, holds the lock of its job, or has ended. -/
inductive Stage (s : State) (i : ℕ) (input : ProcessJobInput) : Prop
  | waiting (hp : s.threads[i]? = some (Call.process input).prog) (hpast : s.past i = [])
  | working (p : Promise Result) (hp : s.threads[i]? = some p)
    (hworking : Working input.jobId p (s.world.view input.jobId))
    (hkey : (s.world.locks.lookup (lockKey input.jobId)).isSome)
    (hlast : ∃ order, s.acquirers input.jobId = order ++ [i])
  | ended (r : Except Failure Result) (hp : s.threads[i]? = some (.resolve r))

/-- What the executions of one job have done : the last to take the lock may still hold it,
and replayed alone in turn they leave a world that agrees with the shared one on the job. -/
structure Serialized (w : World) (inputs : List ProcessJobInput) (s : State) (jobId : Uuid) :
    Prop where
  nodup : (s.acquirers jobId).Nodup
  own : ∀ i ∈ s.acquirers jobId, ∃ input, inputs[i]? = some input ∧ input.jobId = jobId
  stage : ∀ (i : ℕ) (input : ProcessJobInput), inputs[i]? = some input → input.jobId = jobId →
    Stage s i input
  serial : ∃ u, Replayed s inputs w (s.acquirers jobId) u ∧ Agree jobId u s.world

/-- A move has changed nothing about the job. -/
structure Kept (jobId : Uuid) (s s' : State) : Prop where
  view : s'.world.view jobId = s.world.view jobId
  lock : s'.world.locks.lookup (lockKey jobId) = s.world.locks.lookup (lockKey jobId)
  within : Within s.world s'.world
  order : s'.acquirers jobId = s.acquirers jobId

section Keep

variable {s s' : State} {i : ℕ} {jobId : Uuid} {w : World} {inputs : List ProcessJobInput}

theorem Stage.congr {input : ProcessJobInput} (h : Stage s i input)
    (hs : s'.threads[i]? = s.threads[i]? ∧ s'.past i = s.past i)
    (hkept : Kept input.jobId s s') : Stage s' i input := by
  cases h with
  | waiting hp hpast => exact .waiting (hs.1.trans hp) (hs.2.trans hpast)
  | working p hp hworking hkey hlast =>
    refine .working p (hs.1.trans hp) ?_ ?_ ?_
    · rw [hkept.view]
      exact hworking
    · rw [hkept.lock]
      exact hkey
    · rw [hkept.order]
      exact hlast
  | ended r hp => exact .ended r (hs.1.trans hp)

/-- An execution that does not hold the lock does not mind what happens to the job. -/
theorem Stage.idle {input : ProcessJobInput} (h : Stage s i input)
    (hs : s'.threads[i]? = s.threads[i]? ∧ s'.past i = s.past i)
    (hidle : (∃ order, s.acquirers input.jobId = order ++ [i]) →
      s.world.locks.lookup (lockKey input.jobId) = none) : Stage s' i input := by
  cases h with
  | waiting hp hpast => exact .waiting (hs.1.trans hp) (hs.2.trans hpast)
  | working p hp hworking hkey hlast =>
    rw [hidle hlast] at hkey
    cases hkey
  | ended r hp => exact .ended r (hs.1.trans hp)

/-- A move of a thread that has not taken the lock of the job, and which changes nothing about
it. -/
theorem Serialized.kept (h : Serialized w inputs s jobId)
    (hothers : ∀ j, j ≠ i → s'.threads[j]? = s.threads[j]? ∧ s'.past j = s.past j)
    (hnot : i ∉ s.acquirers jobId)
    (hi : ∀ input, inputs[i]? = some input → input.jobId = jobId → Stage s' i input)
    (hkept : Kept jobId s s') : Serialized w inputs s' jobId := by
  refine ⟨hkept.order ▸ h.nodup, hkept.order ▸ h.own, fun j input hj hid => ?_, ?_⟩
  · by_cases hji : j = i
    · subst hji
      exact hi input hj hid
    · subst hid
      exact (h.stage j input hj rfl).congr (hothers j hji) hkept
  · obtain ⟨u, hu, hagree⟩ := h.serial
    refine ⟨u, ?_, hagree.view.trans hkept.view.symm, hagree.lock.trans hkept.lock.symm,
      hagree.within.trans hkept.within⟩
    rw [hkept.order]
    exact hu.congr fun j hj => hothers j fun hji => hnot (hji ▸ hj)

variable {input : ProcessJobInput} {op : Op} {e : Env} {reply : op.Reply}
  {k : Except Failure op.Reply → Promise Result}

/-- The holder of the lock makes a call that would go the same way if the executions ran alone
in turn. -/
theorem Serialized.go (h : Serialized w inputs s input.jobId) (hi : inputs[i]? = some input)
    (hop : s.threads[i]? = some (.call op k)) (hself : s'.threads[i]? = some (k (.ok reply)))
    (hchoices : s'.choices i = s.choices i ++ [e])
    (hothers : ∀ j, j ≠ i → s'.threads[j]? = s.threads[j]? ∧ s'.past j = s.past j)
    {order : List ℕ} (hlast : s.acquirers input.jobId = order ++ [i])
    (horder : s'.acquirers input.jobId = s.acquirers input.jobId)
    (hfollow : ∀ u, Agree input.jobId u s.world →
      ∃ u', handle e op u = (.ok reply, u') ∧ Agree input.jobId u' s'.world)
    (hstage : Stage s' i input) : Serialized w inputs s' input.jobId := by
  refine ⟨horder ▸ h.nodup, horder ▸ h.own, fun j input' hj hid => ?_, ?_⟩
  · by_cases hji : j = i
    · subst hji
      obtain rfl := Option.some.inj (hi.symm.trans hj)
      exact hstage
    · refine (h.stage j input' hj hid).idle (hothers j hji) fun ⟨order', hlast'⟩ => ?_
      rw [hid, hlast] at hlast'
      exact absurd (List.singleton_inj.mp (List.append_inj' hlast' rfl).2).symm hji
  · obtain ⟨u₁, hu₁, hagree⟩ := h.serial
    rw [hlast] at hu₁
    obtain ⟨u, input', p, hu, hinput, hp, hreplay⟩ := hu₁.last
    obtain rfl := Option.some.inj (hi.symm.trans hinput)
    obtain rfl := Option.some.inj (hop.symm.trans hp)
    obtain ⟨u', hh, hagree'⟩ := hfollow u₁ hagree
    refine ⟨u', ?_, hagree'⟩
    have hnodup : (order ++ [i]).Nodup := hlast ▸ h.nodup
    have hnot : i ∉ order := fun hmem =>
      (List.nodup_append.mp hnodup).2.2 i hmem i (List.mem_singleton_self i) rfl
    rw [horder, hlast]
    refine (hu.congr fun j hj => hothers j fun hji => hnot (hji ▸ hj)).snoc hi hself ?_
    rw [hchoices, Prog.replay_concat hreplay, hh]

/-- An execution takes the lock : it is the next in turn. -/
theorem Serialized.take (h : Serialized w inputs s input.jobId) (hi : inputs[i]? = some input)
    (hprog : (Call.process input).prog = .call op k)
    (hpast : s.past i = []) (hself : s'.threads[i]? = some (k (.ok reply)))
    (hchoices : s'.choices i = [e])
    (hothers : ∀ j, j ≠ i → s'.threads[j]? = s.threads[j]? ∧ s'.past j = s.past j)
    (hfree : s.world.locks.lookup (lockKey input.jobId) = none)
    (horder : s'.acquirers input.jobId = s.acquirers input.jobId ++ [i])
    (hfollow : ∀ u, Agree input.jobId u s.world →
      ∃ u', handle e op u = (.ok reply, u') ∧ Agree input.jobId u' s'.world)
    (hstage : Stage s' i input) : Serialized w inputs s' input.jobId := by
  have hnot : i ∉ s.acquirers input.jobId := State.not_mem_acquirers hpast input.jobId
  refine ⟨?_, fun j hj => ?_, fun j input' hj hid => ?_, ?_⟩
  · rw [horder]
    exact h.nodup.append (List.nodup_singleton i) (by simpa using hnot)
  · rw [horder, List.mem_append, List.mem_singleton] at hj
    rcases hj with hj | rfl
    · exact h.own j hj
    · exact ⟨input, hi, rfl⟩
  · by_cases hji : j = i
    · subst hji
      obtain rfl := Option.some.inj (hi.symm.trans hj)
      exact hstage
    · exact (h.stage j input' hj hid).idle (hothers j hji) fun _ => hid ▸ hfree
  · obtain ⟨u, hu, hagree⟩ := h.serial
    obtain ⟨u', hh, hagree'⟩ := hfollow u hagree
    refine ⟨u', ?_, hagree'⟩
    rw [horder]
    refine (hu.congr fun j hj => hothers j fun hji => hnot (hji ▸ hj)).snoc hi hself ?_
    rw [hprog, hchoices, ← List.nil_append [e], Prog.replay_concat (Prog.replay_nil _ u), hh]

end Keep

/-! ## One call of an execution -/

/-- What an answered call of an execution is : it is refused the lock and ends, takes it, works
under it, or gives it back. -/
inductive Execution (s s' : State) (i : ℕ) (input : ProcessJobInput) (e : Env) : Prop
  | refused (r : Except Failure Result) (hself : s'.threads[i]? = some (.resolve r))
    (hpast : s.past i = []) (hworld : s'.world = { s.world with clock := e.now })
    (horder : ∀ jobId, s'.acquirers jobId = s.acquirers jobId)
  | took (k : Except Failure Bool → Promise Result)
    (hprog : (Call.process input).prog = .call (.setNX (lockKey input.jobId) 60) k)
    (hpast : s.past i = []) (hself : s'.threads[i]? = some (k (.ok true)))
    (hworking : Working input.jobId (k (.ok true)) (s.world.view input.jobId))
    (hres : e.outcome = .resolves) (t : Table RedisLock.key)
    (ht : s.world.locks.insert ⟨lockKey input.jobId, e.now + 1000 * 60⟩ = some t)
    (hworld : s'.world = { s.world with clock := e.now, locks := t })
    (horder : ∀ jobId,
      s'.acquirers jobId = s.acquirers jobId ++ if jobId = input.jobId then [i] else [])
  | worked (op : Op) (k : Except Failure op.Reply → Promise Result) (reply : op.Reply)
    (hop : s.threads[i]? = some (.call op k)) (hself : s'.threads[i]? = some (k (.ok reply)))
    (ho : Owns input.jobId (s.world.view input.jobId) op)
    (hnew : op.generates = true → ¬Mentions s.world e.uuid)
    (hh : handle e op s.world = (.ok reply, s'.world))
    (hworking : ∀ v', (s.world.view input.jobId).perform e op = some (reply, v') →
      Working input.jobId (k (.ok reply)) v')
    (hkey : (s.world.locks.lookup (lockKey input.jobId)).isSome)
    (order : List ℕ) (hlast : s.acquirers input.jobId = order ++ [i])
    (horder : ∀ jobId, s'.acquirers jobId = s.acquirers jobId)
  | released (k : Except Failure Unit → Promise Result) (r : Except Failure Result)
    (hop : s.threads[i]? = some (.call (.del (lockKey input.jobId)) k))
    (hself : s'.threads[i]? = some (k (.ok ()))) (hk : k (.ok ()) = .resolve r)
    (hres : e.outcome = .resolves)
    (hworld : s'.world =
      { s.world with clock := e.now, locks := s.world.locks.erase (lockKey input.jobId) })
    (order : List ℕ) (hlast : s.acquirers input.jobId = order ++ [i])
    (horder : ∀ jobId, s'.acquirers jobId = s.acquirers jobId)

/-- A move that answers a call. The call does not fail, and an id it generates is none that
something recorded names. -/
def Undisturbed (s : State) (m : Label) : Prop :=
  Answering m ∧ Resolves s m ∧
    Answers s (fun _ e op => op.generates = true → ¬Mentions s.world e.uuid) m

instance (s : State) : DecidablePred (Undisturbed s) := fun _ =>
  inferInstanceAs (Decidable (_ ∧ _ ∧ _))

theorem Stage.execution {s s' : State} {i : ℕ} {input : ProcessJobInput} {e : Env} {op : Op}
    {k : Except Failure op.Reply → Promise Result} (h : Stage s i input)
    (hop : s.threads[i]? = some (.call op k)) (hworld : s'.world = (handle e op s.world).2)
    (hself : s'.threads[i]? = some (k (handle e op s.world).1))
    (hlog : s'.log = s.log ++ [entry s i e op])
    (hok : (handle e op s.world).1.isOk = true)
    (hnew : op.generates = true → ¬Mentions s.world e.uuid) : Execution s s' i input e := by
  obtain ⟨reply, hh⟩ : ∃ reply, handle e op s.world = (.ok reply, s'.world) := by
    rw [hworld]
    cases hr : handle e op s.world with
    | mk reply w' =>
      rw [hr] at hok
      cases reply with
      | ok reply => exact ⟨reply, rfl⟩
      | error err => cases hok
  have horder : ∀ jobId, s'.acquirers jobId = s.acquirers jobId ++
      if acquires ⟨i, e, op, .ok reply⟩ = some (lockKey jobId) then [i] else [] := by
    intro jobId
    rw [State.acquirers_append hlog, entry, hh]
  rw [hh] at hself
  obtain ⟨hp, hres⟩ := handle_eq_ok hh
  cases h with
  | waiting hprog hpast =>
    obtain ⟨k₀, hprog₀, ⟨r, hrefused⟩, htook⟩ := process_prog input
    obtain ⟨rfl, hk⟩ := Prog.call.inj
      (hprog₀.symm.trans (Option.some.inj (hprog.symm.trans hop)))
    obtain rfl := eq_of_heq hk
    simp only [perform] at hp
    cases hins : s.world.locks.insert ⟨lockKey input.jobId, e.now + 1000 * 60⟩ with
    | none =>
      rw [hins] at hp
      obtain ⟨rfl, hw⟩ := Prod.mk.inj (Option.some.inj hp)
      refine .refused r (hself.trans (by rw [hrefused])) hpast hw.symm fun jobId => ?_
      simpa [acquires] using horder jobId
    | some t =>
      rw [hins] at hp
      obtain ⟨rfl, hw⟩ := Prod.mk.inj (Option.some.inj hp)
      refine .took k₀ hprog₀ hpast hself (htook _ fun job hjob => ?_)
        (hres.resolve_left Bool.false_ne_true) t hins hw.symm fun jobId => ?_
      · exact (Table.lookup_eq_some.mp hjob).2
      · simpa [acquires, lockKey_injective.eq_iff, eq_comm] using horder jobId
  | working p hprog hworking hkey hlast =>
    obtain rfl := Option.some.inj (hop.symm.trans hprog)
    obtain ⟨order, hlast⟩ := hlast
    obtain ⟨rfl, hend⟩ | ⟨ho, hnext⟩ := hworking
    · obtain ⟨-, hw⟩ := Prod.mk.inj (Option.some.inj hp)
      obtain ⟨r, hr⟩ := hend reply
      refine .released k r hop hself hr (hres.resolve_left Bool.false_ne_true) hw.symm order hlast
        fun jobId => ?_
      simpa [acquires] using horder jobId
    · refine .worked op k reply hop hself ho hnew hh (hnext e reply) hkey order hlast
        fun jobId => ?_
      simpa [acquires_eq_none (x := ⟨i, e, op, .ok reply⟩) ho.redis] using horder jobId
  | ended r hprog =>
    cases r <;> cases hop.symm.trans hprog

section Execution

variable {s s' : State} {i : ℕ} {input : ProcessJobInput} {e : Env} {w : World}
  {inputs : List ProcessJobInput}

/-- A move that touches keys only, and not the key of the job. -/
theorem Kept.of_locks {jobId : Uuid} {t : Table RedisLock.key}
    (hworld : s'.world = { s.world with clock := e.now, locks := t })
    (hlock : t.lookup (lockKey jobId) = s.world.locks.lookup (lockKey jobId))
    (horder : s'.acquirers jobId = s.acquirers jobId) : Kept jobId s s' where
  view := by
    rw [hworld]
    rfl
  lock := by
    rw [hworld]
    exact hlock
  within := by
    rw [hworld]
    exact { Within.refl s.world with }
  order := horder

/-- An execution changes nothing about another job. -/
theorem Execution.kept (h : Execution s s' i input e) {jobId : Uuid} (hne : jobId ≠ input.jobId) :
    Kept jobId s s' := by
  have hkey : lockKey input.jobId ≠ lockKey jobId := fun hk => hne (lockKey_injective hk).symm
  cases h with
  | refused r hself hpast hworld horder => exact .of_locks hworld rfl (horder jobId)
  | took k hprog hpast hself hworking hres t ht hworld horder =>
    refine .of_locks hworld ((Table.lookup_insert ht _).trans (if_neg hkey)) ?_
    rw [horder, if_neg hne, List.append_nil]
  | worked op k reply hop hself ho hnew hh hworking _ order hlast horder =>
    obtain ⟨hview, hlock, hwithin⟩ := (Agree.refl jobId s.world).other ho hnew hh hne.symm
    exact ⟨hview.symm, hlock.symm, hwithin, horder jobId⟩
  | released k r hop hself hk hres hworld order hlast horder =>
    exact .of_locks hworld ((Table.lookup_erase _ _ _).trans (if_neg hkey)) (horder jobId)

/-- An execution that does not hold the lock changes nothing that is recorded. -/
theorem Execution.view_eq (h : Execution s s' i input e) {jobId : Uuid}
    (hne : jobId ≠ input.jobId ∨ i ∉ s.acquirers jobId) :
    s'.world.view jobId = s.world.view jobId := by
  by_cases hj : jobId = input.jobId
  · subst hj
    have hnot := hne.resolve_left fun h => h rfl
    cases h with
    | refused r hself hpast hworld horder =>
      rw [hworld]
      rfl
    | took k hprog hpast hself hworking hres t ht hworld horder =>
      rw [hworld]
      rfl
    | worked op k reply hop hself ho hnew hh hworking hkey order hlast horder =>
      exact absurd (hlast ▸ List.mem_concat_self) hnot
    | released k r hop hself hk hres hworld order hlast horder =>
      exact absurd (hlast ▸ List.mem_concat_self) hnot
  · exact (h.kept hj).view

/-- The executions of the job stay serialized. -/
theorem Execution.serialized (h : Execution s s' i input e) (hi : inputs[i]? = some input)
    (hchoices : s'.choices i = s.choices i ++ [e])
    (hothers : ∀ j, j ≠ i → s'.threads[j]? = s.threads[j]? ∧ s'.past j = s.past j)
    (hs : Serialized w inputs s input.jobId) : Serialized w inputs s' input.jobId := by
  cases h with
  | refused r hself hpast hworld horder =>
    exact hs.kept hothers (State.not_mem_acquirers hpast _) (fun _ _ _ => .ended r hself)
      (.of_locks hworld rfl (horder _))
  | took k hprog hpast hself hworking hres t ht hworld horder =>
    have hfree : s.world.locks.lookup (lockKey input.jobId) = none :=
      Table.lookup_eq_none.mpr (Table.insert_eq_some ht).2
    have hacq : s'.acquirers input.jobId = s.acquirers input.jobId ++ [i] := by
      rw [horder, if_pos rfl]
    have hnone : s.choices i = [] := by
      rw [Pool.choices, hpast]
      rfl
    rw [hnone, List.nil_append] at hchoices
    refine hs.take hi hprog hpast hself hchoices hothers hfree hacq (fun u hu => ?_) ?_
    · obtain ⟨t', ht'⟩ := Table.exists_insert (t := u.locks)
        (a := (⟨lockKey input.jobId, e.now + 1000 * 60⟩ : RedisLock))
        (Table.lookup_eq_none.mp (hu.lock.trans hfree))
      have hp : perform e { u with clock := e.now } (.setNX (lockKey input.jobId) 60) =
          some (true, { u with clock := e.now, locks := t' }) := by
        simp only [perform, ht']
      refine ⟨_, handle_of_perform hp (.inr hres), ?_⟩
      rw [hworld]
      exact hu.locks
        (by rw [Table.lookup_insert ht', Table.lookup_insert ht, if_pos rfl, if_pos rfl])
    · refine .working _ hself ?_ ?_ ⟨_, hacq⟩
      · rw [hworld]
        exact hworking
      · rw [hworld]
        show (t.lookup _).isSome
        rw [Table.lookup_insert ht, if_pos rfl]
        rfl
  | worked op k reply hop hself ho hnew hh hworking hkey order hlast horder =>
    refine hs.go hi hop hself hchoices hothers hlast (horder _) (fun u hu => hu.own ho hnew hh) ?_
    obtain ⟨hp, -⟩ := handle_eq_ok hh
    refine .working _ hself ?_ ?_ ⟨order, (horder _).trans hlast⟩
    · exact hworking _ (Owns.perform_view (w := { s.world with clock := e.now }) ho hnew hp)
    · rw [perform_locks ho.redis hp]
      exact hkey
  | released k r hop hself hk hres hworld order hlast horder =>
    refine hs.go hi hop hself hchoices hothers hlast (horder _) (fun u hu => ?_)
      (.ended r (hself.trans (by rw [hk])))
    refine ⟨_, handle_of_perform rfl (.inr hres), ?_⟩
    rw [hworld]
    exact hu.locks (by rw [Table.lookup_erase, Table.lookup_erase, if_pos rfl, if_pos rfl])

end Execution

/-! ## Every run -/

/-- A move of the run : a call of one execution is answered. -/
theorem exists_execution {w : World} {inputs : List ProcessJobInput} {s s' : State} {m : Label}
    (hlen : s.threads.length = inputs.length) (h : ∀ jobId, Serialized w inputs s jobId)
    (hm : Undisturbed s m) (hstep : step s m = some s') :
    ∃ i e input, m = .step i e ∧ inputs[i]? = some input ∧ Execution s s' i input e ∧
      s'.choices i = s.choices i ++ [e] ∧ s'.threads.length = s.threads.length ∧
      ∀ j, j ≠ i → s'.threads[j]? = s.threads[j]? ∧ s'.past j = s.past j := by
  obtain ⟨hanswer, hok, hnew⟩ := hm
  cases m with
  | start | deliver | redeliver | stop | expire => exact hanswer.elim
  | step i e =>
    rw [step_step] at hstep
    obtain ⟨op, k, hop, hworld, hself, hlog, hpast, hlength, hothers⟩ :=
      Pool.advance_threads hstep.2
    have hi : i < inputs.length := hlen ▸ (List.getElem?_eq_some_iff.mp hop).1
    have hinput : inputs[i]? = some inputs[i] := List.getElem?_eq_getElem hi
    have hawaited : s.awaited i = some op := Pool.awaited_eq_some.mpr ⟨k, hop⟩
    have hstage := (h inputs[i].jobId).stage i inputs[i] hinput rfl
    refine ⟨i, e, inputs[i], rfl, hinput, ?_, ?_, hlength, hothers⟩
    · exact hstage.execution hop hworld hself hlog (hok op hawaited) (hnew op hawaited)
    · rw [Pool.choices, hpast, List.map_append]
      rfl

theorem serialized_step {w : World} {inputs : List ProcessJobInput} {s s' : State} {m : Label}
    (hlen : s.threads.length = inputs.length) (h : ∀ jobId, Serialized w inputs s jobId)
    (hm : Undisturbed s m) (hstep : step s m = some s') :
    s'.threads.length = inputs.length ∧ ∀ jobId, Serialized w inputs s' jobId := by
  obtain ⟨i, e, input, -, hi, hexec, hchoices, hlength, hothers⟩ :=
    exists_execution hlen h hm hstep
  refine ⟨hlength.trans hlen, fun jobId => ?_⟩
  by_cases hj : jobId = input.jobId
  · subst hj
    exact hexec.serialized hi hchoices hothers (h input.jobId)
  · have hnot : i ∉ s.acquirers jobId := fun hmem => by
      obtain ⟨input', hi', hid⟩ := (h jobId).own i hmem
      obtain rfl := Option.some.inj (hi.symm.trans hi')
      exact hj hid.symm
    refine (h jobId).kept hothers hnot (fun input' hi' hid => ?_) (hexec.kept hj)
    obtain rfl := Option.some.inj (hi.symm.trans hi')
    exact absurd hid.symm hj

theorem serialized_start (w : World) (inputs : List ProcessJobInput) (jobId : Uuid) :
    Serialized w inputs (State.running w (inputs.map .process)) jobId where
  nodup := List.nodup_nil
  own i hi := by cases hi
  stage i input hi _ := .waiting (by simp [State.running, hi]) rfl
  serial := ⟨w, .nil, .refl jobId w⟩

theorem serialized_run {w : World} {inputs : List ProcessJobInput} {s : State}
    (h : Reachable step Undisturbed (State.running w (inputs.map .process)) s) :
    s.threads.length = inputs.length ∧ ∀ jobId, Serialized w inputs s jobId :=
  Reachable.invariant
    (I := fun s => s.threads.length = inputs.length ∧ ∀ jobId, Serialized w inputs s jobId)
    (fun _ _ _ hI hm hstep => serialized_step hI.1 hI.2 hm hstep)
    ⟨by simp [State.running], serialized_start w inputs⟩ h

/-- Executions are serializable. When all have ended, what is recorded about a job is what the
executions that took its lock record when they run alone one after the other, in the order in
which they took it. On the way, an execution changes nothing about a job that is not its own
or whose lock it has not taken. -/
theorem serializable (w : World) (inputs : List ProcessJobInput) {s : State}
    (h : Reachable step Undisturbed (State.running w (inputs.map .process)) s) :
    (s.Finished → ∀ jobId, s.world.view jobId =
      (s.inOrder (inputs.map .process) (s.acquirers jobId) w).2.view jobId) ∧
    ∀ (i : ℕ) (input : ProcessJobInput) (e : Env) (s' : State), inputs[i]? = some input →
      Undisturbed s (.step i e) → step s (.step i e) = some s' →
      ∀ jobId, jobId ≠ input.jobId ∨ i ∉ s.acquirers jobId →
        s'.world.view jobId = s.world.view jobId := by
  obtain ⟨hlen, hall⟩ := serialized_run h
  refine ⟨fun hfin jobId => ?_, fun i input e s' hi hm hstep jobId hne => ?_⟩
  · obtain ⟨u, hu, hagree⟩ := (hall jobId).serial
    rw [hu.inOrder fun i hi => ?_]
    · exact hagree.view.symm
    · obtain ⟨input, hinput, -⟩ := (hall jobId).own i hi
      exact hfin i (hlen ▸ (List.getElem?_eq_some_iff.mp hinput).1)
  · obtain ⟨j, e', input', hm', hi', hexec, -⟩ := exists_execution hlen hall hm hstep
    obtain ⟨rfl, rfl⟩ := Label.step.inj hm'
    obtain rfl := Option.some.inj (hi.symm.trans hi')
    exact hexec.view_eq hne

/-- A world with two queued jobs. -/
def twoJobs : World :=
  let job : JobColumns := JobService.newJob ⟨"ingest", "batch", [], 1, 3, "alice"⟩
  { World.empty with
    jobs := ⟨[⟨job, 1, 0, 0⟩, ⟨job, 2, 0, 0⟩], by decide⟩
    clock := 2 }

/-- Two executions of one job and one of the other. -/
def threeExecutions : List ProcessJobInput :=
  [⟨1, "created", "alice"⟩, ⟨1, "retry", "bob"⟩, ⟨2, "created", "carol"⟩]

/-- The second execution of job 1 waits for the first, with the one of job 2 in between; had it
not waited, it would have been refused. -/
theorem serializable_three :
    (∃ s, Reachable step Undisturbed (State.running twoJobs (threeExecutions.map .process)) s ∧
      s.acquirers 1 = [0, 1] ∧ ∀ jobId, s.world.view jobId =
        (s.inOrder (threeExecutions.map .process) (s.acquirers jobId) twoJobs).2.view jobId) ∧
    ∃ s s', Reachable step Undisturbed (State.running twoJobs (threeExecutions.map .process)) s ∧
      step s (.step 1 ⟨9, 9, .resolves⟩) = some s' ∧ s.acquirers 1 = [0] ∧
      s'.world.view 1 = s.world.view 1 := by
  constructor
  · obtain ⟨s, hs, hfin, hacq⟩ : ∃ s,
        Reachable step Undisturbed (State.running twoJobs (threeExecutions.map .process)) s ∧
          s.Finished ∧ s.acquirers 1 = [0, 1] :=
      exists_reachable_of_execute _
        (calls 0 1 3 ++ calls 2 5 4 ++ calls 0 15 9 ++ calls 1 16 24 ++ calls 2 11 40) _
        (by decide +kernel)
    exact ⟨s, hs, hacq, (serializable twoJobs threeExecutions hs).1 hfin⟩
  · obtain ⟨s, hs, hm, hstep, hacq⟩ : ∃ s,
        Reachable step Undisturbed (State.running twoJobs (threeExecutions.map .process)) s ∧
          Undisturbed s (.step 1 ⟨9, 9, .resolves⟩) ∧
          (step s (.step 1 ⟨9, 9, .resolves⟩)).isSome ∧ s.acquirers 1 = [0] :=
      exists_reachable_of_execute _ (calls 0 6 3) _ (by decide)
    obtain ⟨s', hs'⟩ := Option.isSome_iff_exists.mp hstep
    refine ⟨s, s', hs, hs', hacq, ?_⟩
    exact (serializable twoJobs threeExecutions hs).2 1 _ _ s' rfl hm hs' 1
      (.inr (by rw [hacq]; decide))

end RealtimeOps
