import RealtimeOps.Platform

/-!
# Racing retries

Any number of `retry` calls on one failed job, and nothing else. One after the other, the
first is accepted and the others find the job queued. `retry` checks the status it has read
and saves a call later, with no lock in between, so two calls that both read before either
saves are both accepted and send two messages (`not_linearizable`).

If no call reads the job while another that has read it has yet to save (`ReadsAlone`), the
calls are linearized by who reads first (`linearizable`). `Race` is the invariant : the first
reader has done a part of its run alone, the world is the one this part leads to, and every
other call has not begun or has been refused.
-/

set_option autoImplicit false

namespace RealtimeOps

open Interleaving JobService

/-! ## Sequential orders -/

/-- The retries of one job by several operators. -/
def retries (jobId : Uuid) (operators : List String) : List Call :=
  operators.map (Call.retry jobId)

/-- The calls ended, and left the job, the queue and the operator actions, as if run one
after the other in this order : the first is accepted and sends one message, and every other
one is refused after its read. -/
structure Linearized (w : World) (jobId : Uuid) (operators : List String) (s : State)
    (order : List ℕ) : Prop where
  perm : order.Perm (List.range operators.length)
  results : (s.inOrder (retries jobId operators) order w).1.map some = order.map s.outcome
  row : s.world.jobs.lookup jobId =
    (s.inOrder (retries jobId operators) order w).2.jobs.lookup jobId
  messages : s.world.ready.length =
    (s.inOrder (retries jobId operators) order w).2.ready.length
  actions : s.world.operatorActions.rows.length =
    (s.inOrder (retries jobId operators) order w).2.operatorActions.rows.length
  accepted : ∀ i rest, order = i :: rest →
    (∃ row, s.outcome i = some (.ok (.job row))) ∧
    s.world.ready.length = w.ready.length + 1 ∧
    s.world.operatorActions.rows.length = w.operatorActions.rows.length + 1 ∧
    ∀ k ∈ rest, s.outcome k = some (.error (.badRequest "Only failed jobs can be retried")) ∧
      ∀ x ∈ s.past k, x.op = .findJob jobId

/-- A call is answered and resolves. -/
def Racing (s : State) (m : Label) : Prop :=
  Answering m ∧ Resolves s m

/-- A call is answered and resolves; it reads no job while a call that has read it has yet to
save it. -/
def ReadsAlone (s : State) (m : Label) : Prop :=
  Racing s m ∧ Answers s (fun _ _ op => op.finds ≠ none →
    ∀ k < s.threads.length, ∀ op' ∈ s.awaited k, op'.saves = none) m

instance (s : State) : DecidablePred (Racing s) := fun _ =>
  inferInstanceAs (Decidable (_ ∧ _))

instance (s : State) : DecidablePred (ReadsAlone s) := fun _ =>
  inferInstanceAs (Decidable (_ ∧ _))

/-! ## One retry -/

/-- The calls that write no job. -/
def Op.keepsJobs : Op → Bool
  | .insertJob _ | .saveJob _ => false
  | _ => true

theorem handle_keepsJobs {op : Op} (hop : op.keepsJobs = true) (e : Env) (w : World) :
    (handle e op w).2.jobs = w.jobs := by
  obtain h | ⟨reply, h⟩ := handle_world e op w
  · rw [h]
  · generalize (handle e op w).2 = w' at h
    cases op <;> simp only [Op.keepsJobs, Bool.false_eq_true] at hop <;>
      simp only [perform, Option.ite_none_right_eq_some, Option.map_eq_some_iff, Prod.mk.injEq,
        Option.some.injEq] at h <;> grind

/-- The program of a retry : it reads, and saves if it has read a failed job with attempts
left. After that it writes no job. -/
theorem retry_prog (jobId : Uuid) (operatorId : String) :
    ∃ k, (Call.retry jobId operatorId).prog = .call (.findJob jobId) k ∧
      (∀ row : JobEntity, row.status = .FAILED → row.attemptCount < row.maxAttempts →
        ∃ k', k (.ok (some row)) = .call (.saveJob (requeued row)) k' ∧
          ∀ r, (k' r).Calls fun op : Op => op.keepsJobs = true) ∧
      ∀ row : JobEntity, row.status ≠ .FAILED →
        k (.ok (some row)) = .throw (.badRequest "Only failed jobs can be retried") := by
  refine ⟨_, rfl, fun row hs hlt => ?_, fun row hs => ?_⟩
  · simp only [Prog.resolve, Prog.pure_eq_ret, Prog.ret_bind, Prog.bind_eq, hs, ne_eq,
      not_true_eq_false, if_false, Nat.not_le_of_lt hlt, ge_iff_le]
    refine ⟨_, rfl, fun r => ((Prog.Calls.resolve r).bind fun updated => ?_).bind fun _ => trivial⟩
    exact .await_bind rfl fun _ => .await_bind rfl fun _ => .await_bind rfl fun _ =>
      .await_bind rfl fun _ => .await_bind rfl fun _ => .await_bind rfl fun _ => trivial
  · simp only [Prog.resolve, Prog.pure_eq_ret, Prog.ret_bind, Prog.bind_eq, ne_eq, hs,
      not_false_eq_true, if_true, Prog.throw_bind]

/-- The call is accepted : it has sent one message and recorded one action. -/
structure Accepted (w : World) (r : Except Failure Result) (w' : World) : Prop where
  result : ∃ row, r = .ok (.job row)
  messages : w'.ready.length = w.ready.length + 1
  actions : w'.operatorActions.rows.length = w.operatorActions.rows.length + 1

/-- Alone, a retry of a failed job with attempts left is accepted. -/
theorem retry_accepted {w : World} {job : JobEntity} (hjob : w.jobs.lookup job.id = some job)
    (hs : job.status = .FAILED) (hlt : job.attemptCount < job.maxAttempts) (operatorId : String) :
    Prog.Ensures handle (Accepted w) (Call.retry job.id operatorId).prog w := by
  simp only [Call.prog, JobService.retry, JobService.getById, Prog.bind_eq, Prog.bind_assoc]
  refine ensures_await fun e found w₁ hp => ?_
  obtain ⟨rfl, rfl⟩ := Prod.mk.inj (Option.some.inj hp)
  simp only [hjob, Prog.pure_eq_ret, Prog.ret_bind, hs, ne_eq, not_true_eq_false, if_false,
    Nat.not_le_of_lt hlt, ge_iff_le]
  refine ensures_await fun e updated w₂ hp => ?_
  obtain ⟨-, rfl⟩ := Prod.mk.inj (Option.some.inj hp)
  refine ensures_await fun e _ w₃ hp => ?_
  obtain ⟨-, actions, hactions, -, rfl⟩ := perform_insertOperatorAction hp
  refine ensures_await fun e _ w₄ hp => ?_
  obtain ⟨-, entries, -, -, rfl⟩ := perform_insertAuditEntry hp
  refine ensures_await fun e _ w₅ hp => ?_
  obtain ⟨notifications, -, -, rfl⟩ := perform_insertNotification hp
  refine ensures_await fun e _ w₆ hp => ?_
  obtain ⟨-, rfl⟩ := Prod.mk.inj (Option.some.inj hp)
  refine ensures_await fun e _ w₇ hp => ?_
  obtain ⟨-, rfl⟩ := Prod.mk.inj (Option.some.inj hp)
  refine ensures_await fun e _ w₈ hp => ?_
  obtain ⟨-, rfl⟩ := Prod.mk.inj (Option.some.inj hp)
  refine ⟨⟨updated, rfl⟩, ?_, ?_⟩
  · simp
  · simp [(Table.insert_eq_some hactions).1]

/-! ## The race -/

/-- The worlds differ in the clock at most. -/
def SameButClock (w w' : World) : Prop :=
  w' = { w with clock := w'.clock }

theorem SameButClock.handle_eq {w w' : World} (h : SameButClock w w') (e : Env) (op : Op) :
    handle e op w' = handle e op w := by
  rw [h]
  rfl

/-- The call of thread `i` has not begun. -/
structure Unbegun (jobId : Uuid) (operators : List String) (s : State) (i : ℕ) : Prop where
  prog : s.threads[i]? = operators[i]?.map fun operatorId => (Call.retry jobId operatorId).prog
  past : s.past i = []

/-- The call of thread `i` has read the job and been refused. -/
structure Declined (jobId : Uuid) (s : State) (i : ℕ) : Prop where
  prog : s.threads[i]? = some (.throw (.badRequest "Only failed jobs can be retried"))
  past : ∃ x, s.past i = [x] ∧ x.op = .findJob jobId ∧ x.env.outcome = .resolves

theorem Unbegun.congr {jobId : Uuid} {operators : List String} {s s' : State} {i : ℕ}
    (h : Unbegun jobId operators s i)
    (hs : s'.threads[i]? = s.threads[i]? ∧ s'.past i = s.past i) : Unbegun jobId operators s' i :=
  ⟨hs.1.trans h.prog, hs.2.trans h.past⟩

theorem Declined.congr {jobId : Uuid} {s s' : State} {i : ℕ} (h : Declined jobId s i)
    (hs : s'.threads[i]? = s.threads[i]? ∧ s'.past i = s.past i) : Declined jobId s' i :=
  ⟨hs.1.trans h.prog, by rw [hs.2]; exact h.past⟩

/-- The first reader `r` has `p` left to do, over the world `u` : it is about to save the job,
and nobody else has begun, or the job is queued and it writes no job any more, and everybody
else who has begun is refused. -/
inductive Lead (jobId : Uuid) (operators : List String) (s : State) (r : ℕ) (u : World) :
    Promise Result → Prop where
  | saving (row : JobEntity) (k : Except Failure JobEntity → Promise Result) (hid : row.id = jobId)
    (hk : ∀ r, (k r).Calls fun op : Op => op.keepsJobs = true)
    (hothers : ∀ i < operators.length, i ≠ r → Unbegun jobId operators s i) :
    Lead jobId operators s r u (.call (.saveJob (requeued row)) k)
  | saved (row : JobEntity) (p : Promise Result) (hrow : u.jobs.lookup jobId = some row)
    (hs : row.status = .QUEUED) (hp : p.Calls fun op : Op => op.keepsJobs = true)
    (hothers : ∀ i < operators.length, i ≠ r → Unbegun jobId operators s i ∨ Declined jobId s i) :
    Lead jobId operators s r u p

/-- Nobody has read the job, or the first reader leads. -/
inductive Race (w : World) (jobId : Uuid) (operators : List String) (s : State) : Prop where
  | unread (hw : SameButClock w s.world)
    (hall : ∀ i < operators.length, Unbegun jobId operators s i)
  | led (r : ℕ) (operatorId : String) (p : Promise Result) (u : World)
    (hr : operators[r]? = some operatorId) (hp : s.threads[r]? = some p)
    (hreplay : (Call.retry jobId operatorId).prog.replay handle (s.choices r) w = (p, u))
    (hu : SameButClock u s.world) (hens : p.Ensures handle (Accepted w) u)
    (hlead : Lead jobId operators s r u p)

theorem Race.start {w : World} {jobId : Uuid} {operators : List String} :
    Race w jobId operators (State.running w (retries jobId operators)) := by
  refine .unread rfl fun i hi => ⟨?_, rfl⟩
  simp [State.running, retries, Function.comp_def]

/-- A read that goes through gives the stored row and changes the clock only. -/
theorem handle_findJob {e : Env} {jobId : Uuid} {w : World}
    (hok : (handle e (.findJob jobId) w).1.isOk = true) :
    handle e (.findJob jobId) w = (.ok (w.jobs.lookup jobId), { w with clock := e.now }) := by
  cases hh : handle e (.findJob jobId) w with
  | mk r w' =>
    rw [hh] at hok
    cases r with
    | ok reply =>
      obtain ⟨rfl, rfl⟩ := Prod.mk.inj (Option.some.inj (handle_eq_ok hh).1)
      rfl
    | error err => cases hok

section Step

variable {w : World} {job : JobEntity} {operators : List String} {s s' : State} {i : ℕ} {e : Env}

/-- A call that has not begun awaits its read. -/
theorem Unbegun.exists_read {jobId : Uuid} (h : Unbegun jobId operators s i) {op : Op}
    {k : Except Failure op.Reply → Promise Result} (hop : s.threads[i]? = some (.call op k)) :
    ∃ operatorId, operators[i]? = some operatorId ∧
      (Call.retry jobId operatorId).prog = .call op k := by
  obtain ⟨operatorId, hr, hprog⟩ := Option.map_eq_some_iff.mp (h.prog.symm.trans hop)
  exact ⟨operatorId, hr, hprog⟩

/-- Thread `i` reads first. -/
theorem Race.read (hjob : w.jobs.lookup job.id = some job) (hs : job.status = .FAILED)
    (hlt : job.attemptCount < job.maxAttempts) (hw : SameButClock w s.world)
    (hall : ∀ i < operators.length, Unbegun job.id operators s i)
    (hi : i < operators.length) (hadv : s.advance handle i e = some s')
    (hok : ∀ op ∈ s.awaited i, (handle e op s.world).1.isOk = true) :
    Race w job.id operators s' := by
  obtain ⟨op, k, hop, hworld, hself, -, hpast, -, hothers⟩ := Pool.advance_threads hadv
  obtain ⟨operatorId, hr, hprog⟩ := (hall i hi).exists_read hop
  obtain ⟨k₀, hprog₀, hfailed, -⟩ := retry_prog job.id operatorId
  have hok := hok op (Pool.awaited_eq_some.mpr ⟨k, hop⟩)
  obtain ⟨rfl, hk⟩ := Prog.call.inj (hprog₀.symm.trans hprog)
  obtain rfl := eq_of_heq hk
  obtain ⟨k', hk', hcalls⟩ := hfailed job hs hlt
  have hh : handle e (.findJob job.id) w = (.ok (some job), { w with clock := e.now }) := by
    rw [hw.handle_eq] at hok
    rw [handle_findJob hok, hjob]
  rw [hw.handle_eq, hh] at hworld hself
  refine .led i operatorId _ { w with clock := e.now } hr (hself.trans (congrArg some hk'))
    ?_ ?_ ?_ ?_
  · have hchoices : s'.choices i = [] ++ [e] := by
      rw [Pool.choices, hpast, (hall i hi).past]
      rfl
    rw [hchoices, Prog.replay_concat (by rw [Prog.replay_nil, hprog]), hh, ← hk']
  · rw [SameButClock, hworld]
  · have hens := retry_accepted hjob hs hlt operatorId
    rw [hprog] at hens
    rw [← hk']
    exact hens e _ _ hh
  · exact .saving job k' rfl hcalls fun j hj hne => (hall j hj).congr (hothers j hne)

/-- The first reader goes on. -/
theorem Lead.go {jobId : Uuid} {r : ℕ} {u : World} {op : Op}
    {k : Except Failure op.Reply → Promise Result}
    (h : Lead jobId operators s r u (.call op k)) (hok : (handle e op u).1.isOk = true)
    (hothers : ∀ j, j ≠ r → s'.threads[j]? = s.threads[j]? ∧ s'.past j = s.past j) :
    Lead jobId operators s' r (handle e op u).2 (k (handle e op u).1) := by
  cases h with
  | saving row _ hid hk hall =>
    cases hh : handle e (.saveJob (requeued row)) u with
    | mk reply w' =>
      rw [hh] at hok
      cases reply with
      | error err => cases hok
      | ok reply =>
        obtain ⟨t, rfl, rfl⟩ := perform_saveJob (handle_eq_ok hh).1
        exact .saved { requeued row with updatedAt := t } _
          (hid ▸ Table.lookup_save_self u.jobs { requeued row with updatedAt := t }) rfl
          (hk _) fun j hj hne => .inl ((hall j hj hne).congr (hothers j hne))
  | saved row _ hrow hs hp hall =>
    refine .saved row _ ?_ hs (hp.2 _) fun j hj hne =>
      (hall j hj hne).imp (·.congr (hothers j hne)) (·.congr (hothers j hne))
    rw [handle_keepsJobs hp.1]
    exact hrow

/-- A call that reads after the first reader has saved is refused. -/
theorem Lead.decline {jobId : Uuid} {r : ℕ} {u : World} {p : Promise Result}
    (h : Lead jobId operators s r u p) (hp : s.threads[r]? = some p) (hu : SameButClock u s.world)
    (hir : i ≠ r) (hi : i < operators.length) (hadv : s.advance handle i e = some s')
    (hok : ∀ op ∈ s.awaited i, (handle e op s.world).1.isOk = true)
    (halone : ∀ op ∈ s.awaited i, op.finds ≠ none →
      ∀ k < s.threads.length, ∀ op' ∈ s.awaited k, op'.saves = none) :
    Lead jobId operators s' r u p ∧ SameButClock u s'.world := by
  obtain ⟨op, k, hop, hworld, hself, -, hpast, -, hothers⟩ := Pool.advance_threads hadv
  have hawaited : s.awaited i = some op := Pool.awaited_eq_some.mpr ⟨k, hop⟩
  cases h with
  | saving row f hid hf hall =>
    obtain ⟨operatorId, -, hprog⟩ := (hall i hi hir).exists_read hop
    obtain ⟨k₀, hprog₀, -⟩ := retry_prog jobId operatorId
    obtain ⟨rfl, -⟩ := Prog.call.inj (hprog₀.symm.trans hprog)
    have hr : r < s.threads.length := (List.getElem?_eq_some_iff.mp hp).1
    have hsaving : s.awaited r = some (.saveJob (requeued row)) :=
      Pool.awaited_eq_some.mpr ⟨f, hp⟩
    cases halone _ hawaited nofun r hr _ hsaving
  | saved row _ hrow hs hcalls hall =>
    obtain hfresh | hdeclined := hall i hi hir
    · obtain ⟨operatorId, -, hprog⟩ := hfresh.exists_read hop
      obtain ⟨k₀, hprog₀, -, hrefused⟩ := retry_prog jobId operatorId
      obtain ⟨rfl, hk⟩ := Prog.call.inj (hprog₀.symm.trans hprog)
      obtain rfl := eq_of_heq hk
      have hh := handle_findJob (hok _ hawaited)
      have hread : s.world.jobs.lookup jobId = some row := by
        rw [hu]
        exact hrow
      rw [hh] at hworld
      refine ⟨.saved row p hrow hs hcalls fun j hj hne => ?_, ?_⟩
      · by_cases hji : j = i
        · subst hji
          refine .inr ⟨?_, _, by rw [hpast, hfresh.past]; rfl, rfl,
            (handle_eq_ok hh).2.resolve_left Bool.false_ne_true⟩
          rw [hself, hh, hread, hrefused row (by simp [hs])]
        · exact (hall j hj hne).imp (·.congr (hothers j hji)) (·.congr (hothers j hji))
      · rw [hworld, hu]
        rfl
    · cases hdeclined.prog.symm.trans hop

end Step

theorem Race.step {w : World} {job : JobEntity} (hjob : w.jobs.lookup job.id = some job)
    (hs : job.status = .FAILED) (hlt : job.attemptCount < job.maxAttempts)
    {operators : List String} {s s' : State} {m : Label}
    (hlen : s.threads.length = operators.length) (h : Race w job.id operators s)
    (hm : ReadsAlone s m) (hstep : step s m = some s') :
    s'.threads.length = operators.length ∧ Race w job.id operators s' := by
  obtain ⟨⟨hanswer, hok⟩, halone⟩ := hm
  cases m with
  | start | deliver | redeliver | stop | expire => exact hanswer.elim
  | step i e =>
    rw [step_step] at hstep
    obtain ⟨op, k, hop, hworld, hself, -, hpast, hlength, hothers⟩ := Pool.advance_threads hstep.2
    have hi : i < operators.length := hlen ▸ (List.getElem?_eq_some_iff.mp hop).1
    refine ⟨hlength.trans hlen, ?_⟩
    cases h with
    | unread hw hall => exact .read hjob hs hlt hw hall hi hstep.2 hok
    | led r operatorId p u hr hp hreplay hu hens hlead =>
      by_cases hir : i = r
      · subst hir
        obtain rfl := Option.some.inj (hp.symm.trans hop)
        have hok : (handle e op s.world).1.isOk = true := hok op (Pool.awaited_eq_some.mpr ⟨k, hop⟩)
        rw [hu.handle_eq] at hok hworld hself
        refine .led i operatorId _ _ hr hself ?_ (by rw [hworld]; rfl) ?_ (hlead.go hok hothers)
        · have hchoices : s'.choices i = s.choices i ++ [e] := by
            rw [Pool.choices, hpast, List.map_append]
            rfl
          rw [hchoices, Prog.replay_concat hreplay]
        · cases hh : handle e op u with
          | mk reply w' =>
            rw [hh] at hok
            cases reply with
            | ok reply => exact hens e reply w' hh
            | error err => cases hok
      · obtain ⟨hlead', hu'⟩ := hlead.decline hp hu hir hi hstep.2 hok halone
        obtain ⟨hthread, hpast'⟩ := hothers r (Ne.symm hir)
        refine .led r operatorId p u hr (hthread.trans hp) ?_ hu' hens hlead'
        rw [Pool.choices, hpast']
        exact hreplay

/-! ## The order -/

section Order

variable {w : World} {jobId : Uuid} {operators : List String} {s : State}

/-- Alone, over a queued job, a declined call is refused too. -/
theorem Declined.run {i : ℕ} (h : Declined jobId s i) {v : World} {row : JobEntity}
    (hrow : v.jobs.lookup jobId = some row) (hs : row.status = .QUEUED) (operatorId : String)
    (e₀ : Env) :
    ∃ v', (Call.retry jobId operatorId).prog.run handle (s.script e₀ i) 0 v =
      (.error (.badRequest "Only failed jobs can be retried"), v') ∧ SameButClock v v' := by
  obtain ⟨x, hpast, -, ho⟩ := h.past
  obtain ⟨k, hprog, -, hrefused⟩ := retry_prog jobId operatorId
  have hscript : s.script e₀ i 0 = x.env := Pool.script_eq (by rw [Pool.choices, hpast]; rfl)
  have hh : handle x.env (.findJob jobId) v = (.ok (some row), { v with clock := x.env.now }) := by
    rw [← hrow]
    exact handle_of_perform rfl (.inr ho)
  refine ⟨{ v with clock := x.env.now }, ?_, rfl⟩
  rw [hprog, Prog.run, hscript, hh, hrefused row (by simp [hs])]
  rfl

/-- Run after the job is queued, the other calls are all refused and write nothing. -/
theorem inOrder_declined {u : World} {row : JobEntity} (hrow : u.jobs.lookup jobId = some row)
    (hs : row.status = .QUEUED) {others : List ℕ}
    (hothers : ∀ i ∈ others, i < operators.length ∧ Declined jobId s i) :
    (s.inOrder (retries jobId operators) others u).1.map some = others.map s.outcome ∧
      SameButClock u (s.inOrder (retries jobId operators) others u).2 := by
  induction others generalizing u with
  | nil => exact ⟨rfl, rfl⟩
  | cons i others ih =>
    obtain ⟨⟨hi, hdeclined⟩, hrest⟩ := List.forall_mem_cons.mp hothers
    obtain ⟨v, hrun, hv⟩ := hdeclined.run hrow hs operators[i] ⟨0, 0, .resolves⟩
    have hcall : (retries jobId operators)[i]? = some (.retry jobId operators[i]) := by
      simp [retries, hi]
    have hout : s.outcome i =
        some (.error (.badRequest "Only failed jobs can be retried")) := by
      rw [Pool.outcome, hdeclined.prog]
    obtain ⟨hresults, hworld⟩ := ih (u := v) (by rw [hv]; exact hrow) hrest
    rw [State.inOrder_cons hcall hrun]
    refine ⟨?_, ?_⟩
    · rw [List.map_cons, List.map_cons, hresults, hout]
    · rw [SameButClock, hworld, hv]

end Order

/-- A job that has failed once and may be retried. -/
def failedOnce : JobEntity :=
  { newJob ⟨"ingest", "batch", [("shouldFail", .bool true)], 1, 3, "alice"⟩ with
    status := .FAILED
    attemptCount := 1
    lastError := some "Processing failed on attempt 1"
    startedAt := some 1
    completedAt := some 2
    id := 1
    createdAt := 0
    updatedAt := 2 }

/-- A world with a failed job and an empty queue. -/
def failedWorld : World :=
  { World.empty with jobs := ⟨[failedOnce], List.nodup_singleton _⟩, clock := 2 }

/-- Two operators retry at once : both read before either saves, both are accepted. -/
theorem not_linearizable : ¬∀ (w : World) (job : JobEntity), w.jobs.lookup job.id = some job →
    job.status = .FAILED → job.attemptCount < job.maxAttempts →
    ∀ (operators : List String) (s : State),
      Reachable step Racing (State.running w (retries job.id operators)) s → s.Finished →
        ∃ order, Linearized w job.id operators s order := by
  intro hall
  obtain ⟨s, hs, hfin, htwo⟩ :
      ∃ s, Reachable step Racing (State.running failedWorld (retries 1 ["alice", "bob"])) s ∧
        s.Finished ∧ s.world.ready.length = 2 :=
    exists_reachable_of_execute _ (calls 0 1 3 ++ calls 1 8 4 ++ calls 0 7 20) _ (by decide)
  obtain ⟨order, hperm, -, -, -, -, haccepted⟩ :=
    hall failedWorld failedOnce rfl rfl (by decide) ["alice", "bob"] s hs hfin
  cases order with
  | nil => cases hperm.length_eq
  | cons i rest => cases htwo.symm.trans (haccepted i rest rfl).2.1

/-- As long as no call reads the job while another that has read it has yet to save it, retries
of a failed job end as if run one after the other. -/
theorem linearizable {w : World} {job : JobEntity} (hjob : w.jobs.lookup job.id = some job)
    (hs : job.status = .FAILED) (hlt : job.attemptCount < job.maxAttempts)
    {operators : List String} {s : State}
    (h : Reachable step ReadsAlone (State.running w (retries job.id operators)) s)
    (hfin : s.Finished) : ∃ order, Linearized w job.id operators s order := by
  obtain ⟨hlen, hrace⟩ := Reachable.invariant
    (I := fun s => s.threads.length = operators.length ∧ Race w job.id operators s)
    (fun s m s' hI hm hstep => hI.2.step hjob hs hlt hI.1 hm hstep)
    ⟨by simp [State.running, retries], .start⟩ h
  have hbegun : ∀ i < operators.length, ¬Unbegun job.id operators s i := by
    intro i hi hun
    have hended := hfin i (hlen ▸ hi)
    obtain ⟨k, hprog, -⟩ := retry_prog job.id operators[i]
    rw [Pool.outcome, hun.prog, List.getElem?_eq_getElem hi, Option.map_some, hprog] at hended
    cases hended
  cases hrace with
  | unread hw hall =>
    have hnil : operators = [] := by
      rw [← List.length_eq_zero_iff]
      by_contra hne
      exact hbegun 0 (Nat.pos_of_ne_zero hne) (hall 0 (Nat.pos_of_ne_zero hne))
    subst hnil
    refine ⟨[], .refl _, rfl, ?_, ?_, ?_, nofun⟩ <;>
    · rw [hw]
      rfl
  | led r operatorId p u hr hp hreplay hu hens hlead =>
    have hrlt : r < operators.length := (List.getElem?_eq_some_iff.mp hr).1
    have hended := hfin r (hlen ▸ hrlt)
    rw [Pool.outcome, hp] at hended
    cases p with
    | call op k => cases hended
    | throw err =>
      obtain ⟨⟨row, hrow⟩, -, -⟩ := hens
      cases hrow
    | ret a =>
      obtain ⟨⟨row, hrow⟩, hmessages, hactions⟩ := hens
      cases hrow
      cases hlead with
      | saved stored _ hstored hqueued _ hall =>
        have hothers : ∀ i ∈ (List.range operators.length).erase r,
            i < operators.length ∧ Declined job.id s i := fun i hi => by
          rw [List.nodup_range.mem_erase_iff, List.mem_range] at hi
          exact ⟨hi.2, (hall i hi.2 hi.1).resolve_left (hbegun i hi.2)⟩
        have hrun : (Call.retry job.id operatorId).prog.run handle
            (s.script ⟨0, 0, .resolves⟩ r) 0 w = (.ok (.job row), u) :=
          Prog.run_of_replay (r := .ok (Result.job row)) hreplay fun i e hi => by
            rw [Nat.zero_add]
            exact Pool.script_eq hi
        have hcall : (retries job.id operators)[r]? = some (.retry job.id operatorId) := by
          simp [retries, hr]
        have hout : s.outcome r = some (.ok (.job row)) := by
          rw [Pool.outcome, hp]
        obtain ⟨hresults, hworld⟩ := inOrder_declined hstored hqueued hothers
        refine ⟨r :: (List.range operators.length).erase r,
          (List.perm_cons_erase (List.mem_range.mpr hrlt)).symm, ?_, ?_, ?_, ?_, ?_⟩
        · rw [State.inOrder_cons hcall hrun, List.map_cons, List.map_cons, hresults, hout]
        · rw [State.inOrder_cons hcall hrun, hworld, hu]
        · rw [State.inOrder_cons hcall hrun, hworld, hu]
        · rw [State.inOrder_cons hcall hrun, hworld, hu]
        · rintro i rest hcons
          cases hcons
          refine ⟨⟨row, hout⟩, by rw [hu]; exact hmessages, by rw [hu]; exact hactions,
            fun k hk => ⟨?_, fun x hx => ?_⟩⟩
          · rw [Pool.outcome, (hothers k hk).2.prog]
          · obtain ⟨y, hy, hop, -⟩ := (hothers k hk).2.past
            rw [hy, List.mem_singleton] at hx
            rw [hx, hop]

/-- The second operator reads after the first has saved. -/
theorem linearizable_two : ∃ s,
    Reachable step ReadsAlone (State.running failedWorld (retries 1 ["alice", "bob"])) s ∧
      s.Finished ∧ ∃ order, Linearized failedWorld 1 ["alice", "bob"] s order := by
  obtain ⟨s, hs, hfin⟩ :
      ∃ s, Reachable step ReadsAlone (State.running failedWorld (retries 1 ["alice", "bob"])) s ∧
        s.Finished :=
    exists_reachable_of_execute _ (calls 0 2 3 ++ calls 1 1 6 ++ calls 0 6 10) _ (by decide)
  exact ⟨s, hs, hfin, linearizable
    (show failedWorld.jobs.lookup failedOnce.id = some failedOnce from rfl) rfl (by decide) hs hfin⟩

end RealtimeOps
