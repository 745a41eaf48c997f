import RealtimeOps.IncidentMachine

/-!
# Racing commands on one incident

Any number of `acknowledge` and `resolve` calls on one incident, and nothing else. Each checks
the status it has read and saves the whole entity some calls later, with no lock and no version
in between. So a call that has read the incident unresolved can save it after another call has
resolved it, and a resolved incident is acknowledged again (`not_resolved_stays`).

As long as no resolution is saved between a call's read of the incident and its own save
(`SavesInTurn`), the resolution is final and there is one of them (`resolved_stays`). A call goes on
only if the incident it has read is unresolved, so it is still unresolved when the call saves it
(`Unresolved`). `Course` is the invariant : the incident is unresolved and nobody has resolved it,
or it was resolved at the start and nobody has saved it, or one call has resolved it, and nobody has
saved it since.
-/

set_option autoImplicit false

namespace RealtimeOps

open Interleaving

namespace Operations

/-- The orders on an incident, each as a thread, none answered yet. -/
def given (w : World) (incidentId : Uuid) (orders : List Order) : Operations :=
  running w (orders.map (Order.on incidentId))

/-- Thread `i` runs an order with this target. -/
def Orders (orders : List Order) (t : IncidentStatus) (i : ℕ) : Prop :=
  orders[i]?.map Order.target = some t

instance (orders : List Order) (t : IncidentStatus) (i : ℕ) : Decidable (Orders orders t i) :=
  inferInstanceAs (Decidable (_ = _))

/-- No resolution has been saved since the first call of thread `i`, which reads the incident. -/
def Undisturbed (orders : List Order) (s : Operations) (i : ℕ) : Prop :=
  ∀ x ∈ s.pool.since i, x.op.savesIncident ≠ none → ¬Orders orders .RESOLVED x.thread

instance (orders : List Order) (s : Operations) : DecidablePred (Undisturbed orders s) := fun _ =>
  inferInstanceAs (Decidable (∀ _ ∈ _, _))

/-- A call is answered and resolves; if it saves the incident, no resolution has been saved since
its thread has read it. -/
def SavesInTurn (orders : List Order) (s : Operations) (l : Label) : Prop :=
  s.Resolving l ∧
    s.Answers (fun i _ op => op.savesIncident ≠ none → Undisturbed orders s i) l

instance (orders : List Order) (s : Operations) : DecidablePred (SavesInTurn orders s) := fun _ =>
  inferInstanceAs (Decidable (_ ∧ _))

/-- The call of thread `i` was accepted. -/
def Accepted (s : Operations) (i : ℕ) : Prop :=
  ∃ response, s.pool.outcome i = some (.ok response)

end Operations

open Operations

/-! ## Steps -/

/-- The threads are in the phases `φ` of their orders. -/
structure InPhases (incidentId : Uuid) (orders : List Order) (s : Operations)
    (φ : List IncidentPhase) : Prop where
  tracks : (incidentMachine incidentId).Tracks handle s.pool φ
  targets : φ.map (·.target) = orders.map Order.target
  /-- No call was rejected. -/
  kept : ∀ (i : ℕ) (q : IncidentPhase), φ[i]? = some q → q.stage ≠ .lost

/-- The answer of a call of thread `i`. -/
structure Answered (incidentId : Uuid) (s s' : Operations) (i : ℕ) (op : Op)
    (q q' : IncidentPhase) : Prop where
  awaited : s.pool.awaited i = some op
  move : IncidentMove incidentId s.pool.world s'.pool.world op q q'
  log : ∃ e r, s'.pool.log = s.pool.log ++ [⟨i, e, op, r⟩]

/-- At the start every call has yet to begin. -/
theorem stage_eq_begun {orders : List Order} {i : ℕ} {q : IncidentPhase}
    (hq : (orders.map fun order => (⟨order.target, .begun⟩ : IncidentPhase))[i]? = some q) :
    q.stage = .begun := by
  rw [List.getElem?_map, Option.map_eq_some_iff] at hq
  obtain ⟨order, -, rfl⟩ := hq
  rfl

theorem map_target_set {φ : List IncidentPhase} {i : ℕ} {q q' : IncidentPhase}
    (hq : φ[i]? = some q) (h : q'.target = q.target) :
    (φ.set i q').map (·.target) = φ.map (·.target) := by
  obtain ⟨hi, rfl⟩ := List.getElem?_eq_some_iff.mp hq
  conv_rhs => rw [← List.set_getElem_self hi, List.map_set]
  rw [List.map_set, h]

namespace InPhases

variable {incidentId : Uuid} {orders : List Order} {s s' : Operations} {φ : List IncidentPhase}

theorem start (w : World) (incidentId : Uuid) (orders : List Order) :
    InPhases incidentId orders (Operations.given w incidentId orders)
      (orders.map fun order => ⟨order.target, .begun⟩) := by
  refine ⟨.init ?_, by simp [Function.comp_def], ?_⟩
  · induction orders with
    | nil => exact .nil
    | cons order orders ih => exact .cons (sim_order order) ih
  · simp only [List.getElem?_map, Option.map_eq_some_iff]
    rintro i q ⟨order, -, rfl⟩
    simp

/-- A step that resolves is the answer of one call. -/
theorem step (h : InPhases incidentId orders s φ) {l : Operations.Label} (hl : s.Resolving l)
    (hs : s.step l = some s') :
    ∃ i op q q', φ[i]? = some q ∧ Answered incidentId s s' i op q q' ∧
      InPhases incidentId orders s' (φ.set i q') ∧
      ∀ p, s.Answers p l → ∃ e, p i e op := by
  cases l with
  | start | deliver | redeliver | stop | expire => exact hl.elim
  | step i e =>
    obtain ⟨-, pool, hadv, rfl⟩ := Operations.step_step.mp hs
    obtain ⟨op, q, q', hop, hq, ⟨-, ⟨herr, -⟩ | ⟨-, hmove⟩⟩, htracks, hlog⟩ :=
      h.tracks.advance hadv
    · cases herr.symm.trans (hl op hop)
    · exact ⟨i, op, q, q', hq, ⟨hop, hmove, e, _, hlog⟩,
        ⟨htracks, (map_target_set hq hmove.cases_saves.1).trans h.targets,
          forall_getElem?_set h.kept (hmove.kept (h.kept i q hq))⟩, fun p hp => ⟨e, hp op hop⟩⟩

theorem target_eq (h : InPhases incidentId orders s φ) {i : ℕ} {q : IncidentPhase}
    (hq : φ[i]? = some q) : Orders orders q.target i := by
  unfold Orders
  rw [← List.getElem?_map, ← h.targets, List.getElem?_map, hq]
  rfl

theorem exists_phase (h : InPhases incidentId orders s φ) {i : ℕ} {t : IncidentStatus}
    (ht : Orders orders t i) : ∃ q : IncidentPhase, φ[i]? = some q ∧ q.target = t := by
  rw [Orders, ← List.getElem?_map, ← h.targets, List.getElem?_map] at ht
  exact Option.map_eq_some_iff.mp ht

theorem exists_of_accepted (h : InPhases incidentId orders s φ) {i : ℕ} (hi : s.Accepted i) :
    ∃ q : IncidentPhase, φ[i]? = some q := by
  obtain ⟨response, hr⟩ := hi
  refine ⟨_, List.getElem?_eq_getElem (h.tracks.length ▸ ?_)⟩
  by_contra hlt
  rw [Pool.outcome, List.getElem?_eq_none_iff.mpr (Nat.not_lt.mp hlt)] at hr
  cases hr

/-- A call that was accepted is done. -/
theorem done_of_accepted (h : InPhases incidentId orders s φ) {i : ℕ} {q : IncidentPhase}
    (hq : φ[i]? = some q) (hi : s.Accepted i) : q.stage = .done := by
  obtain ⟨response, hr⟩ := hi
  have hends : q.Ends (.ok response : Except Failure Response) := h.tracks.ends hq hr
  unfold IncidentPhase.Ends at hends
  cases hstage : q.stage <;> simp_all [Except.isOk, Except.toBool]

/-- A call that has ended was accepted or refused. -/
theorem done_or_refused (h : InPhases incidentId orders s φ) (hfinished : s.pool.Finished) {i : ℕ}
    {q : IncidentPhase} (hq : φ[i]? = some q) :
    q.stage = .done ∧ s.Accepted i ∨ q.stage = .refused := by
  have hi : i < s.pool.threads.length := h.tracks.length ▸ (List.getElem?_eq_some_iff.mp hq).1
  obtain ⟨r, hr⟩ := Option.isSome_iff_exists.mp (hfinished i hi)
  have hends : q.Ends r := h.tracks.ends hq hr
  have hkept := h.kept i q hq
  unfold IncidentPhase.Ends at hends
  cases hstage : q.stage <;> rw [hstage] at hends hkept
  case done =>
    cases r with
    | ok response => exact .inl ⟨rfl, response, hr⟩
    | error err => cases hends
  case refused => exact .inr rfl
  case lost => exact absurd rfl hkept
  all_goals exact hends.elim

/-- A call that throws has ended. -/
theorem ended (h : InPhases incidentId orders s φ) {i : ℕ} {q : IncidentPhase}
    (hq : φ[i]? = some q) (hover : q.stage.over = true) : (s.pool.outcome i).isSome = true := by
  have hi : i < s.pool.threads.length := h.tracks.length ▸ (List.getElem?_eq_some_iff.mp hq).1
  have hp := List.getElem?_eq_getElem hi
  rw [Pool.outcome, hp]
  have hsim := h.tracks.sim i _ q hp hq
  cases hprog : s.pool.threads[i] with
  | ret response => rfl
  | throw err => rfl
  | call op k =>
    rw [hprog] at hsim
    obtain ⟨q', ⟨hnot, -⟩, -⟩ := hsim ⟨0, 0, .resolves⟩ .empty
    cases hnot.symm.trans hover

end InPhases

/-! ## What a call has read -/

/-- A call that has begun goes on with an incident that was unresolved, and is as long as no
resolution is saved. -/
def IncidentStage.Sees (incidentId : Uuid) (orders : List Order) (s : Operations) (i : ℕ) :
    IncidentStage → Prop
  | .begun => s.pool.since i = []
  | .holding _ => s.pool.since i ≠ [] ∧ (Undisturbed orders s i →
      ∀ stored ∈ s.pool.world.incidents.lookup incidentId, stored.status ≠ .RESOLVED)
  | _ => True

/-- So do all calls. -/
def AllSee (incidentId : Uuid) (orders : List Order) (s : Operations) (φ : List IncidentPhase) :
    Prop :=
  ∀ (i : ℕ) (q : IncidentPhase), φ[i]? = some q → q.stage.Sees incidentId orders s i

section Reads

variable {incidentId : Uuid} {orders : List Order} {s s' : Operations} {φ : List IncidentPhase}
  {i : ℕ} {op : Op} {q q' : IncidentPhase}

/-- The caller goes on only with an unresolved incident. -/
theorem Sees.own (h : q.stage.Sees incidentId orders s i)
    (hanswered : Answered incidentId s s' i op q q') : q'.stage.Sees incidentId orders s' i := by
  obtain ⟨-, hmove, e, r, hlog⟩ := hanswered
  cases hmove with
  | aside hop hq hincidents halerts =>
    cases hstage : q.stage with
    | begun =>
      rw [hstage] at hq
      cases hq
    | holding incident =>
      rw [hstage] at h
      have hsince := Pool.since_append hlog h.1
      refine ⟨by simp [hsince], fun hundisturbed => ?_⟩
      rw [hincidents]
      refine h.2 fun x hx => hundisturbed x ?_
      rw [hsince]
      exact List.mem_append_left _ hx
    | saved | done | refused | lost => trivial
  | @read t incident hrow hs hincidents halerts =>
    have hsince := Pool.since_append_of_eq_nil hlog h
    rw [if_pos rfl] at hsince
    refine ⟨by simp [hsince], fun _ => ?_⟩
    rw [hincidents, hrow]
    rintro stored ⟨⟩
    exact hs
  | refused | saved | updated | unlinked => trivial

/-- Another call does not resolve the incident unseen. -/
theorem Sees.other {p : IncidentPhase} {j : ℕ} (hphases : InPhases incidentId orders s φ)
    (hq : φ[i]? = some q) (hanswered : Answered incidentId s s' i op q q') (hj : i ≠ j)
    (h : p.stage.Sees incidentId orders s j) : p.stage.Sees incidentId orders s' j := by
  obtain ⟨-, hmove, e, r, hlog⟩ := hanswered
  cases hstage : p.stage with
  | begun =>
    rw [hstage] at h
    exact (Pool.since_append_of_eq_nil hlog h).trans (if_neg hj)
  | holding incident =>
    rw [hstage] at h
    have hsince := Pool.since_append hlog h.1
    refine ⟨by simp [hsince], fun hundisturbed => ?_⟩
    rw [Undisturbed, hsince, List.forall_mem_append, List.forall_mem_singleton] at hundisturbed
    obtain ⟨-, ⟨-, hincidents, -⟩ | ⟨row, now, rfl, hid, hs, hincidents, -⟩⟩ := hmove.cases_saves
    · rw [hincidents]
      exact h.2 hundisturbed.1
    · have htarget : q.target ≠ .RESOLVED := fun ht =>
        hundisturbed.2 (by simp [Op.savesIncident]) (ht ▸ hphases.target_eq hq)
      have hrow := Table.lookup_save_self s.pool.world.incidents { row with updatedAt := now }
      rw [hincidents, ← hid, hrow]
      rintro stored ⟨⟩
      exact hs ▸ htarget
  | saved | done | refused | lost => trivial

theorem AllSee.step (h : AllSee incidentId orders s φ) (hphases : InPhases incidentId orders s φ)
    (hq : φ[i]? = some q) (hanswered : Answered incidentId s s' i op q q') :
    AllSee incidentId orders s' (φ.set i q') := by
  intro j p hp
  by_cases hj : i = j
  · subst hj
    rw [List.getElem?_set_self (List.getElem?_eq_some_iff.mp hq).1] at hp
    cases hp
    exact Sees.own (h i q hq) hanswered
  · rw [List.getElem?_set_ne hj] at hp
    exact Sees.other hphases hq hanswered hj (h j p hp)

/-- A call that saves in turn saves an unresolved incident. -/
theorem AllSee.unresolved (h : AllSee incidentId orders s φ) (hq : φ[i]? = some q)
    (hanswered : Answered incidentId s s' i op q q')
    (hundisturbed : op.savesIncident ≠ none → Undisturbed orders s i) :
    ∀ row ∈ op.savesIncident,
      ∀ stored ∈ s.pool.world.incidents.lookup row.id, stored.status ≠ .RESOLVED := by
  intro row hrow
  obtain ⟨-, hmove, -⟩ := hanswered
  cases hmove with
  | saved hid hs hlink hincidents halerts =>
    cases hrow
    rw [hid]
    exact (h i _ hq).2 (hundisturbed (by simp [Op.savesIncident]))
  | read | refused | updated => cases hrow
  | aside hop | unlinked hop =>
    rw [Op.savesIncident_of_aside hop] at hrow
    cases hrow

end Reads

/-! ## The course of the incident -/

/-- What has become of an incident that was `row₀` at the start. -/
inductive Course (incidentId : Uuid) (row₀ : IncidentEntity) (s : Operations)
    (φ : List IncidentPhase) : Prop where
  /-- Nobody has resolved it. -/
  | unresolved {row : IncidentEntity}
    (hrow : s.pool.world.incidents.lookup incidentId = some row) (hs : row.status ≠ .RESOLVED)
    (h₀ : row₀.status ≠ .RESOLVED)
    (hphases : ∀ (i : ℕ) (q : IncidentPhase), φ[i]? = some q →
      q.stage ≠ .refused ∧ (q.stage.hasSaved = true → q.target ≠ .RESOLVED))
  /-- It was resolved at the start, and nobody has saved it. -/
  | closed (hrow : s.pool.world.incidents.lookup incidentId = some row₀)
    (h₀ : row₀.status = .RESOLVED)
    (hphases : ∀ (i : ℕ) (q : IncidentPhase), φ[i]? = some q → q.stage.hasSaved = false)
  /-- Call `r` has resolved it, and nobody has saved it since. -/
  | resolved {row : IncidentEntity} (r : ℕ)
    (hrow : s.pool.world.incidents.lookup incidentId = some row) (hs : row.status = .RESOLVED)
    (h₀ : row₀.status ≠ .RESOLVED)
    (hr : ∃ q : IncidentPhase, φ[r]? = some q ∧ q.target = .RESOLVED ∧ q.stage.hasSaved = true)
    (hphases : ∀ (i : ℕ) (q : IncidentPhase), φ[i]? = some q → i ≠ r →
      q.stage.hasSaved = true → q.target ≠ .RESOLVED)
    (hlog : ∃ pre x post, s.pool.log = pre ++ x :: post ∧ x.thread = r ∧
      x.op.savesIncident ≠ none ∧ ∀ y ∈ post, y.op.savesIncident = none)

/-- A call that has saved the incident has its entry in the log. -/
def SavesLogged (s : Operations) (φ : List IncidentPhase) : Prop :=
  ∀ (i : ℕ) (q : IncidentPhase), φ[i]? = some q → q.stage.hasSaved = true →
    ∃ x ∈ s.pool.log, x.thread = i ∧ x.op.savesIncident ≠ none

section Step

variable {incidentId : Uuid} {row₀ : IncidentEntity} {s s' : Operations} {φ : List IncidentPhase}
  {i : ℕ} {op : Op} {q q' : IncidentPhase}

theorem SavesLogged.step (h : SavesLogged s φ) (hq : φ[i]? = some q)
    (hanswered : Answered incidentId s s' i op q q') : SavesLogged s' (φ.set i q') := by
  obtain ⟨-, hmove, e, r, hlog⟩ := hanswered
  rw [SavesLogged, hlog]
  refine forall_getElem?_set (fun j p hp hsaved => ?_) fun hsaved => ?_
  · obtain ⟨x, hx, hthread, hsaves⟩ := h j p hp hsaved
    exact ⟨x, List.mem_append_left _ hx, hthread, hsaves⟩
  · obtain ⟨-, ⟨-, -, hsame, -⟩ | ⟨row, now, rfl, -⟩⟩ := hmove.cases_saves
    · obtain ⟨x, hx, hthread, hsaves⟩ := h i q hq (hsame ▸ hsaved)
      exact ⟨x, List.mem_append_left _ hx, hthread, hsaves⟩
    · exact ⟨_, List.mem_append_right _ (List.mem_singleton_self _), rfl,
        by simp [Op.savesIncident]⟩

/-- A call that saves no incident leaves the course. -/
theorem Course.aside (h : Course incidentId row₀ s φ) (hq : φ[i]? = some q)
    (hlog : ∃ e r, s'.pool.log = s.pool.log ++ [⟨i, e, op, r⟩]) (hop : op.savesIncident = none)
    (hincidents : s'.pool.world.incidents = s.pool.world.incidents)
    (htarget : q'.target = q.target) (hsaved : q'.stage.hasSaved = q.stage.hasSaved)
    (hrefused : q'.stage = .refused → q.stage = .refused ∨
      ∀ incident ∈ s.pool.world.incidents.lookup incidentId, incident.status = .RESOLVED) :
    Course incidentId row₀ s' (φ.set i q') := by
  cases h with
  | unresolved hrow hs h₀ hphases =>
    refine .unresolved (hincidents ▸ hrow) hs h₀ (forall_getElem?_set hphases ⟨fun hr => ?_, ?_⟩)
    · obtain hr | hall := hrefused hr
      · exact (hphases i q hq).1 hr
      · exact hs (hall _ hrow)
    · rw [hsaved, htarget]
      exact (hphases i q hq).2
  | closed hrow h₀ hphases =>
    exact .closed (hincidents ▸ hrow) h₀
      (forall_getElem?_set hphases (hsaved.trans (hphases i q hq)))
  | resolved r hrow hs h₀ hr hphases hlog' =>
    refine .resolved r (hincidents ▸ hrow) hs h₀ ?_ (forall_getElem?_set hphases ?_) ?_
    · obtain ⟨p, hp, ht, hp'⟩ := hr
      by_cases hir : i = r
      · subst hir
        cases hq.symm.trans hp
        have hi := (List.getElem?_eq_some_iff.mp hq).1
        exact ⟨q', List.getElem?_set_self hi, htarget.trans ht, hsaved.trans hp'⟩
      · exact ⟨p, (List.getElem?_set_ne hir).trans hp, ht, hp'⟩
    · rw [hsaved, htarget]
      exact hphases i q hq
    · obtain ⟨e, reply, hlog⟩ := hlog
      obtain ⟨pre, x, post, hsplit, hx, hsaves, hpost⟩ := hlog'
      refine ⟨pre, x, post ++ [⟨i, e, op, reply⟩], ?_, hx, hsaves, ?_⟩
      · rw [hlog, hsplit, List.append_assoc, List.cons_append]
      · intro y hy
        rcases List.mem_append.mp hy with hy | hy
        · exact hpost y hy
        · rw [List.mem_singleton.mp hy]
          exact hop

/-- A call saves the incident, which is stored unresolved. -/
theorem Course.save (h : Course incidentId row₀ s φ) (hq : φ[i]? = some q)
    {row : IncidentEntity} {now : Date}
    (hlog : ∃ e r, s'.pool.log = s.pool.log ++ [⟨i, e, .saveIncident row, r⟩])
    (hid : row.id = incidentId) (hs : row.status = q.target) (htarget : q'.target = q.target)
    (hincidents : s'.pool.world.incidents =
      s.pool.world.incidents.save { row with updatedAt := now })
    (hsaved : q'.stage.hasSaved = true) (hrefused : q'.stage ≠ .refused)
    (hstored : ∀ stored ∈ s.pool.world.incidents.lookup incidentId, stored.status ≠ .RESOLVED) :
    Course incidentId row₀ s' (φ.set i q') := by
  have hrow' : s'.pool.world.incidents.lookup incidentId = some { row with updatedAt := now } := by
    rw [hincidents, ← hid]
    exact Table.lookup_save_self s.pool.world.incidents { row with updatedAt := now }
  cases h with
  | unresolved hrow hunresolved h₀ hphases =>
    by_cases ht : q.target = .RESOLVED
    · have hi := (List.getElem?_eq_some_iff.mp hq).1
      obtain ⟨e, reply, hlog⟩ := hlog
      refine .resolved i hrow' (hs.trans ht) h₀
        ⟨q', List.getElem?_set_self hi, htarget.trans ht, hsaved⟩ ?_
        ⟨s.pool.log, _, [], hlog, rfl, by simp [Op.savesIncident], by simp⟩
      exact forall_getElem?_set (fun j p hp _ => (hphases j p hp).2) fun hne => absurd rfl hne
    · refine .unresolved hrow' (hs ▸ ht) h₀ (forall_getElem?_set hphases ⟨hrefused, fun _ => ?_⟩)
      rw [htarget]
      exact ht
  | closed hrow h₀ hphases => exact absurd h₀ (hstored _ hrow)
  | resolved r hrow hresolved h₀ hr hphases hlog => exact absurd hresolved (hstored _ hrow)

theorem Course.step (h : Course incidentId row₀ s φ) (hq : φ[i]? = some q)
    (hanswered : Answered incidentId s s' i op q q')
    (hstored : ∀ row ∈ op.savesIncident,
      ∀ stored ∈ s.pool.world.incidents.lookup row.id, stored.status ≠ .RESOLVED) :
    Course incidentId row₀ s' (φ.set i q') := by
  obtain ⟨-, hmove, hlog⟩ := hanswered
  obtain ⟨htarget, ⟨hop, hincidents, hsaved, hrefused⟩ |
    ⟨row, now, rfl, hid, hs, hincidents, -, hsaved⟩⟩ := hmove.cases_saves
  · exact h.aside hq hlog hop hincidents htarget hsaved hrefused
  · refine h.save hq hlog hid hs htarget hincidents hsaved ?_ (hid ▸ hstored row rfl)
    intro hr
    rw [hr] at hsaved
    cases hsaved

end Step

/-! ## The resolution -/

/-- Thread `i` saved the incident before thread `j` did. -/
def SavedBefore (s : Operations) (i j : ℕ) : Prop :=
  ∃ x y, x.thread = i ∧ x.op.savesIncident ≠ none ∧ y.thread = j ∧ y.op.savesIncident ≠ none ∧
    [x, y].Sublist s.pool.log

/-- The calls and the course of the incident. -/
structure Raced (incidentId : Uuid) (row₀ : IncidentEntity) (orders : List Order) (s : Operations)
    (φ : List IncidentPhase) : Prop where
  phases : InPhases incidentId orders s φ
  sees : AllSee incidentId orders s φ
  logged : SavesLogged s φ
  course : Course incidentId row₀ s φ

section Raced

variable {incidentId : Uuid} {row₀ : IncidentEntity} {orders : List Order} {s s' : Operations}
  {φ : List IncidentPhase}

theorem Raced.start {w : World} (hrow : w.incidents.lookup incidentId = some row₀)
    (orders : List Order) : ∃ φ, Raced incidentId row₀ orders (.given w incidentId orders) φ := by
  refine ⟨_, .start w incidentId orders, fun i q hq => ?_, fun i q hq hsaved => ?_, ?_⟩
  · rw [stage_eq_begun hq]
    exact rfl
  · rw [stage_eq_begun hq] at hsaved
    cases hsaved
  · by_cases h₀ : row₀.status = .RESOLVED
    · exact .closed hrow h₀ fun i q hq => by rw [stage_eq_begun hq]; rfl
    · exact .unresolved hrow h₀ h₀ fun i q hq => by simp [stage_eq_begun hq, IncidentStage.hasSaved]

theorem Raced.step (h : Raced incidentId row₀ orders s φ) {l : Operations.Label}
    (hl : SavesInTurn orders s l) (hs : s.step l = some s') :
    ∃ φ', Raced incidentId row₀ orders s' φ' := by
  obtain ⟨i, op, q, q', hq, hanswered, hphases, hanswers⟩ := h.phases.step hl.1 hs
  obtain ⟨e, hundisturbed⟩ := hanswers _ hl.2
  exact ⟨_, hphases, h.sees.step h.phases hq hanswered, h.logged.step hq hanswered,
    h.course.step hq hanswered (h.sees.unresolved hq hanswered hundisturbed)⟩

theorem raced_of_reachable {w : World} (hrow : w.incidents.lookup incidentId = some row₀)
    (hs : Reachable Operations.step (SavesInTurn orders) (.given w incidentId orders) s) :
    ∃ φ, Raced incidentId row₀ orders s φ :=
  Reachable.invariant (I := fun s => ∃ φ, Raced incidentId row₀ orders s φ)
    (fun _ _ _ ⟨_, h⟩ hl hs => h.step hl hs) (Raced.start hrow orders) hs

/-- While the incident is stored resolved, its row does not change. -/
theorem Raced.frozen (h : Raced incidentId row₀ orders s φ) {row : IncidentEntity}
    (hrow : s.pool.world.incidents.lookup incidentId = some row)
    (hresolved : row.status = .RESOLVED)
    (hs : Reachable Operations.step (SavesInTurn orders) s s') :
    s'.pool.world.incidents.lookup incidentId = some row := by
  refine (Reachable.invariant (I := fun s => (∃ φ, Raced incidentId row₀ orders s φ) ∧
    s.pool.world.incidents.lookup incidentId = some row) ?_ ⟨⟨φ, h⟩, hrow⟩ hs).2
  rintro t l t' ⟨⟨ψ, h⟩, hrow⟩ hl hs
  refine ⟨h.step hl hs, ?_⟩
  obtain ⟨i, op, q, q', hq, hanswered, -, hanswers⟩ := h.phases.step hl.1 hs
  obtain ⟨e, hundisturbed⟩ := hanswers _ hl.2
  have hstored := h.sees.unresolved hq hanswered hundisturbed
  obtain ⟨-, ⟨-, hincidents, -⟩ | ⟨row', now, rfl, hid, -⟩⟩ := hanswered.move.cases_saves
  · rw [hincidents]
    exact hrow
  · exact absurd hresolved (hstored row' rfl row (hid ▸ hrow))

/-- Once the calls are over, one resolution was accepted, if there was one to accept. -/
theorem Raced.existsUnique (h : Raced incidentId row₀ orders s φ) (h₀ : row₀.status ≠ .RESOLVED)
    (hfinished : s.pool.Finished) {j : ℕ} (hj : Orders orders .RESOLVED j) :
    ∃! i, Orders orders .RESOLVED i ∧ s.Accepted i := by
  obtain ⟨q, hq, ht⟩ := h.phases.exists_phase hj
  cases h.course with
  | unresolved hrow hs _ hphases =>
    -- The call `j` has not resolved the incident, and has not been refused.
    obtain ⟨hrefused, hsaved⟩ := hphases j q hq
    obtain ⟨hdone, -⟩ | hr := h.phases.done_or_refused hfinished hq
    · exact absurd ht (hsaved (by rw [hdone]; rfl))
    · exact absurd hr hrefused
  | closed hrow hr hphases => exact absurd hr h₀
  | resolved r hrow hs _ hr hphases hlog =>
    obtain ⟨p, hp, hpt, hpsaved⟩ := hr
    refine ⟨r, ⟨hpt ▸ h.phases.target_eq hp, ?_⟩, ?_⟩
    · obtain ⟨-, haccepted⟩ | hrefused := h.phases.done_or_refused hfinished hp
      · exact haccepted
      · rw [hrefused] at hpsaved
        cases hpsaved
    · rintro i ⟨hi, haccepted⟩
      obtain ⟨p', hp', ht'⟩ := h.phases.exists_phase hi
      by_contra hne
      refine hphases i p' hp' hne ?_ ht'
      rw [h.phases.done_of_accepted hp' haccepted]
      rfl

/-- An accepted acknowledgement saved the incident before the accepted resolution. -/
theorem Raced.savedBefore (h : Raced incidentId row₀ orders s φ) {i j : ℕ}
    (hi : Orders orders .ACKNOWLEDGED i) (hai : s.Accepted i) (hj : Orders orders .RESOLVED j)
    (haj : s.Accepted j) : SavedBefore s i j := by
  obtain ⟨p, hp, hpt⟩ := h.phases.exists_phase hi
  obtain ⟨q, hq, hqt⟩ := h.phases.exists_phase hj
  have hpsaved : p.stage.hasSaved = true := by rw [h.phases.done_of_accepted hp hai]; rfl
  have hqsaved : q.stage.hasSaved = true := by rw [h.phases.done_of_accepted hq haj]; rfl
  cases h.course with
  | unresolved hrow hs _ hphases => exact absurd hqt ((hphases j q hq).2 hqsaved)
  | closed hrow hr hphases => exact absurd hqsaved (by simp [hphases j q hq])
  | resolved r hrow hs _ hr hphases hlog =>
    have hjr : j = r := by
      by_contra hne
      exact hphases j q hq hne hqsaved hqt
    subst hjr
    obtain ⟨pre, y, post, hsplit, hy, hysaves, hpost⟩ := hlog
    obtain ⟨x, hx, hxi, hxsaves⟩ := h.logged i p hp hpsaved
    have hij : i ≠ j := by
      rintro rfl
      cases hp.symm.trans hq
      cases hpt.symm.trans hqt
    refine ⟨x, y, hxi, hxsaves, hy, hysaves, ?_⟩
    rw [hsplit] at hx ⊢
    rcases List.mem_append.mp hx with hx | hx
    · exact (List.singleton_sublist.mpr hx).append (List.singleton_sublist.mpr (by simp))
    · rcases List.mem_cons.mp hx with rfl | hx
      · exact absurd (hxi.symm.trans hy) hij
      · exact absurd (hpost x hx) hxsaves

/-- Nobody is accepted if the incident was resolved at the start. -/
theorem Raced.not_accepted (h : Raced incidentId row₀ orders s φ) (h₀ : row₀.status = .RESOLVED)
    (i : ℕ) : ¬s.Accepted i := by
  intro haccepted
  obtain ⟨q, hq⟩ := h.phases.exists_of_accepted haccepted
  cases h.course with
  | unresolved _ _ hunresolved _ => exact hunresolved h₀
  | closed hrow _ hphases =>
    have hsaved := hphases i q hq
    rw [h.phases.done_of_accepted hq haccepted] at hsaved
    cases hsaved
  | resolved r _ _ hunresolved _ _ _ => exact hunresolved h₀

end Raced

/-- Resolved incidents stay resolved. In every run of `acknowledge` and `resolve` calls on one
incident in which no resolution is saved between a call's read and its own save, a resolved row does
not change, one resolution is accepted if the incident was unresolved at the start and there is
one to accept, and every accepted acknowledgement saved the incident before it. -/
theorem resolved_stays {w : World} {incidentId : Uuid} {row₀ : IncidentEntity}
    (hrow : w.incidents.lookup incidentId = some row₀) {orders : List Order} {s : Operations}
    (hs : Reachable Operations.step (SavesInTurn orders) (.given w incidentId orders) s) :
    (∀ s' row, Reachable Operations.step (SavesInTurn orders) s s' →
      s.pool.world.incidents.lookup incidentId = some row → row.status = .RESOLVED →
      s'.pool.world.incidents.lookup incidentId = some row) ∧
    (row₀.status ≠ .RESOLVED → s.pool.Finished → (∃ j, Orders orders .RESOLVED j) →
      ∃! i, Orders orders .RESOLVED i ∧ s.Accepted i) ∧
    (∀ i j, Orders orders .ACKNOWLEDGED i → s.Accepted i → Orders orders .RESOLVED j →
      s.Accepted j → SavedBefore s i j) ∧
    (row₀.status = .RESOLVED → ∀ i, ¬s.Accepted i) := by
  obtain ⟨φ, h⟩ := raced_of_reachable hrow hs
  refine ⟨fun s' row hs' hrow' hr => h.frozen hrow' hr hs', fun h₀ hfinished hj => ?_,
    fun i j hi hai hj haj => h.savedBefore hi hai hj haj, h.not_accepted⟩
  obtain ⟨j, hj⟩ := hj
  exact h.existsUnique h₀ hfinished hj

/-- An open incident and its alert. -/
def escalated : World :=
  { World.empty with
    alerts := Table.empty.save
      { id := 1, jobId := none, source := "probe", severity := .CRITICAL, status := .OPEN,
        title := "disk full", description := "no space left", createdAt := 0, updatedAt := 0 }
    incidents := Table.empty.save
      { id := 2, alertId := some 1, title := "Incident: disk full", summary := "no space left",
        status := .OPEN, createdAt := 0, updatedAt := 0 } }

/-- An acknowledgement reads the incident, a resolution runs to its end, and the
acknowledgement saves what it has read. -/
theorem not_resolved_stays : ¬∀ (w : World) (incidentId : Uuid) (orders : List Order)
    (s s' : Operations) (row : IncidentEntity),
    Reachable Operations.step Operations.Resolving (.given w incidentId orders) s →
      Reachable Operations.step Operations.Resolving s s' →
      s.pool.world.incidents.lookup incidentId = some row → row.status = .RESOLVED →
      ∃ row' ∈ s'.pool.world.incidents.lookup incidentId, row'.status = .RESOLVED ∧
        row'.resolvedBy = row.resolvedBy ∧ row'.resolvedAt = row.resolvedAt := by
  intro h
  obtain ⟨s, hs, ⟨row, hrow, hresolved⟩, hlater⟩ :
      ∃ s, Reachable Operations.step Operations.Resolving
        (.given escalated 2 [.acknowledge "alice", .resolve "bob"]) s ∧
        (∃ row ∈ s.pool.world.incidents.lookup 2, row.status = .RESOLVED) ∧
        ((execute Operations.step Operations.Resolving s (Operations.calls 0 1 20)).any fun s' =>
          decide (∃ row ∈ s'.pool.world.incidents.lookup 2, row.status = .ACKNOWLEDGED)) = true :=
    exists_reachable_of_execute _ (Operations.calls 0 2 1 ++ Operations.calls 1 9 3) _ (by decide)
  obtain ⟨s', hs', row', hrow', hack⟩ := exists_reachable_of_execute s _ _ hlater
  obtain ⟨row'', hrow'', hstays, -⟩ := h _ _ _ _ _ _ hs hs' hrow hresolved
  cases hrow'.symm.trans hrow''
  cases hack.symm.trans hstays

/-- Alice has read the incident before Bob does, and acknowledges it before he resolves it. -/
theorem resolved_stays_acknowledged : ∃ s : Operations,
    (∃! i, Orders [.acknowledge "alice", .resolve "bob"] .RESOLVED i ∧ s.Accepted i) ∧
      SavedBefore s 0 1 := by
  obtain ⟨s, hs, hfinished, haccepted, haccepted'⟩ :
      ∃ s, Reachable Operations.step (SavesInTurn [.acknowledge "alice", .resolve "bob"])
        (.given escalated 2 [.acknowledge "alice", .resolve "bob"]) s ∧ s.pool.Finished ∧
        ((s.pool.outcome 0).any fun r => r.isOk) = true ∧
        ((s.pool.outcome 1).any fun r => r.isOk) = true :=
    exists_reachable_of_execute _
      (Operations.calls 0 2 1 ++ Operations.calls 1 3 3 ++ Operations.calls 0 6 6 ++
        Operations.calls 1 6 12) _ (by decide)
  have haccepted_of : ∀ i, ((s.pool.outcome i).any fun r => r.isOk) = true → s.Accepted i := by
    intro i hi
    obtain ⟨r, hr, hok⟩ := (Option.any_eq_true _ _).mp hi
    cases r with
    | ok response => exact ⟨response, hr⟩
    | error err => cases hok
  obtain ⟨-, hone, hbefore, -⟩ := resolved_stays rfl hs
  exact ⟨s, hone (by decide) hfinished ⟨1, rfl⟩,
    hbefore 0 1 rfl (haccepted_of 0 haccepted) rfl (haccepted_of 1 haccepted')⟩

end RealtimeOps
