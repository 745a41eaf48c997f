import RealtimeOps.IncidentRace

/-!
# The alert of a raced incident

An accepted command saves the incident and then updates its alert. The last call to save need
not be the last to update : the two rows can end with different statuses, and if the incident
ends resolved no later command will repair the alert (`not_alert_follows`).

The incident has the status of the command that saved it last, and the alert that of the command
that updated it last (`Written`). Who saves also updates, so the two agree at the end if and only
if these are the same command (`Aligned`, `alert_follows`).
-/

set_option autoImplicit false

namespace RealtimeOps

open Interleaving Operations

/-- Both acknowledge, or both resolve. -/
def Order.Like : Order → Order → Prop
  | acknowledge _, acknowledge _ | resolve _, resolve _ => True
  | acknowledge _, resolve _ | resolve _, acknowledge _ => False

instance : DecidableRel Order.Like
  | .acknowledge _, .acknowledge _ | .resolve _, .resolve _ => .isTrue trivial
  | .acknowledge _, .resolve _ | .resolve _, .acknowledge _ => .isFalse id

theorem Order.like_iff {order order' : Order} :
    order.Like order' ↔ order.target.value = order'.target.value := by
  cases order <;> cases order' <;> simp [Like, target, IncidentStatus.value]

namespace Operations

/-- The call that saved the incident last. -/
def lastSave (s : Operations) : Option ℕ :=
  s.pool.last fun op : Op => op.savesIncident.isSome

/-- The call that updated the alert last. -/
def lastUpdate (s : Operations) : Option ℕ :=
  s.pool.last fun op : Op => op.updatesAlert.isSome

/-- The call that updated the alert last gives the same command as the one that saved the incident
last. -/
def Aligned (orders : List Order) (s : Operations) : Prop :=
  ∀ i ∈ s.lastSave, ∀ j ∈ s.lastUpdate, ∀ order ∈ orders[i]?, ∀ order' ∈ orders[j]?,
    order.Like order'

instance (orders : List Order) : DecidablePred (Aligned orders) := fun _ =>
  inferInstanceAs (Decidable (∀ _ ∈ _, _))

end Operations

/-- The entity in memory is linked to the alert. -/
def IncidentStage.LinkedTo (alertId : Uuid) : IncidentStage → Prop
  | .holding incident | .saved incident => incident.alertId = some alertId
  | _ => True

/-- A status is that of the last command to write it, or what it was at the start. -/
def Written (φ : List IncidentPhase) (initial status : String) : Option ℕ → Prop
  | none => status = initial
  | some i => ∃ q : IncidentPhase, φ[i]? = some q ∧ q.stage.hasSaved = true ∧
      status = q.target.value

/-- The two rows, with the same status at the start. -/
structure Following (incidentId alertId : Uuid) (initial : String) (s : Operations)
    (φ : List IncidentPhase) : Prop where
  links : ∀ (i : ℕ) (q : IncidentPhase), φ[i]? = some q → q.stage.LinkedTo alertId
  rows : ∃ row alert, s.pool.world.incidents.lookup incidentId = some row ∧
    row.alertId = some alertId ∧ s.pool.world.alerts.lookup alertId = some alert ∧
    Written φ initial row.status.value s.lastSave ∧
    Written φ initial alert.status.value s.lastUpdate
  /-- A call that is done has updated the alert. -/
  updates : ∀ (i : ℕ) (q : IncidentPhase), φ[i]? = some q → q.stage = .done →
    s.lastUpdate.isSome = true

section Step

variable {incidentId alertId : Uuid} {initial : String} {orders : List Order} {s s' : Operations}
  {φ : List IncidentPhase} {i : ℕ} {op : Op} {q q' : IncidentPhase}

theorem Written.set {status : String} {writer : Option ℕ} (h : Written φ initial status writer)
    (hq : φ[i]? = some q) (htarget : q'.target = q.target)
    (hsaved : q.stage.hasSaved = true → q'.stage.hasSaved = true) :
    Written (φ.set i q') initial status writer := by
  cases writer with
  | none => exact h
  | some j =>
    obtain ⟨p, hp, hpsaved, hstatus⟩ := h
    by_cases hj : i = j
    · subst hj
      cases hq.symm.trans hp
      exact ⟨q', List.getElem?_set_self (List.getElem?_eq_some_iff.mp hq).1, hsaved hpsaved,
        htarget ▸ hstatus⟩
    · exact ⟨p, (List.getElem?_set_ne hj).trans hp, hpsaved, hstatus⟩

theorem written_self (hq : φ[i]? = some q) (hsaved : q'.stage.hasSaved = true) :
    Written (φ.set i q') initial q'.target.value (some i) :=
  ⟨q', List.getElem?_set_self (List.getElem?_eq_some_iff.mp hq).1, hsaved, rfl⟩

/-- The last writers after one more call. -/
theorem lastSave_append {e : Env} {r : Except Failure op.Reply}
    (hlog : s'.pool.log = s.pool.log ++ [⟨i, e, op, r⟩]) :
    s'.lastSave = if op.savesIncident.isSome then some i else s.lastSave :=
  Pool.last_append hlog

theorem lastUpdate_append {e : Env} {r : Except Failure op.Reply}
    (hlog : s'.pool.log = s.pool.log ++ [⟨i, e, op, r⟩]) :
    s'.lastUpdate = if op.updatesAlert.isSome then some i else s.lastUpdate :=
  Pool.last_append hlog

theorem LinkedTo.move {w w' : World} (h : IncidentMove incidentId w w' op q q')
    (hq : q.stage.LinkedTo alertId) {row : IncidentEntity}
    (hrow : w.incidents.lookup incidentId = some row) (hlink : row.alertId = some alertId) :
    q'.stage.LinkedTo alertId := by
  cases h with
  | aside => exact hq
  | read hread hs hincidents halerts =>
    cases hrow.symm.trans hread
    exact hlink
  | saved => exact hq
  | refused | updated | unlinked => trivial

/-- A call that writes neither row. -/
theorem Following.keep (h : Following incidentId alertId initial s φ) (hq : φ[i]? = some q)
    (hanswered : Answered incidentId s s' i op q q')
    (hincidents : s'.pool.world.incidents = s.pool.world.incidents)
    (halerts : s'.pool.world.alerts = s.pool.world.alerts) (hsaves : op.savesIncident = none)
    (hupdates : op.updatesAlert = none) (htarget : q'.target = q.target)
    (hsaved : q.stage.hasSaved = true → q'.stage.hasSaved = true)
    (hdone : q'.stage = .done → q.stage = .done) :
    Following incidentId alertId initial s' (φ.set i q') := by
  obtain ⟨hlinks, ⟨row, alert, hrow, hlink, halert, hsave, hupdate⟩, hdones⟩ := h
  obtain ⟨-, hmove, e, r, hlog⟩ := hanswered
  have hlastSave : s'.lastSave = s.lastSave := by rw [lastSave_append hlog, hsaves]; rfl
  have hlastUpdate : s'.lastUpdate = s.lastUpdate := by rw [lastUpdate_append hlog, hupdates]; rfl
  refine ⟨forall_getElem?_set hlinks (LinkedTo.move hmove (hlinks i q hq) hrow hlink),
    ⟨row, alert, hincidents ▸ hrow, hlink, halerts ▸ halert, ?_, ?_⟩, ?_⟩
  · rw [hlastSave]
    exact hsave.set hq htarget hsaved
  · rw [hlastUpdate]
    exact hupdate.set hq htarget hsaved
  · rw [hlastUpdate]
    exact forall_getElem?_set hdones fun hq' => hdones i q hq (hdone hq')

/-- A call is answered. -/
theorem Following.step (h : Following incidentId alertId initial s φ) (hq : φ[i]? = some q)
    (hanswered : Answered incidentId s s' i op q q') :
    Following incidentId alertId initial s' (φ.set i q') := by
  cases hanswered.move with
  | aside hop hbegun hincidents halerts =>
    exact h.keep hq hanswered hincidents halerts (Op.savesIncident_of_aside hop)
      (Op.updatesAlert_of_aside hop) rfl id id
  | read hread hs hincidents halerts | refused hresolved hincidents halerts =>
    exact h.keep hq hanswered hincidents halerts rfl rfl rfl (by simp [IncidentStage.hasSaved])
      (by simp)
  | @saved t incident row' now hid hs hlink' hincidents halerts =>
    obtain ⟨hlinks, ⟨row, alert, hrow, hlink, halert, hsave, hupdate⟩, hdones⟩ := h
    obtain ⟨-, hmove, e, r, hlog⟩ := hanswered
    have hlastSave : s'.lastSave = some i := lastSave_append hlog
    have hlastUpdate : s'.lastUpdate = s.lastUpdate := lastUpdate_append hlog
    refine ⟨forall_getElem?_set hlinks (LinkedTo.move hmove (hlinks i _ hq) hrow hlink),
      ⟨{ row' with updatedAt := now }, alert, ?_, hlink'.trans (hlinks i _ hq), halerts ▸ halert,
        ?_, ?_⟩, ?_⟩
    · rw [hincidents, ← hid]
      exact Table.lookup_save_self s.pool.world.incidents { row' with updatedAt := now }
    · rw [hlastSave]
      exact hs ▸ written_self hq rfl
    · rw [hlastUpdate]
      exact hupdate.set hq rfl fun _ => rfl
    · rw [hlastUpdate]
      exact forall_getElem?_set hdones (by simp)
  | @updated t incident alertId' changes now hlink' hs hincidents halerts =>
    obtain ⟨hlinks, ⟨row, alert, hrow, hlink, halert, hsave, hupdate⟩, hdones⟩ := h
    obtain ⟨-, hmove, e, r, hlog⟩ := hanswered
    have hlastSave : s'.lastSave = s.lastSave := lastSave_append hlog
    have hlastUpdate : s'.lastUpdate = some i := lastUpdate_append hlog
    have halertId : incident.alertId = some alertId := hlinks i _ hq
    refine ⟨forall_getElem?_set hlinks (LinkedTo.move hmove (hlinks i _ hq) hrow hlink),
      ⟨row, changes.apply now alert, hincidents ▸ hrow, hlink, ?_, ?_, ?_⟩, ?_⟩
    · rw [halerts, lookup_updateLinked, if_pos halertId, halert]
      rfl
    · rw [hlastSave]
      exact hsave.set hq rfl fun _ => rfl
    · rw [hlastUpdate]
      exact hs ▸ written_self hq rfl
    · rw [hlastUpdate]
      exact forall_getElem?_set (fun _ _ _ _ => rfl) fun _ => rfl
  | unlinked hop hlink' hincidents halerts => cases hlink'.symm.trans (h.links i _ hq)

end Step

/-! ## The agreement -/

/-- The calls and the two rows. -/
structure Followed (incidentId alertId : Uuid) (initial : String) (orders : List Order)
    (s : Operations) (φ : List IncidentPhase) : Prop where
  phases : InPhases incidentId orders s φ
  logged : SavesLogged s φ
  following : Following incidentId alertId initial s φ

section Followed

variable {incidentId alertId : Uuid} {initial : String} {orders : List Order} {s s' : Operations}
  {φ : List IncidentPhase}

theorem Followed.start {w : World} {row : IncidentEntity} {alert : AlertEntity}
    (hrow : w.incidents.lookup incidentId = some row) (hlink : row.alertId = some alertId)
    (halert : w.alerts.lookup alertId = some alert) (hagree : alert.status.value = row.status.value)
    (orders : List Order) :
    ∃ φ, Followed incidentId alertId row.status.value orders (.given w incidentId orders) φ := by
  refine ⟨_, .start w incidentId orders, fun i q hq hsaved => ?_, fun i q hq => ?_,
    ⟨row, alert, hrow, hlink, halert, rfl, hagree⟩, fun i q hq hdone => ?_⟩
  · rw [stage_eq_begun hq] at hsaved
    cases hsaved
  · rw [stage_eq_begun hq]
    trivial
  · cases (stage_eq_begun hq).symm.trans hdone

theorem Followed.step (h : Followed incidentId alertId initial orders s φ) {l : Operations.Label}
    (hl : s.Resolving l) (hs : s.step l = some s') :
    ∃ φ', Followed incidentId alertId initial orders s' φ' := by
  obtain ⟨i, op, q, q', hq, hanswered, hphases, -⟩ := h.phases.step hl hs
  exact ⟨_, hphases, h.logged.step hq hanswered, h.following.step hq hanswered⟩

/-- Once the calls are over, whoever saved the incident is done with its alert. -/
theorem Followed.done (h : Followed incidentId alertId initial orders s φ)
    (hfinished : s.pool.Finished) {i : ℕ} {q : IncidentPhase} (hq : φ[i]? = some q)
    (hsaved : q.stage.hasSaved = true) : s.lastUpdate.isSome = true := by
  obtain ⟨hdone, -⟩ | hrefused := h.phases.done_or_refused hfinished hq
  · exact h.following.updates i q hq hdone
  · rw [hrefused] at hsaved
    cases hsaved

/-- Whoever saved the incident has its entry in the log. -/
theorem Followed.isSome_lastSave (h : Followed incidentId alertId initial orders s φ) {i : ℕ}
    {q : IncidentPhase} (hq : φ[i]? = some q) (hsaved : q.stage.hasSaved = true) :
    s.lastSave.isSome = true := by
  obtain ⟨x, hx, -, hsaves⟩ := h.logged i q hq hsaved
  exact Pool.isSome_last hx (Option.isSome_iff_ne_none.mpr hsaves)

/-- The statuses written last are the same if and only if the commands are. -/
theorem Followed.agree_iff (h : Followed incidentId alertId initial orders s φ)
    (hfinished : s.pool.Finished) {status status' : String}
    (hsave : Written φ initial status s.lastSave)
    (hupdate : Written φ initial status' s.lastUpdate) :
    status' = status ↔ Aligned orders s := by
  unfold Aligned
  cases hlastSave : s.lastSave with
  | none =>
    have hnone : s.lastUpdate = none := by
      by_contra hne
      obtain ⟨j, hj⟩ := Option.ne_none_iff_exists'.mp hne
      rw [hj] at hupdate
      obtain ⟨p, hp, hpsaved, -⟩ := hupdate
      have hsome := h.isSome_lastSave hp hpsaved
      rw [hlastSave] at hsome
      cases hsome
    rw [hlastSave] at hsave
    rw [hnone] at hupdate
    exact iff_of_true (hupdate.trans hsave.symm) (by rintro i ⟨⟩)
  | some i =>
    rw [hlastSave] at hsave
    obtain ⟨q, hq, hqsaved, rfl⟩ := hsave
    obtain ⟨j, hj⟩ := Option.isSome_iff_exists.mp (h.done hfinished hq hqsaved)
    rw [hj] at hupdate ⊢
    obtain ⟨p, hp, -, rfl⟩ := hupdate
    obtain ⟨order, horder, htarget⟩ := Option.map_eq_some_iff.mp (h.phases.target_eq hq)
    obtain ⟨order', horder', htarget'⟩ := Option.map_eq_some_iff.mp (h.phases.target_eq hp)
    simp only [Option.mem_def, Option.some.injEq, forall_eq', horder, horder', Order.like_iff,
      htarget, htarget']
    exact eq_comm

theorem followed_of_reachable {w : World} {row : IncidentEntity} {alert : AlertEntity}
    (hrow : w.incidents.lookup incidentId = some row) (hlink : row.alertId = some alertId)
    (halert : w.alerts.lookup alertId = some alert) (hagree : alert.status.value = row.status.value)
    (hs : Reachable Operations.step Operations.Resolving (.given w incidentId orders) s) :
    ∃ φ, Followed incidentId alertId row.status.value orders s φ :=
  Reachable.invariant (I := fun s => ∃ φ, Followed incidentId alertId row.status.value orders s φ)
    (fun _ _ _ ⟨_, h⟩ hl hs => h.step hl hs) (Followed.start hrow hlink halert hagree orders) hs

end Followed

/-- When the alert follows its incident. After every finished run of `acknowledge` and `resolve`
calls on an incident whose alert has the same status at the start, the two statuses are the same if
and only if the call that updated the alert last gives the same command as the call that saved the
incident last. -/
theorem alert_follows {w : World} {incidentId alertId : Uuid} {row : IncidentEntity}
    {alert : AlertEntity} (hrow : w.incidents.lookup incidentId = some row)
    (hlink : row.alertId = some alertId) (halert : w.alerts.lookup alertId = some alert)
    (hagree : alert.status.value = row.status.value) {orders : List Order} {s : Operations}
    (hs : Reachable Operations.step Operations.Resolving (.given w incidentId orders) s)
    (hfinished : s.pool.Finished) :
    ∃ row' alert', s.pool.world.incidents.lookup incidentId = some row' ∧
      s.pool.world.alerts.lookup alertId = some alert' ∧
      (alert'.status.value = row'.status.value ↔ Aligned orders s) := by
  obtain ⟨φ, h⟩ := followed_of_reachable hrow hlink halert hagree hs
  obtain ⟨row', alert', hrow', -, halert', hsave, hupdate⟩ := h.following.rows
  exact ⟨row', alert', hrow', halert', h.agree_iff hfinished hsave hupdate⟩

/-- An acknowledgement saves first, a resolution saves and updates the alert, and the
acknowledgement updates it last. -/
theorem not_alert_follows : ¬∀ (w : World) (incidentId alertId : Uuid) (row : IncidentEntity)
    (alert : AlertEntity) (orders : List Order) (s : Operations),
    w.incidents.lookup incidentId = some row → row.alertId = some alertId →
      w.alerts.lookup alertId = some alert → row.status = .OPEN → alert.status = .OPEN →
      Reachable Operations.step Operations.Resolving (.given w incidentId orders) s →
      s.pool.Finished →
      ∃ row' alert', s.pool.world.incidents.lookup incidentId = some row' ∧
        s.pool.world.alerts.lookup alertId = some alert' ∧
        alert'.status.value = row'.status.value := by
  intro h
  obtain ⟨s, hs, hfinished, ⟨row, hrow, hresolved⟩, alert, halert, hack⟩ :
      ∃ s, Reachable Operations.step Operations.Resolving
        (.given escalated 2 [.acknowledge "alice", .resolve "bob"]) s ∧ s.pool.Finished ∧
        (∃ row ∈ s.pool.world.incidents.lookup 2, row.status = .RESOLVED) ∧
        ∃ alert ∈ s.pool.world.alerts.lookup 1, alert.status = .ACKNOWLEDGED :=
    exists_reachable_of_execute _
      (Operations.calls 0 3 1 ++ Operations.calls 1 8 4 ++ Operations.calls 0 5 20) _ (by decide)
  obtain ⟨row', alert', hrow', halert', hagree⟩ :=
    h _ _ _ _ _ _ _ rfl rfl rfl rfl rfl hs hfinished
  cases hrow.symm.trans hrow'
  cases halert.symm.trans halert'
  rw [hresolved, hack] at hagree
  exact absurd hagree (by decide)

/-- The same calls, but the resolution updates the alert last. -/
theorem alert_follows_resolved : ∃ s : Operations, s.pool.Finished ∧
    ∃ row' alert', s.pool.world.incidents.lookup 2 = some row' ∧
      s.pool.world.alerts.lookup 1 = some alert' ∧ alert'.status.value = row'.status.value := by
  obtain ⟨s, hs, hfinished, haligned⟩ :
      ∃ s, Reachable Operations.step Operations.Resolving
        (.given escalated 2 [.acknowledge "alice", .resolve "bob"]) s ∧ s.pool.Finished ∧
        Aligned [.acknowledge "alice", .resolve "bob"] s :=
    exists_reachable_of_execute _
      (Operations.calls 0 3 1 ++ Operations.calls 1 3 4 ++ Operations.calls 0 5 7 ++
        Operations.calls 1 5 20) _ (by decide)
  obtain ⟨row', alert', hrow, halert, hiff⟩ := alert_follows rfl rfl rfl rfl hs hfinished
  exact ⟨s, hfinished, row', alert', hrow, halert, hiff.mpr haligned⟩

end RealtimeOps
