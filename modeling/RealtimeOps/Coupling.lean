import RealtimeOps.Books

/-!
# Alerts and their incidents

An alert and its incident are rows of two tables, and each has its own `OPEN`, `ACKNOWLEDGED`
and `RESOLVED`. `Agrees` relates the two statuses. The commands on an incident overwrite the
status of its alert without reading it, and are sound only because the pair agrees : an
unresolved incident has an unresolved alert, so no command lowers a status (`Moves.ascends`).

`coupling` : in every session from empty tables an alert has at most one incident, they agree,
and no command lowers a status.
-/

set_option autoImplicit false

namespace RealtimeOps

open Interleaving JobProcessorService

/-- The place of a status in its life. -/
def AlertStatus.rank : AlertStatus → ℕ
  | .OPEN => 0
  | .ACKNOWLEDGED => 1
  | .RESOLVED => 2

/-- The place of a status in its life. -/
def IncidentStatus.rank : IncidentStatus → ℕ
  | .OPEN => 0
  | .ACKNOWLEDGED => 1
  | .RESOLVED => 2

theorem AlertStatus.rank_le_of_ne {status : AlertStatus} (h : status ≠ .RESOLVED) :
    status.rank ≤ 1 := by
  cases status with
  | OPEN => exact Nat.zero_le _
  | ACKNOWLEDGED => exact le_rfl
  | RESOLVED => exact absurd rfl h

theorem IncidentStatus.rank_le_of_ne {status : IncidentStatus} (h : status ≠ .RESOLVED) :
    status.rank ≤ 1 := by
  cases status with
  | OPEN => exact Nat.zero_le _
  | ACKNOWLEDGED => exact le_rfl
  | RESOLVED => exact absurd rfl h

/-- An acknowledgement of the alert itself was accepted. -/
def AcknowledgedAlone (done : List (Command × Except Failure Response)) (alertId : Uuid) : Prop :=
  ∃ operatorId response, (Command.acknowledgeAlert alertId operatorId, .ok response) ∈ done

theorem AcknowledgedAlone.append {done done' : List (Command × Except Failure Response)}
    {alertId : Uuid} (h : AcknowledgedAlone done alertId) :
    AcknowledgedAlone (done ++ done') alertId := by
  obtain ⟨operatorId, response, h⟩ := h
  exact ⟨operatorId, response, List.mem_append_left _ h⟩

/-- The status of an alert against that of its incident. -/
structure Agrees (done : List (Command × Except Failure Response)) (alert : AlertEntity)
    (incident : IncidentEntity) : Prop where
  resolved : alert.status = .RESOLVED ↔ incident.status = .RESOLVED
  le : incident.status.rank ≤ alert.status.rank
  eq : ¬AcknowledgedAlone done alert.id → alert.status.rank = incident.status.rank

theorem Agrees.append {done : List (Command × Except Failure Response)} {alert : AlertEntity}
    {incident : IncidentEntity} (h : Agrees done alert incident)
    (done' : List (Command × Except Failure Response)) : Agrees (done ++ done') alert incident :=
  ⟨h.resolved, h.le, fun hnot => h.eq fun hack => hnot hack.append⟩

theorem Agrees.of_rank_eq {alert : AlertEntity} {incident : IncidentEntity}
    (h : alert.status.rank = incident.status.rank)
    (done : List (Command × Except Failure Response)) : Agrees done alert incident := by
  refine ⟨?_, h.ge, fun _ => h⟩
  cases ha : alert.status <;> cases hi : incident.status <;>
    simp_all [AlertStatus.rank, IncidentStatus.rank]

/-- No alert and no incident is gone or has a lower status. -/
structure Ascends (b b' : Books) : Prop where
  alerts : Table.Advances (fun a a' => a.status.rank ≤ a'.status.rank) b.alerts b'.alerts
  incidents : Table.Advances (fun i i' => i.status.rank ≤ i'.status.rank) b.incidents b'.incidents

/-! ## Moves -/

/-- What a transaction does to alerts and incidents. -/
inductive Moves (b : Books) (x : Command × Except Failure Response) (b' : Books) : Prop where
  | still (halerts : b'.alerts = b.alerts) (hincidents : b'.incidents = b.incidents)
  | raised {alert : AlertEntity} (halerts : b.alerts.insert alert = some b'.alerts)
      (hincidents : b'.incidents = b.incidents)
  | opened {alert : AlertEntity} {incident : IncidentEntity} (halert : alert.status = .OPEN)
      (halerts : b.alerts.insert alert = some b'.alerts) (hincident : incident.status = .OPEN)
      (hlink : incident.alertId = some alert.id)
      (hincidents : b.incidents.insert incident = some b'.incidents)
  | alertAcknowledged {alert row : AlertEntity} (hx : AcknowledgedAlone [x] alert.id)
      (halert : alert ∈ b.alerts.rows) (hunresolved : alert.status ≠ .RESOLVED)
      (halerts : b'.alerts = b.alerts.save row) (hincidents : b'.incidents = b.incidents)
      (hid : row.id = alert.id) (hrow : row.status = .ACKNOWLEDGED)
  /-- A command on an incident gives it and its alert the same status. -/
  | settled {incident row : IncidentEntity} {changes : AlertUpdate} {now : Date}
      (hincident : incident ∈ b.incidents.rows) (hunresolved : incident.status ≠ .RESOLVED)
      (hincidents : b'.incidents = b.incidents.save row)
      (halerts : b'.alerts = updateLinked b.alerts incident.alertId changes now)
      (hid : row.id = incident.id) (hlink : row.alertId = incident.alertId)
      (hpos : 0 < row.status.rank) (hrank : changes.status.rank = row.status.rank)

theorem Executed.moves {b b' : Books} {jobId : Uuid} (h : Executed b jobId b')
    (x : Command × Except Failure Response) : Moves b x b' := by
  cases h with
  | idle h => exact h ▸ .still rfl rfl
  | completed hjob hgood hcols hjobs hattempts halerts hincidents hfeed hn htrail =>
    exact .still halerts hincidents
  | failed hjob hbad hcols hjobs hattempts halert halerts hhigh hincidents hfeed hn htrail =>
    exact .raised halerts hincidents
  | escalated hjob hbad hcols hjobs hattempts halert halerts hcritical hincident hfree hincidents
      hfeed hn htrail =>
    exact .opened (congrArg AlertColumns.status halert) halerts
      (congrArg IncidentColumns.status hincident) (congrArg IncidentColumns.alertId hincident)
      hincidents

theorem Books.Writes.moves {b b' : Books} {command : Command} {r : Except Failure Response}
    (h : b.Writes command r b') : Moves b (command, r) b' := by
  cases h with
  | refused h err => exact .still rfl rfl
  | read jobId r => exact .still rfl rfl
  | dropped hnone r => exact .still rfl rfl
  | executed hcommand h => exact h.moves _
  | created hcols hjobs hattempts halerts hincidents hfeed hn htrail =>
    exact .still halerts hincidents
  | retried hjob hstatus hleft hjobs hattempts halerts hincidents hfeed hn htrail =>
    exact .still halerts hincidents
  | raised hcols hopens halerts hincidents hjobs hattempts hfeed htrail =>
    exact .raised halerts hincidents
  | raisedWithIncident hcols hopens halerts hincident hfree hincidents hjobs hattempts hfeed
      htrail =>
    exact .opened (congrArg AlertColumns.status hcols) halerts
      (congrArg IncidentColumns.status hincident) (congrArg IncidentColumns.alertId hincident)
      hincidents
  | alertAcknowledged halert hstatus halerts hincidents hjobs hattempts hfeed htrail =>
    obtain ⟨hmem, rfl⟩ := Table.lookup_eq_some.mp halert
    exact .alertAcknowledged ⟨_, _, List.mem_singleton_self _⟩ hmem hstatus halerts hincidents rfl
      rfl
  | acknowledged hincident hstatus hincidents halerts hjobs hattempts hfeed htrail =>
    exact .settled (Table.lookup_eq_some.mp hincident).1 hstatus hincidents halerts rfl rfl
      Nat.one_pos rfl
  | resolved hincident hstatus hbefore hincidents halerts hjobs hattempts hfeed htrail =>
    refine .settled (Table.lookup_eq_some.mp hincident).1 hstatus hincidents halerts ?_ ?_
      Nat.two_pos rfl
    · rw [hbefore]
      split_ifs <;> rfl
    · rw [hbefore]
      split_ifs <;> rfl

/-! ## The pairs -/

/-- The invariant of sessions. -/
structure Coupled (b : Books) (done : List (Command × Except Failure Response)) : Prop where
  linked : b.Linked
  unique : ∀ i ∈ b.incidents.rows, ∀ j ∈ b.incidents.rows, ∀ alertId, i.alertId = some alertId →
    j.alertId = some alertId → i = j
  agrees : ∀ alert ∈ b.alerts.rows, ∀ i ∈ b.incidents.rows, i.alertId = some alert.id →
    Agrees done alert i

/-- The rows once the linked alert is updated. -/
theorem mem_updateLinked {alerts : Table AlertEntity.id} {linked : Option Uuid}
    {changes : AlertUpdate} {now : Date} {alert : AlertEntity} :
    alert ∈ (updateLinked alerts linked changes now).rows ↔
      (∃ a ∈ alerts.rows, linked = some a.id ∧ alert = changes.apply now a) ∨
        alert ∈ alerts.rows ∧ linked ≠ some alert.id := by
  rw [Table.mem_iff_lookup, lookup_updateLinked]
  split_ifs with hlink
  · rw [Option.map_eq_some_iff]
    constructor
    · rintro ⟨a, ha, rfl⟩
      exact .inl ⟨a, (Table.lookup_eq_some.mp ha).1, hlink, rfl⟩
    · rintro (⟨a, ha, -, rfl⟩ | ⟨-, hne⟩)
      · exact ⟨a, Table.lookup_of_mem ha, rfl⟩
      · exact absurd hlink hne
  · rw [← Table.mem_iff_lookup]
    constructor
    · exact fun ha => .inr ⟨ha, hlink⟩
    · rintro (⟨a, -, ha, rfl⟩ | ⟨ha, -⟩)
      · exact absurd ha hlink
      · exact ha

/-- An update leaves the ids. -/
theorem isSome_lookup_updateLinked (alerts : Table AlertEntity.id) (linked : Option Uuid)
    (changes : AlertUpdate) (now : Date) (alertId : Uuid) :
    ((updateLinked alerts linked changes now).lookup alertId).isSome =
      (alerts.lookup alertId).isSome := by
  rw [lookup_updateLinked]
  split_ifs
  · exact Option.isSome_map
  · rfl

namespace Coupled

variable {b b' : Books} {done : List (Command × Except Failure Response)}
  {x : Command × Except Failure Response}

/-- An alert is inserted : no incident is linked to it yet. -/
theorem raised (h : Coupled b done) {alert : AlertEntity}
    (halerts : b.alerts.insert alert = some b'.alerts) (hincidents : b'.incidents = b.incidents) :
    Coupled b' (done ++ [x]) := by
  refine ⟨h.linked.raised halerts hincidents, hincidents ▸ h.unique, ?_⟩
  intro a ha i hi hlink
  rw [hincidents] at hi
  rcases (Table.mem_insert halerts).mp ha with ha | rfl
  · exact (h.agrees a ha i hi hlink).append _
  · have hnone := h.linked.incidentsOf_fresh (Table.insert_eq_some halerts).2
    exact absurd (decide_eq_true hlink) (List.filter_eq_nil_iff.mp hnone i hi)

/-- An alert and its incident are inserted, both open. -/
theorem opened (h : Coupled b done) {alert : AlertEntity} {incident : IncidentEntity}
    (halert : alert.status = .OPEN) (halerts : b.alerts.insert alert = some b'.alerts)
    (hincident : incident.status = .OPEN) (hlink : incident.alertId = some alert.id)
    (hincidents : b.incidents.insert incident = some b'.incidents) :
    Coupled b' (done ++ [x]) := by
  have hfresh := (Table.insert_eq_some halerts).2
  -- No other incident is linked to the new alert.
  have hnone : ∀ i ∈ b.incidents.rows, i.alertId ≠ some alert.id := fun i hi hlink' =>
    List.filter_eq_nil_iff.mp (h.linked.incidentsOf_fresh hfresh) i hi (decide_eq_true hlink')
  refine ⟨h.linked.opened halerts hincidents hlink, ?_, ?_⟩
  · intro i hi j hj alertId hlinkᵢ hlinkⱼ
    rcases (Table.mem_insert hincidents).mp hi with hi | rfl <;>
      rcases (Table.mem_insert hincidents).mp hj with hj | rfl
    · exact h.unique i hi j hj alertId hlinkᵢ hlinkⱼ
    · exact absurd (hlinkᵢ.trans (hlinkⱼ.symm.trans hlink)) (hnone i hi)
    · exact absurd (hlinkⱼ.trans (hlinkᵢ.symm.trans hlink)) (hnone j hj)
    · rfl
  · intro a ha i hi hlink'
    rcases (Table.mem_insert halerts).mp ha with ha | rfl <;>
      rcases (Table.mem_insert hincidents).mp hi with hi | rfl
    · exact (h.agrees a ha i hi hlink').append _
    · exact absurd (Option.some.inj (hlink'.symm.trans hlink)) (hfresh a ha)
    · exact absurd hlink' (hnone i hi)
    · exact .of_rank_eq (by rw [halert, hincident]; rfl) _

/-- An unresolved alert is acknowledged. -/
theorem alertAcknowledged (h : Coupled b done) {alert row : AlertEntity}
    (hx : AcknowledgedAlone [x] alert.id) (halert : alert ∈ b.alerts.rows)
    (hunresolved : alert.status ≠ .RESOLVED) (halerts : b'.alerts = b.alerts.save row)
    (hincidents : b'.incidents = b.incidents) (hid : row.id = alert.id)
    (hrow : row.status = .ACKNOWLEDGED) : Coupled b' (done ++ [x]) := by
  refine ⟨?_, hincidents ▸ h.unique, ?_⟩
  · intro i hi alertId hlink
    rw [halerts, Table.lookup_save]
    split_ifs
    · rfl
    · exact h.linked i (hincidents ▸ hi) alertId hlink
  · intro a ha i hi hlink
    rw [hincidents] at hi
    rcases Table.mem_save.mp (halerts ▸ ha) with rfl | ⟨ha, -⟩
    · have hold := h.agrees alert halert i hi (hid ▸ hlink)
      have hi' : i.status ≠ .RESOLVED := fun hr => hunresolved (hold.resolved.mpr hr)
      refine ⟨⟨fun hr => ?_, fun hr => absurd hr hi'⟩, ?_, fun hnot => absurd ?_ hnot⟩
      · rw [hrow] at hr
        cases hr
      · rw [hrow]
        exact IncidentStatus.rank_le_of_ne hi'
      · obtain ⟨operatorId, response, hmem⟩ := hx
        exact ⟨operatorId, response, hid ▸ List.mem_append_right _ hmem⟩
    · exact (h.agrees a ha i hi hlink).append _

/-- An incident is saved and its alert follows. -/
theorem settled (h : Coupled b done) {incident row : IncidentEntity} {changes : AlertUpdate}
    {now : Date} (hincident : incident ∈ b.incidents.rows)
    (hincidents : b'.incidents = b.incidents.save row)
    (halerts : b'.alerts = updateLinked b.alerts incident.alertId changes now)
    (hid : row.id = incident.id) (hlink : row.alertId = incident.alertId)
    (hrank : changes.status.rank = row.status.rank) : Coupled b' (done ++ [x]) := by
  -- No other incident has the alert.
  have hother : ∀ i ∈ b.incidents.rows, i.id ≠ row.id → ∀ alertId, i.alertId = some alertId →
      incident.alertId ≠ some alertId := fun i hi hne alertId hlinkᵢ hlink' =>
    hne (hid ▸ congrArg _ (h.unique i hi incident hincident alertId hlinkᵢ hlink'))
  refine ⟨?_, ?_, ?_⟩
  · intro i hi alertId hlinkᵢ
    rw [halerts, isSome_lookup_updateLinked]
    rcases Table.mem_save.mp (hincidents ▸ hi) with rfl | ⟨hi, -⟩
    · exact h.linked incident hincident alertId (hlink ▸ hlinkᵢ)
    · exact h.linked i hi alertId hlinkᵢ
  · intro i hi j hj alertId hlinkᵢ hlinkⱼ
    rcases Table.mem_save.mp (hincidents ▸ hi) with rfl | ⟨hi, hneᵢ⟩ <;>
      rcases Table.mem_save.mp (hincidents ▸ hj) with rfl | ⟨hj, hneⱼ⟩
    · rfl
    · exact absurd (hlink ▸ hlinkᵢ) (hother j hj hneⱼ alertId hlinkⱼ)
    · exact absurd (hlink ▸ hlinkⱼ) (hother i hi hneᵢ alertId hlinkᵢ)
    · exact h.unique i hi j hj alertId hlinkᵢ hlinkⱼ
  · intro a ha i hi hlinkᵢ
    rw [halerts] at ha
    rcases Table.mem_save.mp (hincidents ▸ hi) with rfl | ⟨hi, hne⟩ <;>
      rcases mem_updateLinked.mp ha with ⟨c, hc, hlink', rfl⟩ | ⟨ha, hnot⟩
    · exact .of_rank_eq hrank _
    · exact absurd (hlink ▸ hlinkᵢ) hnot
    · exact absurd hlink' (hother i hi hne _ hlinkᵢ)
    · exact (h.agrees a ha i hi hlinkᵢ).append _

/-- Every move keeps the pairs. -/
theorem moves (h : Coupled b done) (hmoves : Moves b x b') : Coupled b' (done ++ [x]) := by
  cases hmoves with
  | still halerts hincidents =>
    exact ⟨h.linked.of_eq halerts hincidents, hincidents ▸ h.unique, fun a ha i hi hlink =>
      (h.agrees a (halerts ▸ ha) i (hincidents ▸ hi) hlink).append _⟩
  | raised halerts hincidents => exact h.raised halerts hincidents
  | opened halert halerts hincident hlink hincidents =>
    exact h.opened halert halerts hincident hlink hincidents
  | alertAcknowledged hx halert hunresolved halerts hincidents hid hrow =>
    exact h.alertAcknowledged hx halert hunresolved halerts hincidents hid hrow
  | settled hincident hunresolved hincidents halerts hid hlink hpos hrank =>
    exact h.settled hincident hincidents halerts hid hlink hrank

/-- And lowers no status : an unresolved incident has an unresolved alert. -/
theorem ascends (h : Coupled b done) (hmoves : Moves b x b') : Ascends b b' := by
  cases hmoves with
  | still halerts hincidents =>
    exact ⟨.of_eq (fun _ => le_rfl) halerts, .of_eq (fun _ => le_rfl) hincidents⟩
  | raised halerts hincidents =>
    exact ⟨.insert (fun _ => le_rfl) halerts, .of_eq (fun _ => le_rfl) hincidents⟩
  | opened halert halerts hincident hlink hincidents =>
    exact ⟨.insert (fun _ => le_rfl) halerts, .insert (fun _ => le_rfl) hincidents⟩
  | alertAcknowledged hx halert hunresolved halerts hincidents hid hrow =>
    refine ⟨halerts ▸ .save (fun _ => le_rfl) halert hid ?_,
      .of_eq (fun _ => le_rfl) hincidents⟩
    rw [hrow]
    exact AlertStatus.rank_le_of_ne hunresolved
  | @settled incident row changes now hincident hunresolved hincidents halerts hid hlink hpos
      hrank =>
    have hrow : incident.status.rank ≤ row.status.rank :=
      (IncidentStatus.rank_le_of_ne hunresolved).trans hpos
    refine ⟨halerts ▸ fun a ha => ?_, hincidents ▸ .save (fun _ => le_rfl) hincident hid hrow⟩
    by_cases hlinked : incident.alertId = some a.id
    · refine ⟨changes.apply now a, mem_updateLinked.mpr (.inl ⟨a, ha, hlinked, rfl⟩), rfl, ?_⟩
      have ha' : a.status ≠ .RESOLVED := fun hr =>
        hunresolved ((h.agrees a ha incident hincident hlinked).resolved.mp hr)
      exact (AlertStatus.rank_le_of_ne ha').trans (hpos.trans_eq hrank.symm)
    · exact ⟨a, mem_updateLinked.mpr (.inr ⟨ha, hlinked⟩), rfl, le_rfl⟩

theorem empty : Coupled World.empty.books [] where
  linked _ h := nomatch h
  unique _ h := nomatch h
  agrees _ h := nomatch h

/-- An alert has at most one incident. -/
theorem length_incidentsOf_le (h : Coupled b done) (alertId : Uuid) :
    (b.incidentsOf alertId).length ≤ 1 := by
  have hnodup : (b.incidentsOf alertId).Nodup := (b.incidents.nodup.of_map _).filter _
  match hl : b.incidentsOf alertId with
  | [] => exact Nat.zero_le _
  | [i] => exact le_rfl
  | i :: j :: rest =>
    have hmem : ∀ k ∈ b.incidentsOf alertId, k ∈ b.incidents.rows ∧ k.alertId = some alertId :=
      fun k hk => ⟨List.mem_of_mem_filter hk, of_decide_eq_true (List.mem_filter.mp hk).2⟩
    rw [hl] at hnodup hmem
    obtain ⟨hi, hlinkᵢ⟩ := hmem i (by simp)
    obtain ⟨hj, hlinkⱼ⟩ := hmem j (by simp)
    rw [h.unique i hi j hj alertId hlinkᵢ hlinkⱼ] at hnodup
    simp at hnodup

end Coupled

/-- The coupling of alerts and incidents. In every session from empty tables, whatever the
commands, their ids and their order, an alert has at most one incident, the two are resolved
together, the alert is at least as far as the incident and exactly as far unless the alert
itself was acknowledged, and no further command lowers a status. -/
theorem coupling (s : CommandSession)
    (h : Reachable CommandSession.step (CommandSession.Runs fun _ => True)
      (CommandSession.init .empty) s) :
    (∀ alertId, (s.world.books.incidentsOf alertId).length ≤ 1) ∧
      (∀ alert ∈ s.world.alerts.rows, ∀ incident ∈ s.world.incidents.rows,
        incident.alertId = some alert.id → Agrees s.done alert incident) ∧
      ∀ l s', s.step l = some s' → Ascends s.world.books s'.world.books := by
  have hcoupled : Coupled s.world.books s.done :=
    CommandSession.invariant (fun _ _ _ _ _ h _ hw => h.moves hw.moves) Coupled.empty h
  refine ⟨hcoupled.length_incidentsOf_le, hcoupled.agrees, fun l s' hs => ?_⟩
  obtain ⟨r, hwrites, -⟩ := CommandSession.step_writes hs
  exact hcoupled.ascends hwrites.moves

theorem coupling_acknowledged_alone : ∃ (s : CommandSession) (alert : AlertEntity)
    (incident : IncidentEntity), alert.status = .ACKNOWLEDGED ∧ incident.status = .OPEN ∧
      Agrees s.done alert incident ∧ (s.world.books.incidentsOf alert.id).length ≤ 1 := by
  obtain ⟨s, hs, alert, halert, incident, hincident, hlink, hack, hopen⟩ :
      ∃ s, Reachable CommandSession.step (CommandSession.Runs fun _ => True)
        (CommandSession.init .empty) s ∧
        ∃ alert ∈ s.world.alerts.rows, ∃ incident ∈ s.world.incidents.rows,
          incident.alertId = some alert.id ∧ alert.status = .ACKNOWLEDGED ∧
            incident.status = .OPEN :=
    exists_reachable_of_execute _
      [(.createAlert ⟨none, "probe", .CRITICAL, "disk full", "no space left", "alice", false⟩,
          CommandSession.smooth 1),
        (.acknowledgeAlert 1 "bob", CommandSession.smooth 10)] _ (by decide)
  obtain ⟨hone, hagrees, -⟩ := coupling s hs
  exact ⟨s, alert, incident, hack, hopen, hagrees alert halert incident hincident hlink,
    hone alert.id⟩

end RealtimeOps
