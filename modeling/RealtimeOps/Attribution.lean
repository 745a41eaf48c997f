import RealtimeOps.Coupling

/-!
# Who acknowledged and who resolved

An alert and its incident both name the operator who acknowledged and the one who resolved
them, and when. `acknowledge` writes the columns in both tables, once by a save of the whole
incident and once by an update of the linked alert. `resolve` acknowledges an open incident on
the way, but of the alert it sets only the columns of the resolution.

`attribution` : the columns are complete and the same in both tables in every session without a
`resolve` of an open incident, and such a `resolve` always breaks them.
-/

set_option autoImplicit false

namespace RealtimeOps

open Interleaving JobProcessorService

/-- Who acknowledged and who resolved a row, and when. -/
@[ext]
structure Signatures where
  acknowledgedBy : Option String
  acknowledgedAt : Option Date
  resolvedBy : Option String
  resolvedAt : Option Date
  deriving DecidableEq

/-- The signatures of an alert. -/
def AlertColumns.signatures (alert : AlertColumns) : Signatures :=
  ⟨alert.acknowledgedBy, alert.acknowledgedAt, alert.resolvedBy, alert.resolvedAt⟩

/-- The signatures of an incident. -/
def IncidentColumns.signatures (incident : IncidentColumns) : Signatures :=
  ⟨incident.acknowledgedBy, incident.acknowledgedAt, incident.resolvedBy, incident.resolvedAt⟩

/-- The signatures that a row needs at its place in life : open, acknowledged or resolved. -/
structure Signatures.Complete (rank : ℕ) (m : Signatures) : Prop where
  opened : rank = 0 → m = ⟨none, none, none, none⟩
  acknowledged : 1 ≤ rank → m.acknowledgedBy.isSome ∧ m.acknowledgedAt.isSome
  resolved : rank = 2 → m.resolvedBy.isSome ∧ m.resolvedAt.isSome

/-- The same operators acknowledged and resolved. -/
def Signatures.SameHands (m m' : Signatures) : Prop :=
  m.acknowledgedBy = m'.acknowledgedBy ∧ m.resolvedBy = m'.resolvedBy

/-- Every row has the signatures its status asks for, and an alert has those of its incident. -/
structure Books.Signed (b : Books) : Prop where
  alerts : ∀ alert ∈ b.alerts.rows, alert.signatures.Complete alert.status.rank
  incidents : ∀ incident ∈ b.incidents.rows, incident.signatures.Complete incident.status.rank
  mirrored : ∀ alert ∈ b.alerts.rows, ∀ incident ∈ b.incidents.rows,
    incident.alertId = some alert.id → alert.signatures.SameHands incident.signatures

/-- The commands that leave an alert to its incident : all but `AlertService.acknowledge`. -/
def Command.throughIncident : Command → Bool
  | .acknowledgeAlert _ _ => false
  | _ => true

/-- The command resolves no open incident. -/
def ResolvesNoOpen (b : Books) : Command → Prop
  | .resolve incidentId _ =>
    ∀ incident ∈ b.incidents.lookup incidentId, incident.status ≠ .OPEN
  | _ => True

instance (b : Books) : DecidablePred (ResolvesNoOpen b)
  | .resolve _ _ => inferInstanceAs (Decidable (∀ _ ∈ _, _))
  | .job _ | .createAlert _ | .acknowledgeAlert _ _ | .acknowledge _ _ => .isTrue trivial

namespace Signatures.Complete

/-- A new row is unsigned. -/
theorem blank : Complete 0 ⟨none, none, none, none⟩ :=
  ⟨fun _ => rfl, fun h => absurd h (by omega), fun h => absurd h (by omega)⟩

/-- A row acknowledged just now. -/
theorem of_acknowledged {m : Signatures} {operatorId : String} {t : Date}
    (hby : m.acknowledgedBy = some operatorId) (hat : m.acknowledgedAt = some t) : Complete 1 m :=
  ⟨fun h => absurd h (by omega), fun _ => ⟨hby ▸ rfl, hat ▸ rfl⟩, fun h => absurd h (by omega)⟩

/-- A row resolved just now that was acknowledged before. -/
theorem of_resolved {rank : ℕ} {m m' : Signatures} (h : m.Complete rank) (hrank : 1 ≤ rank)
    {operatorId : String} {t : Date} (hby : m'.acknowledgedBy = m.acknowledgedBy)
    (hat : m'.acknowledgedAt = m.acknowledgedAt) (hby' : m'.resolvedBy = some operatorId)
    (hat' : m'.resolvedAt = some t) : Complete 2 m' := by
  refine ⟨fun h => absurd h (by omega), fun _ => ?_, fun _ => ⟨hby' ▸ rfl, hat' ▸ rfl⟩⟩
  rw [hby, hat]
  exact h.acknowledged hrank

end Signatures.Complete

namespace Books.Signed

variable {b b' : Books} {done : List (Command × Except Failure Response)}

theorem of_eq (h : b.Signed) (halerts : b'.alerts = b.alerts)
    (hincidents : b'.incidents = b.incidents) : b'.Signed :=
  ⟨halerts ▸ h.alerts, hincidents ▸ h.incidents, halerts ▸ hincidents ▸ h.mirrored⟩

/-- An unsigned alert is inserted, to which no incident is linked. -/
theorem raised (h : b.Signed) (hlinked : b.Linked) {alert : AlertEntity}
    (hopen : alert.status = .OPEN) (hblank : alert.signatures = ⟨none, none, none, none⟩)
    (halerts : b.alerts.insert alert = some b'.alerts) (hincidents : b'.incidents = b.incidents) :
    b'.Signed := by
  refine ⟨fun a ha => ?_, hincidents ▸ h.incidents, fun a ha i hi hlink => ?_⟩
  · rcases (Table.mem_insert halerts).mp ha with ha | rfl
    · exact h.alerts a ha
    · rw [hopen, hblank]
      exact .blank
  · rw [hincidents] at hi
    rcases (Table.mem_insert halerts).mp ha with ha | rfl
    · exact h.mirrored a ha i hi hlink
    · have hnone := hlinked.incidentsOf_fresh (Table.insert_eq_some halerts).2
      exact absurd (decide_eq_true hlink) (List.filter_eq_nil_iff.mp hnone i hi)

/-- An unsigned incident is inserted after its alert, the only one linked to it. -/
theorem opened (h : b.Signed) (hlinked : b.Linked) {alert : AlertEntity}
    {incident : IncidentEntity} (hopen : alert.status = .OPEN)
    (hblank : alert.signatures = ⟨none, none, none, none⟩)
    (halerts : b.alerts.insert alert = some b'.alerts) (hopen' : incident.status = .OPEN)
    (hblank' : incident.signatures = ⟨none, none, none, none⟩)
    (hlink : incident.alertId = some alert.id)
    (hincidents : b.incidents.insert incident = some b'.incidents) : b'.Signed := by
  have hraised : ({ b' with incidents := b.incidents } : Books).Signed :=
    h.raised hlinked hopen hblank halerts rfl
  refine ⟨hraised.alerts, fun i hi => ?_, fun a ha i hi hlink' => ?_⟩
  · rcases (Table.mem_insert hincidents).mp hi with hi | rfl
    · exact h.incidents i hi
    · rw [hopen', hblank']
      exact .blank
  · rcases (Table.mem_insert hincidents).mp hi with hi | rfl
    · exact hraised.mirrored a ha i hi hlink'
    · have hid : a.id = alert.id := Option.some.inj (hlink'.symm.trans hlink)
      have halert : alert ∈ b'.alerts.rows := (Table.mem_insert halerts).mpr (.inr rfl)
      have ha' := Table.lookup_of_mem ha
      rw [hid, Table.lookup_of_mem halert] at ha'
      cases ha'
      rw [hblank, hblank']
      exact ⟨rfl, rfl⟩

/-- An incident is saved and its alert updated, both as their new status asks and alike. -/
theorem settled (h : b.Signed) (hcoupled : Coupled b done) {incident row : IncidentEntity}
    {changes : AlertUpdate} {now : Date} (hincident : incident ∈ b.incidents.rows)
    (hincidents : b'.incidents = b.incidents.save row)
    (halerts : b'.alerts = updateLinked b.alerts incident.alertId changes now)
    (hid : row.id = incident.id) (hlink : row.alertId = incident.alertId)
    (hrow : row.signatures.Complete row.status.rank)
    (hpair : ∀ alert ∈ b.alerts.rows, incident.alertId = some alert.id →
      (changes.apply now alert).signatures.Complete changes.status.rank ∧
        (changes.apply now alert).signatures.SameHands row.signatures) : b'.Signed := by
  refine ⟨fun a ha => ?_, fun i hi => ?_, fun a ha i hi hlink' => ?_⟩
  · rcases mem_updateLinked.mp (halerts ▸ ha) with ⟨c, hc, hlinked, rfl⟩ | ⟨ha, -⟩
    · exact (hpair c hc hlinked).1
    · exact h.alerts a ha
  · rcases Table.mem_save.mp (hincidents ▸ hi) with rfl | ⟨hi, -⟩
    · exact hrow
    · exact h.incidents i hi
  · rcases Table.mem_save.mp (hincidents ▸ hi) with rfl | ⟨hi, hne⟩ <;>
      rcases mem_updateLinked.mp (halerts ▸ ha) with ⟨c, hc, hlinked, rfl⟩ | ⟨ha, hnot⟩
    · exact (hpair c hc hlinked).2
    · exact absurd (hlink ▸ hlink') hnot
    -- No other incident has the alert.
    · exact absurd (hid ▸ congrArg _ (hcoupled.unique i hi incident hincident _ hlink' hlinked)) hne
    · exact h.mirrored a ha i hi hlink'

/-- An execution inserts unsigned rows. -/
theorem executed (h : b.Signed) (hlinked : b.Linked) {jobId : Uuid}
    (hexecuted : Executed b jobId b') : b'.Signed := by
  cases hexecuted with
  | idle hidle => exact hidle ▸ h
  | completed hjob hgood hcols hjobs hattempts halerts hincidents hfeed hn htrail =>
    exact h.of_eq halerts hincidents
  | failed hjob hbad hcols hjobs hattempts halert halerts hhigh hincidents hfeed hn htrail =>
    exact h.raised hlinked (congrArg AlertColumns.status halert)
      (congrArg AlertColumns.signatures halert) halerts hincidents
  | escalated hjob hbad hcols hjobs hattempts halert halerts hcritical hincident hfree hincidents
      hfeed hn htrail =>
    exact h.opened hlinked (congrArg AlertColumns.status halert)
      (congrArg AlertColumns.signatures halert) halerts (congrArg IncidentColumns.status hincident)
      (congrArg IncidentColumns.signatures hincident) (congrArg IncidentColumns.alertId hincident)
      hincidents

/-- Every command but a `resolve` of an open incident keeps the signatures. -/
theorem writes (h : b.Signed) (hcoupled : Coupled b done) {command : Command}
    {r : Except Failure Response} (hwrites : b.Writes command r b')
    (hthrough : command.throughIncident = true) (hresolves : ResolvesNoOpen b command) :
    b'.Signed := by
  cases hwrites with
  | refused hrefuses err => exact h
  | read jobId r => exact h
  | dropped hnone r => exact h
  | executed hcommand hexecuted => exact h.executed hcoupled.linked hexecuted
  | created hcols hjobs hattempts halerts hincidents hfeed hn htrail =>
    exact h.of_eq halerts hincidents
  | retried hjob hstatus hleft hjobs hattempts halerts hincidents hfeed hn htrail =>
    exact h.of_eq halerts hincidents
  | raised hcols hopens halerts hincidents hjobs hattempts hfeed htrail =>
    exact h.raised hcoupled.linked (congrArg AlertColumns.status hcols)
      (congrArg AlertColumns.signatures hcols) halerts hincidents
  | raisedWithIncident hcols hopens halerts hincident hfree hincidents hjobs hattempts hfeed
      htrail =>
    exact h.opened hcoupled.linked (congrArg AlertColumns.status hcols)
      (congrArg AlertColumns.signatures hcols) halerts (congrArg IncidentColumns.status hincident)
      (congrArg IncidentColumns.signatures hincident) (congrArg IncidentColumns.alertId hincident)
      hincidents
  | alertAcknowledged => cases hthrough
  | acknowledged hincident hstatus hincidents halerts hjobs hattempts hfeed htrail =>
    obtain ⟨hmem, -⟩ := Table.lookup_eq_some.mp hincident
    refine h.settled hcoupled hmem hincidents halerts rfl rfl (.of_acknowledged rfl rfl)
      fun alert halert hlink => ⟨.of_acknowledged rfl rfl, rfl, ?_⟩
    exact (h.mirrored alert halert _ hmem hlink).2
  | @resolved incidentId operatorId incident before m s t u v x _ hincident hstatus hbefore
      hincidents halerts hjobs hattempts hfeed htrail =>
    have hopen := hresolves incident hincident
    rw [if_neg hopen] at hbefore
    subst hbefore
    obtain ⟨hmem, -⟩ := Table.lookup_eq_some.mp hincident
    have hrank : 1 ≤ before.status.rank := by
      cases hs : before.status with
      | OPEN => exact absurd hs hopen
      | ACKNOWLEDGED => exact le_rfl
      | RESOLVED => exact absurd hs hstatus
    refine h.settled hcoupled hmem hincidents halerts rfl rfl
      ((h.incidents _ hmem).of_resolved hrank rfl rfl rfl rfl) fun alert halert hlink => ⟨?_, ?_⟩
    · have hle := (hcoupled.agrees alert halert _ hmem hlink).le
      exact (h.alerts alert halert).of_resolved (hrank.trans hle) rfl rfl rfl rfl
    · exact ⟨(h.mirrored alert halert _ hmem hlink).1, rfl⟩

end Books.Signed

/-- Every incident has an alert. -/
def Books.Paired (b : Books) : Prop :=
  ∀ i ∈ b.incidents.rows, i.alertId.isSome

theorem Books.Paired.moves {b b' : Books} {x : Command × Except Failure Response} (h : b.Paired)
    (hmoves : Moves b x b') : b'.Paired := by
  cases hmoves with
  | still halerts hincidents | raised halerts hincidents =>
    rw [Books.Paired, hincidents]
    exact h
  | opened halert halerts hincident hlink hincidents =>
    intro i hi
    rcases (Table.mem_insert hincidents).mp hi with hi | rfl
    · exact h i hi
    · rw [hlink]
      rfl
  | alertAcknowledged hx halert hunresolved halerts hincidents hid hrow =>
    rw [Books.Paired, hincidents]
    exact h
  | settled hincident hunresolved hincidents halerts hid hlink hpos hrank =>
    rw [Books.Paired, hincidents]
    intro i hi
    rcases Table.mem_save.mp hi with rfl | ⟨hi, -⟩
    · rw [hlink]
      exact h _ hincident
    · exact h i hi

/-- After a `resolve` of an open incident its alert names no one who acknowledged it. -/
theorem Books.Writes.resolvesNoOpen {b b' : Books} {command : Command}
    {r : Except Failure Response} {done : List (Command × Except Failure Response)}
    (h : b.Writes command r b') (hcoupled : Coupled b done) (hpaired : b.Paired) (hb : b.Signed)
    (hb' : b'.Signed) : ResolvesNoOpen b command := by
  cases h with
  | @refused command hrefuses err =>
    match command, hrefuses with
    | .resolve incidentId _, hrefuses =>
      intro incident hincident hopen
      rw [hrefuses incident hincident] at hopen
      cases hopen
    | .job _, _ | .createAlert _, _ | .acknowledgeAlert _ _, _ | .acknowledge _ _, _ => trivial
  | @executed command jobId _ hcommand hexecuted =>
    match command, hcommand with
    | .job _, _ => trivial
  | read | dropped | created | retried | raised | raisedWithIncident | alertAcknowledged
  | acknowledged => trivial
  | @resolved incidentId operatorId incident before m s t u v x _ hincident hstatus hbefore
      hincidents halerts hjobs hattempts hfeed htrail =>
    intro incident' hincident' hopen
    cases hincident.symm.trans hincident'
    rw [if_pos hopen] at hbefore
    obtain ⟨hmem, -⟩ := Table.lookup_eq_some.mp hincident
    obtain ⟨alertId, hlink⟩ := Option.isSome_iff_exists.mp (hpaired incident hmem)
    obtain ⟨alert, hfound⟩ := Option.isSome_iff_exists.mp (hcoupled.linked _ hmem _ hlink)
    obtain ⟨halert, rfl⟩ := Table.lookup_eq_some.mp hfound
    have hnone : alert.acknowledgedBy = none := by
      have hsame := (hb.mirrored alert halert incident hmem hlink).1
      rw [(hb.incidents incident hmem).opened (by rw [hopen]; rfl)] at hsame
      exact hsame
    have hupdated : (IncidentService.resolvedAlert operatorId v).apply x alert ∈ b'.alerts.rows :=
      halerts ▸ mem_updateLinked.mpr (.inl ⟨alert, halert, hlink, rfl⟩)
    have hlink' : before.alertId = some alert.id := hbefore ▸ hlink
    -- The alert keeps its empty column, the incident names the operator.
    have hsaved := hincidents ▸ Table.mem_save.mpr (.inl rfl)
    have hboth := (hb'.mirrored _ hupdated _ hsaved hlink').1
    change alert.acknowledgedBy = before.acknowledgedBy at hboth
    rw [hnone, hbefore] at hboth
    cases hboth

namespace CommandSession

/-- The next command leaves alerts to their incidents and resolves no open incident. -/
def NextSigned (s : CommandSession) (l : Command × (ℕ → Env)) : Prop :=
  l.1.throughIncident = true ∧ ResolvesNoOpen s.world.books l.1

instance (s : CommandSession) : DecidablePred s.NextSigned :=
  fun _ => inferInstanceAs (Decidable (_ ∧ ResolvesNoOpen _ _))

end CommandSession

/-- The signatures of alerts and incidents. In every session from empty tables that acknowledges
alerts through their incidents and resolves no open incident, every row has the signatures its
status asks for and an alert has those of its incident; and the next such command keeps this
exactly if it is no `resolve` of an open incident. -/
theorem attribution {s : CommandSession}
    (h : Reachable CommandSession.step CommandSession.NextSigned (CommandSession.init .empty) s) :
    s.world.books.Signed ∧ ∀ l s', l.1.throughIncident = true → s.step l = some s' →
      (s'.world.books.Signed ↔ ResolvesNoOpen s.world.books l.1) := by
  have hempty : World.empty.books.Signed :=
    ⟨fun _ h => (nomatch h), fun _ h => (nomatch h), fun _ h => (nomatch h)⟩
  have hkeeps : Coupled s.world.books s.done ∧ s.world.books.Paired ∧ s.world.books.Signed := by
    refine Reachable.invariant (I := fun s => Coupled s.world.books s.done ∧
      s.world.books.Paired ∧ s.world.books.Signed) ?_ ⟨.empty, fun _ h => (nomatch h), hempty⟩ h
    rintro s l s' ⟨hcoupled, hpaired, hs⟩ ⟨hthrough, hresolves⟩ hstep
    obtain ⟨r, hwrites, hdone⟩ := CommandSession.step_writes hstep
    exact ⟨hdone ▸ hcoupled.moves hwrites.moves, hpaired.moves hwrites.moves,
      hs.writes hcoupled hwrites hthrough hresolves⟩
  obtain ⟨hcoupled, hpaired, hs⟩ := hkeeps
  refine ⟨hs, fun l s' hthrough hstep => ?_⟩
  obtain ⟨r, hwrites, -⟩ := CommandSession.step_writes hstep
  exact ⟨hwrites.resolvesNoOpen hcoupled hpaired hs, hs.writes hcoupled hwrites hthrough⟩

theorem attribution_acknowledged : ∃ (s : CommandSession) (alert : AlertEntity),
    alert ∈ s.world.alerts.rows ∧ alert.status = .RESOLVED ∧
      alert.signatures.Complete alert.status.rank := by
  obtain ⟨s, hs, alert, halert, hresolved⟩ :
      ∃ s, Reachable CommandSession.step CommandSession.NextSigned (CommandSession.init .empty) s ∧
        ∃ alert ∈ s.world.alerts.rows, alert.status = .RESOLVED :=
    exists_reachable_of_execute _
      [(.createAlert ⟨none, "probe", .CRITICAL, "disk full", "no space left", "alice", false⟩,
          CommandSession.smooth 1),
        (.acknowledge 2 "bob", CommandSession.smooth 10),
        (.acknowledge 2 "carol", CommandSession.smooth 20),
        (.resolve 2 "dave", CommandSession.smooth 30)] _ (by decide)
  exact ⟨s, alert, halert, hresolved, (attribution hs).1.alerts alert halert⟩

/-- An open incident is resolved, and its alert names no one who acknowledged it. -/
theorem not_attribution : ¬∀ s : CommandSession, Reachable CommandSession.step
    (CommandSession.Runs fun command => command.throughIncident = true)
      (CommandSession.init .empty) s → s.world.books.Signed := by
  intro h
  obtain ⟨s, hs, alert, halert, hresolved, hnone⟩ : ∃ s, Reachable CommandSession.step
      (CommandSession.Runs fun command => command.throughIncident = true)
        (CommandSession.init .empty) s ∧
      ∃ alert ∈ s.world.alerts.rows, alert.status = .RESOLVED ∧ alert.acknowledgedBy = none :=
    exists_reachable_of_execute _
      [(.createAlert ⟨none, "probe", .CRITICAL, "disk full", "no space left", "alice", false⟩,
          CommandSession.smooth 1),
        (.resolve 2 "bob", CommandSession.smooth 10)] _ (by decide)
  have hsigned := ((h s hs).alerts alert halert).acknowledged
    (by rw [hresolved]; exact Nat.le_succ 1)
  rw [AlertColumns.signatures, hnone] at hsigned
  cases hsigned.1

end RealtimeOps
