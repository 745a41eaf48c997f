import RealtimeOps.Books

/-!
# The audit trail of an incident

An accepted `acknowledge` or `resolve` leaves one audit entry, and that of an `acknowledge` says
which status the incident had before. The code writes `open` there without looking, and accepts
an incident that is acknowledged already.

`incident_history` : in every session without such an acknowledgement the entries about an
incident lead from the status it began with to the stored one by documented transitions, and
nobody who acknowledged is replaced; a command breaks this exactly if it acknowledges an
acknowledged incident.
-/

set_option autoImplicit false

namespace RealtimeOps

open Interleaving JobProcessorService

/-- The transitions of an incident that are allowed. -/
inductive IncidentStatus.Transition : IncidentStatus → IncidentStatus → Prop
  | acknowledge : Transition .OPEN .ACKNOWLEDGED
  | resolve : Transition .ACKNOWLEDGED .RESOLVED
  | resolveOpen : Transition .OPEN .RESOLVED

/-- The status that the accepted command behind an entry leaves its incident in. -/
def acceptedStatus : String → Option IncidentStatus
  | "incident.acknowledged" => some .ACKNOWLEDGED
  | "incident.resolved" => some .RESOLVED
  | _ => none

namespace CreateAuditEntryInput

/-- The entry tells of an allowed transition, and an acknowledgement tells where it began. -/
structure Tells (e : CreateAuditEntryInput) (before after : IncidentStatus) : Prop where
  accepted : acceptedStatus e.action = some after
  allowed : before.Transition after
  previous : e.action = "incident.acknowledged" →
    e.metadata.lookup "previousStatus" = some (.str before.value)

/-- The entry is about an accepted command on the incident. -/
def accepts (incidentId : Uuid) (e : CreateAuditEntryInput) : Bool :=
  e.entityType = .INCIDENT ∧ e.entityId = some incidentId ∧ (acceptedStatus e.action).isSome

/-- An entry is about one incident only. -/
theorem eq_of_accepts {incidentId incidentId' : Uuid} {e : CreateAuditEntryInput}
    (h : e.accepts incidentId = true) (h' : e.accepts incidentId' = true) :
    incidentId = incidentId' := by
  simp only [accepts, Bool.decide_and, Bool.and_eq_true, decide_eq_true_eq] at h h'
  exact Option.some.inj (h.2.1.symm.trans h'.2.1)

theorem isSome_of_accepts {incidentId : Uuid} {e : CreateAuditEntryInput}
    (h : e.accepts incidentId = true) : (acceptedStatus e.action).isSome := by
  simp only [accepts, Bool.decide_and, Bool.and_eq_true, decide_eq_true_eq] at h
  exact h.2.2

theorem accepts_eq_false {incidentId : Uuid} {e : CreateAuditEntryInput}
    (h : acceptedStatus e.action = none) : e.accepts incidentId = false := by
  simp [accepts, h]

end CreateAuditEntryInput

/-- The entries lead from the first status to the last. -/
inductive Chain (first : IncidentStatus) : List CreateAuditEntryInput → IncidentStatus → Prop
  | nil : Chain first [] first
  | concat {entries : List CreateAuditEntryInput} {e : CreateAuditEntryInput}
      {before after : IncidentStatus} (h : Chain first entries before)
      (htells : e.Tells before after) : Chain first (entries ++ [e]) after

/-- Whoever acknowledged the incident still has. -/
def KeepsHand (i i' : IncidentEntity) : Prop :=
  ∀ operatorId, i.acknowledgedBy = some operatorId → i'.acknowledgedBy = some operatorId

/-- The entries of a transaction tell the truth about the incidents before it, and it replaces
nobody who acknowledged. -/
structure Truthful (b b' : Books) : Prop where
  entries : ∀ e ∈ b'.trail.drop b.trail.length, (acceptedStatus e.action).isSome →
    ∃ incident ∈ b.incidents.rows, e.accepts incident.id = true ∧
      ∃ after, e.Tells incident.status after
  kept : Table.Advances KeepsHand b.incidents b'.incidents

/-- The status an incident began with : an incident is inserted open. -/
def Books.firstStatus (b : Books) (incidentId : Uuid) : IncidentStatus :=
  ((b.incidents.lookup incidentId).map fun i => i.status).getD .OPEN

/-- What the entries since `b₀` say of the incidents of `b`. -/
structure Chronicled (b₀ b : Books) (entries : List CreateAuditEntryInput) : Prop where
  trail : b.trail = b₀.trail ++ entries
  about : ∀ e ∈ entries, (acceptedStatus e.action).isSome →
    ∃ i ∈ b.incidents.rows, e.accepts i.id = true
  chain : ∀ i ∈ b.incidents.rows,
    Chain (b₀.firstStatus i.id) (entries.filter (·.accepts i.id)) i.status
  kept : Table.Advances KeepsHand b₀.incidents b.incidents

/-- No open incident names an operator who acknowledged it. -/
def Books.Unclaimed (b : Books) : Prop :=
  ∀ i ∈ b.incidents.rows, i.status = .OPEN → i.acknowledgedBy = none

theorem Books.Unclaimed.empty : World.empty.books.Unclaimed := by
  intro i hi
  cases hi

/-- The command acknowledges no incident that is acknowledged already. -/
def AcknowledgesOnce (b : Books) : Command → Prop
  | .acknowledge incidentId _ =>
    ∀ incident ∈ b.incidents.lookup incidentId, incident.status ≠ .ACKNOWLEDGED
  | _ => True

instance (b : Books) : DecidablePred (AcknowledgesOnce b)
  | .acknowledge _ _ => inferInstanceAs (Decidable (∀ _ ∈ _, _))
  | .job _ | .createAlert _ | .acknowledgeAlert _ _ | .resolve _ _ => .isTrue trivial

/-! ## Transactions -/

/-- What a transaction does to incidents, and what it logs of the commands it accepts. -/
inductive IncidentWrites (b : Books) : Command → Books → Prop where
  | quiet {command : Command} {b' : Books} {new : List CreateAuditEntryInput}
      (hcommand : AcknowledgesOnce b command) (hincidents : b'.incidents = b.incidents)
      (htrail : b'.trail = b.trail ++ new) (hnew : ∀ e ∈ new, acceptedStatus e.action = none) :
      IncidentWrites b command b'
  | opened {command : Command} {b' : Books} {incident : IncidentEntity}
      {new : List CreateAuditEntryInput} (hcommand : AcknowledgesOnce b command)
      (hopen : incident.status = .OPEN) (hunclaimed : incident.acknowledgedBy = none)
      (hincidents : b.incidents.insert incident = some b'.incidents)
      (htrail : b'.trail = b.trail ++ new) (hnew : ∀ e ∈ new, acceptedStatus e.action = none) :
      IncidentWrites b command b'
  | acknowledged {b' : Books} {incident row : IncidentEntity} {operatorId : String}
      {e : CreateAuditEntryInput} (hincident : incident ∈ b.incidents.rows)
      (hstatus : incident.status ≠ .RESOLVED) (hincidents : b'.incidents = b.incidents.save row)
      (hid : row.id = incident.id) (hrow : row.status = .ACKNOWLEDGED)
      (htrail : b'.trail = b.trail ++ [e]) (haction : e.action = "incident.acknowledged")
      (haccepts : e.accepts incident.id = true)
      (hprevious : e.metadata.lookup "previousStatus" = some (.str IncidentStatus.OPEN.value)) :
      IncidentWrites b (.acknowledge incident.id operatorId) b'
  | resolved {b' : Books} {incident row : IncidentEntity} {operatorId : String}
      {e : CreateAuditEntryInput} (hincident : incident ∈ b.incidents.rows)
      (hstatus : incident.status ≠ .RESOLVED) (hincidents : b'.incidents = b.incidents.save row)
      (hid : row.id = incident.id) (hrow : row.status = .RESOLVED)
      (hhand : incident.status = .OPEN ∨ row.acknowledgedBy = incident.acknowledgedBy)
      (htrail : b'.trail = b.trail ++ [e]) (haction : e.action = "incident.resolved")
      (haccepts : e.accepts incident.id = true) :
      IncidentWrites b (.resolve incident.id operatorId) b'

theorem Executed.incidentWrites {b b' : Books} {jobId : Uuid} {command : Command}
    (h : Executed b jobId b') (hcommand : AcknowledgesOnce b command) :
    IncidentWrites b command b' := by
  cases h with
  | idle h =>
    subst h
    exact .quiet hcommand rfl (List.append_nil _).symm (by simp)
  | completed hjob hgood hcols hjobs hattempts halerts hincidents hfeed hn htrail =>
    rw [List.append_assoc] at htrail
    exact .quiet hcommand hincidents htrail (by simp [acceptedStatus])
  | failed hjob hbad hcols hjobs hattempts halert halerts hhigh hincidents hfeed hn htrail =>
    rw [List.append_assoc, List.append_assoc] at htrail
    exact .quiet hcommand hincidents htrail (by simp [acceptedStatus])
  | escalated hjob hbad hcols hjobs hattempts halert halerts hcritical hincident hfree hincidents
      hfeed hn htrail =>
    rw [List.append_assoc, List.append_assoc, List.append_assoc] at htrail
    exact .opened hcommand (congrArg IncidentColumns.status hincident)
      (congrArg IncidentColumns.acknowledgedBy hincident) hincidents htrail
      (by simp [acceptedStatus])

theorem Books.Writes.incidentWrites {b b' : Books} {command : Command}
    {r : Except Failure Response} (h : b.Writes command r b') : IncidentWrites b command b' := by
  cases h with
  | @refused command hrefuses err =>
    refine .quiet ?_ rfl (List.append_nil _).symm (by simp)
    match command, hrefuses with
    | .acknowledge incidentId _, hrefuses =>
      intro incident hincident hacknowledged
      rw [hrefuses incident hincident] at hacknowledged
      cases hacknowledged
    | .job _, _ | .createAlert _, _ | .acknowledgeAlert _ _, _ | .resolve _ _, _ => trivial
  | read jobId r => exact .quiet trivial rfl (List.append_nil _).symm (by simp)
  | dropped hnone r => exact .quiet trivial rfl (List.append_nil _).symm (by simp)
  | @executed command jobId _ hcommand hexecuted =>
    match command, hcommand with
    | .job _, _ => exact hexecuted.incidentWrites trivial
  | created hcols hjobs hattempts halerts hincidents hfeed hn htrail =>
    exact .quiet trivial hincidents htrail (by simp [acceptedStatus])
  | retried hjob hstatus hleft hjobs hattempts halerts hincidents hfeed hn htrail =>
    exact .quiet trivial hincidents htrail (by simp [acceptedStatus])
  | raised hcols hopens halerts hincidents hjobs hattempts hfeed htrail =>
    exact .quiet trivial hincidents htrail (by simp [acceptedStatus])
  | raisedWithIncident hcols hopens halerts hincident hfree hincidents hjobs hattempts hfeed
      htrail =>
    exact .opened trivial (congrArg IncidentColumns.status hincident)
      (congrArg IncidentColumns.acknowledgedBy hincident) hincidents htrail
      (by simp [acceptedStatus])
  | alertAcknowledged halert hstatus halerts hincidents hjobs hattempts hfeed htrail =>
    exact .quiet trivial hincidents htrail (by simp [acceptedStatus])
  | acknowledged hincident hstatus hincidents halerts hjobs hattempts hfeed htrail =>
    obtain ⟨hmem, rfl⟩ := Table.lookup_eq_some.mp hincident
    exact .acknowledged hmem hstatus hincidents rfl rfl htrail rfl
      (by simp [CreateAuditEntryInput.accepts, acceptedStatus]) rfl
  | @resolved incidentId operatorId incident before m s t u v x _ hincident hstatus hbefore
      hincidents halerts hjobs hattempts hfeed htrail =>
    obtain ⟨hmem, rfl⟩ := Table.lookup_eq_some.mp hincident
    refine .resolved hmem hstatus hincidents ?_ rfl ?_ htrail rfl
      (by simp [CreateAuditEntryInput.accepts, acceptedStatus])
    · rw [hbefore]
      split_ifs <;> rfl
    · rw [hbefore]
      split_ifs with hopen
      · exact .inl hopen
      · exact .inr rfl

theorem KeepsHand.refl (i : IncidentEntity) : KeepsHand i i :=
  fun _ h => h

theorem KeepsHand.trans {i j k : IncidentEntity} (h : KeepsHand i j) (h' : KeepsHand j k) :
    KeepsHand i k :=
  fun operatorId hi => h' operatorId (h operatorId hi)

namespace IncidentWrites

variable {b b' : Books} {command : Command}

theorem unclaimed (h : IncidentWrites b command b') (hb : b.Unclaimed) : b'.Unclaimed := by
  -- A saved incident is not open.
  have hsaved : ∀ row : IncidentEntity, row.status ≠ .OPEN →
      b'.incidents = b.incidents.save row → b'.Unclaimed := by
    intro row hrow hincidents i hi hopen
    rcases Table.mem_save.mp (hincidents ▸ hi) with rfl | ⟨hi, -⟩
    · exact absurd hopen hrow
    · exact hb i hi hopen
  cases h with
  | quiet hcommand hincidents htrail hnew =>
    rw [Books.Unclaimed, hincidents]
    exact hb
  | opened hcommand hopen hunclaimed hincidents htrail hnew =>
    intro i hi hi'
    rcases (Table.mem_insert hincidents).mp hi with hi | rfl
    · exact hb i hi hi'
    · exact hunclaimed
  | acknowledged hincident hstatus hincidents hid hrow htrail haction haccepts hprevious =>
    exact hsaved _ (by rw [hrow]; decide) hincidents
  | resolved hincident hstatus hincidents hid hrow hhand htrail haction haccepts =>
    exact hsaved _ (by rw [hrow]; decide) hincidents

/-- What is left of a save to show : the row says so itself, or was open and unclaimed. -/
theorem keepsHand_of_open (hb : b.Unclaimed) {incident row : IncidentEntity}
    (hincident : incident ∈ b.incidents.rows)
    (hhand : incident.status = .OPEN ∨ row.acknowledgedBy = incident.acknowledgedBy) :
    KeepsHand incident row := by
  intro operatorId hby
  rcases hhand with hopen | hsame
  · rw [hb incident hincident hopen] at hby
    cases hby
  · exact hsame.trans hby

theorem truthful_of_quiet {new : List CreateAuditEntryInput}
    (htrail : b'.trail = b.trail ++ new) (hnew : ∀ e ∈ new, acceptedStatus e.action = none)
    (hkept : Table.Advances KeepsHand b.incidents b'.incidents) : Truthful b b' := by
  refine ⟨fun e he hsome => ?_, hkept⟩
  rw [htrail, List.drop_left] at he
  rw [hnew e he] at hsome
  cases hsome

theorem truthful_of_entry {incident : IncidentEntity} {after : IncidentStatus}
    {e : CreateAuditEntryInput} (htrail : b'.trail = b.trail ++ [e])
    (hincident : incident ∈ b.incidents.rows) (haccepts : e.accepts incident.id = true)
    (htells : e.Tells incident.status after)
    (hkept : Table.Advances KeepsHand b.incidents b'.incidents) : Truthful b b' := by
  refine ⟨fun e' he hsome => ?_, hkept⟩
  rw [htrail, List.drop_left, List.mem_singleton] at he
  subst he
  exact ⟨incident, hincident, haccepts, after, htells⟩

/-- The entry of an accepted `resolve`. -/
theorem tells_resolved {incident : IncidentEntity} {e : CreateAuditEntryInput}
    (hstatus : incident.status ≠ .RESOLVED) (haction : e.action = "incident.resolved") :
    e.Tells incident.status .RESOLVED := by
  refine ⟨by rw [haction]; rfl, ?_, fun h => ?_⟩
  · cases hs : incident.status with
    | OPEN => exact .resolveOpen
    | ACKNOWLEDGED => exact .resolve
    | RESOLVED => exact absurd hs hstatus
  · rw [haction] at h
    exact absurd h (by decide)

/-- The entry of an accepted `acknowledge` of an open incident. -/
theorem tells_acknowledged {incident : IncidentEntity} {e : CreateAuditEntryInput}
    (hopen : incident.status = .OPEN) (haction : e.action = "incident.acknowledged")
    (hprevious : e.metadata.lookup "previousStatus" = some (.str IncidentStatus.OPEN.value)) :
    e.Tells incident.status .ACKNOWLEDGED := by
  rw [hopen]
  exact ⟨by rw [haction]; rfl, .acknowledge, fun _ => hprevious⟩

theorem eq_open {status : IncidentStatus} (hunresolved : status ≠ .RESOLVED)
    (hne : status ≠ .ACKNOWLEDGED) : status = .OPEN := by
  cases status with
  | OPEN => rfl
  | ACKNOWLEDGED => exact absurd rfl hne
  | RESOLVED => exact absurd rfl hunresolved

/-- A transaction is truthful exactly if it acknowledges no acknowledged incident. -/
theorem truthful_iff (h : IncidentWrites b command b') (hb : b.Unclaimed) :
    Truthful b b' ↔ AcknowledgesOnce b command := by
  cases h with
  | quiet hcommand hincidents htrail hnew =>
    exact iff_of_true (truthful_of_quiet htrail hnew (.of_eq .refl hincidents)) hcommand
  | opened hcommand hopen hunclaimed hincidents htrail hnew =>
    exact iff_of_true (truthful_of_quiet htrail hnew (.insert .refl hincidents)) hcommand
  | @acknowledged _ incident row operatorId e hincident hstatus hincidents hid hrow htrail haction
      haccepts hprevious =>
    constructor
    · intro htruthful incident' hincident' hacknowledged
      cases (Table.lookup_of_mem hincident).symm.trans hincident'
      obtain ⟨i, hi, haccepts', after, htells⟩ := htruthful.entries e
        (by rw [htrail, List.drop_left]; exact List.mem_singleton_self e) (by rw [haction]; rfl)
      -- The entry says open, and it is about this incident.
      have hsame := CreateAuditEntryInput.eq_of_accepts haccepts haccepts'
      cases b.incidents.key_injOn hincident hi hsame
      have hopen := htells.previous haction
      rw [hprevious, hacknowledged] at hopen
      exact absurd hopen (by decide)
    · intro hcommand
      have hopen := eq_open hstatus (hcommand incident (Table.lookup_of_mem hincident))
      exact truthful_of_entry htrail hincident haccepts (tells_acknowledged hopen haction hprevious)
        (hincidents ▸ .save .refl hincident hid (keepsHand_of_open hb hincident (.inl hopen)))
  | resolved hincident hstatus hincidents hid hrow hhand htrail haction haccepts =>
    exact iff_of_true (truthful_of_entry htrail hincident haccepts (tells_resolved hstatus haction)
      (hincidents ▸ .save .refl hincident hid (keepsHand_of_open hb hincident hhand))) trivial

end IncidentWrites

namespace Chronicled

variable {b₀ b b' : Books} {entries new : List CreateAuditEntryInput}

theorem filter_quiet (hnew : ∀ e ∈ new, acceptedStatus e.action = none) (incidentId : Uuid) :
    (entries ++ new).filter (·.accepts incidentId) = entries.filter (·.accepts incidentId) := by
  have hnone : new.filter (·.accepts incidentId) = [] := by
    refine List.filter_eq_nil_iff.mpr fun e he => ?_
    rw [CreateAuditEntryInput.accepts_eq_false (hnew e he)]
    exact Bool.false_ne_true
  rw [List.filter_append, hnone, List.append_nil]

/-- Entries of no accepted command, while incidents stay. -/
theorem quiet (h : Chronicled b₀ b entries) (hincidents : b'.incidents = b.incidents)
    (htrail : b'.trail = b.trail ++ new) (hnew : ∀ e ∈ new, acceptedStatus e.action = none) :
    Chronicled b₀ b' (entries ++ new) := by
  refine ⟨by rw [htrail, h.trail, List.append_assoc], fun e he hsome => ?_, fun i hi => ?_,
    hincidents ▸ h.kept⟩
  · rw [hincidents]
    rcases List.mem_append.mp he with he | he
    · exact h.about e he hsome
    · rw [hnew e he] at hsome
      cases hsome
  · rw [filter_quiet hnew]
    exact h.chain i (hincidents ▸ hi)

/-- An open incident is inserted : there are no entries about it yet. -/
theorem opened (h : Chronicled b₀ b entries) {incident : IncidentEntity}
    (hopen : incident.status = .OPEN) (hincidents : b.incidents.insert incident = some b'.incidents)
    (htrail : b'.trail = b.trail ++ new) (hnew : ∀ e ∈ new, acceptedStatus e.action = none) :
    Chronicled b₀ b' (entries ++ new) := by
  have hfresh := (Table.insert_eq_some hincidents).2
  have hquiet : Chronicled b₀ { b' with incidents := b.incidents } (entries ++ new) :=
    h.quiet rfl htrail hnew
  refine ⟨hquiet.trail, fun e he hsome => ?_, fun i hi => ?_,
    h.kept.trans .trans (.insert .refl hincidents)⟩
  · obtain ⟨i, hi, haccepts⟩ := hquiet.about e he hsome
    exact ⟨i, (Table.mem_insert hincidents).mpr (.inl hi), haccepts⟩
  · rcases (Table.mem_insert hincidents).mp hi with hi | rfl
    · exact hquiet.chain i hi
    · have hfirst : b₀.firstStatus i.id = .OPEN := by
        rw [Books.firstStatus, Table.lookup_eq_none.mpr]
        · rfl
        · intro i₀ hi₀ hid
          obtain ⟨j, hj, hkey, -⟩ := h.kept i₀ hi₀
          exact hfresh j hj (hkey.trans hid)
      have hnone : entries.filter (·.accepts i.id) = [] := by
        refine List.filter_eq_nil_iff.mpr fun e he haccepts => ?_
        obtain ⟨j, hj, haccepts'⟩ := h.about e he (CreateAuditEntryInput.isSome_of_accepts haccepts)
        exact hfresh j hj (CreateAuditEntryInput.eq_of_accepts haccepts' haccepts)
      rw [filter_quiet hnew, hnone, hfirst, hopen]
      exact .nil

/-- An accepted command saves its incident and adds its entry to the chain. -/
theorem settled (h : Chronicled b₀ b entries) {incident row : IncidentEntity}
    {e : CreateAuditEntryInput} (hincident : incident ∈ b.incidents.rows)
    (hincidents : b'.incidents = b.incidents.save row) (hid : row.id = incident.id)
    (htrail : b'.trail = b.trail ++ [e]) (haccepts : e.accepts incident.id = true)
    (htells : e.Tells incident.status row.status)
    (hkept : Table.Advances KeepsHand b.incidents b'.incidents) :
    Chronicled b₀ b' (entries ++ [e]) := by
  refine ⟨by rw [htrail, h.trail, List.append_assoc], fun e' he hsome => ?_, fun i hi => ?_,
    h.kept.trans .trans hkept⟩
  · rcases List.mem_append.mp he with he | he
    · obtain ⟨i, hi, hi'⟩ := h.about e' he hsome
      obtain ⟨j, hj, hkey, -⟩ := hkept i hi
      exact ⟨j, hj, hkey ▸ hi'⟩
    · rw [List.mem_singleton.mp he]
      exact ⟨row, hincidents ▸ Table.mem_save.mpr (.inl rfl), hid ▸ haccepts⟩
  · rw [List.filter_append]
    rcases Table.mem_save.mp (hincidents ▸ hi) with rfl | ⟨hi, hne⟩
    · rw [hid, List.filter_singleton, haccepts]
      exact .concat (h.chain incident hincident) htells
    · have hother : e.accepts i.id = false := by
        refine Bool.eq_false_iff.mpr fun haccepts' => hne ?_
        exact (CreateAuditEntryInput.eq_of_accepts haccepts' haccepts).trans hid.symm
      rw [List.filter_singleton, hother]
      exact (List.append_nil _).symm ▸ h.chain i hi

/-- Every truthful transaction continues the chains. -/
theorem writes (h : Chronicled b₀ b entries) {command : Command}
    (hwrites : IncidentWrites b command b') (hb : b.Unclaimed)
    (hcommand : AcknowledgesOnce b command) : ∃ entries', Chronicled b₀ b' entries' := by
  have hkept := ((hwrites.truthful_iff hb).mpr hcommand).kept
  cases hwrites with
  | quiet _ hincidents htrail hnew => exact ⟨_, h.quiet hincidents htrail hnew⟩
  | opened _ hopen hunclaimed hincidents htrail hnew =>
    exact ⟨_, h.opened hopen hincidents htrail hnew⟩
  | @acknowledged _ incident row operatorId e hincident hstatus hincidents hid hrow htrail haction
      haccepts hprevious =>
    have hopen := IncidentWrites.eq_open hstatus (hcommand incident (Table.lookup_of_mem hincident))
    exact ⟨_, h.settled hincident hincidents hid htrail haccepts
      (hrow ▸ IncidentWrites.tells_acknowledged hopen haction hprevious) hkept⟩
  | resolved hincident hstatus hincidents hid hrow hhand htrail haction haccepts =>
    exact ⟨_, h.settled hincident hincidents hid htrail haccepts
      (hrow ▸ IncidentWrites.tells_resolved hstatus haction) hkept⟩

/-- Nothing is logged yet. -/
theorem init (b : Books) : Chronicled b b [] := by
  refine ⟨(List.append_nil _).symm, by simp, fun i hi => ?_, .of_eq .refl rfl⟩
  have hfirst : b.firstStatus i.id = i.status := by
    rw [Books.firstStatus, Table.lookup_of_mem hi]
    rfl
  rw [hfirst]
  exact .nil

end Chronicled

namespace CommandSession

/-- The next command acknowledges no acknowledged incident. -/
def NextAcknowledgesOnce (s : CommandSession) (l : Command × (ℕ → Env)) : Prop :=
  AcknowledgesOnce s.world.books l.1

instance (s : CommandSession) : DecidablePred s.NextAcknowledgesOnce :=
  fun l => inferInstanceAs (Decidable (AcknowledgesOnce _ l.1))

/-- In every session from empty tables open incidents are unclaimed. -/
theorem unclaimed {s : CommandSession}
    (h : Reachable step (Runs fun _ => True) (init .empty) s) : s.world.books.Unclaimed :=
  invariant (I := fun b _ => b.Unclaimed) (fun _ _ _ _ _ hb _ hw => hw.incidentWrites.unclaimed hb)
    .empty h

end CommandSession

/-- The audit trail of incidents. From tables whose open incidents are unclaimed, and through any
session that acknowledges no acknowledged incident, the entries about each incident lead from
the status it began with to the stored one and nobody who acknowledged is replaced; and the next
command tells the truth and replaces nobody exactly if it acknowledges no acknowledged
incident. -/
theorem incident_history {w : World} {s : CommandSession} (hw : w.books.Unclaimed)
    (h : Reachable CommandSession.step CommandSession.NextAcknowledgesOnce
      (CommandSession.init w) s) :
    (∃ entries, Chronicled w.books s.world.books entries) ∧ ∀ l s', s.step l = some s' →
      (Truthful s.world.books s'.world.books ↔ s.NextAcknowledgesOnce l) := by
  obtain ⟨hunclaimed, hchronicled⟩ : s.world.books.Unclaimed ∧
      ∃ entries, Chronicled w.books s.world.books entries := by
    refine Reachable.invariant (I := fun s => s.world.books.Unclaimed ∧
      ∃ entries, Chronicled w.books s.world.books entries) ?_ ⟨hw, [], .init w.books⟩ h
    rintro s l s' ⟨hs, entries, hentries⟩ hl hstep
    obtain ⟨r, hwrites, -⟩ := CommandSession.step_writes hstep
    exact ⟨hwrites.incidentWrites.unclaimed hs, hentries.writes hwrites.incidentWrites hs hl⟩
  refine ⟨hchronicled, fun l s' hstep => ?_⟩
  obtain ⟨r, hwrites, -⟩ := CommandSession.step_writes hstep
  exact hwrites.incidentWrites.truthful_iff hunclaimed

theorem incident_history_resolved : ∃ (s : CommandSession) (incident : IncidentEntity)
    (entries : List CreateAuditEntryInput), incident ∈ s.world.incidents.rows ∧
      incident.status = .RESOLVED ∧ Chronicled World.empty.books s.world.books entries := by
  obtain ⟨s, hs, incident, hincident, hresolved⟩ :
      ∃ s, Reachable CommandSession.step CommandSession.NextAcknowledgesOnce
        (CommandSession.init .empty) s ∧
        ∃ incident ∈ s.world.incidents.rows, incident.status = .RESOLVED :=
    exists_reachable_of_execute _
      [(.createAlert ⟨none, "probe", .CRITICAL, "disk full", "no space left", "alice", false⟩,
          CommandSession.smooth 1),
        (.acknowledge 2 "bob", CommandSession.smooth 10),
        (.resolve 2 "carol", CommandSession.smooth 20),
        (.acknowledge 2 "dave", CommandSession.smooth 30)] _ (by decide)
  obtain ⟨⟨entries, hentries⟩, -⟩ := incident_history .empty hs
  exact ⟨s, incident, entries, hincident, hresolved, hentries⟩

/-- An incident is acknowledged twice, and the second entry says that it was open. -/
theorem not_incident_history : ¬∀ s l s', Reachable CommandSession.step
    (CommandSession.Runs fun _ => True) (CommandSession.init .empty) s → s.step l = some s' →
      Truthful s.world.books s'.world.books := by
  intro h
  obtain ⟨s, hs, s', hstep, e, he, haction, hopen, hacknowledged⟩ :
      ∃ s, Reachable CommandSession.step (CommandSession.Runs fun _ => True)
        (CommandSession.init .empty) s ∧
        ∃ s' ∈ s.step (.acknowledge 2 "carol", CommandSession.smooth 20),
          ∃ e ∈ s'.world.books.trail.drop s.world.books.trail.length,
            e.action = "incident.acknowledged" ∧
              e.metadata.lookup "previousStatus" = some (.str "open") ∧
                ∀ i ∈ s.world.books.incidents.rows, i.status = .ACKNOWLEDGED :=
    exists_reachable_of_execute _
      [(.createAlert ⟨none, "probe", .CRITICAL, "disk full", "no space left", "alice", false⟩,
          CommandSession.smooth 1),
        (.acknowledge 2 "bob", CommandSession.smooth 10)] _ (by decide)
  obtain ⟨i, hi, -, after, htells⟩ := (h s _ s' hs hstep).entries e he (by rw [haction]; rfl)
  have hprevious := htells.previous haction
  rw [hopen, hacknowledged i hi] at hprevious
  exact absurd hprevious (by decide)

end RealtimeOps
