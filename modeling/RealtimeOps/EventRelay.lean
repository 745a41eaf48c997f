import RealtimeOps.Interleaving.Redelivery
import RealtimeOps.Refinement

/-!
# From the exchange to the sockets

What is published on `ops.events` waits in the queue of the realtime gateway. The gateway broadcasts
each event as it is handed it, and settles it after that, so what it had in hand when its connection
is lost comes back and is broadcast again. No event is lost on this way, and none overtakes an
earlier one that has not been broadcast yet (`events_relayed`).

A socket stays in the room `operators` for as long as it is connected, whatever it asks for, so it
hears every event that leaves the queue meanwhile, in the order of publication
(`operator_hears_all`).
-/

set_option autoImplicit false

namespace RealtimeOps

open Interleaving RealtimeEventsGateway

namespace Deployment

variable {site : Site} {ms : List SiteMove} {s s' : Deployment} {m : SiteMove} {n : ℕ}

/-! ## The queue -/

/-- The first `n` events have been broadcast. What is not settled is in hand or waiting, in the
order of publication. -/
structure Relayed (s : Deployment) (n : ℕ) : Prop where
  place : ∃ settled, s.world.events = settled ++ (s.queue.unsettled.map Published.event ++
    s.queue.waiting.map Published.event) ∧ settled.length + s.queue.unsettled.length ≤ n
  le : n ≤ s.world.events.length

/-- What a run broadcasts from `s` to `s'`, with the first `n` events broadcast before and the first
`n'` after. -/
structure Relay (s : Deployment) (n : ℕ) (s' : Deployment) (n' : ℕ) (told : List Published) :
    Prop where
  events : s.world.events <+: s'.world.events
  queue : s'.queue.told = s.queue.told ++ told
  tells : Retells s'.world.events n n' (told.map Published.event)

theorem Relay.refl (s : Deployment) (n : ℕ) : s.Relay n s n [] :=
  ⟨List.prefix_refl _, (List.append_nil _).symm, .nil⟩

theorem Relay.trans {s'' : Deployment} {n' n'' : ℕ} {told told' : List Published}
    (h : s.Relay n s' n' told) (h' : s'.Relay n' s'' n'' told') :
    s.Relay n s'' n'' (told ++ told') where
  events := h.events.trans h'.events
  queue := by rw [h'.queue, h.queue, List.append_assoc]
  tells := by
    rw [List.map_append]
    exact (h.tells.mono h'.events).trans h'.tells

/-- A move that publishes nothing and hands nothing to the gateway. -/
theorem Relayed.keep (h : s.Relayed n) (hevents : s'.world.events = s.world.events)
    (hqueue : s'.queue = s.queue) :
    ∃ n' told, s'.Relayed n' ∧ s.Relay n s' n' told :=
  ⟨n, [], ⟨by rw [hevents, hqueue]; exact h.place, hevents ▸ h.le⟩, by rw [hevents], by
    rw [hqueue, List.append_nil], .nil⟩

/-- A call adds to what was published. -/
theorem events_handle (e : Env) (op : SiteOp) (b : Backend) :
    ∃ events, (Backend.handle e op b).2.world.events = b.world.events ++ events := by
  have hsame : SameStores b b := ⟨rfl, rfl, le_rfl, le_rfl⟩
  obtain ⟨events, hevents, -⟩ := (hsame.handle e op).2.2
  exact ⟨events, hevents⟩

/-- What a thread publishes goes to the end of the queue. -/
theorem Relayed.route (h : s.Relayed n) {i : ℕ} {e : Env}
    {b : Named calling HttpFailure HttpBody Env Backend}
    (hb : s.backend.advance Backend.handle i e = some b) :
    ∃ n' told, (s.route i b).Relayed n' ∧ s.Relay n (s.route i b) n' told := by
  obtain ⟨op, k, hk, rfl⟩ := Named.advance_eq_some hb
  obtain ⟨events, hevents⟩ := events_handle e op s.backend.world
  rw [route_eq hevents]
  obtain ⟨⟨settled, hplace, hle⟩, hn⟩ := h
  change s.backend.world.world.events = _ at hplace
  change n ≤ s.backend.world.world.events.length at hn
  refine ⟨n, [], ⟨⟨settled, ?_, hle⟩, ?_⟩, ⟨events, hevents.symm⟩, ?_, .nil⟩
  · change (Backend.handle e op s.backend.world).2.world.events = _
    rw [hevents, hplace]
    simp [EventQueue.push, Function.comp_def]
  · change n ≤ (Backend.handle e op s.backend.world).2.world.events.length
    rw [hevents, List.length_append]
    exact hn.trans (Nat.le_add_right _ _)
  · exact (List.append_nil _).symm

/-- The gateway is handed the first event that waits : it is new, or it has come back. -/
theorem Relayed.take (h : s.Relayed n) {x : Published} {queue : EventQueue}
    (hq : s.queue.take = some (x, queue)) (server : Server) :
    ∃ n', Relayed { s with queue, server } n' ∧ s.Relay n { s with queue, server } n' [x] := by
  obtain ⟨hwaiting, hqueue⟩ := EventQueue.take_eq_some hq
  obtain ⟨⟨settled, hplace, hle⟩, hn⟩ := h
  have hplace' : s.world.events = settled ++ ((s.queue.unsettled ++ [x]).map Published.event ++
      queue.waiting.map Published.event) := by
    rw [hplace, hwaiting]
    simp
  have hx : s.world.events[settled.length + s.queue.unsettled.length]? = some x.event := by
    rw [hplace, hwaiting, List.getElem?_append_right (Nat.le_add_right _ _),
      List.getElem?_append_right (by simp)]
    simp
  have hrelay : ∀ {n'}, Retells s.world.events n n' [x.event] →
      settled.length + s.queue.unsettled.length + 1 ≤ n' → n' ≤ s.world.events.length →
      Relayed { s with queue, server } n' ∧ s.Relay n { s with queue, server } n' [x] := by
    intro n' htells hn' hlen
    refine ⟨⟨⟨settled, ?_, ?_⟩, hlen⟩, ⟨List.prefix_refl _, ?_, htells⟩⟩
    · rw [hqueue]
      exact hplace'
    · rw [hqueue, List.length_append]
      exact hn'
    · rw [hqueue]
  rcases hle.eq_or_lt with heq | hlt
  · rw [heq] at hx
    refine ⟨n + 1, hrelay (Retells.nil.next hx) (by omega) ?_⟩
    exact (List.getElem?_eq_some_iff.mp hx).1
  · exact ⟨n, hrelay (Retells.nil.again hlt hx) hlt hn⟩

/-- Every move relays. -/
theorem Relayed.step (h : s.Relayed n) (hs : site.step s m = some s') :
    ∃ n' told, s'.Relayed n' ∧ s.Relay n s' n' told := by
  cases Site.step_eq_some.mp hs with
  | request hb =>
    obtain ⟨-, rfl⟩ := Named.spawn_eq_some hb
    exact h.keep rfl rfl
  | deliver _ hb =>
    obtain ⟨-, rfl⟩ := Named.spawn_eq_some hb
    exact h.keep rfl rfl
  | step _ hb => exact h.route hb
  | stop hb =>
    obtain ⟨-, rfl⟩ := Named.halt_eq_some hb
    exact h.keep rfl rfl
  | redeliver hw =>
    obtain ⟨d, -, rfl⟩ := Option.map_eq_some_iff.mp hw
    exact h.keep rfl rfl
  | expire hw =>
    obtain ⟨lock, -, -, rfl⟩ := expire_eq_some.mp hw
    exact h.keep rfl rfl
  | broadcast hq =>
    obtain ⟨n', hrelayed, hrelay⟩ := h.take hq _
    exact ⟨n', _, hrelayed, hrelay⟩
  | settle hq =>
    obtain ⟨x, hunsettled, hq⟩ := EventQueue.settle_eq_some hq
    obtain ⟨⟨settled, hplace, hle⟩, hn⟩ := h
    refine ⟨n, [], ⟨⟨settled ++ [x.event], ?_, ?_⟩, hn⟩, List.prefix_refl _, ?_, .nil⟩
    · rw [hq]
      change s.world.events = _
      rw [hplace, hunsettled]
      simp
    · rw [hunsettled, List.length_cons] at hle
      rw [List.length_append, List.length_singleton, Nat.add_assoc, Nat.add_comm 1]
      exact hle
    · rw [hq, List.append_nil]
  | recover =>
    obtain ⟨⟨settled, hplace, hle⟩, hn⟩ := h
    refine ⟨n, [], ⟨⟨settled, ?_, ?_⟩, hn⟩, List.prefix_refl _, (List.append_nil _).symm, .nil⟩
    · change s.world.events = _
      rw [hplace]
      simp [EventQueue.recover]
    · exact (Nat.le_add_right _ _).trans hle
  | socket => exact h.keep rfl rfl

/-! ## The sockets -/

/-- The socket is connected, and in the room of the operators. -/
def Listens (c : SocketId) (s : Server) : Prop :=
  s.connected c = true ∧ .named "operators" ∈ s.rooms c

/-- The socket has disconnected. -/
def Left (c : SocketId) (s : Server) : Prop :=
  (s.sockets c).isSome ∧ s.connected c = false

section Sockets

variable {gateway : RealtimeEventsGateway} {u u' : Server} {move : RealtimeMove} {c : SocketId}

/-- A socket that has disconnected stays away. -/
theorem Left.step (h : Left c u) (hs : gateway.step u move = some u') : Left c u' := by
  by_cases hc : client move = some c
  · have hno : u.connected c ≠ true := by simp [h.2]
    cases move with
    | connect d handshake now =>
      cases hc
      obtain ⟨hnone, -⟩ := step_connect.mp hs
      rw [← Option.not_isSome, h.1] at hnone
      cases hnone
    | subscribe d channels =>
      cases hc
      exact absurd (step_subscribe.mp hs).1 hno
    | unsubscribe d channels =>
      cases hc
      exact absurd (step_unsubscribe.mp hs).1 hno
    | disconnect d =>
      cases hc
      exact absurd (step_disconnect.mp hs).1 hno
    | broadcast => cases hc
  · obtain ⟨hsome, hconnected, -⟩ := step_of_ne hc hs
    exact ⟨hsome ▸ h.1, hconnected.trans h.2⟩

/-- No channel leads out of the room of the operators : only who disconnects leaves it. -/
theorem Listens.step (h : Listens c u) (hs : gateway.step u move = some u') :
    Listens c u' ∨ Left c u' := by
  by_cases hc : client move = some c
  · have hsome : (u.sockets c).isSome := Server.isSome_of_connected h.1
    cases move with
    | connect d handshake now =>
      cases hc
      obtain ⟨hnone, -⟩ := step_connect.mp hs
      rw [← Option.not_isSome, hsome] at hnone
      cases hnone
    | subscribe d channels =>
      cases hc
      obtain ⟨-, rfl⟩ := step_subscribe.mp hs
      refine .inl ⟨(subscribe_keeps c channels u c).2.trans h.1, ?_⟩
      exact (mem_rooms_subscribe _ _).mpr (.inl h.2)
    | unsubscribe d channels =>
      cases hc
      obtain ⟨-, rfl⟩ := step_unsubscribe.mp hs
      refine .inl ⟨(unsubscribe_keeps c channels u c).2.trans h.1, ?_⟩
      refine (mem_rooms_unsubscribe _ _).mpr ⟨h.2, ?_⟩
      rintro ⟨-, channel, -, hroom⟩
      have hknown : "operators" ∉ CHANNEL_TO_ROOM.map Prod.fst := by decide
      exact hknown (roomOf_eq_named.mp hroom).2
    | disconnect d =>
      cases hc
      obtain ⟨-, rfl⟩ := step_disconnect.mp hs
      refine .inr ⟨?_, ?_⟩
      · simpa [Server.disconnect] using hsome
      · simp [Server.connected_disconnect]
    | broadcast => cases hc
  · obtain ⟨-, hconnected, hrooms⟩ := step_of_ne hc hs
    exact .inl ⟨hconnected.trans h.1, hrooms ▸ h.2⟩

/-- Who is connected was accepted, and has been in the room of the operators since. -/
def AllListen (s : Server) : Prop :=
  ∀ c, s.connected c = true → .named "operators" ∈ s.rooms c

theorem AllListen.step (h : AllListen u) (hs : gateway.step u move = some u') :
    AllListen u' := by
  intro c hc'
  by_cases hc : u.connected c = true
  · rcases Listens.step ⟨hc, h c hc⟩ hs with hlistens | hleft
    · exact hlistens.2
    · cases hc'.symm.trans hleft.2
  rw [Bool.not_eq_true] at hc
  by_cases hown : client move = some c
  · cases move with
    | connect d handshake now =>
      cases hown
      obtain ⟨-, rfl⟩ := step_connect.mp hs
      obtain ⟨-, hconnected, hrooms⟩ := handleConnection_accept gateway c handshake now u
      exact (hrooms _).mpr ⟨hconnected.mp hc', rfl⟩
    | subscribe d channels =>
      cases hown
      cases hc.symm.trans (step_subscribe.mp hs).1
    | unsubscribe d channels =>
      cases hown
      cases hc.symm.trans (step_unsubscribe.mp hs).1
    | disconnect d =>
      cases hown
      cases hc.symm.trans (step_disconnect.mp hs).1
    | broadcast => cases hown
  · obtain ⟨-, hconnected, -⟩ := step_of_ne hown hs
    cases hc'.symm.trans (hconnected.trans hc)

/-- Who is in the room of the operators hears a broadcast. -/
theorem Listens.heard_broadcast (h : Listens c u) {event : Event}
    (htopic : event.topic ∉ Server.RESERVED_EVENTS) (now : Date) :
    ∃ k, (afterBroadcast event.topic event.payload (some event.emittedAt) now u).heard c =
      u.heard c ++ List.replicate (k + 1) event := by
  rw [RealtimeEventsGateway.heard_broadcast, arrivals, if_neg htopic, copies, if_pos h.2,
    Nat.add_comm]
  exact ⟨_, rfl⟩

end Sockets

/-- The socket has heard what was broadcast, and has been in the room of the operators all the
time, or it has left. -/
def Heard (c : SocketId) (s s' : Deployment) (told : List Published) : Prop :=
  Left c s'.server ∨ Listens c s'.server ∧ ∃ events,
    s'.server.heard c = s.server.heard c ++ events ∧
      (told.map Published.event).Sublist events ∧ events ⊆ told.map Published.event

/-- A move keeps what a socket hears with what is broadcast. -/
theorem Heard.step {s₀ : Deployment} {c : SocketId} {told told' : List Published}
    (h : Heard c s₀ s told) (hs : site.step s m = some s')
    (htold : s'.queue.told = s.queue.told ++ told')
    (htopics : ∀ x ∈ told', x.event.topic ∉ Server.RESERVED_EVENTS) :
    Heard c s₀ s' (told ++ told') := by
  have hkeep : s'.server = s.server → s'.queue.told = s.queue.told →
      Heard c s₀ s' (told ++ told') := by
    intro hserver hqueue
    rw [hqueue, List.self_eq_append_right] at htold
    rw [htold, List.append_nil, Heard, hserver]
    exact h
  cases Site.step_eq_some.mp hs with
  | broadcast hq =>
    obtain ⟨-, hqueue⟩ := EventQueue.take_eq_some hq
    rw [hqueue, List.append_cancel_left_eq] at htold
    subst htold
    rename_i now x queue
    obtain ⟨hsome, hconnected, hrooms⟩ :=
      broadcast_keeps x.event.topic x.event.payload (some x.event.emittedAt) now s.server c
    rcases h with hleft | ⟨hlistens, events, hheard, hsub, honly⟩
    · exact .inl ⟨hsome ▸ hleft.1, hconnected.trans hleft.2⟩
    · obtain ⟨k, hk⟩ := hlistens.heard_broadcast (htopics x (List.mem_singleton_self x)) now
      refine .inr ⟨⟨hconnected.trans hlistens.1, hrooms ▸ hlistens.2⟩, ?_⟩
      refine ⟨events ++ List.replicate (k + 1) x.event, ?_, ?_⟩
      · dsimp only
        rw [hk, hheard, List.append_assoc]
      · rw [List.map_append, List.map_singleton]
        refine ⟨hsub.append ?_, List.append_subset.mpr ⟨?_, ?_⟩⟩
        · rw [List.replicate_succ]
          exact List.singleton_sublist.mpr List.mem_cons_self
        · exact List.subset_append_of_subset_left _ honly
        · intro event hevent
          rw [List.eq_of_mem_replicate hevent]
          exact List.mem_append_right _ (List.mem_singleton_self _)
  | @socket move server hof hu =>
    rw [List.self_eq_append_right] at htold
    rw [htold, List.append_nil]
    rcases h with hleft | ⟨hlistens, events, hheard, hsub, honly⟩
    · exact .inl (hleft.step hu)
    · refine (hlistens.step hu).symm.imp_right fun hlistens => ⟨hlistens, events, ?_, hsub, honly⟩
      rw [heard_step hu, ← hheard]
      cases move with
      | broadcast => cases hof
      | connect | subscribe | unsubscribe | disconnect => exact List.append_nil _
  | settle hq =>
    obtain ⟨x, -, hq⟩ := EventQueue.settle_eq_some hq
    exact hkeep rfl (by rw [hq])
  | request | deliver | step | stop | redeliver | expire | recover => exact hkeep rfl rfl

/-! ## Runs -/

/-- A run relays, and who listens from its start on hears what it broadcasts, as no event is one of
Socket.IO itself. -/
theorem Relayed.run (c : SocketId) : ∀ {ms : List SiteMove} {s s' : Deployment} {n : ℕ},
    s.Relayed n → ms.foldlM site.step s = some s' →
    ∃ n' told, s'.Relayed n' ∧ s.Relay n s' n' told ∧
      ((∀ x ∈ s'.world.events, x.topic ∉ Server.RESERVED_EVENTS) →
        ∀ {s₀ told₀}, Heard c s₀ s told₀ → Heard c s₀ s' (told₀ ++ told))
  | [], s, s', n, h, hs => by
    cases hs
    refine ⟨n, [], h, .refl s n, fun _ _ _ hheard => ?_⟩
    rw [List.append_nil]
    exact hheard
  | m :: ms, s, s', n, h, hs => by
    obtain ⟨s₁, hs₁, hrest⟩ := Option.bind_eq_some_iff.mp (List.foldlM_cons (m := Option) ▸ hs)
    obtain ⟨n₁, told₁, h₁, hrelay₁⟩ := h.step hs₁
    obtain ⟨n', told, h', hrelay, hheard⟩ := h₁.run c hrest
    refine ⟨n', told₁ ++ told, h', hrelay₁.trans hrelay, fun htopics _ _ hstart => ?_⟩
    rw [← List.append_assoc]
    refine hheard htopics (hstart.step hs₁ hrelay₁.queue fun x hx => htopics _ ?_)
    have hmem := hrelay₁.tells.subset _ (List.mem_map_of_mem hx)
    exact hrelay.events.subset (List.mem_of_mem_take hmem)

theorem relayed_init : Deployment.init.Relayed 0 :=
  ⟨⟨[], rfl, Nat.le_refl 0⟩, Nat.zero_le _⟩

theorem allListen_step (h : AllListen s.server) (hs : site.step s m = some s') :
    AllListen s'.server := by
  cases Site.step_eq_some.mp hs with
  | @broadcast now x =>
    intro c hc
    obtain ⟨-, hconnected, hrooms⟩ :=
      broadcast_keeps x.event.topic x.event.payload (some x.event.emittedAt) now s.server c
    exact hrooms ▸ h c (hconnected.symm.trans hc)
  | socket hof hu => exact h.step hu
  | request | deliver | step | stop | redeliver | expire | settle | recover => exact h

/-- Nothing has come back : what was published was broadcast once, or waits. -/
theorem told_append_step (h : s.queue.told.map Published.event ++
      s.queue.waiting.map Published.event = s.world.events) (hm : m ≠ .recover)
    (hs : site.step s m = some s') : s'.queue.told.map Published.event ++
      s'.queue.waiting.map Published.event = s'.world.events := by
  cases Site.step_eq_some.mp hs with
  | request hb | deliver _ hb =>
    obtain ⟨-, rfl⟩ := Named.spawn_eq_some hb
    exact h
  | @step i e b _ hb =>
    obtain ⟨op, k, hk, rfl⟩ := Named.advance_eq_some hb
    obtain ⟨events, hevents⟩ := events_handle e op s.backend.world
    rw [route_eq hevents]
    change _ = (Backend.handle e op s.backend.world).2.world.events
    change _ = s.backend.world.world.events at h
    rw [hevents, ← h]
    simp [EventQueue.push, Function.comp_def]
  | stop hb =>
    obtain ⟨-, rfl⟩ := Named.halt_eq_some hb
    exact h
  | redeliver hw =>
    obtain ⟨d, -, rfl⟩ := Option.map_eq_some_iff.mp hw
    exact h
  | expire hw =>
    obtain ⟨lock, -, -, rfl⟩ := expire_eq_some.mp hw
    exact h
  | broadcast hq =>
    obtain ⟨hwaiting, hq⟩ := EventQueue.take_eq_some hq
    rw [hwaiting] at h
    rw [hq]
    refine Eq.trans ?_ h
    simp
  | settle hq =>
    obtain ⟨x, -, hq⟩ := EventQueue.settle_eq_some hq
    rw [hq]
    exact h
  | recover => exact absurd rfl hm
  | socket => exact h

end Deployment

open Deployment

/-- In every run of the deployment the realtime gateway broadcasts only what was published, and no
event before all earlier ones; what it has not broadcast waits, in order. If its connection is never
lost, each event is broadcast once. -/
theorem events_relayed {site : Site} {ms : List SiteMove} {s : Deployment}
    (h : ms.foldlM site.step .init = some s) :
    ∃ n, Retells s.world.events 0 n (s.queue.told.map Published.event) ∧
      s.world.events.drop n <:+ s.queue.waiting.map Published.event ∧
      (.recover ∉ ms → s.queue.told.map Published.event ++
        s.queue.waiting.map Published.event = s.world.events) := by
  obtain ⟨n, told, ⟨⟨settled, hplace, hle⟩, -⟩, hrelay, -⟩ := relayed_init.run "" h
  refine ⟨n, ?_, ?_, fun hrecover => ?_⟩
  · rw [hrelay.queue]
    exact hrelay.tells
  · rw [hplace, ← List.append_assoc, List.drop_append, List.drop_eq_nil_of_le (by simpa using hle)]
    exact List.drop_suffix _ _
  · refine foldlM_invariant_of_forall (P := (· ≠ SiteMove.recover))
      (I := fun s => s.queue.told.map Published.event ++ s.queue.waiting.map Published.event =
        s.world.events)
      (fun _ _ _ hm hs hstep => told_append_step hs hm hstep) ?_ rfl h
    rintro m hm rfl
    exact hrecover hm

/-- An operator's socket connects. -/
def watching : List SiteMove :=
  [.socket
    (.connect "a" ⟨⟨some "ops-local-token", none⟩, ⟨.absent, .absent⟩, ⟨.absent, .absent⟩⟩ 0)]

/-- The health of the API gateway is asked for, and its event comes back once. -/
def checkingTwice : List SiteMove :=
  [.request 0 (.api .getHealth (anonymous "/api/v1/health")), .step 0 ⟨1, 0, .resolves⟩,
    .step 0 ⟨2, 0, .resolves⟩, .step 0 ⟨3, 0, .resolves⟩, .broadcast 4, .recover, .broadcast 5]

/-- The event is broadcast twice. -/
theorem events_relayed_again : ∃ s n,
    (watching ++ checkingTwice).foldlM defaultSite.step .init = some s ∧
      s.queue.told.length = 2 ∧
      Retells s.world.events 0 n (s.queue.told.map Published.event) := by
  obtain ⟨s, hs⟩ := Option.isSome_iff_exists.mp
    (by decide : ((watching ++ checkingTwice).foldlM defaultSite.step .init).isSome)
  have htold : ∀ s ∈ (watching ++ checkingTwice).foldlM defaultSite.step .init,
      s.queue.told.length = 2 := by decide
  obtain ⟨n, htells, -, -⟩ := events_relayed hs
  exact ⟨s, n, hs, htold s hs, htells⟩

/-- What a socket that stays connected hears : all that is relayed meanwhile, in its order, and
nothing but what was published. -/
theorem Deployment.hears_relayed {site : Site} {ms ms' : List SiteMove} {s s' : Deployment}
    {c : SocketId} (h : ms.foldlM site.step .init = some s)
    (h' : ms'.foldlM site.step s = some s') (hc : s.server.connected c = true)
    (hc' : s'.server.connected c = true) :
    ∃ n n' events, s.Relayed n ∧ s'.Relayed n' ∧
      s'.server.heard c = s.server.heard c ++ events ∧
      ((s'.world.events.take n').drop n).Sublist events ∧ events ⊆ s'.world.events := by
  have hall : AllListen s.server := by
    refine foldlM_invariant (fun _ _ _ hs hstep => allListen_step hs hstep) ?_ h
    rintro c ⟨⟩
  obtain ⟨n, told₀, hrelayed, -, -⟩ := relayed_init.run c h
  obtain ⟨n', told, hrelayed', hrelay, hheard⟩ := hrelayed.run c h'
  have hstart : Heard c s s [] :=
    .inr ⟨⟨hc, hall c hc⟩, [], (List.append_nil _).symm, List.Sublist.refl _, fun _ => id⟩
  have hrun : (ms ++ ms').foldlM site.step .init = some s' := by
    rw [List.foldlM_append, h]
    exact h'
  obtain ⟨_, -, _, -, hrefines⟩ :=
    (simulates site (· ∈ ms ++ ms') []).reachable ⟨[], List.prefix_refl _, .init⟩
      (reachable_of_foldlM (fun _ _ hm => hm) hrun)
  obtain hleft | ⟨-, events, hevents, hsub, honly⟩ := hheard hrefines.world.unreserved hstart
  · cases hc'.symm.trans hleft.2
  refine ⟨n, n', events, hrelayed, hrelayed', hevents, hrelay.tells.sublist.trans hsub, ?_⟩
  intro event hevent
  exact List.mem_of_mem_take (hrelay.tells.subset _ (honly hevent))

/-- What was published in between and waits no longer was relayed. -/
theorem Deployment.Relayed.news {s s' : Deployment} {n n' : ℕ} {news : List Event}
    (h : s.Relayed n) (h' : s'.Relayed n')
    (hnews : s'.world.events =
      s.world.events ++ news ++ s'.queue.waiting.map Published.event) :
    news.Sublist ((s'.world.events.take n').drop n) := by
  obtain ⟨⟨settled, hplace, hle⟩, hn'⟩ := h'
  have hlen : s.world.events.length + news.length ≤ n' := by
    have hcount := congrArg List.length (hnews.symm.trans hplace)
    simp only [List.length_append, List.length_map] at hcount
    omega
  have htake : s'.world.events.take (s.world.events.length + news.length) =
      s.world.events ++ news := by
    rw [hnews, ← List.length_append, List.take_left]
  have hdrop := List.drop_sublist_drop_left (s.world.events ++ news) h.le
  rw [List.drop_left, ← htake] at hdrop
  exact hdrop.trans ((List.take_sublist_take_left hlen).drop n)

/-- Let a socket be connected in a state of a run and still be connected in a later one. All that it
hears in between was published, and it hears all that was published in between and is no longer
waiting, in the order of publication. -/
theorem operator_hears_all {site : Site} {ms ms' : List SiteMove} {s s' : Deployment}
    {c : SocketId} (h : ms.foldlM site.step .init = some s)
    (h' : ms'.foldlM site.step s = some s') (hc : s.server.connected c = true)
    (hc' : s'.server.connected c = true) :
    ∃ events, s'.server.heard c = s.server.heard c ++ events ∧ events ⊆ s'.world.events ∧
      ∀ news, s'.world.events =
          s.world.events ++ news ++ s'.queue.waiting.map Published.event →
        news.Sublist events := by
  obtain ⟨n, n', events, hrelayed, hrelayed', hheard, hsub, honly⟩ := hears_relayed h h' hc hc'
  exact ⟨events, hheard, honly, fun news hnews => (hrelayed.news hrelayed' hnews).trans hsub⟩

/-- The operator hears of the check, and again when it comes back. -/
theorem operator_hears_all_twice : ∃ s s' events,
    watching.foldlM defaultSite.step .init = some s ∧
      checkingTwice.foldlM defaultSite.step s = some s' ∧
      s'.server.heard "a" = s.server.heard "a" ++ events ∧ events.length = 2 ∧
      [(⟨"system.health", 3, [("source", .str "health-check")]⟩ : Event)].Sublist events := by
  obtain ⟨s, hs⟩ := Option.isSome_iff_exists.mp
    (by decide : (watching.foldlM defaultSite.step .init).isSome)
  have hstart : ∀ s ∈ watching.foldlM defaultSite.step .init, s.server.connected "a" = true ∧
      s.world.events = [] ∧ s.server.heard "a" = [] ∧
      ∃ s' ∈ checkingTwice.foldlM defaultSite.step s, s'.server.connected "a" = true ∧
        s'.world.events = [⟨"system.health", 3, [("source", .str "health-check")]⟩] ∧
        s'.queue.waiting.map Published.event = [] ∧ (s'.server.heard "a").length = 2 := by
    decide
  obtain ⟨hc, hevents, hheard, s', hs', hc', hevents', hwaiting, htwice⟩ := hstart s hs
  have hnews : s'.world.events =
      s.world.events ++ s'.world.events ++ s'.queue.waiting.map Published.event := by
    rw [hevents, hwaiting, List.nil_append, List.append_nil]
  obtain ⟨events, hnew, -, hsub⟩ := operator_hears_all hs hs' hc hc'
  refine ⟨s, s', events, hs, hs', hnew, ?_, hevents' ▸ hsub _ hnews⟩
  rw [hnew, hheard, List.nil_append] at htwice
  exact htwice

end RealtimeOps
