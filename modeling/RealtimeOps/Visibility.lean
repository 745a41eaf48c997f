import RealtimeOps.Deployment
import RealtimeOps.EventOrder
import RealtimeOps.Interleaving.Deletion
import RealtimeOps.Multiplicity
import RealtimeOps.Turns

/-!
# Unauthenticated requests

Leave some requests and handshakes without a valid token out of a run, with the broadcasts of what
these requests published. The rest of the run is possible, and ends with the same tables, counters
and queue : such a request is refused by `OperatorAuthGuard` before it makes a call, or it is for a
public route. `GET /health` of the API gateway is one, and it publishes `system.health`, which
every operator hears. So the run without the requests has the same emissions exactly if no such
event was broadcast (`unauthenticated_invisible`).
-/

set_option autoImplicit false

namespace RealtimeOps

open Interleaving RealtimeEventsGateway

/-! ## Worlds that differ in what was published -/

@[simp] theorem World.linkable_with_events (w : World) (events : List Event)
    (alertId : Option Uuid) : World.Linkable { w with events } alertId ↔ w.Linkable alertId :=
  Iff.rfl

@[simp] theorem World.relate_with_events (w : World) (events : List Event) :
    World.relate { w with events } = w.relate :=
  rfl

/-- What was published before makes no difference to a call. -/
theorem perform_with_events (e : Env) (w : World) (op : Op) (events : List Event) :
    perform e { w with events } op = (perform e w op).map fun x =>
      (x.1, { x.2 with events := events ++ (op.event e.now).toList }) := by
  cases op with
  | insertJob | insertAttempt | insertAlert | insertIncident | insertAuditEntry
  | insertOperatorAction | saveAlert | saveIncident =>
    simp only [perform, Op.event, Option.toList_none, List.append_nil, World.linkable_with_events,
      World.relate_with_events]
    split_ifs <;> simp [Function.comp_def]
  | updateAlert id changes =>
    simp only [perform, Op.event, Option.toList_none, List.append_nil]
    cases w.alerts.lookup id with
    | none => rfl
    | some alert => split_ifs <;> rfl
  | setNX key ttlSeconds =>
    simp only [perform, Op.event, Option.toList_none, List.append_nil]
    cases w.locks.insert ⟨key, e.now + 1000 * ttlSeconds⟩ <;> rfl
  | findAlert id =>
    simp only [perform, Op.event, Option.toList_none, List.append_nil]
    rfl
  | _ => simp [perform, Op.event, Function.comp_def]

/-- The worlds differ in what was published and in the clock at most. -/
def SameButEvents (w w' : World) : Prop :=
  w' = { w with events := w'.events, clock := w'.clock }

theorem SameButEvents.exists {w w' : World} (h : SameButEvents w w') :
    ∃ events clock, w' = { w with events, clock } :=
  ⟨_, _, h⟩

/-- A call has the same answer and publishes the same. -/
theorem SameButEvents.handle {w w' : World} (h : SameButEvents w w') (e : Env) (op : Op) :
    (RealtimeOps.handle e op w').1 = (RealtimeOps.handle e op w).1 ∧
      SameButEvents (RealtimeOps.handle e op w).2 (RealtimeOps.handle e op w').2 ∧
      ∃ events, (RealtimeOps.handle e op w).2.events = w.events ++ events ∧
        (RealtimeOps.handle e op w').2.events = w'.events ++ events := by
  have hclock : ({ w' with clock := e.now } : World) =
      { ({ w with clock := e.now } : World) with events := w'.events } := by
    rw [h]
  unfold RealtimeOps.handle
  dsimp only
  rw [hclock, perform_with_events]
  cases hp : perform e { w with clock := e.now } op with
  | none => exact ⟨rfl, rfl, [], by simp⟩
  | some x =>
    obtain ⟨reply, w₁⟩ := x
    have hevents : w₁.events = w.events ++ (op.event e.now).toList :=
      perform_events (w := { w with clock := e.now }) hp
    dsimp only [Option.map_some]
    split_ifs
    · exact ⟨rfl, rfl, _, hevents, rfl⟩
    · cases e.outcome
      · exact ⟨rfl, rfl, _, hevents, rfl⟩
      · exact ⟨rfl, rfl, [], by simp⟩
      · exact ⟨rfl, rfl, _, hevents, rfl⟩

/-- The stores hold the same, and the clock of the second may be behind. -/
structure SameStores (b b' : Backend) : Prop where
  world : SameButEvents b.world b'.world
  counters : b'.redis.counters = b.redis.counters
  worldClock : b'.world.clock ≤ b.world.clock
  redisClock : b'.redis.clock ≤ b.redis.clock

/-- What a deleted request may do. Only one for the health of the API gateway publishes. -/
def SiteOp.Quiet (health : Prop) : SiteOp → Prop
  | .select | .ping => True
  | .service op =>
    op = .now ∨ health ∧ op = .publish "system.health" [("source", .str "health-check")]
  | .counter _ => False

namespace SameStores

variable {b b' : Backend} {e : Env} {op : SiteOp}

theorem clock_le (h : SameStores b b') : b'.clock ≤ b.clock :=
  max_le_max h.worldClock h.redisClock

/-- A call that is made in both has the same answer and publishes the same. -/
theorem handle (h : SameStores b b') (e : Env) (op : SiteOp) :
    (Backend.handle e op b').1 = (Backend.handle e op b).1 ∧
      SameStores (Backend.handle e op b).2 (Backend.handle e op b').2 ∧
      ∃ events, (Backend.handle e op b).2.world.events = b.world.events ++ events ∧
        (Backend.handle e op b').2.world.events = b'.world.events ++ events := by
  cases op with
  | service op =>
    obtain ⟨hanswer, hworld, hevents⟩ := h.world.handle e op
    refine ⟨by simp only [Backend.handle, hanswer], ⟨hworld, h.counters, ?_, h.redisClock⟩, hevents⟩
    exact (handle_clock e op b'.world).trans_le (handle_clock e op b.world).ge
  | counter op =>
    have hredis : Redis.handle e op b'.redis = Redis.handle e op b.redis := by
      simp only [Redis.handle, h.counters]
    refine ⟨by simp only [Backend.handle, hredis], ⟨h.world, ?_, h.worldClock, ?_⟩, [], ?_, ?_⟩
    · exact congrArg (fun x => x.2.counters) hredis
    · exact (congrArg (fun x => x.2.clock) hredis).le
    · exact (List.append_nil _).symm
    · exact (List.append_nil _).symm
  | select | ping => exact ⟨rfl, h, [], (List.append_nil _).symm, (List.append_nil _).symm⟩

/-- A quiet call that is made in the first only. -/
theorem handle_quiet (h : SameStores b b') {health : Prop} (hop : op.Quiet health)
    (he : b.clock ≤ e.now) : SameStores (Backend.handle e op b).2 b' ∧
      ∃ events, (Backend.handle e op b).2.world.events = b.world.events ++ events ∧
        ∀ event ∈ events, health ∧ event.topic ∉ Server.RESERVED_EVENTS := by
  cases op with
  | service op =>
    have hclock : b.world.clock ≤ (RealtimeOps.handle e op b.world).2.clock :=
      ((le_max_left _ _).trans he).trans (handle_clock e op b.world).ge
    have hstores : ∀ events, (RealtimeOps.handle e op b.world).2 =
        { b.world with events := b.world.events ++ events, clock := e.now } →
        SameStores (Backend.handle e (.service op) b).2 b' := fun events hr =>
      ⟨(congrArg (SameButEvents · b'.world) hr).mpr h.world, h.counters, h.worldClock.trans hclock,
        h.redisClock⟩
    rcases handle_world e op b.world with hr | ⟨reply, hp⟩
    · refine ⟨hstores [] ?_, [], ?_, by simp⟩
      · rw [hr, List.append_nil]
      · exact (congrArg World.events hr).trans (List.append_nil _).symm
    · rcases hop with rfl | ⟨hhealth, rfl⟩
      · have hr := (congrArg Prod.snd (Option.some.inj hp)).symm
        refine ⟨hstores [] ?_, [], ?_, by simp⟩
        · rw [hr, List.append_nil]
        · exact (congrArg World.events hr).trans (List.append_nil _).symm
      · have hr := (congrArg Prod.snd (Option.some.inj hp)).symm
        refine ⟨hstores _ hr, _, congrArg World.events hr, fun event hevent => ⟨hhealth, ?_⟩⟩
        rw [List.mem_singleton.mp hevent]
        exact (by decide : "system.health" ∉ Server.RESERVED_EVENTS)
  | counter op => cases hop
  | select | ping => exact ⟨h, [], (List.append_nil _).symm, by simp⟩

/-! What the environment does is possible in both. -/

theorem withWorld (h : SameStores b b') {w w' : World} (hworld : SameButEvents w w')
    (hclock : w'.clock ≤ w.clock) :
    SameStores { b with world := w } { b' with world := w' } :=
  ⟨hworld, h.counters, hclock, h.redisClock⟩

theorem handOut (h : SameStores b b') (n : ℕ) (message : Message) :
    SameStores
        { b with world := Deployment.handOut n ⟨b.world.nextTag, message⟩ b.world }
        { b' with world := Deployment.handOut n ⟨b.world.nextTag, message⟩ b'.world } ∧
      b'.world.ready = b.world.ready ∧ b'.world.nextTag = b.world.nextTag := by
  obtain ⟨events, clock, hworld⟩ := h.world.exists
  have hclock := h.worldClock
  rw [hworld] at hclock ⊢
  exact ⟨h.withWorld rfl hclock, rfl, rfl⟩

theorem redeliver (h : SameStores b b') {tag : ℕ} {w : World}
    (hs : RealtimeOps.redeliver tag b.world = some w) :
    ∃ w', RealtimeOps.redeliver tag b'.world = some w' ∧
      SameStores { b with world := w } { b' with world := w' } := by
  obtain ⟨d, hd, rfl⟩ := Option.map_eq_some_iff.mp hs
  obtain ⟨events, clock, hworld⟩ := h.world.exists
  have hclock := h.worldClock
  rw [hworld] at hclock ⊢
  exact ⟨_, Option.map_eq_some_iff.mpr ⟨d, hd, rfl⟩, h.withWorld rfl hclock⟩

theorem expire (h : SameStores b b') {key : String} {now : Date} {w : World}
    (hs : RealtimeOps.expire key now b.world = some w) :
    ∃ w', RealtimeOps.expire key now b'.world = some w' ∧
      SameStores { b with world := w } { b' with world := w' } := by
  obtain ⟨lock, hlock, ⟨hover, hnow⟩, rfl⟩ := expire_eq_some.mp hs
  obtain ⟨events, clock, hworld⟩ := h.world.exists
  have hclock := h.worldClock
  rw [hworld] at hclock ⊢
  refine ⟨_, expire_eq_some.mpr ⟨lock, hlock, ⟨hover, ?_⟩, rfl⟩, h.withWorld rfl le_rfl⟩
  exact hclock.trans hnow

end SameStores

/-! ## Requests without a token -/

theorem quiet_now {health : Prop} : ((await .now).embed services).Calls (SiteOp.Quiet health) :=
  (Prog.Calls.await (.inl rfl)).embed

theorem quiet_getHealth {health : Prop} (h : health) :
    HealthService.getHealth.Calls (SiteOp.Quiet health) := by
  have hfalse : ∀ err : HttpFailure, (.ret false : Handling Bool).Calls (SiteOp.Quiet health) :=
    fun _ => trivial
  refine .bind (.tryCatch hfalse (.await_bind trivial fun _ => trivial)) fun _ => ?_
  refine .bind (.tryCatch hfalse (.await_bind trivial fun _ => trivial)) fun _ => ?_
  refine .bind (.tryCatch hfalse (.bind ?_ fun _ => trivial)) fun _ => ?_
  · exact Prog.Calls.embed (.await (.inr ⟨h, rfl⟩))
  · exact quiet_now.bind fun _ => trivial

/-- A request without a token is refused before it makes a call, or asks for the health of a
gateway. -/
theorem quiet_handleRequest {site : Site} {request : HttpRequest} {health : Prop}
    (h : site.carriesToken request = false)
    (hhealth : ∀ r, request = .api .getHealth r → health) :
    (site.handleRequest request).Calls (SiteOp.Quiet health) := by
  cases request with
  | api route r =>
    cases hpublic : route.isPublic with
    | false =>
      have hguard : OperatorAuthGuard.canActivate site.expectedToken ⟨route.isPublic, r⟩ =
          .error "Invalid operator token" := by
        have hinvalid : AuthService.validateToken site.expectedToken
            (OperatorAuthGuard.extractHeader r.headers.token) = false := h
        rw [OperatorAuthGuard.canActivate, hpublic, if_neg Bool.false_ne_true, hinvalid,
          if_neg Bool.false_ne_true]
      rw [Site.handleRequest, Site.authenticate, hguard]
      trivial
    | true =>
      cases route <;> cases hpublic
      exact (quiet_getHealth (hhealth r rfl)).bind fun _ => trivial
  | realtimeHealth r => exact quiet_now.bind fun _ => trivial
  | unrouted r => trivial

/-! ## Sockets -/

section Sockets

variable {gateway : RealtimeEventsGateway} {s s' t : Server} {move : RealtimeMove} {c : SocketId}

/-- What a broadcast of the event emits. -/
def emissionsOf (event : Event) : List Emission :=
  (RealtimeEventsGateway.afterBroadcast event.topic event.payload (some event.emittedAt) 0
    .init).emissions

theorem emissions_broadcast (event : Event) (now : Date) (s : Server) :
    (RealtimeEventsGateway.afterBroadcast event.topic event.payload (some event.emittedAt) now
      s).emissions = s.emissions ++ emissionsOf event := by
  by_cases hreserved : event.topic ∈ Server.RESERVED_EVENTS
  · rw [emissionsOf, afterBroadcast_of_mem hreserved, afterBroadcast_of_mem hreserved]
    exact (List.append_nil _).symm
  · rw [emissionsOf, afterBroadcast_of_notMem hreserved, afterBroadcast_of_notMem hreserved]
    dsimp only
    split_ifs <;> simp [Server.deliver, Server.init]

theorem emissionsOf_ne_nil {event : Event} (h : event.topic ∉ Server.RESERVED_EVENTS) :
    emissionsOf event ≠ [] := by
  rw [emissionsOf, afterBroadcast_of_notMem h]
  dsimp only
  split_ifs <;> simp [Server.deliver]

/-- Sockets emit nothing to a room. -/
theorem emissions_step (hof : move.ofSocket = true) (hs : gateway.step s move = some s') :
    s'.emissions = s.emissions := by
  cases move with
  | connect c handshake now =>
    obtain ⟨-, rfl⟩ := step_connect.mp hs
    rw [handleConnection]
    split_ifs <;> rfl
  | subscribe c channels =>
    obtain ⟨-, rfl⟩ := step_subscribe.mp hs
    exact forChannels_keeps Server.emissions (fun _ _ => rfl) _ _
  | unsubscribe c channels =>
    obtain ⟨-, rfl⟩ := step_unsubscribe.mp hs
    exact forChannels_keeps Server.emissions (fun _ _ => rfl) _ _
  | disconnect c =>
    obtain ⟨-, rfl⟩ := step_disconnect.mp hs
    rfl
  | broadcast => cases hof

/-- A move does the same to its socket whatever the others are. -/
theorem step_own (hs : gateway.step s move = some s') (hc : client move = some c)
    (hsome : (t.sockets c).isSome = (s.sockets c).isSome) (hconn : t.connected c = s.connected c) :
    ∃ t', gateway.step t move = some t' ∧ (t'.sockets c).isSome = (s'.sockets c).isSome ∧
      t'.connected c = s'.connected c := by
  cases move with
  | connect d handshake now =>
    cases hc
    obtain ⟨hnone, rfl⟩ := step_connect.mp hs
    obtain ⟨hsome₁, hconn₁, -⟩ := handleConnection_accept gateway c handshake now s
    obtain ⟨hsome₂, hconn₂, -⟩ := handleConnection_accept gateway c handshake now t
    refine ⟨_, if_pos ?_, hsome₂.trans hsome₁.symm, Bool.eq_iff_iff.mpr (hconn₂.trans hconn₁.symm)⟩
    rwa [← Option.not_isSome, hsome, Option.not_isSome]
  | subscribe d channels =>
    cases hc
    obtain ⟨hc, rfl⟩ := step_subscribe.mp hs
    refine ⟨_, step_subscribe.mpr ⟨hconn.trans hc, rfl⟩, ?_, ?_⟩
    · rw [(subscribe_keeps c channels t c).1, (subscribe_keeps c channels s c).1, hsome]
    · rw [(subscribe_keeps c channels t c).2, (subscribe_keeps c channels s c).2, hconn]
  | unsubscribe d channels =>
    cases hc
    obtain ⟨hc, rfl⟩ := step_unsubscribe.mp hs
    refine ⟨_, step_unsubscribe.mpr ⟨hconn.trans hc, rfl⟩, ?_, ?_⟩
    · rw [(unsubscribe_keeps c channels t c).1, (unsubscribe_keeps c channels s c).1, hsome]
    · rw [(unsubscribe_keeps c channels t c).2, (unsubscribe_keeps c channels s c).2, hconn]
  | disconnect d =>
    cases hc
    obtain ⟨hc, rfl⟩ := step_disconnect.mp hs
    refine ⟨_, if_pos (hconn.trans hc), ?_, ?_⟩
    · simpa [Server.disconnect] using hsome
    · simp [Server.connected_disconnect]
  | broadcast => cases hc

end Sockets

/-! ## Runs without some requests -/

/-- Leave out these requests and sockets, and the broadcasts of what these requests published. -/
def drops (gone : Finset ℕ) (sockets : Finset SocketId) (s : Deployment) : SiteMove → Bool
  | .request i _ | .deliver i _ | .step i _ | .stop i => i ∈ gone
  | .broadcast _ => s.queue.waiting.head?.any fun x => x.publisher ∈ gone
  | .settle => s.queue.unsettled.head?.any fun x => x.publisher ∈ gone
  | .socket move => (client move).any fun c => c ∈ sockets
  | .redeliver _ | .expire _ _ | .recover => false

/-- Only requests and handshakes without a valid token bear these names. -/
def Site.Unauthenticated (site : Site) (gone : Finset ℕ) (sockets : Finset SocketId) :
    SiteMove → Prop
  | .request i request => i ∈ gone → site.carriesToken request = false
  | .deliver i _ => i ∉ gone
  | .socket (.connect c handshake _) =>
    c ∈ sockets → AuthService.validateToken site.realtime.expectedToken (token handshake) = false
  | _ => True

/-- Request `i` asks for the health of the API gateway. -/
def AsksHealth (ms : List SiteMove) (i : ℕ) : Prop :=
  ∃ request, SiteMove.request i (.api .getHealth request) ∈ ms

section Sim

variable {site : Site} {ms : List SiteMove} {gone : Finset ℕ} {sockets : Finset SocketId}
  {s s' t : Deployment} {m : SiteMove} {i : ℕ}

/-- The back ends of a run and of the shorter one. -/
structure Hidden (ms : List SiteMove) (gone : Finset ℕ)
    (b b' : Named calling HttpFailure HttpBody Env Backend) : Prop where
  without : Named.Without (· ∈ gone) SameStores b b'
  quiet : ∀ i ∈ gone, ∀ p, b.threads i = some p → p.Calls (SiteOp.Quiet (AsksHealth ms i))

/-- The messages that no deleted request has published. -/
def left (gone : Finset ℕ) (xs : List Published) : List Published :=
  xs.filter fun x => x.publisher ∉ gone

/-- The messages of a run and of the shorter one. -/
structure Filtered (ms : List SiteMove) (gone : Finset ℕ) (q q' : EventQueue) : Prop where
  waiting : q'.waiting = left gone q.waiting
  unsettled : q'.unsettled = left gone q.unsettled
  told : q'.told = left gone q.told
  health : ∀ x ∈ q.waiting ++ q.unsettled ++ q.told, x.publisher ∈ gone →
    AsksHealth ms x.publisher ∧ x.event.topic ∉ Server.RESERVED_EVENTS

/-- The sockets of a run and of the shorter one. -/
structure Unheard (sockets : Finset SocketId) (s t : Server) : Prop where
  isSome : ∀ c ∉ sockets, (t.sockets c).isSome = (s.sockets c).isSome
  connected : ∀ c ∉ sockets, t.connected c = s.connected c
  out : ∀ c ∈ sockets, s.connected c = false

/-- `t` is `s` without the requests and the sockets. -/
structure Unseen (ms : List SiteMove) (gone : Finset ℕ) (sockets : Finset SocketId)
    (s t : Deployment) : Prop where
  backend : Hidden ms gone s.backend t.backend
  queue : Filtered ms gone s.queue t.queue
  server : Unheard sockets s.server t.server

/-! ### Sockets -/

section

variable {u v u' : Server} {move : RealtimeMove}

theorem Unheard.drop (h : Unheard sockets u v) (hmove : (client move).any (· ∈ sockets) = true)
    (hauth : site.Unauthenticated gone sockets (.socket move))
    (hs : site.realtime.step u move = some u') : Unheard sockets u' v := by
  obtain ⟨c, hc, hmem⟩ := (Option.any_eq_true _ _).mp hmove
  rw [decide_eq_true_eq] at hmem
  have hother : ∀ d, d ≠ c → client move ≠ some d := fun d hd heq =>
    hd (Option.some.inj (heq.symm.trans hc))
  have hout : u'.connected c = false := by
    have hc' := hc
    cases move <;> cases hc' <;>
      simp only [step_connect, step_subscribe, step_unsubscribe, step_disconnect] at hs
    case connect handshake now =>
      rw [← hs.2, handleConnection, hauth hmem, if_neg Bool.false_ne_true,
        Server.connected_disconnect]
      simp
    all_goals exact absurd hs.1 (Bool.eq_false_iff.mp (h.out c hmem))
  refine ⟨fun d hd => ?_, fun d hd => ?_, fun d hd => ?_⟩
  · rw [(step_of_ne (hother d fun heq => hd (heq ▸ hmem)) hs).1]
    exact h.isSome d hd
  · rw [(step_of_ne (hother d fun heq => hd (heq ▸ hmem)) hs).2.1]
    exact h.connected d hd
  · rcases eq_or_ne d c with rfl | hne
    · exact hout
    · rw [(step_of_ne (hother d hne) hs).2.1]
      exact h.out d hd

theorem Unheard.keep (h : Unheard sockets u v) (hof : move.ofSocket = true)
    (hmove : (client move).any (· ∈ sockets) = false)
    (hs : site.realtime.step u move = some u') :
    ∃ v', site.realtime.step v move = some v' ∧ Unheard sockets u' v' := by
  obtain ⟨c, hc⟩ : ∃ c, client move = some c := by
    cases move <;> first | exact ⟨_, rfl⟩ | cases hof
  have hmem : c ∉ sockets := by simpa [hc] using hmove
  obtain ⟨v', hv', hsome, hconn⟩ := step_own hs hc (h.isSome c hmem) (h.connected c hmem)
  have hother : ∀ d, d ≠ c → client move ≠ some d := fun d hd heq =>
    hd (Option.some.inj (heq.symm.trans hc))
  refine ⟨v', hv', fun d hd => ?_, fun d hd => ?_, fun d hd => ?_⟩
  · rcases eq_or_ne d c with rfl | hne
    · exact hsome
    · rw [(step_of_ne (hother d hne) hs).1, (step_of_ne (hother d hne) hv').1]
      exact h.isSome d hd
  · rcases eq_or_ne d c with rfl | hne
    · exact hconn
    · rw [(step_of_ne (hother d hne) hs).2.1, (step_of_ne (hother d hne) hv').2.1]
      exact h.connected d hd
  · rw [(step_of_ne (hother d fun heq => hmem (heq ▸ hd)) hs).2.1]
    exact h.out d hd

/-- Broadcasts connect and disconnect nobody. -/
theorem Unheard.broadcast_left (h : Unheard sockets u v) (event : Event) (now : Date) :
    Unheard sockets (RealtimeEventsGateway.afterBroadcast event.topic event.payload
      (some event.emittedAt) now u) v := by
  refine ⟨fun d hd => ?_, fun d hd => ?_, fun d hd => ?_⟩
  · rw [(broadcast_keeps _ _ _ _ _ _).1]
    exact h.isSome d hd
  · rw [(broadcast_keeps _ _ _ _ _ _).2.1]
    exact h.connected d hd
  · rw [(broadcast_keeps _ _ _ _ _ _).2.1]
    exact h.out d hd

theorem Unheard.broadcast_right (h : Unheard sockets u v) (event : Event) (now : Date) :
    Unheard sockets u (RealtimeEventsGateway.afterBroadcast event.topic event.payload
      (some event.emittedAt) now v) := by
  refine ⟨fun d hd => ?_, fun d hd => ?_, h.out⟩
  · rw [(broadcast_keeps _ _ _ _ _ _).1]
    exact h.isSome d hd
  · rw [(broadcast_keeps _ _ _ _ _ _).2.1]
    exact h.connected d hd

end

/-! ### The back end -/

section

variable {b b' b₁ : Named calling HttpFailure HttpBody Env Backend} {p : Handling HttpBody}

theorem Hidden.quiet_update (h : Hidden ms gone b b')
    (hp : i ∈ gone → p.Calls (SiteOp.Quiet (AsksHealth ms i)))
    (hthreads : b₁.threads = Function.update b.threads i (some p)) :
    ∀ j ∈ gone, ∀ q, b₁.threads j = some q → q.Calls (SiteOp.Quiet (AsksHealth ms j)) := by
  intro j hj q hq
  rw [hthreads] at hq
  rcases eq_or_ne j i with rfl | hne
  · rw [Function.update_self] at hq
    cases hq
    exact hp hj
  · rw [Function.update_of_ne hne] at hq
    exact h.quiet j hj q hq

theorem Hidden.spawn_gone (h : Hidden ms gone b b') (hi : i ∈ gone)
    (hp : p.Calls (SiteOp.Quiet (AsksHealth ms i))) (hs : b.spawn i p = some b₁) :
    Hidden ms gone b₁ b' := by
  refine ⟨h.without.spawn_gone hi hs, ?_⟩
  obtain ⟨-, rfl⟩ := Named.spawn_eq_some hs
  exact h.quiet_update (fun _ => hp) rfl

theorem Hidden.spawn_kept (h : Hidden ms gone b b') (hi : i ∉ gone) (hs : b.spawn i p = some b₁) :
    ∃ b₁', b'.spawn i p = some b₁' ∧ Hidden ms gone b₁ b₁' := by
  obtain ⟨b₁', hs', hwithout⟩ := h.without.spawn_kept hi hs
  obtain ⟨-, rfl⟩ := Named.spawn_eq_some hs
  exact ⟨b₁', hs', hwithout, h.quiet_update (fun hmem => absurd hmem hi) rfl⟩

theorem Hidden.halt_gone {err : HttpFailure} (h : Hidden ms gone b b') (hi : i ∈ gone)
    (hs : b.halt i err = some b₁) : Hidden ms gone b₁ b' := by
  refine ⟨h.without.halt_gone hi hs, ?_⟩
  obtain ⟨-, rfl⟩ := Named.halt_eq_some hs
  exact h.quiet_update (p := .throw err) (fun _ => trivial) rfl

theorem Hidden.halt_kept {err : HttpFailure} (h : Hidden ms gone b b') (hi : i ∉ gone)
    (hs : b.halt i err = some b₁) : ∃ b₁', b'.halt i err = some b₁' ∧ Hidden ms gone b₁ b₁' := by
  obtain ⟨b₁', hs', hwithout⟩ := h.without.halt_kept hi hs
  obtain ⟨-, rfl⟩ := Named.halt_eq_some hs
  exact ⟨b₁', hs', hwithout, h.quiet_update (fun hmem => absurd hmem hi) rfl⟩

/-- A deleted request makes a quiet call. -/
theorem Hidden.advance_gone {e : Env} (h : Hidden ms gone b b') (hi : i ∈ gone)
    (he : b.world.clock ≤ e.now) (hs : b.advance Backend.handle i e = some b₁) :
    Hidden ms gone b₁ b' ∧ ∃ events, b₁.world.world.events = b.world.world.events ++ events ∧
      ∀ event ∈ events, AsksHealth ms i ∧ event.topic ∉ Server.RESERVED_EVENTS := by
  obtain ⟨op, k, hk, rfl⟩ := Named.advance_eq_some hs
  obtain ⟨hop, hcalls⟩ := h.quiet i hi _ hk
  obtain ⟨hstores, hevents⟩ := h.without.world.handle_quiet hop he
  exact ⟨⟨h.without.of_gone hi rfl hstores, h.quiet_update (fun _ => hcalls _) rfl⟩, hevents⟩

/-- Any other thread makes the same call in both. -/
theorem Hidden.advance_kept {e : Env} (h : Hidden ms gone b b') (hi : i ∉ gone)
    (hs : b.advance Backend.handle i e = some b₁) :
    ∃ b₁', b'.advance Backend.handle i e = some b₁' ∧ Hidden ms gone b₁ b₁' ∧
      ∃ events, b₁.world.world.events = b.world.world.events ++ events ∧
        b₁'.world.world.events = b'.world.world.events ++ events := by
  obtain ⟨b₁', hs', hwithout⟩ := h.without.advance_kept hi
    (fun op _ => ⟨(h.without.world.handle e op).1, (h.without.world.handle e op).2.1⟩) hs
  obtain ⟨op, k, hk, rfl⟩ := Named.advance_eq_some hs
  refine ⟨b₁', hs', ⟨hwithout, h.quiet_update (fun hmem => absurd hmem hi) rfl⟩, ?_⟩
  obtain ⟨op', k', hk', rfl⟩ := Named.advance_eq_some hs'
  obtain ⟨rfl, -⟩ := Prog.call.inj
    (Option.some.inj (hk'.symm.trans ((h.without.threads i hi).trans hk)))
  exact (h.without.world.handle e op').2.2

/-- The environment changes both worlds. -/
theorem Hidden.with_world (h : Hidden ms gone b b') {w w' : Backend} (hR : SameStores w w') :
    Hidden ms gone { b with world := w } { b' with world := w' } :=
  ⟨h.without.with_world hR, h.quiet⟩

end

/-! ### Messages -/

theorem left_append (xs ys : List Published) :
    left gone (xs ++ ys) = left gone xs ++ left gone ys :=
  List.filter_append _ _

theorem left_gone (hi : i ∈ gone) (events : List Event) :
    left gone (events.map (⟨i, ·⟩)) = [] := by
  rw [left, List.filter_eq_nil_iff]
  intro x hx
  obtain ⟨event, -, rfl⟩ := List.mem_map.mp hx
  simpa using hi

theorem left_kept (hi : i ∉ gone) (events : List Event) :
    left gone (events.map (⟨i, ·⟩)) = events.map (⟨i, ·⟩) := by
  rw [left, List.filter_eq_self]
  intro x hx
  obtain ⟨event, -, rfl⟩ := List.mem_map.mp hx
  simpa using hi

theorem left_cons_gone {x : Published} (hx : x.publisher ∈ gone) (xs : List Published) :
    left gone (x :: xs) = left gone xs :=
  List.filter_cons_of_neg (by simpa using hx)

theorem left_cons_kept {x : Published} (hx : x.publisher ∉ gone) (xs : List Published) :
    left gone (x :: xs) = x :: left gone xs :=
  List.filter_cons_of_pos (by simpa using hx)

theorem Deployment.route_eq {b : Named calling HttpFailure HttpBody Env Backend}
    {events : List Event} (h : b.world.world.events = s.world.events ++ events) :
    s.route i b =
      { s with backend := b, queue := s.queue.push (events.map (⟨i, ·⟩)) } := by
  rw [route, h, List.drop_left]

section

variable {q q' q₁ : EventQueue} {x : Published}

theorem EventQueue.push_nil : q.push [] = q := by
  rw [push, List.append_nil]

/-- New messages come to the queue. -/
theorem Filtered.push (h : Filtered ms gone q q') (xs : List Published)
    (hxs : ∀ x ∈ xs, x.publisher ∈ gone →
      AsksHealth ms x.publisher ∧ x.event.topic ∉ Server.RESERVED_EVENTS) :
    Filtered ms gone (q.push xs) (q'.push (left gone xs)) := by
  refine ⟨?_, h.unsettled, h.told, fun x hx => ?_⟩
  · rw [EventQueue.push, EventQueue.push, left_append, h.waiting]
  · have hall := h.health x
    simp only [EventQueue.push, List.mem_append] at hall hx
    rcases hx with ((hx | hx) | hx) | hx
    · exact hall (.inl (.inl hx))
    · exact hxs x hx
    · exact hall (.inl (.inr hx))
    · exact hall (.inr hx)

theorem EventQueue.take_eq_some (h : q.take = some (x, q₁)) :
    q.waiting = x :: q₁.waiting ∧ q₁ = ⟨q₁.waiting, q.unsettled ++ [x], q.told ++ [x]⟩ := by
  unfold take at h
  split at h
  · cases h
  · rename_i hwaiting
    cases h
    exact ⟨hwaiting, rfl⟩

theorem EventQueue.settle_eq_some (h : q.settle = some q₁) :
    ∃ x, q.unsettled = x :: q₁.unsettled ∧ q₁ = ⟨q.waiting, q₁.unsettled, q.told⟩ := by
  unfold settle at h
  split at h
  · cases h
  · rename_i x unsettled hunsettled
    cases h
    exact ⟨x, hunsettled, rfl⟩

/-- A message of a deleted request is handed out. -/
theorem Filtered.take_gone (h : Filtered ms gone q q') (hq : q.take = some (x, q₁))
    (hx : x.publisher ∈ gone) : Filtered ms gone q₁ q' := by
  obtain ⟨hwaiting, hq₁⟩ := EventQueue.take_eq_some hq
  have hx₁ : left gone [x] = [] := left_cons_gone hx []
  refine ⟨?_, ?_, ?_, fun y hy => h.health y ?_⟩
  · rw [h.waiting, hwaiting, left_cons_gone hx]
  · rw [h.unsettled, hq₁, left_append, hx₁, List.append_nil]
  · rw [h.told, hq₁, left_append, hx₁, List.append_nil]
  · rw [hq₁] at hy
    rw [hwaiting]
    simp only [List.mem_append, List.mem_cons, List.not_mem_nil, or_false] at hy ⊢
    tauto

/-- Any other message is handed out in both. -/
theorem Filtered.take_kept (h : Filtered ms gone q q') (hq : q.take = some (x, q₁))
    (hx : x.publisher ∉ gone) :
    ∃ q₁', q'.take = some (x, q₁') ∧ Filtered ms gone q₁ q₁' := by
  obtain ⟨hwaiting, hq₁⟩ := EventQueue.take_eq_some hq
  have hx₁ : left gone [x] = [x] := left_cons_kept hx []
  have hwaiting' : q'.waiting = x :: left gone q₁.waiting := by
    rw [h.waiting, hwaiting, left_cons_kept hx]
  refine ⟨⟨left gone q₁.waiting, q'.unsettled ++ [x], q'.told ++ [x]⟩, ?_, rfl, ?_, ?_,
    fun y hy => h.health y ?_⟩
  · rw [EventQueue.take, hwaiting']
  · rw [h.unsettled, hq₁, left_append, hx₁]
  · rw [h.told, hq₁, left_append, hx₁]
  · rw [hq₁] at hy
    rw [hwaiting]
    simp only [List.mem_append, List.mem_cons, List.not_mem_nil, or_false] at hy ⊢
    tauto

theorem Filtered.settle_gone (h : Filtered ms gone q q')
    (hx : ∀ x ∈ q.unsettled.head?, x.publisher ∈ gone) (hq : q.settle = some q₁) :
    Filtered ms gone q₁ q' := by
  obtain ⟨x, hunsettled, hq₁⟩ := EventQueue.settle_eq_some hq
  rw [hunsettled, List.head?_cons] at hx
  refine ⟨?_, ?_, ?_, fun y hy => h.health y ?_⟩
  · rw [h.waiting, hq₁]
  · rw [h.unsettled, hunsettled, left_cons_gone (hx x rfl)]
  · rw [h.told, hq₁]
  · rw [hq₁] at hy
    rw [hunsettled]
    simp only [List.mem_append, List.mem_cons] at hy ⊢
    tauto

theorem Filtered.settle_kept (h : Filtered ms gone q q')
    (hx : ∀ x ∈ q.unsettled.head?, x.publisher ∉ gone) (hq : q.settle = some q₁) :
    ∃ q₁', q'.settle = some q₁' ∧ Filtered ms gone q₁ q₁' := by
  obtain ⟨x, hunsettled, hq₁⟩ := EventQueue.settle_eq_some hq
  rw [hunsettled, List.head?_cons] at hx
  have hunsettled' : q'.unsettled = x :: left gone q₁.unsettled := by
    rw [h.unsettled, hunsettled, left_cons_kept (hx x rfl)]
  refine ⟨⟨q'.waiting, left gone q₁.unsettled, q'.told⟩, ?_, ?_, rfl, ?_, fun y hy => h.health y ?_⟩
  · rw [EventQueue.settle, hunsettled']
  · rw [h.waiting, hq₁]
  · rw [h.told, hq₁]
  · rw [hq₁] at hy
    rw [hunsettled]
    simp only [List.mem_append, List.mem_cons] at hy ⊢
    tauto

theorem Filtered.recover (h : Filtered ms gone q q') :
    Filtered ms gone q.recover q'.recover := by
  refine ⟨?_, rfl, h.told, fun y hy => h.health y ?_⟩
  · simp only [EventQueue.recover, left_append, h.unsettled, h.waiting]
  · simp only [EventQueue.recover, List.mem_append, List.not_mem_nil, or_false] at hy ⊢
    tauto

end

/-! ### Moves -/

/-- A move that is left out. -/
theorem Unseen.drop (h : Unseen ms gone sockets s t) (hm : m ∈ ms)
    (hauth : site.Unauthenticated gone sockets m) (hdrop : drops gone sockets s m = true)
    (hs : site.step s m = some s') : Unseen ms gone sockets s' t := by
  cases Site.step_eq_some.mp hs with
  | request hb =>
    have hi := of_decide_eq_true hdrop
    refine ⟨h.backend.spawn_gone hi (quiet_handleRequest (hauth hi) ?_) hb, h.queue, h.server⟩
    rintro r rfl
    exact ⟨r, hm⟩
  | deliver => exact absurd (of_decide_eq_true hdrop) hauth
  | @step i e b hclock hb =>
    have hi : i ∈ gone := of_decide_eq_true hdrop
    obtain ⟨hbackend, events, hevents, hhealth⟩ := h.backend.advance_gone hi hclock hb
    rw [Deployment.route_eq hevents]
    refine ⟨hbackend, ?_, h.server⟩
    have hqueue := h.queue.push (events.map (⟨i, ·⟩)) ?_
    · rwa [left_gone hi, EventQueue.push_nil] at hqueue
    · intro x hx _
      obtain ⟨event, hmem, rfl⟩ := List.mem_map.mp hx
      exact hhealth event hmem
  | stop hb => exact ⟨h.backend.halt_gone (of_decide_eq_true hdrop) hb, h.queue, h.server⟩
  | @broadcast now x q hq =>
    have hx : x.publisher ∈ gone := by
      simpa [drops, (EventQueue.take_eq_some hq).1] using hdrop
    exact ⟨h.backend, h.queue.take_gone hq hx, h.server.broadcast_left x.event now⟩
  | settle hq =>
    refine ⟨h.backend, h.queue.settle_gone (fun x hx => ?_) hq, h.server⟩
    simpa [drops, Option.mem_def.mp hx] using hdrop
  | socket _ hu => exact ⟨h.backend, h.queue, h.server.drop hdrop hauth hu⟩
  | redeliver | expire | recover => cases hdrop

/-- Any other move is possible in both. -/
theorem Unseen.keep (h : Unseen ms gone sockets s t) (hdrop : drops gone sockets s m = false)
    (hs : site.step s m = some s') :
    ∃ t', site.step t m = some t' ∧ Unseen ms gone sockets s' t' := by
  simp only [Site.step_eq_some] at hs ⊢
  cases hs with
  | request hb =>
    obtain ⟨b', hb', hbackend⟩ := h.backend.spawn_kept (of_decide_eq_false hdrop) hb
    exact ⟨_, .request hb', hbackend, h.queue, h.server⟩
  | @deliver i n message b hmessage hb =>
    obtain ⟨hstores, hready, htag⟩ := h.backend.without.world.handOut n message
    obtain ⟨b', hb', hbackend⟩ := (h.backend.with_world hstores).spawn_kept
      (of_decide_eq_false hdrop) hb
    exact ⟨{ t with backend := b' }, .deliver (hready ▸ hmessage) (htag ▸ hb'), hbackend,
      h.queue, h.server⟩
  | @step i e b hclock hb =>
    have hi : i ∉ gone := of_decide_eq_false hdrop
    obtain ⟨b', hb', hbackend, events, hevents, hevents'⟩ := h.backend.advance_kept hi hb
    refine ⟨t.route i b', .step (h.backend.without.world.clock_le.trans hclock) hb', ?_⟩
    rw [Deployment.route_eq hevents, Deployment.route_eq hevents']
    have hqueue := h.queue.push (events.map (⟨i, ·⟩)) ?_
    · rw [left_kept hi] at hqueue
      exact ⟨hbackend, hqueue, h.server⟩
    · intro x hx hmem
      obtain ⟨event, -, rfl⟩ := List.mem_map.mp hx
      exact absurd hmem hi
  | stop hb =>
    obtain ⟨b', hb', hbackend⟩ := h.backend.halt_kept (of_decide_eq_false hdrop) hb
    exact ⟨_, .stop hb', hbackend, h.queue, h.server⟩
  | redeliver hw =>
    obtain ⟨w', hw', hstores⟩ := h.backend.without.world.redeliver hw
    exact ⟨_, .redeliver hw', h.backend.with_world hstores, h.queue, h.server⟩
  | expire hw =>
    obtain ⟨w', hw', hstores⟩ := h.backend.without.world.expire hw
    exact ⟨_, .expire hw', h.backend.with_world hstores, h.queue, h.server⟩
  | @broadcast now x q hq =>
    have hx : x.publisher ∉ gone := by
      simpa [drops, (EventQueue.take_eq_some hq).1] using hdrop
    obtain ⟨q', hq', hqueue⟩ := h.queue.take_kept hq hx
    exact ⟨_, .broadcast hq', h.backend, hqueue,
      (h.server.broadcast_left x.event now).broadcast_right x.event now⟩
  | settle hq =>
    obtain ⟨q', hq', hqueue⟩ := h.queue.settle_kept (fun x hx => by
      simpa [drops, Option.mem_def.mp hx] using hdrop) hq
    exact ⟨_, .settle hq', h.backend, hqueue, h.server⟩
  | recover => exact ⟨_, .recover, h.backend, h.queue.recover, h.server⟩
  | socket hof hu =>
    obtain ⟨v, hv, hserver⟩ := h.server.keep hof hdrop hu
    exact ⟨_, .socket hof hv, h.backend, h.queue, hserver⟩

/-! ### Emissions -/

/-- What operators have been shown : the room, topic and payload of each emission. -/
def Deployment.shown (s : Deployment) : List (String × String × Record) :=
  s.server.emissions.map fun x => (x.room, x.event.topic, x.event.payload)

/-- The gateway emits what it was handed, and nothing else. -/
theorem emissions_eq (hs : site.step s m = some s')
    (h : s.server.emissions = s.queue.told.flatMap fun x => emissionsOf x.event) :
    s'.server.emissions = s'.queue.told.flatMap fun x => emissionsOf x.event := by
  cases Site.step_eq_some.mp hs with
  | broadcast hq =>
    rw [emissions_broadcast, h, (EventQueue.take_eq_some hq).2]
    simp
  | settle hq =>
    obtain ⟨x, -, hq⟩ := EventQueue.settle_eq_some hq
    rw [hq]
    exact h
  | socket hof hu => exact (emissions_step hof hu).trans h
  | request | deliver | step | stop | redeliver | expire | recover => exact h

/-- Leaving elements out is noticed if each of them has something to show. -/
theorem flatMap_filter_eq_iff {α β : Type} {f : α → List β} {p : α → Bool} :
    ∀ {l : List α}, (∀ a ∈ l, p a = false → f a ≠ []) →
      ((l.filter p).flatMap f = l.flatMap f ↔ ∀ a ∈ l, p a = true)
  | [], _ => by simp
  | a :: l, hf => by
    rw [List.forall_mem_cons] at hf ⊢
    rw [← flatMap_filter_eq_iff hf.2]
    cases ha : p a with
    | true =>
      rw [List.filter_cons_of_pos ha, List.flatMap_cons, List.flatMap_cons, List.append_right_inj]
      simp
    | false =>
      rw [List.filter_cons_of_neg (by simp [ha]), List.flatMap_cons]
      refine iff_of_false (fun h => ?_) (by simp)
      have hle := ((List.filter_sublist (p := p) (l := l)).flatMap f).length_le
      have hpos := List.length_pos_iff.mpr (hf.1 ha)
      rw [h, List.length_append] at hle
      omega

end Sim

/-- The rows of the database. -/
def World.rows (w : World) : List JobEntity × List ProcessingAttemptEntity × List AlertEntity ×
    List IncidentEntity × List NotificationEntity × List OperatorActionEntity ×
    List AuditEntryEntity :=
  (w.jobs.rows, w.attempts.rows, w.alerts.rows, w.incidents.rows, w.notifications.rows,
    w.operatorActions.rows, w.auditEntries.rows)

/-- Leave out of a run any requests and handshakes without a valid token. The tables, the counters
and the queue are the same, and the emissions are exactly if no event of one of these requests,
which asked for the health of the API gateway, was broadcast. -/
theorem unauthenticated_invisible (site : Site) (gone : Finset ℕ) (sockets : Finset SocketId)
    (ms : List SiteMove) (s : Deployment) (hauth : ∀ m ∈ ms, site.Unauthenticated gone sockets m)
    (hrun : ms.foldlM site.step .init = some s) :
    ∃ t, (kept site.step (drops gone sockets) .init ms).foldlM site.step .init = some t ∧
      t.world.rows = s.world.rows ∧ t.counters = s.counters ∧
      (t.world.ready = s.world.ready ∧ t.world.unacked = s.world.unacked) ∧
      (t.shown = s.shown ↔
        ∀ x ∈ s.queue.told, x.publisher ∈ gone → ¬AsksHealth ms x.publisher) := by
  have hinit : Unseen ms gone sockets .init .init := by
    refine ⟨⟨.init ⟨rfl, rfl, le_rfl, le_rfl⟩, fun i _ p hp => ?_⟩, ⟨rfl, rfl, rfl, fun x hx => ?_⟩,
      ⟨fun _ _ => rfl, fun _ _ => rfl, fun _ _ => rfl⟩⟩
    · cases hp
    · cases hx
  obtain ⟨t, ht, h⟩ := exists_kept (P := (· ∈ ms))
    (fun _ m _ _ hR hm hdrop hs => hR.drop hm (hauth m hm) hdrop hs)
    (fun _ _ _ _ hR _ hdrop hs => hR.keep hdrop hs) hinit (fun _ => id) hrun
  obtain ⟨events, clock, hworld⟩ := h.backend.without.world.world.exists
  refine ⟨t, ht, ?_, h.backend.without.world.counters, ⟨?_, ?_⟩, ?_⟩
  · rw [Deployment.world, hworld]
    rfl
  · rw [Deployment.world, hworld]
    rfl
  · rw [Deployment.world, hworld]
    rfl
  have hemissions : ∀ {ls : List SiteMove} {u : Deployment}, ls.foldlM site.step .init = some u →
      u.shown = u.queue.told.flatMap fun x =>
        (emissionsOf x.event).map fun x => (x.room, x.event.topic, x.event.payload) := by
    intro ls u hu
    rw [Deployment.shown, foldlM_invariant (fun _ _ _ h hs => emissions_eq hs h) rfl hu,
      List.map_flatMap]
  rw [hemissions ht, hemissions hrun, h.queue.told, left, flatMap_filter_eq_iff]
  · refine forall₂_congr fun x hx => ?_
    have hhealth := h.queue.health x (by simp [hx])
    rw [decide_eq_true_eq]
    exact ⟨fun hout hmem => absurd hmem hout, fun hno hmem => hno hmem (hhealth hmem).1⟩
  · intro x hx hgone
    have hmem : x.publisher ∈ gone := by simpa using hgone
    simpa using emissionsOf_ne_nil (h.queue.health x (by simp [hx]) hmem).2

/-- A site with the default settings. -/
def defaultSite : Site where
  expectedToken := "ops-local-token"
  limiter := ⟨60, 60⟩
  realtime := ⟨"ops-local-token", toLowerCase⟩

/-- A request without headers. -/
def anonymous (path : String) : Request :=
  ⟨⟨.absent, .absent⟩, some "10.0.0.1", "GET", some path, path⟩

/-- Nobody has a token : a request for the health of the API gateway, one for its jobs and a
socket. -/
def anonymousRun : List SiteMove :=
  [.request 0 (.api .getHealth (anonymous "/api/v1/health")),
    .request 1 (.api (.read 2) (anonymous "/api/v1/jobs")),
    .socket (.connect "a" ⟨⟨none, none⟩, ⟨.absent, .absent⟩, ⟨.absent, .absent⟩⟩ 0),
    .step 0 ⟨1, 0, .resolves⟩, .step 0 ⟨2, 0, .resolves⟩, .step 0 ⟨3, 0, .resolves⟩,
    .step 0 ⟨4, 0, .resolves⟩]

theorem unauthenticated_anonymousRun {m : SiteMove} (hm : m ∈ anonymousRun) :
    defaultSite.Unauthenticated {0, 1} {"a"} m := by
  simp only [anonymousRun, List.mem_cons, List.not_mem_nil, or_false] at hm
  rcases hm with rfl | rfl | rfl | rfl | rfl | rfl | rfl
  · exact fun _ => rfl
  · exact fun _ => rfl
  · exact fun _ => rfl
  all_goals trivial

/-- The event of the first is not broadcast yet. -/
theorem unauthenticated_invisible_waiting :
    ∃ s t, anonymousRun.foldlM defaultSite.step .init = some s ∧
      (kept defaultSite.step (drops {0, 1} {"a"}) .init anonymousRun).foldlM
        defaultSite.step .init = some t ∧ t.shown = s.shown ∧ s.queue.waiting ≠ [] := by
  obtain ⟨s, hs⟩ := Option.isSome_iff_exists.mp
    (by decide : (anonymousRun.foldlM defaultSite.step .init).isSome)
  have hqueue : ∀ s ∈ anonymousRun.foldlM defaultSite.step .init,
      s.queue.told = [] ∧ s.queue.waiting ≠ [] := by decide
  obtain ⟨htold, hwaiting⟩ := hqueue s hs
  obtain ⟨t, ht, -, -, -, hshown⟩ := unauthenticated_invisible defaultSite {0, 1} {"a"}
    anonymousRun s (fun _ => unauthenticated_anonymousRun) hs
  refine ⟨s, t, hs, ht, hshown.mpr fun x hx => ?_, hwaiting⟩
  rw [htold] at hx
  cases hx

/-- Once it is, operators have been shown it. -/
theorem not_unauthenticated_invisible :
    let ms := anonymousRun ++ [SiteMove.broadcast 5]
    (∀ m ∈ ms, defaultSite.Unauthenticated {0, 1} {"a"} m) ∧
      ∃ s, ms.foldlM defaultSite.step .init = some s ∧
        ¬∃ t, (kept defaultSite.step (drops {0, 1} {"a"}) .init ms).foldlM defaultSite.step .init =
          some t ∧ t.shown = s.shown := by
  intro ms
  refine ⟨fun m hm => ?_, ?_⟩
  · rcases List.mem_append.mp hm with hm | hm
    · exact unauthenticated_anonymousRun hm
    · rw [List.mem_singleton] at hm
      subst hm
      trivial
  obtain ⟨s, hs⟩ := Option.isSome_iff_exists.mp
    (by decide : (ms.foldlM defaultSite.step .init).isSome)
  have hlong : ∀ s ∈ ms.foldlM defaultSite.step .init, s.shown.length = 1 := by decide
  have hshort : ∀ t ∈ (kept defaultSite.step (drops {0, 1} {"a"}) .init ms).foldlM
      defaultSite.step .init, t.shown.length = 0 := by decide
  refine ⟨s, hs, ?_⟩
  rintro ⟨t, ht, hshown⟩
  have hlength := congrArg List.length hshown
  rw [hlong s hs, hshort t ht] at hlength
  cases hlength

end RealtimeOps
