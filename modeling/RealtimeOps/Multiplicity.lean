import RealtimeOps.RealtimeGateway

/-!
# How often a broadcast reaches a socket

`multiplicity` says it from the moves before the broadcast alone : a socket that was accepted and
has not disconnected gets the event once, and once more if the topic is of a channel that the
socket's last message about it subscribed to. The rooms of the gateway mirror these moves
(`Mirrors`), so each broadcast reaches each socket as often, unless Socket.IO keeps the topic for
itself : such a broadcast throws, and reaches nobody (`exact_multiplicity`).
-/

set_option autoImplicit false

namespace RealtimeOps

namespace RealtimeEventsGateway

/-! ## What the moves say -/

section History

variable (gateway : RealtimeEventsGateway) (i : SocketId)

/-- The channel of the topics with a prefix. -/
def topicChannels : List (String × String) :=
  [("job.", "jobs"), ("alert.", "alerts"), ("incident.", "incidents"),
    ("notification.", "notifications")]

/-- The handshake of socket `i` is accepted. -/
def admits : RealtimeMove → Bool
  | .connect client handshake _ =>
    client = i && AuthService.validateToken gateway.expectedToken (token handshake)
  | _ => false

/-- Socket `i` disconnects. -/
def departs : RealtimeMove → Bool
  | .disconnect client => client = i
  | _ => false

/-- Whether a message of socket `i` that names the channel subscribes or unsubscribes. -/
def names (channel : String) : RealtimeMove → Option Bool
  | .subscribe client channels =>
    if client = i ∧ channel ∈ channels.getD [] then some true else none
  | .unsubscribe client channels =>
    if client = i ∧ channel ∈ channels.getD [] then some false else none
  | _ => none

/-- Socket `i` is there : its handshake was accepted and it has not disconnected. -/
def Present (ms : List RealtimeMove) : Prop :=
  (∃ m ∈ ms, gateway.admits i m) ∧ ∀ m ∈ ms, ¬departs i m

/-- The last message of socket `i` that names the channel subscribes. -/
def Subscribed (channel : String) (ms : List RealtimeMove) : Prop :=
  (ms.filterMap (names i channel)).getLast? = some true

instance (ms : List RealtimeMove) : Decidable (gateway.Present i ms) :=
  inferInstanceAs (Decidable (_ ∧ _))

instance (channel : String) (ms : List RealtimeMove) : Decidable (Subscribed i channel ms) :=
  inferInstanceAs (Decidable (_ = _))

/-- How often a broadcast of the topic reaches socket `i` after the moves. -/
def multiplicity (ms : List RealtimeMove) (topic : String) : ℕ :=
  if gateway.Present i ms then
    1 + if ∃ p ∈ topicChannels, startsWith topic p.1 ∧ Subscribed i p.2 ms then 1 else 0
  else 0

/-- How often it does, given that nobody hears of a reserved name. -/
def deliveries (ms : List RealtimeMove) (topic : String) : ℕ :=
  if topic ∈ Server.RESERVED_EVENTS then 0 else gateway.multiplicity i ms topic

/-- What a move delivers to a socket that gets an event of each topic so many times. -/
def delivered (times : String → ℕ) : RealtimeMove → List Event
  | .broadcast topic payload emittedAt now =>
    List.replicate (times topic) ⟨topic, emittedAt.getD now, payload⟩
  | .connect _ _ _ | .subscribe _ _ | .unsubscribe _ _ | .disconnect _ => []

variable {gateway i} {ms : List RealtimeMove} {m : RealtimeMove}

theorem present_concat :
    gateway.Present i (ms ++ [m]) ↔
      ((∃ m ∈ ms, gateway.admits i m) ∨ gateway.admits i m) ∧
        (∀ m ∈ ms, ¬departs i m) ∧ ¬departs i m := by
  simp only [Present, List.mem_append, List.mem_singleton, or_and_right, exists_or,
    exists_eq_left, or_imp, forall_and, forall_eq]

/-- The last message about a channel is the last move, or an earlier one. -/
theorem subscribed_concat {channel : String} :
    Subscribed i channel (ms ++ [m]) ↔ names i channel m = some true ∨
      names i channel m = none ∧ Subscribed i channel ms := by
  unfold Subscribed
  rw [List.filterMap_append]
  cases h : names i channel m with
  | none => simp [h]
  | some b => simp [h]

end History

/-! ## The rooms mirror the moves -/

/-- The socket a move is of. -/
def client : RealtimeMove → Option SocketId
  | .connect client _ _ | .subscribe client _ | .unsubscribe client _ | .disconnect client =>
    some client
  | .broadcast _ _ _ _ => none

/-- A channel is the name of its room. -/
theorem roomOf_eq_named {channel room : String} :
    roomOf channel = some (.named room) ↔ channel = room ∧ room ∈ CHANNEL_TO_ROOM.map Prod.fst := by
  unfold roomOf
  constructor
  · intro h
    split at h
    · rename_i name hname
      cases h
      have hmem : (channel, room) ∈ CHANNEL_TO_ROOM := by
        obtain ⟨l₁, l₂, hl, -⟩ := List.lookup_eq_some_iff.mp hname
        simp [hl]
      have hsame : ∀ p ∈ CHANNEL_TO_ROOM, p.1 = p.2 := by decide
      obtain rfl : channel = room := hsame _ hmem
      exact ⟨rfl, List.mem_map_of_mem hmem⟩
    · split_ifs at h
      cases h
  · rintro ⟨rfl, h⟩
    have hall : ∀ room ∈ CHANNEL_TO_ROOM.map Prod.fst, CHANNEL_TO_ROOM.lookup room = some room := by
      decide
    rw [hall _ h]

theorem forChannels_keeps {β : Type} {move : SocketId → Room → Server → Server} {i : SocketId}
    (f : Server → β) (hf : ∀ room s, f (move i room s) = f s) :
    ∀ (channels : List String) (s : Server), f (forChannels move i channels s).2 = f s
  | [], _ => rfl
  | channel :: channels, s => by
    rw [forChannels]
    split
    · exact forChannels_keeps f hf channels s
    · exact (forChannels_keeps f hf channels _).trans (hf _ _)

theorem mem_rooms_subscribe {client i : SocketId} {room : Room} :
    ∀ (channels : List String) (s : Server),
      room ∈ (forChannels Server.join client channels s).2.rooms i ↔ room ∈ s.rooms i ∨
        i = client ∧ (s.sockets i).isSome ∧ ∃ channel ∈ channels, roomOf channel = some room
  | [], s => by simp [forChannels]
  | channel :: channels, s => by
    rw [forChannels]
    split
    · rename_i hroom
      rw [mem_rooms_subscribe channels s]
      simp [hroom]
    · rename_i joined hroom
      dsimp only
      rw [mem_rooms_subscribe channels, Server.mem_rooms_join, Server.join, Server.isSome_modify]
      simp only [List.exists_mem_cons_iff, hroom, Option.some.injEq]
      tauto

theorem mem_rooms_unsubscribe {client i : SocketId} {room : Room} :
    ∀ (channels : List String) (s : Server),
      room ∈ (forChannels Server.leave client channels s).2.rooms i ↔ room ∈ s.rooms i ∧
        ¬(i = client ∧ ∃ channel ∈ channels, roomOf channel = some room)
  | [], s => by simp [forChannels]
  | channel :: channels, s => by
    rw [forChannels]
    split
    · rename_i hroom
      rw [mem_rooms_unsubscribe channels s]
      simp [hroom]
    · rename_i left hroom
      dsimp only
      rw [mem_rooms_unsubscribe channels, Server.mem_rooms_leave]
      simp only [List.exists_mem_cons_iff, hroom, Option.some.injEq, eq_comm (a := left)]
      rw [and_assoc, ← not_or, ← and_or_left]

/-- A topic has one channel. -/
theorem topicChannels_unique {topic : String} {p q : String × String} (hp : p ∈ topicChannels)
    (hq : q ∈ topicChannels) (hpt : startsWith topic p.1) (hqt : startsWith topic q.1) : p = q := by
  have hall : ∀ p ∈ topicChannels, ∀ q ∈ topicChannels, startsWith q.1 p.1 → p = q := by decide
  rcases List.prefix_or_prefix_of_prefix hpt hqt with h | h
  · exact hall p hp q hq h
  · exact (hall q hq p hp h).symm

/-- The sockets and rooms are as the moves say. -/
structure Mirrors (gateway : RealtimeEventsGateway) (ms : List RealtimeMove) (s : Server) :
    Prop where
  fresh : ∀ i, s.sockets i = none → ∀ m ∈ ms, client m ≠ some i
  connected : ∀ i, s.connected i = true ↔ gateway.Present i ms
  rooms : ∀ i room, .named room ∈ s.rooms i ↔ gateway.Present i ms ∧
    (room = "operators" ∨ room ∈ CHANNEL_TO_ROOM.map Prod.fst ∧ Subscribed i room ms)

section Mirrors

variable {gateway : RealtimeEventsGateway} {ms : List RealtimeMove} {m : RealtimeMove}
  {s s' : Server} {i : SocketId}

/-! A move says nothing of the sockets it is not of. -/

theorem names_of_ne (h : client m ≠ some i) (channel : String) : names i channel m = none := by
  cases m with
  | connect | subscribe | unsubscribe | disconnect =>
    have hne : ¬_ = i := fun heq => h (congrArg some heq)
    simp [names, hne]
  | broadcast => rfl

theorem present_of_ne (gateway : RealtimeEventsGateway) (h : client m ≠ some i) :
    ¬gateway.admits i m ∧ ¬departs i m := by
  cases m with
  | connect | subscribe | unsubscribe | disconnect =>
    have hne : ¬_ = i := fun heq => h (congrArg some heq)
    simp [admits, departs, hne]
  | broadcast => simp [admits, departs]

theorem present_concat_of_ne (h : client m ≠ some i) :
    gateway.Present i (ms ++ [m]) ↔ gateway.Present i ms := by
  obtain ⟨hadmits, hdeparts⟩ := present_of_ne gateway h
  rw [present_concat, or_iff_left hadmits, and_iff_left hdeparts, Present]

theorem subscribed_concat_of_ne {channel : String} (h : client m ≠ some i) :
    Subscribed i channel (ms ++ [m]) ↔ Subscribed i channel ms := by
  rw [subscribed_concat, names_of_ne h]
  simp

/-- A broadcast changes no room. -/
theorem broadcast_keeps (topic : String) (payload : Record) (emittedAt : Option Date) (now : Date)
    (s : Server) (i : SocketId) :
    ((afterBroadcast topic payload emittedAt now s).sockets i).isSome = (s.sockets i).isSome ∧
      (afterBroadcast topic payload emittedAt now s).connected i = s.connected i ∧
      (afterBroadcast topic payload emittedAt now s).rooms i = s.rooms i := by
  by_cases hreserved : topic ∈ Server.RESERVED_EVENTS
  · simp [afterBroadcast_of_mem hreserved]
  · rw [afterBroadcast_of_notMem hreserved]
    dsimp only
    split_ifs <;> simp

/-- Asking for rooms connects and disconnects nobody. -/
theorem subscribe_keeps (j : SocketId) (channels : Option (List String)) (s : Server)
    (i : SocketId) : ((subscribe j channels s).2.sockets i).isSome = (s.sockets i).isSome ∧
      (subscribe j channels s).2.connected i = s.connected i :=
  ⟨forChannels_keeps (fun s => (s.sockets i).isSome) (fun _ _ => Server.isSome_modify _) _ _,
    forChannels_keeps (fun s => s.connected i) (fun _ _ => Server.connected_join) _ _⟩

theorem unsubscribe_keeps (j : SocketId) (channels : Option (List String)) (s : Server)
    (i : SocketId) : ((unsubscribe j channels s).2.sockets i).isSome = (s.sockets i).isSome ∧
      (unsubscribe j channels s).2.connected i = s.connected i :=
  ⟨forChannels_keeps (fun s => (s.sockets i).isSome) (fun _ _ => Server.isSome_modify _) _ _,
    forChannels_keeps (fun s => s.connected i) (fun _ _ => Server.connected_leave) _ _⟩

/-- A move changes nothing of the sockets it is not of but what they have received. -/
theorem step_of_ne (h : client m ≠ some i) (hs : gateway.step s m = some s') :
    (s'.sockets i).isSome = (s.sockets i).isSome ∧ s'.connected i = s.connected i ∧
      s'.rooms i = s.rooms i := by
  have hsame : s'.sockets i = s.sockets i → (s'.sockets i).isSome = (s.sockets i).isSome ∧
      s'.connected i = s.connected i ∧ s'.rooms i = s.rooms i := fun heq => by
    simp only [Server.connected, Server.rooms, heq, and_self]
  cases m with
  | connect j handshake now =>
    have hne : i ≠ j := fun heq => h (congrArg some heq.symm)
    obtain ⟨-, rfl⟩ := step_connect.mp hs
    refine hsame ?_
    rw [handleConnection]
    split_ifs <;> simp [Server.join, Server.send, Server.disconnect, Server.accept, hne]
  | subscribe j channels =>
    have hne : i ≠ j := fun heq => h (congrArg some heq.symm)
    obtain ⟨-, rfl⟩ := step_subscribe.mp hs
    refine hsame ?_
    exact forChannels_keeps (fun s => s.sockets i) (fun room s => if_neg hne) _ _
  | unsubscribe j channels =>
    have hne : i ≠ j := fun heq => h (congrArg some heq.symm)
    obtain ⟨-, rfl⟩ := step_unsubscribe.mp hs
    refine hsame ?_
    exact forChannels_keeps (fun s => s.sockets i) (fun room s => if_neg hne) _ _
  | disconnect j =>
    have hne : i ≠ j := fun heq => h (congrArg some heq.symm)
    obtain ⟨-, rfl⟩ := step_disconnect.mp hs
    refine hsame ?_
    exact if_neg hne
  | broadcast topic payload emittedAt now =>
    cases hs
    exact broadcast_keeps topic payload emittedAt now s i

/-- After a handshake the socket is there if its token was valid, in the one room. -/
theorem handleConnection_accept (gateway : RealtimeEventsGateway) (i : SocketId)
    (handshake : Handshake) (now : Date) (s : Server) :
    ((gateway.handleConnection i handshake now (s.accept i)).sockets i).isSome ∧
      ((gateway.handleConnection i handshake now (s.accept i)).connected i = true ↔
        AuthService.validateToken gateway.expectedToken (token handshake) = true) ∧
      ∀ room, room ∈ (gateway.handleConnection i handshake now (s.accept i)).rooms i ↔
        AuthService.validateToken gateway.expectedToken (token handshake) = true ∧
          room = .named "operators" := by
  unfold handleConnection
  split_ifs with hvalid <;>
    simp [Server.join, Server.send, Server.disconnect, Server.accept, Server.connected,
      Server.rooms, hvalid]

/-- Who is connected is there. -/
theorem Mirrors.own (h : Mirrors gateway ms s) (hm : client m = some i)
    (hs : gateway.step s m = some s') :
    (s'.sockets i).isSome ∧ (s'.connected i = true ↔ gateway.Present i (ms ++ [m])) ∧
      ∀ room, .named room ∈ s'.rooms i ↔ gateway.Present i (ms ++ [m]) ∧
        (room = "operators" ∨ room ∈ CHANNEL_TO_ROOM.map Prod.fst ∧
          Subscribed i room (ms ++ [m])) := by
  cases m with
  | connect j handshake now =>
    cases hm
    obtain ⟨hnone, rfl⟩ := step_connect.mp hs
    have hfresh := h.fresh i (Option.isNone_iff_eq_none.mp hnone)
    obtain ⟨hsome, hconnected, hrooms⟩ := handleConnection_accept gateway i handshake now s
    have hpresent : gateway.Present i (ms ++ [.connect i handshake now]) ↔
        AuthService.validateToken gateway.expectedToken (token handshake) = true := by
      have hno : ¬∃ m ∈ ms, gateway.admits i m = true := fun ⟨m, hm, hadmits⟩ =>
        (present_of_ne gateway (hfresh m hm)).1 hadmits
      have hstay : ∀ m ∈ ms, ¬departs i m = true := fun m hm =>
        (present_of_ne gateway (hfresh m hm)).2
      rw [present_concat, or_iff_right hno]
      simpa [admits, departs] using fun _ => hstay
    have hsubscribed : ∀ room, ¬Subscribed i room (ms ++ [.connect i handshake now]) := by
      intro room hroom
      rw [subscribed_concat, Subscribed, List.filterMap_eq_nil_iff.mpr fun m hm =>
        names_of_ne (hfresh m hm) room] at hroom
      simp [names] at hroom
    refine ⟨hsome, hconnected.trans hpresent.symm, fun room => ?_⟩
    rw [hrooms, hpresent]
    simp [hsubscribed]
  | subscribe j channels =>
    cases hm
    obtain ⟨hconnected, rfl⟩ := step_subscribe.mp hs
    have hsome := Server.isSome_of_connected hconnected
    have hpresent : gateway.Present i (ms ++ [.subscribe i channels]) ↔ gateway.Present i ms := by
      rw [present_concat]
      simp [admits, departs, Present]
    refine ⟨?_, ?_, fun room => ?_⟩
    · rw [(subscribe_keeps i channels s i).1]
      exact hsome
    · rw [(subscribe_keeps i channels s i).2, hpresent]
      exact h.connected i
    · have hp := (h.connected i).mp hconnected
      rw [subscribe, mem_rooms_subscribe, h.rooms, hpresent, subscribed_concat]
      simp only [roomOf_eq_named, names, true_and]
      generalize (room ∈ CHANNEL_TO_ROOM.map Prod.fst) = known
      by_cases hroom : room ∈ channels.getD [] <;> simp [hroom, hp, hsome]
      tauto
  | unsubscribe j channels =>
    cases hm
    obtain ⟨hconnected, rfl⟩ := step_unsubscribe.mp hs
    have hpresent : gateway.Present i (ms ++ [.unsubscribe i channels]) ↔ gateway.Present i ms := by
      rw [present_concat]
      simp [admits, departs, Present]
    refine ⟨?_, ?_, fun room => ?_⟩
    · rw [(unsubscribe_keeps i channels s i).1]
      exact Server.isSome_of_connected hconnected
    · rw [(unsubscribe_keeps i channels s i).2, hpresent]
      exact h.connected i
    · have hp := (h.connected i).mp hconnected
      rw [unsubscribe, mem_rooms_unsubscribe, h.rooms, hpresent, subscribed_concat]
      simp only [roomOf_eq_named, names, true_and]
      by_cases hoperators : room = "operators"
      · have hunknown : "operators" ∉ CHANNEL_TO_ROOM.map Prod.fst := by decide
        subst hoperators
        simp [hp, hunknown]
      · generalize (room ∈ CHANNEL_TO_ROOM.map Prod.fst) = known
        by_cases hroom : room ∈ channels.getD [] <;> simp [hroom, hp, hoperators]
        tauto
  | disconnect j =>
    cases hm
    obtain ⟨hconnected, rfl⟩ := step_disconnect.mp hs
    have hgone : ¬gateway.Present i (ms ++ [.disconnect i]) := by
      rw [present_concat]
      simp [departs]
    refine ⟨?_, ?_, fun room => ?_⟩
    · rw [Server.disconnect, Server.isSome_modify]
      exact Server.isSome_of_connected hconnected
    · simp [Server.connected_disconnect, hgone]
    · simp [Server.rooms_disconnect, hgone]
  | broadcast => cases hm

theorem Mirrors.step (h : Mirrors gateway ms s) (hs : gateway.step s m = some s') :
    Mirrors gateway (ms ++ [m]) s' := by
  have hall : ∀ i, (s'.sockets i = none → ∀ m' ∈ ms ++ [m], client m' ≠ some i) ∧
      (s'.connected i = true ↔ gateway.Present i (ms ++ [m])) ∧
      ∀ room, .named room ∈ s'.rooms i ↔ gateway.Present i (ms ++ [m]) ∧
        (room = "operators" ∨ room ∈ CHANNEL_TO_ROOM.map Prod.fst ∧
          Subscribed i room (ms ++ [m])) := fun i => by
    by_cases hm : client m = some i
    · obtain ⟨hsome, hown⟩ := h.own hm hs
      refine ⟨fun hnone => ?_, hown⟩
      rw [hnone] at hsome
      cases hsome
    · obtain ⟨hsome, hconnected, hrooms⟩ := step_of_ne hm hs
      refine ⟨fun hnone m' hm' => ?_, ?_, fun room => ?_⟩
      · rw [hnone, Option.isSome_none, eq_comm, Option.isSome_eq_false_iff,
          Option.isNone_iff_eq_none] at hsome
        rcases List.mem_append.mp hm' with hm' | hm'
        · exact h.fresh i hsome m' hm'
        · rw [List.mem_singleton.mp hm']
          exact hm
      · rw [hconnected, present_concat_of_ne hm]
        exact h.connected i
      · rw [hrooms, present_concat_of_ne hm, subscribed_concat_of_ne hm]
        exact h.rooms i room
  exact ⟨fun i => (hall i).1, fun i => (hall i).2.1, fun i => (hall i).2.2⟩

theorem mirrors_init : Mirrors gateway [] .init where
  fresh := by simp
  connected := by simp [Server.init, Server.connected, Present]
  rooms := by simp [Server.init, Server.rooms, Present]

theorem mirrors_run (h : gateway.run ms = some s) : Mirrors gateway ms s := by
  induction ms using List.reverseRecOn generalizing s with
  | nil =>
    cases h
    exact mirrors_init
  | append_singleton ms m ih =>
    rw [run, List.foldlM_append] at h
    obtain ⟨t, ht, hs⟩ := Option.bind_eq_some_iff.mp h
    exact (ih ht).step (by simpa using hs)

theorem exists_topicChannel_iff {topic : String} {p : String × String} (hp : p ∈ topicChannels)
    (ht : startsWith topic p.1) (P : String → Prop) :
    (∃ q ∈ topicChannels, startsWith topic q.1 ∧ P q.2) ↔ P p.2 := by
  constructor
  · rintro ⟨q, hq, hqt, hP⟩
    exact topicChannels_unique hq hp hqt ht ▸ hP
  · exact fun hP => ⟨p, hp, ht, hP⟩

/-- How often an event of the topic is delivered to the sockets that are in the rooms. -/
def copies (rooms : Finset Room) (topic : String) : ℕ :=
  (if .named "operators" ∈ rooms then 1 else 0) +
    if ∃ p ∈ topicChannels, startsWith topic p.1 ∧ .named p.2 ∈ rooms then 1 else 0

/-- How often a broadcast of the topic reaches them. -/
def arrivals (rooms : Finset Room) (topic : String) : ℕ :=
  if topic ∈ Server.RESERVED_EVENTS then 0 else copies rooms topic

theorem Mirrors.copies_eq (h : Mirrors gateway ms s) (topic : String) :
    copies (s.rooms i) topic = gateway.multiplicity i ms topic := by
  have hknown : ∀ p ∈ topicChannels, p.2 ≠ "operators" ∧ p.2 ∈ CHANNEL_TO_ROOM.map Prod.fst := by
    decide
  unfold copies multiplicity
  by_cases hp : gateway.Present i ms
  · have hroom : ∀ p ∈ topicChannels, .named p.2 ∈ s.rooms i ↔ Subscribed i p.2 ms := by
      intro p hmem
      rw [h.rooms, and_iff_right hp, or_iff_right (hknown p hmem).1,
        and_iff_right (hknown p hmem).2]
    rw [if_pos hp, if_pos ((h.rooms i _).mpr ⟨hp, .inl rfl⟩)]
    congr 2
    exact propext (exists_congr fun p => and_congr_right fun hmem =>
      and_congr_right fun _ => hroom p hmem)
  · have hout : ∀ room, .named room ∉ s.rooms i := fun room hmem => hp ((h.rooms i _).mp hmem).1
    simp [hp, hout]

/-- A broadcast reaches the sockets in `operators`, and those in the room of its topic. -/
theorem heard_broadcast (topic : String) (payload : Record) (emittedAt : Option Date) (now : Date) :
    (afterBroadcast topic payload emittedAt now s).heard i = s.heard i ++
      List.replicate (arrivals (s.rooms i) topic) ⟨topic, emittedAt.getD now, payload⟩ := by
  by_cases hreserved : topic ∈ Server.RESERVED_EVENTS
  · rw [afterBroadcast_of_mem hreserved, arrivals, if_pos hreserved, List.replicate_zero,
      List.append_nil]
  have htwice : ∀ {p : String × String}, p ∈ topicChannels → startsWith topic p.1 →
      ∀ event : Event, ((s.deliver "operators" event).deliver p.2 event).heard i =
        s.heard i ++ List.replicate (copies (s.rooms i) topic) event := by
    intro p hp ht event
    rw [Server.heard_deliver, Server.heard_deliver, Server.rooms_deliver, List.append_assoc, copies,
      if_congr (exists_topicChannel_iff hp ht fun room => .named room ∈ s.rooms i) rfl rfl,
      List.replicate_add]
    split_ifs <;> rfl
  rw [afterBroadcast_of_notMem hreserved, arrivals, if_neg hreserved]
  dsimp only
  split_ifs with hjob halert hincident hnotification
  · exact htwice (p := ("job.", "jobs")) (by decide) hjob _
  · exact htwice (p := ("alert.", "alerts")) (by decide) halert _
  · exact htwice (p := ("incident.", "incidents")) (by decide) hincident _
  · exact htwice (p := ("notification.", "notifications")) (by decide) hnotification _
  · have hno : ¬∃ p ∈ topicChannels, startsWith topic p.1 ∧ .named p.2 ∈ s.rooms i := by
      simp [topicChannels, hjob, halert, hincident, hnotification]
    rw [Server.heard_deliver, copies, if_neg hno]
    split_ifs <;> rfl

/-- Only broadcasts are heard. -/
theorem heard_step (hs : gateway.step s m = some s') :
    s'.heard i = s.heard i ++ delivered (arrivals (s.rooms i)) m := by
  cases m with
  | connect j handshake now =>
    obtain ⟨hnone, rfl⟩ := step_connect.mp hs
    have hempty : (s.accept j).heard i = s.heard i := by
      by_cases hij : i = j
      · subst hij
        simp [Server.heard, Server.accept, Option.isNone_iff_eq_none.mp hnone]
      · simp [Server.heard, Server.accept, hij]
    rw [delivered, List.append_nil, ← hempty, handleConnection]
    split_ifs
    · dsimp only
      rw [Server.heard_send_ready, Server.heard_join]
      exact Server.heard_modify fun _ => rfl
    · exact Server.heard_disconnect
  | subscribe j channels =>
    obtain ⟨-, rfl⟩ := step_subscribe.mp hs
    rw [delivered, List.append_nil]
    exact forChannels_keeps (fun s => s.heard i) (fun room s => Server.heard_join) _ _
  | unsubscribe j channels =>
    obtain ⟨-, rfl⟩ := step_unsubscribe.mp hs
    rw [delivered, List.append_nil]
    exact forChannels_keeps (fun s => s.heard i) (fun room s => Server.heard_leave) _ _
  | disconnect j =>
    obtain ⟨-, rfl⟩ := step_disconnect.mp hs
    rw [delivered, List.append_nil]
    exact Server.heard_disconnect
  | broadcast topic payload emittedAt now =>
    cases hs
    exact heard_broadcast topic payload emittedAt now

/-- After every run, a move adds to what a socket has heard only if it is a broadcast, and then
its event as often as `multiplicity` says, or not at all if its topic is reserved. -/
theorem exact_multiplicity (h : gateway.run ms = some s) (hs : gateway.step s m = some s')
    (i : SocketId) :
    s'.heard i = s.heard i ++ delivered (gateway.deliveries i ms) m := by
  rw [heard_step hs]
  cases m with
  | broadcast topic payload emittedAt now =>
    rw [delivered, delivered, arrivals, deliveries, (mirrors_run h).copies_eq]
  | connect | subscribe | unsubscribe | disconnect => rfl

/-- Of two sockets one subscribes, repeats itself and names a property of all objects : it hears
of a job twice, the other once. -/
theorem exact_multiplicity_subscribed :
    let gateway : RealtimeEventsGateway := ⟨"secret", id⟩
    let handshake : Handshake := ⟨⟨none, none⟩, ⟨.text "secret", .absent⟩, ⟨.absent, .absent⟩⟩
    let ms : List RealtimeMove := [.connect "a" handshake 1, .connect "b" handshake 2,
      .subscribe "a" (some ["toString", "jobs", "jobs"])]
    ∃ s s' : Server, gateway.run ms = some s ∧
      gateway.step s (.broadcast "job.created" [] none 9) = some s' ∧
      s'.heard "a" = [⟨"job.created", 9, []⟩, ⟨"job.created", 9, []⟩] ∧
      s'.heard "b" = [⟨"job.created", 9, []⟩] := by
  intro gateway handshake ms
  obtain ⟨s, hs⟩ := Option.isSome_iff_exists.mp (by decide : (gateway.run ms).isSome)
  obtain ⟨ha, hb⟩ : s.heard "a" = [] ∧ s.heard "b" = [] := by
    have hquiet : ∀ t ∈ gateway.run ms, t.heard "a" = [] ∧ t.heard "b" = [] := by decide
    exact hquiet s hs
  have hstep : gateway.step s (.broadcast "job.created" [] none 9) =
      some (afterBroadcast "job.created" [] none 9 s) := rfl
  refine ⟨s, _, hs, hstep, ?_, ?_⟩
  · rw [exact_multiplicity hs hstep "a", ha]
    decide
  · rw [exact_multiplicity hs hstep "b", hb]
    decide

/-- A broadcast of a reserved name throws, and the operator who is connected does not hear of it. -/
theorem not_exact_multiplicity :
    let gateway : RealtimeEventsGateway := ⟨"secret", id⟩
    let handshake : Handshake := ⟨⟨none, none⟩, ⟨.text "secret", .absent⟩, ⟨.absent, .absent⟩⟩
    let ms : List RealtimeMove := [.connect "a" handshake 1]
    let m : RealtimeMove := .broadcast "connect" [] none 9
    ∃ s s' : Server, gateway.run ms = some s ∧ gateway.step s m = some s' ∧
      broadcast "connect" [] none 9 s = .error "\"connect\" is a reserved event name" ∧
      s'.heard "a" ≠ s.heard "a" ++ delivered (gateway.multiplicity "a" ms) m := by
  intro gateway handshake ms m
  have hreserved : "connect" ∈ Server.RESERVED_EVENTS := by decide
  obtain ⟨s, hs⟩ := Option.isSome_iff_exists.mp (by decide : (gateway.run ms).isSome)
  refine ⟨s, s, hs, congrArg some (afterBroadcast_of_mem hreserved),
    (broadcast_of_mem hreserved).trans (congrArg Except.error (by decide)), ?_⟩
  have hone : delivered (gateway.multiplicity "a" ms) m = [⟨"connect", 9, []⟩] := by decide
  simp [hone]

end Mirrors

end RealtimeEventsGateway

end RealtimeOps
