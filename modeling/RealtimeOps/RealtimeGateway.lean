import Mathlib.Data.Finset.Basic
import RealtimeOps.ApiGateway

/-!
# The realtime gateway

`RealtimeEventsGateway` over a Socket.IO server. A socket is connected or not and is in a set of
rooms; joining and leaving take effect at once, and a socket that disconnects leaves all rooms.
What is emitted to a room reaches each socket in it, but `emit` throws if the event has one of the
names that Socket.IO keeps for itself. A socket also has a room of its own that nothing emits to;
it is left out.

`emissions` is all that `broadcast` has emitted, in order.
-/

set_option autoImplicit false

namespace RealtimeOps

/-! ## The Socket.IO server -/

/-- `client.id`. -/
abbrev SocketId := String

/-- What sockets join : a named room, or what an object has under the name of a property of
`Object.prototype`. -/
inductive Room where
  | named (name : String)
  | inherited (property : String)
  deriving DecidableEq

/-- What is sent to a socket. -/
inductive Packet where
  | connectionReady (operatorId : String) (channels : List String) (connectedAt : Date)
  | event (event : Event)
  deriving DecidableEq

/-- A socket, with what it has been sent. -/
structure Socket where
  connected : Bool
  /-- `client.data.operatorId`. -/
  operatorId : Option String
  rooms : Finset Room
  received : List Packet
  deriving DecidableEq

/-- An event emitted to a room. -/
structure Emission where
  room : String
  event : Event
  deriving DecidableEq

/-- The sockets, and the events emitted to rooms so far. -/
structure Server where
  sockets : SocketId → Option Socket
  emissions : List Emission

namespace Server

/-- No socket yet. -/
def init : Server :=
  ⟨fun _ => none, []⟩

/-- Change one socket, if it is there. -/
def modify (client : SocketId) (f : Socket → Socket) (s : Server) : Server :=
  { s with sockets := fun i => if i = client then (s.sockets i).map f else s.sockets i }

/-- A new socket, in no room. -/
def accept (client : SocketId) (s : Server) : Server :=
  { s with sockets := fun i => if i = client then some ⟨true, none, ∅, []⟩ else s.sockets i }

/-- `client.join`. -/
def join (client : SocketId) (room : Room) : Server → Server :=
  modify client fun c => { c with rooms := insert room c.rooms }

/-- `client.leave`. -/
def leave (client : SocketId) (room : Room) : Server → Server :=
  modify client fun c => { c with rooms := c.rooms.erase room }

/-- `client.disconnect(true)`, which also takes the socket out of its rooms. -/
def disconnect (client : SocketId) : Server → Server :=
  modify client fun c => { c with connected := false, rooms := ∅ }

/-- `client.emit`. -/
def send (client : SocketId) (packet : Packet) : Server → Server :=
  modify client fun c => { c with received := c.received ++ [packet] }

/-- Each socket in the room receives the event. -/
def deliver (room : String) (event : Event) (s : Server) : Server where
  sockets i := (s.sockets i).map fun c =>
    if .named room ∈ c.rooms then { c with received := c.received ++ [.event event] } else c
  emissions := s.emissions ++ [⟨room, event⟩]

/-- The events of Socket.IO itself, which nobody else may emit. -/
def RESERVED_EVENTS : List String :=
  ["connect", "connect_error", "disconnect", "disconnecting", "newListener", "removeListener"]

/-- `server.to(room).emit`, which throws for a reserved name before it sends anything. -/
def emit (room : String) (event : Event) (s : Server) : Except String Server :=
  if event.topic ∈ RESERVED_EVENTS then
    .error ("\"" ++ event.topic ++ "\" is a reserved event name")
  else .ok (s.deliver room event)

/-- The socket is there and has not been disconnected. -/
def connected (s : Server) (i : SocketId) : Bool :=
  (s.sockets i).any Socket.connected

/-- The rooms socket `i` is in. -/
def rooms (s : Server) (i : SocketId) : Finset Room :=
  (s.sockets i).elim ∅ Socket.rooms

/-- The events socket `i` has received. -/
def heard (s : Server) (i : SocketId) : List Event :=
  (s.sockets i).elim [] fun c => c.received.filterMap fun
    | .event event => some event
    | .connectionReady _ _ _ => none

section Effects

variable {s : Server} {client i : SocketId} {room room' : Room}

/-! What a call on a socket changes. -/

@[simp] theorem sockets_modify (f : Socket → Socket) :
    (s.modify client f).sockets i = if i = client then (s.sockets i).map f else s.sockets i :=
  rfl

@[simp] theorem isSome_modify (f : Socket → Socket) :
    ((s.modify client f).sockets i).isSome = (s.sockets i).isSome := by
  rw [sockets_modify]
  split_ifs <;> simp

theorem connected_modify {f : Socket → Socket} (hf : ∀ c, (f c).connected = c.connected) :
    (s.modify client f).connected i = s.connected i := by
  rw [connected, sockets_modify]
  split_ifs
  · cases h : s.sockets i <;> simp [connected, h, hf]
  · rfl

theorem heard_modify {f : Socket → Socket} (hf : ∀ c, (f c).received = c.received) :
    (s.modify client f).heard i = s.heard i := by
  rw [heard, sockets_modify]
  split_ifs
  · cases h : s.sockets i <;> simp [heard, h, hf]
  · rfl

@[simp] theorem connected_join : (s.join client room).connected i = s.connected i :=
  connected_modify fun _ => rfl

@[simp] theorem connected_leave : (s.leave client room).connected i = s.connected i :=
  connected_modify fun _ => rfl

@[simp] theorem heard_join : (s.join client room).heard i = s.heard i :=
  heard_modify fun _ => rfl

@[simp] theorem heard_leave : (s.leave client room).heard i = s.heard i :=
  heard_modify fun _ => rfl

@[simp] theorem heard_disconnect : (s.disconnect client).heard i = s.heard i :=
  heard_modify fun _ => rfl

theorem heard_send_ready (operatorId : String) (channels : List String) (connectedAt : Date) :
    (s.send client (.connectionReady operatorId channels connectedAt)).heard i = s.heard i := by
  rw [heard, send, sockets_modify]
  split_ifs
  · cases h : s.sockets i <;> simp [heard, h]
  · rfl

theorem isSome_of_connected (h : s.connected i = true) : (s.sockets i).isSome := by
  rw [connected, Option.any_eq_true] at h
  obtain ⟨c, hc, -⟩ := h
  rw [hc]
  rfl

theorem mem_rooms_join :
    room' ∈ (s.join client room).rooms i ↔
      room' ∈ s.rooms i ∨ i = client ∧ (s.sockets i).isSome ∧ room' = room := by
  rw [rooms, join, sockets_modify]
  split_ifs with hi
  · subst hi
    cases h : s.sockets i <;> simp [rooms, h, or_comm]
  · simp [rooms, hi]

theorem mem_rooms_leave :
    room' ∈ (s.leave client room).rooms i ↔
      room' ∈ s.rooms i ∧ ¬(i = client ∧ room' = room) := by
  rw [rooms, leave, sockets_modify]
  split_ifs with hi
  · subst hi
    cases h : s.sockets i <;> simp [rooms, h, and_comm]
  · simp [rooms, hi]

theorem rooms_disconnect :
    (s.disconnect client).rooms i = if i = client then ∅ else s.rooms i := by
  rw [rooms, disconnect, sockets_modify]
  split_ifs
  · cases h : s.sockets i <;> simp
  · rfl

theorem connected_disconnect :
    (s.disconnect client).connected i = (decide (i ≠ client) && s.connected i) := by
  rw [connected, disconnect, sockets_modify]
  split_ifs with hi
  · cases h : s.sockets i <;> simp [hi]
  · simp [connected, hi]

/-- An event reaches the sockets in the room. -/
theorem heard_deliver (room : String) (event : Event) :
    (s.deliver room event).heard i =
      s.heard i ++ if .named room ∈ s.rooms i then [event] else [] := by
  rw [heard, deliver]
  cases h : s.sockets i with
  | none => simp [heard, rooms, h]
  | some c =>
    by_cases hroom : Room.named room ∈ c.rooms <;> simp [heard, rooms, h, hroom]

@[simp] theorem rooms_deliver (room : String) (event : Event) :
    (s.deliver room event).rooms i = s.rooms i := by
  rw [rooms, deliver]
  cases h : s.sockets i with
  | none => simp [rooms, h]
  | some c => by_cases hroom : Room.named room ∈ c.rooms <;> simp [rooms, h, hroom]

@[simp] theorem connected_deliver (room : String) (event : Event) :
    (s.deliver room event).connected i = s.connected i := by
  rw [connected, deliver]
  cases h : s.sockets i with
  | none => simp [connected, h]
  | some c => by_cases hroom : Room.named room ∈ c.rooms <;> simp [connected, h, hroom]

@[simp] theorem isSome_deliver (room : String) (event : Event) :
    ((s.deliver room event).sockets i).isSome = (s.sockets i).isSome := by
  simp [deliver]

/-- What may be emitted is delivered. -/
theorem emit_of_notMem {event : Event} (h : event.topic ∉ RESERVED_EVENTS) (room : String)
    (s : Server) : s.emit room event = .ok (s.deliver room event) :=
  if_neg h

end Effects

end Server

/-! ## The gateway -/

/-- `client.handshake.auth`, with texts only. -/
structure ClientHandshakeAuth where
  token : Option String
  operatorId : Option String
  deriving DecidableEq

/-- `client.handshake`. -/
structure Handshake where
  auth : ClientHandshakeAuth
  query : OperatorValues
  headers : OperatorValues
  deriving DecidableEq

/-- `String.prototype.startsWith`. -/
def startsWith (text start : String) : Prop :=
  start.toList <+: text.toList

instance (text start : String) : Decidable (startsWith text start) :=
  inferInstanceAs (Decidable (_ <+: _))

/-- What the gateway is set up with. `toLowerCase` is that of all of Unicode. -/
structure RealtimeEventsGateway where
  expectedToken : String
  toLowerCase : String → String

namespace RealtimeEventsGateway

/-- The channels a client may ask for, each with its room. -/
def CHANNEL_TO_ROOM : List (String × String) :=
  [("jobs", "jobs"), ("alerts", "alerts"), ("incidents", "incidents"),
    ("notifications", "notifications")]

/-- The properties every object has. -/
def objectPrototype : List String :=
  ["constructor", "__defineGetter__", "__defineSetter__", "hasOwnProperty", "__lookupGetter__",
    "__lookupSetter__", "isPrototypeOf", "propertyIsEnumerable", "toString", "valueOf", "__proto__",
    "toLocaleString"]

/-- `CHANNEL_TO_ROOM[channel]`. -/
def roomOf (channel : String) : Option Room :=
  match CHANNEL_TO_ROOM.lookup channel with
  | some room => some (.named room)
  | none => if channel ∈ objectPrototype then some (.inherited channel) else none

/-- The first value, if there are several. -/
def pickQueryValue : HeaderValue → Option String :=
  HeaderValue.first

/-- The first value, if there are several. -/
def pickHeaderValue : HeaderValue → Option String :=
  HeaderValue.first

/-- The token of a handshake. -/
def token (handshake : Handshake) : Option String :=
  handshake.auth.token <|> pickQueryValue handshake.query.token <|>
    pickHeaderValue handshake.headers.token

/-- The operator of a handshake, before it is lower-cased. -/
def operatorIdRaw (handshake : Handshake) : String :=
  (handshake.auth.operatorId <|> pickQueryValue handshake.query.operatorId <|>
    pickHeaderValue handshake.headers.operatorId).getD "observer"

/-- A socket whose token is valid joins the operators and is told that it is ready; any other is
disconnected. -/
def handleConnection (gateway : RealtimeEventsGateway) (client : SocketId)
    (handshake : Handshake) (now : Date) (s : Server) : Server :=
  if AuthService.validateToken gateway.expectedToken (token handshake) then
    let operatorId := gateway.toLowerCase (operatorIdRaw handshake)
    s |>.modify client (fun c => { c with operatorId := some operatorId })
      |>.join client (.named "operators")
      |>.send client (.connectionReady operatorId (CHANNEL_TO_ROOM.map Prod.fst) now)
  else s.disconnect client

/-- Go through the channels of a message : `move` the client in or out of each room there is,
and tell which channels these were. -/
def forChannels (move : SocketId → Room → Server → Server) (client : SocketId) :
    List String → Server → List String × Server
  | [], s => ([], s)
  | channel :: channels, s =>
    match roomOf channel with
    | none => forChannels move client channels s
    | some room =>
      let (told, s) := forChannels move client channels (move client room s)
      (channel :: told, s)

/-- The client joins the room of each channel there is. -/
def subscribe (client : SocketId) (channels : Option (List String)) (s : Server) :
    List String × Server :=
  forChannels Server.join client (channels.getD []) s

/-- The client leaves the room of each channel there is. -/
def unsubscribe (client : SocketId) (channels : Option (List String)) (s : Server) :
    List String × Server :=
  forChannels Server.leave client (channels.getD []) s

/-- Tell the operators of an event, and then the room of its topic. -/
def broadcast (topic : String) (payload : Record) (emittedAt : Option Date) (now : Date)
    (s : Server) : Except String Server := do
  let event : Event := ⟨topic, emittedAt.getD now, payload⟩
  let s ← s.emit "operators" event
  if startsWith topic "job." then s.emit "jobs" event
  else if startsWith topic "alert." then s.emit "alerts" event
  else if startsWith topic "incident." then s.emit "incidents" event
  else if startsWith topic "notification." then s.emit "notifications" event
  else return s

/-- The server once `broadcast` has returned or thrown. It throws at its first `emit` or not at
all. -/
def afterBroadcast (topic : String) (payload : Record) (emittedAt : Option Date) (now : Date)
    (s : Server) : Server :=
  (broadcast topic payload emittedAt now s).toOption.getD s

section

variable {topic : String} {payload : Record} {emittedAt : Option Date} {now : Date} {s : Server}

theorem broadcast_of_mem (h : topic ∈ Server.RESERVED_EVENTS) :
    broadcast topic payload emittedAt now s =
      .error ("\"" ++ topic ++ "\" is a reserved event name") := by
  rw [broadcast, Server.emit, if_pos h]
  rfl

/-- A broadcast of a reserved name reaches nobody. -/
theorem afterBroadcast_of_mem (h : topic ∈ Server.RESERVED_EVENTS) :
    afterBroadcast topic payload emittedAt now s = s := by
  rw [afterBroadcast, broadcast_of_mem h]
  rfl

theorem afterBroadcast_of_notMem (h : topic ∉ Server.RESERVED_EVENTS) :
    afterBroadcast topic payload emittedAt now s =
      let event : Event := ⟨topic, emittedAt.getD now, payload⟩
      let s := s.deliver "operators" event
      if startsWith topic "job." then s.deliver "jobs" event
      else if startsWith topic "alert." then s.deliver "alerts" event
      else if startsWith topic "incident." then s.deliver "incidents" event
      else if startsWith topic "notification." then s.deliver "notifications" event
      else s := by
  have hemit : ∀ (room : String) (s : Server),
      s.emit room ⟨topic, emittedAt.getD now, payload⟩ =
        .ok (s.deliver room ⟨topic, emittedAt.getD now, payload⟩) :=
    Server.emit_of_notMem h
  simp only [afterBroadcast, broadcast, hemit]
  split_ifs <;> rfl

end

end RealtimeEventsGateway

/-! ## Runs -/

/-- What happens at the gateway. -/
inductive RealtimeMove where
  | connect (client : SocketId) (handshake : Handshake) (now : Date)
  | subscribe (client : SocketId) (channels : Option (List String))
  | unsubscribe (client : SocketId) (channels : Option (List String))
  | disconnect (client : SocketId)
  | broadcast (topic : String) (payload : Record) (emittedAt : Option Date) (now : Date)
  deriving DecidableEq

namespace RealtimeEventsGateway

/-- One move. A new socket has a new id, and only connected sockets send messages and
disconnect. -/
def step (gateway : RealtimeEventsGateway) (s : Server) : RealtimeMove → Option Server
  | .connect client handshake now =>
    if (s.sockets client).isNone then
      some (gateway.handleConnection client handshake now (s.accept client))
    else none
  | .subscribe client channels =>
    if s.connected client then some (subscribe client channels s).2 else none
  | .unsubscribe client channels =>
    if s.connected client then some (unsubscribe client channels s).2 else none
  | .disconnect client => if s.connected client then some (s.disconnect client) else none
  | .broadcast topic payload emittedAt now => some (afterBroadcast topic payload emittedAt now s)

section

variable {gateway : RealtimeEventsGateway} {s s' : Server} {client : SocketId}

theorem step_connect {handshake : Handshake} {now : Date} :
    gateway.step s (.connect client handshake now) = some s' ↔
      (s.sockets client).isNone = true ∧
        gateway.handleConnection client handshake now (s.accept client) = s' := by
  simp only [step, Option.ite_none_right_eq_some, Option.some.injEq]

theorem step_subscribe {channels : Option (List String)} :
    gateway.step s (.subscribe client channels) = some s' ↔
      s.connected client = true ∧ (subscribe client channels s).2 = s' := by
  simp only [step, Option.ite_none_right_eq_some, Option.some.injEq]

theorem step_unsubscribe {channels : Option (List String)} :
    gateway.step s (.unsubscribe client channels) = some s' ↔
      s.connected client = true ∧ (unsubscribe client channels s).2 = s' := by
  simp only [step, Option.ite_none_right_eq_some, Option.some.injEq]

theorem step_disconnect :
    gateway.step s (.disconnect client) = some s' ↔
      s.connected client = true ∧ s.disconnect client = s' := by
  simp only [step, Option.ite_none_right_eq_some, Option.some.injEq]

end

/-- The state after the moves, if each is possible in turn. -/
def run (gateway : RealtimeEventsGateway) (ms : List RealtimeMove) : Option Server :=
  ms.foldlM gateway.step .init

end RealtimeEventsGateway

end RealtimeOps
