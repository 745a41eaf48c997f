import Mathlib.Data.Rat.Defs
import RealtimeOps.RealtimeGateway

/-!
# Handshakes

The `auth` of a handshake is whatever JSON the client sends; `handleConnection` asserts that its
fields are texts and does not check. `Untyped.handleConnection` is the handler on such handshakes,
and where the fields are texts it is the handler of the runs (`handleConnection_untyped`).

The token is safe : `validateToken` checks its type. The operator id is not, so an accepted client
whose `operatorId` is neither a text nor `null` makes the handler throw. Every other handshake ends
in one of two ways (`handshake_dichotomy`).
-/

set_option autoImplicit false

namespace RealtimeOps

namespace RealtimeEventsGateway

namespace Untyped

/-! ## The handler -/

/-- What `JSON.parse` makes of what a client sends. Of an object or an array only the text is kept,
since nobody looks inside one. -/
inductive Value where
  | null
  | bool (b : Bool)
  | num (q : ℚ)
  | str (text : String)
  | nested (text : String)
  deriving DecidableEq

/-- The text, if `typeof value === 'string'`. -/
def Value.text? : Value → Option String
  | str text => some text
  | _ => none

/-- `client.handshake.auth`, in which a client may put any JSON. -/
structure ClientHandshakeAuth where
  token : Option Value
  operatorId : Option Value
  deriving DecidableEq

/-- `client.handshake`. -/
structure Handshake where
  auth : ClientHandshakeAuth
  query : OperatorValues
  headers : OperatorValues
  deriving DecidableEq

/-- What `??` goes on from : a value that is there and not `null`. -/
def nonNull (value : Option Value) : Option Value :=
  value.filter fun value => value ≠ .null

/-- The token of a handshake. -/
def token (handshake : Handshake) : Option Value :=
  nonNull handshake.auth.token <|> (pickQueryValue handshake.query.token).map Value.str <|>
    (pickHeaderValue handshake.headers.token).map Value.str

/-- The operator of a handshake, which need not be a text. -/
def operatorIdRaw (handshake : Handshake) : Value :=
  (nonNull handshake.auth.operatorId <|>
    (pickQueryValue handshake.query.operatorId).map Value.str <|>
    (pickHeaderValue handshake.headers.operatorId).map Value.str).getD (.str "observer")

/-- `operatorIdRaw.toLowerCase()`, or the text of the `TypeError`. -/
def toLowerCase (gateway : RealtimeEventsGateway) : Value → Except String String
  | .str text => .ok (gateway.toLowerCase text)
  | _ => .error "operatorIdRaw.toLowerCase is not a function"

/-- If it throws, it has done nothing yet. -/
def handleConnection (gateway : RealtimeEventsGateway) (client : SocketId)
    (handshake : Handshake) (now : Date) (s : Server) : Except String Server :=
  if AuthService.validateToken gateway.expectedToken ((token handshake).bind Value.text?) then do
    let operatorId ← toLowerCase gateway (operatorIdRaw handshake)
    return s |>.modify client (fun c => { c with operatorId := some operatorId })
      |>.join client (.named "operators")
      |>.send client (.connectionReady operatorId (CHANNEL_TO_ROOM.map Prod.fst) now)
  else
    return s.disconnect client

end Untyped

/-! ## Handshakes of texts -/

/-- The handshake as it comes in. -/
def untyped (handshake : Handshake) : Untyped.Handshake where
  auth := ⟨handshake.auth.token.map .str, handshake.auth.operatorId.map .str⟩
  query := handshake.query
  headers := handshake.headers

theorem token_untyped (handshake : Handshake) :
    (Untyped.token (untyped handshake)).bind Untyped.Value.text? = token handshake := by
  obtain ⟨⟨authToken, authOperatorId⟩, query, headers⟩ := handshake
  cases authToken with
  | some text => rfl
  | none =>
    simp only [Untyped.token, untyped, token, Option.map_none]
    cases pickQueryValue query.token <;> cases pickHeaderValue headers.token <;> rfl

theorem operatorIdRaw_untyped (handshake : Handshake) :
    Untyped.operatorIdRaw (untyped handshake) = .str (operatorIdRaw handshake) := by
  obtain ⟨⟨authToken, authOperatorId⟩, query, headers⟩ := handshake
  cases authOperatorId with
  | some text => rfl
  | none =>
    simp only [Untyped.operatorIdRaw, untyped, operatorIdRaw, Option.map_none]
    cases pickQueryValue query.operatorId <;> cases pickHeaderValue headers.operatorId <;> rfl

/-- On texts the handler does not throw, and does what the runs take it to do. -/
theorem handleConnection_untyped (gateway : RealtimeEventsGateway) (client : SocketId)
    (handshake : Handshake) (now : Date) (s : Server) :
    Untyped.handleConnection gateway client (untyped handshake) now s =
      .ok (gateway.handleConnection client handshake now s) := by
  rw [Untyped.handleConnection, handleConnection, token_untyped, operatorIdRaw_untyped]
  split_ifs <;> rfl

/-! ## How a handshake ends -/

section Ends

variable (gateway : RealtimeEventsGateway)

/-- The token is the expected one. No token is expected if none is configured. -/
def Expects (token : Option Untyped.Value) : Prop :=
  token = some (.str gateway.expectedToken) ∧ gateway.expectedToken ≠ ""

instance (token : Option Untyped.Value) : Decidable (gateway.Expects token) :=
  inferInstanceAs (Decidable (_ ∧ _))

/-- The socket is in the room of the operators, under the operator's id in lower case, and has
received that it is ready and nothing else. -/
def Joined (client : SocketId) (handshake : Untyped.Handshake) (now : Date) (s : Server) : Prop :=
  ∃ raw operatorId, Untyped.operatorIdRaw handshake = .str raw ∧
    gateway.toLowerCase raw = operatorId ∧
    s.sockets client = some
      { connected := true
        operatorId := some operatorId
        rooms := {.named "operators"}
        received := [.connectionReady operatorId (CHANNEL_TO_ROOM.map Prod.fst) now] }

/-- The socket is disconnected, in no room, and has received nothing. -/
def TurnedAway (client : SocketId) (s : Server) : Prop :=
  s.sockets client = some { connected := false, operatorId := none, rooms := ∅, received := [] }

/-- The handshake of a new socket ends without throwing : with the expected token the socket has
joined, and with any other, or none, it is turned away. -/
def Dichotomy (client : SocketId) (handshake : Untyped.Handshake) (now : Date) (s : Server) :
    Prop :=
  ∃ s', Untyped.handleConnection gateway client handshake now (s.accept client) = .ok s' ∧
    if gateway.Expects (Untyped.token handshake) then gateway.Joined client handshake now s'
    else TurnedAway client s'

/-- The operator id in the `auth` is absent, `null` or a text. -/
def NamesOperator (handshake : Untyped.Handshake) : Prop :=
  ∀ value ∈ handshake.auth.operatorId, value = .null ∨ ∃ text, value = .str text

variable {gateway} {client : SocketId} {handshake : Untyped.Handshake} {now : Date} {s : Server}

/-- The service checks the type of what it is given. -/
theorem validateToken_iff {token : Option Untyped.Value} :
    AuthService.validateToken gateway.expectedToken (token.bind Untyped.Value.text?) = true ↔
      gateway.Expects token := by
  unfold Expects
  cases token with
  | none => simp [AuthService.validateToken]
  | some value =>
    cases value with
    | str text =>
      simp only [AuthService.validateToken, Option.bind_some, Untyped.Value.text?, Option.any_some,
        decide_eq_true_eq, Option.some.injEq, Untyped.Value.str.injEq]
      constructor
      · rintro ⟨hne, rfl⟩
        exact ⟨rfl, hne⟩
      · rintro ⟨rfl, hne⟩
        exact ⟨hne, rfl⟩
    | null | bool | num | nested => simp [AuthService.validateToken, Untyped.Value.text?]

/-- Only the `auth` brings an operator id that is no text. -/
theorem namesOperator_iff :
    NamesOperator handshake ↔ ∃ text, Untyped.operatorIdRaw handshake = .str text := by
  have hquery : ∃ text, ((pickQueryValue handshake.query.operatorId).map Untyped.Value.str <|>
      (pickHeaderValue handshake.headers.operatorId).map Untyped.Value.str).getD
        (.str "observer") = .str text := by
    cases pickQueryValue handshake.query.operatorId <;>
      cases pickHeaderValue handshake.headers.operatorId <;> exact ⟨_, rfl⟩
  unfold NamesOperator Untyped.operatorIdRaw
  cases handshake.auth.operatorId with
  | none => exact iff_of_true (by simp) hquery
  | some value =>
    cases value with
    | null => exact iff_of_true (by simp) hquery
    | str text => exact iff_of_true (by simp) ⟨text, rfl⟩
    | bool | num | nested =>
      refine iff_of_false (by simp) ?_
      rintro ⟨text, ⟨⟩⟩

/-- Without the expected token the client is turned away, whatever it has sent. -/
theorem dichotomy_of_not_expects (h : ¬gateway.Expects (Untyped.token handshake)) :
    gateway.Dichotomy client handshake now s := by
  refine ⟨(s.accept client).disconnect client, ?_, ?_⟩
  · rw [Untyped.handleConnection, if_neg (validateToken_iff.not.mpr h)]
    rfl
  · rw [if_neg h]
    simp [TurnedAway, Server.disconnect, Server.accept]

theorem dichotomy_of_text (h : gateway.Expects (Untyped.token handshake)) {text : String}
    (htext : Untyped.operatorIdRaw handshake = .str text) :
    gateway.Dichotomy client handshake now s := by
  refine ⟨_, by rw [Untyped.handleConnection, if_pos (validateToken_iff.mpr h), htext]; rfl, ?_⟩
  rw [if_pos h]
  exact ⟨text, _, htext, rfl, by simp [Server.send, Server.join, Server.accept]⟩

/-- With the expected token and an operator id that is no text the handler throws. -/
theorem handleConnection_of_not_text (h : gateway.Expects (Untyped.token handshake))
    (htext : ∀ text, Untyped.operatorIdRaw handshake ≠ .str text) :
    Untyped.handleConnection gateway client handshake now s =
      .error "operatorIdRaw.toLowerCase is not a function" := by
  rw [Untyped.handleConnection, if_pos (validateToken_iff.mpr h)]
  cases hraw : Untyped.operatorIdRaw handshake with
  | str text => exact absurd hraw (htext text)
  | null | bool | num | nested => rfl

end Ends

/-- A handshake ends in one of the two ways, whatever its values are and wherever they stand,
exactly if it does not come with the expected token and an operator id that is no text. -/
theorem handshake_dichotomy (gateway : RealtimeEventsGateway) (client : SocketId)
    (handshake : Untyped.Handshake) (now : Date) (s : Server) :
    gateway.Dichotomy client handshake now s ↔
      (gateway.Expects (Untyped.token handshake) → NamesOperator handshake) := by
  by_cases hexpects : gateway.Expects (Untyped.token handshake)
  · rw [forall_prop_of_true hexpects, namesOperator_iff]
    constructor
    · rintro ⟨s', hs', -⟩
      by_contra hno
      rw [handleConnection_of_not_text hexpects (not_exists.mp hno)] at hs'
      cases hs'
    · rintro ⟨text, htext⟩
      exact dichotomy_of_text hexpects htext
  · exact iff_of_true (dichotomy_of_not_expects hexpects) fun h => absurd h hexpects

/-- The operator id is a number. -/
theorem not_handshake_dichotomy :
    ¬(⟨"secret", RealtimeOps.toLowerCase⟩ : RealtimeEventsGateway).Dichotomy "a"
      ⟨⟨some (.str "secret"), some (.num 7)⟩, ⟨.absent, .absent⟩, ⟨.absent, .absent⟩⟩ 0 .init := by
  rintro ⟨s', hs', -⟩
  cases hs'

end RealtimeEventsGateway

end RealtimeOps
