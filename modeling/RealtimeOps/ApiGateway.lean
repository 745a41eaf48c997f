import RealtimeOps.AlertService
import RealtimeOps.JobService

/-!
# The API gateway

What a request passes before it reaches a service : `AuthService.resolveOperatorId`, with which
the guard takes the operator from the `x-operator-id` header, the checks of `CreateJobDto` and
`CreateAlertDto`, and the controllers that build the services' inputs from them.
-/

set_option autoImplicit false

namespace RealtimeOps

/-! ## The operator -/

/-- The white space and line terminators that `String.prototype.trim` removes. -/
def isWhiteSpace (c : Char) : Bool :=
  let n := c.toNat
  (9 ≤ n && n ≤ 13) || n = 32 || n = 160 || n = 0x1680 || (0x2000 ≤ n && n ≤ 0x200A) ||
    n = 0x2028 || n = 0x2029 || n = 0x202F || n = 0x205F || n = 0x3000 || n = 0xFEFF

/-- `String.prototype.trim`. -/
def trim (text : String) : String :=
  String.ofList
    (((text.toList.dropWhile isWhiteSpace).reverse.dropWhile isWhiteSpace).reverse)

/-- The lower case of a character. A header value is a Latin-1 string, and no other character
is changed. -/
def lowerCase (c : Char) : Char :=
  let n := c.toNat
  if (65 ≤ n ∧ n ≤ 90) ∨ (192 ≤ n ∧ n ≤ 222 ∧ n ≠ 215) then Char.ofNat (n + 32) else c

/-- `String.prototype.toLowerCase` on a header value. -/
def toLowerCase (text : String) : String :=
  String.ofList (text.toList.map lowerCase)

/-- What a request brings under a name : nothing, a text or several. -/
inductive HeaderValue where
  | absent
  | text (text : String)
  | texts (texts : List String)
  deriving DecidableEq

/-- The text, or the first of several. -/
def HeaderValue.first : HeaderValue → Option String
  | .absent => none
  | .text value => some value
  | .texts values => values.head?

namespace AuthService

/-- An empty token is never the expected one. -/
def validateToken (expectedToken : String) (token : Option String) : Bool :=
  token.any fun token => decide (token ≠ "" ∧ token = expectedToken)

/-- The operator a request acts for, or the text of the `UnauthorizedException`. -/
def resolveOperatorId (rawValue : Option String) : Except String String :=
  match rawValue with
  | some raw =>
    if (trim raw).length > 1 then .ok (toLowerCase (trim raw))
    else .error "Operator identity is required"
  | none => .error "Operator identity is required"

end AuthService

/-! ## Requests -/

/-- The values of the headers `x-operator-token` and `x-operator-id`, or of a query. -/
structure OperatorValues where
  token : HeaderValue
  operatorId : HeaderValue
  deriving DecidableEq

/-- What the guards read of a request. -/
structure Request where
  headers : OperatorValues
  ip : Option String
  method : String
  /-- `request.route?.path`. -/
  routePath : Option String
  path : String
  deriving DecidableEq

/-- A request at its handler, which may be public. -/
structure ExecutionContext where
  isPublic : Bool
  request : Request
  deriving DecidableEq

namespace OperatorAuthGuard

/-- The first value, if there are several. -/
def extractHeader : HeaderValue → Option String :=
  HeaderValue.first

/-- The operator of a request, none on a public route, or the text of the
`UnauthorizedException`. -/
def canActivate (expectedToken : String) (context : ExecutionContext) :
    Except String (Option String) :=
  if context.isPublic then .ok none
  else if AuthService.validateToken expectedToken (extractHeader context.request.headers.token) then
    (AuthService.resolveOperatorId (extractHeader context.request.headers.operatorId)).map some
  else .error "Invalid operator token"

end OperatorAuthGuard

/-! ## Bodies -/

/-- The body of `POST /jobs`. -/
structure CreateJobDto where
  name : String
  type : String
  payload : Record
  priority : Option ℕ
  maxAttempts : Option ℕ
  deriving DecidableEq

/-- The body passes its checks. No text is bounded. -/
structure CreateJobDto.Valid (dto : CreateJobDto) : Prop where
  name : dto.name ≠ ""
  type : dto.type ≠ ""
  priority : ∀ n ∈ dto.priority, 1 ≤ n ∧ n ≤ 10
  maxAttempts : ∀ n ∈ dto.maxAttempts, 1 ≤ n ∧ n ≤ 10

/-- What the controller hands to `JobService.create`. -/
def JobsController.createJob (dto : CreateJobDto) (operatorId : String) : CreateJobInput where
  name := dto.name
  type := dto.type
  payload := dto.payload
  priority := dto.priority.getD 3
  maxAttempts := dto.maxAttempts.getD 3
  operatorId := operatorId

/-- The body of `POST /alerts`. -/
structure CreateAlertDto where
  jobId : Option Uuid
  severity : AlertSeverity
  title : String
  description : String
  createIncident : Option Bool
  deriving DecidableEq

/-- The body passes its checks. -/
structure CreateAlertDto.Valid (dto : CreateAlertDto) : Prop where
  title : dto.title ≠ "" ∧ dto.title.length ≤ 120
  description : dto.description ≠ ""

/-- What the controller hands to `AlertService.create`. -/
def AlertsController.createAlert (dto : CreateAlertDto) (operatorId : String) :
    CreateAlertInput where
  jobId := dto.jobId
  source := "operator"
  severity := dto.severity
  title := dto.title
  description := dto.description
  operatorId := operatorId
  createIncident := dto.createIncident.getD false

/-- An operator id of `n` characters. -/
def operatorIdOf (n : ℕ) : String :=
  String.ofList (List.replicate n 'a')

theorem length_operatorIdOf (n : ℕ) : (operatorIdOf n).length = n :=
  String.length_ofList.trans List.length_replicate

/-- Operator ids of every length but 0 and 1 pass the guard. -/
theorem resolveOperatorId_operatorIdOf {n : ℕ} (hn : 1 < n) :
    AuthService.resolveOperatorId (some (operatorIdOf n)) = .ok (operatorIdOf n) := by
  have hdrop : (List.replicate n 'a').dropWhile isWhiteSpace = List.replicate n 'a' := by
    cases n with
    | zero => rfl
    | succ n => rfl
  have htrim : trim (operatorIdOf n) = operatorIdOf n := by
    rw [trim, operatorIdOf, String.toList_ofList, hdrop, List.reverse_replicate, hdrop,
      List.reverse_replicate]
  have hlower : toLowerCase (operatorIdOf n) = operatorIdOf n := by
    rw [toLowerCase, operatorIdOf, String.toList_ofList, List.map_replicate]
    rfl
  rw [AuthService.resolveOperatorId, htrim, hlower, length_operatorIdOf, if_pos hn]

end RealtimeOps
