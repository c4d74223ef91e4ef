import ThoughtGate.Policy.Types
import Mathlib.Data.Rat.Floor
import Mathlib.Data.List.Dedup

/-!
# The policy engine

`policy/engine.rs`: how the two interfaces of the engine put their questions to Cedar. `evaluateV2` is Gate 3, asked
before an approval; `evaluate` is the older interface, asked again before an approved request is sent. The library
itself is a parameter (`Cedar`): its authorizer is any function of the query, the policies and the entities.

The constructors of the library that return a `Result` cannot fail on what the engine builds (ids are any text,
record keys are distinct, no schema is given to the request); the one that can is `Entities::from_entities`.
-/

namespace ThoughtGate

/-- `cedar_policy::RestrictedExpression`, as far as the engine builds it. -/
inductive RestrictedExpression where
  | bool (b : Bool)
  | long (n : Int)
  | string (s : String)
  | set (items : List RestrictedExpression)
  | record (fields : List (String × RestrictedExpression))

structure EntityUid where
  typeName : String
  id : String
deriving DecidableEq

structure Entity where
  uid : EntityUid
  attrs : List (String × RestrictedExpression)
  parents : List EntityUid

/-- `cedar_policy::Request`. -/
structure CedarQuery where
  principal : EntityUid
  action : EntityUid
  resource : EntityUid
  context : List (String × RestrictedExpression)

/-- `cedar_policy::Response`: the decision, the ids of the policies it rests on, the errors met. -/
structure CedarResponse where
  allow : Bool
  reason : List String
  errors : List String

/-- The library: its parsers, its validator, its check of an entity set, its authorizer. -/
class Cedar where
  Schema : Type
  PolicySet : Type
  parseSchema : String → Except String Schema
  parsePolicySet : String → Except String PolicySet
  /-- What the validator has to say against the policies. -/
  validate : Schema → PolicySet → List String
  /-- Why a list of entities is no entity set. -/
  entitiesError : List Entity → Option String
  isAuthorized : CedarQuery → PolicySet → List Entity → CedarResponse

/-- The text that `format!` gives for a double. -/
class F64.Display where
  display : F64 → String

/-- `PolicySource`. -/
inductive PolicySource where
  | configMap (path : String) (loadedAt : DateTime)
  | environment (loadedAt : DateTime)
  | embedded
deriving DecidableEq

/-- `PolicySnapshot`; the text is kept beside what was parsed from it, the annotations are read by nothing. -/
structure PolicySnapshot [Cedar] where
  text : String
  policies : Cedar.PolicySet
  source : PolicySource

structure CedarEngine [Cedar] where
  schema : Cedar.Schema
  snapshot : PolicySnapshot

namespace CedarEngine

/-! ### Queries -/

/-- `build_context_v2`. -/
def buildContextV2 (ctx : CedarContext) : List (String × RestrictedExpression) :=
  [("policy_id", .string ctx.policyId),
   ("source_id", .string ctx.sourceId),
   ("time", .record [("hour", .long ctx.time.hour), ("day_of_week", .long ctx.time.dayOfWeek),
     ("timestamp", .long ctx.time.timestamp)])]

def appUid (name : String) : EntityUid := ⟨"ThoughtGate::App", name⟩

def actionUid (name : String) : EntityUid := ⟨"ThoughtGate::Action", name⟩

def roleUid (name : String) : EntityUid := ⟨"ThoughtGate::Role", name⟩

def toolCallUid (name : String) : EntityUid := ⟨"ThoughtGate::ToolCall", name⟩

def mcpMethodUid (method : String) : EntityUid := ⟨"ThoughtGate::McpMethod", method⟩

/-- The action `evaluate_v2` asks for. -/
def actionNameV2 : CedarResource → String
  | .toolCall .. => "tools/call"
  | .mcpMethod .. => "mcp/method"

/-- `build_cedar_request_v2`. -/
def buildCedarRequestV2 (request : CedarRequest) (actionName : String) : CedarQuery where
  principal := appUid request.principal.appName
  action := actionUid actionName
  resource := match request.resource with
    | .toolCall name _ _ => toolCallUid name
    | .mcpMethod method _ => mcpMethodUid method
  context := buildContextV2 request.context

def roleEntity (role : String) : Entity := ⟨roleUid role, [("name", .string role)], []⟩

def principalEntity (p : PolicyPrincipal) : Entity where
  uid := appUid p.appName
  attrs := [("name", .string p.appName), ("namespace", .string p.nameSpace),
    ("service_account", .string p.serviceAccount)]
  parents := (p.roles.map roleUid).dedup

/-- The context of `build_cedar_request`: the grant, if there is one. -/
def grantContext (ctx : Option PolicyContext) : List (String × RestrictedExpression) :=
  match ctx.bind (·.approvalGrant) with
  | none => []
  | some grant =>
    [("approval_grant", .record [("task_id", .string grant.taskId), ("approved_by", .string grant.approvedBy),
      ("approved_at", .long grant.approvedAt)])]

/-- `build_cedar_request`. -/
def buildCedarRequest (request : PolicyRequest) (actionName : String) : CedarQuery where
  principal := appUid request.principal.appName
  action := actionUid actionName
  resource := match request.resource with
    | .toolCall name _ => toolCallUid name
    | .mcpMethod method _ => mcpMethodUid method
  context := grantContext request.context

/-- The reason that `evaluate_v2` gives for a denial. -/
def denyReason (response : CedarResponse) : String :=
  if response.errors.isEmpty then
    if response.reason.isEmpty then "No policy permits this action (default-deny)"
    else "Forbidden by policy: " ++ String.intercalate ", " response.reason
  else "Policy evaluation errors: " ++ String.intercalate "; " response.errors

/-! ### Arguments -/

/-- `MAX_JSON_DEPTH`. -/
def maxJsonDepth : Nat := 64

def jsonDepthError : PolicyError := .cedarError "JSON nesting depth exceeds maximum of 64"

/-- `f64::round`, half away from zero, and the saturating cast to `i64`. -/
def roundToLong (f : F64) : Int :=
  let rounded := if 0 ≤ f.val then ⌊f.val + 1 / 2⌋ else ⌈f.val - 1 / 2⌉
  max (-2 ^ 63) (min (2 ^ 63 - 1) rounded)

/-- The cast back to a double. A rounded double is a double again; only `i64::MAX`, to which the first cast
saturates, is not. -/
def longToF64 (n : Int) : Rat := if n = 2 ^ 63 - 1 then 2 ^ 63 else n

section

variable [F64.Display]

def numberToCedar : Number → Except PolicyError RestrictedExpression
  | .posInt n => if n ≤ 2 ^ 63 - 1 then .ok (.long n) else .ok (.string (toString n))
  | .negInt i => .ok (.long i)
  | .float f =>
    let rounded := roundToLong f
    if 1 / 2 ^ 52 < |f.val - longToF64 rounded| then
      .error (.cedarError ("Float value " ++ F64.Display.display f ++ " cannot be represented as Cedar Long; " ++
        "fractional values are not supported in policy evaluation"))
    else .ok (.long rounded)

mutual

/-- `json_to_cedar_expr_depth`. -/
def jsonToCedarExprDepth (depth : Nat) : Value → Except PolicyError RestrictedExpression
  | .null => if maxJsonDepth < depth then .error jsonDepthError else .ok (.record [])
  | .bool b => if maxJsonDepth < depth then .error jsonDepthError else .ok (.bool b)
  | .number n => if maxJsonDepth < depth then .error jsonDepthError else numberToCedar n
  | .string s => if maxJsonDepth < depth then .error jsonDepthError else .ok (.string s)
  | .array xs =>
    if maxJsonDepth < depth then .error jsonDepthError
    else do
      let items ← jsonItemsToCedar (depth + 1) xs
      .ok (.set items)
  | .object fields =>
    if maxJsonDepth < depth then .error jsonDepthError
    else do
      let fields ← jsonFieldsToCedar (depth + 1) fields
      .ok (.record fields)

def jsonItemsToCedar (depth : Nat) : List Value → Except PolicyError (List RestrictedExpression)
  | [] => .ok []
  | x :: xs => do
    let e ← jsonToCedarExprDepth depth x
    let es ← jsonItemsToCedar depth xs
    .ok (e :: es)

def jsonFieldsToCedar (depth : Nat) : List (String × Value) → Except PolicyError (List (String × RestrictedExpression))
  | [] => .ok []
  | (k, v) :: fields => do
    let e ← jsonToCedarExprDepth depth v
    let es ← jsonFieldsToCedar depth fields
    .ok ((k, e) :: es)

end

/-- `json_to_cedar_expr`. -/
def jsonToCedarExpr (v : Value) : Except PolicyError RestrictedExpression := jsonToCedarExprDepth 0 v

/-! ### The question of Gate 3 -/

def resourceEntity : CedarResource → Except PolicyError Entity
  | .toolCall name server arguments => do
    let args ← jsonToCedarExpr arguments
    .ok ⟨toolCallUid name, [("name", .string name), ("server", .string server), ("arguments", args)], []⟩
  | .mcpMethod method server =>
    .ok ⟨mcpMethodUid method, [("method", .string method), ("server", .string server)], []⟩

variable [Cedar]

/-- `build_entities_v2`. -/
def buildEntitiesV2 (request : CedarRequest) : Except PolicyError (List Entity) := do
  let resource ← resourceEntity request.resource
  let entities := request.principal.roles.map roleEntity ++ [principalEntity request.principal, resource]
  match Cedar.entitiesError entities with
  | some e => .error (.cedarError ("Failed to create entities: " ++ e))
  | none => .ok entities

/-- `evaluate_v2`. -/
def evaluateV2 (e : CedarEngine) (request : CedarRequest) : CedarDecision :=
  match buildEntitiesV2 request with
  | .error err => .forbid ("Failed to build entities: " ++ err.display) []
  | .ok entities =>
    let response := Cedar.isAuthorized (buildCedarRequestV2 request (actionNameV2 request.resource))
      e.snapshot.policies entities
    if response.allow then .permit response.reason else .forbid (denyReason response) response.reason

theorem evaluateV2_isPermit_iff (e : CedarEngine) (request : CedarRequest) :
    (e.evaluateV2 request).isPermit = true ↔
      ∃ entities, buildEntitiesV2 request = .ok entities ∧
        (Cedar.isAuthorized (buildCedarRequestV2 request (actionNameV2 request.resource)) e.snapshot.policies
          entities).allow = true := by
  unfold evaluateV2
  cases buildEntitiesV2 request with
  | error err => simp [CedarDecision.isPermit]
  | ok entities =>
    by_cases hallow : (Cedar.isAuthorized (buildCedarRequestV2 request (actionNameV2 request.resource))
        e.snapshot.policies entities).allow = true
    · simp [hallow, CedarDecision.isPermit]
    · simp [hallow, CedarDecision.isPermit]

end

/-! ### The question after an approval -/

variable [Cedar]

/-- `is_action_permitted`, without entities. -/
def isActionPermitted (e : CedarEngine) (request : PolicyRequest) (actionName : String) : Bool :=
  (Cedar.isAuthorized (buildCedarRequest request actionName) e.snapshot.policies []).allow

/-- `evaluate`. -/
def evaluate (e : CedarEngine) (request : PolicyRequest) : PolicyAction :=
  if e.isActionPermitted request "Forward" then .forward
  else if e.isActionPermitted request "Approve" then .approve (Duration.fromSecs 300)
  else .reject "No policy permits this request"

end CedarEngine

namespace Sample

/-- No sample holds a double. -/
@[reducible] def f64Display : F64.Display := ⟨fun _ => ""⟩

def toolsOnly : String := "permit(principal, action == ThoughtGate::Action::\"tools/call\", resource);"

/-- What `defaults.cedar` permits, in four policies. -/
def permitAll : String :=
  "permit(principal, action == ThoughtGate::Action::\"tools/call\", resource);\n" ++
  "permit(principal, action == ThoughtGate::Action::\"mcp/method\", resource);\n" ++
  "permit(principal, action == ThoughtGate::Action::\"Forward\", resource);\n" ++
  "permit(principal, action == ThoughtGate::Action::\"Approve\", resource);"

/-- Cedar on these two policy sets: the actions that are permitted. -/
@[reducible] def cedar : Cedar where
  Schema := Unit
  PolicySet := List String
  parseSchema _ := .ok ()
  parsePolicySet text :=
    if text = toolsOnly then .ok ["tools/call"]
    else if text = permitAll then .ok ["tools/call", "mcp/method", "Forward", "Approve"]
    else .error "unexpected token"
  validate _ _ := []
  entitiesError _ := none
  isAuthorized q policies _ :=
    if q.action.id ∈ policies then ⟨true, ["policy0"], []⟩ else ⟨false, [], []⟩

end Sample

end ThoughtGate
