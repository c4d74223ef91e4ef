import ThoughtGate.Base.Json
import ThoughtGate.Base.Time

/-!
# Requests and answers of the policy engine

The types of `policy/mod.rs` (the v0.1 interface, still used after an approval) and of `policy/types.rs` (the v0.2
interface of Gate 3).
-/

namespace ThoughtGate

/-- `policy::Principal`. -/
structure PolicyPrincipal where
  appName : String
  nameSpace : String
  serviceAccount : String
  roles : List String
deriving DecidableEq

inductive Resource where
  | toolCall (name server : String)
  | mcpMethod (method server : String)
deriving DecidableEq

structure ApprovalGrant where
  taskId : String
  approvedBy : String
  approvedAt : Int
deriving DecidableEq

structure PolicyContext where
  approvalGrant : Option ApprovalGrant
deriving DecidableEq

structure PolicyRequest where
  principal : PolicyPrincipal
  resource : Resource
  context : Option PolicyContext
deriving DecidableEq

inductive PolicyAction where
  | forward
  | approve (timeout : Duration)
  | reject (reason : String)
deriving DecidableEq

def PolicyAction.isReject : PolicyAction → Bool
  | .reject _ => true
  | _ => false

inductive CedarResource where
  | toolCall (name server : String) (arguments : Value)
  | mcpMethod (method server : String)

structure TimeContext where
  hour : Nat
  dayOfWeek : Nat
  timestamp : Int
deriving DecidableEq

structure CedarContext where
  policyId : String
  sourceId : String
  time : TimeContext
deriving DecidableEq

structure CedarRequest where
  principal : PolicyPrincipal
  resource : CedarResource
  context : CedarContext

inductive CedarDecision where
  | permit (determiningPolicies : List String)
  | forbid (reason : String) (policyIds : List String)
deriving DecidableEq

def CedarDecision.isPermit : CedarDecision → Bool
  | .permit _ => true
  | .forbid .. => false

/-- `PolicyError` and its texts. -/
inductive PolicyError where
  | parseError (details : String)
  | schemaValidation (details : String)
  | identityError (details : String)
  | cedarError (details : String)
  | policyLoadError (path reason : String)
deriving DecidableEq

/-- `to_string`; the engine never knows a line number. -/
def PolicyError.display : PolicyError → String
  | .parseError details => "Policy parse error at line None: " ++ details
  | .schemaValidation details => "Schema validation failed: " ++ details
  | .identityError details => "Identity error: " ++ details
  | .cedarError details => "Cedar engine error: " ++ details
  | .policyLoadError path reason => "failed to load policy from " ++ path ++ ": " ++ reason

end ThoughtGate
