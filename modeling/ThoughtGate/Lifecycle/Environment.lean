import ThoughtGate.Policy.Loader
import ThoughtGate.Transport.JsonRpc
import ThoughtGate.Base.Text

/-!
# Development bypasses

Two variables of the environment switch safeguards off: `THOUGHTGATE_DEV_MODE` puts a made-up principal in the place of
the caller's (`infer_principal` of `policy/principal.rs`), and `THOUGHTGATE_APPROVAL_ADAPTER` an adapter that approves by
itself in the place of Slack (`mcp_handler/factory.rs`). `validate_environment` of `lifecycle/mod.rs` lets them through
outside production, and recognises production by its spellings: the name of an environment that is neither one of these
nor `development` nor `test` lets the bypasses through as well (`bypass_in_development_iff`).

`std::env::var` is `none` for a variable that is not set or is not Unicode.
-/

namespace ThoughtGate

/-- The decoder of the `base64` crate for the URL-safe alphabet without padding. -/
class Base64Url where
  decode : String → Option ByteArray

/-! ### Principals -/

namespace Principals

/-- The directory of the service account. -/
def serviceAccountFile (name : String) : String := "/var/run/secrets/kubernetes.io/serviceaccount/" ++ name

/-- `dev_mode_principal`. -/
def devModePrincipal (env : String → Option String) : PolicyPrincipal where
  appName := (env "THOUGHTGATE_DEV_PRINCIPAL").getD "dev-app"
  nameSpace := (env "THOUGHTGATE_DEV_NAMESPACE").getD "development"
  serviceAccount := "dev-sa"
  roles := ["dev"]

variable [Base64Url] [JsonText]

/-- `parse_service_account_from_token`. -/
def parseServiceAccountFromToken (token : String) : Option String :=
  match token.toList.splitOn '.' with
  | [_, payload, _] => do
    let decoded ← Base64Url.decode (String.ofList payload)
    let claims ← (JsonText.parse decoded).toOption
    let name ← claims.get "kubernetes.io/serviceaccount/service-account.name"
    name.asStr
  | _ => none

/-- `kubernetes_principal`. -/
def kubernetesPrincipal (w : World) : Except PolicyError PolicyPrincipal :=
  match w.env "HOSTNAME" with
  | none => .error (.identityError "HOSTNAME environment variable not set")
  | some appName =>
    match w.readToString (serviceAccountFile "namespace") with
    | .error e => .error (.identityError ("Cannot read namespace from ServiceAccount mount: " ++ e))
    | .ok nameSpace =>
      .ok {
        appName
        nameSpace := Text.trim nameSpace
        serviceAccount :=
          ((w.readToString (serviceAccountFile "token")).toOption.bind parseServiceAccountFromToken).getD "default"
        roles := [] }

/-- `infer_principal`. -/
def inferPrincipal (w : World) : Except PolicyError PolicyPrincipal :=
  if w.env "THOUGHTGATE_DEV_MODE" = some "true" then .ok (devModePrincipal w.env) else kubernetesPrincipal w

/-- The principal of a pod has no roles. -/
theorem roles_of_kubernetesPrincipal {w : World} {principal : PolicyPrincipal}
    (h : kubernetesPrincipal w = .ok principal) : principal.roles = [] := by
  unfold kubernetesPrincipal at h
  split at h
  · cases h
  · split at h
    · cases h
    · cases h
      rfl

/-- The made-up principal is nobody else's. -/
theorem inferPrincipal_dev_iff (w : World) :
    inferPrincipal w = .ok (devModePrincipal w.env) ↔ w.env "THOUGHTGATE_DEV_MODE" = some "true" := by
  unfold inferPrincipal
  split
  · rename_i hdev
    exact ⟨fun _ => hdev, fun _ => rfl⟩
  · rename_i hdev
    refine ⟨fun h => ?_, fun h => absurd h hdev⟩
    have hroles := roles_of_kubernetesPrincipal h
    cases hroles

end Principals

/-! ### Adapters -/

/-- The adapter that the factory makes. -/
inductive AdapterKind where
  | mock
  | slack
deriving DecidableEq

/-- The choice of `create_governance_components`. -/
def AdapterKind.ofEnv (env : String → Option String) : AdapterKind :=
  match env "THOUGHTGATE_APPROVAL_ADAPTER" with
  | some "mock" => .mock
  | _ => .slack

theorem AdapterKind.ofEnv_mock_iff (env : String → Option String) :
    ofEnv env = .mock ↔ env "THOUGHTGATE_APPROVAL_ADAPTER" = some "mock" := by
  unfold ofEnv
  split
  · rename_i hmock
    exact ⟨fun _ => hmock, fun _ => rfl⟩
  · rename_i hother
    exact ⟨fun h => (by cases h), fun h => absurd h hother⟩

/-! ### The check at startup -/

namespace Environment

/-- `THOUGHTGATE_ENVIRONMENT`. -/
def name (env : String → Option String) : String := (env "THOUGHTGATE_ENVIRONMENT").getD "production"

/-- The names that are taken for production. -/
def isProduction (environment : String) : Bool := ["production", "prod", ""].contains environment

/-- `validate_environment`. -/
def validateEnvironment (env : String → Option String) : Except String Unit :=
  let isProduction := isProduction (name env)
  let devMode := env "THOUGHTGATE_DEV_MODE" == some "true"
  let mockAdapter := env "THOUGHTGATE_APPROVAL_ADAPTER" == some "mock"
  if devMode && isProduction then
    .error ("THOUGHTGATE_DEV_MODE=true is not allowed in production. " ++
      "Set THOUGHTGATE_ENVIRONMENT=development to use dev mode.")
  else if mockAdapter && isProduction then
    .error ("THOUGHTGATE_APPROVAL_ADAPTER=mock is not allowed in production. " ++
      "Set THOUGHTGATE_ENVIRONMENT=development to use the mock adapter.")
  else .ok ()

/-- One of the two variables asks for a bypass. -/
def BypassRequested (env : String → Option String) : Prop :=
  env "THOUGHTGATE_DEV_MODE" = some "true" ∨ env "THOUGHTGATE_APPROVAL_ADAPTER" = some "mock"

/-- The environments that are documented to have the bypasses. -/
def IsDevelopment (env : String → Option String) : Prop :=
  env "THOUGHTGATE_ENVIRONMENT" = some "development" ∨ env "THOUGHTGATE_ENVIRONMENT" = some "test"

/-- A bypass gets through if and only if the environment is not called one of the names of production. -/
theorem validateEnvironment_ok_iff (env : String → Option String) :
    validateEnvironment env = .ok () ↔ (BypassRequested env → isProduction (name env) = false) := by
  unfold validateEnvironment BypassRequested
  by_cases hdev : env "THOUGHTGATE_DEV_MODE" = some "true"
  · cases hprod : isProduction (name env) <;> simp [hdev]
  · by_cases hmock : env "THOUGHTGATE_APPROVAL_ADAPTER" = some "mock"
    · cases hprod : isProduction (name env) <;> simp [hdev, hmock]
    · simp [hdev, hmock]

theorem bypass_iff [Base64Url] [JsonText] (w : World) :
    Principals.inferPrincipal w = .ok (Principals.devModePrincipal w.env) ∨ AdapterKind.ofEnv w.env = .mock ↔
      BypassRequested w.env :=
  or_congr (Principals.inferPrincipal_dev_iff w) (AdapterKind.ofEnv_mock_iff w.env)

/-- That an environment which has passed the check has a bypass only in development is so unless a bypass is asked for in
an environment with another name than these five. -/
theorem bypass_in_development_iff [Base64Url] [JsonText] (w : World) :
    (validateEnvironment w.env = .ok () →
      Principals.inferPrincipal w = .ok (Principals.devModePrincipal w.env) ∨ AdapterKind.ofEnv w.env = .mock →
      IsDevelopment w.env) ↔
    (BypassRequested w.env → name w.env ∈ ["production", "prod", "", "development", "test"]) := by
  rw [validateEnvironment_ok_iff, bypass_iff]
  have hdevelopment : IsDevelopment w.env ↔ name w.env = "development" ∨ name w.env = "test" := by
    unfold IsDevelopment name
    cases w.env "THOUGHTGATE_ENVIRONMENT" with
    | none => simp
    | some environment => simp
  have hproduction : isProduction (name w.env) = false ↔
      ¬ (name w.env = "production" ∨ name w.env = "prod" ∨ name w.env = "") := by
    simp [isProduction]
  rw [hdevelopment, hproduction]
  simp only [List.mem_cons, List.not_mem_nil, or_false]
  tauto

end Environment

namespace Sample

@[reducible] def noBase64 : Base64Url := ⟨fun _ => none⟩

/-- A machine that is called staging, with a variable left over from development. -/
def staging : World where
  env name :=
    if name = "THOUGHTGATE_ENVIRONMENT" then some "staging" else if name = "THOUGHTGATE_DEV_MODE" then some "true" else none
  pathExists _ := false
  readToString _ := .error "No such file or directory (os error 2)"
  now := 0

end Sample

/-- Staging starts with the principal of development. -/
theorem bypass_in_staging : ¬ ∀ (_ : Base64Url) (_ : JsonText) (w : World), Environment.validateEnvironment w.env = .ok () →
    Principals.inferPrincipal w = .ok (Principals.devModePrincipal w.env) ∨ AdapterKind.ofEnv w.env = .mock →
    Environment.IsDevelopment w.env := by
  intro h
  have hvalid : Environment.validateEnvironment Sample.staging.env = .ok () := rfl
  rcases h Sample.noBase64 ⟨fun _ => .error ""⟩ Sample.staging hvalid (Or.inl rfl) with hdevelopment | htest
  · exact absurd hdevelopment (by decide)
  · exact absurd htest (by decide)

end ThoughtGate
