import ThoughtGate.Base.Text
import ThoughtGate.Config.Schema

/-!
# Validation of a configuration

`validate` of `config/loader.rs`, for the fields that the model of a configuration has: sources, governance rules,
expose patterns and workflow timeouts. The checks on URLs, prefixes, files and telemetry, and the warnings, are in
`Config/Loader`.
-/

namespace ThoughtGate

structure Version where
  major : Nat
  minor : Nat
deriving DecidableEq

/-- `Version::V0_2`. -/
def Version.v02 : Version := ⟨0, 2⟩

/-- `ConfigError`: the variants of the modelled checks. -/
inductive ConfigError where
  | noSourcesDefined
  | v02SingleSourceOnly (count : Nat)
  | duplicateSourceId (id : String)
  | reservedPrefix (id : String)
  | invalidSourceId (id reason : String)
  | missingPolicyId (pattern : String)
  | undefinedWorkflow (workflow pattern : String)
  | missingApprovalWorkflow (pattern : String) (workflowCount : Nat)
  | invalidGlobPattern (pattern message : String)
  | undefinedSourceInRule (sourceId pattern : String)
  | invalidWorkflowTimeout (workflow field : String) (durationSecs : Nat)
deriving DecidableEq

namespace Config

variable [Glob]

/-- The first source whose id came before (V-001). -/
def duplicateId (seen : List String) : List Source → Option String
  | [] => none
  | s :: rest => if seen.contains s.id then some s.id else duplicateId (s.id :: seen) rest

omit [Glob] in
/-- Why a text is no source id (V-016). -/
def idFault (id : String) : Option String :=
  if id.isEmpty then some "source ID must not be empty"
  else if Text.trim id ≠ id then some "source ID must not have leading or trailing whitespace"
  else if !id.toList.all (fun c => c.isAlphanum || c == '.' || c == '_' || c == '-') then
    some "source ID must contain only [a-zA-Z0-9._-]"
  else none

/-- V-010, V-011, V-001, V-002, V-016. -/
def validateSources (config : Config) (version : Version) : Except ConfigError Unit := do
  if config.sources.isEmpty then throw .noSourcesDefined
  if version.major = 0 ∧ version.minor = 2 ∧ config.sources.length ≠ 1 then
    throw (.v02SingleSourceOnly config.sources.length)
  match duplicateId [] config.sources with
  | some id => throw (.duplicateSourceId id)
  | none => pure ()
  match config.sources.find? fun s => s.id.toList.head? == some '_' with
  | some s => throw (.reservedPrefix s.id)
  | none => pure ()
  match config.sources.findSome? fun s => (idFault s.id).map fun reason => (s.id, reason) with
  | some (id, reason) => throw (.invalidSourceId id reason)
  | none => pure ()

def workflowNames (config : Config) : List String := (config.approval.getD []).map (·.1)

/-- V-005, V-006, V-009, V-007 for one rule. -/
def validateRule (config : Config) (rule : Rule) : Except ConfigError Unit := do
  if rule.action = .policy ∧ rule.policyId = none then throw (.missingPolicyId rule.pattern)
  if rule.action = .approve then
    match rule.approval with
    | some workflow =>
      if !config.workflowNames.contains workflow then throw (.undefinedWorkflow workflow rule.pattern)
    | none =>
      if config.workflowNames.length ≠ 1 then
        throw (.missingApprovalWorkflow rule.pattern config.workflowNames.length)
  match Glob.compile rule.pattern with
  | .error message => throw (.invalidGlobPattern rule.pattern message)
  | .ok _ => pure ()
  let ids := match rule.source with
    | none => []
    | some (.single id) => [id]
    | some (.multiple ids) => ids
  match ids.find? fun id => !(config.sources.map (·.id)).contains id with
  | some id => throw (.undefinedSourceInRule id rule.pattern)
  | none => pure ()

/-- V-014 for one source. -/
def validateExpose (source : Source) : Except ConfigError Unit :=
  let patterns := match source.expose with
    | .all => []
    | .allowlist tools _ => tools
    | .blocklist tools _ => tools
  patterns.forM fun pattern =>
    match Glob.compile pattern with
    | .error e =>
      .error (.invalidGlobPattern pattern ("invalid expose pattern for source '" ++ source.id ++ "': " ++ e))
    | .ok _ => .ok ()

omit [Glob] in
/-- A timeout of a workflow is at least five seconds, if it is there. -/
def validateSeconds (workflow field : String) : Option Duration → Except ConfigError Unit
  | some timeout =>
    if Duration.asSecs timeout < 5 then .error (.invalidWorkflowTimeout workflow field (Duration.asSecs timeout))
    else .ok ()
  | none => .ok ()

omit [Glob] in
/-- V-015 for one workflow. -/
def validateTimeout (workflow : String × HumanWorkflow) : Except ConfigError Unit := do
  validateSeconds workflow.1 "timeout" workflow.2.timeout
  validateSeconds workflow.1 "blocking_timeout" workflow.2.blockingTimeout

/-- `validate`. -/
def validate (config : Config) (version : Version) : Except ConfigError Unit := do
  config.validateSources version
  config.governance.rules.forM config.validateRule
  config.sources.forM validateExpose
  (config.approval.getD []).forM validateTimeout

theorem validateSources_of_validate {config : Config} {version : Version} (h : config.validate version = .ok ()) :
    config.validateSources version = .ok () := by
  unfold validate at h
  cases hsources : config.validateSources version with
  | ok u => rfl
  | error e => simp [hsources, bind, Except.bind] at h

/-- A configuration for v0.2 has one source. -/
theorem single_source {config : Config} (h : config.validate .v02 = .ok ()) : ∃ source, config.sources = [source] := by
  have hsources := validateSources_of_validate h
  have hlength : config.sources.length = 1 := by
    by_contra hne
    have hsome : config.sources.isEmpty = false := by
      by_contra hempty
      simp [validateSources, Bool.eq_true_of_not_eq_false hempty, bind, Except.bind, throw, throwThe,
        MonadExceptOf.throw] at hsources
    simp [validateSources, hsome, Version.v02, hne, bind, Except.bind, throw, throwThe, MonadExceptOf.throw] at hsources
  exact List.length_eq_one_iff.mp hlength

end Config

end ThoughtGate
