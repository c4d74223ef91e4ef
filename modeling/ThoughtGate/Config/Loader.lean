import ThoughtGate.Base.Json
import ThoughtGate.Config.Validate
import ThoughtGate.Lib.Checks
import ThoughtGate.Policy.Loader

/-!
# Loading a configuration

`load_and_validate` of `config/loader.rs` from the parsed YAML on: all the checks and warnings of `validate`, then
`compile_patterns` of `config/schema.rs`. At run time the rules and the expose lists are matched in compiled form.

What `validate` accepts compiles, and the compiled configuration answers as the text does. Its ids and references are defined,
except that the workflow of a rule with `action: policy` is not looked up (`validated_sound_iff`).

Whether a text is a URL is a parameter (`UrlText`), and the files are those of a `World`.
-/

namespace ThoughtGate

section

variable [Glob]

/-! ### Compiling the patterns -/

def compilePattern (pattern : String) : Except ConfigError Glob.Pattern :=
  match Glob.compile pattern with
  | .ok p => .ok p
  | .error message => .error (.invalidGlobPattern pattern message)

def ExposeConfig.compile : ExposeConfig → Except ConfigError ExposeConfig
  | .all => .ok .all
  | .allowlist tools _ => (tools.mapM compilePattern).map (.allowlist tools)
  | .blocklist tools _ => (tools.mapM compilePattern).map (.blocklist tools)

def Source.compile (source : Source) : Except ConfigError Source :=
  match source.exposed with
  | none => .ok source
  | some expose => expose.compile.map fun compiled => { source with exposed := some compiled }

def Rule.compile (rule : Rule) : Except ConfigError Rule :=
  (compilePattern rule.pattern).map fun p => { rule with compiledPattern := some p }

/-- `compile_patterns`. -/
def Config.compilePatterns (config : Config) : Except ConfigError Config := do
  let rules ← config.governance.rules.mapM Rule.compile
  let sources ← config.sources.mapM Source.compile
  return { config with governance := { config.governance with rules }, sources }

/-- What a field for the compiled pattern holds is what the text compiles to: at first nothing, and then what
`compile_patterns` puts there. -/
def Rule.Populated (rule : Rule) : Prop := ∀ p ∈ rule.compiledPattern, Glob.compile rule.pattern = .ok p

/-- Likewise for the patterns of a list. -/
def ExposeConfig.Populated : ExposeConfig → Prop
  | .all => True
  | .allowlist tools compiledTools => compiledTools = [] ∨ tools.mapM compilePattern = .ok compiledTools
  | .blocklist tools compiledTools => compiledTools = [] ∨ tools.mapM compilePattern = .ok compiledTools

structure Config.Populated (config : Config) : Prop where
  rules : ∀ rule ∈ config.governance.rules, rule.Populated
  sources : ∀ source ∈ config.sources, source.expose.Populated

/-! ### What is parsed -/

/-- `ApprovalDestination`. -/
inductive ApprovalDestination where
  | slack (channel : String) (tokenEnv : Option String) (mention : Option (List String))

/-- `HumanWorkflow` with its destination. -/
structure YamlWorkflow extends HumanWorkflow where
  destination : ApprovalDestination

/-- `Source::Mcp` with the fields that are only validated. -/
structure YamlSource extends Source where
  url : String
  namePrefix : Option String := none

structure OtlpConfig where
  endpoint : String
  protocol : String

/-- `SamplingConfig`; a rate that is not finite is `none`. -/
structure SamplingConfig where
  strategy : String
  successSampleRate : Option F64

structure BatchConfig where
  maxQueueSize : Nat
  maxExportBatchSize : Nat
  scheduledDelayMs : Nat
  exportTimeoutMs : Nat

structure TelemetryYamlConfig where
  otlp : Option OtlpConfig
  sampling : Option SamplingConfig
  batch : Option BatchConfig

/-- The fields of `Config` as they are in the file. -/
structure YamlFields where
  schema : Nat
  sources : List YamlSource
  governance : Governance
  approval : Option (List (String × YamlWorkflow))
  cedar : Option CedarConfig
  telemetry : Option TelemetryYamlConfig

/-- Those that are read at run time. -/
def YamlFields.config (yaml : YamlFields) : Config where
  sources := yaml.sources.map (·.toSource)
  governance := yaml.governance
  approval := yaml.approval.map fun workflows => workflows.map fun w => (w.1, w.2.toHumanWorkflow)

/-- `Config`. A file fills no field for compiled patterns. -/
structure YamlConfig extends YamlFields where
  populated : toYamlFields.config.Populated

/-! ### All checks -/

/-- `ConfigError`. -/
inductive LoadError where
  | config (error : ConfigError)
  | unsupportedSchemaVersion (version : Nat)
  | duplicatePrefix (namePrefix : String)
  | invalidUrl (url message : String)
  | policyFileNotFound (path : String)
  | missingEnvVar (var field : String)
  | invalidSampleRate (rate : Option F64)
  | unknownSamplingStrategy (strategy : String)
  | invalidOtlpEndpoint (endpoint message : String)
  | unknownOtlpProtocol (protocol : String)
  | invalidQueueSize (size : Nat)
  | invalidBatchDelay (delayMs : Nat)
  | invalidExportBatchSize (batchSize queueSize : Nat)
  | invalidExportTimeout (timeoutMs : Nat)
deriving DecidableEq

inductive ValidationWarning where
  | policyIdWithoutPolicyAction (pattern : String)
  | perWorkflowSlackNotSupported (workflow : String)
deriving DecidableEq

/-- `url::Url::parse` succeeds. -/
class UrlText where
  isUrl : String → Bool

/-- The error of a check on the run-time part. -/
def lift {α : Type} (x : Except ConfigError α) : Except LoadError α := x.mapError .config

/-- The first prefix that came before (V-003). -/
def duplicateName (seen : List String) : List String → Option String
  | [] => none
  | name :: rest => if seen.contains name then some name else duplicateName (name :: seen) rest

namespace YamlConfig

/-- V-003, V-008. -/
def validateUrls [UrlText] (yaml : YamlConfig) : Except LoadError Unit := do
  match duplicateName [] (yaml.sources.filterMap (·.namePrefix)) with
  | some namePrefix => throw (.duplicatePrefix namePrefix)
  | none => pure ()
  match yaml.sources.find? fun s => !UrlText.isUrl s.url with
  | some s => throw (.invalidUrl s.url "invalid URL format")
  | none => pure ()

/-- V-004. -/
def ruleWarnings (rule : Rule) : List ValidationWarning :=
  if rule.policyId.isSome ∧ rule.action ≠ .policy then [.policyIdWithoutPolicyAction rule.pattern] else []

def workflowWarnings (workflow : String × YamlWorkflow) : List ValidationWarning :=
  match workflow.2.destination with
  | .slack channel tokenEnv mention =>
    if tokenEnv.isSome || mention.isSome || channel != "#approvals" then [.perWorkflowSlackNotSupported workflow.1] else []

/-- V-013. -/
def validateFiles (w : World) (cedar : CedarConfig) : Except LoadError Unit :=
  match (cedar.policies ++ cedar.schema.toList).find? fun path => !w.pathExists path with
  | some path => throw (.policyFileNotFound path)
  | none => pure ()

/-- V-TEL-001, V-TEL-004. -/
def validateSampling (sampling : SamplingConfig) : Except LoadError Unit := do
  if !(sampling.successSampleRate.any fun rate => decide (0 ≤ rate.val ∧ rate.val ≤ 1)) then
    throw (.invalidSampleRate sampling.successSampleRate)
  if sampling.strategy ≠ "head" ∧ sampling.strategy ≠ "tail" then throw (.unknownSamplingStrategy sampling.strategy)

/-- V-TEL-002, V-TEL-003. -/
def validateOtlp [UrlText] (otlp : OtlpConfig) : Except LoadError Unit := do
  if !UrlText.isUrl otlp.endpoint then throw (.invalidOtlpEndpoint otlp.endpoint "invalid URL format")
  if otlp.protocol ≠ "http/protobuf" ∧ otlp.protocol ≠ "grpc" then throw (.unknownOtlpProtocol otlp.protocol)

/-- V-TEL-005 to V-TEL-008. -/
def validateBatch (batch : BatchConfig) : Except LoadError Unit := do
  if batch.maxQueueSize = 0 then throw (.invalidQueueSize batch.maxQueueSize)
  if batch.scheduledDelayMs < 100 then throw (.invalidBatchDelay batch.scheduledDelayMs)
  if batch.maxExportBatchSize = 0 ∨ batch.maxQueueSize < batch.maxExportBatchSize then
    throw (.invalidExportBatchSize batch.maxExportBatchSize batch.maxQueueSize)
  if batch.exportTimeoutMs < 100 then throw (.invalidExportTimeout batch.exportTimeoutMs)

def validateTelemetry [UrlText] (telemetry : TelemetryYamlConfig) : Except LoadError Unit := do
  telemetry.sampling.toList.forM validateSampling
  telemetry.otlp.toList.forM validateOtlp
  telemetry.batch.toList.forM validateBatch

/-- `validate`, with the warnings. -/
def validate [UrlText] (w : World) (yaml : YamlConfig) (version : Version) : Except LoadError (List ValidationWarning) := do
  if yaml.schema ≠ 1 then throw (.unsupportedSchemaVersion yaml.schema)
  lift (yaml.config.validateSources version)
  yaml.validateUrls
  yaml.governance.rules.forM fun rule => lift (yaml.config.validateRule rule)
  yaml.sources.forM fun source => lift (Config.validateExpose source.toSource)
  (yaml.approval.getD []).forM fun w => lift (Config.validateTimeout (w.1, w.2.toHumanWorkflow))
  yaml.cedar.toList.forM (validateFiles w)
  yaml.telemetry.toList.forM validateTelemetry
  return yaml.governance.rules.flatMap ruleWarnings ++ (yaml.approval.getD []).flatMap workflowWarnings

end YamlConfig

/-! ### Loading -/

/-- `load_and_validate`, of a file that has been parsed. -/
def YamlConfig.loadAndValidate [UrlText] (w : World) (yaml : YamlConfig) (version : Version) :
    Except LoadError (Config × List ValidationWarning) := do
  let warnings ← yaml.validate w version
  let config ← lift yaml.config.compilePatterns
  return (config, warnings)

/-! ### What has been checked -/

section Checked

open Checks

omit [Glob] in
@[simp] theorem lift_eq_ok {α : Type} {x : Except ConfigError α} {a : α} : lift x = .ok a ↔ x = .ok a := by
  cases x with
  | error e => exact ⟨nofun, nofun⟩
  | ok b => exact ⟨fun h => congrArg Except.ok (Except.ok.inj h), fun h => congrArg Except.ok (Except.ok.inj h)⟩

/-- The checks that later lookups rely on. -/
theorem YamlConfig.checked_of_validate [UrlText] {w : World} {yaml : YamlConfig} {version : Version}
    {warnings : List ValidationWarning} (h : yaml.validate w version = .ok warnings) :
    yaml.config.validateSources version = .ok () ∧
      (∀ rule ∈ yaml.config.governance.rules, yaml.config.validateRule rule = .ok ()) ∧
      ∀ source ∈ yaml.config.sources, Config.validateExpose source = .ok () := by
  simp only [validate, guard_bind_eq_ok, bind_eq_ok, lift_eq_ok, forM_eq_ok] at h
  obtain ⟨-, _, hsources, _, -, _, hrules, _, hexpose, -⟩ := h
  refine ⟨hsources, hrules, fun source hsource => ?_⟩
  obtain ⟨spec, hspec, rfl⟩ := List.mem_map.mp hsource
  exact hexpose spec hspec

end Checked

namespace Config

open Checks

theorem nodup_of_duplicateId {seen : List String} {sources : List Source} (h : duplicateId seen sources = none) :
    (sources.map (·.id)).Nodup ∧ ∀ source ∈ sources, source.id ∉ seen := by
  induction sources generalizing seen with
  | nil => exact ⟨List.nodup_nil, nofun⟩
  | cons s rest ih =>
    rw [duplicateId] at h
    split at h
    · cases h
    · rename_i hnew
      obtain ⟨hnodup, hseen⟩ := ih h
      have hfresh : s.id ∉ rest.map (·.id) := by
        intro hmem
        obtain ⟨source, hsource, hid⟩ := List.mem_map.mp hmem
        exact hseen source hsource (hid ▸ List.mem_cons_self)
      refine ⟨List.nodup_cons.mpr ⟨hfresh, hnodup⟩, ?_⟩
      rw [List.forall_mem_cons]
      exact ⟨fun hmem => hnew (List.contains_iff_mem.mpr hmem), fun source hsource hmem =>
        hseen source hsource (List.mem_cons_of_mem _ hmem)⟩

theorem sources_of_validate {config : Config} {version : Version} (h : config.validateSources version = .ok ()) :
    (config.sources.map (·.id)).Nodup ∧ ∀ source ∈ config.sources, source.id.toList.head? ≠ some '_' := by
  simp only [validateSources, guard_bind_eq_ok] at h
  obtain ⟨-, -, h⟩ := h
  split at h
  · cases h
  · rename_i hdistinct
    split at h
    · cases h
    · rename_i hreserved
      refine ⟨(nodup_of_duplicateId hdistinct).1, fun source hsource hhead => ?_⟩
      have hnot := List.find?_eq_none.mp hreserved source hsource
      exact hnot (beq_iff_eq.mpr hhead)

/-- The ids that a filter names. -/
def namedSources : Option SourceFilter → List String
  | none => []
  | some (.single id) => [id]
  | some (.multiple ids) => ids

omit [Glob] in
theorem mem_namedSources {filter : SourceFilter} {id : String} (h : filter.covers id = true) :
    id ∈ namedSources (some filter) := by
  cases filter with
  | single name =>
    cases eq_of_beq h
    exact List.mem_cons_self
  | multiple names =>
    obtain ⟨name, hname, heq⟩ := List.any_eq_true.mp h
    cases eq_of_beq heq
    exact hname

/-- V-009 and V-007, which end the checks of a rule. -/
def validateReferences (config : Config) (rule : Rule) : Except ConfigError Unit := do
  match Glob.compile rule.pattern with
  | .error message => throw (.invalidGlobPattern rule.pattern message)
  | .ok _ => pure ()
  match (namedSources rule.source).find? fun id => !(config.sources.map (·.id)).contains id with
  | some id => throw (.undefinedSourceInRule id rule.pattern)
  | none => pure ()

theorem workflow_of_validate {config : Config} {rule : Rule} (h : config.validateRule rule = .ok ()) :
    config.validateReferences rule = .ok () ∧
      (rule.action = .approve → ∀ workflow ∈ rule.approval, workflow ∈ config.workflowNames) := by
  simp only [validateRule, guard_bind_eq_ok] at h
  obtain ⟨-, h⟩ := h
  split at h
  · split at h
    · rename_i workflow happroval
      obtain ⟨hdefined, hrest⟩ := guard_bind_eq_ok.mp h
      refine ⟨hrest, fun _ name hname => ?_⟩
      cases happroval.symm.trans hname
      simpa using hdefined
    · rename_i hnone
      refine ⟨(guard_bind_eq_ok.mp h).2, fun _ name hname => ?_⟩
      cases hnone.symm.trans hname
  · rename_i hnot
    exact ⟨h, fun happrove => absurd happrove hnot⟩

theorem references_of_validate {config : Config} {rule : Rule} (h : config.validateReferences rule = .ok ()) :
    (∃ p, Glob.compile rule.pattern = .ok p) ∧
      ∀ filter ∈ rule.source, ∀ id, filter.covers id = true → id ∈ config.sources.map (·.id) := by
  unfold validateReferences at h
  cases hcompile : Glob.compile rule.pattern with
  | error message =>
    simp only [hcompile] at h
    cases h
  | ok p =>
    refine ⟨⟨p, rfl⟩, fun filter hfilter id hcovers => ?_⟩
    cases hfind : (namedSources rule.source).find? fun id => !(config.sources.map (·.id)).contains id with
    | some id =>
      simp only [hcompile, hfind] at h
      cases h
    | none =>
      rw [Option.mem_def.mp hfilter] at hfind
      simpa using List.find?_eq_none.mp hfind id (mem_namedSources hcovers)

end Config

/-! ### What has been compiled -/

open Checks

@[simp] theorem compilePattern_eq_ok {pattern : String} {p : Glob.Pattern} :
    compilePattern pattern = .ok p ↔ Glob.compile pattern = .ok p := by
  unfold compilePattern
  cases Glob.compile pattern with
  | error message => exact ⟨nofun, nofun⟩
  | ok q => exact ⟨fun h => congrArg Except.ok (Except.ok.inj h), fun h => congrArg Except.ok (Except.ok.inj h)⟩

theorem matchesText_of_compile {pattern : String} {p : Glob.Pattern} (h : Glob.compile pattern = .ok p) (name : String) :
    matchesText pattern name = Glob.isMatch p name := by
  rw [matchesText, h]

namespace Rule

variable {rule compiled : Rule}

theorem applies_of_compile (h : rule.compile = .ok compiled) (hpop : rule.Populated) (toolName sourceId : String) :
    compiled.applies toolName sourceId = rule.applies toolName sourceId := by
  obtain ⟨p, hp, rfl⟩ := map_eq_ok.mp h
  rw [compilePattern_eq_ok] at hp
  unfold applies
  congr 1
  cases hold : rule.compiledPattern with
  | none => exact (matchesText_of_compile hp toolName).symm
  | some q =>
    have hq := hpop q hold
    rw [hp] at hq
    cases hq
    rfl

/-- What `evaluate` says when the rule is the first to apply. -/
def result (rule : Rule) : MatchResult := ⟨rule.action, rule.policyId, rule.approval, some rule.pattern⟩

/-- The first rule to apply is the same one. -/
theorem find?_of_compile {rules rules' : List Rule}
    (h : List.Forall₂ (fun rule rule' => Rule.compile rule = .ok rule') rules rules')
    (hpop : ∀ rule ∈ rules, rule.Populated) (toolName sourceId : String) :
    (rules'.find? fun rule => rule.applies toolName sourceId).map result =
      (rules.find? fun rule => rule.applies toolName sourceId).map result := by
  induction h with
  | nil => rfl
  | @cons rule rule' rules rules' hrule _ ih =>
    rw [List.forall_mem_cons] at hpop
    have happlies := applies_of_compile hrule hpop.1 toolName sourceId
    cases hold : rule.applies toolName sourceId with
    | true =>
      obtain ⟨p, -, rfl⟩ := map_eq_ok.mp hrule
      rw [List.find?_cons, List.find?_cons, happlies, hold]
      rfl
    | false =>
      rw [List.find?_cons, List.find?_cons, happlies, hold]
      exact ih hpop.2

theorem populated_of_compile (h : rule.compile = .ok compiled) : compiled.Populated := by
  obtain ⟨p, hp, rfl⟩ := map_eq_ok.mp h
  intro q hq
  cases hq
  exact compilePattern_eq_ok.mp hp

end Rule

theorem Governance.evaluate_eq_getD (g : Governance) (toolName sourceId : String) :
    g.evaluate toolName sourceId =
      ((g.rules.find? fun rule => rule.applies toolName sourceId).map Rule.result).getD ⟨g.defaultAction, none, none, none⟩ := by
  unfold evaluate
  cases g.rules.find? fun rule => rule.applies toolName sourceId with
  | none => rfl
  | some rule => rfl

namespace ExposeConfig

/-- A list shows what one of its texts matches, compiled or not. -/
theorem listed_populated {tools : List String} {compiledTools : List Glob.Pattern}
    (h : compiledTools = [] ∨ tools.mapM compilePattern = .ok compiledTools) (name : String) :
    listed tools compiledTools name = tools.any fun pattern => matchesText pattern name := by
  rcases h with rfl | h
  · rfl
  · have hany : (compiledTools.any fun p => Glob.isMatch p name) = tools.any fun pattern => matchesText pattern name := by
      have hstep := mapM_eq_ok.mp h
      clear h
      induction hstep with
      | nil => rfl
      | cons hp _ ih =>
        rw [List.any_cons, List.any_cons, ih, matchesText_of_compile (compilePattern_eq_ok.mp hp)]
    unfold listed
    split
    · exact hany
    · rfl

theorem isVisible_of_compile {expose compiled : ExposeConfig} (h : expose.compile = .ok compiled) (hpop : expose.Populated)
    (name : String) : compiled.isVisible name = expose.isVisible name := by
  cases expose with
  | all =>
    cases h
    rfl
  | allowlist tools compiledTools =>
    obtain ⟨ps, hps, rfl⟩ := map_eq_ok.mp h
    exact (listed_populated (.inr hps) name).trans (listed_populated hpop name).symm
  | blocklist tools compiledTools =>
    obtain ⟨ps, hps, rfl⟩ := map_eq_ok.mp h
    exact congrArg (!·) ((listed_populated (.inr hps) name).trans (listed_populated hpop name).symm)

theorem populated_of_compile {expose compiled : ExposeConfig} (h : expose.compile = .ok compiled) : compiled.Populated := by
  cases expose with
  | all =>
    cases h
    trivial
  | allowlist | blocklist =>
    obtain ⟨ps, hps, rfl⟩ := map_eq_ok.mp h
    exact .inr hps

end ExposeConfig

namespace Source

variable {source compiled : Source}

theorem expose_compile (h : source.compile = .ok compiled) :
    compiled.id = source.id ∧ source.expose.compile = .ok compiled.expose := by
  unfold compile at h
  split at h
  · rename_i hnone
    cases h
    refine ⟨rfl, ?_⟩
    rw [expose, hnone]
    rfl
  · rename_i e he
    obtain ⟨e', he', rfl⟩ := map_eq_ok.mp h
    refine ⟨rfl, ?_⟩
    rw [expose, he]
    exact he'

/-- Position by position the same ids, and of every name the same answer. -/
theorem isVisible_of_compile {sources sources' : List Source}
    (h : List.Forall₂ (fun source source' => Source.compile source = .ok source') sources sources')
    (hpop : ∀ source ∈ sources, source.expose.Populated) (name : String) :
    (sources'.map fun source => (source.id, source.expose.isVisible name)) =
      sources.map fun source => (source.id, source.expose.isVisible name) := by
  induction h with
  | nil => rfl
  | cons hsource _ ih =>
    rw [List.forall_mem_cons] at hpop
    obtain ⟨hid, hexpose⟩ := expose_compile hsource
    rw [List.map_cons, List.map_cons, ih hpop.2, hid, ExposeConfig.isVisible_of_compile hexpose hpop.1]

theorem exists_mapM_of_forM {tools : List String} {check : String → Except ConfigError Unit} (h : tools.forM check = .ok ())
    (hcheck : ∀ pattern, check pattern = .ok () → ∃ p, Glob.compile pattern = .ok p) :
    ∃ ps, tools.mapM compilePattern = .ok ps := by
  refine exists_mapM_eq_ok fun pattern hpattern => ?_
  obtain ⟨p, hp⟩ := hcheck pattern (forM_eq_ok.mp h pattern hpattern)
  exact ⟨p, compilePattern_eq_ok.mpr hp⟩

theorem exists_compile (h : Config.validateExpose source = .ok ()) : ∃ compiled, source.compile = .ok compiled := by
  cases hexposed : source.exposed with
  | none => exact ⟨source, by rw [compile, hexposed]⟩
  | some e =>
    rw [Config.validateExpose, expose, hexposed] at h
    have hcompiled : ∃ e', e.compile = .ok e' := by
      cases e with
      | all => exact ⟨.all, rfl⟩
      | allowlist tools | blocklist tools =>
        obtain ⟨ps, hps⟩ := exists_mapM_of_forM h fun pattern hone => by
          split at hone
          · cases hone
          · exact ⟨_, ‹_›⟩
        exact ⟨_, map_eq_ok.mpr ⟨ps, hps, rfl⟩⟩
    obtain ⟨e', he'⟩ := hcompiled
    refine ⟨{ source with exposed := some e' }, ?_⟩
    rw [compile, hexposed]
    exact map_eq_ok.mpr ⟨e', he', rfl⟩

end Source

namespace Config

variable {config compiled : Config}

/-- The compiled configuration has the same rules and sources in the same order, and the same workflows. -/
theorem compilePatterns_eq_ok (h : config.compilePatterns = .ok compiled) :
    List.Forall₂ (fun rule rule' => Rule.compile rule = .ok rule') config.governance.rules compiled.governance.rules ∧
      List.Forall₂ (fun source source' => Source.compile source = .ok source') config.sources compiled.sources ∧
      compiled.governance.defaultAction = config.governance.defaultAction ∧ compiled.approval = config.approval := by
  simp only [compilePatterns, bind_eq_ok, pure_eq_ok] at h
  obtain ⟨rules, hrules, sources, hsources, rfl⟩ := h
  exact ⟨mapM_eq_ok.mp hrules, mapM_eq_ok.mp hsources, rfl, rfl⟩

/-- What is compiled again is as it was. -/
theorem populated_of_compilePatterns (h : config.compilePatterns = .ok compiled) : compiled.Populated := by
  obtain ⟨hrules, hsources, -, -⟩ := compilePatterns_eq_ok h
  constructor
  · intro rule' hrule'
    obtain ⟨rule, -, hrule⟩ := exists_of_mem_right hrules hrule'
    exact Rule.populated_of_compile hrule
  · intro source' hsource'
    obtain ⟨source, -, hsource⟩ := exists_of_mem_right hsources hsource'
    exact ExposeConfig.populated_of_compile (Source.expose_compile hsource).2

theorem evaluate_of_compile (h : config.compilePatterns = .ok compiled) (hpop : config.Populated)
    (toolName sourceId : String) :
    compiled.governance.evaluate toolName sourceId = config.governance.evaluate toolName sourceId := by
  obtain ⟨hrules, -, hdefault, -⟩ := compilePatterns_eq_ok h
  rw [Governance.evaluate_eq_getD, Governance.evaluate_eq_getD, hdefault,
    Rule.find?_of_compile hrules hpop.rules]

theorem exists_compilePatterns (hrules : ∀ rule ∈ config.governance.rules, ∃ p, Glob.compile rule.pattern = .ok p)
    (hsources : ∀ source ∈ config.sources, validateExpose source = .ok ()) :
    ∃ compiled, config.compilePatterns = .ok compiled := by
  obtain ⟨rules, hrules⟩ := exists_mapM_eq_ok (f := Rule.compile) fun rule hrule => by
    obtain ⟨p, hp⟩ := hrules rule hrule
    exact ⟨_, map_eq_ok.mpr ⟨p, compilePattern_eq_ok.mpr hp, rfl⟩⟩
  obtain ⟨sources, hsources⟩ := exists_mapM_eq_ok (f := Source.compile) fun source hsource =>
    Source.exists_compile (hsources source hsource)
  refine ⟨{ config with governance := { config.governance with rules }, sources }, ?_⟩
  simp only [compilePatterns, bind_eq_ok, pure_eq_ok]
  exact ⟨rules, hrules, sources, hsources, rfl⟩

end Config

/-! ### At run time -/

/-- The workflow that Gate 4 looks up. -/
def MatchResult.Selects (r : MatchResult) (workflow : String) : Prop :=
  (r.action = .approve ∨ r.action = .policy) ∧ r.approvalWorkflow = some workflow

/-- What the run time relies on: the ids, the references of the rules, and that the compiled patterns make no difference. -/
structure Config.Sound (config compiled : Config) : Prop where
  distinct : (compiled.sources.map (·.id)).Nodup
  unreserved : ∀ source ∈ compiled.sources, source.id.toList.head? ≠ some '_'
  sources : ∀ rule ∈ compiled.governance.rules, ∀ filter ∈ rule.source, ∀ id, filter.covers id = true →
    (compiled.getSource id).isSome = true
  workflows : ∀ toolName sourceId workflow, (compiled.governance.evaluate toolName sourceId).Selects workflow →
    (compiled.getWorkflow workflow).isSome = true
  evaluate : ∀ toolName sourceId,
    compiled.governance.evaluate toolName sourceId = config.governance.evaluate toolName sourceId
  visible : ∀ name, (compiled.sources.map fun source => (source.id, source.expose.isVisible name)) =
    config.sources.map fun source => (source.id, source.expose.isVisible name)

namespace Config

variable {config compiled : Config}

theorem ids_of_compile (h : config.compilePatterns = .ok compiled) (hpop : config.Populated) :
    compiled.sources.map (·.id) = config.sources.map (·.id) := by
  have hsame := congrArg (List.map Prod.fst) (Source.isVisible_of_compile (compilePatterns_eq_ok h).2.1 hpop.sources "")
  rwa [List.map_map, List.map_map] at hsame

theorem getSource_isSome_iff {id : String} : (config.getSource id).isSome = true ↔ id ∈ config.sources.map (·.id) := by
  rw [getSource, List.find?_isSome, List.mem_map]
  exact exists_congr fun source => and_congr_right fun _ => beq_iff_eq

theorem getWorkflow_isSome_iff {name : String} : (config.getWorkflow name).isSome = true ↔ name ∈ config.workflowNames := by
  unfold getWorkflow workflowNames
  cases config.approval with
  | none => simp
  | some workflows =>
    show ((workflows.find? fun w => w.1 == name).map (·.2)).isSome = true ↔ name ∈ workflows.map (·.1)
    rw [Option.isSome_map, List.find?_isSome, List.mem_map]
    exact exists_congr fun w => and_congr_right fun _ => beq_iff_eq

theorem getWorkflow_of_compile (h : config.compilePatterns = .ok compiled) (name : String) :
    compiled.getWorkflow name = config.getWorkflow name := by
  rw [getWorkflow, getWorkflow, (compilePatterns_eq_ok h).2.2.2]

/-- Gate 4 looks up what the first rule to apply names. -/
theorem selects_iff {g : Governance} {toolName sourceId workflow : String} :
    (g.evaluate toolName sourceId).Selects workflow ↔
      ∃ rule, g.rules.find? (fun rule => rule.applies toolName sourceId) = some rule ∧
        (rule.action = .approve ∨ rule.action = .policy) ∧ rule.approval = some workflow := by
  rw [Governance.evaluate_eq_getD]
  cases g.rules.find? fun rule => rule.applies toolName sourceId with
  | none => exact ⟨fun h => absurd h.2 nofun, nofun⟩
  | some rule => exact ⟨fun h => ⟨rule, rfl, h⟩, fun ⟨_, hrule, h⟩ => Option.some.inj hrule ▸ h⟩

end Config

section Validated

open Config

variable [UrlText] {w : World} {yaml : YamlConfig} {version : Version} {warnings : List ValidationWarning}

/-- What is accepted compiles. -/
theorem YamlConfig.exists_compiled (h : yaml.validate w version = .ok warnings) :
    ∃ compiled, yaml.config.compilePatterns = .ok compiled := by
  obtain ⟨-, hrules, hsources⟩ := checked_of_validate h
  refine exists_compilePatterns (fun rule hrule => ?_) hsources
  exact (references_of_validate (workflow_of_validate (hrules rule hrule)).1).1

/-- All but the workflows of the rules that ask Cedar is in order. -/
theorem YamlConfig.sound_of_workflows (h : yaml.validate w version = .ok warnings) {compiled : Config}
    (hcompiled : yaml.config.compilePatterns = .ok compiled)
    (hpolicy : ∀ rule ∈ yaml.governance.rules, rule.action = .policy →
      (∃ toolName sourceId, yaml.governance.rules.find? (fun rule => rule.applies toolName sourceId) = some rule) →
      ∀ workflow ∈ rule.approval, (yaml.config.getWorkflow workflow).isSome = true) :
    yaml.config.Sound compiled := by
  obtain ⟨hsources, hrules, -⟩ := checked_of_validate h
  obtain ⟨hdistinct, hreserved⟩ := sources_of_validate hsources
  have hids := ids_of_compile hcompiled yaml.populated
  have hevaluate := evaluate_of_compile hcompiled yaml.populated
  obtain ⟨hcompiledRules, hcompiledSources, -, -⟩ := compilePatterns_eq_ok hcompiled
  refine ⟨hids ▸ hdistinct, fun source hsource => ?_, fun rule hrule filter hfilter id hcovers => ?_,
    fun toolName sourceId workflow hselects => ?_, hevaluate,
    Source.isVisible_of_compile hcompiledSources yaml.populated.sources⟩
  · obtain ⟨source', hsource', hcompile⟩ := exists_of_mem_right hcompiledSources hsource
    rw [(Source.expose_compile hcompile).1]
    exact hreserved source' hsource'
  · obtain ⟨rule', hrule', hcompile⟩ := exists_of_mem_right hcompiledRules hrule
    obtain ⟨p, -, rfl⟩ := map_eq_ok.mp hcompile
    rw [getSource_isSome_iff, hids]
    exact (references_of_validate (workflow_of_validate (hrules rule' hrule')).1).2 filter hfilter id hcovers
  · rw [getWorkflow_of_compile hcompiled]
    rw [hevaluate, selects_iff] at hselects
    obtain ⟨rule, hfind, haction, happroval⟩ := hselects
    have hrule : rule ∈ yaml.governance.rules := List.mem_of_find?_eq_some hfind
    rcases haction with happrove | hpolicyAction
    · exact getWorkflow_isSome_iff.mpr ((workflow_of_validate (hrules rule hrule)).2 happrove workflow happroval)
    · exact hpolicy rule hrule hpolicyAction ⟨toolName, sourceId, hfind⟩ workflow happroval

/-- Of a configuration that is accepted, everything that the run time relies on holds if and only if each rule that asks Cedar,
and is the first to apply to something, names a defined workflow or none. -/
theorem validated_sound_iff (h : yaml.validate w version = .ok warnings) :
    (∃ compiled, yaml.config.compilePatterns = .ok compiled ∧ yaml.config.Sound compiled) ↔
      ∀ rule ∈ yaml.governance.rules, rule.action = .policy →
        (∃ toolName sourceId, yaml.governance.rules.find? (fun rule => rule.applies toolName sourceId) = some rule) →
        ∀ workflow ∈ rule.approval, (yaml.config.getWorkflow workflow).isSome = true := by
  constructor
  · rintro ⟨compiled, hcompiled, hsound⟩ rule - haction ⟨toolName, sourceId, hfind⟩ workflow happroval
    rw [← getWorkflow_of_compile hcompiled]
    refine hsound.workflows toolName sourceId workflow ?_
    rw [hsound.evaluate, selects_iff]
    exact ⟨rule, hfind, .inr haction, happroval⟩
  · intro hpolicy
    obtain ⟨compiled, hcompiled⟩ := yaml.exists_compiled h
    exact ⟨compiled, hcompiled, yaml.sound_of_workflows h hcompiled hpolicy⟩

end Validated

end

section

attribute [local instance] Sample.glob

namespace Sample

@[reducible] def urlText : UrlText where
  isUrl text := text == "http://mcp-server:8080"

def noFiles : World where
  env _ := none
  pathExists _ := false
  readToString _ := .error "not found"
  now := 0

/-- A rule that asks Cedar and names a workflow; `ops` is defined. -/
def policyFields (workflow : String) : YamlFields where
  schema := 1
  sources := [{ id := "upstream", url := "http://mcp-server:8080" }]
  governance := {
    defaultAction := .forward
    rules := [{ pattern := "deploy", action := .policy, policyId := some "infra", approval := some workflow }] }
  approval := some [("ops", { destination := .slack "#approvals" none none })]
  cedar := none
  telemetry := none

def policyYaml (workflow : String) : YamlConfig where
  toYamlFields := policyFields workflow
  populated := by
    constructor
    · intro rule hrule
      cases List.mem_singleton.mp hrule
      exact nofun
    · intro source hsource
      cases List.mem_singleton.mp hsource
      trivial

end Sample

attribute [local instance] Sample.urlText

theorem validated_sound_iff_sample :
    ∃ compiled, (Sample.policyYaml "ops").config.compilePatterns = .ok compiled ∧
      (Sample.policyYaml "ops").config.Sound compiled := by
  have hvalid : (Sample.policyYaml "ops").validate Sample.noFiles .v02 = .ok [] := by decide
  refine (validated_sound_iff hvalid).mpr ?_
  intro rule hrule _ _ workflow hworkflow
  cases List.mem_singleton.mp hrule
  cases hworkflow
  rfl

/-- The workflow of a rule with `action: policy` is not defined, and what is accepted selects it. -/
theorem policy_workflow_undefined :
    (Sample.policyYaml "missing").validate Sample.noFiles .v02 = .ok [] ∧
      ∀ compiled, (Sample.policyYaml "missing").config.compilePatterns = .ok compiled →
        (compiled.governance.evaluate "deploy" "upstream").Selects "missing" ∧
          (compiled.getWorkflow "missing").isSome = false ∧ ¬ (Sample.policyYaml "missing").config.Sound compiled := by
  refine ⟨by decide, fun compiled hcompiled => ?_⟩
  have hselects : (compiled.governance.evaluate "deploy" "upstream").Selects "missing" := by
    rw [Config.evaluate_of_compile hcompiled (Sample.policyYaml "missing").populated]
    exact ⟨.inr (by decide), by decide⟩
  have hundefined : (compiled.getWorkflow "missing").isSome = false := by
    rw [Config.getWorkflow_of_compile hcompiled]
    decide
  refine ⟨hselects, hundefined, fun hsound => ?_⟩
  have hdefined := hsound.workflows "deploy" "upstream" "missing" hselects
  rw [hundefined] at hdefined
  cases hdefined

end

end ThoughtGate
