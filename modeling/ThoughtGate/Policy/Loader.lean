import ThoughtGate.Policy.Engine
import ThoughtGate.Lib.Machine
import Mathlib.Data.List.Basic

/-!
# Loading and reloading policies

`policy/loader.rs` chooses the policy text from four tiers: a file named by the environment, an environment variable,
the files that the YAML configuration lists, the text compiled into the program, which permits everything. The engine
is built with its own list of files (`newWithConfig`), but `reload` calls the loader without it (`loadPolicies`), so a
reload skips the third tier.

The environment and the file system as a load sees them are a `World`; it may change between loads, also between the
two of one reload.
-/

namespace ThoughtGate

/-- What a load reads. -/
structure World where
  env : String → Option String
  pathExists : String → Bool
  readToString : String → Except String String
  now : DateTime

/-- The two files that are compiled into the program. -/
class Embedded where
  defaultPolicies : String
  schema : String

/-- `CedarConfig`. -/
structure CedarConfig where
  policies : List String
  schema : Option String

namespace Loader

variable [Embedded]

/-- The loop over the YAML paths: the files in order, joined by line breaks. -/
def readAll (w : World) : String → List String → Except PolicyError String
  | combined, [] => .ok combined
  | combined, path :: paths =>
    match w.readToString path with
    | .error e => .error (.policyLoadError path e)
    | .ok content =>
      readAll w ((if combined.isEmpty then combined else combined ++ "\n") ++ content) paths

/-- The file of the first tier. -/
def policyFile (w : World) : String :=
  (w.env "THOUGHTGATE_POLICY_FILE").getD "/etc/thoughtgate/policies.cedar"

/-- The last two tiers. -/
def loadFallback (w : World) (configPaths : Option (List String)) : Except PolicyError (String × PolicySource) :=
  match configPaths with
  | none | some [] => .ok (Embedded.defaultPolicies, .embedded)
  | some (path :: paths) =>
    match readAll w "" (path :: paths) with
    | .error e => .error e
    | .ok combined =>
      if combined.isEmpty then .ok (Embedded.defaultPolicies, .embedded)
      else .ok (combined, .configMap path w.now)

/-- `load_policies_with_config`. -/
def loadPoliciesWithConfig (w : World) (configPaths : Option (List String)) :
    Except PolicyError (String × PolicySource) :=
  if w.pathExists (policyFile w) then
    match w.readToString (policyFile w) with
    | .ok content => .ok (content, .configMap (policyFile w) w.now)
    | .error e => .error (.policyLoadError (policyFile w) e)
  else
    match w.env "THOUGHTGATE_POLICIES" with
    | some policies => .ok (policies, .environment w.now)
    | none => loadFallback w configPaths

/-- `load_policies`. -/
def loadPolicies (w : World) : Except PolicyError (String × PolicySource) := loadPoliciesWithConfig w none

/-- A file that must be readable if it exists. -/
def readIfExists (w : World) (path : String) : Option (Except PolicyError String) :=
  if w.pathExists path then
    match w.readToString path with
    | .ok content => some (.ok content)
    | .error e => some (.error (.policyLoadError path e))
  else none

/-- `load_schema_with_config`. -/
def loadSchemaWithConfig (w : World) (configSchema : Option String) : Except PolicyError String :=
  match readIfExists w ((w.env "THOUGHTGATE_SCHEMA_FILE").getD "/etc/thoughtgate/schema.cedarschema") with
  | some result => result
  | none =>
    match configSchema.bind (readIfExists w) with
    | some result => result
    | none => .ok Embedded.schema

end Loader

namespace CedarEngine

variable [Cedar]

/-- `parse_policies`. -/
def parsePolicies (text : String) (schema : Cedar.Schema) : Except PolicyError Cedar.PolicySet :=
  match Cedar.parsePolicySet text with
  | .error e => .error (.parseError e)
  | .ok policies =>
    let errors := Cedar.validate schema policies
    if errors.isEmpty then .ok policies else .error (.schemaValidation (String.intercalate "; " errors))

variable [Embedded]

/-- `new_with_config`. -/
def newWithConfig (w : World) (cedarConfig : Option CedarConfig) : Except PolicyError CedarEngine := do
  let schemaText ← Loader.loadSchemaWithConfig w (cedarConfig.bind (·.schema))
  let schema ← match Cedar.parseSchema schemaText with
    | .error e => .error (.schemaValidation ("Failed to parse schema: " ++ e))
    | .ok schema => .ok schema
  let (text, source) ← Loader.loadPoliciesWithConfig w (cedarConfig.map (·.policies))
  let policies ← parsePolicies text schema
  .ok { schema, snapshot := { text, policies, source } }

/-- `reload`. The second world is the one that the retry after a failed parse sees. -/
def reload (e : CedarEngine) (first second : World) : Except PolicyError Unit × CedarEngine :=
  match Loader.loadPolicies first with
  | .error err => (.error err, e)
  | .ok (text, source) =>
    match parsePolicies text e.schema with
    | .ok policies => (.ok (), { e with snapshot := { text, policies, source } })
    | .error _ =>
      match Loader.loadPolicies second with
      | .error err => (.error err, e)
      | .ok (text, source) =>
        match parsePolicies text e.schema with
        | .error err => (.error err, e)
        | .ok policies => (.ok (), { e with snapshot := { text, policies, source } })

end CedarEngine

/-! ### What a reload keeps -/

/-- The source with another time of loading. -/
def PolicySource.redate (t : DateTime) : PolicySource → PolicySource
  | .configMap path _ => .configMap path t
  | .environment _ => .environment t
  | .embedded => .embedded

/-- Two sources are of the same tier: they differ in the time of loading at most. -/
def PolicySource.SameTier (a b : PolicySource) : Prop := a.redate 0 = b.redate 0

theorem PolicySource.sameTier_redate (a : PolicySource) (t : DateTime) : (a.redate t).SameTier a := by
  cases a <;> rfl

/-- The files of the YAML configuration have no say: a higher tier is there, or they are all empty. -/
def YamlIdle (w : World) (configPaths : Option (List String)) : Prop :=
  w.pathExists (Loader.policyFile w) = true ∨ (w.env "THOUGHTGATE_POLICIES").isSome = true ∨
    ∀ path ∈ configPaths.getD [], w.readToString path = .ok ""

namespace Loader

theorem readAll_empty (w : World) (paths : List String) :
    ∀ combined, readAll w combined paths = .ok "" ↔ combined = "" ∧ ∀ path ∈ paths, w.readToString path = .ok "" := by
  induction paths with
  | nil => intro combined; simp [readAll]
  | cons path paths ih =>
    intro combined
    rw [readAll]
    cases hread : w.readToString path with
    | error e => simp [hread]
    | ok content =>
      rw [ih]
      by_cases hempty : combined = ""
      · simp [hempty, hread]
      · have hne : combined.isEmpty = false := by simpa using hempty
        simp [hempty, hne]

variable [Embedded]

/-- The tiers do not depend on the clock. -/
theorem loadPoliciesWithConfig_redate (w : World) (t : DateTime) (configPaths : Option (List String)) :
    loadPoliciesWithConfig { w with now := t } configPaths =
      (loadPoliciesWithConfig w configPaths).map fun p => (p.1, p.2.redate t) := by
  have hread : ∀ paths combined, readAll { w with now := t } combined paths = readAll w combined paths := by
    intro paths
    induction paths with
    | nil => intro combined; rfl
    | cons path paths ih =>
      intro combined
      simp only [readAll]
      cases w.readToString path with
      | error e => rfl
      | ok content => exact ih _
  have hfall : loadFallback { w with now := t } configPaths =
      (loadFallback w configPaths).map fun p => (p.1, p.2.redate t) := by
    rcases configPaths with _ | _ | ⟨path, paths⟩
    · rfl
    · rfl
    · simp only [loadFallback, hread]
      cases readAll w "" (path :: paths) with
      | error e => rfl
      | ok combined =>
        by_cases hempty : combined.isEmpty = true
        · simp [hempty, Except.map, PolicySource.redate]
        · simp [hempty, Except.map, PolicySource.redate]
  have hfile : policyFile { w with now := t } = policyFile w := rfl
  simp only [loadPoliciesWithConfig, hfile, hfall]
  split
  · cases w.readToString (policyFile w) with
    | error e => rfl
    | ok content => rfl
  · cases w.env "THOUGHTGATE_POLICIES" with
    | some policies => rfl
    | none => rfl

/-- Where the YAML files have no say, the reload finds what the engine was built from. -/
theorem loadPolicies_of_idle {w : World} {configPaths : Option (List String)} (h : YamlIdle w configPaths) :
    loadPolicies w = loadPoliciesWithConfig w configPaths := by
  unfold loadPolicies loadPoliciesWithConfig
  split
  · rfl
  · rename_i hno
    cases henv : w.env "THOUGHTGATE_POLICIES" with
    | some policies => rfl
    | none =>
      rcases h with hexists | hsome | hidle
      · exact absurd hexists hno
      · rw [henv] at hsome
        cases hsome
      · rcases configPaths with _ | _ | ⟨path, paths⟩
        · rfl
        · rfl
        · have hread := (readAll_empty w (path :: paths) "").mpr ⟨rfl, hidle⟩
          simp [loadFallback, hread]

/-- Where they have one, the reload falls through to the embedded policies, and the engine cannot have been built
from those. -/
theorem loadPolicies_of_not_idle {w : World} {configPaths : Option (List String)} (h : ¬ YamlIdle w configPaths) :
    loadPolicies w = .ok (Embedded.defaultPolicies, .embedded) ∧
      ∀ text source, loadPoliciesWithConfig w configPaths = .ok (text, source) → ¬ source.SameTier .embedded := by
  unfold YamlIdle at h
  push Not at h
  obtain ⟨hexists, henv, path', hmem, hread⟩ := h
  have hno : ¬ w.pathExists (policyFile w) = true := hexists
  have henv' : w.env "THOUGHTGATE_POLICIES" = none := by simpa using henv
  constructor
  · simp [loadPolicies, loadPoliciesWithConfig, loadFallback, hno, henv']
  · intro text source hload
    rw [loadPoliciesWithConfig, if_neg hno, henv'] at hload
    rcases configPaths with _ | _ | ⟨path, paths⟩
    · simp at hmem
    · simp at hmem
    · simp only [loadFallback] at hload
      cases hall : readAll w "" (path :: paths) with
      | error e => simp [hall] at hload
      | ok combined =>
        have hne : combined ≠ "" := by
          rintro rfl
          exact hread (((readAll_empty w (path :: paths) "").mp hall).2 path' hmem)
        have hne' : combined.isEmpty = false := by simpa using hne
        rw [hall] at hload
        simp only [hne', Bool.false_eq_true, if_false] at hload
        cases hload
        simp [PolicySource.SameTier, PolicySource.redate]

end Loader

namespace CedarEngine

section

variable [Cedar] [Embedded]

/-- The policies of an engine are what the loader finds in `w` with the engine's own paths. -/
def SelectedFrom (e : CedarEngine) (w : World) (configPaths : Option (List String)) : Prop :=
  Loader.loadPoliciesWithConfig w configPaths = .ok (e.snapshot.text, e.snapshot.source) ∧
    parsePolicies e.snapshot.text e.schema = .ok e.snapshot.policies

theorem newWithConfig_ok {w : World} {cedarConfig : Option CedarConfig} {e : CedarEngine}
    (h : newWithConfig w cedarConfig = .ok e) : e.SelectedFrom w (cedarConfig.map (·.policies)) := by
  unfold newWithConfig at h
  simp only [bind, Except.bind] at h
  split at h
  · cases h
  · split at h
    · cases h
    · split at h
      · cases h
      · rename_i loaded hload
        split at h
        · cases h
        · rename_i policies hparse
          cases h
          exact ⟨hload, hparse⟩

/-- A reload fails and changes nothing, or takes over what one of its loads has found. -/
theorem reload_cases (e : CedarEngine) (first second : World) :
    (∃ err, e.reload first second = (.error err, e)) ∨
    ∃ w text policies source, (w = first ∨ w = second) ∧ Loader.loadPolicies w = .ok (text, source) ∧
      parsePolicies text e.schema = .ok policies ∧
      e.reload first second = (.ok (), { e with snapshot := { text, policies, source } }) := by
  unfold reload
  cases hfirst : Loader.loadPolicies first with
  | error err => exact Or.inl ⟨err, rfl⟩
  | ok loaded =>
    obtain ⟨text, source⟩ := loaded
    dsimp only
    cases hparse : parsePolicies text e.schema with
    | ok policies => exact Or.inr ⟨first, text, policies, source, Or.inl rfl, hfirst, hparse, rfl⟩
    | error err =>
      cases hsecond : Loader.loadPolicies second with
      | error err => exact Or.inl ⟨err, rfl⟩
      | ok loaded =>
        obtain ⟨text', source'⟩ := loaded
        dsimp only
        cases hparse' : parsePolicies text' e.schema with
        | error err => exact Or.inl ⟨err, rfl⟩
        | ok policies => exact Or.inr ⟨second, text', policies, source', Or.inr rfl, hsecond, hparse', rfl⟩

theorem reload_error {e e' : CedarEngine} {first second : World} {err : PolicyError}
    (h : e.reload first second = (.error err, e')) : e' = e := by
  rcases e.reload_cases first second with ⟨err', hrel⟩ | ⟨_, _, _, _, _, _, _, hrel⟩
  · rw [hrel] at h
    cases h
    rfl
  · rw [hrel] at h
    cases h

/-- The engine through its reloads. The second component of a state is a world that the active policies come from: the
one of construction, then the one that the last successful load has seen. -/
def reloadMachine (e₀ : CedarEngine) (w₀ : World) : Machine (CedarEngine × World) (World × World) where
  init := (e₀, w₀)
  step s l :=
    some (match s.1.reload l.1 l.2 with
      | (.error _, e) => (e, s.2)
      | (.ok _, e) =>
        (e, match Loader.loadPolicies l.1 with
          | .error _ => l.2
          | .ok loaded => match parsePolicies loaded.1 s.1.schema with
            | .ok _ => l.1
            | .error _ => l.2))

theorem selectedFrom_step {e₀ : CedarEngine} {w₀ : World} {configPaths : Option (List String)}
    {s s' : CedarEngine × World} {l : World × World} (hs : s.1.SelectedFrom s.2 configPaths)
    (hidle : YamlIdle l.1 configPaths ∧ YamlIdle l.2 configPaths)
    (h : (reloadMachine e₀ w₀).step s l = some s') : s'.1.SelectedFrom s'.2 configPaths := by
  have hfirst := Loader.loadPolicies_of_idle hidle.1
  have hsecond := Loader.loadPolicies_of_idle hidle.2
  simp only [reloadMachine, reload] at h
  cases hload : Loader.loadPolicies l.1 with
  | error err =>
    rw [hload] at h
    cases h
    exact hs
  | ok loaded =>
    obtain ⟨text, source⟩ := loaded
    rw [hload] at h
    dsimp only at h
    cases hparse : parsePolicies text s.1.schema with
    | ok policies =>
      rw [hparse] at h
      cases h
      exact ⟨hfirst.symm.trans hload, hparse⟩
    | error err =>
      rw [hparse] at h
      dsimp only at h
      cases hload' : Loader.loadPolicies l.2 with
      | error err =>
        rw [hload'] at h
        cases h
        exact hs
      | ok loaded =>
        obtain ⟨text', source'⟩ := loaded
        rw [hload'] at h
        dsimp only at h
        cases hparse' : parsePolicies text' s.1.schema with
        | error err =>
          rw [hparse'] at h
          cases h
          exact hs
        | ok policies =>
          rw [hparse'] at h
          cases h
          exact ⟨hsecond.symm.trans hload', hparse'⟩

/-- With nothing changed but the clock, a reload keeps text and tier exactly when the YAML files have no say, or when
the embedded policies do not pass the engine's schema, so that the reload fails. -/
theorem reload_unchanged_iff {w : World} {configPaths : Option (List String)} {e : CedarEngine}
    (hsel : e.SelectedFrom w configPaths) :
    (∀ t t' e', e.reload { w with now := t } { w with now := t' } = (.ok (), e') →
      e'.snapshot.text = e.snapshot.text ∧ e'.snapshot.source.SameTier e.snapshot.source) ↔
    (YamlIdle w configPaths ∨ ∀ policies, parsePolicies Embedded.defaultPolicies e.schema ≠ .ok policies) := by
  obtain ⟨hload, hparse⟩ := hsel
  by_cases hidle : YamlIdle w configPaths
  · refine ⟨fun _ => Or.inl hidle, fun _ => ?_⟩
    intro t t' e' hrel
    have hfirst : Loader.loadPolicies { w with now := t } = .ok (e.snapshot.text, e.snapshot.source.redate t) := by
      have hidle' : YamlIdle { w with now := t } configPaths := hidle
      rw [Loader.loadPolicies_of_idle hidle', Loader.loadPoliciesWithConfig_redate, hload]
      rfl
    rw [reload, hfirst] at hrel
    simp only [hparse] at hrel
    cases hrel
    exact ⟨rfl, PolicySource.sameTier_redate _ t⟩
  · obtain ⟨hembedded, htier⟩ := Loader.loadPolicies_of_not_idle hidle
    have hboth : ∀ t, Loader.loadPolicies { w with now := t } = .ok (Embedded.defaultPolicies, .embedded) := by
      intro t
      have hidle' : ¬ YamlIdle { w with now := t } configPaths := hidle
      exact (Loader.loadPolicies_of_not_idle hidle').1
    constructor
    · intro hkeep
      refine Or.inr fun policies hok => ?_
      have hrel : e.reload { w with now := 0 } { w with now := 0 } =
          (.ok (), { e with snapshot := ⟨Embedded.defaultPolicies, policies, .embedded⟩ }) := by
        rw [reload, hboth 0]
        simp only [hok]
      have hsame := (hkeep 0 0 _ hrel).2
      exact htier _ _ hload hsame.symm
    · rintro (h | hbad)
      · exact absurd h hidle
      · intro t t' e' hrel
        rcases e.reload_cases { w with now := t } { w with now := t' } with
          ⟨err, herr⟩ | ⟨w', text, policies, source, hw, hl, hp, -⟩
        · rw [herr] at hrel
          cases hrel
        · exfalso
          have htext : text = Embedded.defaultPolicies := by
            rcases hw with rfl | rfl
            · rw [hboth] at hl
              cases hl
              rfl
            · rw [hboth] at hl
              cases hl
              rfl
          rw [htext] at hp
          exact hbad policies hp

/-- Reloads and the configured source. With nothing changed since construction, a reload that succeeds keeps text and
tier exactly under `YamlIdle` (or never succeeds). In every sequence of reloads that find the YAML files without a say,
the active policies are the loader's choice for the engine's own paths. A reload that fails changes nothing. -/
theorem reload_keeps_source {w₀ : World} {cedarConfig : Option CedarConfig} {e₀ : CedarEngine}
    (hnew : newWithConfig w₀ cedarConfig = .ok e₀) :
    ((∀ t t' e', e₀.reload { w₀ with now := t } { w₀ with now := t' } = (.ok (), e') →
        e'.snapshot.text = e₀.snapshot.text ∧ e'.snapshot.source.SameTier e₀.snapshot.source) ↔
      (YamlIdle w₀ (cedarConfig.map (·.policies)) ∨
        ∀ policies, parsePolicies Embedded.defaultPolicies e₀.schema ≠ .ok policies)) ∧
    (∀ s, (reloadMachine e₀ w₀).ReachableWhen (fun _ l => YamlIdle l.1 (cedarConfig.map (·.policies)) ∧
        YamlIdle l.2 (cedarConfig.map (·.policies))) s →
      s.1.SelectedFrom s.2 (cedarConfig.map (·.policies))) ∧
    (∀ (e e' : CedarEngine) (first second : World) (err : PolicyError),
      e.reload first second = (.error err, e') → e'.snapshot = e.snapshot) := by
  have hsel := newWithConfig_ok hnew
  refine ⟨reload_unchanged_iff hsel, ?_, ?_⟩
  · intro s hs
    exact Machine.ReachableWhen.invariant (I := fun s => s.1.SelectedFrom s.2 (cedarConfig.map (·.policies))) hsel
      (fun s l s' _ hI hidle hstep => selectedFrom_step hI hidle hstep) hs
  · intro e e' first second err hrel
    rw [reload_error hrel]

end

end CedarEngine

namespace Sample

@[reducible] def embedded : Embedded where
  defaultPolicies := permitAll
  schema := ""

/-- One policy file, and an environment. -/
def world (env : String → Option String) : World where
  env
  pathExists path := path == "policies.cedar"
  readToString path := if path = "policies.cedar" then .ok toolsOnly else .error "No such file or directory (os error 2)"
  now := 0

/-- The policies are also in the environment. -/
def envWorld : World := world fun v => if v = "THOUGHTGATE_POLICIES" then some toolsOnly else none

def cedarConfig : CedarConfig := ⟨["policies.cedar"], none⟩

end Sample

section

attribute [local instance] Sample.cedar Sample.embedded

/-- An engine built from a YAML file that permits tool calls only permits everything after a reload. -/
theorem reload_drops_yaml :
    ∃ e₀ e₁ : CedarEngine, CedarEngine.newWithConfig (Sample.world fun _ => none) (some Sample.cedarConfig) = .ok e₀ ∧
      e₀.reload (Sample.world fun _ => none) (Sample.world fun _ => none) = (.ok (), e₁) ∧
      e₀.snapshot.text = Sample.toolsOnly ∧ e₀.snapshot.source = .configMap "policies.cedar" 0 ∧
      e₁.snapshot.text = Sample.permitAll ∧ e₁.snapshot.source = .embedded ∧
      ¬ (e₁.snapshot.text = e₀.snapshot.text ∧ e₁.snapshot.source.SameTier e₀.snapshot.source) := by
  refine ⟨⟨(), ⟨Sample.toolsOnly, ["tools/call"], .configMap "policies.cedar" 0⟩⟩,
    ⟨(), ⟨Sample.permitAll, ["tools/call", "mcp/method", "Forward", "Approve"], .embedded⟩⟩, ?_, ?_, rfl, rfl, rfl, rfl, ?_⟩
  · rfl
  · have hne : Sample.permitAll ≠ Sample.toolsOnly := by decide
    have hload : Loader.loadPolicies (Sample.world fun _ => none) = .ok (Sample.permitAll, .embedded) := rfl
    have hset : Cedar.parsePolicySet Sample.permitAll = .ok ["tools/call", "mcp/method", "Forward", "Approve"] := by
      change (if _ then _ else if _ then _ else _) = _
      rw [if_neg hne, if_pos rfl]
    have hparse : CedarEngine.parsePolicies Sample.permitAll () =
        .ok ["tools/call", "mcp/method", "Forward", "Approve"] := by
      rw [CedarEngine.parsePolicies, hset]
      rfl
    rw [CedarEngine.reload, hload]
    simp only [hparse]
  · intro h
    exact absurd h.1 (by decide)

/-- With the policies in the environment the reload keeps them. -/
theorem reload_keeps_source_sample :
    ∃ e₀ : CedarEngine, CedarEngine.newWithConfig Sample.envWorld (some Sample.cedarConfig) = .ok e₀ ∧
      e₀.snapshot.source = .environment 0 ∧
      ∀ t t' e', e₀.reload { Sample.envWorld with now := t } { Sample.envWorld with now := t' } = (.ok (), e') →
        e'.snapshot.text = e₀.snapshot.text ∧ e'.snapshot.source.SameTier e₀.snapshot.source := by
  have hnew : CedarEngine.newWithConfig Sample.envWorld (some Sample.cedarConfig) =
      .ok ⟨(), ⟨Sample.toolsOnly, ["tools/call"], .environment 0⟩⟩ := rfl
  exact ⟨_, hnew, rfl, (CedarEngine.reload_keeps_source hnew).1.mpr (Or.inl (Or.inr (Or.inl rfl)))⟩

end

end ThoughtGate
