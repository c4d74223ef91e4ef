import ThoughtGate.Config.Validate
import ThoughtGate.Proxy.Routing

/-!
# The source of the HTTP proxy

The proxy looks up one source, `upstream`, in every gate and for every list (`get_source_id`), while a configuration
for v0.2 may give its one source any id. With the id `upstream` the gates and the lists go by that source; with another
id nothing is sent for a governed request and the lists are empty (`governed_by_source`).
-/

namespace ThoughtGate

section

variable [Glob]

/-- The rule that decides about a resource of the source: the first one that is for the source and whose pattern
matches. -/
def Governance.ruleFor (g : Governance) (source : Source) (name : String) : Option Rule :=
  (g.rules.filter fun rule => rule.source.all fun filter => filter.covers source.id).find? fun rule =>
    match rule.compiledPattern with
    | some p => Glob.isMatch p name
    | none => matchesText rule.pattern name

/-- The gates have gone by this source: Gate 1 by its flag and what it exposes, Gate 2 by the rules for it. -/
structure GatedBy (g : Governance) (source : Source) (name : String) (trace : EvalTrace) : Prop where
  visibility : trace.gate1 = some (if source.enabled && source.expose.isVisible name then "pass" else "block")
  rule : source.enabled = true → source.expose.isVisible name = true →
    trace.gate2RuleId = (g.ruleFor source name).map (·.pattern) ∧
      trace.gate2 = some (Evaluator.actionName (((g.ruleFor source name).map (·.action)).getD g.defaultAction))

/-! ### Looking up -/

theorem Governance.evaluate_eq (g : Governance) (source : Source) (name : String) :
    g.evaluate name source.id =
      match g.ruleFor source name with
      | some rule => ⟨rule.action, rule.policyId, rule.approval, some rule.pattern⟩
      | none => ⟨g.defaultAction, none, none, none⟩ := by
  have happlies : (fun rule : Rule => rule.applies name source.id) = fun rule : Rule =>
      decide ((rule.source.all fun filter => filter.covers source.id) = true ∧
        (match rule.compiledPattern with
          | some p => Glob.isMatch p name
          | none => matchesText rule.pattern name) = true) := by
    funext rule
    have hbody : rule.applies name source.id = ((rule.source.all fun filter => filter.covers source.id) &&
        match rule.compiledPattern with
        | some p => Glob.isMatch p name
        | none => matchesText rule.pattern name) := rfl
    rw [hbody, Bool.decide_and, Bool.decide_eq_true, Bool.decide_eq_true]
  have hfind : g.ruleFor source name = g.rules.find? fun rule => rule.applies name source.id := by
    rw [happlies]
    exact List.find?_filter
  rw [hfind]
  rfl

theorem Config.getSource_single {config : Config} {source : Source} (h : config.sources = [source]) (id : String) :
    config.getSource id = if source.id = id then some source else none := by
  unfold getSource
  rw [h]
  by_cases hid : source.id = id <;> simp [hid]

section

variable [Cedar] [F64.Fmt] [Sha256] [PipelineLib] [F64.Display]

/-! ### Traces -/

/-- The outcome of the first two gates. -/
def EvalTrace.SameGates (a b : EvalTrace) : Prop :=
  a.gate1 = b.gate1 ∧ a.gate2 = b.gate2 ∧ a.gate2RuleId = b.gate2RuleId

omit [Glob] [Cedar] [F64.Display] in
theorem Evaluator.startWithEngine_trace (engine : Engine) (env : StartEnv) (store : TaskStore)
    (request : ToolCallRequest) (workflow : Option HumanWorkflow) (policyId : Option String) (principal : Principal)
    (trace : EvalTrace) :
    (startWithEngine engine env store request workflow policyId principal trace).1.2.SameGates trace := by
  unfold startWithEngine
  split <;> exact ⟨rfl, rfl, rfl⟩

omit [Glob] [Cedar] [F64.Display] [PipelineLib] in
theorem Evaluator.startLegacy_trace (hasScheduler : Bool) (env : StartEnv) (store : TaskStore)
    (request : ToolCallRequest) (workflow : Option HumanWorkflow) (policyId : Option String) (principal : Principal)
    (trace : EvalTrace) :
    (startLegacy hasScheduler env store request workflow policyId principal trace).1.2.SameGates trace := by
  unfold startLegacy
  split
  · exact ⟨rfl, rfl, rfl⟩
  · split
    · exact ⟨rfl, rfl, rfl⟩
    · dsimp only
      split
      · split <;> exact ⟨rfl, rfl, rfl⟩
      · exact ⟨rfl, rfl, rfl⟩

omit [F64.Display] in
theorem Evaluator.startApproval_trace (ev : Evaluator) (env : EvalEnv) (store : TaskStore) (req : EvaluateRequest)
    (resourceName : String) (policyId approvalWorkflow : Option String) (principal : Principal) (trace : EvalTrace) :
    (ev.startApproval env store req resourceName policyId approvalWorkflow principal trace).1.2.SameGates trace := by
  unfold startApproval
  split
  · exact ⟨rfl, rfl, rfl⟩
  · dsimp only
    split
    · exact startWithEngine_trace _ _ _ _ _ _ _ _
    · exact startLegacy_trace _ _ _ _ _ _ _ _

theorem Evaluator.evaluateCedar_trace (ev : Evaluator) (env : EvalEnv) (store : TaskStore) (req : EvaluateRequest)
    (resourceName : String) (policyId approvalWorkflow : Option String) (principal : Principal) (trace : EvalTrace) :
    (ev.evaluateCedar env store req resourceName policyId approvalWorkflow principal trace).1.2.SameGates trace := by
  unfold evaluateCedar
  split
  · split <;> exact ⟨rfl, rfl, rfl⟩
  · dsimp only
    split
    · exact startApproval_trace _ _ _ _ _ _ _ _ _
    · split <;> exact ⟨rfl, rfl, rfl⟩

/-- The trace of a named request at the first two gates. -/
theorem Evaluator.evaluate_trace (ev : Evaluator) (env : EvalEnv) (store : TaskStore) {req : EvaluateRequest}
    (principal : Option Principal) (hreq : req.messageType = .request) (hdir : req.direction = .agentToServer)
    (hgated : methodRequiresGates req.method = true) {name : String}
    (hname : extractResourceName req.method req.params = some name) :
    (ev.evaluateWithPrincipal env store req principal).1.2.SameGates
      (if (hidden ev.config req.serverId name).isSome then { gate1 := some "block" }
      else
        { gate1 := some "pass"
          gate2 := some (actionName (ev.config.governance.evaluate name req.serverId).action)
          gate2RuleId := (ev.config.governance.evaluate name req.serverId).matchedRule }) := by
  unfold evaluateWithPrincipal
  simp only [hreq, hdir, ne_eq, not_true_eq_false, or_self, if_false, hgated, Bool.not_true, Bool.false_eq_true, hname]
  cases hhid : hidden ev.config req.serverId name with
  | some reason => exact ⟨rfl, rfl, rfl⟩
  | none =>
    simp only [Option.isSome_none, Bool.false_eq_true, if_false]
    cases hact : (ev.config.governance.evaluate name req.serverId).action with
    | forward => exact ⟨rfl, rfl, rfl⟩
    | deny => exact ⟨rfl, rfl, rfl⟩
    | policy => exact evaluateCedar_trace _ _ _ _ _ _ _ _ _
    | approve => exact startApproval_trace _ _ _ _ _ _ _ _ _

omit [Cedar] [F64.Fmt] [Sha256] [PipelineLib] [F64.Display] in
theorem Evaluator.hidden_of_source {config : Config} {source : Source} (hsource : config.getSource source.id = some source)
    (name : String) :
    (hidden config source.id name).isSome = !(source.enabled && source.expose.isVisible name) := by
  unfold hidden
  rw [hsource]
  cases henabled : source.enabled with
  | false => simp [henabled]
  | true => cases hvisible : source.expose.isVisible name <;> simp [henabled, hvisible]

/-- A named request is gated by the source whose id is asked for. -/
theorem Evaluator.gatedBy {ev : Evaluator} {source : Source} (hsource : ev.config.getSource source.id = some source)
    (env : EvalEnv) (store : TaskStore) {req : EvaluateRequest} (principal : Option Principal)
    (hid : req.serverId = source.id) (hreq : req.messageType = .request) (hdir : req.direction = .agentToServer)
    (hgated : methodRequiresGates req.method = true) {name : String}
    (hname : extractResourceName req.method req.params = some name) :
    GatedBy ev.config.governance source name (ev.evaluateWithPrincipal env store req principal).1.2 := by
  obtain ⟨hgate1, hgate2, hrule⟩ := ev.evaluate_trace env store principal hreq hdir hgated hname
  rw [hid, hidden_of_source hsource] at hgate1 hgate2 hrule
  constructor
  · rw [hgate1]
    cases source.enabled && source.expose.isVisible name <;> rfl
  · intro henabled hvisible
    rw [henabled, hvisible, Governance.evaluate_eq] at hgate2 hrule
    rw [hgate2, hrule]
    cases ev.config.governance.ruleFor source name <;> exact ⟨rfl, rfl⟩

end

section

variable [Cedar] [F64.Fmt] [Sha256] [PipelineLib] [F64.Display]

/-- A source that is not configured lets nothing pass, in either profile. -/
theorem Evaluator.deny_of_unknown {ev : Evaluator} (env : EvalEnv) (store : TaskStore) {req : EvaluateRequest}
    (principal : Option Principal) (hsource : ev.config.getSource req.serverId = none)
    (hreq : req.messageType = .request) (hdir : req.direction = .agentToServer)
    (hgated : methodRequiresGates req.method = true) {name : String}
    (hname : extractResourceName req.method req.params = some name) :
    decision (ev.evaluateWithPrincipal env store req principal) = .deny := by
  have hhid : hidden ev.config req.serverId name =
      some ("Source '" ++ req.serverId ++ "' not found in configuration") := by
    unfold hidden
    rw [hsource]
  unfold evaluateWithPrincipal
  simp only [hreq, hdir, ne_eq, not_true_eq_false, or_self, if_false, hgated, Bool.not_true, Bool.false_eq_true, hname,
    hhid]
  rfl

theorem McpState.nothing_sent {state : McpState} {ev : Evaluator} (hstate : state.Asks ev)
    (hsource : ev.config.getSource state.getSourceId = none) (env : EvalEnv) (store : TaskStore)
    (principal : Option Principal) {request : McpRequest} (hgated : methodRequiresGates request.method = true) :
    (state.routeThroughGates env store principal request).sent = [] := by
  by_contra hsent
  obtain ⟨name, isBlockingMode, request', hname, hvalid, hforward⟩ :=
    (routeThroughGates_sent_iff hstate env store principal request).mp hsent
  obtain ⟨hgated', hname'⟩ := governanceRequest_of_valid state hvalid hgated hname
  have hdeny : Evaluator.decision (ev.evaluateWithPrincipal env store (state.governanceRequest request') principal) =
      .deny := Evaluator.deny_of_unknown env store principal hsource rfl rfl hgated' hname'
  rw [hforward] at hdeny
  cases hdeny

end

/-! ### Lists -/

/-- The names of the items that a list result shows. -/
def listedNames (method : String) (result : Value) : List (Option Value) :=
  (listedItems method result).map (·.get (listKeyField method))

/-- The names of the items of a list result that the source exposes. -/
def exposedNames (source : Source) (method : String) (result : Value) : List (Option Value) :=
  ((listedItems method result).filter (itemVisible source.expose (listKeyField method))).map
    (·.get (listKeyField method))

/-- What filtering leaves of a list. -/
theorem filterListResult_items (config : Config) (sourceId : String) (upstreamSupportsTasks : Bool) {method : String}
    (hlist : isListMethod method = true) (result : Value) :
    listedNames method ((filterListResult config sourceId upstreamSupportsTasks method result).getD result) =
      (filterByVisibility config sourceId (listKeyField method) (listedItems method result)).map
        (·.get (listKeyField method)) := by
  unfold listedNames
  cases hfiltered : filterListResult config sourceId upstreamSupportsTasks method result with
  | none =>
    have hnothing : filterByVisibility config sourceId (listKeyField method) [] = [] := by
      unfold filterByVisibility
      split <;> rfl
    rw [Option.getD_none, filterListResult_none hlist hfiltered, hnothing]
  | some filtered =>
    obtain ⟨-, fields, -, rfl⟩ := filterListResult_some hfiltered
    rw [Option.getD_some, listedItems_insert_self, keepListed_names]

section

variable [Cedar]

/-- The answer to a list method shows what filtering by the proxy's source leaves. -/
theorem McpState.handleListMethod_shows {state : McpState} {config : Config} (hconfig : state.config = some config)
    {request : McpRequest} (hlist : isListMethod request.method = true) {response : JsonRpcResponse} {result : Value}
    (hanswer : state.upstream request = .ok response) (herror : response.error = none)
    (hresult : response.result = some result) :
    ∃ answer shown, state.handleListMethod request = .ok answer ∧ answer.result = some shown ∧
      listedNames request.method shown =
        (filterByVisibility config state.getSourceId (listKeyField request.method)
          (listedItems request.method result)).map (·.get (listKeyField request.method)) := by
  have hitems := filterListResult_items config state.getSourceId state.upstreamSupportsTasks hlist result
  unfold handleListMethod
  simp only [hanswer, bind, Except.bind, herror, Option.isSome_none, Bool.false_eq_true, if_false, hconfig, hresult]
  cases hfiltered : filterListResult config state.getSourceId state.upstreamSupportsTasks request.method result with
  | some filtered =>
    rw [hfiltered] at hitems
    exact ⟨_, filtered, rfl, rfl, hitems⟩
  | none =>
    rw [hfiltered] at hitems
    exact ⟨response, result, rfl, hresult, hitems⟩

end

/-! ### The one source -/

section

variable [Cedar] [F64.Fmt] [Sha256] [PipelineLib] [F64.Display]

/-- For a configuration that is accepted for v0.2: if its source is called `upstream`, the proxy's gates and lists go by
that source; if not, no governed request is sent and no list shows anything. -/
theorem governed_by_source (state : McpState) (ev : Evaluator) (hstate : state.Asks ev)
    (haccepted : ev.config.validate .v02 = .ok ()) :
    ∃ source, ev.config.sources = [source] ∧
      (source.id = "upstream" →
        (∀ env store principal request name, methodRequiresGates request.method = true →
          extractResourceName request.method request.params = some name →
          GatedBy ev.config.governance source name
            (ev.evaluateWithPrincipal env store (state.governanceRequest request) principal).1.2) ∧
        ∀ request response result, isListMethod request.method = true → state.upstream request = .ok response →
          response.error = none → response.result = some result →
          ∃ answer shown, state.handleListMethod request = .ok answer ∧ answer.result = some shown ∧
            listedNames request.method shown = exposedNames source request.method result) ∧
      (source.id ≠ "upstream" →
        (∀ env store principal request, methodRequiresGates request.method = true →
          (state.routeThroughGates env store principal request).sent = []) ∧
        ∀ request response result, isListMethod request.method = true → state.upstream request = .ok response →
          response.error = none → response.result = some result →
          ∃ answer shown, state.handleListMethod request = .ok answer ∧ answer.result = some shown ∧
            listedNames request.method shown = []) := by
  obtain ⟨source, hsource⟩ := Config.single_source haccepted
  have hupstream : state.getSourceId = "upstream" := rfl
  refine ⟨source, hsource, ?_, ?_⟩
  · intro hid
    have hget : ev.config.getSource source.id = some source := by
      rw [Config.getSource_single hsource]
      simp
    refine ⟨?_, ?_⟩
    · intro env store principal request name hgated hname
      exact Evaluator.gatedBy hget env store principal (hupstream.trans hid.symm) rfl rfl hgated hname
    · intro request response result hlist hanswer herror hresult
      obtain ⟨answer, shown, hok, hshown, hnames⟩ :=
        McpState.handleListMethod_shows hstate.2 hlist hanswer herror hresult
      refine ⟨answer, shown, hok, hshown, ?_⟩
      rw [hnames, hupstream, ← hid]
      unfold filterByVisibility exposedNames
      rw [hget]
  · intro hid
    have hget : ev.config.getSource state.getSourceId = none := by
      rw [Config.getSource_single hsource, hupstream, if_neg hid]
    refine ⟨?_, ?_⟩
    · intro env store principal request hgated
      exact McpState.nothing_sent hstate hget env store principal hgated
    · intro request response result hlist hanswer herror hresult
      obtain ⟨answer, shown, hok, hshown, hnames⟩ :=
        McpState.handleListMethod_shows hstate.2 hlist hanswer herror hresult
      refine ⟨answer, shown, hok, hshown, ?_⟩
      rw [hnames]
      unfold filterByVisibility
      rw [hget]
      rfl

end

end

section

attribute [local instance] Sample.glob Sample.cedar Sample.f64Fmt Sample.f64Display Sample.sha256 Sample.pipelineLib

namespace Sample

/-- One source, which exposes everything and forwards it. -/
def openSource (id : String) : Evaluator := evaluator [{ id }] .forward []

def toolRequest (name : String) : McpRequest where
  id := some (.number 1)
  method := "tools/call"
  params := some (.object [("name", .string name)])
  taskMetadata := none

end Sample

theorem governed_by_source_sample :
    ∃ source, (Sample.openSource "upstream").config.sources = [source] ∧
      GatedBy (Sample.openSource "upstream").config.governance source "read"
        ((Sample.openSource "upstream").evaluateWithPrincipal Sample.evalEnv (.new {})
          ((Sample.proxy (Sample.openSource "upstream")).governanceRequest (Sample.toolRequest "read")) none).1.2 := by
  obtain ⟨source, hsource, hgoverned, -⟩ := governed_by_source (Sample.proxy (Sample.openSource "upstream"))
    (Sample.openSource "upstream") ⟨rfl, rfl⟩ (by decide)
  have hid : source.id = "upstream" := by
    cases hsource
    rfl
  exact ⟨source, hsource, (hgoverned hid).1 _ _ _ (Sample.toolRequest "read") "read" rfl rfl⟩

/-- A configuration is accepted whose source has another id: the source is enabled and exposes the tool, and Gate 1
blocks the call. -/
theorem other_id_not_governed :
    (Sample.openSource "my.mcp-server_01").config.validate .v02 = .ok () ∧
      (Sample.proxy (Sample.openSource "my.mcp-server_01")).Asks (Sample.openSource "my.mcp-server_01") ∧
      ∃ source, (Sample.openSource "my.mcp-server_01").config.sources = [source] ∧ source.enabled = true ∧
        source.expose.isVisible "read" = true ∧
        ¬ GatedBy (Sample.openSource "my.mcp-server_01").config.governance source "read"
          ((Sample.openSource "my.mcp-server_01").evaluateWithPrincipal Sample.evalEnv (.new {})
            ((Sample.proxy (Sample.openSource "my.mcp-server_01")).governanceRequest (Sample.toolRequest "read"))
            none).1.2 := by
  refine ⟨by decide, ⟨rfl, rfl⟩, _, rfl, rfl, rfl, fun hgated => ?_⟩
  have hgate1 := hgated.visibility
  revert hgate1
  decide

end

end ThoughtGate
