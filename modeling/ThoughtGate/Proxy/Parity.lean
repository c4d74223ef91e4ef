import ThoughtGate.Proxy.Routing
import ThoughtGate.Shim.Message

/-!
# The two transports

The same message, once at the HTTP proxy (`parse_single_request`, then `route_through_gates`) and once at the stdio shim
(`classify_jsonrpc`, then the question to the governance evaluator). Both come to the same gates, but by different
roads:

* the proxy asks about every message as a request, on the source `upstream`, and refuses one that names no resource;
* the shim asks on its own server id and says what kind of message it is; the evaluator forwards a notification, and
  a request that names no resource, before the first gate.

So they agree on a governed message exactly when it names its resource and either carries an identifier and fares alike
on both sources, or carries none and passes the gates (`transports_agree_iff`).
-/

namespace ThoughtGate

/-- Gates 1 and 2 let the resource pass on the source without more ado. -/
def PassesGates [Glob] (config : Config) (sourceId resourceName : String) : Prop :=
  ∃ source, config.getSource sourceId = some source ∧ source.enabled = true ∧
    source.expose.isVisible resourceName = true ∧
    (config.governance.evaluate resourceName sourceId).action = .forward

theorem PassesGates.action [Glob] {config : Config} {sourceId resourceName : String}
    (h : PassesGates config sourceId resourceName) :
    (config.governance.evaluate resourceName sourceId).action = .forward := by
  obtain ⟨source, -, -, -, hact⟩ := h
  exact hact

section

variable [Glob] [Cedar] [F64.Fmt] [Sha256] [PipelineLib] [F64.Display] [Serde] [Propagator]

/-- The proxy sends the message upstream without an approval. -/
def McpState.Forwards (state : McpState) (env : EvalEnv) (store : TaskStore) (principal : Option Principal)
    (value : Value) : Prop :=
  ∃ request, parseSingleRequest value = .ok request ∧ (state.routeThroughGates env store principal request).sent ≠ []

/-- The shim, for a line with this message, is told to forward it. -/
def Shim.Forwards (ev : Evaluator) (env : EvalEnv) (store : TaskStore) (serverId line : String) (value : Value) :
    Prop :=
  ∃ msg, Shim.parseStdioValue line value = .ok msg ∧
    Evaluator.decision (ev.evaluateWithPrincipal env store
      (Shim.received (Shim.evalRequest serverId msg.kind msg.params)) none) = .forward

/-! ### The evaluator -/

omit [Cedar] [F64.Fmt] [Sha256] [PipelineLib] [F64.Display] [Serde] [Propagator] in
theorem Evaluator.hidden_of_visible {config : Config} {serverId resourceName : String} {source : Source}
    (hsource : config.getSource serverId = some source) (henabled : source.enabled = true)
    (hvisible : source.expose.isVisible resourceName = true) : hidden config serverId resourceName = none := by
  unfold hidden
  rw [hsource]
  simp [henabled, hvisible]

omit [Serde] [Propagator] in
/-- In production a named request is forwarded exactly through the two gates. -/
theorem Evaluator.forward_iff_passes {ev : Evaluator} (hprod : ev.profile = .production) (env : EvalEnv)
    (store : TaskStore) (req : EvaluateRequest) (principal : Option Principal) (hreq : req.messageType = .request)
    (hdir : req.direction = .agentToServer) (hgated : methodRequiresGates req.method = true) {resourceName : String}
    (hname : extractResourceName req.method req.params = some resourceName) :
    decision (ev.evaluateWithPrincipal env store req principal) = .forward ↔
      PassesGates ev.config req.serverId resourceName := by
  constructor
  · intro h
    obtain ⟨source, name, hsource, henabled, hname', hvisible, hact⟩ :=
      mediated_of_forward hprod hreq hdir hgated hname h
    rw [hname] at hname'
    cases hname'
    exact ⟨source, hsource, henabled, hvisible, hact⟩
  · rintro ⟨source, hsource, henabled, hvisible, hact⟩
    have hhid : hidden ev.config req.serverId resourceName = none := hidden_of_visible hsource henabled hvisible
    unfold evaluateWithPrincipal
    simp only [hreq, hdir, ne_eq, not_true_eq_false, or_self, if_false, hgated, Bool.not_true, Bool.false_eq_true, hname,
      hhid, hact]
    rfl

/-! ### The proxy -/

omit [Serde] [Propagator] in
theorem McpState.routeThroughGates_sent {state : McpState} {ev : Evaluator} (hstate : state.Asks ev)
    (hprod : ev.profile = .production) (env : EvalEnv) (store : TaskStore) (principal : Option Principal)
    {request : McpRequest} (hgated : methodRequiresGates request.method = true) :
    (state.routeThroughGates env store principal request).sent ≠ [] ↔
      ∃ name, extractResourceName request.method request.params = some name ∧
        PassesGates ev.config state.getSourceId name := by
  rw [routeThroughGates_sent_iff hstate]
  constructor
  · rintro ⟨name, isBlockingMode, request', hname, hvalid, hforward⟩
    obtain ⟨hgated', hname'⟩ := governanceRequest_of_valid state hvalid hgated hname
    exact ⟨name, hname, (Evaluator.forward_iff_passes hprod env store (state.governanceRequest request') principal rfl rfl
      hgated' hname').mp hforward⟩
  · rintro ⟨name, hname, hpasses⟩
    -- only approvals and policies ask for task metadata, and those do not pass
    have hact := hpasses.action
    obtain ⟨request', hvalid⟩ := validateTaskMetadata_of_forward request name state.upstreamSupportsTasks
      state.approvalEngine.isSome
    rw [← hact] at hvalid
    obtain ⟨hgated', hname'⟩ := governanceRequest_of_valid state hvalid hgated hname
    exact ⟨name, false, request', hname, hvalid, (Evaluator.forward_iff_passes hprod env store
      (state.governanceRequest request') principal rfl rfl hgated' hname').mpr hpasses⟩

omit [Propagator] in
theorem McpState.forwards_iff {state : McpState} {ev : Evaluator} (hstate : state.Asks ev)
    (hprod : ev.profile = .production) (env : EvalEnv) (store : TaskStore) (principal : Option Principal)
    {value : Value} {kind : JsonRpcMessageKind} (hkind : classifyJsonrpc value = .ok kind)
    (hgated : methodRequiresGates kind.method = true) :
    state.Forwards env store principal value ↔
      ∃ name, extractResourceName kind.method (value.get "params") = some name ∧
        PassesGates ev.config state.getSourceId name := by
  have hresp : ∀ id, kind ≠ .response id := by
    rintro id rfl
    cases hgated
  have hname : extractResourceName kind.method (decodeValue (value.get "params")) =
      extractResourceName kind.method (value.get "params") :=
    extractResourceName_congr fun key _ => Shim.get_decodeValue _ key
  unfold Forwards
  rw [parseSingleRequest_of_classify hkind hresp, ← hname]
  constructor
  · rintro ⟨request, hrequest, hsent⟩
    cases hrequest
    exact (routeThroughGates_sent hstate hprod env store principal hgated).mp hsent
  · intro h
    exact ⟨_, rfl, (routeThroughGates_sent hstate hprod env store principal hgated).mpr h⟩

/-! ### The shim -/

omit [Cedar] [F64.Fmt] [Sha256] [PipelineLib] [F64.Display] [Serde] [Propagator] [Glob] in
theorem Shim.parseStdioValue_of_classify (line : String) {value : Value} {kind : JsonRpcMessageKind}
    (hkind : classifyJsonrpc value = .ok kind) :
    parseStdioValue line value = .ok { kind, params := value.get "params", raw := line } := by
  unfold parseStdioValue
  cases value with
  | array xs => cases hkind
  | _ =>
    dsimp only
    rw [hkind]

omit [Serde] in
theorem Shim.forwards_iff {ev : Evaluator} (hprod : ev.profile = .production) (env : EvalEnv) (store : TaskStore)
    (serverId line : String) {value : Value} {kind : JsonRpcMessageKind} (hkind : classifyJsonrpc value = .ok kind)
    (hgated : methodRequiresGates kind.method = true) :
    Forwards ev env store serverId line value ↔
      kind.id = none ∨ ∀ name, extractResourceName kind.method (value.get "params") = some name →
        PassesGates ev.config serverId name := by
  have hread : Forwards ev env store serverId line value ↔
      Evaluator.decision (ev.evaluateWithPrincipal env store
        (received (evalRequest serverId kind (value.get "params"))) none) = .forward := by
    unfold Forwards
    rw [parseStdioValue_of_classify line hkind]
    constructor
    · rintro ⟨msg, hmsg, h⟩
      cases hmsg
      exact h
    · exact fun h => ⟨_, rfl, h⟩
  rw [hread]
  have hnames := extractResourceName_received serverId kind (value.get "params")
  cases kind with
  | response id => cases hgated
  | notification method =>
    simp only [JsonRpcMessageKind.id, true_or, iff_true]
    unfold Evaluator.evaluateWithPrincipal
    simp [received, evalRequest, messageTypeFromKind, Evaluator.decision, Evaluator.forward]
  | request id method =>
    simp only [JsonRpcMessageKind.id, reduceCtorEq, false_or]
    cases hname : extractResourceName (JsonRpcMessageKind.request id method).method (value.get "params") with
    | none =>
      have hfwd : Evaluator.decision (ev.evaluateWithPrincipal env store
          (received (evalRequest serverId (.request id method) (value.get "params"))) none) = .forward :=
        Evaluator.forward_of_unnamed (hnames.trans hname)
      simp [hfwd]
    | some name =>
      have hiff := Evaluator.forward_iff_passes hprod env store
        (received (evalRequest serverId (.request id method) (value.get "params"))) none rfl rfl hgated
        (hnames.trans hname)
      have hall : (∀ name', some name = some name' → PassesGates ev.config serverId name') ↔
          PassesGates ev.config serverId name := by simp
      rw [hall]
      exact hiff

/-! ### Parity -/

/-- The two transports agree on a governed message exactly when it names its resource, and the gates say the same of it
on both sources, or let it pass if it is a notification. -/
theorem transports_agree_iff (state : McpState) (ev : Evaluator) (hstate : state.Asks ev)
    (hprod : ev.profile = .production) (proxyEnv shimEnv : EvalEnv) (proxyStore shimStore : TaskStore)
    (principal : Option Principal) (serverId line : String) (value : Value) (kind : JsonRpcMessageKind)
    (hkind : classifyJsonrpc value = .ok kind) (hgated : methodRequiresGates kind.method = true) :
    (state.Forwards proxyEnv proxyStore principal value ↔ Shim.Forwards ev shimEnv shimStore serverId line value) ↔
      ∃ name, extractResourceName kind.method (value.get "params") = some name ∧
        (kind.id ≠ none → (PassesGates ev.config "upstream" name ↔ PassesGates ev.config serverId name)) ∧
        (kind.id = none → PassesGates ev.config "upstream" name) := by
  rw [McpState.forwards_iff hstate hprod proxyEnv proxyStore principal hkind hgated,
    Shim.forwards_iff hprod shimEnv shimStore serverId line hkind hgated]
  cases extractResourceName kind.method (value.get "params") with
  | none => simp
  | some name =>
    have hsource : state.getSourceId = "upstream" := rfl
    rw [hsource]
    cases kind.id with
    | none => simp
    | some id => simp

end

section

attribute [local instance] Sample.glob Sample.cedar Sample.f64Fmt Sample.f64Display Sample.sha256 Sample.pipelineLib
  Sample.serde Sample.propagator

namespace Sample

/-- One source, of which nothing but `read` may be called. -/
def oneTool : Evaluator := evaluator [{ id := "upstream" }] .deny [{ pattern := "read", action := .forward }]

def readMessage : Value :=
  .object [("jsonrpc", .string "2.0"), ("id", .number (.posInt 1)), ("method", .string "tools/call"),
    ("params", .object [("name", .string "read")])]

/-- A call without an identifier. -/
def deleteNotification : Value :=
  .object [("jsonrpc", .string "2.0"), ("method", .string "tools/call"), ("params", .object [("name", .string "delete")])]

end Sample

theorem transports_agree_iff_sample :
    (Sample.proxy Sample.oneTool).Forwards Sample.evalEnv (.new {}) none Sample.readMessage ↔
      Shim.Forwards Sample.oneTool Sample.evalEnv (.new {}) "upstream" "" Sample.readMessage := by
  have hagree := transports_agree_iff (Sample.proxy Sample.oneTool) Sample.oneTool ⟨rfl, rfl⟩ rfl Sample.evalEnv
    Sample.evalEnv (.new {}) (.new {}) none "upstream" "" Sample.readMessage (.request (.number 1) "tools/call") rfl rfl
  exact hagree.mpr ⟨"read", rfl, fun _ => Iff.rfl, fun h => by cases h⟩

/-- A call that the rules deny, without an identifier: the proxy refuses it, the shim is told to forward it. -/
theorem transports_disagree :
    (Sample.proxy Sample.oneTool).Asks Sample.oneTool ∧ Sample.oneTool.profile = .production ∧
      classifyJsonrpc Sample.deleteNotification = .ok (.notification "tools/call") ∧
      ¬ ((Sample.proxy Sample.oneTool).Forwards Sample.evalEnv (.new {}) none Sample.deleteNotification ↔
        Shim.Forwards Sample.oneTool Sample.evalEnv (.new {}) "upstream" "" Sample.deleteNotification) := by
  refine ⟨⟨rfl, rfl⟩, rfl, rfl, fun hagree => ?_⟩
  have hshim : Shim.Forwards Sample.oneTool Sample.evalEnv (.new {}) "upstream" "" Sample.deleteNotification :=
    ⟨_, rfl, rfl⟩
  obtain ⟨request, hrequest, hsent⟩ := hagree.mpr hshim
  cases hrequest
  exact hsent (by decide)

end

end ThoughtGate
