import ThoughtGate.Gate.Drift

/-!
# From the request to the call and back

Gate 4 takes a request apart (`extract_resource_name`, `extract_arguments`, the identifier with `Null` for none) and
stores a `ToolCallRequest`; once it is approved, `to_mcp_request` writes a request by the template of its method. What
comes out has the members of the template (`rebuiltMember`) and no others: an additional parameter is lost, and a tool
call without arguments has got empty ones (`approval_round_trip`, `parameter_lost`).
-/

namespace ThoughtGate

/-- The rebuilt request is the one that was evaluated, apart from its task and its `_meta`. -/
structure KeepsCall (req : EvaluateRequest) (rebuilt : Option JsonRpcId × String × Value) : Prop where
  method : rebuilt.2.1 = req.method
  id : rebuilt.1 = req.id
  params : ∀ key, key ≠ "task" → key ≠ "_meta" → rebuilt.2.2.get key = req.params.bind (Value.get key)

/-- What of the original parameters stands under a key of the rebuilt ones: the name of the resource, the arguments of a
tool call (empty ones for none), and the arguments of a prompt if they are something. -/
def rebuiltMember (method : String) (params : Option Value) (key : String) : Option Value :=
  let original := params.bind (Value.get key)
  if resourceKey method = some key then original
  else if key = "arguments" then
    if method = "tools/call" then some (original.getD .emptyObject)
    else if method = "prompts/get" then original.filter fun v => !(v.isNull || v.isEmptyObject)
    else none
  else none

theorem extractResourceName_eq_some {method name : String} {params : Option Value}
    (h : extractResourceName method params = some name) :
    ∃ key, resourceKey method = some key ∧ params.bind (Value.get key) = some (.string name) := by
  simp only [extractResourceName, bind, Option.bind_eq_some_iff] at h
  obtain ⟨p, rfl, key, hkey, value, hvalue, hstr⟩ := h
  refine ⟨key, hkey, ?_⟩
  cases value with
  | string text =>
    cases hstr
    exact hvalue
  | _ => cases hstr

namespace Pipeline

/-- The parameters of `tools/call` and, with arguments, of `prompts/get`. -/
theorem get_named (name : String) (arguments : Value) (key : String) :
    (Value.object [("name", .string name), ("arguments", arguments)]).get key =
      if key = "name" then some (.string name) else if key = "arguments" then some arguments else none := by
  by_cases hname : key = "name"
  · subst hname
    rfl
  · by_cases harg : key = "arguments"
    · subst harg
      rfl
    · simp [Value.get, Ne.symm hname, Ne.symm harg, hname, harg]

theorem get_single (member key : String) (v : Value) :
    (Value.object [(member, v)]).get key = if key = member then some v else none := by
  by_cases h : key = member
  · subst h
    simp [Value.get]
  · simp [Value.get, Ne.symm h, h]

theorem mcpParams_tool {req : EvaluateRequest} {name : String} (h : req.method = "tools/call") :
    mcpParams (Evaluator.toolRequest req name) =
      .object [("name", .string name), ("arguments", extractArguments req.params)] := if_pos h

theorem mcpParams_resource {req : EvaluateRequest} {name : String}
    (h : req.method = "resources/read" ∨ req.method = "resources/subscribe") :
    mcpParams (Evaluator.toolRequest req name) = .object [("uri", .string name)] := by
  have htool : req.method ≠ "tools/call" := by rcases h with h | h <;> rw [h] <;> decide
  exact (if_neg htool).trans (if_pos h)

theorem mcpParams_prompt {req : EvaluateRequest} {name : String} (h : req.method = "prompts/get") :
    mcpParams (Evaluator.toolRequest req name) =
      if (extractArguments req.params).isNull || (extractArguments req.params).isEmptyObject then
        .object [("name", .string name)]
      else .object [("name", .string name), ("arguments", extractArguments req.params)] := by
  have htool : req.method ≠ "tools/call" := by rw [h]; decide
  have hres : ¬ (req.method = "resources/read" ∨ req.method = "resources/subscribe") := by rw [h]; decide
  refine (if_neg htool).trans ((if_neg hres).trans ?_)
  show (if req.method = "prompts/get" ∧ _ then _ else _) = _
  simp only [h, true_and]
  rfl

theorem get_promptArguments {params : Option Value} {name key : String} (hkey : key ≠ "name") :
    (if (extractArguments params).isNull || (extractArguments params).isEmptyObject then
        Value.object [("name", .string name)]
      else .object [("name", .string name), ("arguments", extractArguments params)]).get key =
      if key = "arguments" then
        (params.bind (Value.get "arguments")).filter fun v => !(v.isNull || v.isEmptyObject)
      else none := by
  unfold extractArguments
  cases params.bind (Value.get "arguments") with
  | none =>
    show (Value.object [("name", .string name)]).get key = _
    rw [get_single, if_neg hkey, Option.filter_none, ite_self]
  | some arguments =>
    rw [Option.getD_some]
    by_cases hempty : (arguments.isNull || arguments.isEmptyObject) = true
    · rw [if_pos hempty, get_single, if_neg hkey, Option.filter_some, hempty]
      simp
    · rw [if_neg hempty, get_named, if_neg hkey, Option.filter_some]
      simp [hempty]

/-- The template of each method, filled from the parts that Gate 4 has taken out. -/
theorem get_mcpParams {req : EvaluateRequest} {name : String}
    (h : extractResourceName req.method req.params = some name) (key : String) :
    (mcpParams (Evaluator.toolRequest req name)).get key = rebuiltMember req.method req.params key := by
  obtain ⟨member, hmember, hname⟩ := extractResourceName_eq_some h
  have hother : key ≠ member → rebuiltMember req.method req.params key =
      if key = "arguments" then
        if req.method = "tools/call" then some (extractArguments req.params)
        else if req.method = "prompts/get" then
          (req.params.bind (Value.get "arguments")).filter fun v => !(v.isNull || v.isEmptyObject)
        else none
      else none := by
    intro hne
    rw [rebuiltMember, hmember, if_neg fun heq => hne (Option.some.inj heq).symm]
    by_cases harg : key = "arguments"
    · subst harg
      rfl
    · rw [if_neg harg, if_neg harg]
  by_cases hkey : key = member
  · -- the name comes back under the key that it was found under
    subst hkey
    rw [rebuiltMember, if_pos hmember, hname]
    unfold resourceKey at hmember
    split at hmember
    · next htool =>
      cases hmember
      rw [mcpParams_tool htool, get_named, if_pos rfl]
    · next htool =>
      split at hmember
      · next hres =>
        cases hmember
        rw [mcpParams_resource hres, get_single, if_pos rfl]
      · split at hmember
        · next hprompt =>
          cases hmember
          rw [mcpParams_prompt hprompt]
          split
          · rw [get_single, if_pos rfl]
          · rw [get_named, if_pos rfl]
        · cases hmember
  · rw [hother hkey]
    unfold resourceKey at hmember
    split at hmember
    · next htool =>
      cases hmember
      rw [mcpParams_tool htool, get_named, if_neg hkey, if_pos htool]
    · next htool =>
      rw [if_neg htool]
      split at hmember
      · next hres =>
        cases hmember
        have hprompt : req.method ≠ "prompts/get" := by rcases hres with h | h <;> rw [h] <;> decide
        rw [mcpParams_resource hres, get_single, if_neg hkey, if_neg hprompt, ite_self]
      · split at hmember
        · next hprompt =>
          cases hmember
          rw [mcpParams_prompt hprompt, if_pos hprompt]
          exact get_promptArguments hkey
        · cases hmember

/-- What `to_mcp_request` makes of the call that Gate 4 stores for a request. -/
theorem toMcpRequest_toolRequest {req : EvaluateRequest} {name : String}
    (h : extractResourceName req.method req.params = some name) :
    (toMcpRequest (Evaluator.toolRequest req name)).2.1 = req.method ∧
      (req.id ≠ some .null → (toMcpRequest (Evaluator.toolRequest req name)).1 = req.id) ∧
      ∀ key, (toMcpRequest (Evaluator.toolRequest req name)).2.2.get key = rebuiltMember req.method req.params key := by
  refine ⟨rfl, fun hid => ?_, get_mcpParams h⟩
  unfold toMcpRequest Evaluator.toolRequest
  cases hcase : req.id with
  | none => rfl
  | some id =>
    cases id with
    | null => exact absurd hcase hid
    | _ => rfl

end Pipeline

section

variable [Glob] [Cedar] [F64.Fmt] [Sha256] [PipelineLib] [F64.Display]

/-- A request that goes to Gate 4, rebuilt from the task that stands for it, has the method, the identifier (a null one
apart) and exactly the parameters of the template of its method. -/
theorem approval_round_trip {ev : Evaluator} {env : EvalEnv} {store : TaskStore} {req : EvaluateRequest}
    {principalOverride : Option Principal}
    (h : Evaluator.decision (ev.evaluateWithPrincipal env store req principalOverride) = .pendingApproval) :
    ∃ id task, (ev.evaluateWithPrincipal env store req principalOverride).1.1.taskId = some id ∧
      (ev.evaluateWithPrincipal env store req principalOverride).2.get id = .ok task ∧
      (Pipeline.toMcpRequest task.originalRequest).2.1 = req.method ∧
      (req.id ≠ some .null → (Pipeline.toMcpRequest task.originalRequest).1 = req.id) ∧
      ∀ key, (Pipeline.toMcpRequest task.originalRequest).2.2.get key = rebuiltMember req.method req.params key := by
  obtain ⟨name, hname, id, task, hid, hget, hopen⟩ := Evaluator.evaluateWithPrincipal_opens h
  refine ⟨id, task, hid, hget, ?_⟩
  rw [hopen.originalRequest]
  exact Pipeline.toMcpRequest_toolRequest hname

end

section

attribute [local instance] Sample.glob Sample.cedar Sample.f64Fmt Sample.f64Display Sample.sha256 Sample.pipelineLib

namespace Sample

/-- A call with a parameter that the template does not have, and without arguments. -/
def pagedCall : EvaluateRequest := toolCall (some (.object [("name", .string "read"), ("cursor", .string "p2")]))

def evaluatedCall (req : EvaluateRequest) : (EvaluateResponse × EvalTrace) × TaskStore :=
  (guarded defaults).evaluateWithPrincipal evalEnv (.new {}) req none

end Sample

theorem approval_round_trip_sample :
    ∃ id task, (Sample.evaluatedCall Sample.readCall).2.get id = .ok task ∧
      (Pipeline.toMcpRequest task.originalRequest).1 = some (.number 1) ∧
      (Pipeline.toMcpRequest task.originalRequest).2.2.get "name" = some (.string "read") ∧
      (Pipeline.toMcpRequest task.originalRequest).2.2.get "arguments" = some .emptyObject := by
  have hpending : Evaluator.decision (Sample.evaluatedCall Sample.readCall) = .pendingApproval := by decide
  obtain ⟨id, task, -, hget, -, hid, hmember⟩ := approval_round_trip hpending
  have hnumber : Sample.readCall.id = some (.number 1) := rfl
  refine ⟨id, task, hget, hid ?_, hmember "name", hmember "arguments"⟩
  rw [hnumber]
  intro h
  cases h

/-- The parameter does not come back. -/
theorem parameter_lost :
    Evaluator.decision (Sample.evaluatedCall Sample.pagedCall) = .pendingApproval ∧
      ∃ id task, (Sample.evaluatedCall Sample.pagedCall).1.1.taskId = some id ∧
        (Sample.evaluatedCall Sample.pagedCall).2.get id = .ok task ∧
        ¬ KeepsCall Sample.pagedCall (Pipeline.toMcpRequest task.originalRequest) := by
  have hpending : Evaluator.decision (Sample.evaluatedCall Sample.pagedCall) = .pendingApproval := by decide
  obtain ⟨name, hname, id, task, hid, hget, hopen⟩ := Evaluator.evaluateWithPrincipal_opens hpending
  refine ⟨hpending, id, task, hid, hget, fun hkeeps => ?_⟩
  have hcursor := hkeeps.params "cursor" (by decide) (by decide)
  rw [hopen.originalRequest, (Pipeline.toMcpRequest_toolRequest hname).2.2] at hcursor
  cases hcursor

end

end ThoughtGate
