import ThoughtGate.Proxy.Source

/-!
# Lists and calls

Whether a resource is to be seen is decided twice: for lists by `filter_by_visibility`, for calls by Gate 1 of the
evaluator. Both hide what a source does not expose and what belongs to no configured source. Only Gate 1 looks at the
flag `enabled`, so a list of a disabled source shows items that every call is refused for. Of what is shown, the
annotation of a tool whose rule asks for an approval writes a new `execution` object over the old one.
-/

namespace ThoughtGate

section

variable [Glob]

/-- The number that `filter_by_visibility` returns. -/
def filteredCount (config : Config) (sourceId keyField : String) (items : List Value) : Nat :=
  match config.getSource sourceId with
  | some _ => items.length - (filterByVisibility config sourceId keyField items).length
  | none => items.length

theorem filteredCount_add (config : Config) (sourceId keyField : String) (items : List Value) :
    filteredCount config sourceId keyField items + (filterByVisibility config sourceId keyField items).length =
      items.length := by
  unfold filteredCount filterByVisibility
  cases config.getSource sourceId with
  | none => rfl
  | some source =>
    have hle := List.length_filter_le (itemVisible source.expose keyField) items
    dsimp only
    omega

theorem length_keepListed (config : Config) (sourceId : String) (upstreamSupportsTasks : Bool) (method : String)
    (items : List Value) :
    (keepListed config sourceId upstreamSupportsTasks method items).length =
      (filterByVisibility config sourceId (listKeyField method) items).length := by
  have hnames := congrArg List.length (keepListed_names config sourceId upstreamSupportsTasks method items)
  rwa [List.length_map, List.length_map] at hnames

/-! ### What the annotation leaves alone -/

omit [Glob] in
/-- What a tool says under `execution`, without `taskSupport`. -/
def executionRest (item : Value) : Value :=
  match item.get "execution" with
  | none => .object []
  | some (.object fields) => .object (Value.removeField "taskSupport" fields)
  | some v => v

omit [Glob] in
/-- The item is the same but for `execution.taskSupport`. -/
structure SameButTaskSupport (item shown : Value) : Prop where
  members : ∀ key, key ≠ "execution" → shown.get key = item.get key
  execution : executionRest shown = executionRest item

omit [Glob] in
/-- What may differ between an item of a list and what is shown of it. -/
def ShownAs (method : String) (item shown : Value) : Prop :=
  if method = "tools/list" then SameButTaskSupport item shown else shown = item

omit [Glob] in
theorem stripTaskSupport_same (fields : List (String × Value)) :
    SameButTaskSupport (.object fields) (.object (stripTaskSupport fields)) := by
  unfold stripTaskSupport
  cases hexec : (Value.object fields).get "execution" with
  | none => exact ⟨fun _ _ => rfl, rfl⟩
  | some v =>
    cases v with
    | object execution =>
      refine ⟨fun key hkey => Value.get_insertField_ne hkey _ fields, ?_⟩
      have htwice : Value.removeField "taskSupport" (Value.removeField "taskSupport" execution) =
          Value.removeField "taskSupport" execution := by
        simp only [Value.removeField, List.filter_filter, Bool.and_self]
      show executionRest (.object (Value.insertField "execution" _ fields)) = _
      simp only [executionRest, Value.get_insertField_self, hexec, htwice]
    | _ => exact ⟨fun _ _ => rfl, rfl⟩

/-- The annotation changes nothing else, unless it writes over members of `execution`. -/
theorem annotateTool_same_iff (config : Config) (sourceId : String) (upstreamSupportsTasks : Bool) {tool : Value}
    {name : String} (hname : (tool.get "name").bind Value.asStr = some name) :
    SameButTaskSupport tool (annotateTool config sourceId upstreamSupportsTasks tool) ↔
      ((config.governance.evaluate name sourceId).action = .approve ∨
        (config.governance.evaluate name sourceId).action = .policy → executionRest tool = .object []) := by
  cases tool with
  | object fields =>
    unfold annotateTool
    rw [hname]
    have hwritten : SameButTaskSupport (.object fields)
        (.object (Value.insertField "execution" (.object [("taskSupport", .string "optional")]) fields)) ↔
        executionRest (.object fields) = .object [] := by
      have hrest : executionRest (.object
          (Value.insertField "execution" (.object [("taskSupport", .string "optional")]) fields)) = .object [] := by
        simp only [executionRest, Value.get_insertField_self]
        rfl
      constructor
      · intro h
        rw [← h.execution, hrest]
      · intro h
        exact ⟨fun key hkey => Value.get_insertField_ne hkey _ fields, hrest.trans h.symm⟩
    have hkept : SameButTaskSupport (.object fields)
        (if upstreamSupportsTasks then .object fields else .object (stripTaskSupport fields)) := by
      split
      · exact ⟨fun _ _ => rfl, rfl⟩
      · exact stripTaskSupport_same fields
    cases hact : (config.governance.evaluate name sourceId).action with
    | approve => simpa [hact] using hwritten
    | policy => simpa [hact] using hwritten
    | forward => simpa [hact] using hkept
    | deny => simpa [hact] using hkept
  | _ => cases hname

/-! ### What is shown of a list -/

theorem mem_filterByVisibility_iff {config : Config} {sourceId keyField : String} {items : List Value} {item : Value} :
    item ∈ filterByVisibility config sourceId keyField items ↔
      item ∈ items ∧ ∃ source, config.getSource sourceId = some source ∧
        itemVisible source.expose keyField item = true := by
  constructor
  · intro h
    refine ⟨?_, mem_filterByVisibility h⟩
    obtain ⟨source, hsource, -⟩ := mem_filterByVisibility h
    rw [filterByVisibility, hsource] at h
    exact List.mem_of_mem_filter h
  · rintro ⟨hitem, source, hsource, hvisible⟩
    rw [filterByVisibility, hsource]
    exact List.mem_filter.mpr ⟨hitem, hvisible⟩

/-- The source is enabled, or shows nothing of the list. -/
def OpenFor (config : Config) (sourceId method : String) (items : List Value) : Prop :=
  ∀ source, config.getSource sourceId = some source →
    source.enabled = true ∨ ∀ item ∈ items, itemVisible source.expose (listKeyField method) item = false

/-- No visible tool whose rule asks for an approval says anything under `execution` but `taskSupport`. -/
def NothingOverwritten (config : Config) (sourceId method : String) (items : List Value) : Prop :=
  method = "tools/list" → ∀ source, config.getSource sourceId = some source →
    ∀ item ∈ items, itemVisible source.expose "name" item = true →
      ∀ name, (item.get "name").bind Value.asStr = some name →
        (config.governance.evaluate name sourceId).action = .approve ∨
          (config.governance.evaluate name sourceId).action = .policy → executionRest item = .object []

/-- The visible items are shown as they were but for the task support of tools, exactly if nothing is written over. -/
theorem shown_iff (config : Config) (sourceId : String) (upstreamSupportsTasks : Bool) (method : String)
    (items : List Value) :
    List.Forall₂ (ShownAs method) (filterByVisibility config sourceId (listKeyField method) items)
        (keepListed config sourceId upstreamSupportsTasks method items) ↔
      NothingOverwritten config sourceId method items := by
  by_cases hmethod : method = "tools/list"
  · subst hmethod
    have hkept : keepListed config sourceId upstreamSupportsTasks "tools/list" items =
        (filterByVisibility config sourceId "name" items).map (annotateTool config sourceId upstreamSupportsTasks) := rfl
    have hkey : listKeyField "tools/list" = "name" := rfl
    rw [hkept, hkey, List.forall₂_map_right_iff, List.forall₂_same]
    constructor
    · intro h _ source hsource item hitem hvisible name hname
      have hshown := h item (mem_filterByVisibility_iff.mpr ⟨hitem, source, hsource, hvisible⟩)
      exact (annotateTool_same_iff config sourceId upstreamSupportsTasks hname).mp hshown
    · intro h item hitem
      obtain ⟨hin, source, hsource, hvisible⟩ := mem_filterByVisibility_iff.mp hitem
      have hnamed : ∃ name, (item.get "name").bind Value.asStr = some name := by
        unfold itemVisible at hvisible
        split at hvisible
        · exact ⟨_, ‹_›⟩
        · cases hvisible
      obtain ⟨name, hname⟩ := hnamed
      exact (annotateTool_same_iff config sourceId upstreamSupportsTasks hname).mpr
        (h rfl source hsource item hin hvisible name hname)
  · have hkept : keepListed config sourceId upstreamSupportsTasks method items =
        filterByVisibility config sourceId (listKeyField method) items := if_neg hmethod
    rw [hkept, List.forall₂_same]
    refine iff_of_true (fun item _ => ?_) fun h => absurd h hmethod
    rw [ShownAs, if_neg hmethod]

theorem keepListed_eq_nil_iff {config : Config} {sourceId : String} {upstreamSupportsTasks : Bool} {method : String}
    {items : List Value} : keepListed config sourceId upstreamSupportsTasks method items = [] ↔
      filterByVisibility config sourceId (listKeyField method) items = [] := by
  rw [← List.length_eq_zero_iff, length_keepListed, List.length_eq_zero_iff]

/-- A disabled source is open for a list that shows nothing, and for no other. -/
theorem openFor_iff_of_disabled {config : Config} {sourceId method : String} {items : List Value} {source : Source}
    (hsource : config.getSource sourceId = some source) (hdisabled : source.enabled = false) :
    OpenFor config sourceId method items ↔ filterByVisibility config sourceId (listKeyField method) items = [] := by
  simp only [filterByVisibility, hsource, List.filter_eq_nil_iff]
  constructor
  · intro h item hitem
    rcases h source hsource with htrue | hhidden
    · rw [hdisabled] at htrue
      cases htrue
    · exact Bool.eq_false_iff.mp (hhidden item hitem)
  · intro h source' hsource'
    rw [hsource] at hsource'
    cases hsource'
    exact Or.inr fun item hitem => Bool.eq_false_iff.mpr (h item hitem)

end

/-! ### Gate 1 on the items of a list -/

/-- The method by which the agent uses an item of a list. -/
def callMethod (method : String) : String :=
  if method = "tools/list" then "tools/call" else if method = "resources/list" then "resources/read" else "prompts/get"

/-- A request of the agent that uses the item of this name of the source. -/
structure EvaluateRequest.Uses (req : EvaluateRequest) (sourceId method name : String) : Prop where
  request : req.messageType = .request
  direction : req.direction = .agentToServer
  source : req.serverId = sourceId
  method : req.method = callMethod method
  name : extractResourceName req.method req.params = some name

theorem methodRequiresGates_callMethod (method : String) : methodRequiresGates (callMethod method) = true := by
  unfold callMethod
  split
  · rfl
  · split <;> rfl

section

variable [Glob] [Cedar] [F64.Fmt] [Sha256] [PipelineLib] [F64.Display]

/-- The item has a name, and the call of that name passes Gate 1. -/
def callPasses (ev : Evaluator) (env : EvalEnv) (store : TaskStore) (principal : Option Principal)
    (calls : String → EvaluateRequest) (method : String) (item : Value) : Bool :=
  match (item.get (listKeyField method)).bind Value.asStr with
  | some name => (ev.evaluateWithPrincipal env store (calls name) principal).1.2.gate1 == some "pass"
  | none => false

/-- Gate 1 goes by the source and the name alone. -/
theorem gate1_pass_iff (ev : Evaluator) (env : EvalEnv) (store : TaskStore) (principal : Option Principal)
    {req : EvaluateRequest} {sourceId method name : String} (hreq : req.Uses sourceId method name) :
    ((ev.evaluateWithPrincipal env store req principal).1.2.gate1 == some "pass") =
      (Evaluator.hidden ev.config sourceId name).isNone := by
  have hgated : methodRequiresGates req.method = true := by
    rw [hreq.method]
    exact methodRequiresGates_callMethod method
  have htrace := ev.evaluate_trace env store principal hreq.request hreq.direction hgated hreq.name
  rw [hreq.source] at htrace
  rw [htrace.1]
  cases Evaluator.hidden ev.config sourceId name <;> rfl

/-- Among the items of a configured source, those that can be called are the visible ones of an enabled source. -/
theorem callPasses_eq (ev : Evaluator) (env : EvalEnv) (store : TaskStore) (principal : Option Principal)
    {calls : String → EvaluateRequest} {sourceId method : String}
    (hcalls : ∀ name, (calls name).Uses sourceId method name) (item : Value) :
    callPasses ev env store principal calls method item =
      match ev.config.getSource sourceId with
      | some source => source.enabled && itemVisible source.expose (listKeyField method) item
      | none => false := by
  unfold callPasses itemVisible
  cases (item.get (listKeyField method)).bind Value.asStr with
  | none => cases ev.config.getSource sourceId <;> simp
  | some name =>
    dsimp only
    rw [gate1_pass_iff ev env store principal (hcalls name)]
    unfold Evaluator.hidden
    cases ev.config.getSource sourceId with
    | none => rfl
    | some source =>
      cases henabled : source.enabled <;> cases hvisible : source.expose.isVisible name <;> simp [henabled, hvisible]

/-- The list shows the items that can be called, in their order and as they were but for the task support of tools,
and counts the others. -/
structure ListAgrees (ev : Evaluator) (env : EvalEnv) (store : TaskStore) (principal : Option Principal)
    (calls : String → EvaluateRequest) (sourceId : String) (upstreamSupportsTasks : Bool) (method : String)
    (items : List Value) : Prop where
  shown : List.Forall₂ (ShownAs method) (items.filter (callPasses ev env store principal calls method))
    (keepListed ev.config sourceId upstreamSupportsTasks method items)
  removed : filteredCount ev.config sourceId (listKeyField method) items +
    (keepListed ev.config sourceId upstreamSupportsTasks method items).length = items.length

/-- The calls that pass are those of the items that are shown, unless the source is disabled. -/
theorem filter_callPasses (ev : Evaluator) (env : EvalEnv) (store : TaskStore) (principal : Option Principal)
    {calls : String → EvaluateRequest} {sourceId method : String}
    (hcalls : ∀ name, (calls name).Uses sourceId method name)
    (henabled : ∀ source, ev.config.getSource sourceId = some source → source.enabled = true) (items : List Value) :
    items.filter (callPasses ev env store principal calls method) =
      filterByVisibility ev.config sourceId (listKeyField method) items := by
  have hpasses := callPasses_eq ev env store principal hcalls
  cases hsource : ev.config.getSource sourceId with
  | none =>
    simp only [filterByVisibility, hsource] at hpasses ⊢
    exact List.filter_eq_nil_iff.mpr fun item _ => by simp [hpasses item]
  | some source =>
    simp only [filterByVisibility, hsource] at hpasses ⊢
    exact List.filter_congr fun item _ => by rw [hpasses item, henabled source hsource, Bool.true_and]

theorem filter_callPasses_of_disabled (ev : Evaluator) (env : EvalEnv) (store : TaskStore)
    (principal : Option Principal) {calls : String → EvaluateRequest} {sourceId method : String}
    (hcalls : ∀ name, (calls name).Uses sourceId method name) {source : Source}
    (hsource : ev.config.getSource sourceId = some source) (hdisabled : source.enabled = false) (items : List Value) :
    items.filter (callPasses ev env store principal calls method) = [] := by
  have hpasses := callPasses_eq ev env store principal hcalls
  simp only [hsource] at hpasses
  exact List.filter_eq_nil_iff.mpr fun item _ => by simp [hpasses item, hdisabled]

/-- A list agrees with the calls exactly if its source is not disabled while it shows something, and the annotation
writes over nothing. -/
theorem lists_agree_iff (ev : Evaluator) (env : EvalEnv) (store : TaskStore) (principal : Option Principal)
    {calls : String → EvaluateRequest} {sourceId method : String}
    (hcalls : ∀ name, (calls name).Uses sourceId method name) (upstreamSupportsTasks : Bool) (items : List Value) :
    ListAgrees ev env store principal calls sourceId upstreamSupportsTasks method items ↔
      OpenFor ev.config sourceId method items ∧ NothingOverwritten ev.config sourceId method items := by
  have hcount := filteredCount_add ev.config sourceId (listKeyField method) items
  rw [← length_keepListed ev.config sourceId upstreamSupportsTasks method items] at hcount
  have hagrees : ListAgrees ev env store principal calls sourceId upstreamSupportsTasks method items ↔
      List.Forall₂ (ShownAs method) (items.filter (callPasses ev env store principal calls method))
        (keepListed ev.config sourceId upstreamSupportsTasks method items) :=
    ⟨ListAgrees.shown, fun h => ⟨h, hcount⟩⟩
  rw [hagrees, ← shown_iff ev.config sourceId upstreamSupportsTasks]
  by_cases henabled : ∀ source, ev.config.getSource sourceId = some source → source.enabled = true
  · have hopen : OpenFor ev.config sourceId method items := fun source hsource => Or.inl (henabled source hsource)
    rw [filter_callPasses ev env store principal hcalls henabled]
    exact (and_iff_right hopen).symm
  · -- no call passes, so that the lists agree only if nothing is shown
    push Not at henabled
    obtain ⟨source, hsource, hdisabled⟩ := henabled
    rw [filter_callPasses_of_disabled ev env store principal hcalls hsource (Bool.eq_false_iff.mpr hdisabled),
      openFor_iff_of_disabled hsource (Bool.eq_false_iff.mpr hdisabled), List.forall₂_nil_left_iff,
      keepListed_eq_nil_iff]
    constructor
    · intro hshown
      rw [keepListed_eq_nil_iff.mpr hshown, hshown]
      exact ⟨rfl, .nil⟩
    · exact fun h => h.1

end

section

attribute [local instance] Sample.glob Sample.cedar Sample.f64Fmt Sample.f64Display Sample.sha256 Sample.pipelineLib

namespace Sample

/-- The call of a tool of the source `files` by its name. -/
def useTool (name : String) : EvaluateRequest := toolCall (some (.object [("name", .string name)]))

theorem useTool_uses (name : String) : (useTool name).Uses "files" "tools/list" name := ⟨rfl, rfl, rfl, rfl, rfl⟩

/-- `read` may be seen and is governed by this action; `write` may not be seen. -/
def listing (enabled : Bool) (action : Action) : Evaluator :=
  evaluator [{ id := "files", exposed := some (.allowlist ["read"] []), enabled }] .deny
    [{ pattern := "read", action }]

/-- The server supports dry runs of `read`. -/
def offered : List Value :=
  [.object [("name", .string "read"), ("execution", .object [("dryRun", .bool true)])],
    .object [("name", .string "write")]]

end Sample

theorem lists_agree_iff_sample :
    ListAgrees (Sample.listing true .forward) Sample.evalEnv (.new {}) none Sample.useTool "files" false "tools/list"
      Sample.offered := by
  refine (lists_agree_iff _ Sample.evalEnv (.new {}) none Sample.useTool_uses false Sample.offered).mpr ⟨?_, ?_⟩
  · intro source hsource
    cases hsource
    exact Or.inl rfl
  · intro _ source hsource item hitem hvisible name hname haction
    cases hsource
    rcases List.mem_cons.mp hitem with rfl | hrest
    · cases hname
      have hforward : ((Sample.listing true .forward).config.governance.evaluate "read" "files").action = .forward := by
        decide
      rw [hforward] at haction
      rcases haction with h | h <;> cases h
    · cases List.mem_singleton.mp hrest
      cases hvisible

/-- How much a tool says under `execution`. -/
def Sample.executionSize (item : Value) : Option Nat := (executionRest item).asObject.map List.length

/-- A disabled source lists `read`, whose calls Gate 1 refuses; and of a tool that needs an approval the annotation
removes what the server says about dry runs. -/
theorem list_disagrees :
    ((keepListed (Sample.listing false .forward).config "files" false "tools/list" Sample.offered).map
        (fun item => (item.get "name").bind Value.asStr) = [some "read"] ∧
      Sample.offered.filter
        (callPasses (Sample.listing false .forward) Sample.evalEnv (.new {}) none Sample.useTool "tools/list") = [] ∧
      ¬ ListAgrees (Sample.listing false .forward) Sample.evalEnv (.new {}) none Sample.useTool "files" false "tools/list"
        Sample.offered) ∧
    ¬ ListAgrees (Sample.listing true .approve) Sample.evalEnv (.new {}) none Sample.useTool "files" false "tools/list"
      Sample.offered := by
  have hclosed : (keepListed (Sample.listing false .forward).config "files" false "tools/list" Sample.offered).map
      (fun item => (item.get "name").bind Value.asStr) = [some "read"] := by
    decide
  have hnone : (Sample.offered.filter (callPasses (Sample.listing false .forward) Sample.evalEnv (.new {}) none
      Sample.useTool "tools/list")).length = 0 := by
    decide
  refine ⟨⟨hclosed, List.length_eq_zero_iff.mp hnone, fun h => ?_⟩, fun h => ?_⟩
  · have hlength := h.shown.length_eq
    rw [hnone] at hlength
    have hshown := congrArg List.length hclosed
    rw [List.length_map, ← hlength] at hshown
    cases hshown
  · have hsizes : List.Forall₂ (fun item shown => Sample.executionSize item = Sample.executionSize shown) _ _ :=
      h.shown.imp fun item shown hshown => congrArg (fun v => v.asObject.map List.length) hshown.execution.symm
    have heq := List.forall₂_map_left_iff.mpr (List.forall₂_map_right_iff.mpr hsizes)
    rw [List.forall₂_eq_eq_eq] at heq
    revert heq
    decide

end

end ThoughtGate
