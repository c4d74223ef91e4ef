import ThoughtGate.Config.Schema

/-!
# Filtering of lists

`governance/list_filtering.rs`: what an agent gets to see of the tools, resources and prompts that a server lists. Both
transports go through these functions. The number of removed items that each returns is a definition of its own
(`filteredCount`), which nothing here reads.
-/

namespace ThoughtGate

variable [Glob]

/-- An item is shown if its name is a text that the source exposes. -/
def itemVisible (expose : ExposeConfig) (keyField : String) (item : Value) : Bool :=
  match (item.get keyField).bind Value.asStr with
  | some name => expose.isVisible name
  | none => false

/-- `filter_by_visibility`: a source that is not configured shows nothing. -/
def filterByVisibility (config : Config) (sourceId keyField : String) (items : List Value) : List Value :=
  match config.getSource sourceId with
  | some source => items.filter (itemVisible source.expose keyField)
  | none => []

/-- `filter_resources_by_visibility`. -/
def filterResourcesByVisibility (config : Config) (sourceId : String) (resources : List Value) : List Value :=
  filterByVisibility config sourceId "uri" resources

/-- `filter_prompts_by_visibility`. -/
def filterPromptsByVisibility (config : Config) (sourceId : String) (prompts : List Value) : List Value :=
  filterByVisibility config sourceId "name" prompts

omit [Glob] in
/-- A tool without the announcement of task support by its server. -/
def stripTaskSupport (fields : List (String × Value)) : List (String × Value) :=
  match ((Value.object fields).get "execution").bind Value.asObject with
  | some execution => Value.insertField "execution" (.object (Value.removeField "taskSupport" execution)) fields
  | none => fields

/-- The annotation of one tool with `execution.taskSupport`. -/
def annotateTool (config : Config) (sourceId : String) (upstreamSupportsTasks : Bool) (tool : Value) : Value :=
  match (tool.get "name").bind Value.asStr, tool with
  | some name, .object fields =>
    match (config.governance.evaluate name sourceId).action with
    | .approve | .policy =>
      .object (Value.insertField "execution" (.object [("taskSupport", .string "optional")]) fields)
    | .forward | .deny => if upstreamSupportsTasks then tool else .object (stripTaskSupport fields)
  | _, tool => tool

/-- `filter_and_annotate_tools`. -/
def filterAndAnnotateTools (config : Config) (sourceId : String) (upstreamSupportsTasks : Bool) (tools : List Value) :
    List Value :=
  (filterByVisibility config sourceId "name" tools).map (annotateTool config sourceId upstreamSupportsTasks)

omit [Glob] in
/-- `is_list_method`. -/
def isListMethod (method : String) : Bool :=
  method == "tools/list" || method == "resources/list" || method == "prompts/list"

/-- The list in the result of a list method, filtered: `none` if there is no list where the method has it. -/
def filterListResult (config : Config) (sourceId : String) (upstreamSupportsTasks : Bool) (method : String)
    (result : Value) : Option Value :=
  let filtered (member : String) (keep : List Value → List Value) : Option Value :=
    match result with
    | .object fields =>
      (((Value.object fields).get member).bind Value.asArray).map fun items =>
        .object (Value.insertField member (.array (keep items)) fields)
    | _ => none
  if method = "tools/list" then filtered "tools" (filterAndAnnotateTools config sourceId upstreamSupportsTasks)
  else if method = "resources/list" then filtered "resources" (filterResourcesByVisibility config sourceId)
  else if method = "prompts/list" then filtered "prompts" (filterPromptsByVisibility config sourceId)
  else none

/-- The items that a list result shows. -/
def listedItems (method : String) (result : Value) : List Value :=
  let member := if method = "tools/list" then "tools" else if method = "resources/list" then "resources" else "prompts"
  ((result.get member).bind Value.asArray).getD []

/-- The member that names an item of the list. -/
def listKeyField (method : String) : String := if method = "resources/list" then "uri" else "name"

/-! ### What is left -/

theorem mem_filterByVisibility {config : Config} {sourceId keyField : String} {items : List Value} {item : Value}
    (h : item ∈ filterByVisibility config sourceId keyField items) :
    ∃ source, config.getSource sourceId = some source ∧ itemVisible source.expose keyField item = true := by
  unfold filterByVisibility at h
  cases hsource : config.getSource sourceId with
  | none =>
    rw [hsource] at h
    cases h
  | some source =>
    rw [hsource] at h
    exact ⟨source, rfl, (List.mem_filter.mp h).2⟩

/-- The annotation does not touch the name. -/
theorem annotateTool_name (config : Config) (sourceId : String) (upstreamSupportsTasks : Bool) (tool : Value) :
    (annotateTool config sourceId upstreamSupportsTasks tool).get "name" = tool.get "name" := by
  unfold annotateTool
  split
  · next name fields hname =>
    have hne : "name" ≠ "execution" := by decide
    split
    · exact Value.get_insertField_ne hne _ fields
    · exact Value.get_insertField_ne hne _ fields
    · split
      · rfl
      · unfold stripTaskSupport
        split
        · exact Value.get_insertField_ne hne _ fields
        · rfl
    · split
      · rfl
      · unfold stripTaskSupport
        split
        · exact Value.get_insertField_ne hne _ fields
        · rfl
  · rfl

/-! ### The three lists as one -/

omit [Glob] in
theorem isListMethod_cases {method : String} (h : isListMethod method = true) :
    (method = "tools/list" ∨ method = "resources/list") ∨ method = "prompts/list" := by
  simpa only [isListMethod, Bool.or_eq_true, beq_iff_eq] using h

omit [Glob] in
/-- The member that holds the list. -/
def listMember (method : String) : String :=
  if method = "tools/list" then "tools" else if method = "resources/list" then "resources" else "prompts"

/-- What is kept of the items of a list. -/
def keepListed (config : Config) (sourceId : String) (upstreamSupportsTasks : Bool) (method : String)
    (items : List Value) : List Value :=
  if method = "tools/list" then filterAndAnnotateTools config sourceId upstreamSupportsTasks items
  else filterByVisibility config sourceId (listKeyField method) items

/-- The branches of the filter differ in the member and in what is kept of it. -/
theorem filterListResult_eq (config : Config) (sourceId : String) (upstreamSupportsTasks : Bool) {method : String}
    (hlist : isListMethod method = true) (fields : List (String × Value)) :
    filterListResult config sourceId upstreamSupportsTasks method (.object fields) =
      (((Value.object fields).get (listMember method)).bind Value.asArray).map fun items =>
        .object (Value.insertField (listMember method)
          (.array (keepListed config sourceId upstreamSupportsTasks method items)) fields) := by
  rcases isListMethod_cases hlist with (rfl | rfl) | rfl <;> rfl

omit [Glob] in
theorem listedItems_eq (method : String) (result : Value) :
    listedItems method result = ((result.get (listMember method)).bind Value.asArray).getD [] := rfl

theorem filterListResult_some {config : Config} {sourceId : String} {upstreamSupportsTasks : Bool} {method : String}
    {result filtered : Value} (h : filterListResult config sourceId upstreamSupportsTasks method result = some filtered) :
    isListMethod method = true ∧ ∃ fields, result = .object fields ∧
      filtered = .object (Value.insertField (listMember method)
        (.array (keepListed config sourceId upstreamSupportsTasks method (listedItems method result))) fields) := by
  have hlist : isListMethod method = true := by
    by_contra hnot
    simp only [isListMethod, Bool.or_eq_true, beq_iff_eq, not_or] at hnot
    obtain ⟨⟨htools, hresources⟩, hprompts⟩ := hnot
    simp [filterListResult, htools, hresources, hprompts] at h
  refine ⟨hlist, ?_⟩
  cases result with
  | object fields =>
    rw [filterListResult_eq _ _ _ hlist] at h
    obtain ⟨items, hitems, rfl⟩ := Option.map_eq_some_iff.mp h
    have hlisted : listedItems method (.object fields) = items := by
      rw [listedItems_eq, hitems]
      rfl
    exact ⟨fields, rfl, by rw [hlisted]⟩
  | _ => rcases isListMethod_cases hlist with (rfl | rfl) | rfl <;> cases h

omit [Glob] in
theorem listedItems_insert_self (method : String) (items : List Value) (fields : List (String × Value)) :
    listedItems method (.object (Value.insertField (listMember method) (.array items) fields)) = items := by
  rw [listedItems_eq, Value.get_insertField_self]
  rfl

omit [Glob] in
theorem listedItems_insert_ne {method : String} {key : String} (hne : listMember method ≠ key) (v : Value)
    (fields : List (String × Value)) :
    listedItems method (.object (Value.insertField key v fields)) = listedItems method (.object fields) := by
  rw [listedItems_eq, listedItems_eq, Value.get_insertField_ne hne]

omit [Glob] in
theorem listMember_injective {method method' : String} (h : isListMethod method = true)
    (h' : isListMethod method' = true) (heq : listMember method = listMember method') : method = method' := by
  rcases isListMethod_cases h with (rfl | rfl) | rfl <;> rcases isListMethod_cases h' with (rfl | rfl) | rfl <;>
    first | rfl | exact absurd heq (by decide)

/-- The annotation of the tools does not touch their names. -/
theorem keepListed_names (config : Config) (sourceId : String) (upstreamSupportsTasks : Bool) (method : String)
    (items : List Value) :
    (keepListed config sourceId upstreamSupportsTasks method items).map (·.get (listKeyField method)) =
      (filterByVisibility config sourceId (listKeyField method) items).map (·.get (listKeyField method)) := by
  unfold keepListed
  split
  · rename_i hmethod
    have hkey : listKeyField method = "name" := by rw [hmethod]; rfl
    simp only [hkey, filterAndAnnotateTools, List.map_map, Function.comp_def, annotateTool_name]
  · rfl

theorem mem_keepListed {config : Config} {sourceId : String} {upstreamSupportsTasks : Bool} {method : String}
    {items : List Value} {item : Value}
    (h : item ∈ keepListed config sourceId upstreamSupportsTasks method items) :
    ∃ source, config.getSource sourceId = some source ∧
      itemVisible source.expose (listKeyField method) item = true := by
  -- an item counts as visible by its name alone
  have hname : item.get (listKeyField method) ∈
      (filterByVisibility config sourceId (listKeyField method) items).map (·.get (listKeyField method)) := by
    rw [← keepListed_names config sourceId upstreamSupportsTasks]
    exact List.mem_map_of_mem h
  obtain ⟨shown, hshown, heq⟩ := List.mem_map.mp hname
  obtain ⟨source, hsource, hvisible⟩ := mem_filterByVisibility hshown
  refine ⟨source, hsource, ?_⟩
  unfold itemVisible at hvisible ⊢
  rwa [← heq]

/-- Every item that a filtered list shows is exposed by the source. -/
theorem filterListResult_visible {config : Config} {sourceId : String} {upstreamSupportsTasks : Bool} {method : String}
    {result filtered : Value} (h : filterListResult config sourceId upstreamSupportsTasks method result = some filtered)
    {item : Value} (hitem : item ∈ listedItems method filtered) :
    ∃ source, config.getSource sourceId = some source ∧
      itemVisible source.expose (listKeyField method) item = true := by
  obtain ⟨-, fields, -, rfl⟩ := filterListResult_some h
  rw [listedItems_insert_self] at hitem
  exact mem_keepListed hitem

/-- Filtering one list leaves the others alone. -/
theorem filterListResult_other {config : Config} {sourceId : String} {upstreamSupportsTasks : Bool}
    {method other : String} {result filtered : Value}
    (h : filterListResult config sourceId upstreamSupportsTasks method result = some filtered)
    (hother : isListMethod other = true) (hne : other ≠ method) :
    listedItems other filtered = listedItems other result := by
  obtain ⟨hlist, fields, rfl, rfl⟩ := filterListResult_some h
  exact listedItems_insert_ne (fun heq => hne (listMember_injective hother hlist heq)) _ fields

/-- What is not filtered shows no list. -/
theorem filterListResult_none {config : Config} {sourceId : String} {upstreamSupportsTasks : Bool} {method : String}
    (hlist : isListMethod method = true) {result : Value}
    (h : filterListResult config sourceId upstreamSupportsTasks method result = none) :
    listedItems method result = [] := by
  cases result with
  | object fields =>
    rw [filterListResult_eq _ _ _ hlist] at h
    rw [listedItems_eq, Option.map_eq_none_iff.mp h]
    rfl
  | _ => rfl

end ThoughtGate
