import ThoughtGate.Wrap.Entries

/-!
# The sources of a server list

`parse_servers` of the adapters: the config's own entries, the entries of a project's file that override them by id
(Claude Code's `.mcp.json`, Cursor's `.cursor/mcp.json`), and the expansion of variables (`wrap/config_adapter/env.rs`).
Also what says that a config is rewritten already (`detect_double_wrap`).
-/

namespace ThoughtGate.Wrap

/-! ### Variables -/

/-- `str::split_once(":-")`. -/
def splitDefault : List Char → Option (List Char × List Char)
  | ':' :: '-' :: rest => some ([], rest)
  | c :: rest => (splitDefault rest).map fun parts => (c :: parts.1, parts.2)
  | [] => none

/-- `expand_var_with_default`. -/
def expandVarWithDefault (setting : Setting) (spec : List Char) : Except ConfigError (List Char) :=
  match splitDefault spec with
  | some (name, default) =>
    match setting.var (String.ofList name) with
    | some value => if value.isEmpty then .ok default else .ok value.toList
    | none => .ok default
  | none =>
    match setting.var (String.ofList spec) with
    | some value => .ok value.toList
    | none => .error (.undefinedEnvVar (String.ofList spec))

/-- What stands between the braces, expanded; with `require_env_prefix` a name without `env:` stays as it is. -/
def expandBraces (setting : Setting) (requireEnvPrefix : Bool) (content : List Char) : Except ConfigError (List Char) :=
  match requireEnvPrefix, content with
  | true, 'e' :: 'n' :: 'v' :: ':' :: spec => expandVarWithDefault setting spec
  | true, content => .ok ('$' :: '{' :: content ++ ['}'])
  | false, content => expandVarWithDefault setting content

/-- The loop of `expand_vars`, outside of braces or with what has been read since the last `${`. -/
def expandFrom (setting : Setting) (requireEnvPrefix : Bool) :
    Option (List Char) → List Char → Except ConfigError (List Char)
  | none, [] => .ok []
  | none, '$' :: '{' :: rest => expandFrom setting requireEnvPrefix (some []) rest
  | none, c :: rest => (expandFrom setting requireEnvPrefix none rest).map (c :: ·)
  | some content, [] => .ok ('$' :: '{' :: content)
  | some content, '}' :: rest =>
    match expandBraces setting requireEnvPrefix content with
    | .error e => .error e
    | .ok value => (expandFrom setting requireEnvPrefix none rest).map (value ++ ·)
  | some content, c :: rest => expandFrom setting requireEnvPrefix (some (content ++ [c])) rest

/-- `expand_vars`. -/
def expandVars (setting : Setting) (requireEnvPrefix : Bool) (input : String) : Except ConfigError String :=
  (expandFrom setting requireEnvPrefix none input.toList).map String.ofList

/-- `expand_dollar_brace`. -/
def expandDollarBrace (setting : Setting) : String → Except ConfigError String := expandVars setting false

/-- `expand_env_colon`. -/
def expandEnvColon (setting : Setting) : String → Except ConfigError String := expandVars setting true

/-- Each item of a list, up to the first error. -/
def expandAll {α : Type} (f : α → Except ConfigError α) : List α → Except ConfigError (List α)
  | [] => .ok []
  | x :: xs =>
    match f x with
    | .error e => .error e
    | .ok y => (expandAll f xs).map (y :: ·)

/-- `expand_server_entry_env`. -/
def expandServerEntryEnv (expander : String → Except ConfigError String) (e : McpServerEntry) :
    Except ConfigError McpServerEntry :=
  match expander e.command with
  | .error error => .error error
  | .ok command =>
    match expandAll expander e.args with
    | .error error => .error error
    | .ok args => .ok { e with command := command, args := args }

/-! ### The shim in a config -/

/-- `Path::file_name`. -/
def fileName (path : String) : Option String :=
  match ((path.toList.splitOn '/').filter fun part => !(part == [] || part == ['.'])).getLast? with
  | none => none
  | some part => if part = ['.', '.'] then none else some (String.ofList part)

/-- The command is the shim, or is called `thoughtgate`. -/
def isShim (setting : Setting) (command : String) : Bool :=
  command == setting.shimBinary || fileName command == some "thoughtgate"

/-- The entry's command is the shim. -/
def commandIsShim (setting : Setting) (server : Value) : Bool :=
  (((server.get "command").bind Value.asStr).map (isShim setting)).getD false

/-- The path in the entry's command object is the shim. -/
def pathIsShim (setting : Setting) (server : Value) : Bool :=
  ((((server.get "command").bind (·.get "path")).bind Value.asStr).map (isShim setting)).getD false

/-- `detect_double_wrap`. -/
def detectDoubleWrap (setting : Setting) (key : String) (config : Value) : Bool :=
  match (config.get key).bind Value.asObject with
  | none => false
  | some members => members.any fun member => commandIsShim setting member.2 || pathIsShim setting member.2

/-- The object of servers of a project in Claude Code's config. -/
def projectServers (config : Value) (project : String) : Option (List (String × Value)) :=
  (((config.get "projects").bind (·.get project)).bind (·.get "mcpServers")).bind Value.asObject

/-- `detect_project_double_wrap`, which reads commands that are strings only. -/
def detectProjectDoubleWrap (setting : Setting) (project : String) (config : Value) : Bool :=
  match projectServers config project with
  | none => false
  | some members => members.any fun member => commandIsShim setting member.2

/-! ### The config's own entries -/

/-- The entries under a key of the config. -/
def parseKey (shape : Shape) (key missing : String) (config : Value) : Except ConfigError (List McpServerEntry) :=
  match (config.get key).bind Value.asObject with
  | none => .error (.parse missing)
  | some members => shape.parse members

/-- `parse_mcp_servers_key`. -/
def parseMcpServersKey (config : Value) (key : String) : Except ConfigError (List McpServerEntry) :=
  parseKey mcpServersShape key ("missing or invalid `" ++ key ++ "` key in config") config

/-- `parse_project_servers`. -/
def parseProjectServers (config : Value) (project : String) : Except ConfigError (List McpServerEntry) :=
  match projectServers config project with
  | none => .ok []
  | some members => projectShape.parse members

/-- The items of a list in the settings of a project. -/
def settingItems (settings : Value) (key : String) : List Value := ((settings.get key).bind Value.asArray).getD []

/-- The id is among the items. -/
def names (items : List Value) (id : String) : Bool := items.any fun item => item.asStr == some id

/-- `is_mcp_json_server_enabled`. -/
def isMcpJsonServerEnabled (config : Value) (project id : String) : Bool :=
  match (config.get "projects").bind (·.get project) with
  | none => true
  | some settings =>
    if names (settingItems settings "disabledMcpjsonServers") id then false
    else if (settingItems settings "enabledMcpjsonServers").isEmpty then true
    else names (settingItems settings "enabledMcpjsonServers") id

/-- How the entries of an agent's config look. -/
def AgentType.shape : AgentType → Shape
  | .claudeCode => projectShape
  | .vsCode => vsCodeShape
  | .zed => zedShape
  | .claudeDesktop | .cursor | .windsurf | .custom => mcpServersShape

/-- The key under which an agent's config has its servers. -/
def AgentType.key : AgentType → String
  | .vsCode => "servers"
  | .zed => "context_servers"
  | .claudeDesktop | .claudeCode | .cursor | .windsurf | .custom => "mcpServers"

/-- The object of servers in an agent's config. -/
def serversAt (agent : AgentType) (setting : Setting) (config : Value) : Option (List (String × Value)) :=
  match agent with
  | .claudeCode => setting.cwd.bind (projectServers config)
  | agent => (config.get agent.key).bind Value.asObject

/-- The entries of the config itself. -/
def ownEntries (agent : AgentType) (setting : Setting) (config : Value) : Except ConfigError (List McpServerEntry) :=
  match agent with
  | .claudeCode =>
    match setting.cwd with
    | none => .ok []
    | some dir => parseProjectServers config dir
  | .vsCode => parseKey vsCodeShape "servers" "missing or invalid `servers` key in VS Code config" config
  | .zed => parseKey zedShape "context_servers" "missing or invalid `context_servers` key in Zed config" config
  | .claudeDesktop | .cursor | .windsurf | .custom => parseMcpServersKey config "mcpServers"

/-! ### Overriding -/

/-- The entry with this id is replaced, or the new one comes last. -/
def override (e : McpServerEntry) : List McpServerEntry → List McpServerEntry
  | [] => [e]
  | existing :: entries => if existing.id = e.id then e :: entries else existing :: override e entries

/-- The loop over the entries that override. -/
def merge (entries : List McpServerEntry) : List McpServerEntry → List McpServerEntry
  | [] => entries
  | e :: overrides => merge (override e entries) overrides

/-- `PathBuf::join`. -/
def join (dir name : String) : String := if dir.toList.getLast? = some '/' then dir ++ name else dir ++ "/" ++ name

section

variable [ConfigText]

/-- The value that a text is read as. -/
def Text.read : Text → Except ConfigError AgentConfig
  | .found bytes => ConfigText.parse bytes
  | .printed config => .ok config

/-- `read_config`. -/
def readConfig (files : Files Path Text) (path : Path) : Except ConfigError AgentConfig :=
  match files path with
  | none => .error (.notFound path)
  | some text => text.read

/-- The entries of another file, if it can be read and parsed. -/
def fileEntries (files : Files Path Text) (path : Path) : List McpServerEntry :=
  match readConfig files path with
  | .error _ => []
  | .ok config =>
    match parseMcpServersKey config.1 "mcpServers" with
    | .error _ => []
    | .ok entries => entries

/-- Claude Code's file of servers in a project. -/
def mcpJson (dir : String) : Path := .file (join dir ".mcp.json")

/-- Cursor's file of servers in a project. -/
def cursorProject (dir : String) : Path := .file (join dir ".cursor/mcp.json")

/-- The entries of the project's file, which override the config's own. -/
def projectEntries (agent : AgentType) (setting : Setting) (files : Files Path Text) (config : Value) :
    List McpServerEntry :=
  match agent, setting.cwd with
  | .claudeCode, some dir => (fileEntries files (mcpJson dir)).filter fun e => isMcpJsonServerEnabled config dir e.id
  | .cursor, some dir => fileEntries files (cursorProject dir)
  | _, _ => []

/-- The entries of all sources, before variables are expanded. -/
def listServers (agent : AgentType) (setting : Setting) (files : Files Path Text) (config : Value) :
    Except ConfigError (List McpServerEntry) :=
  (ownEntries agent setting config).map fun entries => merge entries (projectEntries agent setting files config)

/-- `parse_servers` from the config on. -/
def serversFrom (agent : AgentType) (setting : Setting) (files : Files Path Text) (config : Value) :
    Except ConfigError (List McpServerEntry) :=
  match listServers agent setting files config with
  | .error e => .error e
  | .ok entries =>
    match agent with
    | .claudeCode =>
      match expandAll (expandServerEntryEnv (expandDollarBrace setting)) entries with
      | .error e => .error e
      | .ok entries =>
        let entries := entries.filter McpServerEntry.enabled
        if entries.isEmpty then .error .noServers else .ok entries
    | .windsurf => expandAll (expandServerEntryEnv (expandEnvColon setting)) entries
    | _ => .ok entries

/-- `parse_servers`. -/
def parseServers (agent : AgentType) (setting : Setting) (files : Files Path Text) (path : Path) :
    Except ConfigError (List McpServerEntry) :=
  match readConfig files path with
  | .error e => .error e
  | .ok config => serversFrom agent setting files config.1

/-- The expansion that an adapter makes. -/
def expander (agent : AgentType) (setting : Setting) : String → Except ConfigError String :=
  match agent with
  | .claudeCode => expandDollarBrace setting
  | .windsurf => expandEnvColon setting
  | _ => .ok

end

/-! ### Merged lists -/

section

variable {e x : McpServerEntry} {entries overrides : List McpServerEntry}

theorem mem_override (hnodup : (entries.map (·.id)).Nodup) :
    x ∈ override e entries ↔ x = e ∨ (x ∈ entries ∧ x.id ≠ e.id) := by
  induction entries with
  | nil => simp [override]
  | cons y entries ih =>
    obtain ⟨hfresh, hrest⟩ := List.nodup_cons.mp hnodup
    by_cases hid : y.id = e.id
    · have hother : x ∈ entries → x.id ≠ e.id := by
        intro hx heq
        exact hfresh (List.mem_map.mpr ⟨x, hx, heq.trans hid.symm⟩)
      rw [override, if_pos hid, List.mem_cons, List.mem_cons]
      constructor
      · exact Or.imp_right fun hx => ⟨Or.inr hx, hother hx⟩
      · rintro (rfl | ⟨rfl | hx, hne⟩)
        · exact Or.inl rfl
        · exact absurd hid hne
        · exact Or.inr hx
    · rw [override, if_neg hid, List.mem_cons, List.mem_cons, ih hrest]
      constructor
      · rintro (rfl | rfl | ⟨hx, hne⟩)
        · exact Or.inr ⟨Or.inl rfl, hid⟩
        · exact Or.inl rfl
        · exact Or.inr ⟨Or.inr hx, hne⟩
      · rintro (rfl | ⟨rfl | hx, hne⟩)
        · exact Or.inr (Or.inl rfl)
        · exact Or.inl rfl
        · exact Or.inr (Or.inr ⟨hx, hne⟩)

theorem override_nodup (hnodup : (entries.map (·.id)).Nodup) : ((override e entries).map (·.id)).Nodup := by
  induction entries with
  | nil => exact List.nodup_singleton e.id
  | cons y entries ih =>
    obtain ⟨hfresh, hrest⟩ := List.nodup_cons.mp hnodup
    by_cases hid : y.id = e.id
    · rw [override, if_pos hid, List.map_cons, ← hid]
      exact hnodup
    · rw [override, if_neg hid]
      refine List.nodup_cons.mpr ⟨fun hmem => ?_, ih hrest⟩
      obtain ⟨x, hx, heq⟩ := List.mem_map.mp hmem
      rcases (mem_override hrest).mp hx with rfl | ⟨hold, -⟩
      · exact hid heq.symm
      · exact hfresh (List.mem_map.mpr ⟨x, hold, heq⟩)

theorem merge_nodup (hnodup : (entries.map (·.id)).Nodup) : ((merge entries overrides).map (·.id)).Nodup := by
  induction overrides generalizing entries with
  | nil => exact hnodup
  | cons e overrides ih => exact ih (override_nodup hnodup)

/-- An entry stands in the merged list when it overrides, or is not overridden. -/
theorem mem_merge (hnodup : (entries.map (·.id)).Nodup) (hoverrides : (overrides.map (·.id)).Nodup) :
    x ∈ merge entries overrides ↔ x ∈ overrides ∨ (x ∈ entries ∧ ∀ o ∈ overrides, o.id ≠ x.id) := by
  induction overrides generalizing entries with
  | nil => simp [merge]
  | cons e overrides ih =>
    obtain ⟨hfresh, hrest⟩ := List.nodup_cons.mp hoverrides
    have hlater : ∀ o ∈ overrides, o.id ≠ e.id := fun o ho heq => hfresh (List.mem_map.mpr ⟨o, ho, heq⟩)
    rw [merge, ih (override_nodup hnodup) hrest, mem_override hnodup, List.mem_cons, List.forall_mem_cons]
    constructor
    · rintro (hx | ⟨rfl | ⟨hx, hne⟩, hnone⟩)
      · exact Or.inl (Or.inr hx)
      · exact Or.inl (Or.inl rfl)
      · exact Or.inr ⟨hx, hne.symm, hnone⟩
    · rintro ((rfl | hx) | ⟨hx, hne, hnone⟩)
      · exact Or.inr ⟨Or.inl rfl, hlater⟩
      · exact Or.inl hx
      · exact Or.inr ⟨Or.inr ⟨hx, hne.symm⟩, hnone⟩

end

/-! ### Expanded entries -/

section

variable {f : String → Except ConfigError String} {e s : McpServerEntry}

theorem ok_of_map {α β ε : Type} {f : α → β} {r : Except ε α} {b : β} (h : r.map f = .ok b) :
    ∃ a, r = .ok a ∧ f a = b := by
  cases r with
  | error e => cases h
  | ok a => exact ⟨a, rfl, Except.ok.inj h⟩

theorem expandAll_ok {α : Type} {f : α → Except ConfigError α} {xs ys : List α} (h : expandAll f xs = .ok ys) :
    List.Forall₂ (fun x y => f x = .ok y) xs ys := by
  induction xs generalizing ys with
  | nil =>
    cases h
    exact List.Forall₂.nil
  | cons x xs ih =>
    rw [expandAll] at h
    split at h
    · cases h
    · next y hy =>
      obtain ⟨rest, hrest, rfl⟩ := ok_of_map h
      exact List.Forall₂.cons hy (ih hrest)

theorem expandAll_self {α : Type} {f : α → Except ConfigError α} (hf : ∀ x, f x = .ok x) (xs : List α) :
    expandAll f xs = .ok xs := by
  induction xs with
  | nil => rfl
  | cons x xs ih =>
    rw [expandAll, hf, ih]
    rfl

theorem exists_of_forall₂ {α β : Type} {R : α → β → Prop} {xs : List α} {ys : List β} (h : List.Forall₂ R xs ys)
    {y : β} (hy : y ∈ ys) : ∃ x ∈ xs, R x y := by
  induction h with
  | nil => cases hy
  | cons hxy _ ih =>
    rcases List.mem_cons.mp hy with rfl | hy
    · exact ⟨_, List.mem_cons_self, hxy⟩
    · obtain ⟨x, hx, hR⟩ := ih hy
      exact ⟨x, List.mem_cons_of_mem _ hx, hR⟩

theorem expandServerEntryEnv_ok (h : expandServerEntryEnv f e = .ok s) :
    f e.command = .ok s.command ∧ List.Forall₂ (fun a b => f a = .ok b) e.args s.args ∧ s.id = e.id := by
  rw [expandServerEntryEnv] at h
  split at h
  · cases h
  · next command hcommand =>
    split at h
    · cases h
    · next args hargs =>
      cases h
      exact ⟨hcommand, expandAll_ok hargs, rfl⟩

theorem expandAll_ids {entries out : List McpServerEntry} (h : expandAll (expandServerEntryEnv f) entries = .ok out) :
    out.map (·.id) = entries.map (·.id) := by
  have hpairs := expandAll_ok h
  clear h
  induction hpairs with
  | nil => rfl
  | cons hone _ ih => rw [List.map_cons, List.map_cons, ih, (expandServerEntryEnv_ok hone).2.2]

theorem expandServerEntryEnv_self (e : McpServerEntry) : expandServerEntryEnv .ok e = .ok e := by
  rw [expandServerEntryEnv, expandAll_self fun _ => rfl]

end

/-! ### What is listed -/

theorem Shape.parse_nodup {shape : Shape} {members : List (String × Value)} {entries : List McpServerEntry}
    (hkeyed : (Value.object members).Keyed) (hparse : shape.parse members = .ok entries) :
    (entries.map (·.id)).Nodup := by
  cases hkeyed with
  | object hnodup _ => exact (Shape.parse_ids_sublist hparse).nodup hnodup

theorem members_keyed {v : Value} (hv : v.Keyed) {key : String} {members : List (String × Value)}
    (h : (v.get key).bind Value.asObject = some members) : (Value.object members).Keyed := by
  obtain ⟨u, hu, hobject⟩ := Option.bind_eq_some_iff.mp h
  exact (hv.get hu).members hobject

section

variable {agent : AgentType} {setting : Setting} {config : Value} {entries servers : List McpServerEntry}
  {members : List (String × Value)}

theorem projectServers_keyed {dir : String} (hkeyed : config.Keyed) (h : projectServers config dir = some members) :
    (Value.object members).Keyed := by
  obtain ⟨v, hv, -⟩ := Option.bind_eq_some_iff.mp h
  obtain ⟨project, hproject, -⟩ := Option.bind_eq_some_iff.mp hv
  obtain ⟨projects, hprojects, hdir⟩ := Option.bind_eq_some_iff.mp hproject
  rw [projectServers, hproject, Option.bind_some] at h
  exact members_keyed ((hkeyed.get hprojects).get hdir) h

theorem serversAt_keyed (hkeyed : config.Keyed) (h : serversAt agent setting config = some members) :
    (Value.object members).Keyed := by
  cases agent with
  | claudeCode =>
    obtain ⟨dir, -, hdir⟩ := Option.bind_eq_some_iff.mp h
    exact projectServers_keyed hkeyed hdir
  | _ => exact members_keyed hkeyed h

theorem parseKey_ok {shape : Shape} {key missing : String} (h : parseKey shape key missing config = .ok entries) :
    ∃ members, (config.get key).bind Value.asObject = some members ∧ shape.parse members = .ok entries := by
  rw [parseKey] at h
  split at h
  · cases h
  · next members hmembers => exact ⟨members, hmembers, h⟩

theorem parseKey_of_members {shape : Shape} {key missing : String}
    (hmembers : (config.get key).bind Value.asObject = some members) :
    parseKey shape key missing config = shape.parse members := by rw [parseKey, hmembers]

/-- What the config has are the entries of its object of servers. -/
theorem ownEntries_ok (h : ownEntries agent setting config = .ok entries) :
    (serversAt agent setting config = none ∧ entries = []) ∨
      ∃ members, serversAt agent setting config = some members ∧ agent.shape.parse members = .ok entries := by
  cases agent with
  | claudeCode =>
    rw [ownEntries] at h
    cases hcwd : setting.cwd with
    | none =>
      rw [hcwd] at h
      cases h
      exact Or.inl ⟨by rw [serversAt, hcwd]; rfl, rfl⟩
    | some dir =>
      rw [hcwd] at h
      dsimp only at h
      have hat : serversAt .claudeCode setting config = projectServers config dir := by
        rw [serversAt, hcwd]
        rfl
      rw [parseProjectServers] at h
      rw [hat]
      split at h
      · next hnone =>
        cases h
        exact Or.inl ⟨hnone, rfl⟩
      · next members hmembers => exact Or.inr ⟨members, hmembers, h⟩
  | _ => exact Or.inr (parseKey_ok h)

/-- Without an object of servers there are no entries, as in an empty one. -/
theorem parse_of_ownEntries (h : ownEntries agent setting config = .ok entries) :
    agent.shape.parse ((serversAt agent setting config).getD []) = .ok entries := by
  rcases ownEntries_ok h with ⟨hnone, rfl⟩ | ⟨members, hat, hparse⟩
  · rw [hnone]
    rfl
  · rw [hat]
    exact hparse

theorem serversAt_getD_keyed (agent : AgentType) (setting : Setting) (hkeyed : config.Keyed) :
    (Value.object ((serversAt agent setting config).getD [])).Keyed := by
  cases hat : serversAt agent setting config with
  | none => exact Value.Keyed.emptyObject
  | some members => exact serversAt_keyed hkeyed hat

theorem ownEntries_of_parse (hat : serversAt agent setting config = some members)
    (hparse : agent.shape.parse members = .ok entries) : ownEntries agent setting config = .ok entries := by
  cases agent with
  | claudeCode =>
    obtain ⟨dir, hcwd, hmembers⟩ := Option.bind_eq_some_iff.mp hat
    rw [ownEntries, hcwd]
    dsimp only
    rw [parseProjectServers, hmembers]
    exact hparse
  | _ => exact (parseKey_of_members hat).trans hparse

theorem ownEntries_nodup (hkeyed : config.Keyed) (h : ownEntries agent setting config = .ok entries) :
    (entries.map (·.id)).Nodup := by
  rcases ownEntries_ok h with ⟨-, rfl⟩ | ⟨members, hat, hparse⟩
  · exact List.nodup_nil
  · exact Shape.parse_nodup (serversAt_keyed hkeyed hat) hparse

end

section

variable [ConfigText] {agent : AgentType} {setting : Setting} {files : Files Path Text} {path : Path}
  {config : AgentConfig} {entries servers : List McpServerEntry} {e : McpServerEntry}

theorem projectEntries_mcpJson {config : Value} {dir : String} (hcwd : setting.cwd = some dir) :
    projectEntries .claudeCode setting files config =
      (fileEntries files (mcpJson dir)).filter fun e => isMcpJsonServerEnabled config dir e.id := by
  simp only [projectEntries, hcwd]

theorem projectEntries_cursor {config : Value} {dir : String} (hcwd : setting.cwd = some dir) :
    projectEntries .cursor setting files config = fileEntries files (cursorProject dir) := by
  simp only [projectEntries, hcwd]

/-- The other adapters, and these two without a directory, have no project file. -/
theorem projectEntries_nil {config : Value} (hclaude : agent = .claudeCode → setting.cwd = none)
    (hcursor : agent = .cursor → setting.cwd = none) : projectEntries agent setting files config = [] := by
  cases agent with
  | claudeCode => simp only [projectEntries, hclaude rfl]
  | cursor => simp only [projectEntries, hcursor rfl]
  | _ => simp only [projectEntries]

theorem readConfig_ok_iff :
    readConfig files path = .ok config ↔ ∃ text, files path = some text ∧ text.read = .ok config := by
  rw [readConfig]
  cases files path with
  | none => simp
  | some text => simp

theorem fileEntries_of_mem (he : e ∈ fileEntries files path) :
    ∃ config members, readConfig files path = .ok config ∧
      (config.1.get "mcpServers").bind Value.asObject = some members ∧
      mcpServersShape.parse members = .ok (fileEntries files path) := by
  rw [fileEntries] at he ⊢
  split at he
  · cases he
  · next config hread =>
    split at he
    · cases he
    · next entries hparse =>
      obtain ⟨members, hmembers, hentries⟩ := parseKey_ok hparse
      exact ⟨config, members, hread, hmembers, hentries⟩

theorem fileEntries_eq {members : List (String × Value)} (hread : readConfig files path = .ok config)
    (hmembers : (config.1.get "mcpServers").bind Value.asObject = some members)
    (hparse : mcpServersShape.parse members = .ok entries) : fileEntries files path = entries := by
  have hkey : parseMcpServersKey config.1 "mcpServers" = .ok entries := (parseKey_of_members hmembers).trans hparse
  rw [fileEntries, hread]
  dsimp only
  rw [hkey]

theorem fileEntries_nodup : ((fileEntries files path).map (·.id)).Nodup := by
  cases hall : fileEntries files path with
  | nil => exact List.nodup_nil
  | cons e rest =>
    obtain ⟨config, members, -, hmembers, hparse⟩ := fileEntries_of_mem (by rw [hall]; exact List.mem_cons_self)
    rw [← hall]
    exact Shape.parse_nodup (members_keyed config.2 hmembers) hparse

theorem projectEntries_nodup : ((projectEntries agent setting files config.1).map (·.id)).Nodup := by
  unfold projectEntries
  split
  · exact (List.filter_sublist.map _).nodup fileEntries_nodup
  · exact fileEntries_nodup
  · exact List.nodup_nil

/-- The list has the entries of the project's file, and those of the config that it does not override. -/
theorem listServers_ok (h : listServers agent setting files config.1 = .ok entries) :
    ∃ own, ownEntries agent setting config.1 = .ok own ∧ (entries.map (·.id)).Nodup ∧
      ∀ e, e ∈ entries ↔ e ∈ projectEntries agent setting files config.1 ∨
        (e ∈ own ∧ ∀ o ∈ projectEntries agent setting files config.1, o.id ≠ e.id) := by
  obtain ⟨own, hown, rfl⟩ := ok_of_map h
  have hnodup := ownEntries_nodup config.2 hown
  exact ⟨own, hown, merge_nodup hnodup, fun e => mem_merge hnodup projectEntries_nodup⟩

theorem serversFrom_ok (h : serversFrom agent setting files config.1 = .ok servers) :
    ∃ entries, listServers agent setting files config.1 = .ok entries ∧ (servers.map (·.id)).Nodup ∧
      ∀ s ∈ servers, ∃ e ∈ entries, expandServerEntryEnv (expander agent setting) e = .ok s := by
  rw [serversFrom] at h
  split at h
  · cases h
  · next entries hlist =>
    obtain ⟨own, -, hnodup, -⟩ := listServers_ok hlist
    have hexpanded : ∀ {f : String → Except ConfigError String} {out : List McpServerEntry},
        expandAll (expandServerEntryEnv f) entries = .ok out → (out.map (·.id)).Nodup := by
      intro f out hout
      rw [expandAll_ids hout]
      exact hnodup
    refine ⟨entries, hlist, ?_⟩
    split at h
    · split at h
      · cases h
      · next out hout =>
        dsimp only at h
        split at h
        · cases h
        · cases h
          refine ⟨(List.filter_sublist.map _).nodup (hexpanded hout), fun s hs => ?_⟩
          exact exists_of_forall₂ (expandAll_ok hout) (List.mem_of_mem_filter hs)
    · exact ⟨hexpanded h, fun s hs => exists_of_forall₂ (expandAll_ok h) hs⟩
    · next hclaude hwindsurf =>
      cases h
      refine ⟨hnodup, fun s hs => ⟨s, hs, ?_⟩⟩
      have hplain : expander agent setting = .ok := by
        cases agent with
        | claudeCode => exact absurd rfl hclaude
        | windsurf => exact absurd rfl hwindsurf
        | _ => rfl
      rw [hplain, expandServerEntryEnv_self]

/-- A list of servers is made of the entries of all sources, expanded. -/
theorem parseServers_ok (h : parseServers agent setting files path = .ok servers) :
    ∃ config entries, readConfig files path = .ok config ∧ listServers agent setting files config.1 = .ok entries ∧
      (servers.map (·.id)).Nodup ∧
      ∀ s ∈ servers, ∃ e ∈ entries, expandServerEntryEnv (expander agent setting) e = .ok s := by
  rw [parseServers] at h
  split at h
  · cases h
  · next config hread =>
    obtain ⟨entries, hlist, hnodup, hlisted⟩ := serversFrom_ok h
    exact ⟨config, entries, hread, hlist, hnodup, hlisted⟩

end

end ThoughtGate.Wrap
