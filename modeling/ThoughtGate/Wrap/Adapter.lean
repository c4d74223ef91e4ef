import ThoughtGate.Wrap.Sources

/-!
# Rewriting a config

`rewrite_config` of the adapters, over a disk whose operations can fail (`FileAction`): a config is read, refused if it
is rewritten already, backed up and replaced (`rewriteFile`); Cursor's adapter then does the same with the project's
file, and does not mind if this fails. The five ways to change the value are two functions with parameters
(`rewriteKey`, `rewriteProjectServers`).
-/

namespace ThoughtGate.Wrap

/-! ### The change of a value -/

/-- `as_object_mut`, `entry(key).or_insert({})`, and a change of that member. -/
def alterMember (notObject key : String) (change : Value → Except ConfigError Value) : Value → Except ConfigError Value
  | .object fields =>
    (change (((Value.object fields).get key).getD Value.emptyObject)).map fun v =>
      .object (Value.insertField key v fields)
  | _ => .error (.parse notObject)

variable (setting : Setting) (options : ShimOptions) (servers : List McpServerEntry)

/-- The servers in an object of servers. -/
def rewriteServers (shape : Shape) (notObject : String) : Value → Except ConfigError Value
  | .object members => (shape.rewrite setting options servers members).map .object
  | _ => .error (.parse notObject)

/-- The servers under a key, which has to be there. -/
def rewriteKey (shape : Shape) (key missing : String) (config : Value) : Except ConfigError Value :=
  match (config.get key).bind Value.asObject with
  | none => .error (.parse missing)
  | some _ => alterMember missing key (rewriteServers setting options servers shape missing) config

/-- `rewrite_mcp_servers_key`. -/
def rewriteMcpServersKey (key : String) (config : Value) : Except ConfigError Value :=
  rewriteKey setting options servers mcpServersShape key ("missing or invalid `" ++ key ++ "` key in config") config

/-- `rewrite_project_servers`. -/
def rewriteProjectServers (project : String) (config : Value) : Except ConfigError Value :=
  alterMember "config is not a JSON object" "projects"
    (alterMember "`projects` is not a JSON object" project
      (alterMember ("project `" ++ project ++ "` is not a JSON object") "mcpServers"
        (rewriteServers setting options servers projectShape "`mcpServers` is not a JSON object"))) config

/-- What an adapter makes of its config. -/
def updated (agent : AgentType) (config : Value) : Except ConfigError Value :=
  match agent with
  | .claudeCode =>
    match setting.cwd with
    | none => .error (.parse "could not determine current working directory")
    | some dir => rewriteProjectServers setting options servers dir config
  | .vsCode => rewriteKey setting options servers vsCodeShape "servers" "missing `servers` key" config
  | .zed => rewriteKey setting options servers zedShape "context_servers" "missing `context_servers` key" config
  | .claudeDesktop | .cursor | .windsurf | .custom => rewriteMcpServersKey setting options servers "mcpServers" config

/-- Whether an adapter takes a config for one that is rewritten already. -/
def managed (agent : AgentType) (config : Value) : Bool :=
  match agent with
  | .claudeCode => (setting.cwd.map fun dir => detectProjectDoubleWrap setting dir config).getD false
  | agent => detectDoubleWrap setting agent.key config

section

variable {setting options servers} {agent : AgentType} {config config' : Value} {notObject key : String}

theorem alterMember_ok {change : Value → Except ConfigError Value}
    (h : alterMember notObject key change config = .ok config') :
    ∃ fields v, config = .object fields ∧ change ((config.get key).getD Value.emptyObject) = .ok v ∧
      config' = .object (Value.insertField key v fields) := by
  cases config with
  | object fields =>
    obtain ⟨v, hv, rfl⟩ := ok_of_map h
    exact ⟨fields, v, rfl, hv, rfl⟩
  | _ => cases h

theorem alterMember_keyed {change : Value → Except ConfigError Value}
    (hchange : ∀ {v w : Value}, v.Keyed → change v = .ok w → w.Keyed) (hkeyed : config.Keyed)
    (h : alterMember notObject key change config = .ok config') : config'.Keyed := by
  obtain ⟨fields, v, rfl, hv, rfl⟩ := alterMember_ok h
  refine hkeyed.insertField key (hchange ?_ hv)
  cases hget : (Value.object fields).get key with
  | none => exact Value.Keyed.emptyObject
  | some u => exact hkeyed.get hget

theorem rewriteServers_ok {shape : Shape}
    (h : rewriteServers setting options servers shape notObject config = .ok config') :
    ∃ members members', config = .object members ∧ config' = .object members' ∧
      shape.rewrite setting options servers members = .ok members' := by
  cases config with
  | object members =>
    obtain ⟨members', hmembers', rfl⟩ := ok_of_map h
    exact ⟨members, members', rfl, rfl, hmembers'⟩
  | _ => cases h

theorem rewriteServers_keyed {shape : Shape} (hkeyed : config.Keyed)
    (h : rewriteServers setting options servers shape notObject config = .ok config') : config'.Keyed := by
  obtain ⟨members, members', rfl, rfl, hrewrite⟩ := rewriteServers_ok h
  exact Shape.rewrite_keyed hkeyed hrewrite

theorem rewriteKey_keyed {shape : Shape} {missing : String} (hkeyed : config.Keyed)
    (h : rewriteKey setting options servers shape key missing config = .ok config') : config'.Keyed := by
  rw [rewriteKey] at h
  split at h
  · cases h
  · exact alterMember_keyed rewriteServers_keyed hkeyed h

theorem rewriteProjectServers_keyed {project : String} (hkeyed : config.Keyed)
    (h : rewriteProjectServers setting options servers project config = .ok config') : config'.Keyed :=
  alterMember_keyed (alterMember_keyed (alterMember_keyed rewriteServers_keyed)) hkeyed h

theorem updated_keyed (hkeyed : config.Keyed) (h : updated setting options servers agent config = .ok config') :
    config'.Keyed := by
  cases agent with
  | claudeCode =>
    rw [updated] at h
    split at h
    · cases h
    · exact rewriteProjectServers_keyed hkeyed h
  | _ => exact rewriteKey_keyed hkeyed h

/-! ### What becomes of the object of servers -/

theorem get_getD (o : Option Value) (key : String) : (o.getD Value.emptyObject).get key = o.bind (·.get key) := by
  cases o with
  | none => rfl
  | some v => rfl

theorem members_of_getD {o : Option Value} {members : List (String × Value)}
    (h : o.getD Value.emptyObject = .object members) : (o.bind Value.asObject).getD [] = members := by
  cases o with
  | none =>
    cases h
    rfl
  | some v =>
    rw [Option.getD_some] at h
    subst h
    rfl

theorem rewriteKey_ok {shape : Shape} {missing : String}
    (h : rewriteKey setting options servers shape key missing config = .ok config') :
    ∃ fields members members', config = .object fields ∧ config.get key = some (.object members) ∧
      shape.rewrite setting options servers members = .ok members' ∧
      config' = .object (Value.insertField key (.object members') fields) := by
  rw [rewriteKey] at h
  split at h
  · cases h
  · next hmembers =>
    obtain ⟨fields, v, rfl, hv, rfl⟩ := alterMember_ok h
    obtain ⟨members, members', hobject, rfl, hrewrite⟩ := rewriteServers_ok hv
    refine ⟨fields, members, members', rfl, ?_, hrewrite, rfl⟩
    cases hget : (Value.object fields).get key with
    | none =>
      rw [hget] at hmembers
      cases hmembers
    | some u =>
      rw [hget, Option.getD_some] at hobject
      rw [hobject]

theorem rewriteProjectServers_ok {dir : String}
    (h : rewriteProjectServers setting options servers dir config = .ok config') :
    ∃ fields projects project members members', config = .object fields ∧
      (config.get "projects").getD Value.emptyObject = .object projects ∧
      ((Value.object projects).get dir).getD Value.emptyObject = .object project ∧
      ((Value.object project).get "mcpServers").getD Value.emptyObject = .object members ∧
      projectShape.rewrite setting options servers members = .ok members' ∧
      config' = .object (Value.insertField "projects" (.object (Value.insertField dir (.object
        (Value.insertField "mcpServers" (.object members') project)) projects)) fields) := by
  obtain ⟨fields, v, rfl, hv, rfl⟩ := alterMember_ok h
  obtain ⟨projects, w, hprojects, hw, rfl⟩ := alterMember_ok hv
  obtain ⟨project, u, hproject, hu, rfl⟩ := alterMember_ok hw
  obtain ⟨members, members', hmembers, rfl, hrewrite⟩ := rewriteServers_ok hu
  rw [hprojects] at hproject hmembers
  rw [hproject] at hmembers
  exact ⟨fields, projects, project, members, members', rfl, hprojects, hproject, hmembers, hrewrite, rfl⟩

/-- The settings of a project, before and after its servers are rewritten. -/
theorem rewriteProjectServers_project {dir : String} {other : String} (hother : other ≠ "mcpServers")
    (h : rewriteProjectServers setting options servers dir config = .ok config') :
    (((config'.get "projects").bind (·.get dir)).bind (·.get other)) =
      (((config.get "projects").bind (·.get dir)).bind (·.get other)) := by
  obtain ⟨fields, projects, project, members, members', -, hprojects, hproject, -, -, rfl⟩ :=
    rewriteProjectServers_ok h
  rw [Value.get_insertField_self, Option.bind_some, Value.get_insertField_self, Option.bind_some,
    Value.get_insertField_ne hother, ← get_getD (config.get "projects"), hprojects, ← get_getD, hproject]

/-- The servers of another project are left alone. -/
theorem projectServers_other {dir other : String} (hother : other ≠ dir)
    (h : rewriteProjectServers setting options servers dir config = .ok config') :
    projectServers config' other = projectServers config other := by
  obtain ⟨fields, projects, project, members, members', -, hprojects, -, -, -, rfl⟩ := rewriteProjectServers_ok h
  rw [projectServers, projectServers, Value.get_insertField_self, Option.bind_some, Value.get_insertField_ne hother,
    ← hprojects, get_getD]

theorem rewriteProjectServers_top {dir : String} {other : String} (hother : other ≠ "projects")
    (h : rewriteProjectServers setting options servers dir config = .ok config') :
    config'.get other = config.get other := by
  obtain ⟨fields, projects, project, members, members', rfl, -, -, -, -, rfl⟩ := rewriteProjectServers_ok h
  exact Value.get_insertField_ne hother _ _

/-- The object of servers is rewritten; Claude Code's is made if there is none. -/
theorem updated_ok (h : updated setting options servers agent config = .ok config') :
    ∃ members', agent.shape.rewrite setting options servers ((serversAt agent setting config).getD []) = .ok members' ∧
      serversAt agent setting config' = some members' := by
  have hkey : ∀ {shape : Shape} {key missing : String},
      rewriteKey setting options servers shape key missing config = .ok config' →
        ∃ members', shape.rewrite setting options servers (((config.get key).bind Value.asObject).getD []) =
            .ok members' ∧ (config'.get key).bind Value.asObject = some members' := by
    intro shape key missing hrw
    obtain ⟨fields, members, members', rfl, hget, hrewrite, rfl⟩ := rewriteKey_ok hrw
    refine ⟨members', ?_, ?_⟩
    · rw [hget]
      exact hrewrite
    · rw [Value.get_insertField_self]
      rfl
  cases agent with
  | claudeCode =>
    rw [updated] at h
    split at h
    · cases h
    · next dir hcwd =>
      obtain ⟨fields, projects, project, members, members', -, hprojects, hproject, hmembers, hrewrite, rfl⟩ :=
        rewriteProjectServers_ok h
      refine ⟨members', ?_, ?_⟩
      · rw [serversAt, hcwd, Option.bind_some, projectServers, ← get_getD (config.get "projects"), hprojects,
          ← get_getD ((Value.object projects).get dir), hproject, members_of_getD hmembers]
        exact hrewrite
      · rw [serversAt, hcwd, Option.bind_some, projectServers, Value.get_insertField_self, Option.bind_some,
          Value.get_insertField_self, Option.bind_some, Value.get_insertField_self]
        rfl
  | _ => exact hkey h

/-- Which servers of `.mcp.json` are enabled is not changed. -/
theorem isMcpJsonServerEnabled_updated {dir : String}
    (h : rewriteProjectServers setting options servers dir config = .ok config') (id : String) :
    isMcpJsonServerEnabled config' dir id = isMcpJsonServerEnabled config dir id := by
  have hlists : ∀ v : Value, isMcpJsonServerEnabled v dir id =
      let items := fun key => ((((v.get "projects").bind (·.get dir)).bind (·.get key)).bind Value.asArray).getD []
      if names (items "disabledMcpjsonServers") id then false
      else if (items "enabledMcpjsonServers").isEmpty then true
      else names (items "enabledMcpjsonServers") id := by
    intro v
    rw [isMcpJsonServerEnabled]
    cases (v.get "projects").bind (·.get dir) with
    | none => rfl
    | some settings => rfl
  have hsame : ∀ key ≠ "mcpServers", _ := fun key hkey => rewriteProjectServers_project hkey h
  have hdisabled := hsame "disabledMcpjsonServers" (by decide)
  have henabled := hsame "enabledMcpjsonServers" (by decide)
  rw [hlists, hlists]
  simp only [hdisabled, henabled]

end

/-! ### The files -/

abbrev ConfigAction (α : Type) : Type := FileAction Path Text ConfigError α

open FileAction

/-- `atomic_write`. -/
def atomicWrite (path : Path) (text : Text) : ConfigAction Unit :=
  FileAction.replace (.io "write failed") (.io "rename failed") (.temp path) path text

/-- An I/O error under a `ConfigError::Write`. -/
def asWrite (about : String) : ConfigError → ConfigError
  | .io reason => .write (about ++ reason)
  | e => e

/-- `write_config`. -/
def writeConfig (path : Path) (config : AgentConfig) : ConfigAction Unit :=
  (atomicWrite path (.printed config)).mapError (asWrite "")

/-- `std::fs::read`. -/
def readFile (path : Path) : ConfigAction Text :=
  FileAction.read (.io "No such file or directory (os error 2)") (.io "read failed") path

/-- `backup_config`. -/
def backupConfig (path : Path) : ConfigAction Path := do
  let original ← readFile path
  (atomicWrite (.backup path) original).mapError (asWrite "backup write failed: ")
  -- a disk that has done its operations returns what was written; a read that does not counts as a failed one
  let _ ← readFile (.backup path)
  return .backup path

/-- A change of a config. -/
structure Update where
  run : Value → Except ConfigError Value
  keyed : ∀ {v w : Value}, v.Keyed → run v = .ok w → w.Keyed

def Update.apply (update : Update) (config : AgentConfig) : Except ConfigError AgentConfig :=
  match h : update.run config.1 with
  | .error e => .error e
  | .ok v => .ok ⟨v, update.keyed config.2 h⟩

theorem Update.apply_ok {update : Update} {config config' : AgentConfig} :
    update.apply config = .ok config' ↔ update.run config.1 = .ok config'.1 := by
  rw [apply]
  split
  · next e he => simp [he]
  · next v hv => simp [hv, Subtype.ext_iff]

section

variable [ConfigText]

/-- `read_config`, on a disk. -/
def loadConfig (path : Path) : ConfigAction AgentConfig := do
  let text ← FileAction.read (.notFound path) (.io "read failed") path
  ofExcept text.read

/-- A config is read, refused, backed up, changed and written. -/
def rewriteFile (managed : Value → Bool) (update : Update) (path : Path) : ConfigAction Path := do
  let config ← loadConfig path
  if managed config.1 then fail .alreadyManaged
  else do
    let backup ← backupConfig path
    let config ← ofExcept (update.apply config)
    writeConfig path config
    return backup

/-- `standard_rewrite`. -/
def standardRewrite (key : String) (path : Path) : ConfigAction Path :=
  rewriteFile (detectDoubleWrap setting key)
    ⟨rewriteMcpServersKey setting options servers key, fun hv h => rewriteKey_keyed hv h⟩ path

/-- The config itself. -/
def rewriteMain (agent : AgentType) (path : Path) : ConfigAction Path :=
  rewriteFile (managed setting agent) ⟨updated setting options servers agent, updated_keyed⟩ path

/-- Cursor's file of the project, if it is there and has servers; errors are logged only. -/
def rewriteCursorProject (path : Path) : ConfigAction Unit := do
  match ← attempt (loadConfig path) with
  | .error _ => return ()
  | .ok config =>
    if ((config.1.get "mcpServers").bind Value.asObject).isSome then do
      let _ ← attempt (standardRewrite setting options servers "mcpServers" path)
      return ()
    else return ()

/-- `rewrite_config`. -/
def rewriteConfig (agent : AgentType) (path : Path) : ConfigAction Path :=
  match agent, setting.cwd with
  | .claudeCode, none => fail (.parse "could not determine current working directory")
  | .cursor, some dir => do
    let backup ← rewriteMain setting options servers .cursor path
    rewriteCursorProject setting options servers (cursorProject dir)
    return backup
  | agent, _ => rewriteMain setting options servers agent path

/-- `rewrite_config`, as far as the config itself goes. -/
def rewriteConfigFile (agent : AgentType) (path : Path) : ConfigAction Path :=
  match agent, setting.cwd with
  | .claudeCode, none => fail (.parse "could not determine current working directory")
  | agent, _ => rewriteMain setting options servers agent path

/-- `rewrite_config`, what comes after the config itself. -/
def rewriteProjectFile (agent : AgentType) : ConfigAction Unit :=
  match agent, setting.cwd with
  | .cursor, some dir => rewriteCursorProject setting options servers (cursorProject dir)
  | _, _ => return ()

end

/-! ### What becomes of the files -/

section

variable [ConfigText] {setting options servers} {d d' : Disk Path Text} {path backup : Path} {update : Update}
  {refused : Value → Bool}

theorem loadConfig_ok {config : AgentConfig} : loadConfig path d = (.ok config, d') ↔
    d.outcomes 0 = .done ∧ readConfig d.files path = .ok config ∧ d' = d.after 1 d.files := by
  rw [readConfig]
  constructor
  · intro h
    obtain ⟨text, d₁, hread, hparse⟩ := bind_ok h
    obtain ⟨hdone, htext, rfl⟩ := read_ok.mp hread
    obtain ⟨hconfig, rfl⟩ := ofExcept_ok.mp hparse
    rw [htext]
    exact ⟨hdone, hconfig, rfl⟩
  · rintro ⟨hdone, hconfig, rfl⟩
    split at hconfig
    · cases hconfig
    · next text htext =>
      rw [loadConfig, bind_of_ok (read_ok.mpr ⟨hdone, htext, rfl⟩)]
      exact ofExcept_ok.mpr ⟨hconfig, rfl⟩

/-- The files that a rewrite uses beside the config. -/
def scratch (path : Path) : Set Path := {p | p = .temp path ∨ p = .backup path ∨ p = .temp (.backup path)}

/-- The files with a backup in place. -/
def backedUp (files : Files Path Text) (path : Path) (text : Text) : Files Path Text :=
  files.replace (.temp (.backup path)) (.backup path) text

/-- The files with a backup in place, and the new config. -/
def rewritten (files : Files Path Text) (path : Path) (text : Text) (config : AgentConfig) : Files Path Text :=
  (backedUp files path text).replace (.temp path) path (.printed config)

omit [ConfigText] in
theorem backupConfig_ok : backupConfig path d = (.ok backup, d') ↔
    (∀ i < 4, d.outcomes i = .done) ∧ backup = .backup path ∧
      ∃ text, d.files path = some text ∧ d' = d.after 4 (backedUp d.files path text) := by
  constructor
  · intro h
    obtain ⟨text, d₁, hread, h⟩ := bind_ok h
    obtain ⟨h0, htext, rfl⟩ := read_ok.mp hread
    obtain ⟨⟨⟩, d₂, hwrite, h⟩ := bind_ok h
    obtain ⟨h1, h2, rfl⟩ := replace_ok.mp (mapError_ok.mp hwrite)
    obtain ⟨text', d₃, hback, h⟩ := bind_ok h
    obtain ⟨h3, -, rfl⟩ := read_ok.mp hback
    cases h
    refine ⟨fun i hi => ?_, rfl, text, htext, ?_⟩
    · obtain rfl | rfl | rfl | rfl : i = 0 ∨ i = 1 ∨ i = 2 ∨ i = 3 := by omega
      · exact h0
      · exact h1
      · exact h2
      · exact h3
    · rw [Disk.after_after, Disk.after_after]
      rfl
  · rintro ⟨hdone, rfl, text, htext, rfl⟩
    have hread : readFile path d = (.ok text, d.after 1 d.files) := read_ok.mpr ⟨hdone 0 (by omega), htext, rfl⟩
    have hwrite : (atomicWrite (.backup path) text).mapError (asWrite "backup write failed: ") (d.after 1 d.files) =
        (.ok (), (d.after 1 d.files).after 2 (backedUp d.files path text)) :=
      mapError_ok.mpr (replace_ok.mpr ⟨hdone 1 (by omega), hdone 2 (by omega), rfl⟩)
    have hback : readFile (.backup path) ((d.after 1 d.files).after 2 (backedUp d.files path text)) =
        (.ok text, ((d.after 1 d.files).after 2 (backedUp d.files path text)).after 1 (backedUp d.files path text)) :=
      read_ok.mpr ⟨hdone 3 (by omega), Files.replace_target, rfl⟩
    rw [backupConfig, bind_of_ok hread, bind_of_ok hwrite, bind_of_ok hback, Disk.after_after, Disk.after_after]
    rfl

/-- A rewrite goes through when its seven operations do, on a config that can be read and changed and is not refused. -/
theorem rewriteFile_ok : rewriteFile refused update path d = (.ok backup, d') ↔
    (∀ i < 7, d.outcomes i = .done) ∧ backup = .backup path ∧
      ∃ text config config', d.files path = some text ∧ text.read = .ok config ∧ refused config.1 = false ∧
        update.run config.1 = .ok config'.1 ∧ d' = d.after 7 (rewritten d.files path text config') := by
  constructor
  · intro h
    obtain ⟨config, d₁, hload, h⟩ := bind_ok h
    obtain ⟨h0, hconfig, rfl⟩ := loadConfig_ok.mp hload
    split at h
    · cases h
    · next hrefused =>
      obtain ⟨b, d₂, hbackup, h⟩ := bind_ok h
      obtain ⟨h4, rfl, text, htext, rfl⟩ := backupConfig_ok.mp hbackup
      obtain ⟨config', d₃, hchange, h⟩ := bind_ok h
      obtain ⟨hupdate, rfl⟩ := ofExcept_ok.mp hchange
      obtain ⟨⟨⟩, d₄, hwrite, h⟩ := bind_ok h
      obtain ⟨h5, h6, rfl⟩ := replace_ok.mp (mapError_ok.mp hwrite)
      cases h
      rw [Disk.after_files] at htext
      rw [readConfig, htext] at hconfig
      refine ⟨fun i hi => ?_, rfl, text, config, config', htext, hconfig, by simpa using hrefused,
        Update.apply_ok.mp hupdate, ?_⟩
      · obtain rfl | ⟨hlow, hhigh⟩ | rfl | rfl : i = 0 ∨ (1 ≤ i ∧ i ≤ 4) ∨ i = 5 ∨ i = 6 := by omega
        · exact h0
        · have hdone := h4 (i - 1) (by omega)
          rwa [Disk.after_outcomes, Nat.sub_add_cancel hlow] at hdone
        · exact h5
        · exact h6
      · rw [Disk.after_after, Disk.after_after]
        rfl
  · rintro ⟨hdone, rfl, text, config, config', htext, hconfig, hrefused, hupdate, rfl⟩
    have hload : loadConfig path d = (.ok config, d.after 1 d.files) :=
      loadConfig_ok.mpr ⟨hdone 0 (by omega), by rw [readConfig, htext]; exact hconfig, rfl⟩
    have hbackup : backupConfig path (d.after 1 d.files) =
        (.ok (.backup path), (d.after 1 d.files).after 4 (backedUp d.files path text)) :=
      backupConfig_ok.mpr ⟨fun i hi => hdone (i + 1) (by omega), rfl, text, htext, rfl⟩
    have hchange : ∀ d : Disk Path Text, ofExcept (update.apply config) d = (.ok config', d) :=
      fun d => ofExcept_ok.mpr ⟨Update.apply_ok.mpr hupdate, rfl⟩
    have hwrite : writeConfig path config' ((d.after 1 d.files).after 4 (backedUp d.files path text)) =
        (.ok (), ((d.after 1 d.files).after 4 (backedUp d.files path text)).after 2
          (rewritten d.files path text config')) :=
      mapError_ok.mpr (replace_ok.mpr ⟨hdone 5 (by omega), hdone 6 (by omega), rfl⟩)
    rw [rewriteFile, bind_of_ok hload, if_neg (by rw [hrefused]; decide), bind_of_ok hbackup, bind_of_ok (hchange _),
      bind_of_ok hwrite, Disk.after_after, Disk.after_after]
    rfl

omit [ConfigText] in
theorem not_mem_scratch (path : Path) : path ∉ scratch path := by
  rintro (h | h | h)
  · have hsize := congrArg sizeOf h
    simp at hsize
  · have hsize := congrArg sizeOf h
    simp at hsize
  · have hsize := congrArg sizeOf h
    simp only [Path.temp.sizeOf_spec, Path.backup.sizeOf_spec] at hsize
    omega

section

variable {files : Files Path Text} {text : Text} {config : AgentConfig}

omit [ConfigText]

theorem rewritten_config : rewritten files path text config path = some (.printed config) := Files.replace_target

theorem rewritten_backup : rewritten files path text config (.backup path) = some text := by
  have hpath : Path.backup path ≠ path := fun h => not_mem_scratch path (Or.inr (Or.inl h.symm))
  rw [rewritten, Files.replace_ne (by simp) hpath]
  exact Files.replace_target

theorem rewritten_other {p : Path} (hscratch : p ∉ scratch path) (hpath : p ≠ path) :
    rewritten files path text config p = files p := by
  have hp : ∀ {q}, q ∈ scratch path → p ≠ q := by
    rintro q hq rfl
    exact hscratch hq
  rw [rewritten, Files.replace_ne (hp (Or.inl rfl)) hpath, backedUp,
    Files.replace_ne (hp (Or.inr (Or.inr rfl))) (hp (Or.inr (Or.inl rfl)))]

/-- Files that are found by their own names are not scratch files. -/
theorem file_not_mem_scratch (name : String) (path : Path) : Path.file name ∉ scratch path := by
  rintro (h | h | h) <;> cases h

end

theorem loadConfig_frame {S : Set Path} : Frame S (loadConfig path) := Frame.read.bind fun _ => Frame.ofExcept _

omit [ConfigText] in
theorem backupConfig_frame : Frame (scratch path) (backupConfig path) := by
  refine Frame.read.bind fun text => Frame.bind (Frame.mapError (Frame.replace ?_ ?_)) fun _ =>
    Frame.read.bind fun _ => Frame.pure _
  · exact Or.inr (Or.inr rfl)
  · exact Or.inr (Or.inl rfl)

/-- A rewrite that fails has not touched the config. -/
theorem rewriteFile_error {e : ConfigError} (h : rewriteFile refused update path d = (.error e, d')) :
    Files.SameOutside (scratch path) d.files d'.files := by
  rcases bind_error h with hload | ⟨config, d₁, hload, h₁⟩
  · exact loadConfig_frame.apply hload
  · have hfirst : Files.SameOutside (scratch path) d.files d₁.files := loadConfig_frame.apply hload
    split at h₁
    · exact hfirst.trans ((Frame.fail _).apply h₁)
    · rcases bind_error h₁ with hbackup | ⟨b, d₂, hbackup, h₂⟩
      · exact hfirst.trans (backupConfig_frame.apply hbackup)
      · have hsecond := hfirst.trans (backupConfig_frame.apply hbackup)
        rcases bind_error h₂ with hchange | ⟨config', d₃, hchange, h₃⟩
        · exact hsecond.trans ((Frame.ofExcept _).apply hchange)
        · have hthird := hsecond.trans ((Frame.ofExcept _).apply hchange)
          rcases bind_error h₃ with hwrite | ⟨_, d₄, -, h₄⟩
          · obtain ⟨e', hwrite'⟩ := mapError_error hwrite
            refine hthird.trans ((replace_error hwrite').mono ?_)
            rintro p rfl
            exact Or.inl rfl
          · cases h₄

/-- A config that cannot be read, or is refused, is left alone with everything else. -/
theorem rewriteFile_refused {r : Except ConfigError Path}
    (hrefused : ∀ config, readConfig d.files path = .ok config → refused config.1 = true)
    (h : rewriteFile refused update path d = (r, d')) : d'.files = d.files := by
  have hloadFrame : Frame ∅ (loadConfig path) := loadConfig_frame
  cases hload : loadConfig path d with
  | mk result d₁ =>
    have hsame : d₁.files = d.files := funext fun p => hloadFrame.apply hload p (Set.notMem_empty p)
    cases result with
    | error e =>
      rw [rewriteFile, bind_of_error hload] at h
      cases h
      exact hsame
    | ok config =>
      rw [rewriteFile, bind_of_ok hload] at h
      obtain ⟨-, hread, -⟩ := loadConfig_ok.mp hload
      rw [if_pos (hrefused config hread)] at h
      cases h
      exact hsame

/-- Cursor's project file is rewritten when its eight operations go through on a config that can be read and changed and
is not refused; otherwise it is left alone. -/
theorem rewriteCursorProject_cases {r : Except ConfigError Unit}
    (h : rewriteCursorProject setting options servers path d = (r, d')) :
    (∃ text config config', (∀ i < 8, d.outcomes i = .done) ∧ d.files path = some text ∧ text.read = .ok config ∧
        detectDoubleWrap setting "mcpServers" config.1 = false ∧
        rewriteMcpServersKey setting options servers "mcpServers" config.1 = .ok config'.1 ∧
        d'.files = rewritten d.files path text config') ∨
      ((¬ ((∀ i < 8, d.outcomes i = .done) ∧ ∃ config config' : AgentConfig, readConfig d.files path = .ok config ∧
          detectDoubleWrap setting "mcpServers" config.1 = false ∧
          rewriteMcpServersKey setting options servers "mcpServers" config.1 = .ok config'.1)) ∧
        Files.SameOutside (scratch path) d.files d'.files) := by
  cases hload : loadConfig path d with
  | mk result d₁ =>
    have hframe : Files.SameOutside (scratch path) d.files d₁.files := loadConfig_frame.apply hload
    have hattempt : attempt (loadConfig path) d = (.ok result, d₁) := by rw [attempt, hload]
    rw [rewriteCursorProject, bind_of_ok hattempt] at h
    cases result with
    | error e =>
      cases h
      refine Or.inr ⟨?_, hframe⟩
      rintro ⟨hdone, config, -, hread, -⟩
      rw [loadConfig_ok.mpr ⟨hdone 0 (by omega), hread, rfl⟩] at hload
      cases hload
    | ok config =>
      obtain ⟨h0, hread, rfl⟩ := loadConfig_ok.mp hload
      dsimp only at h
      split at h
      · cases hrewrite : standardRewrite setting options servers "mcpServers" path (d.after 1 d.files) with
        | mk result d₂ =>
          rw [bind_of_ok (by rw [attempt, hrewrite])] at h
          cases h
          cases result with
          | ok b =>
            obtain ⟨hdone, -, text, config₁, config', htext, hconfig₁, hrefused, hupdate, rfl⟩ :=
              rewriteFile_ok.mp hrewrite
            refine Or.inl ⟨text, config₁, config', fun i hi => ?_, htext, hconfig₁, hrefused, hupdate, rfl⟩
            cases i with
            | zero => exact h0
            | succ i => exact hdone i (by omega)
          | error e =>
            refine Or.inr ⟨?_, hframe.trans (rewriteFile_error hrewrite)⟩
            rintro ⟨hdone, config₁, config', hread₁, hrefused, hupdate⟩
            rw [readConfig] at hread₁
            split at hread₁
            · cases hread₁
            · next text htext =>
              have hok : standardRewrite setting options servers "mcpServers" path (d.after 1 d.files) =
                  (.ok (.backup path), (d.after 1 d.files).after 7 (rewritten d.files path text config')) :=
                rewriteFile_ok.mpr ⟨fun i hi => hdone (i + 1) (by omega), rfl, text, config₁, config', htext, hread₁,
                  hrefused, hupdate, rfl⟩
              rw [hok] at hrewrite
              cases hrewrite
      · next hnone =>
        cases h
        refine Or.inr ⟨?_, hframe⟩
        rintro ⟨-, config₁, config', hread₁, -, hupdate⟩
        rw [hread] at hread₁
        cases hread₁
        obtain ⟨fields, members, members', -, hget, -⟩ := rewriteKey_ok hupdate
        rw [hget] at hnone
        exact hnone rfl

theorem rewriteCursorProject_total (setting : Setting) (options : ShimOptions) (servers : List McpServerEntry)
    (path : Path) (d : Disk Path Text) :
    ∃ d', rewriteCursorProject setting options servers path d = (.ok (), d') := by
  cases hload : loadConfig path d with
  | mk result d₁ =>
    have hattempt : attempt (loadConfig path) d = (.ok result, d₁) := by rw [attempt, hload]
    rw [rewriteCursorProject, bind_of_ok hattempt]
    cases result with
    | error e => exact ⟨d₁, rfl⟩
    | ok config =>
      dsimp only
      split
      · exact ⟨(standardRewrite setting options servers "mcpServers" path d₁).2, rfl⟩
      · exact ⟨d₁, rfl⟩

theorem rewriteCursorProject_frame : Frame ({path} ∪ scratch path) (rewriteCursorProject setting options servers path) := by
  intro d
  cases h : rewriteCursorProject setting options servers path d with
  | mk r d' =>
    rcases rewriteCursorProject_cases h with ⟨text, config, config', -, -, -, -, -, hfiles⟩ | ⟨-, hframe⟩
    · dsimp only
      rw [hfiles]
      intro p hp
      exact rewritten_other (fun hs => hp (Or.inr hs)) (fun he => hp (Or.inl he))
    · exact hframe.mono Set.subset_union_right

/-- `rewrite_config` is the rewrite of the config itself, but for Claude Code without a directory and Cursor with one. -/
theorem rewriteConfig_eq {agent : AgentType} (hclaude : agent = .claudeCode → setting.cwd ≠ none)
    (hcursor : agent = .cursor → setting.cwd = none) :
    rewriteConfig setting options servers agent path = rewriteMain setting options servers agent path := by
  cases hcwd : setting.cwd with
  | none =>
    cases agent with
    | claudeCode => exact absurd hcwd (hclaude rfl)
    | _ => simp [rewriteConfig, hcwd]
  | some dir =>
    cases agent with
    | cursor =>
      rw [hcursor rfl] at hcwd
      cases hcwd
    | _ => simp [rewriteConfig, hcwd]

theorem rewriteConfig_cursor {dir : String} (hcwd : setting.cwd = some dir) :
    rewriteConfig setting options servers .cursor path = (do
      let backup ← rewriteMain setting options servers .cursor path
      rewriteCursorProject setting options servers (cursorProject dir)
      return backup) := by
  simp only [rewriteConfig, hcwd]

/-- The rewrite of the config itself, but for Claude Code without a directory. -/
theorem rewriteConfigFile_cases {agent : AgentType} {r : Except ConfigError Path}
    (h : rewriteConfigFile setting options servers agent path d = (r, d')) :
    ((∃ e, r = .error e) ∧ d' = d) ∨ rewriteMain setting options servers agent path d = (r, d') := by
  cases agent with
  | claudeCode =>
    cases hcwd : setting.cwd with
    | none =>
      simp only [rewriteConfigFile, hcwd] at h
      cases h
      exact Or.inl ⟨⟨_, rfl⟩, rfl⟩
    | some dir =>
      simp only [rewriteConfigFile, hcwd] at h
      exact Or.inr h
  | _ => exact Or.inr h

theorem rewriteProjectFile_cursor {dir : String} (hcwd : setting.cwd = some dir) :
    rewriteProjectFile setting options servers .cursor = rewriteCursorProject setting options servers (cursorProject dir) := by
  simp only [rewriteProjectFile, hcwd]

/-- The other adapters, and Cursor's without a directory, have no other file to rewrite. -/
theorem rewriteProjectFile_idle {agent : AgentType} (h : agent = .cursor → setting.cwd = none) :
    rewriteProjectFile setting options servers agent = pure () := by
  unfold rewriteProjectFile
  split
  · next dir hcwd =>
    rw [h rfl] at hcwd
    cases hcwd
  · rfl

/-- A rewrite has two parts, one for each file. -/
theorem rewriteConfig_parts (agent : AgentType) :
    rewriteConfig setting options servers agent path = (do
      let backup ← rewriteConfigFile setting options servers agent path
      rewriteProjectFile setting options servers agent
      return backup) := by
  by_cases hcursor : agent = .cursor → setting.cwd = none
  · have hone : rewriteConfig setting options servers agent path =
        rewriteConfigFile setting options servers agent path := by
      unfold rewriteConfig rewriteConfigFile
      cases agent with
      | cursor => simp only [hcursor rfl]
      | claudeCode => cases setting.cwd <;> rfl
      | _ => rfl
    rw [rewriteProjectFile_idle hcursor, hone]
    funext d
    cases hfile : rewriteConfigFile setting options servers agent path d with
    | mk r d₁ =>
      cases r with
      | error e => rw [bind_of_error hfile]
      | ok b =>
        rw [bind_of_ok hfile]
        rfl
  · obtain ⟨rfl, hsome⟩ := Classical.not_imp.mp hcursor
    obtain ⟨dir, hcwd⟩ := Option.ne_none_iff_exists'.mp hsome
    rw [rewriteConfig_cursor hcwd, rewriteProjectFile_cursor hcwd]
    simp only [rewriteConfigFile]

/-- A project file that cannot be read, has no servers or is rewritten already is left alone with everything else. -/
theorem rewriteCursorProject_idle {r : Except ConfigError Unit}
    (hidle : ∀ config, readConfig d.files path = .ok config →
      (config.1.get "mcpServers").bind Value.asObject = none ∨ detectDoubleWrap setting "mcpServers" config.1 = true)
    (h : rewriteCursorProject setting options servers path d = (r, d')) : d'.files = d.files := by
  have hloadFrame : Frame ∅ (loadConfig path) := loadConfig_frame
  cases hload : loadConfig path d with
  | mk result d₁ =>
    have hsame : d₁.files = d.files := funext fun p => hloadFrame.apply hload p (Set.notMem_empty p)
    have hattempt : attempt (loadConfig path) d = (.ok result, d₁) := by rw [attempt, hload]
    rw [rewriteCursorProject, bind_of_ok hattempt] at h
    cases result with
    | error e =>
      cases h
      exact hsame
    | ok config =>
      obtain ⟨-, hread, rfl⟩ := loadConfig_ok.mp hload
      dsimp only at h
      split at h
      · next hsome =>
        rcases hidle config hread with hnone | hdouble
        · rw [hnone] at hsome
          cases hsome
        · cases hrewrite : standardRewrite setting options servers "mcpServers" path (d.after 1 d.files) with
          | mk result d₂ =>
            rw [bind_of_ok (by rw [attempt, hrewrite])] at h
            cases h
            have hrefused : ∀ config₁, readConfig (d.after 1 d.files).files path = .ok config₁ →
                detectDoubleWrap setting "mcpServers" config₁.1 = true := by
              intro config₁ hread₁
              cases hread.symm.trans hread₁
              exact hdouble
            have hkept := rewriteFile_refused hrefused hrewrite
            exact hkept
      · cases h
        rfl

/-- What `rewrite_config` returns is what the rewrite of the config itself has returned. -/
theorem rewriteConfig_cases {agent : AgentType} {r : Except ConfigError Path}
    (h : rewriteConfig setting options servers agent path d = (r, d')) :
    (agent = .claudeCode ∧ setting.cwd = none ∧ (∃ e, r = .error e) ∧ d' = d) ∨
      (rewriteMain setting options servers agent path d = (r, d') ∧
        ((∃ e, r = .error e) ∨ (agent = .cursor → setting.cwd = none))) ∨
      ∃ dir b d₁, agent = .cursor ∧ setting.cwd = some dir ∧ r = .ok b ∧
        rewriteMain setting options servers agent path d = (.ok b, d₁) ∧
        rewriteCursorProject setting options servers (cursorProject dir) d₁ = (.ok (), d') := by
  by_cases hclaude : agent = .claudeCode ∧ setting.cwd = none
  · obtain ⟨rfl, hcwd⟩ := hclaude
    have hfail : rewriteConfig setting options servers .claudeCode path =
        fail (.parse "could not determine current working directory") := by simp only [rewriteConfig, hcwd]
    have heq := (congrFun hfail d).symm.trans h
    cases heq
    exact Or.inl ⟨rfl, hcwd, ⟨_, rfl⟩, rfl⟩
  · by_cases hcursor : agent = .cursor ∧ setting.cwd ≠ none
    · obtain ⟨rfl, hsome⟩ := hcursor
      obtain ⟨dir, hcwd⟩ := Option.ne_none_iff_exists'.mp hsome
      rw [rewriteConfig_cursor hcwd] at h
      cases hmain : rewriteMain setting options servers .cursor path d with
      | mk result d₁ =>
        cases result with
        | error e =>
          rw [bind_of_error hmain] at h
          cases h
          exact Or.inr (Or.inl ⟨rfl, Or.inl ⟨e, rfl⟩⟩)
        | ok b =>
          obtain ⟨d₂, hproject⟩ := rewriteCursorProject_total setting options servers (cursorProject dir) d₁
          rw [bind_of_ok hmain, bind_of_ok hproject] at h
          cases h
          exact Or.inr (Or.inr ⟨dir, b, d₁, rfl, hcwd, rfl, rfl, hproject⟩)
    · have hno : agent = .cursor → setting.cwd = none := fun hagent =>
        not_not.mp fun hne => hcursor ⟨hagent, hne⟩
      rw [rewriteConfig_eq (fun hagent hnone => hclaude ⟨hagent, hnone⟩) hno] at h
      exact Or.inr (Or.inl ⟨h, Or.inr hno⟩)

end

end ThoughtGate.Wrap
