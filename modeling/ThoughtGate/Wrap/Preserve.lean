import Mathlib.Data.List.Forall2
import ThoughtGate.Wrap.Coverage

/-!
# What a rewrite preserves

The shim is to start what the agent would have started, and nothing else of a config is to change. `Relaunches` compares
a rewritten entry with the entry that the agent had (`entryAt`), whose command and arguments are read off as they stand
there (`launchCommand`, `launchItems`); `Unchanged` is the frame of a config. Beside the servers that are not covered at
all, arguments that are not strings are dropped, and of Zed's entries the arguments beside a command string and the other
members of a command object are lost (`rewrite_preserves_iff`).
-/

namespace ThoughtGate.Wrap

/-! ### What an entry launches -/

/-- The command of an entry. -/
def launchCommand (agent : AgentType) (server : Value) : Option String :=
  match agent, server.get "command" with
  | .zed, some (.object members) => ((Value.object members).get "path").bind Value.asStr
  | _, command => command.bind Value.asStr

/-- The arguments of an entry. -/
def launchItems (agent : AgentType) (server : Value) : List Value :=
  match agent, server.get "command" with
  | .zed, some (.object members) => argItems (.object members)
  | _, _ => argItems server

/-- The shim's arguments up to the separator. -/
def shimHead (options : ShimOptions) (id : String) : List String :=
  ["shim", "--server-id", id, "--governance-endpoint", options.governanceEndpoint, "--profile",
    profileStr options.profile, "--"]

section

variable [ConfigText]

/-- A member of a file's object of servers. -/
def fileMember (files : Files Path Text) (path : Path) (id : String) : Option Value :=
  match readConfig files path with
  | .error _ => none
  | .ok config => ((config.1.get "mcpServers").bind Value.asObject).bind fun members => (Value.object members).get id

/-- The entry of the project's file. -/
def projectMember (agent : AgentType) (setting : Setting) (files : Files Path Text) (id : String) : Option Value :=
  match agent, setting.cwd with
  | .claudeCode, some dir => fileMember files (mcpJson dir) id
  | .cursor, some dir => fileMember files (cursorProject dir) id
  | _, _ => none

/-- The entry of a server: the project's file goes first. -/
def entryAt (agent : AgentType) (setting : Setting) (files : Files Path Text) (config : Value) (id : String) :
    Option Value :=
  if (projectEntries agent setting files config).any (·.id == id) then projectMember agent setting files id
  else (serversAt agent setting config).bind fun members => (Value.object members).get id

end

/-- The entry starts the shim, and after the separator stands what the other one launches, expanded. -/
def Relaunches (agent : AgentType) (setting : Setting) (options : ShimOptions) (id : String) (server : Value)
    (e : McpServerEntry) : Prop :=
  e.command = setting.shimBinary ∧
    ∃ command args command' args', launchCommand agent server = some command ∧
      launchItems agent server = args.map .string ∧ expander agent setting command = .ok command' ∧
      List.Forall₂ (fun a b => expander agent setting a = .ok b) args args' ∧
      e.args = shimHead options id ++ command' :: args'

/-! ### What stays -/

/-- The keys that lead to the object of servers. -/
def serversKeys (agent : AgentType) (setting : Setting) : List String :=
  match agent, setting.cwd with
  | .claudeCode, none => []
  | .claudeCode, some dir => ["projects", dir, "mcpServers"]
  | agent, _ => [agent.key]

/-- The value under a sequence of keys; what is missing counts as an empty object. -/
def memberAt : List String → Value → Value
  | [], v => v
  | key :: keys, v => memberAt keys ((v.get key).getD Value.emptyObject)

/-- Along a sequence of keys, all other members are the same. -/
def SameBeside : List String → Value → Value → Prop
  | [], _, _ => True
  | key :: keys, v, w => (∀ other ≠ key, w.get other = v.get other) ∧
      SameBeside keys ((v.get key).getD Value.emptyObject) ((w.get key).getD Value.emptyObject)

/-- Of an entry nothing but the command, the arguments and the shim's variables is changed. Zed has more in its command
than these. -/
structure SameButCall (agent : AgentType) (v w : Value) : Prop where
  fields : ∀ key, key ≠ "command" → key ≠ "args" → key ≠ "env" → w.get key = v.get key
  command : agent = .zed → ∀ key, key ≠ "path" → key ≠ "args" →
    (w.get "command").bind (·.get key) = (v.get "command").bind (·.get key)
  env : ∀ key, key ≠ "THOUGHTGATE_SERVER_ID" → key ≠ "THOUGHTGATE_CONFIG" →
    (w.get "env").bind (·.get key) = (v.get "env").bind (·.get key)
  other : ∀ u, v.get "env" = some u → u.asObject = none → w.get "env" = some u

/-- What becomes of the members of the object of servers: those that are listed keep all but their call. -/
def SameMember (agent : AgentType) (listed : Prop) : Option Value → Option Value → Prop
  | none, w => w = none
  | some v, w => ∃ v', w = some v' ∧ SameButCall agent v v' ∧ (¬ listed → v' = v)

/-- A config is unchanged but for the calls of the servers that are listed. -/
def Unchanged (agent : AgentType) (keys : List String) (servers : List McpServerEntry) (v w : Value) : Prop :=
  SameBeside keys v w ∧
    ∀ id, SameMember agent (∃ s ∈ servers, s.id = id) ((memberAt keys v).get id) ((memberAt keys w).get id)

section

variable [ConfigText]

/-- Every listed server is in the config that is read again, and relaunched as the agent had it. -/
def Launched (agent : AgentType) (setting : Setting) (options : ShimOptions) (path : Path)
    (servers : List McpServerEntry) (files files' : Files Path Text) : Prop :=
  ∃ config config' entries', readConfig files path = .ok config ∧ readConfig files' path = .ok config' ∧
    listServers agent setting files' config'.1 = .ok entries' ∧
    ∀ s ∈ servers, (∃ e ∈ entries', e.id = s.id) ∧ ∀ e ∈ entries', e.id = s.id →
      ∃ v, entryAt agent setting files config.1 s.id = some v ∧ Relaunches agent setting options s.id v e

/-- A rewrite preserves what is launched, and everything else: in the config, in Cursor's project file, in all other
files. -/
structure Preserved (agent : AgentType) (setting : Setting) (options : ShimOptions) (path : Path)
    (servers : List McpServerEntry) (files files' : Files Path Text) : Prop where
  launched : Launched agent setting options path servers files files'
  config : ∃ config config', readConfig files path = .ok config ∧ readConfig files' path = .ok config' ∧
    Unchanged agent (serversKeys agent setting) servers config.1 config'.1
  project : agent = .cursor → ∀ dir, setting.cwd = some dir → ∀ config, readConfig files (cursorProject dir) = .ok config →
    ∃ config', readConfig files' (cursorProject dir) = .ok config' ∧
      Unchanged agent ["mcpServers"] servers config.1 config'.1
  others : ∀ name, Path.file name ≠ path → (∀ dir, setting.cwd = some dir → Path.file name ≠ cursorProject dir) →
    files' (.file name) = files (.file name)

end

/-- An entry that can be put behind the separator as it is: its arguments are strings, and all that Zed's has are the
arguments that go with its command. -/
def Whole (agent : AgentType) (server : Value) : Prop :=
  (∀ item ∈ launchItems agent server, ∃ text, item = .string text) ∧
    (agent = .zed → (∀ command, server.get "command" = some (.string command) → argItems server = []) ∧
      ∀ key, key ≠ "path" → key ≠ "args" → (server.get "command").bind (·.get key) = none)

/-- What a rewrite preserves everything of: every listed server stands where the rewrite goes, and its entry is whole. -/
def Preservable [ConfigText] (agent : AgentType) (setting : Setting) (path : Path) (servers : List McpServerEntry)
    (d : Disk Path Text) : Prop :=
  Coverable agent setting path servers d ∧
    ∀ config, readConfig d.files path = .ok config → ∀ s ∈ servers, ∀ v,
      entryAt agent setting d.files config.1 s.id = some v → Whole agent v

/-! ### Calls -/

section

variable {agent : AgentType} {setting : Setting} {options : ShimOptions} {servers : List McpServerEntry}
  {shape : Shape} {v w : Value} {id command : String} {items : List Value} {s e : McpServerEntry}
  {fields members members' : List (String × Value)}

theorem launchCommand_of_ne (hzed : agent ≠ .zed) (v : Value) :
    launchCommand agent v = (v.get "command").bind Value.asStr := by
  unfold launchCommand
  split
  · exact absurd rfl hzed
  · rfl

theorem launchItems_of_ne (hzed : agent ≠ .zed) (v : Value) : launchItems agent v = argItems v := by
  unfold launchItems
  split
  · exact absurd rfl hzed
  · rfl

theorem stringCall_launch {missing : String → String} (hzed : agent ≠ .zed)
    (h : stringCall missing id v = .ok (command, items)) :
    launchCommand agent v = some command ∧ launchItems agent v = items := by
  rw [launchCommand_of_ne hzed, launchItems_of_ne hzed]
  exact stringCall_ok h

/-- What is read of an entry is what it launches, but that Zed's arguments beside a command string are not read. -/
theorem call_launch (h : agent.shape.call id v = .ok (command, items)) :
    launchCommand agent v = some command ∧
      (items = launchItems agent v ∨
        (agent = .zed ∧ v.get "command" = some (.string command) ∧ items = [] ∧ launchItems agent v = argItems v)) := by
  by_cases hzed : agent = .zed
  · subst hzed
    have hcall : zedCall id v = .ok (command, items) := h
    rw [zedCall] at hcall
    split at hcall
    · cases hcall
    · next command' hcommand =>
      cases hcall
      refine ⟨?_, Or.inr ⟨rfl, hcommand, rfl, ?_⟩⟩
      · simp only [launchCommand, hcommand]
        rfl
      · simp only [launchItems, hcommand]
    · next members hcommand =>
      split at hcall
      · cases hcall
      · next path hpath =>
        cases hcall
        refine ⟨?_, Or.inl ?_⟩
        · simp only [launchCommand, hcommand]
          exact hpath
        · simp only [launchItems, hcommand]
    · cases hcall
  · have hstring : launchCommand agent v = some command ∧ launchItems agent v = items := by
      cases agent with
      | zed => exact absurd rfl hzed
      | _ => exact stringCall_launch hzed h
    exact ⟨hstring.1, Or.inl hstring.2.symm⟩

/-- Texts that are read back from values are the values' texts when all of them are strings. -/
theorem filterMap_asStr_eq {texts : List String} (h : items = texts.map .string) : items.filterMap Value.asStr = texts := by
  rw [h, Shape.filterMap_asStr_map]

theorem exists_texts (h : ∀ item ∈ items, ∃ text, item = .string text) : ∃ texts : List String, items = texts.map .string := by
  induction items with
  | nil => exact ⟨[], rfl⟩
  | cons item items ih =>
    obtain ⟨text, rfl⟩ := h item List.mem_cons_self
    obtain ⟨texts, rfl⟩ := ih fun other hother => h other (List.mem_cons_of_mem _ hother)
    exact ⟨text :: texts, rfl⟩

theorem shimArgs_eq (options : ShimOptions) (s : McpServerEntry) :
    shimArgs options s = shimHead options s.id ++ s.command :: s.args := rfl

/-- A listed server whose entry starts the shim is relaunched as it was exactly when its entry is whole, but for the
members of Zed's command. -/
theorem relaunches_iff (hcall : agent.shape.call s.id v = .ok (command, items))
    (hcommand : expander agent setting command = .ok s.command)
    (hargs : List.Forall₂ (fun a b => expander agent setting a = .ok b) (items.filterMap Value.asStr) s.args)
    (hstarts : StartsShim setting options s e) :
    Relaunches agent setting options s.id v e ↔
      ((∀ item ∈ launchItems agent v, ∃ text, item = .string text) ∧
        (agent = .zed → ∀ command, v.get "command" = some (.string command) → argItems v = [])) := by
  obtain ⟨hlaunch, hitems⟩ := call_launch hcall
  constructor
  · rintro ⟨-, command₀, args, command', args', -, htexts, -, hexpand, heq⟩
    rw [hstarts.2, shimArgs_eq] at heq
    obtain ⟨-, hrest⟩ := List.cons.inj (List.append_cancel_left heq)
    refine ⟨fun item hitem => ?_, ?_⟩
    · rw [htexts] at hitem
      obtain ⟨text, -, rfl⟩ := List.mem_map.mp hitem
      exact ⟨text, rfl⟩
    · intro hzed command₁ hstring
      rcases hitems with hsame | ⟨-, -, rfl, hbeside⟩
      · -- a command string is read without arguments
        subst hzed
        have hread : zedCall s.id v = .ok (command, items) := hcall
        rw [zedCall, hstring] at hread
        cases hread
        have hbeside : launchItems .zed v = argItems v := by simp only [launchItems, hstring]
        rw [← hbeside, ← hsame]
      · rw [hrest] at hargs
        cases hargs
        cases hexpand
        rw [← hbeside, htexts]
        rfl
  · rintro ⟨hstrings, hzed⟩
    obtain ⟨texts, htexts⟩ := exists_texts hstrings
    refine ⟨hstarts.1, command, texts, s.command, s.args, hlaunch, htexts, hcommand, ?_, hstarts.2⟩
    rcases hitems with hsame | ⟨hagent, hstring, rfl, hbeside⟩
    · rw [hsame, filterMap_asStr_eq htexts] at hargs
      exact hargs
    · rw [hbeside, hzed hagent command hstring] at htexts
      rw [← filterMap_asStr_eq htexts]
      exact hargs

/-! ### The frame of an entry -/

theorem SameButCall.refl (agent : AgentType) (v : Value) : SameButCall agent v v :=
  ⟨fun _ _ _ _ => rfl, fun _ _ _ _ => rfl, fun _ _ _ => rfl, fun _ hu _ => hu⟩

theorem SameButCall.trans {u : Value} (huv : SameButCall agent u v) (hvw : SameButCall agent v w) :
    SameButCall agent u w where
  fields key hcommand hargs henv := (hvw.fields key hcommand hargs henv).trans (huv.fields key hcommand hargs henv)
  command hzed key hpath hargs := (hvw.command hzed key hpath hargs).trans (huv.command hzed key hpath hargs)
  env key hid hconfig := (hvw.env key hid hconfig).trans (huv.env key hid hconfig)
  other x hx hobject := hvw.other x (huv.other x hx hobject) hobject

/-- The variables of a rewritten entry. -/
theorem setEnv_env (options : ShimOptions) (id : String) (fields : List (String × Value)) :
    (∀ key, key ≠ "THOUGHTGATE_SERVER_ID" → key ≠ "THOUGHTGATE_CONFIG" →
      ((Value.object (setEnv options id fields)).get "env").bind (·.get key) =
        ((Value.object fields).get "env").bind (·.get key)) ∧
    ∀ u, (Value.object fields).get "env" = some u → u.asObject = none →
      (Value.object (setEnv options id fields)).get "env" = some u := by
  rw [setEnv]
  split
  · next members henv =>
    rw [Value.get_insertField_self]
    refine ⟨fun key hid hconfig => ?_, fun u hu hobject => ?_⟩
    · rw [Option.bind_some, shimEnv_get hid hconfig, ← henv, get_getD]
    · rw [hu, Option.getD_some] at henv
      rw [henv] at hobject
      cases hobject
  · exact ⟨fun _ _ _ => rfl, fun _ hu _ => hu⟩

/-- Zed's command of a rewritten entry has a path and arguments only. -/
theorem setZedCall_command {args : List String} {key : String} (hpath : key ≠ "path") (hargs : key ≠ "args") :
    ((Value.object (setZedCall command args fields)).get "command").bind (·.get key) = none := by
  rw [setZedCall, Value.get_insertField_self, Option.bind_some]
  simp [Value.get, hpath.symm, hargs.symm]

/-- A rewritten entry keeps all but its call, when Zed's command has no more than a path and arguments. -/
theorem sameButCall_wrapFields (s : McpServerEntry) :
    SameButCall agent (.object fields) (.object (agent.shape.wrapFields setting options s fields)) ↔
      (agent = .zed → ∀ key, key ≠ "path" → key ≠ "args" →
        ((Value.object fields).get "command").bind (·.get key) = none) := by
  have henv : (Value.object (agent.shape.setCall setting.shimBinary (shimArgs options s) fields)).get "env" =
      (Value.object fields).get "env" := agent.shape.setCall_get (by decide) (by decide)
  have hafter := setEnv_env options s.id
    (agent.shape.setCall setting.shimBinary (shimArgs options s) fields)
  rw [henv] at hafter
  have hcommand : agent = .zed → ∀ key, key ≠ "path" → key ≠ "args" →
      ((Value.object (agent.shape.wrapFields setting options s fields)).get "command").bind (·.get key) = none := by
    rintro rfl key hpath hargs
    rw [Shape.wrapFields, setEnv_get (by decide)]
    exact setZedCall_command hpath hargs
  constructor
  · intro h hzed key hpath hargs
    rw [← h.command hzed key hpath hargs, hcommand hzed key hpath hargs]
  · intro hbare
    exact {
      fields := fun key hcommand hargs henv => Shape.wrapFields_get hcommand hargs henv
      command := fun hzed key hpath hargs => by rw [hcommand hzed key hpath hargs, hbare hzed key hpath hargs]
      env := hafter.1
      other := hafter.2 }

/-! ### The frame of a config -/

theorem sameBeside_refl (keys : List String) (v : Value) : SameBeside keys v v := by
  induction keys generalizing v with
  | nil => trivial
  | cons key keys ih => exact ⟨fun _ _ => rfl, ih _⟩

theorem SameBeside.trans {keys : List String} {u : Value} (huv : SameBeside keys u v) (hvw : SameBeside keys v w) :
    SameBeside keys u w := by
  induction keys generalizing u v w with
  | nil => trivial
  | cons key keys ih => exact ⟨fun other hne => (hvw.1 other hne).trans (huv.1 other hne), ih huv.2 hvw.2⟩

theorem sameMember_refl (agent : AgentType) (listed : Prop) (v : Option Value) : SameMember agent listed v v := by
  cases v with
  | none => rfl
  | some v => exact ⟨v, rfl, SameButCall.refl agent v, fun _ => rfl⟩

theorem SameMember.trans {listed : Prop} {u v w : Option Value} (huv : SameMember agent listed u v)
    (hvw : SameMember agent listed v w) : SameMember agent listed u w := by
  cases u with
  | none =>
    have hv : v = none := huv
    subst hv
    exact hvw
  | some u =>
    obtain ⟨v', rfl, hu, hsame⟩ := huv
    obtain ⟨w', rfl, hv, hsame'⟩ := hvw
    exact ⟨w', rfl, hu.trans hv, fun hno => (hsame' hno).trans (hsame hno)⟩

theorem Unchanged.refl (agent : AgentType) (keys : List String) (servers : List McpServerEntry) (v : Value) :
    Unchanged agent keys servers v v := ⟨sameBeside_refl keys v, fun _ => sameMember_refl agent _ _⟩

theorem Unchanged.trans {keys : List String} {u : Value} (huv : Unchanged agent keys servers u v)
    (hvw : Unchanged agent keys servers v w) : Unchanged agent keys servers u w :=
  ⟨huv.1.trans hvw.1, fun id => (huv.2 id).trans (hvw.2 id)⟩

theorem rewriteKey_frame {key missing : String}
    (h : rewriteKey setting options servers shape key missing v = .ok w) :
    ∃ members members', memberAt [key] v = .object members ∧ memberAt [key] w = .object members' ∧
      shape.rewrite setting options servers members = .ok members' ∧ SameBeside [key] v w := by
  obtain ⟨fields, members, members', rfl, hget, hrewrite, rfl⟩ := rewriteKey_ok h
  refine ⟨members, members', ?_, ?_, hrewrite, fun other hne => Value.get_insertField_ne hne _ _, trivial⟩
  · rw [memberAt, hget]
    rfl
  · rw [memberAt, Value.get_insertField_self]
    rfl

theorem rewriteProjectServers_frame {dir : String}
    (h : rewriteProjectServers setting options servers dir v = .ok w) :
    ∃ members members', memberAt ["projects", dir, "mcpServers"] v = .object members ∧
      memberAt ["projects", dir, "mcpServers"] w = .object members' ∧
      projectShape.rewrite setting options servers members = .ok members' ∧
      SameBeside ["projects", dir, "mcpServers"] v w := by
  obtain ⟨fields, projects, project, members, members', rfl, hprojects, hproject, hmembers, hrewrite, rfl⟩ :=
    rewriteProjectServers_ok h
  refine ⟨members, members', ?_, ?_, hrewrite, fun other hne => Value.get_insertField_ne hne _ _, ?_⟩
  · simp only [memberAt]
    rw [hprojects, hproject, hmembers]
  · simp only [memberAt, Value.get_insertField_self, Option.getD_some]
  · rw [hprojects, Value.get_insertField_self, Option.getD_some]
    refine ⟨fun other hne => Value.get_insertField_ne hne _ _, ?_⟩
    rw [hproject, Value.get_insertField_self, Option.getD_some]
    exact ⟨fun other hne => Value.get_insertField_ne hne _ _, trivial⟩

theorem updated_frame (h : updated setting options servers agent v = .ok w) :
    ∃ members members', memberAt (serversKeys agent setting) v = .object members ∧
      memberAt (serversKeys agent setting) w = .object members' ∧
      agent.shape.rewrite setting options servers members = .ok members' ∧
      SameBeside (serversKeys agent setting) v w := by
  cases agent with
  | claudeCode =>
    cases hcwd : setting.cwd with
    | none =>
      rw [updated, hcwd] at h
      cases h
    | some dir =>
      rw [updated, hcwd] at h
      have hkeys : serversKeys .claudeCode setting = ["projects", dir, "mcpServers"] := by simp only [serversKeys, hcwd]
      rw [hkeys]
      exact rewriteProjectServers_frame h
  | _ =>
    simp only [serversKeys]
    exact rewriteKey_frame h

/-- A config is unchanged but for the calls, when Zed's commands have no more than a path and arguments. -/
theorem unchanged_updated (hnodup : (servers.map (·.id)).Nodup) (h : updated setting options servers agent v = .ok w) :
    Unchanged agent (serversKeys agent setting) servers v w ↔
      (agent = .zed → ∀ s ∈ servers, ∀ u, (memberAt (serversKeys agent setting) v).get s.id = some u →
        ∀ key, key ≠ "path" → key ≠ "args" → (u.get "command").bind (·.get key) = none) := by
  obtain ⟨members, members', hbefore, hafter, hrewrite, hbeside⟩ := updated_frame h
  have hget := Shape.rewrite_get hnodup hrewrite
  rw [Unchanged, hbefore, hafter]
  constructor
  · rintro ⟨-, hall⟩ hzed s hs u hu key hpath hargs
    have hmember := hall s.id
    rw [hget, find_server hnodup hs, hu] at hmember
    obtain ⟨u', hu', hsame, -⟩ := hmember
    cases u with
    | object fields =>
      cases hu'
      exact (sameButCall_wrapFields s).mp hsame hzed key hpath hargs
    | _ => rfl
  · intro hbare
    refine ⟨hbeside, fun id => ?_⟩
    rw [hget]
    cases hfind : servers.find? (·.id == id) with
    | none => exact sameMember_refl agent _ _
    | some s =>
      have hs := List.mem_of_find?_eq_some hfind
      have hid : s.id = id := by simpa using List.find?_some hfind
      cases hmember : (Value.object members).get id with
      | none => rfl
      | some u =>
        refine ⟨agent.shape.wrapped setting options s u, rfl, ?_, fun hno => absurd ⟨s, hs, hid⟩ hno⟩
        cases u with
        | object fields =>
          refine (sameButCall_wrapFields s).mpr fun hzed => ?_
          rw [← hid] at hmember
          exact hbare hzed s hs _ hmember
        | _ => exact SameButCall.refl agent _

theorem unchanged_cursor (hnodup : (servers.map (·.id)).Nodup)
    (h : rewriteMcpServersKey setting options servers "mcpServers" v = .ok w) :
    Unchanged .cursor ["mcpServers"] servers v w := by
  have hupdate : updated setting options servers .cursor v = .ok w := h
  have hkeys : serversKeys .cursor setting = ["mcpServers"] := by simp only [serversKeys, AgentType.key]
  rw [← hkeys]
  exact (unchanged_updated hnodup hupdate).mpr fun hzed => by cases hzed

end

/-! ### What is launched -/

section

variable [ConfigText] {agent : AgentType} {setting : Setting} {options : ShimOptions} {path backup : Path}
  {servers entries own : List McpServerEntry} {files files' : Files Path Text} {d d' : Disk Path Text}
  {config config' : AgentConfig} {s e : McpServerEntry} {v : Value}

theorem fileMember_of_entry (he : e ∈ fileEntries files path) :
    ∃ v, fileMember files path e.id = some v ∧ mcpServersShape.entry e.id v = .ok e := by
  obtain ⟨config, members, hread, hmembers, hparse⟩ := fileEntries_of_mem he
  obtain ⟨v, hmem, -, hentry⟩ := (Shape.mem_parse hparse).mp he
  refine ⟨v, ?_, hentry⟩
  rw [fileMember, hread]
  dsimp only
  rw [hmembers, Option.bind_some]
  cases members_keyed config.2 hmembers with
  | object hkeys _ => exact Value.get_of_mem hkeys hmem

/-- An entry of the project's file is read as the config's own are. -/
theorem projectMember_of_entry (he : e ∈ projectEntries agent setting files config.1) :
    ∃ v, projectMember agent setting files e.id = some v ∧ agent.shape.entry e.id v = .ok e := by
  cases hcwd : setting.cwd with
  | none =>
    rw [projectEntries_nil (fun _ => hcwd) (fun _ => hcwd)] at he
    cases he
  | some dir =>
    cases agent with
    | claudeCode =>
      rw [projectEntries_mcpJson hcwd] at he
      obtain ⟨v, hv, hentry⟩ := fileMember_of_entry (List.mem_of_mem_filter he)
      refine ⟨v, ?_, hentry⟩
      simp only [projectMember, hcwd]
      exact hv
    | cursor =>
      rw [projectEntries_cursor hcwd] at he
      obtain ⟨v, hv, hentry⟩ := fileMember_of_entry he
      refine ⟨v, ?_, hentry⟩
      simp only [projectMember, hcwd]
      exact hv
    | _ =>
      simp only [projectEntries] at he
      cases he

/-- The entry of a listed server, and what was read of it. -/
theorem listed_entry (hlist : listServers agent setting files config.1 = .ok entries) (he : e ∈ entries)
    (hexpand : expandServerEntryEnv (expander agent setting) e = .ok s) :
    ∃ v command items, entryAt agent setting files config.1 s.id = some v ∧
      agent.shape.call s.id v = .ok (command, items) ∧ expander agent setting command = .ok s.command ∧
      List.Forall₂ (fun a b => expander agent setting a = .ok b) (items.filterMap Value.asStr) s.args := by
  obtain ⟨own, hown, -, hmem⟩ := listServers_ok hlist
  obtain ⟨hcommand, hargs, hid⟩ := expandServerEntryEnv_ok hexpand
  have hentry : ∃ v, entryAt agent setting files config.1 e.id = some v ∧ agent.shape.entry e.id v = .ok e := by
    rcases (hmem e).mp he with ho | ⟨he, hnone⟩
    · obtain ⟨v, hv, hentry⟩ := projectMember_of_entry ho
      refine ⟨v, ?_, hentry⟩
      rw [entryAt, if_pos (List.any_eq_true.mpr ⟨e, ho, by simp⟩)]
      exact hv
    · rcases ownEntries_ok hown with ⟨-, rfl⟩ | ⟨members, hat, hparse⟩
      · cases he
      · obtain ⟨v, hv, -, hentry⟩ := (Shape.mem_parse hparse).mp he
        refine ⟨v, ?_, hentry⟩
        have hno : ¬ (projectEntries agent setting files config.1).any (·.id == e.id) = true := by
          intro hany
          obtain ⟨o, ho, hoid⟩ := List.any_eq_true.mp hany
          exact hnone o ho (by simpa using hoid)
        rw [entryAt, if_neg hno, hat, Option.bind_some]
        cases serversAt_keyed config.2 hat with
        | object hkeys _ => exact Value.get_of_mem hkeys hv
  obtain ⟨v, hv, hentry⟩ := hentry
  obtain ⟨items, hcall, heq⟩ := Shape.call_of_entry hentry
  rw [heq] at hargs
  rw [hid]
  exact ⟨v, e.command, items, hv, hcall, hcommand, hargs⟩

omit [ConfigText] in
/-- Of every adapter but Zed's, a server that is relaunched starts the shim with what was read. -/
theorem startsShim_of_relaunches {command : String} {items : List Value} (hzed : agent ≠ .zed)
    (hcall : agent.shape.call s.id v = .ok (command, items)) (hcommand : expander agent setting command = .ok s.command)
    (hargs : List.Forall₂ (fun a b => expander agent setting a = .ok b) (items.filterMap Value.asStr) s.args)
    (h : Relaunches agent setting options s.id v e) : StartsShim setting options s e := by
  obtain ⟨hshim, command₀, args, command', args', hlaunch, htexts, hexpand, hall, heq⟩ := h
  obtain ⟨hlaunch', hitems⟩ := call_launch hcall
  have hsame : items = launchItems agent v := hitems.resolve_right fun hno => hzed hno.1
  rw [hlaunch] at hlaunch'
  cases hlaunch'
  rw [hexpand] at hcommand
  cases hcommand
  rw [hsame, filterMap_asStr_eq htexts] at hargs
  have hunique : Relator.RightUnique fun a b => expander agent setting a = .ok b :=
    fun a b c hb hc => Except.ok.inj (hb.symm.trans hc)
  rw [List.right_unique_forall₂' hunique hall hargs] at heq
  exact ⟨hshim, heq⟩

/-- The read list of a config is unique. -/
theorem entryAt_launched (hparse : parseServers agent setting files path = .ok servers)
    (hread : readConfig files path = .ok config) (hs : s ∈ servers) :
    ∃ v command items, entryAt agent setting files config.1 s.id = some v ∧
      agent.shape.call s.id v = .ok (command, items) ∧ expander agent setting command = .ok s.command ∧
      List.Forall₂ (fun a b => expander agent setting a = .ok b) (items.filterMap Value.asStr) s.args := by
  obtain ⟨config₁, entries, hread₁, hlist, -, hlisted⟩ := parseServers_ok hparse
  rw [hread] at hread₁
  cases hread₁
  obtain ⟨e, he, hexpand⟩ := hlisted s hs
  exact listed_entry hlist he hexpand

/-- What is covered is relaunched when the arguments are strings that are all read. -/
theorem launched_iff (hparse : parseServers agent setting d.files path = .ok servers)
    (hread : readConfig d.files path = .ok config)
    (hcover : Covered agent setting options path servers files' ↔ Coverable agent setting path servers d) :
    Launched agent setting options path servers d.files files' ↔
      Coverable agent setting path servers d ∧ ∀ s ∈ servers, ∀ v,
        entryAt agent setting d.files config.1 s.id = some v →
          (∀ item ∈ launchItems agent v, ∃ text, item = .string text) ∧
            (agent = .zed → ∀ command, v.get "command" = some (.string command) → argItems v = []) := by
  constructor
  · rintro ⟨config₁, config', entries', hread₁, hread', hlist', hall⟩
    rw [hread] at hread₁
    cases hread₁
    have hcoverable : Coverable agent setting path servers d := by
      by_cases hzed : agent = .zed
      · subst hzed
        exact coverable_of_no_project (fun h => by cases h) (fun h => by cases h)
      · refine hcover.mp ⟨config', entries', hread', hlist', fun s hs => ⟨(hall s hs).1, fun e he hid => ?_⟩⟩
        obtain ⟨v, command, items, hv, hcall, hcommand, hargs⟩ := entryAt_launched hparse hread hs
        obtain ⟨v', hv', hrelaunch⟩ := (hall s hs).2 e he hid
        rw [hv] at hv'
        cases hv'
        exact startsShim_of_relaunches hzed hcall hcommand hargs hrelaunch
    refine ⟨hcoverable, fun s hs v hv => ?_⟩
    obtain ⟨config₂, entries₂, hread₂, hlist₂, hcovered⟩ := hcover.mpr hcoverable
    rw [hread'] at hread₂
    cases hread₂
    rw [hlist'] at hlist₂
    cases hlist₂
    obtain ⟨⟨e, he, hid⟩, hstarts⟩ := hcovered s hs
    obtain ⟨v₁, command, items, hv₁, hcall, hcommand, hargs⟩ := entryAt_launched hparse hread hs
    obtain ⟨v', hv', hrelaunch⟩ := (hall s hs).2 e he hid
    rw [hv] at hv₁ hv'
    cases hv₁
    cases hv'
    exact (relaunches_iff hcall hcommand hargs (hstarts e he hid)).mp hrelaunch
  · rintro ⟨hcoverable, hwhole⟩
    obtain ⟨config', entries', hread', hlist', hcovered⟩ := hcover.mpr hcoverable
    refine ⟨config, config', entries', hread, hread', hlist', fun s hs => ⟨(hcovered s hs).1, fun e he hid => ?_⟩⟩
    obtain ⟨v, command, items, hv, hcall, hcommand, hargs⟩ := entryAt_launched hparse hread hs
    exact ⟨v, hv, (relaunches_iff hcall hcommand hargs ((hcovered s hs).2 e he hid)).mpr (hwhole s hs v hv)⟩

theorem entryAt_zed (config : Value) (id : String) :
    entryAt .zed setting files config id = (memberAt (serversKeys .zed setting) config).get id := by
  have hnone : projectEntries .zed setting files config = [] :=
    projectEntries_nil (fun h => by cases h) (fun h => by cases h)
  have hkeys : serversKeys .zed setting = ["context_servers"] := by simp only [serversKeys, AgentType.key]
  rw [entryAt, hnone, hkeys, if_neg (by simp)]
  change ((config.get "context_servers").bind Value.asObject).bind _ = _
  rw [memberAt]
  cases config.get "context_servers" with
  | none => rfl
  | some v =>
    cases v with
    | object members => rfl
    | _ => rfl

/-- The rewrite of the config itself preserves it when its entries are whole. -/
theorem preserves_main_iff {name : String} (hparse : parseServers agent setting d.files (.file name) = .ok servers)
    (hmain : rewriteMain setting options servers agent (.file name) d = (.ok backup, d'))
    (hcursor : agent = .cursor → setting.cwd = none) :
    Preserved agent setting options (.file name) servers d.files d'.files ↔
      Preservable agent setting (.file name) servers d := by
  have hcover := covers_main_iff hparse hmain hcursor
  obtain ⟨text, config, config', hdone, rfl⟩ := mainRewritten hparse hmain
  have hread := hdone.read
  have hread' : readConfig (d.after 7 (rewritten d.files (.file name) text config')).files (.file name) = .ok config' :=
    readConfig_rewritten ..
  have hlaunched := launched_iff hparse hread hcover
  have hframe := unchanged_updated hdone.nodup hdone.update
  constructor
  · intro h
    obtain ⟨hcoverable, hstrings⟩ := hlaunched.mp h.launched
    refine ⟨hcoverable, fun config₁ hread₁ s hs v hv => ?_⟩
    rw [hread] at hread₁
    cases hread₁
    obtain ⟨hitems, hbeside⟩ := hstrings s hs v hv
    refine ⟨hitems, fun hzed => ⟨hbeside hzed, ?_⟩⟩
    obtain ⟨config₁, config₂, hread₁, hread₂, hunchanged⟩ := h.config
    rw [hread] at hread₁
    cases hread₁
    rw [hread'] at hread₂
    cases hread₂
    subst hzed
    rw [entryAt_zed] at hv
    exact hframe.mp hunchanged rfl s hs v hv
  · rintro ⟨hcoverable, hwhole⟩
    refine ⟨hlaunched.mpr ⟨hcoverable, fun s hs v hv => ?_⟩, ⟨config, config', hread, hread', hframe.mpr ?_⟩, ?_, ?_⟩
    · obtain ⟨hitems, hzed⟩ := hwhole config hread s hs v hv
      exact ⟨hitems, fun hagent => (hzed hagent).1⟩
    · rintro rfl s hs v hv
      rw [← entryAt_zed] at hv
      exact ((hwhole config hread s hs v hv).2 rfl).2
    · intro hagent dir hcwd
      rw [hcursor hagent] at hcwd
      cases hcwd
    · intro other hother _
      exact rewritten_other (file_not_mem_scratch _ _) hother

/-- What Cursor's adapter does to a file of the project, and to the others. -/
theorem rewriteCursorProject_unchanged (hnodup : (servers.map (·.id)).Nodup)
    (h : rewriteCursorProject setting options servers path d = (.ok (), d')) :
    (∀ config, readConfig d.files path = .ok config →
      ∃ config', readConfig d'.files path = .ok config' ∧ Unchanged .cursor ["mcpServers"] servers config.1 config'.1) ∧
    ∀ name, Path.file name ≠ path → d'.files (.file name) = d.files (.file name) := by
  rcases rewriteCursorProject_cases h with ⟨text, config₁, config', -, htext, hconfig, -, hupdate, hfiles⟩ | ⟨-, hframe⟩
  · refine ⟨fun config hread => ⟨config', ?_, ?_⟩, fun name hne => ?_⟩
    · rw [readConfig, hfiles, rewritten_config]
      rfl
    · rw [readConfig, htext] at hread
      cases hconfig.symm.trans hread
      exact unchanged_cursor hnodup hupdate
    · rw [hfiles]
      exact rewritten_other (file_not_mem_scratch _ _) hne
  · refine ⟨fun config hread => ⟨config, ?_, Unchanged.refl _ _ _ _⟩, fun name _ => hframe _ (file_not_mem_scratch _ _)⟩
    rw [readConfig_eq (hframe _ (not_mem_scratch path)), hread]

/-- Cursor's adapter preserves its config and the project's file when the entries are whole and covered. -/
theorem preserves_cursor_iff {name dir : String} {d₁ : Disk Path Text} (hcwd : setting.cwd = some dir)
    (hparse : parseServers .cursor setting d.files (.file name) = .ok servers)
    (hmain : rewriteMain setting options servers .cursor (.file name) d = (.ok backup, d₁))
    (hproject : rewriteCursorProject setting options servers (cursorProject dir) d₁ = (.ok (), d')) :
    Preserved .cursor setting options (.file name) servers d.files d'.files ↔
      Preservable .cursor setting (.file name) servers d := by
  have hcover := covers_cursor_iff hcwd hparse hmain hproject
  obtain ⟨text, config, config', hdone, rfl⟩ := mainRewritten hparse hmain
  have hread := hdone.read
  have hfirst := readConfig_rewritten name d.files text config'
  have hunchanged : Unchanged .cursor ["mcpServers"] servers config.1 config'.1 :=
    unchanged_cursor hdone.nodup hdone.update
  obtain ⟨hfile, hothers⟩ := rewriteCursorProject_unchanged hdone.nodup hproject
  -- the config, which may be the project's file
  have hafter : ∃ config₂, readConfig d'.files (.file name) = .ok config₂ ∧
      Unchanged .cursor ["mcpServers"] servers config.1 config₂.1 := by
    by_cases hpath : Path.file name = cursorProject dir
    · rw [← hpath] at hfile
      obtain ⟨config₂, hread₂, hsame⟩ := hfile config' hfirst
      exact ⟨config₂, hread₂, hunchanged.trans hsame⟩
    · exact ⟨config', by rw [readConfig_eq (hothers name hpath), Disk.after_files, hfirst], hunchanged⟩
  have hlaunched := launched_iff hparse hread hcover
  constructor
  · intro h
    obtain ⟨hcoverable, hstrings⟩ := hlaunched.mp h.launched
    refine ⟨hcoverable, fun config₁ hread₁ s hs v hv => ?_⟩
    rw [hread] at hread₁
    cases hread₁
    exact ⟨(hstrings s hs v hv).1, fun h => by cases h⟩
  · rintro ⟨hcoverable, hwhole⟩
    obtain ⟨config₂, hread₂, hsame⟩ := hafter
    refine ⟨hlaunched.mpr ⟨hcoverable, fun s hs v hv => ?_⟩, ⟨config, config₂, hread, hread₂, hsame⟩, ?_, ?_⟩
    · exact ⟨(hwhole config hread s hs v hv).1, fun h => by cases h⟩
    · intro _ dir' hcwd' project hproject'
      rw [hcwd] at hcwd'
      cases hcwd'
      by_cases hpath : cursorProject dir = .file name
      · rw [hpath] at hproject' ⊢
        rw [hread] at hproject'
        cases hproject'
        exact ⟨config₂, hread₂, hsame⟩
      · refine hfile project ?_
        have hother : rewritten d.files (.file name) text config' (cursorProject dir) = d.files (cursorProject dir) :=
          rewritten_other (file_not_mem_scratch _ _) hpath
        rw [Disk.after_files, readConfig_eq hother]
        exact hproject'
    · intro other hother hproject'
      rw [hothers other (hproject' dir hcwd), Disk.after_files]
      exact rewritten_other (file_not_mem_scratch _ _) hother

/-- After a rewrite that has returned `Ok` every listed server is launched as before, behind the shim, and nothing else is
changed, exactly when the servers stand where the rewrite goes and their entries are whole. -/
theorem rewrite_preserves_iff {name : String}
    (hparse : parseServers agent setting d.files (.file name) = .ok servers)
    (hrewrite : rewriteConfig setting options servers agent (.file name) d = (.ok backup, d')) :
    Preserved agent setting options (.file name) servers d.files d'.files ↔
      Preservable agent setting (.file name) servers d := by
  rcases rewriteConfig_cases hrewrite with ⟨-, -, ⟨e, he⟩, -⟩ | ⟨hmain, ⟨e, he⟩ | hcursor⟩ |
    ⟨dir, b, d₁, rfl, hcwd, hb, hmain, hproject⟩
  · cases he
  · cases he
  · exact preserves_main_iff hparse hmain hcursor
  · exact preserves_cursor_iff hcwd hparse hmain hproject

end

namespace Sample

/-- `{"context_servers": {"fs": {"command": "npx", "args": ["server-fs"]}}}`. -/
def zedConfig : AgentConfig :=
  ⟨.object [("context_servers", .object [("fs", .object [("command", .string "npx"),
      ("args", .array [.string "server-fs"])])])],
    .cons (by decide) (.cons (by decide) (.cons (by decide) (.string "npx")
      (.cons (by decide) (.strings ["server-fs"]) .emptyObject)) .emptyObject) .emptyObject⟩

/-- Zed's settings. -/
def zedFiles : Files Path Text
  | .file "/home/settings.json" => some (.printed zedConfig)
  | _ => none

end Sample

attribute [local instance] Sample.noText

/-- Claude Desktop's config is preserved. -/
theorem rewrite_preserves_sample :
    ∃ servers d', servers ≠ [] ∧ parseServers .claudeDesktop Sample.setting Sample.configOnly (.file "/home/mcp.json") =
        .ok servers ∧
      rewriteConfig Sample.setting Sample.options servers .claudeDesktop (.file "/home/mcp.json")
        ⟨Sample.configOnly, fun _ => .done⟩ = (.ok (.backup (.file "/home/mcp.json")), d') ∧
      Preserved .claudeDesktop Sample.setting Sample.options (.file "/home/mcp.json") servers Sample.configOnly
        d'.files := by
  have hparse : parseServers .claudeDesktop Sample.setting Sample.configOnly (.file "/home/mcp.json") =
      .ok [⟨"fs", "npx", [], none, true⟩] := rfl
  have hok : (rewriteConfig Sample.setting Sample.options [⟨"fs", "npx", [], none, true⟩] .claudeDesktop
      (.file "/home/mcp.json") ⟨Sample.configOnly, fun _ => .done⟩).1 = .ok (.backup (.file "/home/mcp.json")) := rfl
  refine ⟨_, _, by simp, hparse, Prod.ext hok rfl,
    (rewrite_preserves_iff (d := ⟨Sample.configOnly, fun _ => .done⟩) hparse (Prod.ext hok rfl)).mpr ⟨trivial, ?_⟩⟩
  intro config hread s hs v hv
  cases hread
  rw [List.mem_singleton.mp hs] at hv
  cases hv
  exact ⟨fun item hitem => (by cases hitem), fun hzed => (by cases hzed)⟩

/-- Zed's entry has its arguments beside a command string: they are not put behind the separator, and are not read any
more. -/
theorem rewrite_drops_arguments :
    ∃ servers d', parseServers .zed Sample.setting Sample.zedFiles (.file "/home/settings.json") = .ok servers ∧
      rewriteConfig Sample.setting Sample.options servers .zed (.file "/home/settings.json")
        ⟨Sample.zedFiles, fun _ => .done⟩ = (.ok (.backup (.file "/home/settings.json")), d') ∧
      (parseServers .zed Sample.setting d'.files (.file "/home/settings.json")).map (·.map McpServerEntry.args) =
        .ok [shimHead Sample.options "fs" ++ ["npx"]] ∧
      ¬ Preserved .zed Sample.setting Sample.options (.file "/home/settings.json") servers Sample.zedFiles d'.files := by
  have hparse : parseServers .zed Sample.setting Sample.zedFiles (.file "/home/settings.json") =
      .ok [⟨"fs", "npx", [], none, true⟩] := rfl
  have hok : (rewriteConfig Sample.setting Sample.options [⟨"fs", "npx", [], none, true⟩] .zed
      (.file "/home/settings.json") ⟨Sample.zedFiles, fun _ => .done⟩).1 =
        .ok (.backup (.file "/home/settings.json")) := rfl
  refine ⟨_, _, hparse, Prod.ext hok rfl, rfl, fun hpreserved => ?_⟩
  have hmain := (congrFun (rewriteConfig_eq (fun h => by cases h) (fun h => by cases h)) _).symm.trans
    (Prod.ext hok rfl)
  obtain ⟨-, hwhole⟩ := (preserves_main_iff (d := ⟨Sample.zedFiles, fun _ => .done⟩) hparse hmain
    (fun h => by cases h)).mp hpreserved
  have hargs := ((hwhole Sample.zedConfig rfl _ (List.mem_singleton_self _) _ rfl).2 rfl).1 "npx" rfl
  cases hargs

end ThoughtGate.Wrap
