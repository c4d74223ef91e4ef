import ThoughtGate.Wrap.Types

/-!
# The entries of a config

How the adapters of `wrap/config_adapter` read the entries of an object of servers, and how they rewrite them. The four
ways are one definition with parameters (`Shape`): which entries are taken, where the command and the arguments stand,
what is said when they are missing. What a rewritten entry reads as, and what of it is not touched, is a field of the
shape; `Shape.rewrite_get` says it of the whole object.
-/

namespace ThoughtGate.Wrap

/-! ### Reading an entry -/

/-- The items of an entry's `args`. -/
def argItems (server : Value) : List Value := ((server.get "args").bind Value.asArray).getD []

/-- The strings among the members of an entry's `env`. -/
def envOf (server : Value) : Option (List (String × String)) :=
  ((server.get "env").bind Value.asObject).map fun members =>
    members.filterMap fun member => member.2.asStr.map fun text => (member.1, text)

/-- An entry is enabled unless `disabled` is `true`. -/
def enabledOf (server : Value) : Bool := !((server.get "disabled").bind Value.asBool).getD false

/-- The entry's `type` is `stdio`; what an entry without a type counts as is the adapter's. -/
def isStdio (default : String) (server : Value) : Bool := ((server.get "type").bind Value.asStr).getD default == "stdio"

/-- The command is a string, with `args` beside it. -/
def stringCall (missing : String → String) (id : String) (server : Value) : Except ConfigError (String × List Value) :=
  match (server.get "command").bind Value.asStr with
  | none => .error (.parse (missing id))
  | some command => .ok (command, argItems server)

/-- The command is a string, and then without arguments, or an object with `path` and `args`. -/
def zedCall (id : String) (server : Value) : Except ConfigError (String × List Value) :=
  match server.get "command" with
  | none => .error (.parse ("context server `" ++ id ++ "` missing `command` field"))
  | some (.string command) => .ok (command, [])
  | some (.object members) =>
    match ((Value.object members).get "path").bind Value.asStr with
    | none => .error (.parse ("context server `" ++ id ++ "` has command object without `path`"))
    | some path => .ok (path, argItems (.object members))
  | some _ => .error (.parse ("context server `" ++ id ++ "` has invalid `command` field type"))

/-! ### Rewriting an entry -/

/-- The name of a profile on the shim's command line. -/
def profileStr : Profile → String
  | .production => "production"
  | .development => "development"

/-- The arguments of the shim that starts this server. -/
def shimArgs (options : ShimOptions) (server : McpServerEntry) : List String :=
  ["shim", "--server-id", server.id, "--governance-endpoint", options.governanceEndpoint, "--profile",
    profileStr options.profile, "--", server.command] ++ server.args

/-- The members that a rewrite puts into an environment. -/
def shimEnv (options : ShimOptions) (id : String) (members : List (String × Value)) : List (String × Value) :=
  let members := Value.insertField "THOUGHTGATE_SERVER_ID" (.string id) members
  match options.configPath with
  | none => members
  | some path => Value.insertField "THOUGHTGATE_CONFIG" (.string path) members

/-- `entry("env").or_insert({})`, and its new members if it is an object. -/
def setEnv (options : ShimOptions) (id : String) (fields : List (String × Value)) : List (String × Value) :=
  match ((Value.object fields).get "env").getD Value.emptyObject with
  | .object members => Value.insertField "env" (.object (shimEnv options id members)) fields
  | _ => fields

/-- `command` and `args` are put beside each other. -/
def setCall (command : String) (args : List String) (fields : List (String × Value)) : List (String × Value) :=
  Value.insertField "args" (.array (args.map .string)) (Value.insertField "command" (.string command) fields)

/-- `command` becomes an object with `path` and `args`. -/
def setZedCall (command : String) (args : List String) (fields : List (String × Value)) : List (String × Value) :=
  Value.insertField "command" (.object [("path", .string command), ("args", .array (args.map .string))]) fields

variable {options : ShimOptions} {id command : String} {args : List String} {fields members : List (String × Value)}

theorem setEnv_get {key : String} (hkey : key ≠ "env") :
    (Value.object (setEnv options id fields)).get key = (Value.object fields).get key := by
  rw [setEnv]
  split
  · exact Value.get_insertField_ne hkey _ _
  · rfl

theorem shimEnv_get {key : String} (hid : key ≠ "THOUGHTGATE_SERVER_ID") (hconfig : key ≠ "THOUGHTGATE_CONFIG") :
    (Value.object (shimEnv options id members)).get key = (Value.object members).get key := by
  rw [shimEnv]
  split
  · exact Value.get_insertField_ne hid _ _
  · rw [Value.get_insertField_ne hconfig, Value.get_insertField_ne hid]

theorem setCall_get {key : String} (hcommand : key ≠ "command") (hargs : key ≠ "args") :
    (Value.object (setCall command args fields)).get key = (Value.object fields).get key := by
  rw [setCall, Value.get_insertField_ne hargs, Value.get_insertField_ne hcommand]

theorem setZedCall_get {key : String} (hcommand : key ≠ "command") :
    (Value.object (setZedCall command args fields)).get key = (Value.object fields).get key :=
  Value.get_insertField_ne hcommand _ _

theorem shimEnv_keyed (h : (Value.object members).Keyed) : (Value.object (shimEnv options id members)).Keyed := by
  have hid := h.insertField "THOUGHTGATE_SERVER_ID" (Value.Keyed.string id)
  rw [shimEnv]
  split
  · exact hid
  · exact hid.insertField _ (Value.Keyed.string _)

theorem setEnv_keyed (h : (Value.object fields).Keyed) : (Value.object (setEnv options id fields)).Keyed := by
  rw [setEnv]
  split
  · next members henv =>
    refine h.insertField _ (shimEnv_keyed ?_)
    rw [← henv]
    cases hget : (Value.object fields).get "env" with
    | none => exact Value.Keyed.emptyObject
    | some v => exact h.get hget
  · exact h

theorem setCall_keyed (h : (Value.object fields).Keyed) : (Value.object (setCall command args fields)).Keyed :=
  (h.insertField _ (Value.Keyed.string command)).insertField _ (Value.Keyed.strings args)

theorem setZedCall_keyed (h : (Value.object fields).Keyed) : (Value.object (setZedCall command args fields)).Keyed := by
  refine h.insertField _ (Value.Keyed.object (by decide : ["path", "args"].Nodup) ?_)
  simp only [List.mem_cons, List.not_mem_nil, or_false, forall_eq_or_imp, forall_eq]
  exact ⟨Value.Keyed.string command, Value.Keyed.strings args⟩

/-! ### Shapes -/

/-- How an adapter's entries are read and rewritten. What is written is read back; what is read depends on these members
only, and of the others nothing is touched. -/
structure Shape where
  takes : Value → Bool
  call : String → Value → Except ConfigError (String × List Value)
  enabled : Value → Bool
  setCall : String → List String → List (String × Value) → List (String × Value)
  takes_congr : ∀ {v w : Value}, w.get "type" = v.get "type" → takes w = takes v
  call_congr : ∀ {v w : Value} (id : String), w.get "command" = v.get "command" → w.get "args" = v.get "args" →
    call id w = call id v
  command_of_call : ∀ {v : Value} {id : String} {c : String × List Value}, call id v = .ok c →
    (v.get "command").isSome = true
  call_setCall : ∀ (id command : String) (args : List String) (fields : List (String × Value)),
    call id (.object (setCall command args fields)) = .ok (command, args.map .string)
  setCall_get : ∀ {command : String} {args : List String} {fields : List (String × Value)} {key : String},
    key ≠ "command" → key ≠ "args" → (Value.object (setCall command args fields)).get key = (Value.object fields).get key
  setCall_keyed : ∀ {command : String} {args : List String} {fields : List (String × Value)},
    (Value.object fields).Keyed → (Value.object (setCall command args fields)).Keyed

theorem isStdio_congr {default : String} {v w : Value} (h : w.get "type" = v.get "type") :
    isStdio default w = isStdio default v := by rw [isStdio, isStdio, h]

theorem stringCall_congr {missing : String → String} {v w : Value} (id : String)
    (hcommand : w.get "command" = v.get "command") (hargs : w.get "args" = v.get "args") :
    stringCall missing id w = stringCall missing id v := by
  rw [stringCall, stringCall, hcommand, argItems, argItems, hargs]

theorem command_of_stringCall {missing : String → String} {v : Value} {id : String} {c : String × List Value}
    (h : stringCall missing id v = .ok c) : (v.get "command").isSome = true := by
  rw [stringCall] at h
  cases hget : v.get "command" with
  | none =>
    rw [hget] at h
    cases h
  | some _ => rfl

theorem stringCall_ok {missing : String → String} {v : Value} {id command : String} {items : List Value}
    (h : stringCall missing id v = .ok (command, items)) :
    (v.get "command").bind Value.asStr = some command ∧ argItems v = items := by
  rw [stringCall] at h
  split at h
  · cases h
  · next command' hcommand =>
    cases h
    exact ⟨hcommand, rfl⟩

theorem stringCall_setCall {missing : String → String} (id command : String) (args : List String)
    (fields : List (String × Value)) :
    stringCall missing id (.object (setCall command args fields)) = .ok (command, args.map .string) := by
  have hcommand : (Value.object (setCall command args fields)).get "command" = some (.string command) := by
    rw [setCall, Value.get_insertField_ne (by decide), Value.get_insertField_self]
  have hargs : (Value.object (setCall command args fields)).get "args" = some (.array (args.map .string)) :=
    Value.get_insertField_self ..
  rw [stringCall, hcommand, argItems, hargs]
  rfl

theorem zedCall_congr {v w : Value} (id : String) (hcommand : w.get "command" = v.get "command") :
    zedCall id w = zedCall id v := by rw [zedCall, zedCall, hcommand]

theorem command_of_zedCall {v : Value} {id : String} {c : String × List Value} (h : zedCall id v = .ok c) :
    (v.get "command").isSome = true := by
  rw [zedCall] at h
  cases hget : v.get "command" with
  | none =>
    rw [hget] at h
    cases h
  | some _ => rfl

theorem zedCall_setZedCall (id command : String) (args : List String) (fields : List (String × Value)) :
    zedCall id (.object (setZedCall command args fields)) = .ok (command, args.map .string) := by
  have hcommand : (Value.object (setZedCall command args fields)).get "command" =
      some (.object [("path", .string command), ("args", .array (args.map .string))]) := Value.get_insertField_self ..
  rw [zedCall, hcommand]
  rfl

/-- Entries whose command is a string. -/
def stringShape (takes : Value → Bool) (missing : String → String) (enabled : Value → Bool)
    (takes_congr : ∀ {v w : Value}, w.get "type" = v.get "type" → takes w = takes v) : Shape where
  takes := takes
  call := stringCall missing
  enabled := enabled
  setCall := setCall
  takes_congr := takes_congr
  call_congr := stringCall_congr
  command_of_call := command_of_stringCall
  call_setCall := stringCall_setCall
  setCall_get := setCall_get
  setCall_keyed := setCall_keyed

/-- `parse_mcp_servers_key`. -/
def mcpServersShape : Shape :=
  stringShape (fun _ => true) (fun id => "server `" ++ id ++ "` missing `command` field") enabledOf fun _ => rfl

/-- `parse_project_servers`. -/
def projectShape : Shape :=
  stringShape (isStdio "stdio") (fun id => "server `" ++ id ++ "` missing `command` field") enabledOf isStdio_congr

/-- `VsCodeAdapter::parse_servers`. -/
def vsCodeShape : Shape :=
  stringShape (isStdio "") (fun id => "stdio server `" ++ id ++ "` missing `command` field") (fun _ => true)
    isStdio_congr

/-- `ZedAdapter::parse_servers`. -/
def zedShape : Shape where
  takes _ := true
  call := zedCall
  enabled _ := true
  setCall := setZedCall
  takes_congr _ := rfl
  call_congr id hcommand _ := zedCall_congr id hcommand
  command_of_call := command_of_zedCall
  call_setCall := zedCall_setZedCall
  setCall_get hcommand _ := setZedCall_get hcommand
  setCall_keyed := setZedCall_keyed

namespace Shape

/-- One entry. -/
def entry (shape : Shape) (id : String) (server : Value) : Except ConfigError McpServerEntry :=
  match shape.call id server with
  | .error e => .error e
  | .ok (command, items) =>
    .ok ⟨id, command, items.filterMap Value.asStr, envOf server, shape.enabled server⟩

/-- The loop over the members of the object of servers. -/
def parse (shape : Shape) : List (String × Value) → Except ConfigError (List McpServerEntry)
  | [] => .ok []
  | (id, server) :: members =>
    if shape.takes server then
      match shape.entry id server with
      | .error e => .error e
      | .ok e =>
        match shape.parse members with
        | .error e => .error e
        | .ok entries => .ok (e :: entries)
    else shape.parse members

/-- The members of an entry that starts the shim. -/
def wrapFields (shape : Shape) (setting : Setting) (options : ShimOptions) (server : McpServerEntry)
    (fields : List (String × Value)) : List (String × Value) :=
  setEnv options server.id (shape.setCall setting.shimBinary (shimArgs options server) fields)

/-- The loop over the servers, on the object of servers. -/
def rewrite (shape : Shape) (setting : Setting) (options : ShimOptions) :
    List McpServerEntry → List (String × Value) → Except ConfigError (List (String × Value))
  | [], members => .ok members
  | server :: servers, members =>
    match (Value.object members).get server.id with
    | none => shape.rewrite setting options servers members
    | some (.object fields) =>
      shape.rewrite setting options servers
        (Value.insertField server.id (.object (shape.wrapFields setting options server fields)) members)
    | some _ => .error (.parse ("server `" ++ server.id ++ "` is not a JSON object"))

/-- What the rewrite makes of the entry of a server. -/
def wrapped (shape : Shape) (setting : Setting) (options : ShimOptions) (server : McpServerEntry) : Value → Value
  | .object fields => .object (shape.wrapFields setting options server fields)
  | v => v

variable {shape : Shape} {setting : Setting} {servers entries : List McpServerEntry} {members' : List (String × Value)}
  {server : Value} {e : McpServerEntry}

theorem entry_id (h : shape.entry id server = .ok e) : e.id = id := by
  rw [entry] at h
  split at h
  · cases h
  · cases h
    rfl

theorem entry_of_call {items : List Value} (h : shape.call id server = .ok (command, items)) :
    shape.entry id server = .ok ⟨id, command, items.filterMap Value.asStr, envOf server, shape.enabled server⟩ := by
  rw [entry, h]

theorem call_of_entry (h : shape.entry id server = .ok e) :
    ∃ items, shape.call id server = .ok (e.command, items) ∧ e.args = items.filterMap Value.asStr := by
  rw [entry] at h
  split at h
  · cases h
  · next command items hcall =>
    cases h
    exact ⟨items, hcall, rfl⟩

theorem parse_cons (hparse : shape.parse ((id, server) :: members) = .ok entries) :
    (shape.takes server = false ∧ shape.parse members = .ok entries) ∨
      ∃ e rest, shape.takes server = true ∧ shape.entry id server = .ok e ∧ shape.parse members = .ok rest ∧
        entries = e :: rest := by
  rw [parse] at hparse
  split at hparse
  · next htakes =>
    split at hparse
    · cases hparse
    · next e hentry =>
      split at hparse
      · cases hparse
      · next rest hrest =>
        cases hparse
        exact Or.inr ⟨e, rest, htakes, hentry, hrest, rfl⟩
  · next htakes => exact Or.inl ⟨by simpa using htakes, hparse⟩

/-- What is parsed are the entries that are taken. -/
theorem mem_parse (hparse : shape.parse members = .ok entries) :
    e ∈ entries ↔ ∃ server, (e.id, server) ∈ members ∧ shape.takes server = true ∧ shape.entry e.id server = .ok e := by
  induction members generalizing entries with
  | nil =>
    cases hparse
    simp
  | cons member members ih =>
    obtain ⟨id, server⟩ := member
    rcases parse_cons hparse with ⟨htakes, hrest⟩ | ⟨e', rest, htakes, hentry, hrest, rfl⟩
    · rw [ih hrest]
      constructor
      · rintro ⟨v, hv, hv'⟩
        exact ⟨v, List.mem_cons_of_mem _ hv, hv'⟩
      · rintro ⟨v, hv, htaken, hv'⟩
        rcases List.mem_cons.mp hv with heq | hv
        · cases heq
          rw [htakes] at htaken
          cases htaken
        · exact ⟨v, hv, htaken, hv'⟩
    · rw [List.mem_cons, ih hrest]
      constructor
      · rintro (rfl | ⟨v, hv, hv'⟩)
        · have hid := entry_id hentry
          subst hid
          exact ⟨server, List.mem_cons_self, htakes, hentry⟩
        · exact ⟨v, List.mem_cons_of_mem _ hv, hv'⟩
      · rintro ⟨v, hv, htaken, hv'⟩
        rcases List.mem_cons.mp hv with heq | hv
        · cases heq
          rw [hentry] at hv'
          exact Or.inl (Except.ok.inj hv').symm
        · exact Or.inr ⟨v, hv, htaken, hv'⟩

/-- Every entry that is taken is read. -/
theorem parse_entry (hparse : shape.parse members = .ok entries) (hmem : (id, server) ∈ members)
    (htakes : shape.takes server = true) : ∃ e ∈ entries, shape.entry id server = .ok e := by
  induction members generalizing entries with
  | nil => cases hmem
  | cons member members ih =>
    obtain ⟨id', server'⟩ := member
    rcases parse_cons hparse with ⟨hskipped, hrest⟩ | ⟨e, rest, -, hentry, hrest, rfl⟩
    · rcases List.mem_cons.mp hmem with heq | htail
      · cases heq
        rw [hskipped] at htakes
        cases htakes
      · exact ih hrest htail
    · rcases List.mem_cons.mp hmem with heq | htail
      · cases heq
        exact ⟨e, List.mem_cons_self, hentry⟩
      · obtain ⟨e', he', hentry'⟩ := ih hrest htail
        exact ⟨e', List.mem_cons_of_mem _ he', hentry'⟩

theorem parse_ids_sublist (hparse : shape.parse members = .ok entries) :
    (entries.map (·.id)).Sublist (members.map (·.1)) := by
  induction members generalizing entries with
  | nil =>
    cases hparse
    exact List.Sublist.refl _
  | cons member members ih =>
    obtain ⟨id, server⟩ := member
    rcases parse_cons hparse with ⟨-, hrest⟩ | ⟨e', rest, -, hentry, hrest, rfl⟩
    · exact (ih hrest).cons _
    · rw [List.map_cons, List.map_cons, entry_id hentry]
      exact (ih hrest).cons_cons _

/-- It goes through when every entry that is taken has a command. -/
theorem parse_total
    (hmembers : ∀ member ∈ members, shape.takes member.2 = true → ∃ e, shape.entry member.1 member.2 = .ok e) :
    ∃ entries, shape.parse members = .ok entries := by
  induction members with
  | nil => exact ⟨[], rfl⟩
  | cons member members ih =>
    obtain ⟨id, server⟩ := member
    obtain ⟨rest, hrest⟩ := ih fun m hm => hmembers m (List.mem_cons_of_mem _ hm)
    cases htakes : shape.takes server with
    | false => exact ⟨rest, by rw [parse, if_neg (by rw [htakes]; decide), hrest]⟩
    | true =>
      obtain ⟨e, hentry⟩ := hmembers (id, server) List.mem_cons_self htakes
      exact ⟨e :: rest, by rw [parse, if_pos htakes, hentry, hrest]⟩

/-! ### A rewritten entry -/

theorem wrapFields_get {s : McpServerEntry} {key : String} (hcommand : key ≠ "command") (hargs : key ≠ "args")
    (henv : key ≠ "env") :
    (Value.object (shape.wrapFields setting options s fields)).get key = (Value.object fields).get key := by
  rw [wrapFields, setEnv_get henv, shape.setCall_get hcommand hargs]

theorem call_wrapFields (s : McpServerEntry) (id : String) :
    shape.call id (.object (shape.wrapFields setting options s fields)) =
      .ok (setting.shimBinary, (shimArgs options s).map .string) := by
  rw [← shape.call_setCall id _ _ fields]
  exact shape.call_congr id (setEnv_get (by decide)) (setEnv_get (by decide))

theorem filterMap_asStr_map (texts : List String) : (texts.map Value.string).filterMap Value.asStr = texts := by
  induction texts with
  | nil => rfl
  | cons text texts ih => rw [List.map_cons, List.filterMap_cons_some (by rfl), ih]

/-- A rewritten entry reads as the shim that starts the server. -/
theorem entry_wrapFields (s : McpServerEntry) (id : String) :
    ∃ e, shape.entry id (.object (shape.wrapFields setting options s fields)) = .ok e ∧ e.id = id ∧
      e.command = setting.shimBinary ∧ e.args = shimArgs options s :=
  ⟨_, entry_of_call (call_wrapFields s id), rfl, rfl, filterMap_asStr_map _⟩

theorem takes_wrapFields (s : McpServerEntry) :
    shape.takes (.object (shape.wrapFields setting options s fields)) = shape.takes (.object fields) :=
  shape.takes_congr (wrapFields_get (by decide) (by decide) (by decide))

theorem takes_wrapped (s : McpServerEntry) (v : Value) :
    shape.takes (shape.wrapped setting options s v) = shape.takes v := by
  cases v with
  | object fields => exact takes_wrapFields s
  | _ => rfl

theorem wrapFields_keyed {s : McpServerEntry} (h : (Value.object fields).Keyed) :
    (Value.object (shape.wrapFields setting options s fields)).Keyed := setEnv_keyed (shape.setCall_keyed h)

/-! ### The rewritten object -/

theorem rewrite_cons {s : McpServerEntry}
    (h : shape.rewrite setting options (s :: servers) members = .ok members') :
    ((Value.object members).get s.id = none ∧ shape.rewrite setting options servers members = .ok members') ∨
      ∃ fields, (Value.object members).get s.id = some (.object fields) ∧
        shape.rewrite setting options servers
          (Value.insertField s.id (.object (shape.wrapFields setting options s fields)) members) = .ok members' := by
  rw [rewrite] at h
  split at h
  · next hget => exact Or.inl ⟨hget, h⟩
  · next fields hget => exact Or.inr ⟨fields, hget, h⟩
  · cases h

/-- Each member is rewritten for the server of its name, and the others are left. -/
theorem rewrite_get (hnodup : (servers.map (·.id)).Nodup)
    (h : shape.rewrite setting options servers members = .ok members') (id : String) :
    (Value.object members').get id =
      match servers.find? (·.id == id) with
      | none => (Value.object members).get id
      | some s => ((Value.object members).get id).map (shape.wrapped setting options s) := by
  induction servers generalizing members with
  | nil =>
    cases h
    rfl
  | cons s servers ih =>
    obtain ⟨hfresh, hrest⟩ := List.nodup_cons.mp hnodup
    have hothers : servers.find? (·.id == s.id) = none := by
      rw [List.find?_eq_none]
      intro t ht heq
      exact hfresh (List.mem_map.mpr ⟨t, ht, beq_iff_eq.mp heq⟩)
    by_cases hid : s.id = id
    · subst hid
      rw [List.find?_cons_of_pos (by rw [beq_self_eq_true])]
      rcases rewrite_cons h with ⟨hget, hrw⟩ | ⟨fields, hget, hrw⟩
      · rw [ih hrest hrw, hothers, hget]
        rfl
      · rw [ih hrest hrw, hothers, hget, Value.get_insertField_self]
        rfl
    · rw [List.find?_cons_of_neg (by simpa using hid)]
      rcases rewrite_cons h with ⟨-, hrw⟩ | ⟨fields, -, hrw⟩
      · rw [ih hrest hrw]
      · rw [ih hrest hrw, Value.get_insertField_ne (fun heq => hid heq.symm)]

/-- It goes through when the entries are objects. -/
theorem rewrite_total (servers : List McpServerEntry)
    (hobjects : ∀ id v, (Value.object members).get id = some v → ∃ fields, v = .object fields) :
    ∃ members', shape.rewrite setting options servers members = .ok members' := by
  induction servers generalizing members with
  | nil => exact ⟨members, rfl⟩
  | cons s servers ih =>
    cases hget : (Value.object members).get s.id with
    | none =>
      obtain ⟨members', h⟩ := ih hobjects
      exact ⟨members', by rw [rewrite, hget, h]⟩
    | some v =>
      obtain ⟨fields, rfl⟩ := hobjects s.id v hget
      have hobjects' : ∀ id v, (Value.object (Value.insertField s.id
          (.object (shape.wrapFields setting options s fields)) members)).get id = some v →
            ∃ fields, v = .object fields := by
        intro id v hv
        by_cases hid : id = s.id
        · subst hid
          rw [Value.get_insertField_self] at hv
          exact ⟨_, (Option.some.inj hv).symm⟩
        · rw [Value.get_insertField_ne hid] at hv
          exact hobjects id v hv
      obtain ⟨members', h⟩ := ih hobjects'
      refine ⟨members', ?_⟩
      rw [rewrite, hget]
      exact h

theorem rewrite_keyed (hkeyed : (Value.object members).Keyed)
    (h : shape.rewrite setting options servers members = .ok members') : (Value.object members').Keyed := by
  induction servers generalizing members with
  | nil =>
    cases h
    exact hkeyed
  | cons s servers ih =>
    rcases rewrite_cons h with ⟨-, hrw⟩ | ⟨fields, hget, hrw⟩
    · exact ih hkeyed hrw
    · exact ih (hkeyed.insertField _ (wrapFields_keyed (hkeyed.get hget))) hrw

end Shape

end ThoughtGate.Wrap
