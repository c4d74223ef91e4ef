import ThoughtGate.Wrap.Adapter

/-!
# What a rewrite covers

After a rewrite the sources of a config are read again: is every server that was listed now started through the shim?
It is, unless its entry comes from a file that the adapter does not rewrite: Claude Code's `.mcp.json` always, Cursor's
`.cursor/mcp.json` when its rewrite does not go through (`rewrite_covers_iff`). An entry that is left as it was does not
start the shim by chance: the shim's arguments are longer than those that they were made of.
-/

namespace ThoughtGate.Wrap

/-- This entry starts the shim for this server. -/
def StartsShim (setting : Setting) (options : ShimOptions) (server e : McpServerEntry) : Prop :=
  e.command = setting.shimBinary ∧ e.args = shimArgs options server

section

variable [ConfigText]

/-- The sources, read again, have each of these servers, and start the shim for it. -/
def Covered (agent : AgentType) (setting : Setting) (options : ShimOptions) (path : Path)
    (servers : List McpServerEntry) (files : Files Path Text) : Prop :=
  ∃ config entries, readConfig files path = .ok config ∧ listServers agent setting files config.1 = .ok entries ∧
    ∀ s ∈ servers, (∃ e ∈ entries, e.id = s.id) ∧ ∀ e ∈ entries, e.id = s.id → StartsShim setting options s e

/-- Every server stands where the rewrite goes: none of Claude Code's is enabled in `.mcp.json`; Cursor's project file is
the config, or has no entries, or is rewritten, for it is not taken for rewritten already and each operation is done. -/
def Coverable (agent : AgentType) (setting : Setting) (path : Path) (servers : List McpServerEntry)
    (d : Disk Path Text) : Prop :=
  match agent, setting.cwd with
  | .claudeCode, some _ => ∀ config, readConfig d.files path = .ok config →
      ∀ o ∈ projectEntries .claudeCode setting d.files config.1, ∀ s ∈ servers, s.id ≠ o.id
  | .cursor, some dir => cursorProject dir = path ∨ fileEntries d.files (cursorProject dir) = [] ∨
      ((∀ project, readConfig d.files (cursorProject dir) = .ok project →
          detectDoubleWrap setting "mcpServers" project.1 = false) ∧
        ∀ i, 7 ≤ i → i < 15 → d.outcomes i = .done)
  | _, _ => True

end

section

variable {setting : Setting} {options : ShimOptions} {servers own : List McpServerEntry} {shape : Shape}
  {members members' : List (String × Value)} {s e : McpServerEntry}

theorem find_server (hnodup : (servers.map (·.id)).Nodup) (hs : s ∈ servers) :
    servers.find? (·.id == s.id) = some s := by
  cases hfind : servers.find? (·.id == s.id) with
  | none => exact absurd (beq_self_eq_true s.id) (List.find?_eq_none.mp hfind s hs)
  | some t =>
    have hid : t.id = s.id := by simpa using List.find?_some hfind
    rw [List.inj_on_of_nodup_map hnodup (List.mem_of_find?_eq_some hfind) hs hid]

theorem Shape.object_of_entry {id : String} {v : Value} (h : shape.entry id v = .ok e) : ∃ fields, v = .object fields := by
  obtain ⟨items, hcall, -⟩ := Shape.call_of_entry h
  have hcommand := shape.command_of_call hcall
  cases v with
  | object fields => exact ⟨fields, rfl⟩
  | _ => cases hcommand

/-- An entry that can be read can be read after the rewrite. -/
theorem Shape.entry_rewritten (hnodup : (servers.map (·.id)).Nodup)
    (hrewrite : shape.rewrite setting options servers members = .ok members') {id : String} {v : Value}
    (hget : (Value.object members).get id = some v) (hentry : shape.entry id v = .ok e) :
    ∃ v' e', (Value.object members').get id = some v' ∧ shape.takes v' = shape.takes v ∧
      shape.entry id v' = .ok e' := by
  have hafter := Shape.rewrite_get hnodup hrewrite id
  rw [hget] at hafter
  cases hfind : servers.find? (·.id == id) with
  | none =>
    rw [hfind] at hafter
    exact ⟨v, e, hafter, rfl, hentry⟩
  | some t =>
    rw [hfind] at hafter
    obtain ⟨fields, rfl⟩ := Shape.object_of_entry hentry
    have hwrapped : ∃ e', shape.entry id (.object (shape.wrapFields setting options t fields)) = .ok e' ∧ e'.id = id ∧
        e'.command = setting.shimBinary ∧ e'.args = shimArgs options t := Shape.entry_wrapFields t id
    obtain ⟨e', hentry', -⟩ := hwrapped
    exact ⟨_, e', hafter, Shape.takes_wrapFields t, hentry'⟩

/-- Whatever is read of a rewritten object, the listed entries start the shim. -/
theorem Shape.startsShim_of_rewrite {own' : List McpServerEntry} (hkeyed : (Value.object members).Keyed)
    (hnodup : (servers.map (·.id)).Nodup) (hrewrite : shape.rewrite setting options servers members = .ok members')
    (hparse' : shape.parse members' = .ok own') (he : e ∈ own') (hs : s ∈ servers) (hid : s.id = e.id) :
    StartsShim setting options s e := by
  have hkeyed' := Shape.rewrite_keyed hkeyed hrewrite
  obtain ⟨v', hmem', -, hentry'⟩ := (Shape.mem_parse hparse').mp he
  have hget' : (Value.object members').get e.id = some v' := by
    cases hkeyed' with
    | object hkeys' _ => exact Value.get_of_mem hkeys' hmem'
  rw [Shape.rewrite_get hnodup hrewrite, ← hid, find_server hnodup hs] at hget'
  obtain ⟨v, -, rfl⟩ := Option.map_eq_some_iff.mp hget'
  cases v with
  | object fields =>
    have hwrapped : ∃ e', shape.entry e.id (.object (shape.wrapFields setting options s fields)) = .ok e' ∧
        e'.id = e.id ∧ e'.command = setting.shimBinary ∧ e'.args = shimArgs options s := Shape.entry_wrapFields s e.id
    obtain ⟨e', hentry, -, hcommand, hargs⟩ := hwrapped
    have heq : e' = e := Except.ok.inj (hentry.symm.trans hentry')
    rw [← heq]
    exact ⟨hcommand, hargs⟩
  | _ =>
    obtain ⟨fields, hobject⟩ := Shape.object_of_entry hentry'
    cases hobject

/-- A rewritten object that could be read can be read again, and has the same ids. -/
theorem Shape.parse_rewrite (hkeyed : (Value.object members).Keyed) (hparse : shape.parse members = .ok own)
    (hnodup : (servers.map (·.id)).Nodup)
    (hrewrite : shape.rewrite setting options servers members = .ok members') :
    ∃ own', shape.parse members' = .ok own' ∧ ∀ e ∈ own, ∃ e' ∈ own', e'.id = e.id := by
  have hkeyed' := Shape.rewrite_keyed hkeyed hrewrite
  cases hkeyed with
  | object hkeys _ =>
  cases hkeyed' with
  | object hkeys' _ =>
  have htotal : ∃ own', shape.parse members' = .ok own' := by
    refine Shape.parse_total fun member hmember htakes' => ?_
    have hget' := Value.get_of_mem hkeys' hmember
    -- the member that this one was, taken as well
    have hold : ∃ v, (Value.object members).get member.1 = some v ∧ shape.takes v = true := by
      rw [Shape.rewrite_get hnodup hrewrite] at hget'
      split at hget'
      · exact ⟨member.2, hget', htakes'⟩
      · obtain ⟨v, hv, heq⟩ := Option.map_eq_some_iff.mp hget'
        exact ⟨v, hv, by rw [← htakes', ← heq, Shape.takes_wrapped]⟩
    obtain ⟨v, hget, htakes⟩ := hold
    obtain ⟨e, -, hentry⟩ := Shape.parse_entry hparse (Value.mem_of_get hget) htakes
    obtain ⟨v', e', hget'', -, hentry'⟩ := Shape.entry_rewritten hnodup hrewrite hget hentry
    rw [hget'] at hget''
    cases hget''
    exact ⟨e', hentry'⟩
  obtain ⟨own', hparse'⟩ := htotal
  refine ⟨own', hparse', fun e he => ?_⟩
  obtain ⟨v, hmem, htakes, hentry⟩ := (Shape.mem_parse hparse).mp he
  obtain ⟨v', e', hget', htakes', hentry'⟩ :=
    Shape.entry_rewritten hnodup hrewrite (Value.get_of_mem hkeys hmem) hentry
  obtain ⟨e'', he'', hentry''⟩ := Shape.parse_entry hparse' (Value.mem_of_get hget') (htakes'.trans htakes)
  exact ⟨e'', he'', Shape.entry_id hentry''⟩

section

variable [ConfigText] {agent : AgentType} {files : Files Path Text} {path backup : Path} {d d' : Disk Path Text}
  {config config' : AgentConfig} {entries : List McpServerEntry}

omit [ConfigText] in
/-- A changed config has the same ids, and each listed one of its own entries starts the shim. -/
theorem ownEntries_updated (hown : ownEntries agent setting config.1 = .ok own)
    (hnodup : (servers.map (·.id)).Nodup)
    (hupdate : updated setting options servers agent config.1 = .ok config'.1) :
    ∃ own', ownEntries agent setting config'.1 = .ok own' ∧
      (∀ e ∈ own', ∀ s ∈ servers, s.id = e.id → StartsShim setting options s e) ∧
      ∀ e ∈ own, ∃ e' ∈ own', e'.id = e.id := by
  obtain ⟨members', hrewrite, hat'⟩ := updated_ok hupdate
  have hparse := parse_of_ownEntries hown
  have hkeyed := serversAt_getD_keyed agent setting config.2
  obtain ⟨own', hparse', hids⟩ := Shape.parse_rewrite hkeyed hparse hnodup hrewrite
  exact ⟨own', ownEntries_of_parse hat' hparse',
    fun e he s hs hid => Shape.startsShim_of_rewrite hkeyed hnodup hrewrite hparse' he hs hid, hids⟩

/-- With the config's own entries rewritten, what is left to ask for are the entries of the project's file. -/
theorem covered_iff (hread : readConfig files path = .ok config')
    (hown : ownEntries agent setting config'.1 = .ok own)
    (hstarts : ∀ e ∈ own, ∀ s ∈ servers, s.id = e.id → StartsShim setting options s e)
    (hids : ∀ s ∈ servers, (∃ e ∈ own, e.id = s.id) ∨ ∃ o ∈ projectEntries agent setting files config'.1, o.id = s.id) :
    Covered agent setting options path servers files ↔
      ∀ s ∈ servers, ∀ o ∈ projectEntries agent setting files config'.1, o.id = s.id → StartsShim setting options s o := by
  have hlist : listServers agent setting files config'.1 =
      .ok (merge own (projectEntries agent setting files config'.1)) := by
    rw [listServers, hown]
    rfl
  obtain ⟨own', hown', -, hmem⟩ := listServers_ok hlist
  rw [hown] at hown'
  cases hown'
  constructor
  · rintro ⟨config, entries, hread', hlist', hall⟩ s hs o ho hid
    rw [hread] at hread'
    cases hread'
    rw [hlist] at hlist'
    cases hlist'
    exact (hall s hs).2 o ((hmem o).mpr (Or.inl ho)) hid
  · intro hproject
    refine ⟨config', _, hread, hlist, fun s hs => ⟨?_, fun e he hid => ?_⟩⟩
    · by_cases hover : ∃ o ∈ projectEntries agent setting files config'.1, o.id = s.id
      · obtain ⟨o, ho, hid⟩ := hover
        exact ⟨o, (hmem o).mpr (Or.inl ho), hid⟩
      · obtain ⟨e, he, hid⟩ := (hids s hs).resolve_right hover
        refine ⟨e, (hmem e).mpr (Or.inr ⟨he, fun o ho heq => hover ⟨o, ho, heq.trans hid⟩⟩), hid⟩
    · rcases (hmem e).mp he with ho | ⟨he, -⟩
      · exact hproject s hs e ho hid
      · exact hstarts e he s hs hid.symm

omit [ConfigText] in
/-- An entry as it was does not start the shim for the server that it was listed as. -/
theorem not_startsShim {f : String → Except ConfigError String} (h : expandServerEntryEnv f e = .ok s) :
    ¬ StartsShim setting options s e := by
  rintro ⟨-, hargs⟩
  have hlength := (expandServerEntryEnv_ok h).2.1.length_eq
  rw [hargs, shimArgs, List.length_append] at hlength
  simp only [List.length_cons, List.length_nil] at hlength
  omega

/-- A listed server whose id the project's file has is the entry of that file. -/
theorem listed_of_project (hlist : listServers agent setting files config.1 = .ok entries)
    (hlisted : ∀ s ∈ servers, ∃ e ∈ entries, expandServerEntryEnv (expander agent setting) e = .ok s)
    {o : McpServerEntry} (ho : o ∈ projectEntries agent setting files config.1) (hs : s ∈ servers) (hid : o.id = s.id) :
    ¬ StartsShim setting options s o := by
  obtain ⟨own, -, hnodup, hmem⟩ := listServers_ok hlist
  obtain ⟨e, he, hexpand⟩ := hlisted s hs
  have heq : e = o := by
    refine List.inj_on_of_nodup_map hnodup he ((hmem o).mpr (Or.inl ho)) ?_
    rw [hid]
    exact (expandServerEntryEnv_ok hexpand).2.2.symm
  subst heq
  exact not_startsShim hexpand

/-- Sources that list a server as they did before do not start the shim for it. -/
theorem not_covered_of_listed (h : parseServers agent setting files path = .ok servers) (hs : s ∈ servers) :
    ¬ Covered agent setting options path servers files := by
  rintro ⟨config, entries, hread, hlist, hall⟩
  obtain ⟨config', entries', hread', hlist', -, hlisted⟩ := parseServers_ok h
  rw [hread] at hread'
  cases hread'
  rw [hlist] at hlist'
  cases hlist'
  obtain ⟨e, he, hexpand⟩ := hlisted s hs
  exact not_startsShim hexpand ((hall s hs).2 e he (expandServerEntryEnv_ok hexpand).2.2.symm)

/-- What is read of a rewritten project file: the listed entries start the shim. -/
theorem fileEntries_rewritten {project project' : AgentConfig} (hread' : readConfig files path = .ok project')
    (hupdate : rewriteMcpServersKey setting options servers "mcpServers" project.1 = .ok project'.1)
    (hnodup : (servers.map (·.id)).Nodup) (he : e ∈ fileEntries files path) (hs : s ∈ servers) (hid : s.id = e.id) :
    StartsShim setting options s e := by
  obtain ⟨config, members', hconfig, hmembers', hparse'⟩ := fileEntries_of_mem he
  rw [hread'] at hconfig
  cases hconfig
  obtain ⟨fields, members, members'', -, hget, hrewrite, hobject⟩ := rewriteKey_ok hupdate
  rw [hobject, Value.get_insertField_self] at hmembers'
  cases hmembers'
  exact Shape.startsShim_of_rewrite (members_keyed project.2 (by rw [hget]; rfl)) hnodup hrewrite hparse' he hs hid

/-- A rewritten project file that had entries has the same ids. -/
theorem fileEntries_rewritten_ids {files' : Files Path Text} {project project' : AgentConfig}
    (hread : readConfig files path = .ok project) (hread' : readConfig files' path = .ok project')
    (hupdate : rewriteMcpServersKey setting options servers "mcpServers" project.1 = .ok project'.1)
    (hnodup : (servers.map (·.id)).Nodup) (he : e ∈ fileEntries files path) :
    ∃ e' ∈ fileEntries files' path, e'.id = e.id := by
  obtain ⟨config, members, hconfig, hmembers, hparse⟩ := fileEntries_of_mem he
  rw [hread] at hconfig
  cases hconfig
  obtain ⟨fields, members₁, members', -, hget, hrewrite, hobject⟩ := rewriteKey_ok hupdate
  rw [hget] at hmembers
  cases hmembers
  obtain ⟨own', hparse', hids⟩ :=
    Shape.parse_rewrite (members_keyed project.2 (by rw [hget]; rfl)) hparse hnodup hrewrite
  have hentries : fileEntries files' path = own' :=
    fileEntries_eq hread' (by rw [hobject, Value.get_insertField_self]; rfl) hparse'
  rw [hentries]
  exact hids e he

theorem readConfig_eq {files' : Files Path Text} (h : files' path = files path) :
    readConfig files' path = readConfig files path := by rw [readConfig, readConfig, h]

theorem fileEntries_congr {files' : Files Path Text} (h : files' path = files path) :
    fileEntries files' path = fileEntries files path := by rw [fileEntries, fileEntries, readConfig_eq h]

/-- Claude Code's `.mcp.json` contributes after the rewrite what it contributed before. -/
theorem projectEntries_claudeCode {name : String} {text : Text} (htext : files (.file name) = some text)
    (hread : text.read = .ok config)
    (hupdate : updated setting options servers .claudeCode config.1 = .ok config'.1) :
    projectEntries .claudeCode setting (rewritten files (.file name) text config') config'.1 =
      projectEntries .claudeCode setting files config.1 := by
  cases hcwd : setting.cwd with
  | none =>
    have hno : AgentType.claudeCode = .cursor → setting.cwd = none := fun _ => hcwd
    rw [projectEntries_nil (fun _ => hcwd) hno, projectEntries_nil (fun _ => hcwd) hno]
  | some dir =>
    rw [updated, hcwd] at hupdate
    have hentries : fileEntries (rewritten files (.file name) text config') (mcpJson dir) =
        fileEntries files (mcpJson dir) := by
      by_cases hsame : mcpJson dir = .file name
      · have hbefore : readConfig files (.file name) = .ok config := by rw [readConfig, htext]; exact hread
        have hafter : readConfig (rewritten files (.file name) text config') (.file name) = .ok config' := by
          rw [readConfig, rewritten_config]
          rfl
        rw [hsame, fileEntries, fileEntries, hbefore, hafter]
        dsimp only
        rw [parseMcpServersKey, parseMcpServersKey, parseKey, parseKey,
          rewriteProjectServers_top (by decide) hupdate]
      · exact fileEntries_congr (rewritten_other (file_not_mem_scratch _ _) hsame)
    rw [projectEntries_mcpJson hcwd, projectEntries_mcpJson hcwd, hentries]
    exact List.filter_congr fun e _ => isMcpJsonServerEnabled_updated hupdate e.id

theorem coverable_claudeCode {dir : String} (hcwd : setting.cwd = some dir) :
    Coverable .claudeCode setting path servers d ↔ ∀ config, readConfig d.files path = .ok config →
      ∀ o ∈ projectEntries .claudeCode setting d.files config.1, ∀ s ∈ servers, s.id ≠ o.id := by
  simp only [Coverable, hcwd]

theorem coverable_cursor {dir : String} (hcwd : setting.cwd = some dir) :
    Coverable .cursor setting path servers d ↔
      (cursorProject dir = path ∨ fileEntries d.files (cursorProject dir) = [] ∨
        ((∀ project, readConfig d.files (cursorProject dir) = .ok project →
            detectDoubleWrap setting "mcpServers" project.1 = false) ∧
          ∀ i, 7 ≤ i → i < 15 → d.outcomes i = .done)) := by
  simp only [Coverable, hcwd]

theorem coverable_of_no_project (hclaude : agent = .claudeCode → setting.cwd = none)
    (hcursor : agent = .cursor → setting.cwd = none) : Coverable agent setting path servers d := by
  cases agent with
  | claudeCode => simp only [Coverable, hclaude rfl]
  | cursor => simp only [Coverable, hcursor rfl]
  | _ => simp only [Coverable]

/-- The rewrite of the config itself has gone through: what it found, and what it has made of it. -/
structure MainRewritten (agent : AgentType) (setting : Setting) (options : ShimOptions) (servers : List McpServerEntry)
    (name : String) (files : Files Path Text) (text : Text) (config config' : AgentConfig) : Prop where
  nodup : (servers.map (·.id)).Nodup
  found : files (.file name) = some text
  parsed : text.read = .ok config
  update : updated setting options servers agent config.1 = .ok config'.1

theorem mainRewritten {name : String} (hparse : parseServers agent setting d.files (.file name) = .ok servers)
    (hmain : rewriteMain setting options servers agent (.file name) d = (.ok backup, d')) :
    ∃ text config config', MainRewritten agent setting options servers name d.files text config config' ∧
      d' = d.after 7 (rewritten d.files (.file name) text config') := by
  obtain ⟨-, -, -, -, hnodup, -⟩ := parseServers_ok hparse
  obtain ⟨-, -, text, config, config', htext, hconfig, -, hupdate, hd⟩ := rewriteFile_ok.mp hmain
  exact ⟨text, config, config', ⟨hnodup, htext, hconfig, hupdate⟩, hd⟩

namespace MainRewritten

variable {name : String} {text : Text}

theorem read (h : MainRewritten agent setting options servers name files text config config') :
    readConfig files (.file name) = .ok config := by
  rw [readConfig, h.found]
  exact h.parsed

theorem entries_update (h : MainRewritten agent setting options servers name files text config config')
    (hown : ownEntries agent setting config.1 = .ok own) :
    ∃ own', ownEntries agent setting config'.1 = .ok own' ∧
      (∀ e ∈ own', ∀ s ∈ servers, s.id = e.id → StartsShim setting options s e) ∧
      ∀ e ∈ own, ∃ e' ∈ own', e'.id = e.id := ownEntries_updated hown h.nodup h.update

end MainRewritten

theorem readConfig_rewritten (name : String) (files : Files Path Text) (text : Text) (config' : AgentConfig) :
    readConfig (rewritten files (.file name) text config') (.file name) = .ok config' := by
  rw [readConfig, rewritten_config]
  rfl

/-- Without a project file that Cursor's adapter rewrites, only `.mcp.json` matters. -/
theorem covers_main_iff {name : String} (hparse : parseServers agent setting d.files (.file name) = .ok servers)
    (hmain : rewriteMain setting options servers agent (.file name) d = (.ok backup, d'))
    (hcursor : agent = .cursor → setting.cwd = none) :
    Covered agent setting options (.file name) servers d'.files ↔ Coverable agent setting (.file name) servers d := by
  obtain ⟨text, config, config', hdone, rfl⟩ := mainRewritten hparse hmain
  obtain ⟨config₁, entries, hread, hlist, -, hlisted⟩ := parseServers_ok hparse
  cases hdone.read.symm.trans hread
  obtain ⟨own, hown, -, hmem⟩ := listServers_ok hlist
  obtain ⟨own', hown', hstarts, hids⟩ := hdone.entries_update hown
  have hread' := readConfig_rewritten name d.files text config'
  rw [Disk.after_files]
  by_cases hproject : agent = .claudeCode ∧ setting.cwd ≠ none
  · obtain ⟨rfl, hsome⟩ := hproject
    obtain ⟨dir, hcwd⟩ := Option.ne_none_iff_exists'.mp hsome
    have hentries := projectEntries_claudeCode hdone.found hdone.parsed hdone.update
    rw [covered_iff hread' hown' hstarts, hentries]
    · rw [coverable_claudeCode hcwd]
      constructor
      · intro hall config₂ hread₂ o ho s hs hid
        rw [hread] at hread₂
        cases hread₂
        exact listed_of_project hlist hlisted ho hs hid.symm (hall s hs o ho hid.symm)
      · intro hnone s hs o ho hid
        exact absurd hid.symm (hnone _ hread o ho s hs)
    · intro s hs
      rw [hentries]
      obtain ⟨e, he, hexpand⟩ := hlisted s hs
      have hid := (expandServerEntryEnv_ok hexpand).2.2
      rcases (hmem e).mp he with ho | ⟨he, -⟩
      · exact Or.inr ⟨e, ho, hid.symm⟩
      · obtain ⟨e', he', hid'⟩ := hids e he
        exact Or.inl ⟨e', he', hid'.trans hid.symm⟩
  · have hclaude : agent = .claudeCode → setting.cwd = none := fun hagent =>
      not_not.mp fun hne => hproject ⟨hagent, hne⟩
    refine iff_of_true ?_ (coverable_of_no_project hclaude hcursor)
    rw [covered_iff hread' hown' hstarts]
    · rw [projectEntries_nil hclaude hcursor]
      intro s _ o ho
      cases ho
    · intro s hs
      obtain ⟨e, he, hexpand⟩ := hlisted s hs
      have hid := (expandServerEntryEnv_ok hexpand).2.2
      rcases (hmem e).mp he with ho | ⟨he, -⟩
      · rw [projectEntries_nil hclaude hcursor] at ho
        cases ho
      · obtain ⟨e', he', hid'⟩ := hids e he
        exact Or.inl ⟨e', he', hid'.trans hid.symm⟩

theorem parseServers_cursor (h : parseServers .cursor setting files path = .ok servers) :
    ∃ config, readConfig files path = .ok config ∧ listServers .cursor setting files config.1 = .ok servers := by
  rw [parseServers] at h
  split at h
  · cases h
  · next config hread =>
    rw [serversFrom] at h
    split at h
    · cases h
    · next entries hlist =>
      cases h
      exact ⟨config, hread, hlist⟩

theorem fileEntries_own (hread : readConfig files path = .ok config)
    (hown : ownEntries .cursor setting config.1 = .ok own) : fileEntries files path = own := by
  have hkey : parseMcpServersKey config.1 "mcpServers" = .ok own := hown
  rw [fileEntries, hread]
  dsimp only
  rw [hkey]

/-- Where the project's file is the config, it is enough that the config's own entries start the shim. -/
theorem covered_of_same {dir : String} (hcwd : setting.cwd = some dir) (hsame : cursorProject dir = path)
    (hread : readConfig files path = .ok config') (hown : ownEntries .cursor setting config'.1 = .ok own)
    (hstarts : ∀ e ∈ own, ∀ s ∈ servers, s.id = e.id → StartsShim setting options s e)
    (hids : ∀ s ∈ servers, ∃ e ∈ own, e.id = s.id) : Covered .cursor setting options path servers files := by
  rw [covered_iff hread hown hstarts fun s hs => Or.inl (hids s hs)]
  intro s hs o ho hid
  rw [projectEntries_cursor hcwd, hsame, fileEntries_own hread hown] at ho
  exact hstarts o ho s hs hid.symm

omit [ConfigText] in
/-- A config whose servers can be listed can be rewritten. -/
theorem rewritable (setting : Setting) (options : ShimOptions) (servers : List McpServerEntry) (config : AgentConfig)
    (hmembers : (config.1.get "mcpServers").bind Value.asObject = some members)
    (hparse : mcpServersShape.parse members = .ok entries) :
    ∃ config' : AgentConfig, rewriteMcpServersKey setting options servers "mcpServers" config.1 = .ok config'.1 := by
  have hobjects : ∀ id v, (Value.object members).get id = some v → ∃ fields, v = .object fields := by
    intro id v hv
    obtain ⟨e, -, hentry⟩ := Shape.parse_entry hparse (Value.mem_of_get hv) rfl
    exact Shape.object_of_entry hentry
  have htotal : ∃ members', mcpServersShape.rewrite setting options servers members = .ok members' :=
    Shape.rewrite_total servers hobjects
  obtain ⟨members', hrewrite⟩ := htotal
  obtain ⟨v, hget, hv⟩ := Option.bind_eq_some_iff.mp hmembers
  cases v with
  | object ms =>
    cases hv
    cases hconfig : config.1 with
    | object fields =>
      rw [hconfig] at hget
      have hupdate : rewriteMcpServersKey setting options servers "mcpServers" (.object fields) =
          .ok (.object (Value.insertField "mcpServers" (.object members') fields)) := by
        rw [rewriteMcpServersKey, rewriteKey, hget]
        change alterMember _ _ _ _ = _
        rw [alterMember, hget, Option.getD_some, rewriteServers, hrewrite]
        rfl
      refine ⟨⟨_, rewriteKey_keyed ?_ hupdate⟩, hupdate⟩
      rw [← hconfig]
      exact config.2
    | _ =>
      rw [hconfig] at hget
      cases hget
  | _ => cases hv

/-- What Cursor's adapter lists: the entries of the project's file, and those of the config that it does not override. -/
theorem parseServers_cursor_ok {dir : String} (hcwd : setting.cwd = some dir)
    (hparse : parseServers .cursor setting files path = .ok servers) (hread : readConfig files path = .ok config) :
    ∃ own, ownEntries .cursor setting config.1 = .ok own ∧
      ∀ s, s ∈ servers ↔ s ∈ fileEntries files (cursorProject dir) ∨
        (s ∈ own ∧ ∀ o ∈ fileEntries files (cursorProject dir), o.id ≠ s.id) := by
  obtain ⟨config₁, hread₁, hlist⟩ := parseServers_cursor hparse
  cases hread.symm.trans hread₁
  obtain ⟨own, hown, -, hmem⟩ := listServers_ok hlist
  rw [projectEntries_cursor hcwd] at hmem
  exact ⟨own, hown, hmem⟩

namespace MainRewritten

variable {name dir : String} {text : Text}

/-- Where the project's file is the config, all that is listed is covered, whether or not it is rewritten once more. -/
theorem covered_same (h : MainRewritten .cursor setting options servers name d.files text config config')
    (hcwd : setting.cwd = some dir) (hparse : parseServers .cursor setting d.files (.file name) = .ok servers)
    (hpath : cursorProject dir = .file name)
    (hproject : rewriteCursorProject setting options servers (.file name)
      (d.after 7 (rewritten d.files (.file name) text config')) = (.ok (), d')) :
    Covered .cursor setting options (.file name) servers d'.files := by
  obtain ⟨own, hown, hmem⟩ := parseServers_cursor_ok hcwd hparse h.read
  obtain ⟨own', hown', hstarts, hids⟩ := h.entries_update hown
  rw [hpath, fileEntries_own h.read hown] at hmem
  have hlisted : ∀ s ∈ servers, ∃ e ∈ own', e.id = s.id :=
    fun s hs => hids s (((hmem s).mp hs).elim id fun he => he.1)
  rcases rewriteCursorProject_cases hproject with
    ⟨text₂, project, project', -, htext₂, hproject₂, -, hupdate₂, hfiles⟩ | ⟨-, hframe⟩
  · have hconfig' : project = config' := by
      rw [Disk.after_files, rewritten_config] at htext₂
      cases htext₂
      exact (Except.ok.inj hproject₂).symm
    subst hconfig'
    obtain ⟨own'', hown'', hstarts'', hids''⟩ := ownEntries_updated hown' h.nodup hupdate₂
    refine covered_of_same hcwd hpath ?_ hown'' hstarts'' fun s hs => ?_
    · rw [hfiles, readConfig_rewritten]
    · obtain ⟨e, he, hid⟩ := hlisted s hs
      obtain ⟨e', he', hid'⟩ := hids'' e he
      exact ⟨e', he', hid'.trans hid⟩
  · refine covered_of_same hcwd hpath ?_ hown' hstarts hlisted
    rw [readConfig_eq (hframe _ (file_not_mem_scratch _ _)), Disk.after_files, readConfig_rewritten]

/-- Where the project's file is rewritten as well, all that is listed is covered. -/
theorem covered_project {project project' : AgentConfig} {files' : Files Path Text}
    (h : MainRewritten .cursor setting options servers name d.files text config config')
    (hcwd : setting.cwd = some dir) (hparse : parseServers .cursor setting d.files (.file name) = .ok servers)
    (hread' : readConfig files' (.file name) = .ok config')
    (hproject : readConfig d.files (cursorProject dir) = .ok project)
    (hproject' : readConfig files' (cursorProject dir) = .ok project')
    (hupdate : rewriteMcpServersKey setting options servers "mcpServers" project.1 = .ok project'.1) :
    Covered .cursor setting options (.file name) servers files' := by
  obtain ⟨own, hown, hmem⟩ := parseServers_cursor_ok hcwd hparse h.read
  obtain ⟨own', hown', hstarts, hids⟩ := h.entries_update hown
  rw [covered_iff hread' hown' hstarts, projectEntries_cursor hcwd]
  · intro s hs o ho hid
    exact fileEntries_rewritten hproject' hupdate h.nodup ho hs hid.symm
  · intro s hs
    rw [projectEntries_cursor hcwd]
    rcases (hmem s).mp hs with ho | ⟨he, -⟩
    · exact Or.inr (fileEntries_rewritten_ids hproject hproject' hupdate h.nodup ho)
    · exact Or.inl (hids s he)

/-- Where the project's file is left alone, all that is listed is covered if nothing comes from there. -/
theorem covered_left_iff {files' : Files Path Text}
    (h : MainRewritten .cursor setting options servers name d.files text config config')
    (hcwd : setting.cwd = some dir) (hparse : parseServers .cursor setting d.files (.file name) = .ok servers)
    (hread' : readConfig files' (.file name) = .ok config')
    (hleft : files' (cursorProject dir) = d.files (cursorProject dir)) :
    Covered .cursor setting options (.file name) servers files' ↔ fileEntries d.files (cursorProject dir) = [] := by
  obtain ⟨own, hown, hmem⟩ := parseServers_cursor_ok hcwd hparse h.read
  obtain ⟨own', hown', hstarts, hids⟩ := h.entries_update hown
  have hentries := fileEntries_congr hleft
  rw [covered_iff hread' hown' hstarts, projectEntries_cursor hcwd, hentries]
  · constructor
    · intro hall
      refine List.eq_nil_iff_forall_not_mem.mpr fun o ho => ?_
      exact not_startsShim (expandServerEntryEnv_self o) (hall o ((hmem o).mpr (Or.inl ho)) o ho rfl)
    · intro hnil s _ o ho
      rw [hnil] at ho
      cases ho
  · intro s hs
    rw [projectEntries_cursor hcwd, hentries]
    rcases (hmem s).mp hs with ho | ⟨he, -⟩
    · exact Or.inr ⟨s, ho, rfl⟩
    · exact Or.inl (hids s he)

end MainRewritten

/-- With a project file, Cursor's adapter covers what is listed if it rewrites that file, or has no need to. -/
theorem covers_cursor_iff {name dir : String} {d₁ : Disk Path Text} (hcwd : setting.cwd = some dir)
    (hparse : parseServers .cursor setting d.files (.file name) = .ok servers)
    (hmain : rewriteMain setting options servers .cursor (.file name) d = (.ok backup, d₁))
    (hproject : rewriteCursorProject setting options servers (cursorProject dir) d₁ = (.ok (), d')) :
    Covered .cursor setting options (.file name) servers d'.files ↔ Coverable .cursor setting (.file name) servers d := by
  obtain ⟨text, config, config', hdone, rfl⟩ := mainRewritten hparse hmain
  rw [coverable_cursor hcwd]
  by_cases hpath : cursorProject dir = .file name
  · rw [hpath] at hproject
    exact iff_of_true (hdone.covered_same hcwd hparse hpath hproject) (Or.inl hpath)
  · have hother : rewritten d.files (.file name) text config' (cursorProject dir) = d.files (cursorProject dir) :=
      rewritten_other (file_not_mem_scratch _ _) hpath
    have hfirst := readConfig_rewritten name d.files text config'
    have hcases := rewriteCursorProject_cases hproject
    rw [Disk.after_files] at hcases
    rcases hcases with ⟨text₂, project, project', hdone₂, htext₂, hproject₂, hrefused, hupdate₂, hfiles⟩ | ⟨hno, hframe⟩
    · -- the project's file is rewritten
      have hbefore : readConfig d.files (cursorProject dir) = .ok project := by
        rw [readConfig, ← hother, htext₂]
        exact hproject₂
      refine iff_of_true ?_ (Or.inr (Or.inr ⟨fun project₁ hproject₁ => ?_, fun i hlow hhigh => ?_⟩))
      · refine hdone.covered_project hcwd hparse ?_ hbefore ?_ hupdate₂
        · rw [hfiles, readConfig_eq (rewritten_other (file_not_mem_scratch _ _) fun h => hpath h.symm), hfirst]
        · rw [hfiles]
          exact readConfig_rewritten _ _ _ _
      · cases hbefore.symm.trans hproject₁
        exact hrefused
      · have hi := hdone₂ (i - 7) (by omega)
        rwa [Disk.after_outcomes, Nat.sub_add_cancel hlow] at hi
    · -- it is left alone
      have hread' : readConfig d'.files (.file name) = .ok config' := by
        rw [readConfig_eq (hframe _ (file_not_mem_scratch _ _)), hfirst]
      rw [hdone.covered_left_iff hcwd hparse hread' ((hframe _ (not_mem_scratch _)).trans hother)]
      refine ⟨fun hnil => Or.inr (Or.inl hnil), ?_⟩
      rintro (hsame | hnil | ⟨hrefused, hlater⟩)
      · exact absurd hsame hpath
      · exact hnil
      · -- a file with entries would have been rewritten
        refine List.eq_nil_iff_forall_not_mem.mpr fun o ho => hno ⟨fun i hi => ?_, ?_⟩
        · exact hlater (i + 7) (by omega) (by omega)
        · obtain ⟨project, members, hproject₁, hmembers, hparse₁⟩ := fileEntries_of_mem ho
          obtain ⟨project', hproject'⟩ := rewritable setting options servers project hmembers hparse₁
          exact ⟨project, project', by rw [readConfig_eq hother]; exact hproject₁, hrefused project hproject₁,
            hproject'⟩

/-- After a rewrite that has returned `Ok` every listed server is started through the shim, exactly when it stands where
the rewrite goes. -/
theorem rewrite_covers_iff {name : String} (hparse : parseServers agent setting d.files (.file name) = .ok servers)
    (hrewrite : rewriteConfig setting options servers agent (.file name) d = (.ok backup, d')) :
    Covered agent setting options (.file name) servers d'.files ↔ Coverable agent setting (.file name) servers d := by
  rcases rewriteConfig_cases hrewrite with ⟨-, -, ⟨e, he⟩, -⟩ | ⟨hmain, ⟨e, he⟩ | hcursor⟩ |
    ⟨dir, b, d₁, rfl, hcwd, hb, hmain, hproject⟩
  · cases he
  · cases he
  · exact covers_main_iff hparse hmain hcursor
  · exact covers_cursor_iff hcwd hparse hmain hproject

end

end

namespace Sample

/-- Bytes that are not JSON. -/
@[reducible] def noText : ConfigText := ⟨fun _ => .error (.parse "expected value at line 1 column 1")⟩

/-- A process in `/work`, without variables. -/
def setting : Setting := ⟨some "/work", fun _ => none, "/usr/bin/thoughtgate"⟩

def options : ShimOptions := ⟨"http://127.0.0.1:4000", .production, none⟩

/-- `{"mcpServers": {"fs": {"command": "npx"}}}`. -/
def fsConfig : AgentConfig :=
  ⟨.object [("mcpServers", .object [("fs", .object [("command", .string "npx")])])],
    .cons (by decide) (.cons (by decide) (.cons (by decide) (.string "npx") .emptyObject) .emptyObject) .emptyObject⟩

/-- An empty config, and a server in the project. -/
def projectOnly : Files Path Text
  | .file "/home/.claude.json" => some (.printed ⟨.object [], .emptyObject⟩)
  | .file "/work/.mcp.json" => some (.printed fsConfig)
  | _ => none

/-- A config with a server. -/
def configOnly : Files Path Text
  | .file "/home/mcp.json" => some (.printed fsConfig)
  | _ => none

end Sample

attribute [local instance] Sample.noText

/-- Claude Desktop's only server is covered. -/
theorem rewrite_covers_sample :
    ∃ servers d', servers ≠ [] ∧ parseServers .claudeDesktop Sample.setting Sample.configOnly (.file "/home/mcp.json") =
        .ok servers ∧
      rewriteConfig Sample.setting Sample.options servers .claudeDesktop (.file "/home/mcp.json")
        ⟨Sample.configOnly, fun _ => .done⟩ = (.ok (.backup (.file "/home/mcp.json")), d') ∧
      Covered .claudeDesktop Sample.setting Sample.options (.file "/home/mcp.json") servers d'.files := by
  have hparse : parseServers .claudeDesktop Sample.setting Sample.configOnly (.file "/home/mcp.json") =
      .ok [⟨"fs", "npx", [], none, true⟩] := rfl
  have hok : (rewriteConfig Sample.setting Sample.options [⟨"fs", "npx", [], none, true⟩] .claudeDesktop
      (.file "/home/mcp.json") ⟨Sample.configOnly, fun _ => .done⟩).1 = .ok (.backup (.file "/home/mcp.json")) := rfl
  exact ⟨_, _, by simp, hparse, Prod.ext hok rfl,
    (rewrite_covers_iff (d := ⟨Sample.configOnly, fun _ => .done⟩) hparse (Prod.ext hok rfl)).mpr trivial⟩

/-- A server of `.mcp.json` is listed, the rewrite returns `Ok`, and the server is started as before. -/
theorem rewrite_leaves_project_server :
    ∃ servers d', parseServers .claudeCode Sample.setting Sample.projectOnly (.file "/home/.claude.json") = .ok servers ∧
      rewriteConfig Sample.setting Sample.options servers .claudeCode (.file "/home/.claude.json")
        ⟨Sample.projectOnly, fun _ => .done⟩ = (.ok (.backup (.file "/home/.claude.json")), d') ∧
      parseServers .claudeCode Sample.setting d'.files (.file "/home/.claude.json") = .ok servers ∧
      ¬ Covered .claudeCode Sample.setting Sample.options (.file "/home/.claude.json") servers d'.files := by
  have hparse : parseServers .claudeCode Sample.setting Sample.projectOnly (.file "/home/.claude.json") =
      .ok [⟨"fs", "npx", [], none, true⟩] := rfl
  have hok : (rewriteConfig Sample.setting Sample.options [⟨"fs", "npx", [], none, true⟩] .claudeCode
      (.file "/home/.claude.json") ⟨Sample.projectOnly, fun _ => .done⟩).1 =
        .ok (.backup (.file "/home/.claude.json")) := rfl
  have hagain : parseServers .claudeCode Sample.setting (rewriteConfig Sample.setting Sample.options
      [⟨"fs", "npx", [], none, true⟩] .claudeCode (.file "/home/.claude.json")
        ⟨Sample.projectOnly, fun _ => .done⟩).2.files (.file "/home/.claude.json") =
      .ok [⟨"fs", "npx", [], none, true⟩] := rfl
  exact ⟨_, _, hparse, Prod.ext hok rfl, hagain, not_covered_of_listed hagain (List.mem_singleton_self _)⟩

end ThoughtGate.Wrap
