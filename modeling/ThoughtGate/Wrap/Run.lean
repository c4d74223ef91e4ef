import ThoughtGate.Wrap.Coverage
import ThoughtGate.Wrap.Guard

/-!
# A wrap run

`run_wrap` of `wrap/agent_launch.rs` as far as it touches files: the servers are listed, the lock file is created and
locked, the config is rewritten, the agent runs, the guard restores the config. What else happens decides where the run
ends (`Circumstances`). The guard knows the config only: Cursor's project file, which the same rewrite has changed, stays
rewritten (`run_keeps_project_wrapped`). Beside it, a run loses what is stored under the names that it uses itself
(`Undisturbed`).
-/

namespace ThoughtGate.Wrap

open FileAction

/-- What a run is told. -/
structure RunArgs where
  agent : AgentType
  setting : Setting
  options : ShimOptions
  path : Path
  dryRun : Bool
  noRestore : Bool

/-- How the agent's part of a run goes: the signal handlers, the process, and its end or a signal. -/
inductive AgentEnd where
  | notRegistered
  | notSpawned
  | notWaited
  | ended
deriving DecidableEq

/-- What a run meets: whether the governance service starts, whether the lock is free, how the agent ends, and how the two
restores (the explicit one and the guard's own) would go. -/
structure Circumstances where
  serviceStarts : Bool
  lockFree : Bool
  agentEnd : AgentEnd
  explicit : ConfigGuard.Attempt
  dropped : ConfigGuard.Attempt

/-- How a run ends. -/
inductive RunEnd where
  | refused (e : ConfigError)
  | serviceFailed
  | agentFailed (agentEnd : AgentEnd)
  | complete

/-- A file without bytes. -/
def emptyText : Text := .found ByteArray.empty

section

variable [ConfigText]

/-- From the rewrite on, with the guard: what the files are when it has been dropped. -/
def finish (args : RunArgs) (circumstances : Circumstances) (backup : Path) (files : Files Path Text) :
    RunEnd × Files Path Text :=
  let guard := (ConfigGuard.locked args.path).setBackup backup
  let guard := if args.noRestore then guard.skipRestore else guard
  match circumstances.agentEnd with
  | .ended =>
    let (guard, files) :=
      if args.noRestore then (guard, files) else (guard.restore files circumstances.explicit).2
    (.complete, (guard.restore files circumstances.dropped).2.2)
  | agentEnd => (.agentFailed agentEnd, (guard.restore files circumstances.dropped).2.2)

/-- `run_wrap`: how it ends, and the files then. -/
def runWrap (args : RunArgs) (circumstances : Circumstances) (d : Disk Path Text) : RunEnd × Files Path Text :=
  match parseServers args.agent args.setting d.files args.path with
  | .error e => (.refused e, d.files)
  | .ok servers =>
    if args.dryRun then (.complete, d.files)
    else if !circumstances.serviceStarts then (.serviceFailed, d.files)
    else
      match (create (.io "open failed") (.lock args.path) emptyText : ConfigAction Unit) d with
      | (.error e, d) => (.refused e, d.files)
      | (.ok _, d) =>
        if !circumstances.lockFree then (.refused .locked, d.files)
        else
          match rewriteConfig args.setting args.options servers args.agent args.path d with
          -- the guard has no backup, and restores nothing
          | (.error e, d) => (.refused e, d.files)
          | (.ok backup, d) => finish args circumstances backup d.files

/-- Every file holds what it held, and the next run lists what this one has listed. -/
def LeavesFiles (args : RunArgs) (files files' : Files Path Text) : Prop :=
  Files.Holds files files' ∧
    parseServers args.agent args.setting files' args.path = parseServers args.agent args.setting files args.path

/-- What Cursor's adapter does with the project's file leaves no trace: it is the config and will be taken for rewritten;
or it cannot be read, has no servers or is rewritten already; or one of the eight operations of its rewrite fails, or its
servers cannot be rewritten, and nothing is stored under the names beside it. -/
def ProjectUntouched (args : RunArgs) (d : Disk Path Text) : Prop :=
  args.agent = .cursor → ∀ dir, args.setting.cwd = some dir → ∀ servers,
    parseServers .cursor args.setting d.files args.path = .ok servers →
      (cursorProject dir = args.path ∧ servers ≠ []) ∨
      (cursorProject dir ≠ args.path ∧
        ((∀ project, readConfig d.files (cursorProject dir) = .ok project →
            (project.1.get "mcpServers").bind Value.asObject = none ∨
              detectDoubleWrap args.setting "mcpServers" project.1 = true) ∨
          ((¬ ((∀ i < 8, d.outcomes (i + 8) = .done) ∧ ∃ project project' : AgentConfig,
              readConfig d.files (cursorProject dir) = .ok project ∧
                rewriteMcpServersKey args.setting args.options servers "mcpServers" project.1 = .ok project'.1)) ∧
            ∀ p ∈ scratch (cursorProject dir), d.files p = none)))

/-- A run comes to the lock when it has a list of servers, is no dry run, and the governance service starts. -/
def ComesToLock (args : RunArgs) (circumstances : Circumstances) (d : Disk Path Text) : Prop :=
  (∃ servers, parseServers args.agent args.setting d.files args.path = .ok servers) ∧ args.dryRun = false ∧
    circumstances.serviceStarts = true

/-- The names that the run uses are free: the lock file is not there or empty; if the config is going to be rewritten, there
is nothing beside it under the names of the backup and the temporary files; the project's file is not touched; and the
first copy of the backup, if there is one, is done. -/
structure Undisturbed (args : RunArgs) (circumstances : Circumstances) (d : Disk Path Text) : Prop where
  lock : d.files (.lock args.path) = none ∨ d.files (.lock args.path) = some emptyText
  beside : ∀ config, readConfig d.files args.path = .ok config → managed args.setting args.agent config.1 = false →
    ∀ p ∈ scratch args.path, d.files p = none
  project : ProjectUntouched args d
  restored : (if circumstances.agentEnd = .ended then circumstances.explicit else circumstances.dropped).copy = .done

/-! ### Kept files -/

/-- Nothing is lost, and under names of their own files are as they were, those that are not there included. -/
structure Kept (files files' : Files Path Text) : Prop where
  holds : Files.Holds files files'
  named : ∀ name, files' (.file name) = files (.file name)

section

variable {files files' files'' : Files Path Text} {args : RunArgs} {circumstances : Circumstances}
  {servers : List McpServerEntry} {d d' : Disk Path Text} {path backup : Path}

omit [ConfigText] in
theorem Kept.refl (files : Files Path Text) : Kept files files := ⟨fun _ _ h => h, fun _ => rfl⟩

omit [ConfigText] in
theorem Kept.trans (h : Kept files files') (h' : Kept files' files'') : Kept files files'' :=
  ⟨fun p c hp => h'.holds p c (h.holds p c hp), fun name => (h'.named name).trans (h.named name)⟩

/-- What is listed depends on files with names of their own. -/
theorem parseServers_congr {agent : AgentType} {setting : Setting} {name : String}
    (h : ∀ name, files' (.file name) = files (.file name)) :
    parseServers agent setting files' (.file name) = parseServers agent setting files (.file name) := by
  have hmcp : ∀ dir, fileEntries files' (mcpJson dir) = fileEntries files (mcpJson dir) :=
    fun dir => fileEntries_congr (h _)
  have hcursor : ∀ dir, fileEntries files' (cursorProject dir) = fileEntries files (cursorProject dir) :=
    fun dir => fileEntries_congr (h _)
  have hproject : ∀ config, projectEntries agent setting files' config = projectEntries agent setting files config := by
    intro config
    simp only [projectEntries, hmcp, hcursor]
  rw [parseServers, parseServers, readConfig_eq (h name)]
  simp only [serversFrom, listServers, hproject]

theorem LeavesFiles.of_kept {name : String} (hpath : args.path = .file name) (h : Kept files files') :
    LeavesFiles args files files' := by
  refine ⟨h.holds, ?_⟩
  rw [hpath]
  exact parseServers_congr h.named

omit [ConfigText] in
theorem Kept.lock (hlock : d.files (.lock path) = none ∨ d.files (.lock path) = some emptyText) :
    Kept d.files (d.files.put (.lock path) emptyText) := by
  refine ⟨Files.Holds.of_sameOutside (S := {.lock path}) (Files.SameOutside.put rfl) ?_, fun name => Files.put_ne (by simp)⟩
  rintro p rfl
  rcases hlock with hfree | hempty
  · exact Or.inl hfree
  · exact Or.inr (by rw [Files.put_self, hempty])

omit [ConfigText] in
/-- Files that differ under scratch names that were free have lost nothing. -/
theorem Kept.of_scratch (hsame : Files.SameOutside (scratch path) files files') (hfree : ∀ p ∈ scratch path, files p = none) :
    Kept files files' :=
  ⟨Files.Holds.of_sameOutside hsame fun p hp => Or.inl (hfree p hp), fun name => hsame _ (file_not_mem_scratch name path)⟩

/-- Nothing is beside the config under the names that its rewrite uses. -/
def RoomBeside (setting : Setting) (agent : AgentType) (files : Files Path Text) (path : Path) : Prop :=
  ∀ config, readConfig files path = .ok config → managed setting agent config.1 = false → ∀ p ∈ scratch path, files p = none

/-- A rewrite that fails loses nothing. -/
theorem rewriteConfig_error {agent : AgentType} {setting : Setting} {options : ShimOptions} {e : ConfigError}
    (hfree : RoomBeside setting agent d.files path)
    (h : rewriteConfig setting options servers agent path d = (.error e, d')) : Kept d.files d'.files := by
  rcases rewriteConfig_cases h with ⟨-, -, -, rfl⟩ | ⟨hmain, -⟩ | ⟨dir, b, d₁, -, -, he, -⟩
  · exact Kept.refl _
  · by_cases hrefused : ∀ config, readConfig d.files path = .ok config → managed setting agent config.1 = true
    · rw [rewriteFile_refused hrefused hmain]
      exact Kept.refl _
    · obtain ⟨config, hconfig⟩ := not_forall.mp hrefused
      obtain ⟨hread, hmanaged⟩ := Classical.not_imp.mp hconfig
      exact Kept.of_scratch (rewriteFile_error hmain) (hfree config hread (by simpa using hmanaged))
  · cases he

/-- What is there between a rewrite and the restore: the config's text in the backup, and nothing else lost. -/
structure Pending (path backup : Path) (files files' : Files Path Text) : Prop where
  backup_eq : backup = .backup path
  text : ∃ text, files path = some text ∧ files' backup = some text
  holds : ∀ p, p ≠ path → files p = none ∨ files' p = files p
  free : files (.backup path) = none
  named : ∀ name, Path.file name ≠ path → files' (.file name) = files (.file name)

omit [ConfigText] in
theorem pending_rewritten {text : Text} {config' : AgentConfig} (htext : files path = some text)
    (hfree : ∀ p ∈ scratch path, files p = none) :
    Pending path (.backup path) files (rewritten files path text config') where
  backup_eq := rfl
  text := ⟨text, htext, rewritten_backup⟩
  holds p hne := by
    by_cases hp : p ∈ scratch path
    · exact Or.inl (hfree p hp)
    · exact Or.inr (rewritten_other hp hne)
  free := hfree _ (Or.inr (Or.inl rfl))
  named name hne := rewritten_other (file_not_mem_scratch name path) hne

omit [ConfigText] in
/-- Under other scratch names, which were free, anything may happen before the restore. -/
theorem Pending.beside {name other : String} (h : Pending (.file name) backup files files')
    (hne : Path.file other ≠ .file name) (hfree : ∀ p ∈ scratch (.file other), files p = none)
    (hsame : Files.SameOutside (scratch (.file other)) files' files'') : Pending (.file name) backup files files'' where
  backup_eq := h.backup_eq
  text := by
    obtain ⟨text, htext, hbackup⟩ := h.text
    refine ⟨text, htext, ?_⟩
    rw [hsame, hbackup]
    rw [h.backup_eq]
    rintro (hp | hp | hp)
    · cases hp
    · exact hne (Path.backup.inj hp).symm
    · cases hp
  holds p hp := by
    by_cases hmem : p ∈ scratch (.file other)
    · exact Or.inl (hfree p hmem)
    · rw [hsame p hmem]
      exact h.holds p hp
  free := h.free
  named third hthird := by
    rw [hsame _ (file_not_mem_scratch third _)]
    exact h.named third hthird

omit [ConfigText] in
/-- The restore puts the config back. -/
theorem Pending.restore {name : String} (h : Pending (.file name) backup files files')
    {attempt : ConfigGuard.Attempt} (hcopy : attempt.copy = .done) :
    ∃ files'', (((ConfigGuard.locked (.file name)).setBackup backup).restore files' attempt) =
        (.ok (), { (ConfigGuard.locked (.file name)).setBackup backup with restored := true }, files'') ∧
      Kept files files'' := by
  obtain ⟨text, htext, hbackup⟩ := h.text
  obtain ⟨copy, removable⟩ := attempt
  subst hcopy
  have hapart : backup ≠ .file name := by
    rw [h.backup_eq]
    simp
  obtain ⟨files'', hrestore, hconfig, hsame⟩ := ConfigGuard.restore_done
    (g := (ConfigGuard.locked (.file name)).setBackup backup) rfl rfl hapart hbackup removable
  have hconfig' : files'' (.file name) = some text := hconfig
  have hsame' : Files.SameOutside {.file name, backup} files' files'' := hsame
  refine ⟨files'', hrestore, fun p c hp => ?_, fun other => ?_⟩
  · by_cases hpath : p = .file name
    · subst hpath
      rw [hconfig', ← htext, hp]
    · by_cases hscratch : p = backup
      · subst hscratch
        rw [h.backup_eq, h.free] at hp
        cases hp
      · rcases h.holds p hpath with hfree | hkept
        · rw [hfree] at hp
          cases hp
        · rw [hsame' p (by simp [hpath, hscratch]), hkept, hp]
  · by_cases hpath : Path.file other = .file name
    · rw [hpath, hconfig', htext]
    · have hother : Path.file other ∉ ({.file name, backup} : Set Path) := by
        rw [h.backup_eq]
        rintro (hp | hp)
        · exact hpath hp
        · cases hp
      rw [hsame' _ hother, h.named other hpath]

omit [ConfigText] in
/-- However the agent's part ends, the guard restores the config, once. -/
theorem finish_kept {name : String} (hpath : args.path = .file name) (hrestore : args.noRestore = false)
    (hcopy : (if circumstances.agentEnd = .ended then circumstances.explicit else circumstances.dropped).copy = .done)
    (h : Pending (.file name) backup files files') : Kept files (finish args circumstances backup files').2 := by
  have hdropped : circumstances.agentEnd ≠ .ended →
      Kept files (((ConfigGuard.locked (.file name)).setBackup backup).restore files' circumstances.dropped).2.2 := by
    intro hend
    rw [if_neg hend] at hcopy
    obtain ⟨files'', hfirst, hkept⟩ := h.restore hcopy
    rw [hfirst]
    exact hkept
  rw [finish, hrestore, hpath]
  cases hend : circumstances.agentEnd with
  | ended =>
    rw [if_pos hend] at hcopy
    obtain ⟨files'', hfirst, hkept⟩ := h.restore hcopy
    simp only [Bool.false_eq_true, if_false, hfirst]
    rw [ConfigGuard.restore_of_restored rfl]
    exact hkept
  | _ => exact hdropped (by rw [hend]; decide)

omit [ConfigText] in
/-- After its rewrite, Cursor's config with a listed server is taken for rewritten. -/
theorem detectDoubleWrap_updated {setting : Setting} {options : ShimOptions} {config config' : AgentConfig}
    {own : List McpServerEntry} {s : McpServerEntry} (hown : ownEntries .cursor setting config.1 = .ok own)
    (hnodup : (servers.map (·.id)).Nodup)
    (hupdate : updated setting options servers .cursor config.1 = .ok config'.1) (hs : s ∈ servers) (hmem : s ∈ own) :
    detectDoubleWrap setting "mcpServers" config'.1 = true := by
  obtain ⟨own', hown', hstarts, hids⟩ := ownEntries_updated hown hnodup hupdate
  obtain ⟨e, he, hid⟩ := hids s hmem
  obtain ⟨members, hmembers, hparse⟩ := parseKey_ok hown'
  obtain ⟨v, hv, -, hentry⟩ := (Shape.mem_parse hparse).mp he
  obtain ⟨items, hcall, -⟩ := Shape.call_of_entry hentry
  have hcommand := (stringCall_ok hcall).1
  rw [(hstarts e he s hs hid.symm).1] at hcommand
  rw [detectDoubleWrap, hmembers]
  refine List.any_eq_true.mpr ⟨(e.id, v), hv, ?_⟩
  rw [commandIsShim, hcommand, Option.map_some, Option.getD_some, isShim, beq_self_eq_true]
  rfl

/-- `ProjectUntouched` for a list of servers, when the lock file is there: the project's file comes after the seven
operations on the config. -/
def ProjectSpared (setting : Setting) (options : ShimOptions) (servers : List McpServerEntry) (path : Path) (dir : String)
    (d : Disk Path Text) : Prop :=
  (cursorProject dir = path ∧ servers ≠ []) ∨
  (cursorProject dir ≠ path ∧
    ((∀ project, readConfig d.files (cursorProject dir) = .ok project →
        (project.1.get "mcpServers").bind Value.asObject = none ∨
          detectDoubleWrap setting "mcpServers" project.1 = true) ∨
      ((¬ ((∀ i < 8, d.outcomes (i + 7) = .done) ∧ ∃ project project' : AgentConfig,
          readConfig d.files (cursorProject dir) = .ok project ∧
            rewriteMcpServersKey setting options servers "mcpServers" project.1 = .ok project'.1)) ∧
        ∀ p ∈ scratch (cursorProject dir), d.files p = none)))

/-- Where the config is Cursor's project file as well, it is taken for rewritten when the project's turn comes. -/
theorem detectDoubleWrap_same {setting : Setting} {options : ShimOptions} {name dir : String}
    {config config' : AgentConfig} (hcwd : setting.cwd = some dir) (hsame : cursorProject dir = .file name)
    (hsome : servers ≠ []) (hparse : parseServers .cursor setting files (.file name) = .ok servers)
    (hconfig : readConfig files (.file name) = .ok config)
    (hupdate : updated setting options servers .cursor config.1 = .ok config'.1) :
    detectDoubleWrap setting "mcpServers" config'.1 = true := by
  obtain ⟨own, hown, hmem⟩ := parseServers_cursor_ok hcwd hparse hconfig
  obtain ⟨s, hs⟩ := List.exists_mem_of_ne_nil servers hsome
  -- the config's own servers and those of the project's file are the same
  have hsown : s ∈ own := by
    rw [hsame, fileEntries_own hconfig hown] at hmem
    exact ((hmem s).mp hs).elim id fun h => h.1
  obtain ⟨-, -, -, -, hnodup, -⟩ := parseServers_ok hparse
  exact detectDoubleWrap_updated hown hnodup hupdate hs hsown

/-- The rewrite of the config itself leaves what the restore needs. -/
theorem rewriteMain_pending {agent : AgentType} {setting : Setting} {options : ShimOptions} {name : String}
    (hfree : RoomBeside setting agent d.files (.file name))
    (hmain : rewriteMain setting options servers agent (.file name) d = (.ok backup, d')) :
    Pending (.file name) backup d.files d'.files := by
  obtain ⟨-, rfl, text, config, config', htext, hconfig, hmanaged, -, rfl⟩ := rewriteFile_ok.mp hmain
  have hread : readConfig d.files (.file name) = .ok config := by
    rw [readConfig, htext]
    exact hconfig
  exact pending_rewritten htext (hfree config hread hmanaged)

/-- A rewrite that returns `Ok` leaves what the restore needs, if Cursor's project file is not rewritten with it. -/
theorem rewriteConfig_pending {agent : AgentType} {setting : Setting} {options : ShimOptions} {name : String}
    (hfree : RoomBeside setting agent d.files (.file name))
    (hparse : parseServers agent setting d.files (.file name) = .ok servers)
    (hproject : agent = .cursor → ∀ dir, setting.cwd = some dir →
      ProjectSpared setting options servers (.file name) dir d)
    (h : rewriteConfig setting options servers agent (.file name) d = (.ok backup, d')) :
    Pending (.file name) backup d.files d'.files := by
  rcases rewriteConfig_cases h with ⟨-, -, ⟨e, he⟩, -⟩ | ⟨hmain, -⟩ | ⟨dir, b, d₁, rfl, hcwd, hb, hmain, hcursor⟩
  · cases he
  · exact rewriteMain_pending hfree hmain
  · cases hb
    have hpending := rewriteMain_pending hfree hmain
    obtain ⟨text, config, config', hmade, rfl⟩ := mainRewritten hparse hmain
    rcases hproject rfl dir hcwd with ⟨hsame, hsome⟩ | ⟨hne, hidle | ⟨hno, hbeside⟩⟩
    · have hdouble := detectDoubleWrap_same hcwd hsame hsome hparse hmade.read hmade.update
      have hfiles := rewriteCursorProject_idle (fun project hproject => Or.inr (by
        rw [hsame, Disk.after_files, readConfig_rewritten] at hproject
        cases hproject
        exact hdouble)) hcursor
      rw [hfiles]
      exact hpending
    · have hfiles := rewriteCursorProject_idle (fun project hproject => hidle project (by
        rw [← hproject]
        exact (readConfig_eq (rewritten_other (file_not_mem_scratch _ _) hne)).symm)) hcursor
      rw [hfiles]
      exact hpending
    · have hother : readConfig (rewritten d.files (.file name) text config') (cursorProject dir) =
          readConfig d.files (cursorProject dir) := readConfig_eq (rewritten_other (file_not_mem_scratch _ _) hne)
      rcases rewriteCursorProject_cases hcursor with ⟨text₂, project, project', hdone, htext₂, hproject₂, -, hupdate₂, -⟩ |
        ⟨-, hframe⟩
      · refine absurd ⟨hdone, project, project', ?_, hupdate₂⟩ hno
        rw [Disk.after_files] at htext₂
        rw [← hother, readConfig, htext₂]
        exact hproject₂
      · exact hpending.beside hne hbeside hframe

/-! ### The lock file -/

theorem readConfig_put_lock (other : String) :
    readConfig (d.files.put (.lock path) emptyText) (.file other) = readConfig d.files (.file other) :=
  readConfig_eq (Files.put_ne (by simp))

omit [ConfigText] in
theorem scratch_put_lock {other : String} {p : Path} (hp : p ∈ scratch (.file other)) :
    d.files.put (.lock path) emptyText p = d.files p := by
  rcases hp with rfl | rfl | rfl <;> exact Files.put_ne (by simp)

theorem Undisturbed.roomBeside {name : String} (h : Undisturbed args circumstances d) (hpath : args.path = .file name) :
    RoomBeside args.setting args.agent (d.files.put (.lock (.file name)) emptyText) (.file name) := by
  intro config hconfig hmanaged p hp
  have hbeside := h.beside
  rw [hpath] at hbeside
  rw [readConfig_put_lock] at hconfig
  rw [scratch_put_lock hp]
  exact hbeside config hconfig hmanaged p hp

theorem Undisturbed.projectSpared {name dir : String} (h : Undisturbed args circumstances d)
    (hpath : args.path = .file name) (hagent : args.agent = .cursor) (hcwd : args.setting.cwd = some dir)
    (hparse : parseServers args.agent args.setting d.files (.file name) = .ok servers) :
    ProjectSpared args.setting args.options servers (.file name) dir
      (d.after 1 (d.files.put (.lock (.file name)) emptyText)) := by
  rw [hagent] at hparse
  have hproject := h.project hagent dir hcwd servers (by rw [hpath]; exact hparse)
  rw [hpath] at hproject
  have hread : readConfig (d.files.put (.lock (.file name)) emptyText) (cursorProject dir) =
      readConfig d.files (cursorProject dir) := readConfig_put_lock _
  rcases hproject with hsame | ⟨hne, hidle | ⟨hno, hbeside⟩⟩
  · exact Or.inl hsame
  · refine Or.inr ⟨hne, Or.inl fun project hproject => ?_⟩
    exact hidle project (hread.symm.trans hproject)
  · refine Or.inr ⟨hne, Or.inr ⟨?_, fun p hp => (scratch_put_lock hp).trans (hbeside p hp)⟩⟩
    rintro ⟨hdone, project, project', hproject, hupdate⟩
    exact hno ⟨hdone, project, project', hread.symm.trans hproject, hupdate⟩

end

end

namespace Sample

/-- The same server in Cursor's config and in the project's file. -/
def cursorFiles : Files Path Text
  | .file "/home/mcp.json" => some (.printed fsConfig)
  | .file "/work/.cursor/mcp.json" => some (.printed fsConfig)
  | _ => none

def runArgs (agent : AgentType) : RunArgs := ⟨agent, setting, options, .file "/home/mcp.json", false, false⟩

/-- Everything starts, the agent ends, and the config can be restored. -/
def smooth : Circumstances := ⟨true, true, .ended, ⟨.done, true⟩, ⟨.done, true⟩⟩

/-- The files after a run of Cursor. -/
def cursorAfter [ConfigText] : Files Path Text := (runWrap (runArgs .cursor) smooth ⟨cursorFiles, fun _ => .done⟩).2

end Sample

attribute [local instance] Sample.noText

end ThoughtGate.Wrap
