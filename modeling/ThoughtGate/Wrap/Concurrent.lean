import ThoughtGate.Lib.Machine
import ThoughtGate.Wrap.Preserve
import ThoughtGate.Wrap.Run

/-!
# Concurrent runs

Any number of runs work on one config. A run reads the config and then the project's file, takes the lock, rewrites, starts
the agent, copies the backup back and lets go of the lock (`Runs.step`); what lies between two operations of a run is open
to all the others. Of a rewrite the two parts are one step each, for each changes one file that others read, with the
renaming at its end; the copy of a restore is not atomic, and leaves anything in the config until it is through.

The lock orders the rewrites and restores, but the servers are listed before it is taken. A list that was read while
another run's rewrite stood in the config has the shim for a command, and when that run has restored the config, nothing
stops a rewrite with this list (`wrap_wraps_twice`). In runs without such a rewrite (`Careful`) every rewrite is one of
what the config held before the first run, and the config is what it was when nobody is at work (`wraps_sound`).
-/

namespace ThoughtGate.Wrap

open FileAction

/-- The runs on one config, each with a directory, variables and a shim of its own. -/
structure Runs where
  agent : AgentType
  name : String
  setting : Nat → Setting
  options : Nat → ShimOptions

/-- Where a run is: it has read the config, it has listed the servers, it holds the lock, its rewrite stands in the config,
the agent has been started, the backup is being copied, it has only the lock left. With a list goes whether it is still to
be trusted when it is used. -/
inductive Phase where
  | start
  | read (config : AgentConfig) (clear : Bool)
  | listed (servers : List McpServerEntry) (fresh : Bool)
  | locked (servers : List McpServerEntry) (fresh : Bool)
  | rewritten (servers : List McpServerEntry)
  | launched (servers : List McpServerEntry)
  | restoring
  | finished
  | ended

/-- The run holds the lock. -/
def Phase.holds : Phase → Bool
  | .locked _ _ | .rewritten _ | .launched _ | .restoring | .finished => true
  | .start | .read _ _ | .listed _ _ | .ended => false

/-- The files, who holds the lock, and where each run is. -/
structure WrapState where
  files : Files Path Text
  holder : Option Nat
  phases : Nat → Phase

/-- One step of one run, with what its operations on the disk meet. -/
inductive WrapAction where
  | read (i : Nat)
  | list (i : Nat)
  | leave (i : Nat)
  | lock (i : Nat) (outcome : FileOutcome Text)
  | rewrite (i : Nat) (outcomes : Nat → FileOutcome Text)
  | project (i : Nat) (outcomes : Nat → FileOutcome Text)
  | copy (i : Nat) (left : Option Text)
  | restore (i : Nat) (attempt : ConfigGuard.Attempt)
  | release (i : Nat)

/-- A run goes on to a phase, with these files. -/
def WrapState.move (s : WrapState) (i : Nat) (phase : Phase) (files : Files Path Text) : WrapState :=
  { s with files := files, phases := Function.update s.phases i phase }

section

variable {s : WrapState} {i j : Nat} {phase : Phase} {files : Files Path Text}

theorem WrapState.move_phase : (s.move i phase files).phases i = phase := Function.update_self ..

theorem WrapState.move_other (hne : j ≠ i) : (s.move i phase files).phases j = s.phases j :=
  Function.update_of_ne hne ..

end

namespace Runs

variable (r : Runs)

def path : Path := .file r.name

/-- The guard of a run that has rewritten the config. -/
def guard : ConfigGuard := (ConfigGuard.locked r.path).setBackup (.backup r.path)

/-- Claude Code's servers in another directory are other servers. -/
def apart (i j : Nat) : Bool := r.agent == .claudeCode && (r.setting i).cwd != (r.setting j).cwd

/-- No other run's rewrite of these servers stands in the config. -/
def clear (s : WrapState) (i : Nat) : Bool :=
  match s.holder with
  | none => true
  | some j =>
    match s.phases j with
    | .rewritten _ | .launched _ => r.apart j i
    | .restoring => false
    | _ => true

variable [ConfigText]

/-- The project's file starts the config's servers as the config does. -/
def agrees (files : Files Path Text) (i : Nat) (config : Value) : Bool :=
  match ownEntries r.agent (r.setting i) config with
  | .error _ => false
  | .ok own => (projectEntries r.agent (r.setting i) files config).all fun o =>
      own.all fun e => o.id != e.id || (o.command == e.command && o.args == e.args)

/-- One step, if it is possible. -/
def step (s : WrapState) : WrapAction → Option WrapState
  | .read i =>
    match s.phases i with
    | .start =>
      match readConfig s.files r.path with
      | .error _ => some (s.move i .ended s.files)
      | .ok config => some (s.move i (.read config (r.clear s i)) s.files)
    | _ => none
  | .list i =>
    match s.phases i with
    | .read config clear =>
      match serversFrom r.agent (r.setting i) s.files config.1 with
      | .error _ => some (s.move i .ended s.files)
      | .ok servers => some (s.move i (.listed servers (clear && r.agrees s.files i config.1)) s.files)
    | _ => none
  | .leave i =>
    match s.phases i with
    | .listed _ _ => some (s.move i .ended s.files)
    | _ => none
  | .lock i outcome =>
    match s.phases i with
    | .listed servers fresh =>
      match (create (.io "open failed") (.lock r.path) emptyText : ConfigAction Unit) ⟨s.files, fun _ => outcome⟩ with
      | (.error _, d) => some (s.move i .ended d.files)
      | (.ok _, d) =>
        match s.holder with
        | some _ => some (s.move i .ended d.files)
        | none => some { s.move i (.locked servers fresh) d.files with holder := some i }
    | _ => none
  | .rewrite i outcomes =>
    match s.phases i with
    | .locked servers _ =>
      match rewriteConfigFile (r.setting i) (r.options i) servers r.agent r.path ⟨s.files, outcomes⟩ with
      | (.error _, d) => some (s.move i .finished d.files)
      | (.ok _, d) => some (s.move i (.rewritten servers) d.files)
    | _ => none
  | .project i outcomes =>
    match s.phases i with
    | .rewritten servers =>
      let after := rewriteProjectFile (r.setting i) (r.options i) servers r.agent ⟨s.files, outcomes⟩
      some (s.move i (.launched servers) after.2.files)
    | _ => none
  | .copy i left =>
    match s.phases i with
    | .launched _ => some (s.move i .restoring (left.elim s.files (s.files.put r.path)))
    | _ => none
  | .restore i attempt =>
    match s.phases i with
    | .restoring => some (s.move i .finished (r.guard.restore s.files attempt).2.2)
    | _ => none
  | .release i =>
    match s.phases i with
    | .finished => some { s.move i .ended s.files with holder := none }
    | _ => none

/-- The runs, from files of before the first one. -/
def machine (files : Files Path Text) : Machine WrapState WrapAction := ⟨⟨files, none, fun _ => .start⟩, r.step⟩

omit [ConfigText] in
/-- An entry of the config. -/
def member (i : Nat) (config : Value) (id : String) : Option Value :=
  (serversAt r.agent (r.setting i) config).bind fun members => (Value.object members).get id

/-- What a rewrite of these servers has made of the backup: a listed server starts the shim, and after the separator stands
what it is in the backup; another one is as it is there. -/
def WrapsBackup (i : Nat) (servers : List McpServerEntry) (files : Files Path Text) : Prop :=
  ∃ backup config entries, readConfig files (.backup r.path) = .ok backup ∧ readConfig files r.path = .ok config ∧
    ownEntries r.agent (r.setting i) config.1 = .ok entries ∧
    ∀ e ∈ entries, ∃ v, r.member i backup.1 e.id = some v ∧
      ((∃ server ∈ servers, server.id = e.id) → Relaunches r.agent (r.setting i) (r.options i) e.id v e) ∧
      ((∀ server ∈ servers, server.id ≠ e.id) → r.member i config.1 e.id = some v)

/-- Where a rewrite stands in the config, it is one of the backup; and when all runs have ended, the config is what it was. -/
structure Sound (files : Files Path Text) (s : WrapState) : Prop where
  wrapped : ∀ i servers, s.phases i = .rewritten servers ∨ s.phases i = .launched servers →
    r.WrapsBackup i servers s.files
  restored : (∀ i, s.phases i = .start ∨ s.phases i = .ended) → s.files r.path = files r.path

omit [ConfigText] in
/-- The arguments of an entry are strings, and all of them are read. -/
def Readable (agent : AgentType) (server : Value) : Prop :=
  (∀ item ∈ launchItems agent server, ∃ text, item = .string text) ∧
    (agent = .zed → ∀ command, server.get "command" = some (.string command) → argItems server = [])

/-- A rewrite that is not refused has a list to be trusted, of entries that can be read; Cursor's project file, if it is the
config, is taken for rewritten; a copy of the backup that fails leaves its text all the same. -/
def Careful (s : WrapState) : WrapAction → Prop
  | .rewrite i _ => ∀ config, readConfig s.files r.path = .ok config → managed (r.setting i) r.agent config.1 = false →
      ∀ servers fresh, s.phases i = .locked servers fresh → fresh = true ∧
        ∀ server ∈ servers, ∀ v, r.member i config.1 server.id = some v → Readable r.agent v
  | .project i _ => r.agent = .cursor → ∀ dir, (r.setting i).cwd = some dir → cursorProject dir = r.path →
      ∀ config, readConfig s.files r.path = .ok config →
        (config.1.get "mcpServers").bind Value.asObject = none ∨
          detectDoubleWrap (r.setting i) "mcpServers" config.1 = true
  | .restore _ attempt => r.guard.FirstCopies s.files (.backup r.path) attempt.copy
  | _ => True

/-! ### What holds in every run -/

/-- The list has the config's servers with the calls that they have there. -/
def ListsConfig (files : Files Path Text) (i : Nat) (servers : List McpServerEntry) : Prop :=
  ∃ config own, readConfig files r.path = .ok config ∧ ownEntries r.agent (r.setting i) config.1 = .ok own ∧
    (servers.map (·.id)).Nodup ∧ ∀ e ∈ own, ∀ server ∈ servers, server.id = e.id →
      expander r.agent (r.setting i) e.command = .ok server.command ∧
        List.Forall₂ (fun a b => expander r.agent (r.setting i) a = .ok b) e.args server.args

/-- What a run knows of the config that was there before the first run. -/
def Knows (files : Files Path Text) (i : Nat) : Phase → Prop
  | .read config true => ∃ first, readConfig files r.path = .ok first ∧
      ownEntries r.agent (r.setting i) config.1 = ownEntries r.agent (r.setting i) first.1
  | .listed servers true | .locked servers true => r.ListsConfig files i servers
  | .rewritten servers | .launched servers => r.ListsConfig files i servers ∧
      ∀ config, readConfig files r.path = .ok config → ∀ server ∈ servers, ∀ v,
        r.member i config.1 server.id = some v → Readable r.agent v
  | _ => True

/-- What the config and the backup are while this run holds the lock. -/
def Holds (first : Files Path Text) (i : Nat) (files : Files Path Text) : Phase → Prop
  | .rewritten servers | .launched servers => ∃ config config' : AgentConfig, readConfig first r.path = .ok config ∧
      updated (r.setting i) (r.options i) servers r.agent config.1 = .ok config'.1 ∧
      files r.path = some (.printed config') ∧ files (.backup r.path) = first r.path
  | .restoring => ∃ text, first r.path = some text ∧ files (.backup r.path) = some text
  | _ => files r.path = first r.path

/-- The invariant: the holder is who says so; without one the config is what it was, and else it is what the holder's phase
says; and each run knows what it should. -/
structure Inv (first : Files Path Text) (s : WrapState) : Prop where
  lock : ∀ i, (s.phases i).holds = true ↔ s.holder = some i
  free : s.holder = none → s.files r.path = first r.path
  held : ∀ i, s.holder = some i → r.Holds first i s.files (s.phases i)
  knows : ∀ i, r.Knows first i (s.phases i)

/-! ### One rewrite -/

section

variable {r} {first files files' : Files Path Text} {i j : Nat} {servers own : List McpServerEntry}
  {config config' : AgentConfig} {s s' : WrapState} {phase : Phase}

omit [ConfigText] in
theorem member_eq {id : String} {v : Value}
    (h : (Value.object ((serversAt r.agent (r.setting i) config.1).getD [])).get id = some v) :
    r.member i config.1 id = some v := by
  rw [member]
  cases hat : serversAt r.agent (r.setting i) config.1 with
  | none =>
    rw [hat] at h
    cases h
  | some members =>
    rw [hat] at h
    exact h

omit [ConfigText] in
/-- What is read of a rewritten config: each entry is what the rewrite has made of one that was read before. -/
theorem entry_updated (hown : ownEntries r.agent (r.setting i) config.1 = .ok own)
    (hnodup : (servers.map (·.id)).Nodup)
    (hupdate : updated (r.setting i) (r.options i) servers r.agent config.1 = .ok config'.1)
    {own' : List McpServerEntry} (hown' : ownEntries r.agent (r.setting i) config'.1 = .ok own')
    {e : McpServerEntry} (he : e ∈ own') :
    ∃ v v' e₀, r.member i config.1 e.id = some v ∧ r.member i config'.1 e.id = some v' ∧ e₀ ∈ own ∧
      r.agent.shape.entry e.id v = .ok e₀ ∧ ((∀ server ∈ servers, server.id ≠ e.id) → v' = v) := by
  obtain ⟨members', hrewrite, hat'⟩ := updated_ok hupdate
  have hparse := parse_of_ownEntries hown
  have hkeyed := serversAt_getD_keyed r.agent (r.setting i) config.2
  have hparse' : r.agent.shape.parse members' = .ok own' := by
    have hread := parse_of_ownEntries hown'
    rw [hat'] at hread
    exact hread
  obtain ⟨v', hmem', htakes', -⟩ := (Shape.mem_parse hparse').mp he
  have hget' : (Value.object members').get e.id = some v' := by
    cases Shape.rewrite_keyed hkeyed hrewrite with
    | object hkeys' _ => exact Value.get_of_mem hkeys' hmem'
  have hafter := hget'
  rw [Shape.rewrite_get hnodup hrewrite] at hafter
  have hbefore : ∃ v, (Value.object ((serversAt r.agent (r.setting i) config.1).getD [])).get e.id = some v ∧
      r.agent.shape.takes v = true ∧ ((∀ server ∈ servers, server.id ≠ e.id) → v' = v) := by
    cases hfind : servers.find? (·.id == e.id) with
    | none =>
      rw [hfind] at hafter
      exact ⟨v', hafter, htakes', fun _ => rfl⟩
    | some server =>
      rw [hfind] at hafter
      obtain ⟨v, hv, rfl⟩ := Option.map_eq_some_iff.mp hafter
      refine ⟨v, hv, by rw [← htakes', Shape.takes_wrapped], fun hnone => ?_⟩
      exact absurd (by simpa using List.find?_some hfind) (hnone server (List.mem_of_find?_eq_some hfind))
  obtain ⟨v, hv, htakes, hsame⟩ := hbefore
  obtain ⟨e₀, he₀, hentry⟩ := Shape.parse_entry hparse (Value.mem_of_get hv) htakes
  refine ⟨v, v', e₀, member_eq hv, ?_, he₀, hentry, hsame⟩
  rw [member, hat']
  exact hget'

/-- A rewrite with a list of the config's servers has made of the backup what it should. -/
theorem wrapsBackup (hknows : r.Knows first i (.rewritten servers)) (hholds : r.Holds first i files (.rewritten servers)) :
    r.WrapsBackup i servers files := by
  obtain ⟨⟨config₀, own, hread, hown, hnodup, hcalls⟩, hreadable⟩ := hknows
  obtain ⟨config, config', hread₁, hupdate, hconfig, hbackup⟩ := hholds
  cases hread.symm.trans hread₁
  obtain ⟨text, htext, hparse⟩ := readConfig_ok_iff.mp hread
  obtain ⟨own', hown', hstarts, -⟩ := ownEntries_updated hown hnodup hupdate
  refine ⟨config₀, config', own', readConfig_ok_iff.mpr ⟨text, hbackup.trans htext, hparse⟩,
    readConfig_ok_iff.mpr ⟨_, hconfig, rfl⟩, hown', fun e he => ?_⟩
  obtain ⟨v, v', e₀, hv, hv', he₀, hentry, hsame⟩ := entry_updated hown hnodup hupdate hown' he
  refine ⟨v, hv, ?_, fun hnone => by rw [hv', hsame hnone]⟩
  rintro ⟨server, hserver, hid⟩
  obtain ⟨items, hcall, hargs⟩ := Shape.call_of_entry hentry
  obtain ⟨hcommand, hall⟩ := hcalls e₀ he₀ server hserver (hid.trans (Shape.entry_id hentry).symm)
  rw [hargs] at hall
  rw [← hid] at hcall hv ⊢
  exact (relaunches_iff hcall hcommand hall (hstarts e he server hserver hid)).mpr
    (hreadable config₀ hread server hserver v hv)

/-! ### The files of the runs -/

omit [ConfigText] in
theorem path_ne_backup : r.path ≠ .backup r.path := by
  intro h
  cases h

/-- What holds of the config and the backup depends on nothing else. -/
theorem Holds.congr (hconfig : files' r.path = files r.path) (hbackup : files' (.backup r.path) = files (.backup r.path))
    (h : r.Holds first i files phase) : r.Holds first i files' phase := by
  cases phase with
  | rewritten servers =>
    obtain ⟨config, config', hread, hupdate, htext, hold⟩ := h
    exact ⟨config, config', hread, hupdate, hconfig.trans htext, hbackup.trans hold⟩
  | launched servers =>
    obtain ⟨config, config', hread, hupdate, htext, hold⟩ := h
    exact ⟨config, config', hread, hupdate, hconfig.trans htext, hbackup.trans hold⟩
  | restoring =>
    obtain ⟨text, htext, hold⟩ := h
    exact ⟨text, htext, hbackup.trans hold⟩
  | _ => exact hconfig.trans h

/-- The rewrite of the config itself, under the lock: the config is changed and backed up, or it is as it was. -/
theorem holds_rewrite {d : Disk Path Text} {outcomes : Nat → FileOutcome Text} {result : Except ConfigError Path}
    (hfirst : files r.path = first r.path)
    (h : rewriteConfigFile (r.setting i) (r.options i) servers r.agent r.path ⟨files, outcomes⟩ = (result, d)) :
    (∃ e, result = .error e ∧ d.files r.path = first r.path) ∨
      (∃ backup, result = .ok backup) ∧ r.Holds first i d.files (.rewritten servers) ∧
        ∃ config, readConfig first r.path = .ok config ∧ managed (r.setting i) r.agent config.1 = false := by
  rcases rewriteConfigFile_cases h with ⟨⟨e, rfl⟩, rfl⟩ | hmain
  · exact Or.inl ⟨e, rfl, hfirst⟩
  · cases result with
    | error e => exact Or.inl ⟨e, rfl, ((rewriteFile_error hmain) _ (file_not_mem_scratch _ _)).trans hfirst⟩
    | ok backup =>
      obtain ⟨-, -, text, config, config', htext, hparse, hmanaged, hupdate, rfl⟩ := rewriteFile_ok.mp hmain
      have hread : readConfig first r.path = .ok config := readConfig_ok_iff.mpr ⟨text, hfirst.symm.trans htext, hparse⟩
      have hold : rewritten files r.path text config' (.backup r.path) = first r.path :=
        rewritten_backup.trans (htext.symm.trans hfirst)
      exact Or.inr ⟨⟨backup, rfl⟩, ⟨config, config', hread, hupdate, rewritten_config, hold⟩, config, hread, hmanaged⟩

/-- What follows in a rewrite leaves the config and the backup alone. -/
theorem project_beside (servers : List McpServerEntry) (outcomes : Nat → FileOutcome Text)
    (hidle : r.agent = .cursor → ∀ dir, (r.setting i).cwd = some dir → cursorProject dir = r.path →
      ∀ config, readConfig files r.path = .ok config →
        (config.1.get "mcpServers").bind Value.asObject = none ∨
          detectDoubleWrap (r.setting i) "mcpServers" config.1 = true) :
    let after := rewriteProjectFile (r.setting i) (r.options i) servers r.agent ⟨files, outcomes⟩
    after.2.files r.path = files r.path ∧ after.2.files (.backup r.path) = files (.backup r.path) := by
  intro after
  by_cases hcursor : r.agent = .cursor → (r.setting i).cwd = none
  · have hafter : after = (.ok (), ⟨files, outcomes⟩) := congrFun (rewriteProjectFile_idle hcursor) _
    rw [hafter]
    exact ⟨rfl, rfl⟩
  · obtain ⟨hagent, hsome⟩ := Classical.not_imp.mp hcursor
    obtain ⟨dir, hcwd⟩ := Option.ne_none_iff_exists'.mp hsome
    have hafter : rewriteCursorProject (r.setting i) (r.options i) servers (cursorProject dir) ⟨files, outcomes⟩ =
        after := by
      rw [← rewriteProjectFile_cursor hcwd, ← hagent]
    by_cases hpath : cursorProject dir = r.path
    · have hkept : after.2.files = files := by
        rw [hpath] at hafter
        exact rewriteCursorProject_idle (hidle hagent dir hcwd hpath) hafter
      rw [hkept]
      exact ⟨rfl, rfl⟩
    · have hframe := rewriteCursorProject_frame.apply hafter
      have hapart : ∀ p, p = r.path ∨ p = .backup r.path → p ∉ {cursorProject dir} ∪ scratch (cursorProject dir) := by
        rintro p (rfl | rfl) (hmem | hmem | hmem | hmem)
        · exact hpath hmem.symm
        · cases hmem
        · cases hmem
        · cases hmem
        · cases hmem
        · cases hmem
        · exact hpath (Path.backup.inj hmem).symm
        · cases hmem
      exact ⟨hframe _ (hapart _ (Or.inl rfl)), hframe _ (hapart _ (Or.inr rfl))⟩

/-- A restore whose copy goes through puts back what was there before the first run. -/
theorem holds_restore {attempt : ConfigGuard.Attempt} (hholds : r.Holds first i files .restoring)
    (hcopies : r.guard.FirstCopies files (.backup r.path) attempt.copy) :
    (r.guard.restore files attempt).2.2 r.path = first r.path := by
  obtain ⟨text, hfirst, hbackup⟩ := hholds
  obtain ⟨copy, removable⟩ := attempt
  rw [hfirst]
  cases copy with
  | done =>
    obtain ⟨files', hrestore, hconfig, -⟩ := ConfigGuard.restore_done (g := r.guard) rfl rfl path_ne_backup.symm hbackup
      removable
    rw [hrestore]
    exact hconfig
  | failed left =>
    obtain ⟨e, files', hrestore, hconfig⟩ := ConfigGuard.restore_failed (g := r.guard) rfl rfl hbackup left removable
    rw [hrestore]
    exact hconfig.mpr hcopies

/-! ### Lists -/

omit [ConfigText] in
/-- The entries of a run are not changed by a rewrite of other servers. -/
theorem ownEntries_apart (hapart : r.apart j i = true)
    (hupdate : updated (r.setting j) (r.options j) servers r.agent config.1 = .ok config'.1) :
    ownEntries r.agent (r.setting i) config'.1 = ownEntries r.agent (r.setting i) config.1 := by
  obtain ⟨hagent, hcwd⟩ := Bool.and_eq_true_iff.mp hapart
  have hclaude : r.agent = .claudeCode := by simpa using hagent
  have hne : (r.setting j).cwd ≠ (r.setting i).cwd := by simpa using hcwd
  rw [hclaude] at hupdate ⊢
  rw [updated] at hupdate
  rw [ownEntries, ownEntries]
  split at hupdate
  · cases hupdate
  · next dir hdir =>
    cases hother : (r.setting i).cwd with
    | none => rfl
    | some other =>
      dsimp only
      rw [parseProjectServers, parseProjectServers, projectServers_other ?_ hupdate]
      rintro rfl
      exact hne (hdir.trans hother.symm)

/-- A config that is read while the run's servers are clear has the entries of before the first run. -/
theorem clear_entries (hinv : r.Inv first s) (hclear : r.clear s i = true)
    (hread : readConfig s.files r.path = .ok config) :
    ∃ config₀, readConfig first r.path = .ok config₀ ∧
      ownEntries r.agent (r.setting i) config.1 = ownEntries r.agent (r.setting i) config₀.1 := by
  have hsame : s.files r.path = first r.path → ∃ config₀, readConfig first r.path = .ok config₀ ∧
      ownEntries r.agent (r.setting i) config.1 = ownEntries r.agent (r.setting i) config₀.1 :=
    fun h => ⟨config, (readConfig_eq h).symm.trans hread, rfl⟩
  have hrewritten : ∀ {j servers}, r.apart j i = true → r.Holds first j s.files (.rewritten servers) →
      ∃ config₀, readConfig first r.path = .ok config₀ ∧
        ownEntries r.agent (r.setting i) config.1 = ownEntries r.agent (r.setting i) config₀.1 := by
    rintro j servers hapart ⟨config₀, config', hread₀, hupdate, hconfig, -⟩
    obtain ⟨text, htext, hparse⟩ := readConfig_ok_iff.mp hread
    cases hconfig.symm.trans htext
    cases hparse
    exact ⟨config₀, hread₀, ownEntries_apart hapart hupdate⟩
  rw [clear] at hclear
  split at hclear
  · next hholder => exact hsame (hinv.free hholder)
  · next j hholder =>
    have hheld := hinv.held j hholder
    split at hclear
    · next servers hphase =>
      rw [hphase] at hheld
      exact hrewritten hclear hheld
    · next servers hphase =>
      rw [hphase] at hheld
      exact hrewritten hclear hheld
    · cases hclear
    · next hrewritten hlaunched hrestoring =>
      refine hsame ?_
      cases hphase : s.phases j with
      | rewritten servers => exact absurd hphase (hrewritten servers)
      | launched servers => exact absurd hphase (hlaunched servers)
      | restoring => exact absurd hphase hrestoring
      | _ =>
        rw [hphase] at hheld
        exact hheld

/-- A list that was made of a config with the first one's entries, beside a project's file that agrees with it. -/
theorem listsConfig (hknows : r.Knows first i (.read config true)) (hagrees : r.agrees files i config.1 = true)
    (hlist : serversFrom r.agent (r.setting i) files config.1 = .ok servers) : r.ListsConfig first i servers := by
  obtain ⟨config₀, hread, hsame⟩ := hknows
  obtain ⟨entries, hentries, hnodup, hlisted⟩ := serversFrom_ok hlist
  obtain ⟨own, hown, -, hmem⟩ := listServers_ok hentries
  refine ⟨config₀, own, hread, hsame.symm.trans hown, hnodup, fun e he server hserver hid => ?_⟩
  obtain ⟨e', he', hexpand⟩ := hlisted server hserver
  obtain ⟨hcommand, hargs, hid'⟩ := expandServerEntryEnv_ok hexpand
  have hcall : e'.command = e.command ∧ e'.args = e.args := by
    rcases (hmem e').mp he' with ho | ⟨hown', -⟩
    · rw [agrees, hown] at hagrees
      have hone := List.all_eq_true.mp (List.all_eq_true.mp hagrees e' ho) e he
      have hids : e'.id = e.id := hid'.symm.trans hid
      simpa [hids] using hone
    · rw [List.inj_on_of_nodup_map (ownEntries_nodup config.2 hown) hown' he (hid'.symm.trans hid)]
      exact ⟨rfl, rfl⟩
  rw [hcall.1] at hcommand
  rw [hcall.2] at hargs
  exact ⟨hcommand, hargs⟩

/-! ### The invariant -/

open WrapState

/-- A run without the lock goes on to another phase without it. -/
theorem Inv.beside (hinv : r.Inv first s) (hi : (s.phases i).holds = false) (hphase : phase.holds = false)
    (hconfig : files r.path = s.files r.path) (hbackup : files (.backup r.path) = s.files (.backup r.path))
    (hknows : r.Knows first i phase) : r.Inv first (s.move i phase files) := by
  have hholder : s.holder ≠ some i := fun h => by
    rw [(hinv.lock i).mpr h] at hi
    cases hi
  refine ⟨fun j => ?_, fun hfree => hconfig.trans (hinv.free hfree), fun j hj => ?_, fun j => ?_⟩
  · by_cases hj : j = i
    · subst hj
      rw [move_phase, hphase]
      exact iff_of_false (by simp) hholder
    · rw [move_other hj]
      exact hinv.lock j
  · have hne : j ≠ i := by
      rintro rfl
      exact hholder hj
    rw [move_other hne]
    exact (hinv.held j hj).congr hconfig hbackup
  · by_cases hj : j = i
    · subst hj
      rw [move_phase]
      exact hknows
    · rw [move_other hj]
      exact hinv.knows j

/-- What all the others know and hold is not changed by a step of the one with the lock. -/
theorem Inv.knows_move (files : Files Path Text) (hinv : r.Inv first s) (hknows : r.Knows first i phase) (j : Nat) :
    r.Knows first j ((s.move i phase files).phases j) := by
  by_cases hj : j = i
  · subst hj
    rw [move_phase]
    exact hknows
  · rw [move_other hj]
    exact hinv.knows j

/-- The run with the lock goes on to another phase with it. -/
theorem Inv.goOn (hinv : r.Inv first s) (hi : (s.phases i).holds = true) (hphase : phase.holds = true)
    (hholds : r.Holds first i files phase) (hknows : r.Knows first i phase) : r.Inv first (s.move i phase files) := by
  have hholder : s.holder = some i := (hinv.lock i).mp hi
  refine ⟨fun j => ?_, fun hfree => ?_, fun j hj => ?_, hinv.knows_move files hknows⟩
  · by_cases hj : j = i
    · subst hj
      rw [move_phase]
      exact iff_of_true hphase hholder
    · rw [move_other hj]
      exact hinv.lock j
  · cases hholder.symm.trans hfree
  · cases hholder.symm.trans hj
    rw [move_phase]
    exact hholds

/-- A run takes the lock, which is free. -/
theorem Inv.take (hinv : r.Inv first s) (hfree : s.holder = none) (hphase : phase.holds = true)
    (hholds : r.Holds first i files phase) (hknows : r.Knows first i phase) :
    r.Inv first { s.move i phase files with holder := some i } := by
  refine ⟨fun j => ?_, fun hnone => ?_, fun j hj => ?_, hinv.knows_move files hknows⟩
  · show ((s.move i phase files).phases j).holds = true ↔ some i = some j
    by_cases hj : j = i
    · subst hj
      rw [move_phase]
      exact iff_of_true hphase rfl
    · rw [move_other hj, hinv.lock j, hfree]
      exact iff_of_false (by simp) fun h => hj (Option.some.inj h).symm
  · cases hnone
  · have hj : some i = some j := hj
    cases hj
    show r.Holds first i files ((s.move i phase files).phases i)
    rw [move_phase]
    exact hholds

/-- The run with the lock lets go of it. -/
theorem Inv.letGo (hinv : r.Inv first s) (hi : (s.phases i).holds = true) (hphase : phase.holds = false)
    (hconfig : files r.path = first r.path) (hknows : r.Knows first i phase) :
    r.Inv first { s.move i phase files with holder := none } := by
  have hholder : s.holder = some i := (hinv.lock i).mp hi
  refine ⟨fun j => ?_, fun _ => hconfig, fun j hj => ?_, hinv.knows_move files hknows⟩
  · show ((s.move i phase files).phases j).holds = true ↔ none = some j
    by_cases hj : j = i
    · subst hj
      rw [move_phase, hphase]
      exact iff_of_false (by simp) (by simp)
    · rw [move_other hj, hinv.lock j, hholder]
      exact iff_of_false (fun h => hj (Option.some.inj h).symm) (by simp)
  · cases hj

theorem inv_init (first : Files Path Text) : r.Inv first (r.machine first).init :=
  ⟨fun i => iff_of_false (by simp [machine, Phase.holds]) (by simp [machine]), fun _ => rfl,
    fun i h => (by cases h), fun i => trivial⟩

/-- What a run at a phase knows, and what the config is if it holds the lock there. -/
theorem Inv.knowsAt (hinv : r.Inv first s) (hphase : s.phases i = phase) : r.Knows first i phase := by
  rw [← hphase]
  exact hinv.knows i

theorem Inv.holdsAt (hinv : r.Inv first s) (hphase : s.phases i = phase) (hholds : phase.holds = true) :
    (s.phases i).holds = true ∧ r.Holds first i s.files phase := by
  have hi : (s.phases i).holds = true := by rw [hphase, hholds]
  rw [← hphase]
  exact ⟨hi, hinv.held i ((hinv.lock i).mp hi)⟩

/-! ### Steps without the lock -/

theorem Inv.read (hinv : r.Inv first s) (hstep : r.step s (.read i) = some s') : r.Inv first s' := by
  unfold Runs.step at hstep
  dsimp only at hstep
  split at hstep
  · next hphase =>
    have hi : (s.phases i).holds = false := by rw [hphase]; rfl
    split at hstep
    · cases hstep
      exact hinv.beside hi rfl rfl rfl trivial
    · next config hread =>
      cases hstep
      refine hinv.beside hi rfl rfl rfl ?_
      cases hclear : r.clear s i with
      | false => exact trivial
      | true => exact clear_entries hinv hclear hread
  · cases hstep

theorem Inv.list (hinv : r.Inv first s) (hstep : r.step s (.list i) = some s') : r.Inv first s' := by
  unfold Runs.step at hstep
  dsimp only at hstep
  split at hstep
  · next config clear hphase =>
    have hi : (s.phases i).holds = false := by rw [hphase]; rfl
    have hknows := hinv.knowsAt hphase
    split at hstep
    · cases hstep
      exact hinv.beside hi rfl rfl rfl trivial
    · next servers hlist =>
      cases hstep
      refine hinv.beside hi rfl rfl rfl ?_
      cases hfresh : clear && r.agrees s.files i config.1 with
      | false => exact trivial
      | true =>
        obtain ⟨rfl, hagrees⟩ := Bool.and_eq_true_iff.mp hfresh
        exact listsConfig hknows hagrees hlist
  · cases hstep

theorem Inv.leave (hinv : r.Inv first s) (hstep : r.step s (.leave i) = some s') : r.Inv first s' := by
  unfold Runs.step at hstep
  dsimp only at hstep
  split at hstep
  · next hphase =>
    cases hstep
    exact hinv.beside (by rw [hphase]; rfl) rfl rfl rfl trivial
  · cases hstep

/-- The lock is taken, or the run ends because it cannot be. -/
theorem Inv.tryLock {outcome : FileOutcome Text} (hinv : r.Inv first s) (hstep : r.step s (.lock i outcome) = some s') :
    r.Inv first s' := by
  unfold Runs.step at hstep
  dsimp only at hstep
  split at hstep
  · next servers fresh hphase =>
    have hi : (s.phases i).holds = false := by rw [hphase]; rfl
    have hknows := hinv.knowsAt hphase
    split at hstep
    · next e d hcreate =>
      cases hstep
      have hfiles : d.files = s.files := create_error hcreate
      exact hinv.beside hi rfl (by rw [hfiles]) (by rw [hfiles]) trivial
    · next d hcreate =>
      obtain ⟨-, rfl⟩ := create_ok.mp hcreate
      have hconfig : (s.files.put (.lock r.path) emptyText) r.path = s.files r.path := Files.put_ne (by simp [path])
      have hbackup : (s.files.put (.lock r.path) emptyText) (.backup r.path) = s.files (.backup r.path) :=
        Files.put_ne (by simp)
      split at hstep
      · cases hstep
        exact hinv.beside hi rfl hconfig hbackup trivial
      · next hfree =>
        cases hstep
        have hfirst : r.Holds first i (s.files.put (.lock r.path) emptyText) (.locked servers fresh) :=
          hconfig.trans (hinv.free hfree)
        refine hinv.take hfree rfl hfirst ?_
        cases fresh with
        | false => exact trivial
        | true => exact hknows
  · cases hstep

/-! ### Steps under the lock -/

theorem Inv.rewrite {outcomes : Nat → FileOutcome Text} (hinv : r.Inv first s)
    (hcareful : r.Careful s (.rewrite i outcomes)) (hstep : r.step s (.rewrite i outcomes) = some s') :
    r.Inv first s' := by
  unfold Runs.step at hstep
  dsimp only at hstep
  split at hstep
  · next servers fresh hphase =>
    obtain ⟨hi, hheld⟩ := hinv.holdsAt hphase rfl
    have hknows := hinv.knowsAt hphase
    have hfirst : s.files r.path = first r.path := hheld
    split at hstep
    · next e d hrewrite =>
      cases hstep
      rcases holds_rewrite hfirst hrewrite with ⟨-, -, hconfig⟩ | ⟨⟨b, hb⟩, -⟩
      · exact hinv.goOn hi rfl hconfig trivial
      · cases hb
    · next b d hrewrite =>
      cases hstep
      rcases holds_rewrite hfirst hrewrite with ⟨e, he, -⟩ | ⟨-, hholds, config, hread, hmanaged⟩
      · cases he
      · obtain ⟨rfl, hreadable⟩ := hcareful config ((readConfig_eq hfirst).trans hread) hmanaged servers fresh hphase
        refine hinv.goOn hi rfl hholds ⟨hknows, fun config₁ hread₁ => ?_⟩
        cases hread.symm.trans hread₁
        exact hreadable
  · cases hstep

theorem Inv.project {outcomes : Nat → FileOutcome Text} (hinv : r.Inv first s)
    (hcareful : r.Careful s (.project i outcomes)) (hstep : r.step s (.project i outcomes) = some s') :
    r.Inv first s' := by
  unfold Runs.step at hstep
  dsimp only at hstep
  split at hstep
  · next servers hphase =>
    cases hstep
    obtain ⟨hi, hheld⟩ := hinv.holdsAt hphase rfl
    have hknows := hinv.knowsAt hphase
    obtain ⟨hconfig, hbackup⟩ := project_beside servers outcomes hcareful
    have hlaunched : r.Holds first i s.files (.launched servers) := hheld
    exact hinv.goOn hi rfl (hlaunched.congr hconfig hbackup) hknows
  · cases hstep

theorem Inv.copy {left : Option Text} (hinv : r.Inv first s) (hstep : r.step s (.copy i left) = some s') :
    r.Inv first s' := by
  unfold Runs.step at hstep
  dsimp only at hstep
  split at hstep
  · next servers hphase =>
    cases hstep
    obtain ⟨hi, config, config', hread, -, -, hbackup⟩ := hinv.holdsAt hphase rfl
    obtain ⟨text, htext, -⟩ := readConfig_ok_iff.mp hread
    refine hinv.goOn hi rfl ⟨text, htext, ?_⟩ trivial
    rw [← htext, ← hbackup]
    cases left with
    | none => rfl
    | some left => exact Files.put_ne path_ne_backup.symm
  · cases hstep

theorem Inv.restore {attempt : ConfigGuard.Attempt} (hinv : r.Inv first s)
    (hcareful : r.Careful s (.restore i attempt)) (hstep : r.step s (.restore i attempt) = some s') :
    r.Inv first s' := by
  unfold Runs.step at hstep
  dsimp only at hstep
  split at hstep
  · next hphase =>
    cases hstep
    obtain ⟨hi, hheld⟩ := hinv.holdsAt hphase rfl
    have hfinished : r.Holds first i (r.guard.restore s.files attempt).2.2 .finished := holds_restore hheld hcareful
    exact hinv.goOn hi rfl hfinished trivial
  · cases hstep

theorem Inv.release (hinv : r.Inv first s) (hstep : r.step s (.release i) = some s') : r.Inv first s' := by
  unfold Runs.step at hstep
  dsimp only at hstep
  split at hstep
  · next hphase =>
    cases hstep
    obtain ⟨hi, hheld⟩ := hinv.holdsAt hphase rfl
    exact hinv.letGo hi rfl hheld trivial
  · cases hstep

/-! ### Runs -/

/-- Every careful step keeps the invariant. -/
theorem Inv.step {l : WrapAction} (hinv : r.Inv first s) (hcareful : r.Careful s l) (hstep : r.step s l = some s') :
    r.Inv first s' := by
  cases l with
  | read i => exact hinv.read hstep
  | list i => exact hinv.list hstep
  | leave i => exact hinv.leave hstep
  | lock i outcome => exact hinv.tryLock hstep
  | rewrite i outcomes => exact hinv.rewrite hcareful hstep
  | project i outcomes => exact hinv.project hcareful hstep
  | copy i left => exact hinv.copy hstep
  | restore i attempt => exact hinv.restore hcareful hstep
  | release i => exact hinv.release hstep

/-- In a state of the invariant every rewrite that stands in the config is one of the backup, and the config is what it was
when all runs have ended. -/
theorem Inv.sound (hinv : r.Inv first s) : r.Sound first s := by
  refine ⟨fun i servers hphase => ?_, fun hended => hinv.free ?_⟩
  · rcases hphase with hphase | hphase
    · exact wrapsBackup (hinv.knowsAt hphase) (hinv.holdsAt hphase rfl).2
    · have hknows := hinv.knowsAt hphase
      have hholds := (hinv.holdsAt hphase rfl).2
      exact wrapsBackup hknows hholds
  · cases hholder : s.holder with
    | none => rfl
    | some i =>
      have hholds := (hinv.lock i).mpr hholder
      rcases hended i with hphase | hphase
      · rw [hphase] at hholds
        cases hholds
      · rw [hphase] at hholds
        cases hholds

/-- In a run of careful steps every rewrite is one of the backup, with what the backup starts behind the separator, and the
config is what it was when all runs have ended. -/
theorem wraps_sound (h : (r.machine first).ReachableWhen r.Careful s) : r.Sound first s :=
  (h.invariant (inv_init first) fun _ _ _ _ hinv hcareful hstep => hinv.step hcareful hstep).sound

end

end Runs

namespace Sample

/-- Runs of Claude Desktop. -/
def runs : Runs := ⟨.claudeDesktop, "/home/mcp.json", fun _ => setting, fun _ => options⟩

/-- A run up to the lock. -/
def upToLock (i : Nat) : List WrapAction := [.read i, .list i, .lock i .done]

/-- The second run lists while the first one's rewrite stands in the config, and rewrites when that has been restored. -/
def stale : List WrapAction :=
  upToLock 0 ++ [WrapAction.rewrite 0 fun _ => .done, .project 0 fun _ => .done, .read 1, .list 1, .copy 0 none,
    .restore 0 ⟨.done, true⟩, .release 0, .lock 1 .done, .rewrite 1 fun _ => .done]

/-- The state after a list of steps. -/
def after [ConfigText] (ls : List WrapAction) : WrapState :=
  ((runs.machine configOnly).exec (runs.machine configOnly).init ls).getD (runs.machine configOnly).init

/-- What the second run has listed. -/
def shimServer : McpServerEntry :=
  ⟨"fs", "/usr/bin/thoughtgate", shimHead options "fs" ++ ["npx"], some [("THOUGHTGATE_SERVER_ID", "fs")], true⟩

end Sample

attribute [local instance] Sample.noText

/-- A run that is alone rewrites its config as it should. -/
theorem Runs.wraps_sound_sample :
    ∃ s, (Sample.runs.machine Sample.configOnly).Reachable s ∧ s.phases 0 = .rewritten [⟨"fs", "npx", [], none, true⟩] ∧
      Sample.runs.Sound Sample.configOnly s := by
  have hlocked : (Sample.runs.machine Sample.configOnly).LeadsWhen Sample.runs.Careful
      (Sample.runs.machine Sample.configOnly).init (Sample.after (Sample.upToLock 0)) :=
    ((Relation.ReflTransGen.single ⟨.read 0, trivial, rfl⟩).tail ⟨.list 0, trivial, rfl⟩).tail
      ⟨.lock 0 .done, trivial, rfl⟩
  have hcareful : Sample.runs.Careful (Sample.after (Sample.upToLock 0)) (.rewrite 0 fun _ => .done) := by
    intro config hread hmanaged servers fresh hphase
    have hlisted : Phase.locked [⟨"fs", "npx", [], none, true⟩] true = .locked servers fresh := hphase
    cases hlisted
    refine ⟨rfl, fun server hserver v hv => ?_⟩
    rw [List.mem_singleton.mp hserver] at hv
    cases hread
    cases hv
    exact ⟨fun item hitem => (by cases hitem), fun hzed => (by cases hzed)⟩
  have hrewritten : (Sample.runs.machine Sample.configOnly).ReachableWhen Sample.runs.Careful
      (Sample.after (Sample.upToLock 0 ++ [WrapAction.rewrite 0 fun _ => .done])) :=
    (Machine.ReachableWhen.leadsWhen .init hlocked).step hcareful rfl
  exact ⟨_, hrewritten.reachable, rfl, Runs.wraps_sound hrewritten⟩

/-- The list is stale: behind the separator stands the shim, and in the backup what it should start. -/
theorem Runs.wrap_wraps_twice :
    ∃ s, (Sample.runs.machine Sample.configOnly).Reachable s ∧ s.phases 0 = .ended ∧
      s.phases 1 = .rewritten [Sample.shimServer] ∧
      (parseServers .claudeDesktop Sample.setting s.files (.backup Sample.runs.path)).map
        (·.map McpServerEntry.command) = .ok ["npx"] ∧
      (parseServers .claudeDesktop Sample.setting s.files Sample.runs.path).map (·.map McpServerEntry.args) =
        .ok [shimHead Sample.options "fs" ++ "/usr/bin/thoughtgate" :: (shimHead Sample.options "fs" ++ ["npx"])] ∧
      ¬ Sample.runs.Sound Sample.configOnly s := by
  have hreached : (Sample.runs.machine Sample.configOnly).exec (Sample.runs.machine Sample.configOnly).init
      Sample.stale = some (Sample.after Sample.stale) := rfl
  refine ⟨Sample.after Sample.stale, Machine.reachable_of_exec hreached, rfl, rfl, rfl, rfl, fun hsound => ?_⟩
  obtain ⟨backup, config, entries, hbackup, hconfig, hentries, hall⟩ :=
    hsound.wrapped 1 [Sample.shimServer] (Or.inl rfl)
  cases hbackup
  cases hconfig
  cases hentries
  obtain ⟨v, hv, hlisted, -⟩ := hall _ List.mem_cons_self
  obtain ⟨-, command, args, command', args', hcommand, -, hexpand, -, hargs⟩ := hlisted ⟨_, List.mem_cons_self, rfl⟩
  cases hv
  cases hcommand
  cases hexpand
  have hwhole : shimHead Sample.options "fs" ++ "/usr/bin/thoughtgate" :: (shimHead Sample.options "fs" ++ ["npx"]) =
      shimHead Sample.options "fs" ++ "npx" :: args' := hargs
  have hbehind : "/usr/bin/thoughtgate" = "npx" := (List.cons.inj (List.append_cancel_left hwhole)).1
  exact absurd hbehind (by decide)

end ThoughtGate.Wrap
