import ThoughtGate.Wrap.Types

/-!
# Restoring the config

`ConfigGuard` of `wrap/config_guard.rs`: the flag, the backup path, `restore`, and a sequence of calls of it (the
explicit one, then the one in `Drop`), where each call comes with the outcome that its copy would have. `fs::copy` is
not atomic: a failed one may leave other contents in the target. The flag is set before the copy, so a copy that fails
is never tried again (`restore_reliable_iff`).
-/

namespace ThoughtGate.Wrap

/-- `std::fs::copy`: an error, and the files. -/
def copyFile (files : Files Path Text) (source target : Path) (outcome : FileOutcome Text) :
    Except ConfigError Unit × Files Path Text :=
  match files source with
  | none => (.error (.io "No such file or directory (os error 2)"), files)
  | some text =>
    match outcome with
    | .done => (.ok (), files.put target text)
    | .failed none => (.error (.io "copy failed"), files)
    | .failed (some left) => (.error (.io "copy failed"), files.put target left)

/-- `ConfigGuard`, without the handle that holds the lock. -/
structure ConfigGuard where
  configPath : Path
  backupPath : Option Path
  restored : Bool

namespace ConfigGuard

/-- What `ConfigGuard::lock` returns. -/
def locked (configPath : Path) : ConfigGuard := ⟨configPath, none, false⟩

/-- `set_backup`. -/
def setBackup (g : ConfigGuard) (backupPath : Path) : ConfigGuard := { g with backupPath := some backupPath }

/-- `skip_restore`. -/
def skipRestore (g : ConfigGuard) : ConfigGuard := { g with restored := true }

/-- What happens to one call of `restore`: its copy, and whether the backup can be removed. -/
structure Attempt where
  copy : FileOutcome Text
  removable : Bool

/-- `restore`. -/
def restore (g : ConfigGuard) (files : Files Path Text) (attempt : Attempt) :
    Except ConfigError Unit × ConfigGuard × Files Path Text :=
  if g.restored then (.ok (), g, files)
  else
    let g := { g with restored := true }
    match g.backupPath with
    | none => (.ok (), g, files)
    | some backupPath =>
      match copyFile files backupPath g.configPath attempt.copy with
      | (.error e, files) => (.error e, g, files)
      | (.ok _, files) => (.ok (), g, if attempt.removable then files.drop backupPath else files)

/-- A sequence of calls: the answer of each, and the files after it. -/
def calls : ConfigGuard → Files Path Text → List Attempt → List (Except ConfigError Unit × Files Path Text)
  | _, _, [] => []
  | g, files, attempt :: attempts =>
    let (answer, g, files) := g.restore files attempt
    (answer, files) :: calls g files attempts

/-- A sequence of calls is reliable: where a call returns `Ok`, and where its copy would be done, the config holds
what the backup held at the start. -/
def Reliable (g : ConfigGuard) (files : Files Path Text) (backupPath : Path) (attempts : List Attempt) : Prop :=
  List.Forall₂ (fun attempt after =>
    (after.1 = .ok () → after.2 g.configPath = files backupPath) ∧
      (attempt.copy = .done → after.2 g.configPath = files backupPath)) attempts (calls g files attempts)

/-- What the first copy leaves is the backup's text: it is done, or it fails with that text in place. -/
def FirstCopies (g : ConfigGuard) (files : Files Path Text) (backupPath : Path) : FileOutcome Text → Prop
  | .done => True
  | .failed none => files g.configPath = files backupPath
  | .failed (some left) => some left = files backupPath

variable {g : ConfigGuard} {files : Files Path Text} {backupPath : Path}

/-- A guard that has tried once does nothing more. -/
theorem restore_of_restored (h : g.restored = true) (attempt : Attempt) :
    g.restore files attempt = (.ok (), g, files) := if_pos h

theorem calls_of_restored (h : g.restored = true) (attempts : List Attempt) :
    calls g files attempts = List.replicate attempts.length (.ok (), files) := by
  induction attempts with
  | nil => rfl
  | cons attempt attempts ih =>
    rw [calls, restore_of_restored h]
    dsimp only
    rw [ih, List.length_cons, List.replicate_succ]

theorem restore_done (hbackup : g.backupPath = some backupPath) (hfresh : g.restored = false)
    (hapart : backupPath ≠ g.configPath) {text : Text} (htext : files backupPath = some text) (removable : Bool) :
    ∃ files', g.restore files ⟨.done, removable⟩ = (.ok (), { g with restored := true }, files') ∧
      files' g.configPath = some text ∧ Files.SameOutside {g.configPath, backupPath} files files' := by
  have hcopy : copyFile files backupPath g.configPath .done = (.ok (), files.put g.configPath text) := by
    rw [copyFile, htext]
  have hput : Files.SameOutside {g.configPath, backupPath} files (files.put g.configPath text) :=
    Files.SameOutside.put (Or.inl rfl)
  cases removable with
  | true =>
    refine ⟨(files.put g.configPath text).drop backupPath, ?_, ?_, hput.trans (Files.SameOutside.drop (Or.inr rfl))⟩
    · rw [restore, hfresh, hbackup]
      dsimp only
      rw [hcopy]
      rfl
    · rw [Files.drop_ne hapart.symm, Files.put_self]
  | false =>
    refine ⟨files.put g.configPath text, ?_, Files.put_self, hput⟩
    rw [restore, hfresh, hbackup]
    dsimp only
    rw [hcopy]
    rfl

theorem restore_failed (hbackup : g.backupPath = some backupPath) (hfresh : g.restored = false)
    {text : Text} (htext : files backupPath = some text) (left : Option Text) (removable : Bool) :
    ∃ e files', g.restore files ⟨.failed left, removable⟩ = (.error e, { g with restored := true }, files') ∧
      (files' g.configPath = some text ↔ FirstCopies g files backupPath (.failed left)) := by
  cases left with
  | none =>
    refine ⟨.io "copy failed", files, ?_, ?_⟩
    · rw [restore, hfresh, hbackup]
      dsimp only
      rw [copyFile, htext]
      rfl
    · rw [FirstCopies, htext]
  | some left =>
    refine ⟨.io "copy failed", files.put g.configPath left, ?_, ?_⟩
    · rw [restore, hfresh, hbackup]
      dsimp only
      rw [copyFile, htext]
      rfl
    · rw [FirstCopies, htext, Files.put_self]

/-- After the first call every other one says `Ok` and does nothing. -/
theorem calls_cons {attempt : Attempt} {answer : Except ConfigError Unit} {files' : Files Path Text}
    (hfirst : g.restore files attempt = (answer, { g with restored := true }, files')) (attempts : List Attempt) :
    calls g files (attempt :: attempts) = (answer, files') :: List.replicate attempts.length (.ok (), files') := by
  rw [calls, hfirst]
  dsimp only
  rw [calls_of_restored rfl]

/-- The calls that follow the first are reliable exactly when there are none or the config is as it should be. -/
theorem forall₂_replicate_iff {files' : Files Path Text} {target : Option Text} (attempts : List Attempt) :
    List.Forall₂ (fun (attempt : Attempt) (after : Except ConfigError Unit × Files Path Text) =>
      (after.1 = .ok () → after.2 g.configPath = target) ∧ (attempt.copy = .done → after.2 g.configPath = target))
      attempts (List.replicate attempts.length (.ok (), files')) ↔ (attempts = [] ∨ files' g.configPath = target) := by
  induction attempts with
  | nil => simp
  | cons attempt attempts ih =>
    rw [List.length_cons, List.replicate_succ, List.forall₂_cons, ih]
    constructor
    · rintro ⟨⟨hok, -⟩, -⟩
      exact Or.inr (hok rfl)
    · rintro (hnil | hsame)
      · cases hnil
      · exact ⟨⟨fun _ => hsame, fun _ => hsame⟩, Or.inr hsame⟩

/-- A sequence of calls on a guard with a backup is reliable exactly when there is one call at most or the first copy
puts the backup's text in place. -/
theorem restore_reliable_iff (hbackup : g.backupPath = some backupPath) (hfresh : g.restored = false)
    (hapart : backupPath ≠ g.configPath) {text : Text} (htext : files backupPath = some text)
    (attempts : List Attempt) :
    g.Reliable files backupPath attempts ↔
      (attempts.length ≤ 1 ∨ ∀ attempt ∈ attempts.head?, FirstCopies g files backupPath attempt.copy) := by
  cases attempts with
  | nil =>
    refine iff_of_true List.Forall₂.nil (Or.inl (Nat.zero_le _))
  | cons attempt attempts =>
    obtain ⟨outcome, removable⟩ := attempt
    have hhead : (∀ attempt ∈ (Attempt.mk outcome removable :: attempts).head?,
        FirstCopies g files backupPath attempt.copy) ↔ FirstCopies g files backupPath outcome := by
      simp
    have hlength : (Attempt.mk outcome removable :: attempts).length ≤ 1 ↔ attempts = [] := by
      rw [List.length_cons, ← List.length_eq_zero_iff]
      omega
    rw [hhead, hlength, Reliable]
    cases outcome with
    | done =>
      obtain ⟨files', hfirst, hsame, -⟩ := restore_done hbackup hfresh hapart htext removable
      rw [calls_cons hfirst, List.forall₂_cons, forall₂_replicate_iff, htext]
      exact iff_of_true ⟨⟨fun _ => hsame, fun _ => hsame⟩, Or.inr hsame⟩ (Or.inr trivial)
    | failed left =>
      obtain ⟨e, files', hfirst, hleft⟩ := restore_failed hbackup hfresh htext left removable
      rw [calls_cons hfirst, List.forall₂_cons, forall₂_replicate_iff, htext, hleft]
      constructor
      · rintro ⟨-, hrest⟩
        exact hrest
      · intro hrest
        refine ⟨⟨fun hok => ?_, fun hdone => ?_⟩, hrest⟩
        · cases hok
        · cases hdone

end ConfigGuard

namespace Sample

/-- A rewritten config and its backup. -/
def rewrittenFiles : Files Path Text
  | .file _ => some (.found "rewritten".toUTF8)
  | .backup _ => some (.found "original".toUTF8)
  | _ => none

/-- The guard of a run that has rewritten its config. -/
def guard : ConfigGuard := (ConfigGuard.locked (.file "mcp.json")).setBackup (.backup (.file "mcp.json"))

end Sample

/-- The first copy is done, the second call does nothing. -/
theorem ConfigGuard.restore_reliable_sample :
    Sample.guard.Reliable Sample.rewrittenFiles (.backup (.file "mcp.json")) [⟨.done, true⟩, ⟨.done, true⟩] :=
  (restore_reliable_iff rfl rfl (by decide) rfl _).mpr (Or.inr (by simp [FirstCopies]))

/-- The first copy fails; the call in `Drop` then says `Ok`, and the config stays as it was rewritten. -/
theorem ConfigGuard.restore_gives_up :
    ∃ e files', ConfigGuard.calls Sample.guard Sample.rewrittenFiles [⟨.failed none, true⟩, ⟨.done, true⟩] =
        [(.error e, files'), (.ok (), files')] ∧
      files' (.file "mcp.json") = some (.found "rewritten".toUTF8) ∧
      ¬ Sample.guard.Reliable Sample.rewrittenFiles (.backup (.file "mcp.json"))
        [⟨.failed none, true⟩, ⟨.done, true⟩] := by
  refine ⟨.io "copy failed", Sample.rewrittenFiles, rfl, rfl, fun hreliable => ?_⟩
  have hsecond : Sample.rewrittenFiles (.file "mcp.json") = Sample.rewrittenFiles (.backup (.file "mcp.json")) := by
    cases hreliable with
    | cons _ hrest =>
      cases hrest with
      | cons hlast _ => exact hlast.1 rfl
  have hbytes : (some (Text.found "rewritten".toUTF8)) = some (.found "original".toUTF8) := hsecond
  have hsame := congrArg ByteArray.data (Text.found.inj (Option.some.inj hbytes))
  exact absurd hsame (by decide)

end ThoughtGate.Wrap
