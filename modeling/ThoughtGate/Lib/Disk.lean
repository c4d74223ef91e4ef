import ThoughtGate.Lib.Files

/-!
# Operations on files that can fail

A disk is what it holds together with how each of its next operations will go; an action is a sequence of operations up
to its first error. Nothing is assumed of the outcomes: a failed write may leave other contents behind, a failed renaming
leaves both files alone. `Frame` says which files an action can touch, whatever becomes of it, and composes.
-/

/-- How an operation goes: it is done, or it fails; a write that fails may leave other contents. -/
inductive FileOutcome (C : Type) where
  | done
  | failed (left : Option C)

/-- The files, and how the next operations on them go. -/
structure Disk (P C : Type) where
  files : Files P C
  outcomes : Nat → FileOutcome C

namespace Disk

/-- The disk with these files, some operations later. -/
def after {P C : Type} (d : Disk P C) (operations : Nat) (files : Files P C) : Disk P C :=
  ⟨files, fun n => d.outcomes (n + operations)⟩

@[simp] theorem after_files {P C : Type} (d : Disk P C) (operations : Nat) (files : Files P C) :
    (d.after operations files).files = files := rfl

@[simp] theorem after_outcomes {P C : Type} (d : Disk P C) (operations n : Nat) (files : Files P C) :
    (d.after operations files).outcomes n = d.outcomes (n + operations) := rfl

theorem after_after {P C : Type} (d : Disk P C) (j k : Nat) (f g : Files P C) :
    (d.after j f).after k g = d.after (j + k) g := by
  have houtcomes : (fun n => d.outcomes (n + k + j)) = fun n => d.outcomes (n + (j + k)) := by
    funext n
    congr 1
    omega
  rw [after, after, after]
  exact congrArg (Disk.mk g) houtcomes

end Disk

/-- A sequence of operations. -/
def FileAction (P C E α : Type) : Type := Disk P C → Except E α × Disk P C

namespace FileAction

section

variable {P C E α β : Type}

def pure (a : α) : FileAction P C E α := fun d => (.ok a, d)

def fail (e : E) : FileAction P C E α := fun d => (.error e, d)

/-- The second action runs when the first has not failed. -/
def bind (m : FileAction P C E α) (k : α → FileAction P C E β) : FileAction P C E β := fun d =>
  match m d with
  | (.error e, d') => (.error e, d')
  | (.ok a, d') => k a d'

instance : Monad (FileAction P C E) where
  pure := pure
  bind := bind

/-- An error becomes a value. -/
def attempt (m : FileAction P C E α) : FileAction P C E (Except E α) := fun d => (.ok (m d).1, (m d).2)

def mapError (f : E → E) (m : FileAction P C E α) : FileAction P C E α := fun d => ((m d).1.mapError f, (m d).2)

def ofExcept (r : Except E α) : FileAction P C E α := fun d => (r, d)

/-- An operation: how it goes is decided, and the files change. -/
def operation (f : FileOutcome C → Files P C → Except E α × Files P C) : FileAction P C E α := fun d =>
  ((f (d.outcomes 0) d.files).1, d.after 1 (f (d.outcomes 0) d.files).2)

/-- A read; the two errors are of a missing file, and of a failed operation. -/
def read (missing failed : E) (p : P) : FileAction P C E C :=
  operation fun outcome files =>
    match outcome, files p with
    | .failed _, _ => (.error failed, files)
    | .done, none => (.error missing, files)
    | .done, some c => (.ok c, files)

variable [DecidableEq P]

def write (failed : E) (p : P) (c : C) : FileAction P C E Unit :=
  operation fun outcome files =>
    match outcome with
    | .done => (.ok (), files.put p c)
    | .failed none => (.error failed, files)
    | .failed (some left) => (.error failed, files.put p left)

def rename (failed : E) (source target : P) : FileAction P C E Unit :=
  operation fun outcome files =>
    match outcome with
    | .done => (.ok (), files.move source target)
    | .failed _ => (.error failed, files)

def remove (failed : E) (p : P) : FileAction P C E Unit :=
  operation fun outcome files =>
    match outcome with
    | .done => (.ok (), files.drop p)
    | .failed _ => (.error failed, files)

/-- A file is created, or emptied. -/
def create (failed : E) (p : P) (empty : C) : FileAction P C E Unit :=
  operation fun outcome files =>
    match outcome with
    | .done => (.ok (), files.put p empty)
    | .failed _ => (.error failed, files)

/-- A write to a scratch file, renamed over the target; the scratch file of a failed renaming is removed if possible. -/
def replace (writeFailed renameFailed : E) (scratch target : P) (c : C) : FileAction P C E Unit := do
  write writeFailed scratch c
  match ← attempt (rename renameFailed scratch target) with
  | .ok _ => pure ()
  | .error e => do
    let _ ← attempt (remove renameFailed scratch)
    fail e

end

/-! ### What an action has done -/

section

variable {P C E α β : Type} {m : FileAction P C E α} {k : α → FileAction P C E β} {d d' : Disk P C} {a : α} {b : β}
  {e : E} {p scratch target : P} {c : C} {missing failed renameFailed : E}

theorem bind_ok (h : (m >>= k) d = (.ok b, d')) : ∃ a d₁, m d = (.ok a, d₁) ∧ k a d₁ = (.ok b, d') := by
  change m.bind k d = _ at h
  rw [bind] at h
  split at h
  · cases h
  · next a d₁ hm => exact ⟨a, d₁, hm, h⟩

theorem bind_error (h : (m >>= k) d = (.error e, d')) :
    m d = (.error e, d') ∨ ∃ a d₁, m d = (.ok a, d₁) ∧ k a d₁ = (.error e, d') := by
  change m.bind k d = _ at h
  rw [bind] at h
  split at h
  · next e' d₁ hm =>
    cases h
    exact Or.inl hm
  · next a d₁ hm => exact Or.inr ⟨a, d₁, hm, h⟩

theorem bind_of_ok (hm : m d = (.ok a, d')) : (m >>= k) d = k a d' := by
  change m.bind k d = _
  rw [bind, hm]

theorem bind_of_error (hm : m d = (.error e, d')) : (m >>= k) d = (.error e, d') := by
  change m.bind k d = _
  rw [bind, hm]

theorem ofExcept_ok {r : Except E α} : ofExcept r d = (.ok a, d') ↔ r = .ok a ∧ d' = d := by
  rw [ofExcept, Prod.mk.injEq, eq_comm (a := d)]

theorem mapError_ok {f : E → E} : m.mapError f d = (.ok a, d') ↔ m d = (.ok a, d') := by
  rw [mapError]
  constructor
  · intro h
    obtain ⟨hresult, hdisk⟩ := Prod.mk.inj h
    refine Prod.ext ?_ hdisk
    cases hm : (m d).1 with
    | error e' =>
      rw [hm] at hresult
      cases hresult
    | ok a' =>
      rw [hm] at hresult
      cases hresult
      rfl
  · intro h
    rw [h]
    rfl

theorem mapError_error {f : E → E} (h : m.mapError f d = (.error e, d')) : ∃ e', m d = (.error e', d') := by
  obtain ⟨hresult, hdisk⟩ := Prod.mk.inj h
  cases hm : (m d).1 with
  | error e' => exact ⟨e', Prod.ext hm hdisk⟩
  | ok a =>
    rw [hm] at hresult
    cases hresult

theorem read_ok : read missing failed p d = (.ok c, d') ↔
    d.outcomes 0 = .done ∧ d.files p = some c ∧ d' = d.after 1 d.files := by
  rw [read, operation]
  cases houtcome : d.outcomes 0 with
  | failed left => simp
  | done =>
    cases hp : d.files p with
    | none => simp
    | some c' => simp [eq_comm]

variable [DecidableEq P]

theorem write_ok : write failed p c d = (.ok (), d') ↔
    d.outcomes 0 = .done ∧ d' = d.after 1 (d.files.put p c) := by
  rw [write, operation]
  cases houtcome : d.outcomes 0 with
  | failed left => cases left <;> simp
  | done => simp [eq_comm]

theorem create_ok {empty : C} : create failed p empty d = (.ok (), d') ↔
    d.outcomes 0 = .done ∧ d' = d.after 1 (d.files.put p empty) := by
  rw [create, operation]
  cases houtcome : d.outcomes 0 with
  | failed left => simp
  | done => simp [eq_comm]

theorem create_error {empty : C} (h : create failed p empty d = (.error e, d')) : d'.files = d.files := by
  rw [create, operation] at h
  cases houtcome : d.outcomes 0 with
  | failed left =>
    rw [houtcome] at h
    cases h
    rfl
  | done =>
    rw [houtcome] at h
    cases h

theorem rename_ok : rename failed scratch target d = (.ok (), d') ↔
    d.outcomes 0 = .done ∧ d' = d.after 1 (d.files.move scratch target) := by
  rw [rename, operation]
  cases houtcome : d.outcomes 0 with
  | failed left => simp
  | done => simp [eq_comm]

theorem rename_error (h : rename failed scratch target d = (.error e, d')) :
    d.outcomes 0 ≠ .done ∧ d' = d.after 1 d.files := by
  rw [rename, operation] at h
  cases houtcome : d.outcomes 0 with
  | failed left =>
    rw [houtcome] at h
    cases h
    exact ⟨by simp, rfl⟩
  | done =>
    rw [houtcome] at h
    cases h

/-- A replacement goes through when both of its operations do. -/
theorem replace_ok : replace failed renameFailed scratch target c d = (.ok (), d') ↔
    d.outcomes 0 = .done ∧ d.outcomes 1 = .done ∧ d' = d.after 2 (d.files.replace scratch target c) := by
  constructor
  · intro h
    obtain ⟨⟨⟩, d₁, hwrite, hrest⟩ := bind_ok h
    obtain ⟨hfirst, rfl⟩ := write_ok.mp hwrite
    obtain ⟨r, d₂, hattempt, hmatch⟩ := bind_ok hrest
    obtain ⟨hr, hd₂⟩ := Prod.mk.inj hattempt
    cases r with
    | error e =>
      obtain ⟨-, _, -, hfail⟩ := bind_ok hmatch
      cases hfail
    | ok _ =>
      cases hmatch
      have hrename : rename renameFailed scratch target (d.after 1 (d.files.put scratch c)) = (.ok (), d') :=
        Prod.ext (Except.ok.inj hr) hd₂
      obtain ⟨hsecond, rfl⟩ := rename_ok.mp hrename
      exact ⟨hfirst, hsecond, Disk.after_after ..⟩
  · rintro ⟨hfirst, hsecond, rfl⟩
    have hrename : rename renameFailed scratch target (d.after 1 (d.files.put scratch c)) =
        (.ok (), (d.after 1 (d.files.put scratch c)).after 1 (d.files.replace scratch target c)) :=
      rename_ok.mpr ⟨hsecond, rfl⟩
    rw [replace, bind_of_ok (write_ok.mpr ⟨hfirst, rfl⟩)]
    rw [bind_of_ok (show attempt _ _ = (.ok (.ok ()), _) by rw [attempt, hrename])]
    rw [Disk.after_after]
    rfl

end

/-! ### What an action can touch -/

section

variable {P C E α β : Type} {m : FileAction P C E α} {k : α → FileAction P C E β} {S T : Set P}

/-- Whatever becomes of the action, no other file is touched. -/
def Frame (S : Set P) (m : FileAction P C E α) : Prop := ∀ d, Files.SameOutside S d.files (m d).2.files

theorem Frame.apply (hm : Frame S m) {d d' : Disk P C} {r : Except E α} (h : m d = (r, d')) :
    Files.SameOutside S d.files d'.files := by
  have hframe := hm d
  rw [h] at hframe
  exact hframe

theorem Frame.mono (hsub : S ⊆ T) (hm : Frame S m) : Frame T m := fun d => (hm d).mono hsub

theorem Frame.pure (a : α) : Frame S (Pure.pure a : FileAction P C E α) := fun _ => Files.SameOutside.refl _ _

theorem Frame.fail (e : E) : Frame S (FileAction.fail e : FileAction P C E α) := fun _ => Files.SameOutside.refl _ _

theorem Frame.ofExcept (r : Except E α) : Frame S (FileAction.ofExcept r : FileAction P C E α) :=
  fun _ => Files.SameOutside.refl _ _

theorem Frame.bind (hm : Frame S m) (hk : ∀ a, Frame S (k a)) : Frame S (m >>= k) := by
  intro d
  cases hresult : m d with
  | mk r d₁ =>
    have hfirst := hm.apply hresult
    cases r with
    | error e =>
      rw [bind_of_error hresult]
      exact hfirst
    | ok a =>
      rw [bind_of_ok hresult]
      exact hfirst.trans (hk a d₁)

theorem Frame.attempt (hm : Frame S m) : Frame S m.attempt := hm

theorem Frame.mapError {f : E → E} (hm : Frame S m) : Frame S (m.mapError f) := hm

variable {missing failed renameFailed : E} {p scratch target : P} {c : C}

theorem Frame.read : Frame S (read missing failed p : FileAction P C E C) := by
  intro d
  rw [FileAction.read, operation]
  split <;> exact Files.SameOutside.refl _ _

variable [DecidableEq P]

theorem Frame.write (hp : p ∈ S) : Frame S (write failed p c : FileAction P C E Unit) := by
  intro d
  rw [FileAction.write, operation]
  split
  · exact Files.SameOutside.put hp
  · exact Files.SameOutside.refl _ _
  · exact Files.SameOutside.put hp

theorem Frame.remove (hp : p ∈ S) : Frame S (remove failed p : FileAction P C E Unit) := by
  intro d
  rw [FileAction.remove, operation]
  split
  · exact Files.SameOutside.drop hp
  · exact Files.SameOutside.refl _ _

theorem Frame.rename (hscratch : scratch ∈ S) (htarget : target ∈ S) :
    Frame S (rename failed scratch target : FileAction P C E Unit) := by
  intro d
  rw [FileAction.rename, operation]
  split
  · exact Files.SameOutside.move hscratch htarget
  · exact Files.SameOutside.refl _ _

theorem Frame.replace (hscratch : scratch ∈ S) (htarget : target ∈ S) :
    Frame S (replace failed renameFailed scratch target c : FileAction P C E Unit) := by
  refine (Frame.write hscratch).bind fun _ => ((Frame.rename hscratch htarget).attempt).bind fun r => ?_
  cases r with
  | ok _ => exact Frame.pure ()
  | error e => exact ((Frame.remove hscratch).attempt).bind fun _ => Frame.fail e

/-- A replacement that fails leaves its target alone. -/
theorem replace_error {d d' : Disk P C} {e : E}
    (h : FileAction.replace failed renameFailed scratch target c d = (.error e, d')) :
    Files.SameOutside {scratch} d.files d'.files := by
  have hscratch : scratch ∈ ({scratch} : Set P) := rfl
  have hwriteFrame : Frame {scratch} (FileAction.write failed scratch c : FileAction P C E Unit) := Frame.write hscratch
  rcases bind_error h with hwrite | ⟨_, d₁, hwrite, hrest⟩
  · exact hwriteFrame.apply hwrite
  · rcases bind_error hrest with hattempt | ⟨r, d₂, hattempt, hmatch⟩
    · cases hattempt
    · obtain ⟨hr, hd₂⟩ := Prod.mk.inj hattempt
      cases r with
      | ok _ => cases hmatch
      | error e' =>
        obtain ⟨-, rfl⟩ := rename_error (Prod.ext (Except.ok.inj hr) hd₂)
        have hcleanup : Frame {scratch} (do
            let _ ← FileAction.attempt (FileAction.remove renameFailed scratch : FileAction P C E Unit)
            (FileAction.fail e' : FileAction P C E Unit)) :=
          ((Frame.remove hscratch).attempt).bind fun _ => Frame.fail e'
        exact (hwriteFrame.apply hwrite).trans (hcleanup.apply (d := d₁.after 1 d₁.files) hmatch)

end

end FileAction
