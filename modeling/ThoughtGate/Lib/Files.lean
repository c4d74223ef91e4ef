import Mathlib.Logic.Function.Basic
import Mathlib.Data.Set.Basic

/-!
# Named contents

A store of contents under names, with the operations of a file system that matter for what it holds: a write, a
removal, a renaming that replaces the target in one step, and the usual way to replace a file through a scratch name.
`SameOutside` is the frame of an operation, `Holds` says that nothing which was there is lost or changed.
-/

/-- What is held under each name. -/
abbrev Files (P C : Type) := P → Option C

namespace Files

variable {P C : Type} [DecidableEq P] {f g h : Files P C} {p q scratch target : P} {c : C} {S T : Set P}

def put (f : Files P C) (p : P) (c : C) : Files P C := Function.update f p (some c)

def drop (f : Files P C) (p : P) : Files P C := Function.update f p none

/-- The target takes the content of the source over. -/
def move (f : Files P C) (source target : P) : Files P C :=
  Function.update (Function.update f source none) target (f source)

/-- Write under a scratch name, then rename. -/
def replace (f : Files P C) (scratch target : P) (c : C) : Files P C := (f.put scratch c).move scratch target

@[simp] theorem put_self : f.put p c p = some c := Function.update_self ..

theorem put_ne (hne : q ≠ p) : f.put p c q = f q := Function.update_of_ne hne ..

theorem drop_ne (hne : q ≠ p) : f.drop p q = f q := Function.update_of_ne hne ..

theorem replace_target : f.replace scratch target c target = some c := by
  rw [replace, move, Function.update_self, put_self]

theorem replace_ne (hscratch : q ≠ scratch) (htarget : q ≠ target) : f.replace scratch target c q = f q := by
  rw [replace, move, Function.update_of_ne htarget, Function.update_of_ne hscratch, put_ne hscratch]

/-! ### Frames -/

omit [DecidableEq P] in
/-- The two stores differ under these names at most. -/
def SameOutside (S : Set P) (f g : Files P C) : Prop := ∀ p, p ∉ S → g p = f p

omit [DecidableEq P] in
theorem SameOutside.refl (S : Set P) (f : Files P C) : SameOutside S f f := fun _ _ => rfl

omit [DecidableEq P] in
theorem SameOutside.trans (hfg : SameOutside S f g) (hgh : SameOutside S g h) : SameOutside S f h := by
  intro p hp
  rw [hgh p hp, hfg p hp]

omit [DecidableEq P] in
theorem SameOutside.mono (hsub : S ⊆ T) (hfg : SameOutside S f g) : SameOutside T f g :=
  fun p hp => hfg p fun hS => hp (hsub hS)

theorem SameOutside.put (hp : p ∈ S) : SameOutside S f (f.put p c) := by
  intro q hq
  refine put_ne ?_
  rintro rfl
  exact hq hp

theorem SameOutside.drop (hp : p ∈ S) : SameOutside S f (f.drop p) := by
  intro q hq
  refine drop_ne ?_
  rintro rfl
  exact hq hp

theorem SameOutside.move (hscratch : scratch ∈ S) (htarget : target ∈ S) : SameOutside S f (f.move scratch target) := by
  intro q hq
  rw [Files.move, Function.update_of_ne, Function.update_of_ne]
  · rintro rfl
    exact hq hscratch
  · rintro rfl
    exact hq htarget

theorem SameOutside.replace (hscratch : scratch ∈ S) (htarget : target ∈ S) :
    SameOutside S f (f.replace scratch target c) := by
  intro q hq
  refine replace_ne ?_ ?_
  · rintro rfl
    exact hq hscratch
  · rintro rfl
    exact hq htarget

omit [DecidableEq P] in
/-- What the first store holds, the second holds unchanged. -/
def Holds (f g : Files P C) : Prop := ∀ p c, f p = some c → g p = some c

omit [DecidableEq P] in
/-- Nothing is lost when the names that may differ were free, or hold what they held. -/
theorem Holds.of_sameOutside (hsame : SameOutside S f g) (hS : ∀ p ∈ S, f p = none ∨ g p = f p) : Holds f g := by
  intro p c hp
  by_cases hmem : p ∈ S
  · rcases hS p hmem with hfree | hkept
    · rw [hfree] at hp
      cases hp
    · rw [hkept, hp]
  · rw [hsame p hmem, hp]

end Files
