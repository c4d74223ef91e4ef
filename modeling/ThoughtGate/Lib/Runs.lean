import Mathlib.Data.List.SplitBy

/-!
# Runs

A list is cut by `List.splitBy` into the longest runs of elements that all satisfy `p`, and the other elements one by one.
`squeeze p` keeps the first of each. That leaves no two elements with `p` next to each other (`sparse_squeeze`), and a list
without such neighbours as it is (`squeeze_eq_self_iff`).
-/

namespace Runs

open List

variable {α : Type} (p : α → Bool)

/-- No two elements with `p` are next to each other. -/
def Sparse (xs : List α) : Prop := xs.IsChain fun a b => ¬ (p a = true ∧ p b = true)

/-- The longest runs of elements with `p`, and the other elements one by one. -/
def runs (xs : List α) : List (List α) := xs.splitBy fun a b => p a && p b

/-- Each run is replaced by its first element. -/
def squeeze (xs : List α) : List α := (runs p xs).filterMap head?

variable {p}

@[simp] theorem squeeze_nil : squeeze p [] = [] := rfl

@[simp] theorem squeeze_singleton (a : α) : squeeze p [a] = [a] := rfl

/-- After an element that does not go on as a run, the rest is squeezed by itself. -/
theorem squeeze_cons_of_not {a b : α} (h : ¬ (p a = true ∧ p b = true)) (xs : List α) :
    squeeze p (a :: b :: xs) = a :: squeeze p (b :: xs) := by
  have hruns : runs p (a :: b :: xs) = [a] :: runs p (b :: xs) :=
    splitBy_append_cons (l := [a]) (a := b) xs (by simpa using h)
  rw [squeeze, squeeze, hruns]
  rfl

/-- An element that goes on as a run takes the place of the run's first. -/
theorem squeeze_cons_of_run {a b : α} (ha : p a = true) (hb : p b = true) (xs : List α) :
    squeeze p (a :: b :: xs) = a :: (squeeze p (b :: xs)).tail := by
  cases hfirst : runs p (b :: xs) with
  | nil => exact absurd (splitBy_eq_nil.mp hfirst) (by simp)
  | cons run rest =>
    obtain ⟨hflat, hnil, hchains, hends⟩ := splitBy_eq_iff.mp hfirst
    cases run with
    | nil => exact absurd mem_cons_self hnil
    | cons c run =>
      obtain ⟨rfl, -⟩ := cons.inj hflat
      have hextended : runs p (a :: b :: xs) = (a :: b :: run) :: rest := by
        refine splitBy_eq_iff.mpr ⟨?_, ?_, ?_, ?_⟩
        · rw [hflat]
          rfl
        · simpa using hnil
        · intro m hm
          rcases mem_cons.mp hm with rfl | hrest
          · exact isChain_cons_cons.mpr ⟨by simp [ha, hb], hchains _ mem_cons_self⟩
          · exact hchains m (mem_cons_of_mem _ hrest)
        · rw [isChain_cons] at hends ⊢
          refine ⟨fun m hm => ?_, hends.2⟩
          obtain ⟨hne, hm, hlast⟩ := hends.1 m hm
          exact ⟨by simp, hm, by simpa using hlast⟩
      rw [squeeze, squeeze, hextended, hfirst]
      rfl

theorem head?_squeeze (xs : List α) : (squeeze p xs).head? = xs.head? := by
  cases xs with
  | nil => rfl
  | cons a xs =>
    cases xs with
    | nil => rfl
    | cons b xs =>
      by_cases h : p a = true ∧ p b = true
      · rw [squeeze_cons_of_run h.1 h.2]
        rfl
      · rw [squeeze_cons_of_not h]
        rfl

/-- What is squeezed begins with the element that the list begins with. -/
theorem squeeze_cons (a : α) (xs : List α) : ∃ ys, squeeze p (a :: xs) = a :: ys := by
  have hhead := head?_squeeze (p := p) (a :: xs)
  cases hsqueeze : squeeze p (a :: xs) with
  | nil =>
    rw [hsqueeze] at hhead
    cases hhead
  | cons b ys =>
    rw [hsqueeze] at hhead
    cases hhead
    exact ⟨ys, rfl⟩

theorem sparse_squeeze (xs : List α) : Sparse p (squeeze p xs) := by
  induction xs with
  | nil => exact isChain_nil
  | cons a xs ih =>
    cases xs with
    | nil => exact isChain_singleton a
    | cons b xs =>
      obtain ⟨ys, hys⟩ := squeeze_cons (p := p) b xs
      rw [hys] at ih
      by_cases h : p a = true ∧ p b = true
      · rw [squeeze_cons_of_run h.1 h.2, hys, tail_cons]
        rw [Sparse, isChain_cons] at ih ⊢
        exact ⟨fun c hc hboth => ih.1 c hc ⟨h.2, hboth.2⟩, ih.2⟩
      · rw [squeeze_cons_of_not h, hys]
        exact isChain_cons_cons.mpr ⟨h, ih⟩

theorem squeeze_of_sparse {xs : List α} (h : Sparse p xs) : squeeze p xs = xs := by
  induction xs with
  | nil => rfl
  | cons a xs ih =>
    cases xs with
    | nil => rfl
    | cons b xs =>
      obtain ⟨hpair, hrest⟩ := isChain_cons_cons.mp h
      rw [squeeze_cons_of_not hpair, ih hrest]

theorem squeeze_eq_self_iff {xs : List α} : squeeze p xs = xs ↔ Sparse p xs :=
  ⟨fun h => h ▸ sparse_squeeze xs, squeeze_of_sparse⟩

end Runs
