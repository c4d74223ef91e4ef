import Mathlib.Data.List.Basic

/-!
# The pieces of a stream

A stream is cut behind every element that ends a piece; what follows the last of them is a piece too, unless it is empty.
The first piece is known as soon as its end is, whatever follows (`pieces_closed`).
-/

namespace ThoughtGate.Lines

variable {α : Type*} (ends : α → Bool)

/-- The pieces, each with the element that ends it. -/
def pieces : List α → List (List α)
  | [] => []
  | x :: xs =>
    if ends x then [x] :: pieces xs
    else
      match pieces xs with
      | [] => [[x]]
      | p :: ps => (x :: p) :: ps

variable {ends}

@[simp] theorem pieces_nil : pieces ends [] = [] := rfl

theorem pieces_cons (x : α) (xs : List α) : pieces ends (x :: xs) =
    if ends x then [x] :: pieces ends xs
    else
      match pieces ends xs with
      | [] => [[x]]
      | p :: ps => (x :: p) :: ps := rfl

theorem pieces_cons_end {x : α} (h : ends x = true) (xs : List α) : pieces ends (x :: xs) = [x] :: pieces ends xs := by
  rw [pieces_cons, if_pos h]

theorem pieces_cons_open {x : α} (h : ends x = false) {xs : List α} {p : List α} {ps : List (List α)}
    (hp : pieces ends xs = p :: ps) : pieces ends (x :: xs) = (x :: p) :: ps := by
  rw [pieces_cons, h, if_neg Bool.false_ne_true, hp]

/-- A stream without an end is one piece. -/
theorem pieces_open {xs : List α} (h : ∀ x ∈ xs, ends x = false) (hne : xs ≠ []) : pieces ends xs = [xs] := by
  induction xs with
  | nil => exact absurd rfl hne
  | cons x xs ih =>
    have hx := h x List.mem_cons_self
    cases xs with
    | nil => rw [pieces_cons, hx, if_neg Bool.false_ne_true, pieces_nil]
    | cons y ys =>
      apply pieces_cons_open hx
      exact ih (fun z hz => h z (List.mem_cons_of_mem x hz)) (List.cons_ne_nil y ys)

/-- The first piece goes to the first end. -/
theorem pieces_closed {xs : List α} (h : ∀ x ∈ xs, ends x = false) {e : α} (he : ends e = true) (ys : List α) :
    pieces ends (xs ++ e :: ys) = (xs ++ [e]) :: pieces ends ys := by
  induction xs with
  | nil => exact pieces_cons_end he ys
  | cons x xs ih =>
    apply pieces_cons_open (h x List.mem_cons_self)
    exact ih fun z hz => h z (List.mem_cons_of_mem x hz)

/-- Nothing is lost and nothing is added. -/
theorem flatten_pieces (xs : List α) : (pieces ends xs).flatten = xs := by
  induction xs with
  | nil => rfl
  | cons x xs ih =>
    rw [pieces_cons]
    split
    · rw [List.flatten_cons, ih]
      rfl
    · cases hp : pieces ends xs with
      | nil =>
        rw [hp] at ih
        simp [← ih]
      | cons p ps =>
        rw [hp] at ih
        simp [← ih]

/-- In a piece there is an end at most in the last place. -/
theorem mem_pieces {xs p : List α} (h : p ∈ pieces ends xs) :
    ∃ body : List α, (∀ x ∈ body, ends x = false) ∧ (p = body ∨ ∃ e, ends e = true ∧ p = body ++ [e]) := by
  induction xs generalizing p with
  | nil => cases h
  | cons x xs ih =>
    rw [pieces_cons] at h
    split at h
    · rename_i hx
      rcases List.mem_cons.mp h with rfl | hrest
      · exact ⟨[], by simp, Or.inr ⟨x, hx, rfl⟩⟩
      · exact ih hrest
    · rename_i hx
      have hopen : ends x = false := by simpa using hx
      cases hp : pieces ends xs with
      | nil =>
        rw [hp] at h
        obtain rfl := List.mem_singleton.mp h
        exact ⟨[x], by simp [hopen], Or.inl rfl⟩
      | cons q qs =>
        rw [hp] at h
        rcases List.mem_cons.mp h with rfl | hrest
        · obtain ⟨body, hbody, hq⟩ := ih (p := q) (by rw [hp]; exact List.mem_cons_self)
          refine ⟨x :: body, ?_, ?_⟩
          · intro y hy
            rcases List.mem_cons.mp hy with rfl | hin
            · exact hopen
            · exact hbody y hin
          · rcases hq with rfl | ⟨e, he, rfl⟩
            · exact Or.inl rfl
            · exact Or.inr ⟨e, he, rfl⟩
        · exact ih (by rw [hp]; exact List.mem_cons_of_mem q hrest)

end ThoughtGate.Lines
