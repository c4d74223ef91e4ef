import Mathlib.Data.List.Infix
import Mathlib.Tactic.Common

/-!
# Fences

A fence is a mark written so many times in a row; what stands after an opening fence is closed by the next one. Where
something is written between fences, it is closed by the fence behind it and no earlier exactly if no fence stands in it
(`closedByEnd_iff`). Anything but the mark parts a text: a fence stands in one of the parts (`fence_infix_append_cons`), and a
code that leaves the mark as it is and uses it for nothing else makes no fence and breaks none (`fence_infix_flatMap`).
-/

section

variable {α β : Type}

/-- After an opening delimiter the text is closed at its end, and nowhere before. -/
def ClosedByEnd (delimiter text : List α) : Prop :=
  ∀ before after, text = before ++ delimiter ++ after → after = []

variable {a b : α}

theorem fence_prefix_append_cons (hb : b ≠ a) (k : Nat) (xs ys : List α) :
    List.replicate k a <+: xs ++ b :: ys ↔ List.replicate k a <+: xs := by
  induction k generalizing xs with
  | zero => simp
  | succ k ih =>
    cases xs with
    | nil => simp [List.replicate_succ, hb.symm]
    | cons x xs =>
      rw [List.cons_append, List.replicate_succ, List.cons_prefix_cons, List.cons_prefix_cons, ih]

/-- A fence goes over nothing else than marks. -/
theorem fence_infix_append_cons (hb : b ≠ a) (k : Nat) (xs ys : List α) :
    List.replicate (k + 1) a <:+: xs ++ b :: ys ↔ List.replicate (k + 1) a <:+: xs ∨ List.replicate (k + 1) a <:+: ys := by
  induction xs with
  | nil =>
    have hbegin : ¬ List.replicate (k + 1) a <+: b :: ys := by
      rw [List.replicate_succ, List.cons_prefix_cons]
      exact fun h => hb h.1.symm
    have hnil : ¬ List.replicate (k + 1) a <:+: [] := by simp
    rw [List.nil_append, List.infix_cons_iff, or_iff_right hbegin, or_iff_right hnil]
  | cons x xs ih =>
    have hbegin := fence_prefix_append_cons hb (k + 1) (x :: xs) ys
    rw [List.cons_append] at hbegin ⊢
    rw [List.infix_cons_iff, ih, hbegin, List.infix_cons_iff, or_assoc]

theorem fence_infix_append_of_notMem {xs : List α} (h : a ∉ xs) (k : Nat) (ys : List α) :
    List.replicate (k + 1) a <:+: xs ++ ys ↔ List.replicate (k + 1) a <:+: ys := by
  induction xs with
  | nil => rfl
  | cons x xs ih =>
    rw [List.mem_cons, not_or] at h
    have hnil : ¬ List.replicate (k + 1) a <:+: [] := by simp
    have hcons := fence_infix_append_cons (Ne.symm h.1) k [] (xs ++ ys)
    rw [or_iff_right hnil, List.nil_append] at hcons
    rw [List.cons_append, hcons, ih h.2]

section

variable [DecidableEq α] (code : α → List β) {mark : β}

theorem fence_prefix_flatMap (hmark : code a = [mark]) (hother : ∀ x, x ≠ a → code x ≠ [] ∧ mark ∉ code x) (k : Nat)
    (xs : List α) : List.replicate k mark <+: xs.flatMap code ↔ List.replicate k a <+: xs := by
  induction k generalizing xs with
  | zero => simp
  | succ k ih =>
    cases xs with
    | nil => simp [List.replicate_succ]
    | cons x xs =>
      rw [List.flatMap_cons]
      by_cases hx : x = a
      · rw [hx, hmark, List.singleton_append, List.replicate_succ, List.replicate_succ, List.cons_prefix_cons,
          List.cons_prefix_cons, ih]
        simp
      · obtain ⟨hne, hmem⟩ := hother x hx
        obtain ⟨c, rest, hcode⟩ := List.exists_cons_of_ne_nil hne
        rw [hcode, List.mem_cons, not_or] at hmem
        rw [hcode, List.cons_append, List.replicate_succ, List.replicate_succ, List.cons_prefix_cons, List.cons_prefix_cons]
        simp [hmem.1, Ne.symm hx]

/-- The code of a text has the fences of the text. -/
theorem fence_infix_flatMap (hmark : code a = [mark]) (hother : ∀ x, x ≠ a → code x ≠ [] ∧ mark ∉ code x) (k : Nat)
    (xs : List α) : List.replicate (k + 1) mark <:+: xs.flatMap code ↔ List.replicate (k + 1) a <:+: xs := by
  induction xs with
  | nil => simp
  | cons x xs ih =>
    have hbegin := fence_prefix_flatMap code hmark hother (k + 1) (x :: xs)
    rw [List.flatMap_cons] at hbegin ⊢
    by_cases hx : x = a
    · rw [hx, hmark, List.singleton_append] at hbegin ⊢
      rw [List.infix_cons_iff, ih, hbegin, List.infix_cons_iff]
    · have hnot : ¬ List.replicate (k + 1) a <+: x :: xs := by
        rw [List.replicate_succ, List.cons_prefix_cons]
        exact fun h => hx h.1.symm
      rw [fence_infix_append_of_notMem (hother x hx).2, ih, List.infix_cons_iff, or_iff_right hnot]

end

/-- What stands between an opening fence and the one behind it is closed by that one exactly if no fence stands in it. -/
theorem closedByEnd_iff (hb : b ≠ a) (k : Nat) (xs : List α) :
    ClosedByEnd (List.replicate (k + 1) a) (xs ++ b :: List.replicate (k + 1) a) ↔ ¬ List.replicate (k + 1) a <:+: xs := by
  constructor
  · rintro h ⟨before, after, rfl⟩
    have hend := h before (after ++ b :: List.replicate (k + 1) a) (by rw [List.append_assoc])
    simp at hend
  · intro h before after heq
    by_contra hafter
    -- without its last mark the text has no fence, but for one in the part before
    have hshort : (xs ++ b :: List.replicate (k + 1) a).dropLast = xs ++ b :: List.replicate k a := by
      rw [List.replicate_succ', ← List.cons_append, ← List.append_assoc, List.dropLast_concat]
    have hinfix : List.replicate (k + 1) a <:+: xs ++ b :: List.replicate k a := by
      rw [← hshort, heq, List.dropLast_append_of_ne_nil hafter]
      exact List.infix_append _ _ _
    rcases (fence_infix_append_cons hb k xs _).mp hinfix with hxs | hmarks
    · exact h hxs
    · have hlength := hmarks.length_le
      rw [List.length_replicate, List.length_replicate] at hlength
      omega

/-- What stands before a closing mark is closed by it exactly if the mark is not in it. -/
theorem closedByEnd_singleton_iff (xs : List α) : ClosedByEnd [a] (xs ++ [a]) ↔ a ∉ xs := by
  constructor
  · intro h hmem
    obtain ⟨before, after, rfl⟩ := List.append_of_mem hmem
    have hend := h before (after ++ [a]) (by simp)
    simp at hend
  · intro h before after heq
    by_contra hafter
    have hfront : xs = before ++ [a] ++ after.dropLast := by
      rw [← List.dropLast_append_of_ne_nil hafter, ← heq, List.dropLast_concat]
    exact h (by simp [hfront])

end
