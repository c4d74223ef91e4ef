import Mathlib.Data.List.Infix
import Mathlib.Tactic.Common

/-!
# Replacing a pattern everywhere

`replaceAll` goes from left to right, puts the new text where the pattern stands and goes on after it. In a text that is put
together from blocks, where the pattern stands only as a block of its own, it changes these blocks (`replaceAll_flatMap`).
What it has done at all it has put the new text somewhere (`infix_replaceAll`).
-/

section

variable {α β : Type} [DecidableEq α]

/-- Replace the pattern, which is not empty, after so many elements that are passed over. -/
def replaceFrom (pat new : List α) : Nat → List α → List α
  | _, [] => []
  | skip + 1, _ :: rest => replaceFrom pat new skip rest
  | 0, c :: rest =>
    if pat.isPrefixOf (c :: rest) then new ++ replaceFrom pat new (pat.length - 1) rest
    else c :: replaceFrom pat new 0 rest

def replaceAll (pat new : List α) (xs : List α) : List α := replaceFrom pat new 0 xs

variable {pat new : List α}

theorem replaceFrom_length (xs ys : List α) : replaceFrom pat new xs.length (xs ++ ys) = replaceAll pat new ys := by
  induction xs with
  | nil => rfl
  | cons x xs ih => exact ih

@[simp] theorem replaceAll_nil : replaceAll pat new [] = [] := rfl

/-- The pattern at the front. -/
theorem replaceAll_pattern (hpat : pat ≠ []) (xs : List α) :
    replaceAll pat new (pat ++ xs) = new ++ replaceAll pat new xs := by
  obtain ⟨c, rest, rfl⟩ := List.exists_cons_of_ne_nil hpat
  have hbegin : (c :: rest).isPrefixOf (c :: (rest ++ xs)) = true :=
    List.isPrefixOf_iff_prefix.mpr (List.prefix_append (c :: rest) xs)
  show (if (c :: rest).isPrefixOf (c :: (rest ++ xs)) then
    new ++ replaceFrom (c :: rest) new rest.length (rest ++ xs) else _) = _
  rw [if_pos hbegin, replaceFrom_length]

theorem replaceAll_cons {c : α} {xs : List α} (h : ¬ pat <+: c :: xs) :
    replaceAll pat new (c :: xs) = c :: replaceAll pat new xs :=
  if_neg (mt List.isPrefixOf_iff_prefix.mp h)

/-- Elements at which the pattern does not begin stay. -/
theorem replaceAll_append {xs ys : List α} (h : ∀ before after, xs = before ++ after → after ≠ [] → ¬ pat <+: after ++ ys) :
    replaceAll pat new (xs ++ ys) = xs ++ replaceAll pat new ys := by
  induction xs with
  | nil => rfl
  | cons x xs ih =>
    have hhead : ¬ pat <+: x :: (xs ++ ys) := h [] (x :: xs) rfl (List.cons_ne_nil _ _)
    rw [List.cons_append, List.cons_append, replaceAll_cons hhead, ih]
    rintro before after rfl hafter
    exact h (x :: before) after rfl hafter

/-- Texts as `replaceAll` goes through them. -/
theorem pattern_induction {motive : List α → Prop} (hpat : pat ≠ []) (nil : motive [])
    (pattern : ∀ xs, motive xs → motive (pat ++ xs))
    (other : ∀ x xs, ¬ pat <+: x :: xs → motive xs → motive (x :: xs)) (xs : List α) : motive xs := by
  induction hn : xs.length using Nat.strongRecOn generalizing xs with
  | ind n ih =>
    subst hn
    cases xs with
    | nil => exact nil
    | cons x xs =>
      by_cases hbegin : pat <+: x :: xs
      · obtain ⟨rest, hrest⟩ := hbegin
        have hlength := congrArg List.length hrest
        have hpos := List.length_pos_iff.mpr hpat
        rw [List.length_append] at hlength
        rw [← hrest]
        exact pattern rest (ih rest.length (by omega) rest rfl)
      · exact other x xs hbegin (ih xs.length (Nat.lt_succ_self _) xs rfl)

theorem replaceAll_self (hpat : pat ≠ []) (xs : List α) : replaceAll pat pat xs = xs := by
  induction xs using pattern_induction hpat with
  | nil => rfl
  | pattern xs ih => rw [replaceAll_pattern hpat, ih]
  | other x xs hother ih => rw [replaceAll_cons hother, ih]

/-- Where the pattern does not stand, nothing changes. -/
theorem replaceAll_of_absent {xs : List α} (h : ¬ pat <:+: xs) : replaceAll pat new xs = xs := by
  have hstay := @replaceAll_append _ _ pat new xs [] ?_
  · rwa [List.append_nil, replaceAll_nil, List.append_nil] at hstay
  · rintro before after rfl - hbegin
    rw [List.append_nil] at hbegin
    exact h (hbegin.isInfix.trans (List.suffix_append before after).isInfix)

/-- Where it stands, the new text comes in. -/
theorem infix_replaceAll (hpat : pat ≠ []) {xs : List α} (h : pat <:+: xs) : new <:+: replaceAll pat new xs := by
  induction xs with
  | nil => exact absurd (List.infix_nil.mp h) hpat
  | cons x xs ih =>
    by_cases hbegin : pat <+: x :: xs
    · obtain ⟨rest, hrest⟩ := hbegin
      rw [← hrest, replaceAll_pattern hpat]
      exact (List.prefix_append new _).isInfix
    · rw [replaceAll_cons hbegin]
      rcases List.infix_cons_iff.mp h with hcontra | hinside
      · exact absurd hcontra hbegin
      · exact (ih hinside).trans (List.suffix_cons x _).isInfix

/-- Once the new text is there, it stays or comes in again. -/
theorem infix_replaceAll_stays (hpat : pat ≠ []) {xs : List α} (h : new <:+: xs) : new <:+: replaceAll pat new xs := by
  by_cases hinside : pat <:+: xs
  · exact infix_replaceAll hpat hinside
  · rwa [replaceAll_of_absent hinside]

/-- In front of a text into which the pattern does not reach it is replaced as if the text ended there. -/
theorem replaceAll_append_of_inside (hpat : pat ≠ []) {xs ys : List α}
    (h : ∀ before after, xs = before ++ after → after ≠ [] → pat <+: after ++ ys → pat <+: after) :
    replaceAll pat new (xs ++ ys) = replaceAll pat new xs ++ replaceAll pat new ys := by
  induction xs using pattern_induction hpat with
  | nil => rfl
  | pattern xs ih =>
    rw [List.append_assoc, replaceAll_pattern hpat, replaceAll_pattern hpat, List.append_assoc, ih]
    rintro before after rfl
    exact h (pat ++ before) after (List.append_assoc ..).symm
  | other x xs hother ih =>
    have hhead : ¬ pat <+: x :: (xs ++ ys) := fun hbegin => hother (h [] (x :: xs) rfl (List.cons_ne_nil _ _) hbegin)
    rw [List.cons_append, replaceAll_cons hhead, replaceAll_cons hother, List.cons_append, ih]
    rintro before after rfl
    exact h (x :: before) after rfl

/-! ### Long runs -/

omit [DecidableEq α] in
theorem not_prefix_append {w rest : List α} {s x : α} {k : Nat} (hk : w.length < k) (hs : s ≠ x) :
    ¬ List.replicate k x <+: w ++ s :: rest := by
  rintro ⟨tail, htail⟩
  have hlength : w.length < (List.replicate k x).length := by simpa using hk
  have hat := congrArg (·[w.length]?) htail
  simp only [List.getElem?_append_left hlength, List.getElem?_replicate, if_pos hk,
    List.getElem?_append_right (le_refl w.length), Nat.sub_self, List.getElem?_cons_zero] at hat
  exact hs (Option.some.inj hat).symm

omit [DecidableEq α] in
/-- A run that is longer than what stands before another element stands behind that. -/
theorem infix_of_infix_append {w rest : List α} {s x : α} {k : Nat} (hk : w.length < k) (hs : s ≠ x)
    (h : List.replicate k x <:+: w ++ s :: rest) : List.replicate k x <:+: rest := by
  induction w with
  | nil => exact (List.infix_cons_iff.mp h).resolve_left (not_prefix_append hk hs)
  | cons c w ih =>
    exact ih (Nat.lt_of_succ_lt hk) ((List.infix_cons_iff.mp h).resolve_left (not_prefix_append hk hs))

/-! ### Blocks -/

/-- In the text of the blocks the pattern stands only where a block is that is hit. -/
def StandsOnly (pat : List α) (text : β → List α) (hit : β → Prop) (blocks : List β) : Prop :=
  ∀ before after, blocks.flatMap text = before ++ pat ++ after →
    ∃ bs b bs', blocks = bs ++ b :: bs' ∧ hit b ∧ bs.flatMap text = before

section

variable {text : β → List α} {hit : β → Prop}

omit [DecidableEq α] in
theorem StandsOnly.tail {b : β} {blocks : List β} (hpat : pat ≠ []) (hhit : hit b → text b = pat)
    (h : StandsOnly pat text hit (b :: blocks)) : StandsOnly pat text hit blocks := by
  intro before after heq
  obtain ⟨bs, b', bs', hblocks, hb', hbefore⟩ := h (text b ++ before) after (by
    rw [List.flatMap_cons, heq]
    simp only [List.append_assoc])
  cases bs with
  | nil =>
    -- the block itself is not what has been found behind it
    cases hblocks
    have hnil := (List.append_eq_nil_iff.mp hbefore.symm).1
    exact absurd ((hhit hb').symm.trans hnil) hpat
  | cons c bs =>
    rw [List.cons_append] at hblocks
    cases hblocks
    rw [List.flatMap_cons] at hbefore
    exact ⟨bs, b', bs', rfl, hb', List.append_cancel_left hbefore⟩

omit [DecidableEq α] in
/-- In a block that is not hit the pattern does not begin. -/
theorem StandsOnly.not_begin {b : β} {blocks : List β} (hb : ¬ hit b) (h : StandsOnly pat text hit (b :: blocks))
    {before after : List α} (hsplit : text b = before ++ after) (hafter : after ≠ []) :
    ¬ pat <+: after ++ blocks.flatMap text := by
  rintro ⟨rest, hrest⟩
  obtain ⟨bs, b', bs', hblocks, hb', hbefore⟩ := h before rest (by
    rw [List.flatMap_cons, hsplit, List.append_assoc, ← hrest, List.append_assoc])
  cases bs with
  | nil =>
    cases hblocks
    exact hb hb'
  | cons c bs =>
    rw [List.cons_append] at hblocks
    cases hblocks
    have hlength := congrArg List.length hbefore
    have hpos := List.length_pos_iff.mpr hafter
    rw [List.flatMap_cons, hsplit, List.length_append, List.length_append] at hlength
    omega

/-- Exactly the blocks that are hit are replaced. -/
theorem replaceAll_flatMap [DecidablePred hit] (hpat : pat ≠ []) {blocks : List β} (hhit : ∀ b, hit b → text b = pat)
    (h : StandsOnly pat text hit blocks) :
    replaceAll pat new (blocks.flatMap text) = blocks.flatMap fun b => if hit b then new else text b := by
  induction blocks with
  | nil => rfl
  | cons b blocks ih =>
    rw [List.flatMap_cons, List.flatMap_cons, ← ih (h.tail hpat (hhit b))]
    by_cases hb : hit b
    · rw [if_pos hb, hhit b hb, replaceAll_pattern hpat]
    · rw [if_neg hb]
      exact replaceAll_append fun before after hsplit hafter => h.not_begin hb hsplit hafter

end

end
