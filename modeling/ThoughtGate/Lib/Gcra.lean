import Mathlib.Data.List.Basic
import Mathlib.Data.List.Induction
import Mathlib.Tactic.Common
import Mathlib.Tactic.Ring
import Mathlib.Tactic.Zify

/-!
# The generic cell rate algorithm

A limiter keeps one number, the theoretical arrival time of the next cell. Time is scaled by the rate so that a cell takes
`unit` of it whatever the rate is: at time `t` the rate has made room for `rate * t`. A cell conforms when the arrival time is
not more than `burst - 1` cells ahead, and moves it on by one cell; a limiter that has not been used has none.

What conforms is bounded in every window by the burst and what the rate makes room for (`Conforms.count_le`). A limiter whose
arrival time has passed is as good as new (`advance_passed`).
-/

structure Gcra where
  rate : Nat
  unit : Nat
  burst : Nat

namespace Gcra

variable (q : Gcra)

/-- The arrival time after a cell. -/
def advance (tat : Option Int) (t : Int) : Int := max (tat.getD (q.rate * t)) (q.rate * t) + q.unit

/-- The cell conforms. -/
def Admits (tat : Option Int) (t : Int) : Prop := ∀ x ∈ tat, x ≤ q.rate * t + (q.burst - 1) * q.unit

instance (tat : Option Int) (t : Int) : Decidable (q.Admits tat t) :=
  match tat with
  | none => isTrue (by simp [Admits])
  | some x => decidable_of_iff (x ≤ q.rate * t + (q.burst - 1) * q.unit) (by simp [Admits])

/-- The arrival time after cells at these times. -/
def after (ts : List Int) : Option Int := ts.foldl (fun tat t => some (q.advance tat t)) none

/-- Every cell conformed when it came. -/
inductive Conforms : List Int → Prop
  | nil : Conforms []
  | snoc {ts : List Int} {t : Int} : Conforms ts → q.Admits (q.after ts) t → Conforms (ts ++ [t])

/-- How many of the times are in the window. -/
def count (ts : List Int) (start : Int) (width : Nat) : Nat :=
  (ts.filter fun t => decide (start ≤ t ∧ t ≤ start + width)).length

variable {q}

theorem after_snoc (ts : List Int) (t : Int) : q.after (ts ++ [t]) = some (q.advance (q.after ts) t) := by
  rw [after, List.foldl_append]
  rfl

theorem rate_le_advance (tat : Option Int) (t : Int) : q.rate * t + q.unit ≤ q.advance tat t :=
  Int.add_le_add_right (Int.le_max_right _ _) _

theorem le_advance {tat : Option Int} {x : Int} (h : x ∈ tat) (t : Int) : x + q.unit ≤ q.advance tat t := by
  cases h
  exact Int.add_le_add_right (Int.le_max_left _ _) _

theorem advance_le_add {tat : Option Int} {t b : Int} (ht : q.rate * t ≤ b) (h : ∀ x ∈ tat, x ≤ b) :
    q.advance tat t ≤ b + q.unit := by
  refine Int.add_le_add_right (Int.max_le.mpr ⟨?_, ht⟩) _
  cases tat with
  | none => exact ht
  | some x => exact h x rfl

/-- After a cell the arrival time is at most the burst ahead. -/
theorem advance_le {tat : Option Int} {t : Int} (hburst : 1 ≤ q.burst) (h : q.Admits tat t) :
    q.advance tat t ≤ q.rate * t + q.burst * q.unit := by
  have hcell : (q.burst : Int) * q.unit = (q.burst - 1) * q.unit + q.unit := by ring
  have hroom : (0 : Int) ≤ (q.burst - 1) * q.unit := Int.mul_nonneg (by omega) (by omega)
  rw [hcell, ← Int.add_assoc]
  exact advance_le_add (by omega) h

/-- An arrival time that has passed makes no difference. -/
theorem advance_passed {tat : Option Int} {t : Int} (h : ∀ x ∈ tat, x ≤ q.rate * t) :
    q.advance tat t = q.advance none t := by
  unfold advance
  cases tat with
  | none => rfl
  | some x =>
    rw [Option.getD_some, Option.getD_none, Int.max_self, Int.max_eq_right (h x rfl)]

theorem admits_passed {tat : Option Int} {t : Int} (hburst : 1 ≤ q.burst) (h : ∀ x ∈ tat, x ≤ q.rate * t) :
    q.Admits tat t := by
  intro x hx
  have hroom : (0 : Int) ≤ (q.burst - 1) * q.unit := Int.mul_nonneg (by omega) (by omega)
  have hpassed := h x hx
  omega

/-- Each cell from a time on moves the arrival time, which has been at least there. -/
theorem le_after (ts : List Int) (start : Int) :
    (ts.filter fun t => decide (start ≤ t)) = [] ∨
      ∃ x ∈ q.after ts, q.rate * start + (ts.filter fun t => decide (start ≤ t)).length * q.unit ≤ x := by
  induction ts using List.reverseRecOn with
  | nil => exact Or.inl rfl
  | append_singleton ts t ih =>
    rw [after_snoc, List.filter_append]
    by_cases hstart : start ≤ t
    · right
      refine ⟨_, rfl, ?_⟩
      have hlength : ((ts.filter fun t => decide (start ≤ t)) ++ [t].filter fun t => decide (start ≤ t)).length =
          (ts.filter fun t => decide (start ≤ t)).length + 1 := by
        rw [List.length_append, List.filter_cons_of_pos (by simpa using hstart)]
        rfl
      rw [hlength]
      have hcell : (((ts.filter fun t => decide (start ≤ t)).length + 1 : Nat) : Int) * q.unit =
          (ts.filter fun t => decide (start ≤ t)).length * q.unit + q.unit := by
        push_cast
        ring
      rw [hcell]
      rcases ih with hnone | ⟨x, hx, hle⟩
      · have hrate : (q.rate : Int) * start ≤ q.rate * t := Int.mul_le_mul_of_nonneg_left hstart (by omega)
        have hnext := q.rate_le_advance (q.after ts) t
        rw [hnone]
        simp only [List.length_nil, Nat.cast_zero, Int.zero_mul]
        omega
      · have hnext : x + q.unit ≤ q.advance (q.after ts) t := le_advance hx t
        omega
    · have hnot : ([t].filter fun t => decide (start ≤ t)) = [] := List.filter_eq_nil_iff.mpr (by simpa using hstart)
      rw [hnot, List.append_nil]
      rcases ih with hnone | ⟨x, hx, hle⟩
      · exact Or.inl hnone
      · have hnext : x + q.unit ≤ q.advance (q.after ts) t := le_advance hx t
        exact Or.inr ⟨_, rfl, by omega⟩

/-- In any window there are at most the burst and what the rate makes room for. -/
theorem Conforms.count_le {ts : List Int} (hburst : 1 ≤ q.burst) (h : q.Conforms ts) (start : Int) (width : Nat) :
    count ts start width * q.unit ≤ q.burst * q.unit + q.rate * width := by
  induction h with
  | nil => exact (Nat.zero_mul q.unit).trans_le (Nat.zero_le _)
  | @snoc ts t _ hadmits ih =>
    unfold count at ih ⊢
    rw [List.filter_append, List.length_append]
    by_cases hwindow : start ≤ t ∧ t ≤ start + width
    · rw [List.filter_cons_of_pos (by simpa using hwindow), List.filter_nil, List.length_singleton]
      have hle : (ts.filter fun t => decide (start ≤ t ∧ t ≤ start + width)).length ≤
          (ts.filter fun t => decide (start ≤ t)).length := by
        rw [← List.countP_eq_length_filter, ← List.countP_eq_length_filter]
        refine List.countP_mono_left fun u _ hu => ?_
        simp only [decide_eq_true_eq] at hu ⊢
        exact hu.1
      generalize (ts.filter fun t => decide (start ≤ t ∧ t ≤ start + width)).length = inside at hle ⊢
      have hcells : (inside + 1) * q.unit ≤ ((ts.filter fun t => decide (start ≤ t)).length + 1) * q.unit :=
        Nat.mul_le_mul_right _ (by omega)
      refine hcells.trans ?_
      rcases le_after ts start (q := q) with hnone | ⟨x, hx, hfrom⟩
      · have hunit : 1 * q.unit ≤ q.burst * q.unit := Nat.mul_le_mul_right _ hburst
        rw [hnone, List.length_nil]
        omega
      · have hroom := hadmits x hx
        have hrate : (q.rate : Int) * t ≤ q.rate * (start + width) := Int.mul_le_mul_of_nonneg_left hwindow.2 (by omega)
        zify
        have hcell : (q.burst : Int) * q.unit = (q.burst - 1) * q.unit + q.unit := by ring
        rw [Int.mul_add] at hrate
        rw [hcell, Int.add_mul, Int.one_mul]
        omega
    · have hnot : ([t].filter fun t => decide (start ≤ t ∧ t ≤ start + width)) = [] :=
        List.filter_eq_nil_iff.mpr (by simpa using hwindow)
      rw [hnot, List.length_nil, Nat.add_zero]
      exact ih

end Gcra
