import Mathlib.Logic.Relation

/-!
# Machines and their runs

A `Machine` has one initial state and a partial step function: `step s l = some s'` says that the action `l`
is possible in `s` and leads to `s'`. `ReachableWhen ok` are the states reached by runs all of whose steps
satisfy `ok` (a condition on the state before the step and the action); `Reachable` puts no condition.
The rules: an invariant is proved from the initial state and one step (`ReachableWhen.invariant`), and a
concrete run is checked by evaluation (`reachable_of_exec`, `RunTo`).
-/

/-- A state machine with a deterministic effect for every action. -/
structure Machine (S L : Type) where
  init : S
  step : S → L → Option S

namespace Machine

variable {S L : Type} (A : Machine S L)

/-- The states of the runs whose steps all satisfy `ok`. -/
inductive ReachableWhen (ok : S → L → Prop) : S → Prop
  | init : ReachableWhen ok A.init
  | step {s s' : S} {l : L} : ReachableWhen ok s → ok s l → A.step s l = some s' → ReachableWhen ok s'

/-- The states of all runs. -/
def Reachable : S → Prop := A.ReachableWhen fun _ _ => True

/-- `s'` is reached from `s` in zero or more steps. -/
def Leads : S → S → Prop := Relation.ReflTransGen fun s s' => ∃ l, A.step s l = some s'

/-- `s'` is reached from `s` by steps that all satisfy `ok`. -/
def LeadsWhen (ok : S → L → Prop) : S → S → Prop :=
  Relation.ReflTransGen fun s s' => ∃ l, ok s l ∧ A.step s l = some s'

/-- Run a list of actions; `none` when one of them is not possible. -/
def exec : S → List L → Option S
  | s, [] => some s
  | s, l :: ls => (A.step s l).bind fun s' => exec s' ls

/-- Run a list of actions as long as a check on the state and the action passes. -/
def execWhen (check : S → L → Bool) : S → List L → Option S
  | s, [] => some s
  | s, l :: ls => if check s l then (A.step s l).bind fun s' => execWhen check s' ls else none

variable {A}

theorem Leads.tail {s s' s'' : S} {l : L} (h : A.Leads s s') (hl : A.step s' l = some s'') : A.Leads s s'' :=
  Relation.ReflTransGen.tail h ⟨l, hl⟩

theorem Reachable.step {s s' : S} {l : L} (h : A.Reachable s) (hl : A.step s l = some s') : A.Reachable s' :=
  ReachableWhen.step h trivial hl

theorem ReachableWhen.reachable {ok : S → L → Prop} {s : S} (h : A.ReachableWhen ok s) : A.Reachable s := by
  induction h with
  | init => exact .init
  | step _ _ hl ih => exact ih.step hl

theorem ReachableWhen.mono {ok ok' : S → L → Prop} (hok : ∀ s l, ok s l → ok' s l) {s : S}
    (h : A.ReachableWhen ok s) : A.ReachableWhen ok' s := by
  induction h with
  | init => exact .init
  | step _ hl hstep ih => exact .step ih (hok _ _ hl) hstep

/-- The invariant rule; the step may use that its state is reached. -/
theorem ReachableWhen.invariant {ok : S → L → Prop} {I : S → Prop} (hinit : I A.init)
    (hstep : ∀ s l s', A.ReachableWhen ok s → I s → ok s l → A.step s l = some s' → I s') {s : S}
    (h : A.ReachableWhen ok s) : I s := by
  induction h with
  | init => exact hinit
  | step hs hok hl ih => exact hstep _ _ _ hs ih hok hl

theorem Reachable.invariant {I : S → Prop} (hinit : I A.init)
    (hstep : ∀ s l s', I s → A.step s l = some s' → I s') {s : S} (h : A.Reachable s) : I s :=
  ReachableWhen.invariant hinit (fun s l s' _ hI _ hl => hstep s l s' hI hl) h

theorem Reachable.leads {s s' : S} (h : A.Reachable s) (hl : A.Leads s s') : A.Reachable s' := by
  induction hl with
  | refl => exact h
  | tail _ hs ih =>
    obtain ⟨l, hl⟩ := hs
    exact ih.step hl

theorem LeadsWhen.leads {ok : S → L → Prop} {s s' : S} (h : A.LeadsWhen ok s s') : A.Leads s s' := by
  induction h with
  | refl => exact Relation.ReflTransGen.refl
  | tail _ hs ih =>
    obtain ⟨l, _, hl⟩ := hs
    exact ih.tail hl

theorem Leads.leadsWhen {ok : S → L → Prop} {s s' : S} (hok : ∀ s l, ok s l) (h : A.Leads s s') :
    A.LeadsWhen ok s s' := by
  induction h with
  | refl => exact Relation.ReflTransGen.refl
  | tail _ hs ih =>
    obtain ⟨l, hl⟩ := hs
    exact Relation.ReflTransGen.tail ih ⟨l, hok _ _, hl⟩

theorem ReachableWhen.leadsWhen {ok : S → L → Prop} {s s' : S} (h : A.ReachableWhen ok s)
    (hl : A.LeadsWhen ok s s') : A.ReachableWhen ok s' := by
  induction hl with
  | refl => exact h
  | tail _ hs ih =>
    obtain ⟨l, hok, hl⟩ := hs
    exact .step ih hok hl

/-- The invariant rule from a state on. -/
theorem Leads.invariant {I : S → Prop} {s s' : S} (hs : I s)
    (hstep : ∀ t l t', A.Leads s t → I t → A.step t l = some t' → I t') (h : A.Leads s s') : I s' := by
  induction h with
  | refl => exact hs
  | tail hlead ht ih =>
    obtain ⟨l, hl⟩ := ht
    exact hstep _ _ _ hlead ih hl

/-- The invariant rule from a state on, along steps that satisfy `ok`. -/
theorem LeadsWhen.invariant {ok : S → L → Prop} {I : S → Prop} {s s' : S} (hs : I s)
    (hstep : ∀ t l t', I t → ok t l → A.step t l = some t' → I t') (h : A.LeadsWhen ok s s') : I s' := by
  induction h with
  | refl => exact hs
  | tail _ ht ih =>
    obtain ⟨l, hok, hl⟩ := ht
    exact hstep _ _ _ ih hok hl

theorem leads_of_exec {s s' : S} {ls : List L} (h : A.exec s ls = some s') : A.Leads s s' := by
  induction ls generalizing s with
  | nil =>
    cases h
    exact Relation.ReflTransGen.refl
  | cons l ls ih =>
    rw [exec, Option.bind_eq_some_iff] at h
    obtain ⟨t, ht, hrest⟩ := h
    exact Relation.ReflTransGen.head ⟨l, ht⟩ (ih hrest)

/-- A run found by evaluation reaches its last state. -/
theorem reachable_of_exec {s : S} {ls : List L} (h : A.exec A.init ls = some s) : A.Reachable s :=
  Reachable.leads .init (leads_of_exec h)

/-- A run whose last state passes a test, found by evaluation. -/
theorem exists_reachable_of_exec {ls : List L} {test : S → Bool} (h : (A.exec A.init ls).any test = true) :
    ∃ s, A.Reachable s ∧ test s = true := by
  obtain ⟨s, hs, htest⟩ := (Option.any_eq_true ..).mp h
  exact ⟨s, reachable_of_exec hs, htest⟩

theorem leadsWhen_of_execWhen {check : S → L → Bool} {s s' : S} {ls : List L}
    (h : A.execWhen check s ls = some s') : A.LeadsWhen (fun s l => check s l = true) s s' := by
  induction ls generalizing s with
  | nil =>
    cases h
    exact Relation.ReflTransGen.refl
  | cons l ls ih =>
    rw [execWhen] at h
    split at h
    · rename_i hok
      obtain ⟨t, ht, hrest⟩ := Option.bind_eq_some_iff.mp h
      exact Relation.ReflTransGen.head ⟨l, hok, ht⟩ (ih hrest)
    · cases h

theorem exists_reachableWhen_of_execWhen {check : S → L → Bool} {ls : List L} {test : S → Bool}
    (h : (A.execWhen check A.init ls).any test = true) :
    ∃ s, A.ReachableWhen (fun s l => check s l = true) s ∧ test s = true := by
  obtain ⟨s, hs, htest⟩ := (Option.any_eq_true ..).mp h
  exact ⟨s, ReachableWhen.leadsWhen .init (leadsWhen_of_execWhen hs), htest⟩

/-- A run that was found by evaluation: all its steps pass a check, and its last state passes a test. -/
structure RunTo (A : Machine S L) (check : S → L → Bool) (test : S → Bool) where
  actions : List L
  passes : (A.execWhen check A.init actions).any test = true

theorem RunTo.exists_reachableWhen {check : S → L → Bool} {test : S → Bool} (r : A.RunTo check test) :
    ∃ s, A.ReachableWhen (fun s l => check s l = true) s ∧ test s = true :=
  exists_reachableWhen_of_execWhen r.passes

theorem RunTo.exists_reachable {check : S → L → Bool} {test : S → Bool} (r : A.RunTo check test) :
    ∃ s, A.Reachable s ∧ test s = true := by
  obtain ⟨s, hs, htest⟩ := r.exists_reachableWhen
  exact ⟨s, hs.reachable, htest⟩

theorem exists_leadsWhen_of_execWhen {check : S → L → Bool} {ls ls' : List L} {test test' : S → Bool}
    (h : ((A.execWhen check A.init ls).any fun s => test s && (A.execWhen check s ls').any test') = true) :
    ∃ s s', A.ReachableWhen (fun s l => check s l = true) s ∧ test s = true ∧
      A.LeadsWhen (fun s l => check s l = true) s s' ∧ test' s' = true := by
  obtain ⟨s, hs, hboth⟩ := (Option.any_eq_true ..).mp h
  obtain ⟨htest, hrest⟩ := Bool.and_eq_true_iff.mp hboth
  obtain ⟨s', hs', htest'⟩ := (Option.any_eq_true ..).mp hrest
  exact ⟨s, s', ReachableWhen.leadsWhen .init (leadsWhen_of_execWhen hs), htest, leadsWhen_of_execWhen hs', htest'⟩

end Machine
