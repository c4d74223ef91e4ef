import ThoughtGate.Lib.Machine
import Mathlib.Data.List.Perm.Basic
import Mathlib.Tactic.Common

/-!
# Buffered streams

A list of items is worked off with at most `cap` of them in flight (`buffer_unordered`): the items start in their turn
and finish in any order. What an item comes to is a function of the item and of what it meets with on its way.

However the items finish, the results are those of all items, each once (`Buffered.results_of_finished`), and a stream
whose buffer has room can always be worked off (`Buffered.exists_finished`).
-/

/-- The items that wait, those in flight, and the results so far. -/
structure Buffered (α β : Type) where
  waiting : List α
  inFlight : List α
  results : List β

namespace Buffered

variable {α β μ : Type}

/-- The next item starts, or one of those in flight finishes. -/
inductive Event (μ : Type) where
  | start
  | finish (i : Nat) (met : μ)

def step (cap : Nat) (f : μ → α → β) (s : Buffered α β) : Event μ → Option (Buffered α β)
  | .start =>
    match s.waiting with
    | [] => none
    | item :: rest =>
      if s.inFlight.length < cap then some { s with waiting := rest, inFlight := s.inFlight ++ [item] } else none
  | .finish i met =>
    match s.inFlight[i]? with
    | none => none
    | some item => some { s with inFlight := s.inFlight.eraseIdx i, results := s.results ++ [f met item] }

def machine (cap : Nat) (f : μ → α → β) (items : List α) : Machine (Buffered α β) (Event μ) where
  init := ⟨items, [], []⟩
  step := step cap f

/-- Every item that finishes meets with something of this kind. -/
def Event.Meets (ok : μ → Prop) : Event μ → Prop
  | .start => True
  | .finish _ met => ok met

/-- Nothing is left to be done. -/
def Finished (s : Buffered α β) : Prop := s.waiting = [] ∧ s.inFlight = []

instance (s : Buffered α β) : Decidable s.Finished :=
  decidable_of_iff (s.waiting.isEmpty = true ∧ s.inFlight.isEmpty = true) (by simp [Finished])

/-- The results are those of finished items, and these are the items that neither wait nor fly. -/
def Worked (f : μ → α → β) (ok : μ → Prop) (items : List α) (s : Buffered α β) : Prop :=
  ∃ done : List (μ × α), s.results = done.map (fun d => f d.1 d.2) ∧ (∀ d ∈ done, ok d.1) ∧
    (s.waiting ++ s.inFlight ++ done.map Prod.snd).Perm items

variable {cap : Nat} {f : μ → α → β} {ok : μ → Prop} {items : List α} {s s' : Buffered α β}

theorem Worked.start (h : Worked f ok items s) (hstep : (machine cap f items).step s .start = some s') :
    Worked f ok items s' := by
  change step cap f s .start = some s' at hstep
  obtain ⟨done, hresults, hok, hperm⟩ := h
  unfold step at hstep
  cases hwaiting : s.waiting with
  | nil => simp [hwaiting] at hstep
  | cons item rest =>
    simp only [hwaiting] at hstep
    split at hstep
    · cases hstep
      refine ⟨done, hresults, hok, List.Perm.trans ?_ hperm⟩
      rw [hwaiting]
      -- the item goes from the front of the queue to the end of those in flight
      have hmove : (rest ++ (s.inFlight ++ [item])).Perm (item :: rest ++ s.inFlight) := by
        rw [← List.append_assoc]
        exact List.perm_append_singleton item (rest ++ s.inFlight)
      exact hmove.append_right _
    · cases hstep

theorem Worked.finish (h : Worked f ok items s) {i : Nat} {met : μ} (hmet : ok met)
    (hstep : (machine cap f items).step s (.finish i met) = some s') : Worked f ok items s' := by
  change step cap f s (.finish i met) = some s' at hstep
  obtain ⟨done, hresults, hok, hperm⟩ := h
  unfold step at hstep
  cases hitem : s.inFlight[i]? with
  | none => simp [hitem] at hstep
  | some item =>
    simp only [hitem, Option.some.injEq] at hstep
    obtain ⟨hi, hget⟩ := List.getElem?_eq_some_iff.mp hitem
    refine ⟨done ++ [(met, item)], ?_, ?_, ?_⟩
    · rw [← hstep]
      simp [hresults]
    · intro d hd
      rcases List.mem_append.mp hd with hd | hd
      · exact hok d hd
      · rw [List.mem_singleton.mp hd]
        exact hmet
    · refine List.Perm.trans ?_ hperm
      rw [← hstep]
      have hflight : (item :: s.inFlight.eraseIdx i).Perm s.inFlight := hget ▸ List.getElem_cons_eraseIdx_perm hi
      calc (s.waiting ++ s.inFlight.eraseIdx i ++ (done ++ [(met, item)]).map Prod.snd)
          = s.waiting ++ (s.inFlight.eraseIdx i ++ done.map Prod.snd ++ [item]) := by simp
        _ |>.Perm (s.waiting ++ (item :: s.inFlight.eraseIdx i ++ done.map Prod.snd)) :=
            (List.perm_append_singleton item _).append_left _
        _ |>.Perm (s.waiting ++ (s.inFlight ++ done.map Prod.snd)) := (hflight.append_right _).append_left _
        _ = s.waiting ++ s.inFlight ++ done.map Prod.snd := (List.append_assoc ..).symm

/-- The invariant of every run. -/
theorem worked (h : (machine cap f items).ReachableWhen (fun _ e => e.Meets ok) s) : Worked f ok items s := by
  refine Machine.ReachableWhen.invariant (I := Worked f ok items) ?_ ?_ h
  · exact ⟨[], rfl, fun d hd => absurd hd List.not_mem_nil, by simp [machine]⟩
  · intro s e s' _ hs he hstep
    cases e with
    | start => exact hs.start hstep
    | finish i met => exact hs.finish he hstep

/-- In the end every item has come to one result. -/
theorem results_of_finished (h : (machine cap f items).ReachableWhen (fun _ e => e.Meets ok) s) (hs : s.Finished) :
    ∃ done : List (μ × α), s.results = done.map (fun d => f d.1 d.2) ∧ (∀ d ∈ done, ok d.1) ∧
      (done.map Prod.snd).Perm items := by
  obtain ⟨done, hresults, hok, hperm⟩ := worked h
  rw [hs.1, hs.2] at hperm
  exact ⟨done, hresults, hok, hperm⟩

/-- With room in the buffer a state can be worked off, whatever the items meet with. -/
theorem exists_finished (hcap : 0 < cap) {met : μ} (hmet : ok met) (s : Buffered α β) :
    ∃ s', (machine cap f items).LeadsWhen (fun _ e => e.Meets ok) s s' ∧ s'.Finished := by
  -- each start leaves one item less to wait, each finish one less in flight
  induction hn : 2 * s.waiting.length + s.inFlight.length using Nat.strongRecOn generalizing s with
  | ind n ih =>
    cases hflight : s.inFlight with
    | cons item rest =>
      have hstep : step cap f s (.finish 0 met) =
          some { s with inFlight := rest, results := s.results ++ [f met item] } := by
        simp [step, hflight]
      have hlt : 2 * s.waiting.length + rest.length < n := by
        rw [hflight, List.length_cons] at hn
        omega
      obtain ⟨s', hleads, hdone⟩ := ih _ hlt { s with inFlight := rest, results := s.results ++ [f met item] } rfl
      exact ⟨s', Relation.ReflTransGen.head ⟨.finish 0 met, hmet, hstep⟩ hleads, hdone⟩
    | nil =>
      cases hwaiting : s.waiting with
      | nil => exact ⟨s, Relation.ReflTransGen.refl, hwaiting, hflight⟩
      | cons item rest =>
        have hstep : step cap f s .start = some { s with waiting := rest, inFlight := [item] } := by
          simp [step, hwaiting, hflight, hcap]
        have hlt : 2 * rest.length + [item].length < n := by
          rw [hwaiting, hflight] at hn
          simp only [List.length_cons, List.length_nil] at hn ⊢
          omega
        obtain ⟨s', hleads, hdone⟩ := ih _ hlt { s with waiting := rest, inFlight := [item] } rfl
        exact ⟨s', Relation.ReflTransGen.head ⟨.start, trivial, hstep⟩ hleads, hdone⟩

end Buffered
