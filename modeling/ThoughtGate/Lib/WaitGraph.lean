import Mathlib.Data.Set.Finite.Lemmas

/-!
# Who waits for whom

Threads hold locks in shared or exclusive mode and may wait for one more. `Deadlocked S` is a nonempty set of
threads each of which waits for a lock that another one of the set holds. A finite set cannot be deadlocked
when the waiting threads carry ranks that grow along every wait (`not_deadlocked_of_rank`): the usual order on
the locks is such a rank, and only the waits whose holder itself waits have to respect it.
-/

namespace WaitGraph

/-- Shared (reader) or exclusive (writer). -/
inductive Mode where
  | read
  | write
deriving DecidableEq

/-- Two grants of one lock exclude each other unless both are shared. -/
def Mode.conflicts : Mode → Mode → Bool
  | .read, .read => false
  | _, _ => true

variable {T Lock : Type} (holds : T → Lock → Mode → Prop) (wants : T → Option (Lock × Mode))

/-- `t` waits for a lock that the other thread `u` holds. -/
def WaitsFor (t u : T) : Prop :=
  t ≠ u ∧ ∃ l m m', wants t = some (l, m) ∧ holds u l m' ∧ m.conflicts m' = true

/-- Every thread of the set waits for another one of it. -/
def Deadlocked (S : Set T) : Prop :=
  S.Nonempty ∧ ∀ t ∈ S, ∃ u ∈ S, WaitsFor holds wants t u

variable {holds wants}

theorem WaitsFor.waiting {t u : T} (h : WaitsFor holds wants t u) : (wants t).isSome := by
  obtain ⟨_, l, m, _, hw, _⟩ := h
  simp [hw]

/-- Ranks that grow along the waits on waiting holders exclude a deadlock. -/
theorem not_deadlocked_of_rank {S : Set T} (hfin : S.Finite) (rank : T → Nat)
    (hrank : ∀ t u, WaitsFor holds wants t u → (wants u).isSome → rank t < rank u) :
    ¬ Deadlocked holds wants S := by
  rintro ⟨hne, hwait⟩
  obtain ⟨t, ht, hmax⟩ := Set.exists_max_image S rank hfin hne
  obtain ⟨u, hu, htu⟩ := hwait t ht
  obtain ⟨w, _, huw⟩ := hwait u hu
  have hlt := hrank t u htu huw.waiting
  have hle := hmax u hu
  omega

end WaitGraph
