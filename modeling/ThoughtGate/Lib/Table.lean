import Mathlib.Data.Finmap
import Mathlib.Algebra.Ring.Nat
import Mathlib.Algebra.BigOperators.Group.List.Basic
import Mathlib.Algebra.Order.BigOperators.Group.List

/-!
# Finite tables and their totals

A `Table K V` is a finite map with distinct keys (`AList`). `total f t` sums a weight over the entries:
a count is the total of a 0/1 weight. The lemmas say how a total moves when one key is inserted, replaced
or erased, which is all an accounting invariant needs: `total_insert_new`, `total_insert_old` and
`total_erase`.
-/

/-- A finite map from `K` to `V`. -/
abbrev Table (K V : Type) := AList (fun _ : K => V)

namespace Table

variable {K V : Type}

/-- The sum of `f` over the entries of a table. -/
def total (f : K → V → Nat) (t : Table K V) : Nat := (t.entries.map fun e => f e.1 e.2).sum

@[simp] theorem total_empty (f : K → V → Nat) : total f (∅ : Table K V) = 0 := rfl

theorem total_eq_zero {f : K → V → Nat} {t : Table K V} (h : ∀ e ∈ t.entries, f e.1 e.2 = 0) :
    total f t = 0 := by
  unfold total
  rw [List.sum_eq_zero]
  intro x hx
  obtain ⟨e, he, rfl⟩ := List.mem_map.mp hx
  exact h e he

theorem total_le_mul {f g : K → V → Nat} {t : Table K V} {c : Nat}
    (h : ∀ e ∈ t.entries, f e.1 e.2 ≤ g e.1 e.2 * c) : total f t ≤ total g t * c := by
  unfold total
  revert h
  induction t.entries with
  | nil => intro _; simp
  | cons e es ih =>
    intro h
    have h1 := h e (by simp)
    have h2 := ih fun e' he' => h e' (by simp [he'])
    simp only [List.map_cons, List.sum_cons, Nat.add_mul]
    omega

theorem total_mono {f g : K → V → Nat} {t : Table K V} (h : ∀ k v, f k v ≤ g k v) : total f t ≤ total g t := by
  have hmul : total f t ≤ total g t * 1 := total_le_mul fun e _ => by simpa using h e.1 e.2
  simpa using hmul

/-- A table without keys is empty. -/
theorem eq_empty {t : Table K V} (h : ∀ k, k ∉ t) : t = ∅ := by
  apply AList.ext
  apply List.eq_nil_iff_forall_not_mem.mpr
  intro e he
  exact h e.1 (List.mem_keys_of_mem he)

variable [DecidableEq K]

theorem total_kerase (f : K → V → Nat) {l : List (Sigma fun _ : K => V)} (hl : l.NodupKeys) {k : K} {v : V}
    (h : (⟨k, v⟩ : Sigma fun _ : K => V) ∈ l) :
    (l.map fun e => f e.1 e.2).sum = f k v + ((List.kerase k l).map fun e => f e.1 e.2).sum := by
  induction l with
  | nil => simp at h
  | cons e es ih =>
    obtain ⟨hnot, hes⟩ := List.nodupKeys_cons.mp hl
    rcases List.mem_cons.mp h with rfl | hmem
    · simp
    · have hne : k ≠ e.1 := by
        rintro rfl
        exact hnot (List.mem_keys_of_mem (s := ⟨e.1, v⟩) hmem)
      rw [List.kerase_cons_ne hne]
      simp only [List.map_cons, List.sum_cons]
      have := ih hes hmem
      omega

/-- Taking a key out takes its weight out. -/
theorem total_erase (f : K → V → Nat) {t : Table K V} {k : K} {v : V} (h : t.lookup k = some v) :
    total f t = f k v + total f (t.erase k) :=
  total_kerase f t.nodupKeys (AList.mem_lookup_iff.mp h)

theorem total_erase_of_none (f : K → V → Nat) {t : Table K V} {k : K} (h : t.lookup k = none) :
    total f (t.erase k) = total f t := by
  have hk : k ∉ t := AList.lookup_eq_none.mp h
  have hkeys : k ∉ t.entries.keys := hk
  simp only [total, AList.erase, List.kerase_of_notMem_keys hkeys]

theorem total_insert (f : K → V → Nat) (t : Table K V) (k : K) (v : V) :
    total f (t.insert k v) = f k v + total f (t.erase k) := by
  simp [total, AList.insert, AList.erase, List.kinsert]

/-- A new key adds its weight. -/
theorem total_insert_new (f : K → V → Nat) {t : Table K V} {k : K} (v : V) (h : t.lookup k = none) :
    total f (t.insert k v) = f k v + total f t := by
  rw [total_insert, total_erase_of_none f h]

/-- Replacing a value swaps the weights. -/
theorem total_insert_old (f : K → V → Nat) {t : Table K V} {k : K} {v : V} (v' : V)
    (h : t.lookup k = some v) : total f (t.insert k v') + f k v = total f t + f k v' := by
  rw [total_insert, total_erase f h]
  omega

theorem le_total (f : K → V → Nat) {t : Table K V} {k : K} {v : V} (h : t.lookup k = some v) :
    f k v ≤ total f t := by
  rw [total_erase f h]
  omega

/-- Two different keys weigh together at most the total. -/
theorem add_le_total (f : K → V → Nat) {t : Table K V} {j k : K} {u v : V} (hne : j ≠ k)
    (hj : t.lookup j = some u) (hk : t.lookup k = some v) : f j u + f k v ≤ total f t := by
  rw [total_erase f hj]
  have hk' : (t.erase j).lookup k = some v := by rw [AList.lookup_erase_ne hne.symm, hk]
  have := le_total f hk'
  omega

theorem mem_entries_iff {t : Table K V} {e : Sigma fun _ : K => V} :
    e ∈ t.entries ↔ t.lookup e.1 = some e.2 :=
  AList.mem_lookup_iff.symm

/-- Reading with a default after a write. -/
theorem getD_lookup_insert (t : Table K V) (j k : K) (v d : V) :
    ((t.insert k v).lookup j).getD d = if j = k then v else (t.lookup j).getD d := by
  split
  · rename_i h
    subst h
    simp
  · rename_i h
    rw [AList.lookup_insert_ne h]

/-- Reading with a default does not see that an entry of the default is removed. -/
theorem getD_lookup_erase {t : Table K V} {k : K} {d : V} (h : (t.lookup k).getD d = d) (j : K) :
    ((t.erase k).lookup j).getD d = (t.lookup j).getD d := by
  by_cases hj : j = k
  · subst hj
    rw [AList.lookup_erase, h]
    rfl
  · rw [AList.lookup_erase_ne hj]

/-- The entries that satisfy the test. -/
def retain (p : K → V → Bool) (t : Table K V) : Table K V where
  entries := t.entries.filter fun e => p e.1 e.2
  nodupKeys := t.nodupKeys.sublist List.filter_sublist

theorem lookup_retain (p : K → V → Bool) (t : Table K V) (k : K) :
    (t.retain p).lookup k = (t.lookup k).filter (p k) := by
  apply Option.ext
  intro v
  have hmem : v ∈ (t.retain p).lookup k ↔ (⟨k, v⟩ : Sigma fun _ : K => V) ∈ t.entries ∧ p k v = true :=
    AList.mem_lookup_iff.trans List.mem_filter
  rw [Option.mem_def] at hmem
  rw [hmem, ← AList.mem_lookup_iff, Option.filter_eq_some_iff]
  rfl

omit [DecidableEq K] in
theorem length_retain_le (p : K → V → Bool) (t : Table K V) : (t.retain p).entries.length ≤ t.entries.length :=
  List.length_filter_le _ _

/-- Writing over an entry adds none. -/
theorem length_insert {t : Table K V} {k : K} {v : V} (h : t.lookup k = some v) (v' : V) :
    (t.insert k v').entries.length = t.entries.length := by
  have hold := total_insert_old (fun _ _ => 1) v' h
  simp only [total, List.map_const', List.sum_replicate_nat, Nat.mul_one] at hold
  omega

theorem length_insert_new {t : Table K V} {k : K} (h : t.lookup k = none) (v : V) :
    (t.insert k v).entries.length = t.entries.length + 1 := by
  have hnew := total_insert_new (fun _ _ => 1) v h
  simp only [total, List.map_const', List.sum_replicate_nat, Nat.mul_one] at hnew
  omega

/-- A property of every stored value. -/
def All (P : K → V → Prop) (t : Table K V) : Prop := ∀ k v, t.lookup k = some v → P k v

theorem All.empty (P : K → V → Prop) : All P (∅ : Table K V) := by
  intro k v h
  simp at h

theorem All.insert {P : K → V → Prop} {t : Table K V} (ht : All P t) {k : K} {v : V} (h : P k v) :
    All P (t.insert k v) := by
  intro j u hj
  by_cases hjk : j = k
  · subst hjk
    rw [AList.lookup_insert] at hj
    cases hj
    exact h
  · rw [AList.lookup_insert_ne hjk] at hj
    exact ht j u hj

theorem All.erase {P : K → V → Prop} {t : Table K V} (ht : All P t) (k : K) : All P (t.erase k) := by
  intro j u hj
  by_cases hjk : j = k
  · subst hjk
    rw [AList.lookup_erase] at hj
    cases hj
  · rw [AList.lookup_erase_ne hjk] at hj
    exact ht j u hj

theorem All.total_le {f g : K → V → Nat} {t : Table K V} (ht : All (fun k v => f k v ≤ g k v) t) :
    total f t ≤ total g t := by
  have hmul : total f t ≤ total g t * 1 := by
    refine total_le_mul fun e he => ?_
    rw [Nat.mul_one]
    exact ht e.1 e.2 (mem_entries_iff.mp he)
  rwa [Nat.mul_one] at hmul

theorem All.mono {P Q : K → V → Prop} {t : Table K V} (ht : All P t) (h : ∀ k v, P k v → Q k v) : All Q t :=
  fun k v hkv => h k v (ht k v hkv)

end Table
