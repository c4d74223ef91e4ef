import ThoughtGate.Lib.Table
import Mathlib.Data.List.Nodup

/-!
# A secondary index kept beside a table

Every item of a table has an owner (`owner : I → Option K`; `none`: not stored), and an index lists the items of
each owner. `Listing` says that the index is what the table says, up to three exceptions that stand while an
update is under way: items stored and not yet listed (`missing`), items removed and still listed (`stale`), and
lists that are empty and not yet dropped (`emptied`). The rules say which exception each elementary update opens
or closes: `store` then `push` adds an item, `remove`, `retain` and `dropEmpty` take one out. `Exact` is the
listing without exceptions.
-/

namespace Index

variable {I K : Type} [DecidableEq I] [DecidableEq K]

/-- The list of a key; a missing list is empty. -/
def listed (index : Table K (List I)) (k : K) : List I := (index.lookup k).getD []

/-- Append an item to the list of a key. -/
def push (index : Table K (List I)) (k : K) (i : I) : Table K (List I) := index.insert k (listed index k ++ [i])

/-- Take an item out of the list of a key, if there is a list. -/
def retain (index : Table K (List I)) (k : K) (i : I) : Table K (List I) :=
  match index.lookup k with
  | none => index
  | some items => index.insert k (items.filter (· ≠ i))

/-- Drop the list of a key if it is empty. -/
def dropEmpty (index : Table K (List I)) (k : K) : Table K (List I) :=
  if index.lookup k = some [] then index.erase k else index

/-- The index lists what the table stores, up to the exceptions. -/
structure Listing (owner : I → Option K) (index : Table K (List I)) (missing : I → Prop) (stale : I → K → Prop)
    (emptied : K → Prop) : Prop where
  nodup : ∀ k, (listed index k).Nodup
  mem : ∀ k i, i ∈ listed index k ↔ (owner i = some k ∧ ¬ missing i) ∨ stale i k
  empty : ∀ k, index.lookup k = some [] → emptied k

/-- The index lists exactly what the table stores, each item once, and has no empty list. -/
def Exact (owner : I → Option K) (index : Table K (List I)) : Prop :=
  Listing owner index (fun _ => False) (fun _ _ => False) fun _ => False

variable {owner : I → Option K} {index : Table K (List I)} {missing missing' : I → Prop}
  {stale stale' : I → K → Prop} {emptied emptied' : K → Prop}

omit [DecidableEq I] in
theorem exact_empty : Exact (fun _ => none) (∅ : Table K (List I)) where
  nodup k := List.nodup_nil
  mem k i := by simp [listed]
  empty k h := by cases h

omit [DecidableEq I] in
/-- The exceptions may be described otherwise. -/
theorem Listing.congr (h : Listing owner index missing stale emptied)
    (hmissing : ∀ i, (owner i).isSome → (missing' i ↔ missing i)) (hstale : ∀ i k, stale' i k ↔ stale i k)
    (hempty : ∀ k, emptied k → emptied' k) : Listing owner index missing' stale' emptied' where
  nodup := h.nodup
  mem k i := by
    rw [h.mem k i, hstale i k]
    constructor
    · rintro (⟨hown, hnot⟩ | hst)
      · exact Or.inl ⟨hown, fun hm => hnot ((hmissing i (by simp [hown])).mp hm)⟩
      · exact Or.inr hst
    · rintro (⟨hown, hnot⟩ | hst)
      · exact Or.inl ⟨hown, fun hm => hnot ((hmissing i (by simp [hown])).mpr hm)⟩
      · exact Or.inr hst
  empty k hk := hempty k (h.empty k hk)

omit [DecidableEq I] in
theorem listed_insert (index : Table K (List I)) (j k : K) (items : List I) :
    listed (index.insert k items) j = if j = k then items else listed index j :=
  Table.getD_lookup_insert index j k items []

theorem listed_retain (index : Table K (List I)) (j k : K) (i : I) :
    listed (retain index k i) j = if j = k then (listed index k).filter (· ≠ i) else listed index j := by
  unfold retain
  split
  · rename_i hnone
    by_cases hj : j = k
    · subst hj
      simp [listed, hnone]
    · rw [if_neg hj]
  · rename_i items hsome
    rw [listed_insert]
    simp only [listed, hsome, Option.getD_some]

theorem dropEmpty_of_nil {k : K} (h : index.lookup k = some []) : dropEmpty index k = index.erase k := if_pos h

theorem dropEmpty_of_ne {k : K} (h : index.lookup k ≠ some []) : dropEmpty index k = index := if_neg h

theorem listed_dropEmpty (index : Table K (List I)) (j k : K) : listed (dropEmpty index k) j = listed index j := by
  by_cases hempty : index.lookup k = some []
  · rw [dropEmpty_of_nil hempty]
    exact Table.getD_lookup_erase (by rw [hempty]; rfl) j
  · rw [dropEmpty_of_ne hempty]

/-! ### Adding an item -/

/-- A new item is stored: it is missing until it is listed. -/
theorem Listing.store (h : Listing owner index missing stale emptied) {i : I} {k : K} (hnew : owner i = none)
    (hstale : ∀ k, ¬ stale i k) :
    Listing (Function.update owner i (some k)) index (fun j => j = i ∨ missing j) stale emptied where
  nodup := h.nodup
  mem k' j := by
    rw [h.mem k' j]
    by_cases hj : j = i
    · subst hj
      simp [hnew, hstale]
    · simp [hj]
  empty := h.empty

/-- A missing item is listed under its owner. -/
theorem Listing.push (h : Listing owner index missing stale emptied) {i : I} {k : K} (hown : owner i = some k)
    (hmissing : missing i) (hstale : ∀ k, ¬ stale i k) :
    Listing owner (push index k i) (fun j => missing j ∧ j ≠ i) stale fun j => emptied j ∧ j ≠ k := by
  have hnot : i ∉ listed index k := by
    rw [h.mem k i]
    rintro (⟨-, hm⟩ | hst)
    · exact hm hmissing
    · exact hstale k hst
  refine ⟨fun j => ?_, fun j i' => ?_, fun j hj => ?_⟩
  · rw [Index.push, listed_insert]
    split
    · refine List.Nodup.append (h.nodup k) (List.nodup_singleton i) ?_
      rw [List.disjoint_singleton]
      exact hnot
    · exact h.nodup j
  · rw [Index.push, listed_insert]
    by_cases hi : i' = i
    · subst hi
      split
      · rename_i hjk
        subst hjk
        simp [hown]
      · rename_i hjk
        rw [h.mem j i']
        simp [hown, hstale, Ne.symm hjk]
    · split
      · rename_i hjk
        subst hjk
        simp [h.mem j i', hi]
      · simp [h.mem j i', hi]
  · by_cases hjk : j = k
    · subst hjk
      rw [Index.push, AList.lookup_insert] at hj
      simp at hj
    · rw [Index.push, AList.lookup_insert_ne hjk] at hj
      exact ⟨h.empty j hj, hjk⟩

/-! ### Taking an item out -/

/-- A listed item is removed from the table: its list still has it. -/
theorem Listing.remove (h : Listing owner index missing stale emptied) {i : I} {k : K} (hown : owner i = some k)
    (hmissing : ¬ missing i) :
    Listing (Function.update owner i none) index missing (fun j k' => (j = i ∧ k' = k) ∨ stale j k') emptied where
  nodup := h.nodup
  mem k' j := by
    rw [h.mem k' j]
    by_cases hj : j = i
    · subst hj
      simp [hown, hmissing, eq_comm]
    · simp [hj]
  empty := h.empty

/-- An item that the table no longer has is taken out of a list, which may leave the list empty. -/
theorem Listing.retain (h : Listing owner index missing stale emptied) {i : I} {k : K} (hgone : owner i = none) :
    Listing owner (retain index k i) missing (fun j k' => stale j k' ∧ ¬ (j = i ∧ k' = k))
      fun j => emptied j ∨ (j = k ∧ (retain index k i).lookup k = some []) where
  nodup j := by
    rw [listed_retain]
    split
    · exact (h.nodup k).filter _
    · exact h.nodup j
  mem j i' := by
    rw [listed_retain]
    split
    · rename_i hjk
      subst hjk
      rw [List.mem_filter, h.mem j i']
      by_cases hi : i' = i
      · subst hi
        simp [hgone]
      · simp [hi]
    · rename_i hjk
      rw [h.mem j i']
      simp [hjk]
  empty j hj := by
    by_cases hjk : j = k
    · subst hjk
      exact Or.inr ⟨rfl, hj⟩
    · left
      apply h.empty j
      rw [← hj]
      unfold Index.retain
      split
      · rfl
      · rw [AList.lookup_insert_ne hjk]

/-- An empty list is dropped. -/
theorem Listing.dropEmpty (h : Listing owner index missing stale emptied) (k : K) :
    Listing owner (dropEmpty index k) missing stale fun j => emptied j ∧ j ≠ k where
  nodup j := by
    rw [listed_dropEmpty]
    exact h.nodup j
  mem j i := by
    rw [listed_dropEmpty]
    exact h.mem j i
  empty j hj := by
    by_cases hempty : index.lookup k = some []
    · rw [dropEmpty_of_nil hempty] at hj
      by_cases hjk : j = k
      · rw [hjk, AList.lookup_erase] at hj
        cases hj
      · rw [AList.lookup_erase_ne hjk] at hj
        exact ⟨h.empty j hj, hjk⟩
    · rw [dropEmpty_of_ne hempty] at hj
      refine ⟨h.empty j hj, ?_⟩
      rintro rfl
      exact hempty hj

end Index
