import ThoughtGate.Lib.Table

/-!
# Sweeps over the keys of a store

A sweep goes through a list of keys taken beforehand. Each round rewrites the value of its own key by a function
of that value, leaves the other keys alone, and counts the round when the value it found is hit (`PointSweep`).
Over distinct keys the whole sweep is then the same function at every listed key (`foldl_look_mem`,
`foldl_look_not_mem`) and it counts the values that are hit at the start (`foldl_count`).
-/

/-- One round of a sweep: `one acc k` looks at the key `k` of the store `acc.2`. -/
structure PointSweep {S K V : Type} (look : S → K → Option V) (rewrite : V → V) (hit : V → Bool)
    (one : Nat × S → K → Nat × S) : Prop where
  here : ∀ acc k, look (one acc k).2 k = (look acc.2 k).map rewrite
  away : ∀ acc k j, j ≠ k → look (one acc k).2 j = look acc.2 j
  counts : ∀ acc k, (one acc k).1 = acc.1 + if (look acc.2 k).any hit then 1 else 0

namespace PointSweep

variable {S K V : Type} {look : S → K → Option V} {rewrite : V → V} {hit : V → Bool}
  {one : Nat × S → K → Nat × S}

theorem foldl_look_not_mem (h : PointSweep look rewrite hit one) {ids : List K} {j : K} (hj : j ∉ ids)
    (acc : Nat × S) : look (ids.foldl one acc).2 j = look acc.2 j := by
  induction ids generalizing acc with
  | nil => rfl
  | cons k ids ih =>
    have hne : j ≠ k := List.ne_of_not_mem_cons hj
    have hrest : j ∉ ids := List.not_mem_of_not_mem_cons hj
    rw [List.foldl_cons, ih hrest, h.away acc k j hne]

theorem foldl_look_mem (h : PointSweep look rewrite hit one) {ids : List K} (hnodup : ids.Nodup) {j : K}
    (hj : j ∈ ids) (acc : Nat × S) : look (ids.foldl one acc).2 j = (look acc.2 j).map rewrite := by
  induction ids generalizing acc with
  | nil => cases hj
  | cons k ids ih =>
    obtain ⟨hfresh, hrest⟩ := List.nodup_cons.mp hnodup
    rw [List.foldl_cons]
    rcases List.mem_cons.mp hj with rfl | htail
    · rw [h.foldl_look_not_mem hfresh, h.here]
    · have hne : j ≠ k := by
        rintro rfl
        exact hfresh htail
      rw [ih hrest htail, h.away acc k j hne]

/-- The keys are distinct, so no round changes what a later one finds. -/
theorem foldl_count (h : PointSweep look rewrite hit one) {ids : List K} (hnodup : ids.Nodup) (acc : Nat × S) :
    (ids.foldl one acc).1 = acc.1 + ids.countP fun k => (look acc.2 k).any hit := by
  induction ids generalizing acc with
  | nil => rfl
  | cons k ids ih =>
    obtain ⟨hfresh, hrest⟩ := List.nodup_cons.mp hnodup
    have hfound : ids.countP (fun j => (look (one acc k).2 j).any hit) = ids.countP fun j => (look acc.2 j).any hit := by
      refine List.countP_congr fun j hj => ?_
      have hne : j ≠ k := by
        rintro rfl
        exact hfresh hj
      rw [h.away acc k j hne]
    rw [List.foldl_cons, ih hrest, h.counts, hfound, List.countP_cons]
    omega

end PointSweep

namespace Table

variable {K V : Type}

/-- A count over the entries is the total of a 0/1 weight. -/
theorem countP_entries (p : K → V → Bool) (t : Table K V) :
    t.entries.countP (fun e => p e.1 e.2) = total (fun k v => if p k v then 1 else 0) t := by
  unfold total
  induction t.entries with
  | nil => rfl
  | cons e es ih =>
    rw [List.countP_cons, List.map_cons, List.sum_cons, ih]
    exact Nat.add_comm _ _

/-- The total depends on the weights of the stored values only. -/
theorem total_congr {f g : K → V → Nat} {t : Table K V} (h : ∀ e ∈ t.entries, f e.1 e.2 = g e.1 e.2) :
    total f t = total g t := by
  unfold total
  rw [List.map_congr_left h]

end Table
