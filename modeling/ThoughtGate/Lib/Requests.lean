import ThoughtGate.Lib.Table

/-!
# Maps of open requests

A map holds an entry for every open request, under a key that determines the request. It is kept by parties that do not act
at once: a request is open before its entry is put in (`Asked`), or its entry is put in before it is open (`Served`), and
the entry of an answer is taken out before the request counts as answered. `Asked` and `Served` say how the map stands to
the open requests in between, and the lemmas are the moves that a party makes.
-/

variable {I K V : Type} {key : I → K}

/-- The map has all open requests but the one that is about to be put in and the one whose answer was looked up. -/
structure Asked (key : I → K) (requests : List I) (map : Table K V) (pending : Option K) (lookedUp : Option I) : Prop where
  nodup : requests.Nodup
  mem_iff : ∀ k, k ∈ map ↔ ∃ id ∈ requests, key id = k ∧ pending ≠ some k ∧ lookedUp ≠ some id
  pending : ∀ k, pending = some k → ∃ id ∈ requests, key id = k ∧ lookedUp ≠ some id

namespace Asked

variable {requests : List I} {map : Table K V} {pending : Option K} {lookedUp : Option I} {id : I} {k : K}

theorem empty : Asked key [] (∅ : Table K V) none none where
  nodup := List.nodup_nil
  mem_iff k := by simp
  pending k h := by cases h

/-- A request is made. -/
theorem ask (hkey : Function.Injective key) (h : Asked key requests map none lookedUp) (hnew : id ∉ requests)
    (hfresh : lookedUp ≠ some id) : Asked key (id :: requests) map (some (key id)) lookedUp where
  nodup := List.nodup_cons.mpr ⟨hnew, h.nodup⟩
  mem_iff k := by
    rw [h.mem_iff k]
    constructor
    · rintro ⟨id', hid', rfl, -, hlooked⟩
      refine ⟨id', List.mem_cons_of_mem _ hid', rfl, ?_, hlooked⟩
      intro heq
      have hid : id = id' := hkey (Option.some.inj heq)
      exact hnew (hid ▸ hid')
    · rintro ⟨id', hid', rfl, hpending, hlooked⟩
      rcases List.mem_cons.mp hid' with rfl | hold
      · exact absurd rfl hpending
      · exact ⟨id', hold, rfl, by simp, hlooked⟩
  pending k hk := ⟨id, List.mem_cons_self, Option.some.inj hk, hfresh⟩

/-- The request is put into the map. -/
theorem insert [DecidableEq K] (h : Asked key requests map (some k) lookedUp) (v : V) :
    Asked key requests (map.insert k v) none lookedUp where
  nodup := h.nodup
  mem_iff k' := by
    rw [AList.mem_insert, h.mem_iff k']
    constructor
    · rintro (rfl | ⟨id', hid', hk, -, hlooked⟩)
      · obtain ⟨id', hid', hk, hlooked⟩ := h.pending k' rfl
        exact ⟨id', hid', hk, by simp, hlooked⟩
      · exact ⟨id', hid', hk, by simp, hlooked⟩
    · rintro ⟨id', hid', hk, -, hlooked⟩
      by_cases hsame : k' = k
      · exact Or.inl hsame
      · exact Or.inr ⟨id', hid', hk, fun heq => hsame (Option.some.inj heq).symm, hlooked⟩
  pending k' hk' := by cases hk'

/-- The request of an answer is taken out of the map. -/
theorem remove [DecidableEq K] (hkey : Function.Injective key) (h : Asked key requests map pending none)
    (hpending : pending ≠ some (key id)) : Asked key requests (map.erase (key id)) pending (some id) where
  nodup := h.nodup
  mem_iff k := by
    rw [AList.mem_erase, h.mem_iff k]
    constructor
    · rintro ⟨hne, id', hid', rfl, hnot, -⟩
      exact ⟨id', hid', rfl, hnot, fun heq => hne (congrArg key (Option.some.inj heq).symm)⟩
    · rintro ⟨id', hid', rfl, hnot, hlooked⟩
      exact ⟨fun heq => hlooked (congrArg some (hkey heq).symm), id', hid', rfl, hnot, by simp⟩
  pending k hk := by
    obtain ⟨id', hid', rfl, -⟩ := h.pending k hk
    refine ⟨id', hid', rfl, fun heq => ?_⟩
    rw [Option.some.inj heq] at hpending
    exact hpending hk

/-- The request counts as answered. -/
theorem answer [DecidableEq I] (h : Asked key requests map pending (some id)) :
    Asked key (requests.erase id) map pending none where
  nodup := h.nodup.erase id
  mem_iff k := by
    rw [h.mem_iff k]
    constructor
    · rintro ⟨id', hid', hk, hnot, hlooked⟩
      have hne : id' ≠ id := fun heq => hlooked (congrArg some heq.symm)
      exact ⟨id', (List.mem_erase_of_ne hne).mpr hid', hk, hnot, by simp⟩
    · rintro ⟨id', hid', hk, hnot, -⟩
      obtain ⟨hne, hmem⟩ := h.nodup.mem_erase_iff.mp hid'
      exact ⟨id', hmem, hk, hnot, fun heq => hne (Option.some.inj heq).symm⟩
  pending k hk := by
    obtain ⟨id', hid', hid, hlooked⟩ := h.pending k hk
    have hne : id' ≠ id := fun heq => hlooked (congrArg some heq.symm)
    exact ⟨id', (List.mem_erase_of_ne hne).mpr hid', hid, by simp⟩

/-- With nothing under way the map has the keys of the open requests. -/
theorem mem_iff_open (h : Asked key requests map none none) (k : K) : k ∈ map ↔ ∃ id ∈ requests, key id = k := by
  rw [h.mem_iff k]
  constructor
  · rintro ⟨id, hid, hk, -⟩
    exact ⟨id, hid, hk⟩
  · rintro ⟨id, hid, hk⟩
    exact ⟨id, hid, hk, by simp, by simp⟩

end Asked

/-- The map has all open requests, and the one that is being delivered. -/
structure Served (key : I → K) (requests : List I) (map : Table K V) (delivering : Option I) : Prop where
  nodup : requests.Nodup
  mem_iff : ∀ k, k ∈ map ↔ ∃ id, key id = k ∧ (id ∈ requests ∨ delivering = some id)

namespace Served

variable {requests : List I} {map : Table K V} {id : I}

theorem empty : Served key [] (∅ : Table K V) none where
  nodup := List.nodup_nil
  mem_iff k := by simp

/-- A request is put into the map. -/
theorem insert [DecidableEq K] (h : Served key requests map none) (v : V) :
    Served key requests (map.insert (key id) v) (some id) where
  nodup := h.nodup
  mem_iff k := by
    rw [AList.mem_insert, h.mem_iff k]
    constructor
    · rintro (rfl | ⟨id', hk, hid' | hnone⟩)
      · exact ⟨id, rfl, Or.inr rfl⟩
      · exact ⟨id', hk, Or.inl hid'⟩
      · cases hnone
    · rintro ⟨id', rfl, hid' | hsame⟩
      · exact Or.inr ⟨id', rfl, Or.inl hid'⟩
      · cases hsame
        exact Or.inl rfl

/-- The request is delivered. -/
theorem deliver (h : Served key requests map (some id)) (hnew : id ∉ requests) : Served key (id :: requests) map none where
  nodup := List.nodup_cons.mpr ⟨hnew, h.nodup⟩
  mem_iff k := by
    rw [h.mem_iff k]
    constructor
    · rintro ⟨id', hk, hid' | hsame⟩
      · exact ⟨id', hk, Or.inl (List.mem_cons_of_mem _ hid')⟩
      · cases hsame
        exact ⟨id, hk, Or.inl List.mem_cons_self⟩
    · rintro ⟨id', hk, hid' | hnone⟩
      · rcases List.mem_cons.mp hid' with rfl | hold
        · exact ⟨id', hk, Or.inr rfl⟩
        · exact ⟨id', hk, Or.inl hold⟩
      · cases hnone

/-- With nothing under way the map has the keys of the open requests. -/
theorem mem_iff_open (h : Served key requests map none) (k : K) : k ∈ map ↔ ∃ id ∈ requests, key id = k := by
  rw [h.mem_iff k]
  constructor
  · rintro ⟨id, hk, hid | hnone⟩
    · exact ⟨id, hid, hk⟩
    · cases hnone
  · rintro ⟨id, hid, hk⟩
    exact ⟨id, hk, Or.inl hid⟩

end Served
