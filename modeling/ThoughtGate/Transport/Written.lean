import ThoughtGate.Transport.Relay

/-!
# What is read of a written value

A value that `serde_json` has written, as a derived `Deserialize` sees it (`Doc.ofValue`). Its members are found under
their names when no key comes twice (`structFields_written`), and a member that is a `Value` itself is held when it is not
nested too deeply (`value_ofValue`).
-/

namespace ThoughtGate

namespace Value

/-- At most so many levels are opened. -/
inductive Nested : Nat → Value → Prop
  | null (n : Nat) : Nested n .null
  | bool (n : Nat) (b : Bool) : Nested n (.bool b)
  | number (n : Nat) (m : Number) : Nested n (.number m)
  | string (n : Nat) (s : String) : Nested n (.string s)
  | array {n : Nat} {xs : List Value} : (∀ x ∈ xs, Nested n x) → Nested (n + 1) (.array xs)
  | object {n : Nat} {fields : List (String × Value)} : (∀ f ∈ fields, Nested n f.2) → Nested (n + 1) (.object fields)

theorem Nested.get {n : Nat} {v w : Value} {key : String} (hv : v.Nested (n + 1)) (h : v.get key = some w) : w.Nested n := by
  cases hv with
  | object hfields => exact hfields _ (mem_of_get h)
  | _ => cases h

theorem Nested.succ {n : Nat} {v : Value} (h : v.Nested n) : v.Nested (n + 1) := by
  induction h with
  | null n => exact .null _
  | bool n b => exact .bool _ b
  | number n m => exact .number _ m
  | string n s => exact .string _ s
  | array _ ih => exact .array ih
  | object _ ih => exact .object ih

theorem mapDoublesItems_eq_map (g : F64 → F64) (xs : List Value) : mapDoublesItems g xs = xs.map (Value.mapDoubles g) := by
  induction xs with
  | nil => rfl
  | cons x xs ih => rw [mapDoublesItems, ih, List.map_cons]

theorem Nested.mapDoubles {n : Nat} {v : Value} (g : F64 → F64) (h : v.Nested n) : (v.mapDoubles g).Nested n := by
  induction h with
  | null n => exact .null n
  | bool n b => exact .bool n b
  | number n m => cases m <;> exact .number n _
  | string n s => exact .string n s
  | array _ ih =>
    rw [Value.mapDoubles, mapDoublesItems_eq_map]
    refine .array ?_
    rintro y hy
    obtain ⟨x, hx, rfl⟩ := List.mem_map.mp hy
    exact ih x hx
  | object _ ih =>
    rw [Value.mapDoubles, mapDoublesFields_eq_map]
    refine .object ?_
    rintro g' hg'
    obtain ⟨f, hf, rfl⟩ := List.mem_map.mp hg'
    exact ih f hf

theorem Keyed.mapDoubles {v : Value} (g : F64 → F64) (h : v.Keyed) : (v.mapDoubles g).Keyed := by
  induction h with
  | number m => cases m <;> exact .number _
  | array _ ih =>
    rw [Value.mapDoubles, mapDoublesItems_eq_map]
    refine .array ?_
    rintro y hy
    obtain ⟨x, hx, rfl⟩ := List.mem_map.mp hy
    exact ih x hx
  | object hnodup _ ih =>
    rw [Value.mapDoubles, mapDoublesFields_eq_map]
    refine .object ?_ ?_
    · rw [List.map_map]
      exact hnodup
    · rintro g' hg'
      obtain ⟨f, hf, rfl⟩ := List.mem_map.mp hg'
      exact ih f hf
  | null => exact .null
  | bool b => exact .bool b
  | string s => exact .string s

/-- An object whose own keys are distinct. -/
def Record (v : Value) : Prop := ∃ fields, v = .object fields ∧ (fields.map (·.1)).Nodup

theorem get_nil (key : String) : (Value.object []).get key = none := rfl

end Value

namespace Doc

mutual

/-- The document of a written value. -/
def ofValue : Value → Doc
  | .null => .null
  | .bool b => .bool b
  | .number n => .number n
  | .string s => .string s
  | .array xs => .array (ofItems xs)
  | .object fields => .object (ofFields fields)

def ofItems : List Value → List Doc
  | [] => []
  | x :: xs => ofValue x :: ofItems xs

def ofFields : List (String × Value) → List (Option String × Doc)
  | [] => []
  | (key, v) :: fields => (some key, ofValue v) :: ofFields fields

end

theorem ofFields_eq_map (fields : List (String × Value)) :
    ofFields fields = fields.map fun f => (some f.1, ofValue f.2) := by
  induction fields with
  | nil => rfl
  | cons f fields ih => rw [ofFields, ih, List.map_cons]

/-! ### Values -/

theorem items_ofItems {n : Nat} {xs : List Value} (h : ∀ x ∈ xs, value n (ofValue x) = some x) :
    items n (ofItems xs) = some xs := by
  induction xs with
  | nil => rfl
  | cons x xs ih =>
    rw [ofItems, items, h x List.mem_cons_self, ih fun y hy => h y (List.mem_cons_of_mem _ hy)]

theorem fields_ofFields {n : Nat} {kept fs : List (String × Value)} (hnodup : ((kept ++ fs).map (·.1)).Nodup)
    (h : ∀ f ∈ fs, value n (ofValue f.2) = some f.2) : fields n kept (ofFields fs) = some (kept ++ fs) := by
  induction fs generalizing kept with
  | nil => rw [ofFields, fields, List.append_nil]
  | cons f fs ih =>
    obtain ⟨k, v⟩ := f
    have hv : value n (ofValue v) = some v := h _ List.mem_cons_self
    have hfresh : k ∉ kept.map (·.1) := by
      rw [List.map_append, List.map_cons, List.nodup_append] at hnodup
      exact fun hmem => hnodup.2.2 k hmem k List.mem_cons_self rfl
    have hkeep : Value.keep .last kept (k, v) = kept ++ [(k, v)] := Value.keep_fresh hfresh
    have hinsert : Value.insertField k v kept = kept ++ [(k, v)] := hkeep
    rw [ofFields, fields, hv]
    simp only [hinsert]
    rw [ih ?_ fun g hg => h g (List.mem_cons_of_mem _ hg)]
    · rw [List.append_assoc, List.singleton_append]
    · rw [List.append_assoc, List.singleton_append]
      exact hnodup

/-- A written value is held as it is by a reader with enough levels. -/
theorem value_ofValue {n : Nat} {v : Value} (hkeyed : v.Keyed) (hnested : v.Nested n) : value n (ofValue v) = some v := by
  induction hnested with
  | array _ ih =>
    cases hkeyed with
    | array hitems => rw [ofValue, value, items_ofItems fun x hx => ih x hx (hitems x hx), Option.map_some]
  | @object _ fs _ ih =>
    cases hkeyed with
    | object hnodup hfields =>
      have hall : fields _ [] (ofFields fs) = some ([] ++ fs) := fields_ofFields hnodup fun f hf => ih f hf (hfields f hf)
      rw [ofValue, value, hall, Option.map_some, List.nil_append]
  | _ => simp [ofValue, value]

/-! ### Members -/

theorem under_ofFields {fs : List (String × Value)} (hnodup : (fs.map (·.1)).Nodup) (name : String) :
    under name (ofFields fs) = ((Value.object fs).get name).toList.map ofValue := by
  induction fs with
  | nil => rfl
  | cons f fs ih =>
    obtain ⟨k, v⟩ := f
    rw [List.map_cons, List.nodup_cons] at hnodup
    rw [ofFields, under_cons, Value.get_cons, ih hnodup.2]
    by_cases hk : k = name
    · have hnone : (Value.object fs).get name = none := by
        cases hget : (Value.object fs).get name with
        | none => rfl
        | some w => exact absurd (List.mem_map.mpr ⟨_, Value.mem_of_get hget, hk.symm⟩) hnodup.1
      simp [hk, hnone]
    · simp [hk]

/-- The fields of a derived `Deserialize` are the members of what was written. -/
theorem structFields_written {v : Value} (h : v.Record) (names : List String) :
    (ofValue v).structFields names = some (names.map fun name => (v.get name).map ofValue) := by
  obtain ⟨fs, rfl, hnodup⟩ := h
  have hnamed : ((ofFields fs).all fun m => m.1.isSome) = true := by
    rw [ofFields_eq_map, List.all_map, List.all_eq_true]
    exact fun _ _ => rfl
  have hfield : ∀ name, fieldOf name (ofFields fs) = some (((Value.object fs).get name).map ofValue) := by
    intro name
    rw [fieldOf, under_ofFields hnodup]
    cases (Value.object fs).get name <;> rfl
  rw [ofValue, structFields, if_pos hnamed]
  simp only [hfield]
  induction names with
  | nil => rfl
  | cons name names ih =>
    rw [List.mapM_cons, ih]
    rfl

end Doc

end ThoughtGate
