import ThoughtGate.Base.Json

/-!
# Documents

A text of JSON may have a key several times in one object, and readers differ in which of the members they keep
(`KeyRule`): `serde_json` keeps the last one, others the first. A document is a `Value` with all the members of the text;
`readBy` is what a reader makes of it. A value whose keys are distinct everywhere (`Keyed`) is read as it is.
-/

namespace ThoughtGate

namespace Value

/-! ### Distinct keys -/

/-- Every object has distinct keys. -/
inductive Keyed : Value → Prop
  | null : Keyed .null
  | bool (b : Bool) : Keyed (.bool b)
  | number (n : Number) : Keyed (.number n)
  | string (s : String) : Keyed (.string s)
  | array {xs : List Value} : (∀ x ∈ xs, Keyed x) → Keyed (.array xs)
  | object {fields : List (String × Value)} : (fields.map (·.1)).Nodup → (∀ f ∈ fields, Keyed f.2) →
      Keyed (.object fields)

theorem mem_of_get {fields : List (String × Value)} {key : String} {v : Value}
    (h : (Value.object fields).get key = some v) : (key, v) ∈ fields := by
  obtain ⟨f, hf, rfl⟩ := Option.map_eq_some_iff.mp h
  have hkey : f.1 = key := by simpa using List.find?_some hf
  rw [← hkey]
  exact List.mem_of_find?_eq_some hf

theorem Keyed.get {v w : Value} {key : String} (hv : v.Keyed) (h : v.get key = some w) : w.Keyed := by
  cases hv with
  | object _ hfields => exact hfields _ (mem_of_get h)
  | _ => cases h

/-- With distinct keys, a member is found under its key. -/
theorem get_of_mem {fields : List (String × Value)} (hnodup : (fields.map (·.1)).Nodup) {key : String} {v : Value}
    (h : (key, v) ∈ fields) : (Value.object fields).get key = some v := by
  induction fields with
  | nil => cases h
  | cons f fields ih =>
    obtain ⟨hfresh, hrest⟩ := List.nodup_cons.mp hnodup
    rcases List.mem_cons.mp h with rfl | htail
    · simp [Value.get]
    · have hne : (f.1 == key) = false := by
        rw [beq_eq_false_iff_ne]
        rintro rfl
        exact hfresh (List.mem_map.mpr ⟨_, htail, rfl⟩)
      have hget := ih hrest htail
      simp only [Value.get, List.find?_cons, hne] at hget ⊢
      exact hget

theorem mem_fields_iff {fields : List (String × Value)} (hnodup : (fields.map (·.1)).Nodup) {key : String} {v : Value} :
    (key, v) ∈ fields ↔ (Value.object fields).get key = some v := ⟨get_of_mem hnodup, mem_of_get⟩

theorem mem_insertField {key : String} {v : Value} {fields : List (String × Value)} {f : String × Value}
    (h : f ∈ insertField key v fields) : f = (key, v) ∨ f ∈ fields := by
  induction fields with
  | nil => exact Or.inl (List.mem_singleton.mp h)
  | cons g fields ih =>
    rw [insertField] at h
    split at h
    · next hkey =>
      rcases List.mem_cons.mp h with rfl | htail
      · exact Or.inl (by rw [beq_iff_eq.mp hkey])
      · exact Or.inr (List.mem_cons_of_mem _ htail)
    · rcases List.mem_cons.mp h with rfl | htail
      · exact Or.inr List.mem_cons_self
      · exact (ih htail).imp_right (List.mem_cons_of_mem _)

theorem insertField_nodup {fields : List (String × Value)} (hnodup : (fields.map (·.1)).Nodup) (key : String)
    (v : Value) : ((insertField key v fields).map (·.1)).Nodup := by
  induction fields with
  | nil => exact List.nodup_singleton key
  | cons f fields ih =>
    obtain ⟨hfresh, hrest⟩ := List.nodup_cons.mp hnodup
    by_cases hkey : f.1 = key
    · rw [insertField, if_pos (beq_iff_eq.mpr hkey)]
      exact hnodup
    · rw [insertField, if_neg (fun h => hkey (beq_iff_eq.mp h))]
      refine List.nodup_cons.mpr ⟨fun hmem => ?_, ih hrest⟩
      obtain ⟨g, hg, heq⟩ := List.mem_map.mp hmem
      rcases mem_insertField hg with rfl | hold
      · exact hkey heq.symm
      · exact hfresh (List.mem_map.mpr ⟨g, hold, heq⟩)

theorem Keyed.insertField {fields : List (String × Value)} (h : (Value.object fields).Keyed) (key : String) {v : Value}
    (hv : v.Keyed) : (Value.object (insertField key v fields)).Keyed := by
  cases h with
  | object hnodup hfields =>
    refine Keyed.object (insertField_nodup hnodup key v) fun f hf => ?_
    rcases mem_insertField hf with rfl | hold
    · exact hv
    · exact hfields f hold

theorem Keyed.strings (xs : List String) : (Value.array (xs.map .string)).Keyed := by
  refine Keyed.array fun x hx => ?_
  obtain ⟨s, -, rfl⟩ := List.mem_map.mp hx
  exact Keyed.string s

theorem Keyed.emptyObject : Value.emptyObject.Keyed := Keyed.object List.nodup_nil fun _ h => by cases h

theorem Keyed.cons {fields : List (String × Value)} {key : String} {v : Value} (hfresh : key ∉ fields.map (·.1))
    (hv : v.Keyed) (h : (Value.object fields).Keyed) : (Value.object ((key, v) :: fields)).Keyed := by
  cases h with
  | object hnodup hfields =>
    refine Keyed.object (List.nodup_cons.mpr ⟨hfresh, hnodup⟩) fun f hf => ?_
    rcases List.mem_cons.mp hf with rfl | hold
    · exact hv
    · exact hfields f hold

theorem Keyed.removeField {fields : List (String × Value)} (h : (Value.object fields).Keyed) (key : String) :
    (Value.object (removeField key fields)).Keyed := by
  cases h with
  | object hnodup hfields =>
    exact Keyed.object ((List.filter_sublist.map _).nodup hnodup) fun f hf => hfields f (List.mem_of_mem_filter hf)

theorem Keyed.members {v : Value} {fields : List (String × Value)} (hv : v.Keyed) (h : v.asObject = some fields) :
    (Value.object fields).Keyed := by
  cases v with
  | object members =>
    cases h
    exact hv
  | _ => cases h

/-! ### Changes of a member -/

theorem get_removeField_self (key : String) (fields : List (String × Value)) :
    (Value.object (removeField key fields)).get key = none := by
  rw [get, removeField]
  cases hfind : (fields.filter fun f => !(f.1 == key)).find? (·.1 == key) with
  | none => rfl
  | some f =>
    have hkey := List.find?_some hfind
    have hkept := (List.mem_filter.mp (List.mem_of_find?_eq_some hfind)).2
    rw [hkey] at hkept
    cases hkept

theorem insertField_over (key : String) (x y : Value) (fields : List (String × Value)) :
    insertField key y (insertField key x fields) = insertField key y fields := by
  induction fields with
  | nil => simp [insertField]
  | cons f fields ih =>
    by_cases h : (f.1 == key) = true
    · simp [insertField, h]
    · simp [insertField, h, ih]

theorem insertField_get {key : String} {x : Value} {fields : List (String × Value)}
    (h : (Value.object fields).get key = some x) : insertField key x fields = fields := by
  induction fields with
  | nil => cases h
  | cons f fields ih =>
    unfold insertField
    cases hkey : f.1 == key with
    | true =>
      simp only [get, List.find?_cons, hkey] at h
      rw [← Option.some.inj h]
      rfl
    | false =>
      simp only [get, List.find?_cons, hkey] at h ih
      rw [if_neg (by simp), ih h]

theorem removeField_twice (key : String) (fields : List (String × Value)) :
    removeField key (removeField key fields) = removeField key fields := by
  rw [removeField, removeField, List.filter_filter]
  simp

theorem removeField_comm (key other : String) (fields : List (String × Value)) :
    removeField key (removeField other fields) = removeField other (removeField key fields) := by
  rw [removeField, removeField, removeField, removeField, List.filter_filter, List.filter_filter]
  refine List.filter_congr fun f _ => ?_
  rw [Bool.and_comm]

/-! ### Repeated keys -/

end Value

/-- Which of the members with one key a reader keeps. -/
inductive KeyRule where
  | first
  | last
deriving DecidableEq

namespace Value

/-- The last member with this key. -/
def getLast (key : String) : Value → Option Value
  | .object fields => (Value.object fields.reverse).get key
  | _ => none

/-- A member is added to those that are kept. -/
def keep (rule : KeyRule) (kept : List (String × Value)) (f : String × Value) : List (String × Value) :=
  match rule with
  | .first => if kept.any (·.1 == f.1) then kept else kept ++ [f]
  | .last => insertField f.1 f.2 kept

mutual

/-- What a reader makes of a document. -/
def readBy (rule : KeyRule) : Value → Value
  | .array xs => .array (readItems rule xs)
  | .object fields => .object (readFields rule [] fields)
  | .null => .null
  | .bool b => .bool b
  | .number n => .number n
  | .string s => .string s

def readItems (rule : KeyRule) : List Value → List Value
  | [] => []
  | x :: xs => readBy rule x :: readItems rule xs

def readFields (rule : KeyRule) (kept : List (String × Value)) : List (String × Value) → List (String × Value)
  | [] => kept
  | (key, v) :: fields => readFields rule (keep rule kept (key, readBy rule v)) fields

end

variable {rule : KeyRule} {key : String} {v : Value} {f : String × Value} {fields kept : List (String × Value)}

/-! ### Members of what is read -/

theorem get_cons : (Value.object (f :: fields)).get key = if f.1 = key then some f.2 else (Value.object fields).get key := by
  by_cases h : f.1 = key
  · simp [get, h]
  · simp [get, h]

theorem get_append (fields' : List (String × Value)) :
    (Value.object (fields ++ fields')).get key = ((Value.object fields).get key).or ((Value.object fields').get key) := by
  induction fields with
  | nil => rfl
  | cons f fields ih =>
    rw [List.cons_append, get_cons, get_cons, ih]
    split
    · rfl
    · rfl

theorem getLast_cons : (Value.object (f :: fields)).getLast key =
    ((Value.object fields).getLast key).or (if f.1 = key then some f.2 else none) := by
  rw [getLast, getLast, List.reverse_cons, get_append, get_cons]
  rfl

theorem get_isSome_of_any (h : kept.any (·.1 == key) = true) : ∃ w, (Value.object kept).get key = some w := by
  rw [get]
  cases hfind : kept.find? (·.1 == key) with
  | none =>
    obtain ⟨g, hg, hkey⟩ := List.any_eq_true.mp h
    exact absurd hkey (List.find?_eq_none.mp hfind g hg)
  | some g => exact ⟨g.2, rfl⟩

theorem get_keep_first : (Value.object (keep .first kept f)).get key =
    ((Value.object kept).get key).or (if f.1 = key then some f.2 else none) := by
  rw [keep]
  split
  · next hany =>
    obtain ⟨w, hw⟩ := get_isSome_of_any hany
    by_cases h : f.1 = key
    · rw [← h, hw]
      rfl
    · rw [if_neg h, Option.or_none]
  · rw [get_append, get_cons]
    rfl

theorem get_keep_last : (Value.object (keep .last kept f)).get key =
    if f.1 = key then some f.2 else (Value.object kept).get key := by
  rw [keep]
  by_cases h : f.1 = key
  · rw [if_pos h, h, get_insertField_self]
  · rw [if_neg h, get_insertField_ne (Ne.symm h)]

theorem get_readFields_first : (Value.object (readFields .first kept fields)).get key =
    ((Value.object kept).get key).or (((Value.object fields).get key).map (readBy .first)) := by
  induction fields generalizing kept with
  | nil => rw [readFields, show (Value.object []).get key = none from rfl, Option.map_none, Option.or_none]
  | cons f fields ih =>
    obtain ⟨k, v⟩ := f
    rw [readFields, ih, get_keep_first, get_cons, Option.or_assoc]
    split
    · rfl
    · rfl

theorem get_readFields_last : (Value.object (readFields .last kept fields)).get key =
    (((Value.object fields).getLast key).map (readBy .last)).or ((Value.object kept).get key) := by
  induction fields generalizing kept with
  | nil => rfl
  | cons f fields ih =>
    obtain ⟨k, v⟩ := f
    rw [readFields, ih, get_keep_last, getLast_cons]
    cases (Value.object fields).getLast key with
    | some w => rfl
    | none =>
      by_cases h : k = key
      · simp only [h, if_true, Option.map_none, Option.none_or, Option.map_some, Option.some_or]
      · simp only [h, if_false, Option.map_none, Option.none_or]

/-- Of a key that is there several times, the first member or the last one is read. -/
theorem get_readBy_first (v : Value) (key : String) : (v.readBy .first).get key = (v.get key).map (readBy .first) := by
  cases v with
  | object fields => rw [readBy, get_readFields_first, show (Value.object []).get key = none from rfl, Option.none_or]
  | _ => rfl

theorem get_readBy_last (v : Value) (key : String) : (v.readBy .last).get key = (v.getLast key).map (readBy .last) := by
  cases v with
  | object fields => rw [readBy, get_readFields_last, show (Value.object []).get key = none from rfl, Option.or_none]
  | _ => rfl

@[simp] theorem asStr_readBy (rule : KeyRule) (v : Value) : (v.readBy rule).asStr = v.asStr := by
  cases v with
  | _ => rfl

/-! ### What is read has distinct keys -/

theorem keep_keyed (hkept : (Value.object kept).Keyed) (hf : f.2.Keyed) : (Value.object (keep rule kept f)).Keyed := by
  cases rule with
  | last => exact hkept.insertField f.1 hf
  | first =>
    rw [keep]
    split
    · exact hkept
    · next hfresh =>
      cases hkept with
      | object hnodup hfields =>
        refine Keyed.object ?_ fun g hg => ?_
        · rw [List.map_append, List.map_singleton, List.nodup_append]
          refine ⟨hnodup, List.nodup_singleton _, fun a ha b hb heq => hfresh ?_⟩
          obtain ⟨g, hg, rfl⟩ := List.mem_map.mp ha
          rw [List.mem_singleton.mp hb] at heq
          exact List.any_eq_true.mpr ⟨g, hg, by simpa using heq⟩
        · rcases List.mem_append.mp hg with hold | hnew
          · exact hfields g hold
          · rw [List.mem_singleton.mp hnew]
            exact hf

mutual

theorem readBy_keyed (rule : KeyRule) : ∀ v : Value, (v.readBy rule).Keyed
  | .null => .null
  | .bool b => .bool b
  | .number n => .number n
  | .string s => .string s
  | .array xs => .array (readItems_keyed rule xs)
  | .object fields => readFields_keyed rule fields [] .emptyObject

theorem readItems_keyed (rule : KeyRule) : ∀ xs : List Value, ∀ x ∈ readItems rule xs, x.Keyed
  | [], x, hx => by cases hx
  | y :: xs, x, hx => by
    rcases List.mem_cons.mp hx with rfl | hrest
    · exact readBy_keyed rule y
    · exact readItems_keyed rule xs x hrest

theorem readFields_keyed (rule : KeyRule) : ∀ fields kept : List (String × Value), (Value.object kept).Keyed →
    (Value.object (readFields rule kept fields)).Keyed
  | [], _, hkept => hkept
  | (_, v) :: fields, _, hkept => readFields_keyed rule fields _ (keep_keyed hkept (readBy_keyed rule v))

end

theorem keep_fresh (h : f.1 ∉ kept.map (·.1)) : keep rule kept f = kept ++ [f] := by
  cases rule with
  | first =>
    rw [keep, if_neg]
    intro hany
    obtain ⟨g, hg, hkey⟩ := List.any_eq_true.mp hany
    exact h (List.mem_map.mpr ⟨g, hg, by simpa using hkey⟩)
  | last =>
    rw [keep]
    induction kept with
    | nil => rfl
    | cons g kept ih =>
      have hne : ¬ (g.1 == f.1) = true := by
        intro hkey
        exact h (by simp [beq_iff_eq.mp hkey])
      rw [insertField, if_neg hne, ih fun hmem => h (List.mem_cons_of_mem _ hmem)]
      rfl

theorem readItems_self {xs : List Value} (h : ∀ x ∈ xs, x.readBy rule = x) : readItems rule xs = xs := by
  induction xs with
  | nil => rfl
  | cons x xs ih =>
    rw [readItems, h x List.mem_cons_self, ih fun y hy => h y (List.mem_cons_of_mem _ hy)]

theorem readFields_self (hnodup : ((kept ++ fields).map (·.1)).Nodup) (h : ∀ f ∈ fields, f.2.readBy rule = f.2) :
    readFields rule kept fields = kept ++ fields := by
  induction fields generalizing kept with
  | nil => rw [readFields, List.append_nil]
  | cons f fields ih =>
    obtain ⟨k, v⟩ := f
    have hv : v.readBy rule = v := h _ List.mem_cons_self
    have hfresh : k ∉ kept.map (·.1) := by
      rw [List.map_append, List.map_cons, List.nodup_append] at hnodup
      exact fun hmem => hnodup.2.2 k hmem k List.mem_cons_self rfl
    rw [readFields, hv, keep_fresh hfresh, ih ?_ fun g hg => h g (List.mem_cons_of_mem _ hg)]
    · rw [List.append_assoc, List.singleton_append]
    · rw [List.append_assoc, List.singleton_append]
      exact hnodup

/-- Distinct keys leave a reader no choice. -/
theorem Keyed.readBy (hv : v.Keyed) : v.readBy rule = v := by
  induction hv with
  | null => rfl
  | bool b => rfl
  | number n => rfl
  | string s => rfl
  | array _ ih => rw [Value.readBy, readItems_self ih]
  | object hnodup _ ih =>
    rw [Value.readBy]
    exact congrArg Value.object (readFields_self hnodup ih)

/-- With distinct keys, the last member is the first one. -/
theorem Keyed.getLast (hv : v.Keyed) (key : String) : v.getLast key = v.get key := by
  cases hv with
  | object hnodup _ =>
    have hreversed := List.nodup_reverse.mpr hnodup
    rw [← List.map_reverse] at hreversed
    refine Option.ext fun w => ?_
    rw [Value.getLast, ← mem_fields_iff hreversed, ← mem_fields_iff hnodup, List.mem_reverse]
  | _ => rfl

end Value

end ThoughtGate
