import ThoughtGate.Base.Document
import ThoughtGate.Base.Reader

/-!
# Canonical texts

`canonical_json` writes a value with its keys sorted at every level, unless it is nested too deep: it is `to_string` of the
sorted value (`canonicalJson_eq`). Two values are the same up to the order of their keys when one comes from the other by
permuting the members of objects anywhere in it (`Reordered`), and then, and only then, they have the same canonical text
(`canonicalJson_reordered`, `reordered_of_canonicalJson`).
-/

namespace ThoughtGate

namespace Value

/-- The members of objects anywhere in the value are permuted. -/
inductive Reordered : Value → Value → Prop
  | refl (v : Value) : Reordered v v
  | trans {u v w : Value} : Reordered u v → Reordered v w → Reordered u w
  | members {fields fields' : List (String × Value)} : fields.Perm fields' →
      Reordered (.object fields) (.object fields')
  | member (before : List (String × Value)) (key : String) {v w : Value} (after : List (String × Value)) :
      Reordered v w → Reordered (.object (before ++ (key, v) :: after)) (.object (before ++ (key, w) :: after))
  | item (before : List Value) {v w : Value} (after : List Value) :
      Reordered v w → Reordered (.array (before ++ v :: after)) (.array (before ++ w :: after))

/-! ### Sorting -/

mutual

/-- The value with its keys sorted at every level. -/
def sortKeys : Value → Value
  | .object fields => .object ((sortFields fields).insertionSort fun a b => a.1 ≤ b.1)
  | .array xs => .array (sortItems xs)
  | .null => .null
  | .bool b => .bool b
  | .number n => .number n
  | .string s => .string s

def sortItems : List Value → List Value
  | [] => []
  | x :: xs => sortKeys x :: sortItems xs

def sortFields : List (String × Value) → List (String × Value)
  | [] => []
  | (k, v) :: fields => (k, sortKeys v) :: sortFields fields

end

/-! ### Depth -/

mutual

/-- How many arrays and objects the deepest part of the value is in. -/
def depth : Value → Nat
  | .array xs => depthItems xs
  | .object fields => depthFields fields
  | .null | .bool _ | .number _ | .string _ => 0

def depthItems : List Value → Nat
  | [] => 0
  | x :: xs => max (depth x + 1) (depthItems xs)

def depthFields : List (String × Value) → Nat
  | [] => 0
  | (_, v) :: fields => max (depth v + 1) (depthFields fields)

end

/-! ### The canonical text -/

theorem sortFields_eq_map (fields : List (String × Value)) :
    sortFields fields = fields.map fun f => (f.1, f.2.sortKeys) := by
  induction fields with
  | nil => rfl
  | cons f fields ih =>
    rw [sortFields, List.map_cons, ih]

section

variable [F64.Fmt]

theorem toJsonItems_eq_map (xs : List Value) : toJsonItems xs = xs.map toJson := by
  induction xs with
  | nil => rfl
  | cons x xs ih => rw [toJsonItems, List.map_cons, ih]

theorem toJsonFields_eq_map (fields : List (String × Value)) :
    toJsonFields fields = fields.map fun f => quote f.1 ++ ":" ++ f.2.toJson := by
  induction fields with
  | nil => rfl
  | cons f fields ih => rw [toJsonFields, List.map_cons, ih]

/-- Sorting the texts of the members by their keys gives the text of the sorted members. -/
theorem toJson_sortFields (fields : List (String × Value)) :
    ((fields.map fun f => (f.1, f.2.sortKeys.toJson)).insertionSort fun a b => a.1 ≤ b.1).map
        (fun e => quote e.1 ++ ":" ++ e.2) =
      toJsonFields ((sortFields fields).insertionSort fun a b => a.1 ≤ b.1) := by
  have hsort := List.map_insertionSort (fun a b : String × Value => a.1 ≤ b.1) (fun a b : String × String => a.1 ≤ b.1)
    (fun f : String × Value => (f.1, f.2.toJson)) (sortFields fields) fun _ _ _ _ => Iff.rfl
  have htexts : (fields.map fun f => (f.1, f.2.sortKeys.toJson)) =
      (sortFields fields).map fun f : String × Value => (f.1, f.2.toJson) := by
    rw [sortFields_eq_map, List.map_map]
    rfl
  rw [htexts, ← hsort, List.map_map, toJsonFields_eq_map]
  rfl

mutual

/-- `canonical_json_inner` is `to_string` of the sorted value, where that is not nested too deep. -/
theorem canonicalJsonInner_eq (depth : Nat) : ∀ v : Value, canonicalJsonInner depth v =
    if 64 < depth + v.depth then .error depthError else .ok v.sortKeys.toJson
  | .null => rfl
  | .bool b => rfl
  | .number n => rfl
  | .string s => rfl
  | .array xs => by
    rw [canonicalJsonInner, maxCanonicalJsonDepth, Value.depth]
    by_cases hdepth : 64 < depth
    · rw [if_pos hdepth, if_pos (by omega)]
    · rw [if_neg hdepth, canonicalItems_eq depth (by omega) xs]
      split
      · rfl
      · show Except.ok _ = Except.ok _
        rw [sortKeys, toJson]
  | .object fields => by
    rw [canonicalJsonInner, maxCanonicalJsonDepth, Value.depth]
    by_cases hdepth : 64 < depth
    · rw [if_pos hdepth, if_pos (by omega)]
    · rw [if_neg hdepth, canonicalFields_eq depth (by omega) fields]
      split
      · rfl
      · show Except.ok _ = Except.ok _
        rw [sortKeys, toJson, toJson_sortFields]

theorem canonicalItems_eq (depth : Nat) (hdepth : depth ≤ 64) : ∀ xs : List Value, canonicalItems (depth + 1) xs =
    if 64 < depth + depthItems xs then .error depthError else .ok (toJsonItems (sortItems xs))
  | [] => by rw [canonicalItems, depthItems, if_neg (by omega)]; rfl
  | x :: xs => by
    rw [canonicalItems, canonicalJsonInner_eq (depth + 1) x, canonicalItems_eq depth hdepth xs, depthItems]
    by_cases hx : 64 < depth + 1 + x.depth
    · have hout : 64 < depth + max (x.depth + 1) (depthItems xs) := by omega
      rw [if_pos hx, if_pos hout]
      rfl
    · rw [if_neg hx]
      by_cases hxs : 64 < depth + depthItems xs
      · have hout : 64 < depth + max (x.depth + 1) (depthItems xs) := by omega
        rw [if_pos hxs, if_pos hout]
        rfl
      · rw [if_neg hxs, if_neg (by omega)]
        rfl

theorem canonicalFields_eq (depth : Nat) (hdepth : depth ≤ 64) : ∀ fields : List (String × Value),
    canonicalFields (depth + 1) fields = if 64 < depth + depthFields fields then .error depthError
      else .ok (fields.map fun f => (f.1, f.2.sortKeys.toJson))
  | [] => by rw [canonicalFields, depthFields, if_neg (by omega)]; rfl
  | (k, v) :: fields => by
    rw [canonicalFields, canonicalJsonInner_eq (depth + 1) v, canonicalFields_eq depth hdepth fields, depthFields]
    by_cases hv : 64 < depth + 1 + v.depth
    · have hout : 64 < depth + max (v.depth + 1) (depthFields fields) := by omega
      rw [if_pos hv, if_pos hout]
      rfl
    · rw [if_neg hv]
      by_cases hfields : 64 < depth + depthFields fields
      · have hout : 64 < depth + max (v.depth + 1) (depthFields fields) := by omega
        rw [if_pos hfields, if_pos hout]
        rfl
      · rw [if_neg hfields, if_neg (by omega)]
        rfl

end

/-- `canonical_json`. -/
theorem canonicalJson_eq (v : Value) :
    canonicalJson v = if 64 < v.depth then .error depthError else .ok v.sortKeys.toJson := by
  rw [canonicalJson, canonicalJsonInner_eq, Nat.zero_add]

theorem canonicalJson_error_iff (v : Value) : (∃ e, v.canonicalJson = .error e) ↔ 64 < v.depth := by
  rw [canonicalJson_eq]
  by_cases hdepth : 64 < v.depth
  · rw [if_pos hdepth]
    exact ⟨fun _ => hdepth, fun _ => ⟨_, rfl⟩⟩
  · rw [if_neg hdepth]
    refine ⟨fun ⟨e, he⟩ => ?_, fun h => absurd h hdepth⟩
    cases he

theorem canonicalJson_ok_iff (v : Value) : (∃ text, v.canonicalJson = .ok text) ↔ v.depth ≤ 64 := by
  rw [canonicalJson_eq]
  by_cases hdepth : 64 < v.depth
  · rw [if_pos hdepth]
    refine ⟨fun ⟨text, htext⟩ => ?_, fun h => absurd hdepth (not_lt.mpr h)⟩
    cases htext
  · rw [if_neg hdepth]
    exact ⟨fun _ => not_lt.mp hdepth, fun _ => ⟨_, rfl⟩⟩

end

/-! ### Up to the order of keys -/

theorem Reordered.symm {v w : Value} (h : Reordered v w) : Reordered w v := by
  induction h with
  | refl v => exact .refl v
  | trans _ _ ih ih' => exact ih'.trans ih
  | members hperm => exact .members hperm.symm
  | member before key after _ ih => exact .member before key after ih
  | item before after _ ih => exact .item before after ih

theorem Reordered.numbers {P : Number → Prop} {v w : Value} (h : Reordered v w) (hv : v.Numbers P) : w.Numbers P := by
  induction h with
  | refl v => exact hv
  | trans _ _ ih ih' => exact ih' (ih hv)
  | members hperm =>
    cases hv with
    | object hfields => exact .object fun f hf => hfields f (hperm.mem_iff.mpr hf)
  | member before key after _ ih =>
    cases hv with
    | object hfields =>
      refine .object fun f hf => ?_
      rcases List.mem_append.mp hf with hbefore | hmem
      · exact hfields f (List.mem_append_left _ hbefore)
      · rcases List.mem_cons.mp hmem with rfl | hafter
        · exact ih (hfields _ (List.mem_append_right _ List.mem_cons_self))
        · exact hfields f (List.mem_append_right _ (List.mem_cons_of_mem _ hafter))
  | item before after _ ih =>
    cases hv with
    | array hxs =>
      refine .array fun x hx => ?_
      rcases List.mem_append.mp hx with hbefore | hmem
      · exact hxs x (List.mem_append_left _ hbefore)
      · rcases List.mem_cons.mp hmem with rfl | hafter
        · exact ih (hxs _ (List.mem_append_right _ List.mem_cons_self))
        · exact hxs x (List.mem_append_right _ (List.mem_cons_of_mem _ hafter))

theorem Reordered.keyed {v w : Value} (h : Reordered v w) (hv : v.Keyed) : w.Keyed := by
  induction h with
  | refl v => exact hv
  | trans _ _ ih ih' => exact ih' (ih hv)
  | members hperm =>
    cases hv with
    | object hnodup hfields =>
      exact .object ((hperm.map _).nodup_iff.mp hnodup) fun f hf => hfields f (hperm.mem_iff.mpr hf)
  | member before key after _ ih =>
    cases hv with
    | object hnodup hfields =>
      rw [List.map_append, List.map_cons] at hnodup
      refine .object (by rw [List.map_append, List.map_cons]; exact hnodup) fun f hf => ?_
      rcases List.mem_append.mp hf with hbefore | hmem
      · exact hfields f (List.mem_append_left _ hbefore)
      · rcases List.mem_cons.mp hmem with rfl | hafter
        · exact ih (hfields _ (List.mem_append_right _ List.mem_cons_self))
        · exact hfields f (List.mem_append_right _ (List.mem_cons_of_mem _ hafter))
  | item before after _ ih =>
    cases hv with
    | array hxs =>
      refine .array fun x hx => ?_
      rcases List.mem_append.mp hx with hbefore | hmem
      · exact hxs x (List.mem_append_left _ hbefore)
      · rcases List.mem_cons.mp hmem with rfl | hafter
        · exact ih (hxs _ (List.mem_append_right _ List.mem_cons_self))
        · exact hxs x (List.mem_append_right _ (List.mem_cons_of_mem _ hafter))

mutual

/-- Sorting reorders. -/
theorem reordered_sortKeys : ∀ v : Value, Reordered v v.sortKeys
  | .null => .refl _
  | .bool _ => .refl _
  | .number _ => .refl _
  | .string _ => .refl _
  | .array xs => reordered_sortItems xs []
  | .object fields =>
    (reordered_sortFields fields []).trans (.members (List.perm_insertionSort _ (sortFields fields)).symm)

theorem reordered_sortItems : ∀ xs before : List Value, Reordered (.array (before ++ xs)) (.array (before ++ sortItems xs))
  | [], _ => .refl _
  | x :: xs, before => by
    have hrest := reordered_sortItems xs (before ++ [x.sortKeys])
    rw [List.append_assoc, List.append_assoc] at hrest
    exact (Reordered.item before xs (reordered_sortKeys x)).trans hrest

theorem reordered_sortFields : ∀ fields before : List (String × Value),
    Reordered (.object (before ++ fields)) (.object (before ++ sortFields fields))
  | [], _ => .refl _
  | (k, v) :: fields, before => by
    have hrest := reordered_sortFields fields (before ++ [(k, v.sortKeys)])
    rw [List.append_assoc, List.append_assoc] at hrest
    exact (Reordered.member before k fields (reordered_sortKeys v)).trans hrest

end

theorem sortItems_append (xs ys : List Value) : sortItems (xs ++ ys) = sortItems xs ++ sortItems ys := by
  induction xs with
  | nil => rfl
  | cons x xs ih => rw [List.cons_append, sortItems, sortItems, ih, List.cons_append]

/-- With distinct keys there is one sorted order of the members. -/
theorem insertionSort_perm {fields fields' : List (String × Value)} (hnodup : (fields.map (·.1)).Nodup)
    (hperm : fields.Perm fields') :
    fields.insertionSort (fun a b => a.1 ≤ b.1) = fields'.insertionSort fun a b => a.1 ≤ b.1 := by
  have htotal : Std.Total fun a b : String × Value => a.1 ≤ b.1 := ⟨fun a b => String.le_total a.1 b.1⟩
  have htrans : IsTrans (String × Value) fun a b => a.1 ≤ b.1 := ⟨fun _ _ _ hab hbc => String.le_trans hab hbc⟩
  refine List.Perm.eq_of_pairwise (fun f g hf hg hfg hgf => ?_) (List.pairwise_insertionSort _ fields)
    (List.pairwise_insertionSort _ fields')
    ((List.perm_insertionSort _ fields).trans (hperm.trans (List.perm_insertionSort _ fields').symm))
  rw [List.mem_insertionSort] at hf hg
  exact List.inj_on_of_nodup_map hnodup hf (hperm.mem_iff.mpr hg) (String.le_antisymm hfg hgf)

/-- Values that are the same up to the order of keys are the same once they are sorted. -/
theorem Reordered.sortKeys_eq {v w : Value} (h : Reordered v w) (hv : v.Keyed) : v.sortKeys = w.sortKeys := by
  induction h with
  | refl v => rfl
  | trans h _ ih ih' => exact (ih hv).trans (ih' (h.keyed hv))
  | members hperm =>
    cases hv with
    | object hnodup _ =>
      rw [sortKeys, sortKeys, sortFields_eq_map, sortFields_eq_map, object.injEq]
      refine insertionSort_perm ?_ (hperm.map _)
      rw [List.map_map]
      exact hnodup
  | member before key after _ ih =>
    cases hv with
    | object _ hfields =>
      have heq := ih (hfields _ (List.mem_append_right _ List.mem_cons_self))
      rw [sortKeys, sortKeys, sortFields_eq_map, sortFields_eq_map, List.map_append, List.map_append, List.map_cons,
        List.map_cons, heq]
  | item before after _ ih =>
    cases hv with
    | array hxs =>
      have heq := ih (hxs _ (List.mem_append_right _ List.mem_cons_self))
      rw [sortKeys, sortKeys, sortItems_append, sortItems_append, sortItems, sortItems, heq]

theorem depthItems_append (xs ys : List Value) : depthItems (xs ++ ys) = max (depthItems xs) (depthItems ys) := by
  induction xs with
  | nil => rw [List.nil_append, depthItems, Nat.zero_max]
  | cons x xs ih => rw [List.cons_append, depthItems, depthItems, ih, Nat.max_assoc]

theorem depthFields_append (xs ys : List (String × Value)) :
    depthFields (xs ++ ys) = max (depthFields xs) (depthFields ys) := by
  induction xs with
  | nil => rw [List.nil_append, depthFields, Nat.zero_max]
  | cons x xs ih => rw [List.cons_append, depthFields, depthFields, ih, Nat.max_assoc]

theorem depthFields_perm {fields fields' : List (String × Value)} (h : fields.Perm fields') :
    depthFields fields = depthFields fields' := by
  induction h with
  | nil => rfl
  | cons f _ ih => rw [depthFields, depthFields, ih]
  | swap f g l => simp only [depthFields, Nat.max_left_comm]
  | trans _ _ ih ih' => exact ih.trans ih'

theorem Reordered.depth_eq {v w : Value} (h : Reordered v w) : v.depth = w.depth := by
  induction h with
  | refl v => rfl
  | trans _ _ ih ih' => exact ih.trans ih'
  | members hperm =>
    rw [Value.depth, Value.depth, depthFields_perm hperm]
  | member before key after _ ih =>
    rw [Value.depth, Value.depth, depthFields_append, depthFields_append, depthFields, depthFields, ih]
  | item before after _ ih =>
    rw [Value.depth, Value.depth, depthItems_append, depthItems_append, depthItems, depthItems, ih]

section

variable [F64.Fmt]

/-- The canonical text does not depend on the order of keys. -/
theorem canonicalJson_reordered {v w : Value} (hv : v.Keyed) (h : Reordered v w) :
    v.canonicalJson = w.canonicalJson := by
  rw [canonicalJson_eq, canonicalJson_eq, h.depth_eq, h.sortKeys_eq hv]

theorem canonicalJson_ok {v : Value} {text : String} (h : v.canonicalJson = .ok text) :
    v.depth ≤ 64 ∧ text = v.sortKeys.toJson := by
  rw [canonicalJson_eq] at h
  split at h
  · cases h
  · next hdepth => exact ⟨Nat.le_of_not_lt hdepth, (Except.ok.inj h).symm⟩

/-- Values with one canonical text are the same up to the order of keys. -/
theorem reordered_of_canonicalJson (hfmt : F64.Decimal) {v w : Value} (hv : v.Signed) (hw : w.Signed) {text : String}
    (htv : v.canonicalJson = .ok text) (htw : w.canonicalJson = .ok text) : Reordered v w := by
  have hsorted : v.sortKeys = w.sortKeys := by
    refine Reader.toJson_injective hfmt ((reordered_sortKeys v).numbers hv) ((reordered_sortKeys w).numbers hw) ?_
    rw [← (canonicalJson_ok htv).2, (canonicalJson_ok htw).2]
  have hback := (reordered_sortKeys w).symm
  rw [← hsorted] at hback
  exact (reordered_sortKeys v).trans hback

end

theorem mapDoublesItems_append (g : F64 → F64) (xs ys : List Value) :
    mapDoublesItems g (xs ++ ys) = mapDoublesItems g xs ++ mapDoublesItems g ys := by
  induction xs with
  | nil => rfl
  | cons x xs ih => rw [List.cons_append, mapDoublesItems_cons, mapDoublesItems_cons, ih, List.cons_append]

theorem mapDoublesFields_eq_map (g : F64 → F64) (fields : List (String × Value)) :
    mapDoublesFields g fields = fields.map fun f => (f.1, f.2.mapDoubles g) := by
  induction fields with
  | nil => rfl
  | cons f fields ih => rw [mapDoublesFields_cons, List.map_cons, ih]

theorem Reordered.mapDoubles (g : F64 → F64) {v w : Value} (h : Reordered v w) :
    Reordered (v.mapDoubles g) (w.mapDoubles g) := by
  induction h with
  | refl v => exact .refl _
  | trans _ _ ih ih' => exact ih.trans ih'
  | members hperm =>
    rw [mapDoubles_object, mapDoubles_object, mapDoublesFields_eq_map, mapDoublesFields_eq_map]
    exact .members (hperm.map _)
  | member before key after _ ih =>
    rw [mapDoubles_object, mapDoubles_object, mapDoublesFields_eq_map, mapDoublesFields_eq_map, List.map_append,
      List.map_append, List.map_cons, List.map_cons]
    exact .member _ key _ ih
  | item before after _ ih =>
    rw [mapDoubles_array, mapDoubles_array, mapDoublesItems_append, mapDoublesItems_append, mapDoublesItems_cons,
      mapDoublesItems_cons]
    exact .item _ _ ih

/-- What is read in the canonical text is the value up to the order of keys, with its doubles as they are read. -/
theorem readJson_canonicalJson [F64.Fmt] (hfmt : F64.Decimal) (double : List Char → F64) {v : Value} (hv : v.Signed)
    {text : String} (h : v.canonicalJson = .ok text) :
    ∃ w, Reader.readJson double text = some w ∧ Reordered (v.mapDoubles (Reader.reread double)) w := by
  have hsorted := reordered_sortKeys v
  rw [(canonicalJson_ok h).2]
  exact ⟨_, Reader.readJson_toJson double hfmt (hsorted.numbers hv), hsorted.mapDoubles _⟩

end Value

end ThoughtGate
