import ThoughtGate.Approval.Types
import ThoughtGate.Base.Document

/-!
# Redaction

`governance/approval/redact.rs`, and the one use of it: the arguments of a call as the Slack message shows them
(`build_approval_blocks`). A field path that a workflow lists leads to nothing in the message but the mark, whatever
the other paths of the list have done before or after it (`displayArgs_hidden`).

The paths are applied one after the other, in place. What comes out is one walk over the tree that looks at the set of
the listed paths alone (`blank`, `redactFields_eq_blank`); that the result is complete and local
(`redactFields_complete_local`) is read off that walk.
-/

namespace ThoughtGate

namespace Redact

/-- What stands in the place of a redacted value. -/
def mark : Value := .string "[REDACTED]"

/-- `redact_path`. -/
def redactPath : List String → Value → Value
  | [key], .object fields =>
    match (Value.object fields).get key with
    | some _ => .object (Value.insertField key mark fields)
    | none => .object fields
  | key :: rest, .object fields =>
    match (Value.object fields).get key with
    | some child => .object (Value.insertField key (redactPath rest child) fields)
    | none => .object fields
  | _, value => value

/-- `field.split('.')`. -/
def parts (field : String) : List String := (field.toList.splitOn '.').map String.ofList

/-- `redact_fields`. -/
def redactFields (value : Value) (fields : List String) : Value :=
  fields.foldl (fun value field => redactPath (parts field) value) value

/-- The value that a path leads to. -/
def valueAt : List String → Value → Option Value
  | [], value => some value
  | key :: rest, value => (value.get key).bind (valueAt rest)

/-- The path leads to the mark or nowhere. -/
def Hidden (path : List String) (value : Value) : Prop := ∀ v, valueAt path value = some v → v = mark

theorem parts_ne_nil (field : String) : parts field ≠ [] := by
  unfold parts
  rw [ne_eq, List.map_eq_nil_iff]
  exact List.splitOn_ne_nil _ _

theorem valueAt_cons_insert_self (key : String) (rest : List String) (v : Value) (fields : List (String × Value)) :
    valueAt (key :: rest) (.object (Value.insertField key v fields)) = valueAt rest v := by
  rw [valueAt, Value.get_insertField_self]
  rfl

theorem valueAt_cons_insert_ne {key other : String} (hne : key ≠ other) (rest : List String) (v : Value)
    (fields : List (String × Value)) :
    valueAt (key :: rest) (.object (Value.insertField other v fields)) = valueAt (key :: rest) (.object fields) := by
  rw [valueAt, Value.get_insertField_ne hne]
  rfl

theorem hidden_mark (path : List String) : Hidden path mark := by
  intro v hv
  cases path with
  | nil => exact (Option.some.inj hv).symm
  | cons key rest => cases hv

/-- One step of the walk: a member is there and is written over, or nothing changes. -/
theorem redactPath_cases (key : String) (rest : List String) (value : Value) :
    (∃ fields child, value = .object fields ∧ value.get key = some child ∧
      redactPath (key :: rest) value = .object (Value.insertField key
        (if rest = [] then mark else redactPath rest child) fields)) ∨
    (value.get key = none ∧ redactPath (key :: rest) value = value) := by
  cases value with
  | object fields =>
    cases hget : (Value.object fields).get key with
    | none =>
      right
      refine ⟨rfl, ?_⟩
      cases rest with
      | nil => simp only [redactPath, hget]
      | cons next rest => simp only [redactPath, hget]
    | some child =>
      left
      refine ⟨fields, child, rfl, rfl, ?_⟩
      cases rest with
      | nil => simp only [redactPath, hget, if_true]
      | cons next rest => simp only [redactPath, hget, reduceCtorEq, if_false]
  | _ => exact Or.inr ⟨rfl, by cases rest <;> rfl⟩

/-- A redacted path is hidden. -/
theorem redactPath_hidden {path : List String} (hne : path ≠ []) (value : Value) :
    Hidden path (redactPath path value) := by
  induction path generalizing value with
  | nil => exact absurd rfl hne
  | cons key rest ih =>
    rcases redactPath_cases key rest value with ⟨fields, child, rfl, -, heq⟩ | ⟨hnone, heq⟩
    · rw [heq]
      intro v hv
      rw [valueAt_cons_insert_self] at hv
      by_cases hrest : rest = []
      · rw [if_pos hrest] at hv
        exact hidden_mark rest v hv
      · rw [if_neg hrest] at hv
        exact ih hrest child v hv
    · rw [heq]
      intro v hv
      rw [valueAt, hnone] at hv
      cases hv

/-- What is hidden stays hidden when another path is redacted. -/
theorem Hidden.redactPath {path : List String} {value : Value} (h : Hidden path value) (other : List String) :
    Hidden path (redactPath other value) := by
  induction other generalizing path value with
  | nil => exact h
  | cons key rest ih =>
    rcases redactPath_cases key rest value with ⟨fields, child, rfl, hget, heq⟩ | ⟨-, heq⟩
    · rw [heq]
      cases path with
      | nil => cases h _ rfl
      | cons first more =>
        by_cases hfirst : first = key
        · subst hfirst
          intro v hv
          rw [valueAt_cons_insert_self] at hv
          have hchild : Hidden more child := by
            intro u hu
            apply h
            rw [valueAt, hget]
            exact hu
          split at hv
          · exact hidden_mark more v hv
          · exact ih hchild v hv
        · intro v hv
          rw [valueAt_cons_insert_ne hfirst] at hv
          exact h v hv
    · rw [heq]
      exact h

theorem Hidden.redactFields {path : List String} {value : Value} (h : Hidden path value) (fields : List String) :
    Hidden path (redactFields value fields) := by
  induction fields generalizing value with
  | nil => exact h
  | cons field fields ih => exact ih (h.redactPath (parts field))

/-- Every field of the list is hidden. -/
theorem redactFields_hidden {field : String} {fields : List String} (hmem : field ∈ fields) (value : Value) :
    Hidden (parts field) (redactFields value fields) := by
  induction fields generalizing value with
  | nil => cases hmem
  | cons first fields ih =>
    rcases List.mem_cons.mp hmem with rfl | hrest
    · exact (redactPath_hidden (parts_ne_nil field) value).redactFields fields
    · exact ih hrest _

/-! ### All paths at once -/

/-- What is left of the listed paths below a member. -/
def below (paths : Set (List String)) (key : String) : Set (List String) := { rest | key :: rest ∈ paths }

/-- The paths of a list of fields. -/
def listed (fields : List String) : Set (List String) := { path | ∃ field ∈ fields, parts field = path }

theorem nil_notMem_listed (fields : List String) : [] ∉ listed fields := by
  rintro ⟨field, -, hnil⟩
  exact parts_ne_nil field hnil

theorem listed_cons (field : String) (fields : List String) :
    listed (field :: fields) = insert (parts field) (listed fields) := by
  ext path
  simp only [listed, List.mem_cons, exists_eq_or_imp, Set.mem_ofPred_eq, Set.mem_insert_iff]
  rw [eq_comm]

theorem below_insert_self (paths : Set (List String)) (key : String) (rest : List String) :
    below (insert (key :: rest) paths) key = insert rest (below paths key) := by
  ext path
  simp [below]

theorem below_insert_ne (paths : Set (List String)) {key other : String} (hne : other ≠ key) (rest : List String) :
    below (insert (key :: rest) paths) other = below paths other := by
  ext path
  simp [below, hne]

section Blank

open Classical

mutual

/-- One walk for all paths: a member with a listed path is the mark, the others are walked with what is left of the
paths. -/
noncomputable def blank (paths : Set (List String)) : Value → Value
  | .object fields => .object (blankFields paths fields)
  | .null => .null
  | .bool b => .bool b
  | .number n => .number n
  | .string s => .string s
  | .array xs => .array xs

noncomputable def blankFields (paths : Set (List String)) : List (String × Value) → List (String × Value)
  | [] => []
  | (key, v) :: fields =>
    (key, if [key] ∈ paths then mark else blank (below paths key) v) :: blankFields paths fields

end

/-- What the walk makes of the value of a member. -/
noncomputable def blankMember (paths : Set (List String)) (key : String) (v : Value) : Value :=
  if [key] ∈ paths then mark else blank (below paths key) v

theorem blankMember_insert_ne (paths : Set (List String)) {key other : String} (hne : other ≠ key)
    (rest : List String) (v : Value) :
    blankMember (insert (key :: rest) paths) other v = blankMember paths other v := by
  have hsame : [other] ∈ insert (key :: rest) paths ↔ [other] ∈ paths := by simp [hne]
  unfold blankMember
  by_cases hlisted : [other] ∈ paths
  · rw [if_pos hlisted, if_pos (hsame.mpr hlisted)]
  · rw [if_neg hlisted, if_neg fun h => hlisted (hsame.mp h), below_insert_ne paths hne]

theorem blankFields_eq_map (paths : Set (List String)) (fields : List (String × Value)) :
    blankFields paths fields = fields.map fun f => (f.1, blankMember paths f.1 f.2) := by
  induction fields with
  | nil => rw [blankFields, List.map_nil]
  | cons f fields ih =>
    obtain ⟨key, v⟩ := f
    rw [blankFields, List.map_cons, ih, blankMember]

theorem blank_object (paths : Set (List String)) (fields : List (String × Value)) :
    blank paths (.object fields) = .object (fields.map fun f => (f.1, blankMember paths f.1 f.2)) := by
  rw [blank, blankFields_eq_map]

theorem blank_of_not_object {v : Value} (h : v.asObject = none) (paths : Set (List String)) : blank paths v = v := by
  cases v with
  | object fields => cases h
  | _ => simp only [blank]

end Blank

theorem keys_blank (paths : Set (List String)) (fields : List (String × Value)) :
    (fields.map fun f => (f.1, blankMember paths f.1 f.2)).map (·.1) = fields.map (·.1) := by
  rw [List.map_map]
  exact List.map_congr_left fun f _ => rfl

theorem get_blank (paths : Set (List String)) (key : String) (v : Value) :
    (blank paths v).get key = (v.get key).map (blankMember paths key) := by
  cases v with
  | object fields =>
    rw [blank_object]
    induction fields with
    | nil => rfl
    | cons f fields ih =>
      simp only [Value.get, List.map_cons, List.find?_cons] at ih ⊢
      by_cases hkey : f.1 = key
      · simp only [hkey, beq_self_eq_true, Option.map_some]
      · have hfalse : (f.1 == key) = false := by rwa [beq_eq_false_iff_ne]
        simp only [hfalse]
        exact ih
  | _ => rw [blank_of_not_object rfl]; rfl

theorem blank_keyed {v : Value} (hv : v.Keyed) (paths : Set (List String)) : (blank paths v).Keyed := by
  induction hv generalizing paths with
  | object hnodup hfields ih =>
    rw [blank_object]
    refine Value.Keyed.object (by rw [keys_blank]; exact hnodup) fun f hf => ?_
    obtain ⟨g, hg, rfl⟩ := List.mem_map.mp hf
    show (blankMember paths g.1 g.2).Keyed
    unfold blankMember
    split
    · exact Value.Keyed.string _
    · exact ih g hg _
  | array hxs => rw [blank_of_not_object rfl]; exact Value.Keyed.array hxs
  | null => rw [blank_of_not_object rfl]; exact Value.Keyed.null
  | bool b => rw [blank_of_not_object rfl]; exact Value.Keyed.bool b
  | number n => rw [blank_of_not_object rfl]; exact Value.Keyed.number n
  | string s => rw [blank_of_not_object rfl]; exact Value.Keyed.string s

theorem blank_empty {v : Value} (hv : v.Keyed) : blank ∅ v = v := by
  induction hv with
  | @object fields hnodup hfields ih =>
    rw [blank_object, Value.object.injEq]
    refine (List.map_congr_left fun f hf => ?_).trans (List.map_id fields)
    have hbelow : below ∅ f.1 = ∅ := by ext; simp [below]
    rw [blankMember, if_neg (Set.notMem_empty _), hbelow, ih f hf]
    rfl
  | _ => rw [blank_of_not_object rfl]

theorem redactPath_mark (path : List String) : redactPath path mark = mark := by
  cases path with
  | nil => rfl
  | cons key rest => cases rest <;> rfl

/-- With distinct keys, a change of the member with a key is a change of every member with that key. -/
theorem insertField_eq_map {fields : List (String × Value)} (hnodup : (fields.map (·.1)).Nodup) {key : String}
    {child : Value} (hmem : (key, child) ∈ fields) (change : Value → Value) :
    Value.insertField key (change child) fields = fields.map fun f => if f.1 = key then (f.1, change f.2) else f := by
  induction fields with
  | nil => cases hmem
  | cons f fields ih =>
    obtain ⟨hfresh, hrest⟩ := List.nodup_cons.mp hnodup
    rw [Value.insertField, List.map_cons]
    by_cases hkey : f.1 = key
    · have hchild : child = f.2 := by
        rcases List.mem_cons.mp hmem with rfl | htail
        · rfl
        · exact absurd (List.mem_map.mpr ⟨_, htail, hkey.symm⟩) hfresh
      rw [if_pos (beq_iff_eq.mpr hkey), if_pos hkey, hchild, List.cons.injEq]
      refine ⟨rfl, ((List.map_congr_left fun g hg => ?_).trans (List.map_id fields)).symm⟩
      rw [if_neg]
      · rfl
      · exact fun hg' => hfresh (List.mem_map.mpr ⟨g, hg, hg'.trans hkey.symm⟩)
    · rw [if_neg fun h => hkey (beq_iff_eq.mp h), if_neg hkey]
      rcases List.mem_cons.mp hmem with rfl | htail
      · exact absurd rfl hkey
      · rw [ih hrest htail]

theorem map_members_congr {f g : String → Value → Value} {fields members : List (String × Value)}
    (hkeys : fields.map (·.1) = members.map (·.1))
    (h : ∀ key a b, (key, a) ∈ fields → (key, b) ∈ members → f key a = g key b) :
    (fields.map fun m => (m.1, f m.1 m.2)) = members.map fun m => (m.1, g m.1 m.2) := by
  induction fields generalizing members with
  | nil =>
    rw [List.map_nil, eq_comm, List.map_eq_nil_iff] at hkeys
    rw [hkeys]
    rfl
  | cons m fields ih =>
    cases members with
    | nil => cases hkeys
    | cons m' members =>
      obtain ⟨hkey, hrest⟩ := List.cons.inj hkeys
      have hhead : f m.1 m.2 = g m'.1 m'.2 := by
        have hkey : m.1 = m'.1 := hkey
        rw [← hkey]
        exact h m.1 m.2 m'.2 List.mem_cons_self (hkey ▸ List.mem_cons_self)
      rw [List.map_cons, List.map_cons, hhead, show m.1 = m'.1 from hkey,
        ih hrest fun key a b ha hb => h key a b (List.mem_cons_of_mem _ ha) (List.mem_cons_of_mem _ hb)]

/-- With distinct keys, a step of the walk changes the one member with its key. -/
theorem redactPath_object {fields : List (String × Value)} (hnodup : (fields.map (·.1)).Nodup) (key : String)
    (rest : List String) :
    redactPath (key :: rest) (.object fields) = .object (fields.map fun f =>
      if f.1 = key then (f.1, if rest = [] then mark else redactPath rest f.2) else f) := by
  rcases redactPath_cases key rest (.object fields) with ⟨members, child, hfields, hget, heq⟩ | ⟨hnone, heq⟩
  · obtain rfl := Value.object.inj hfields
    rw [heq, insertField_eq_map hnodup (Value.mem_of_get hget) fun v => if rest = [] then mark else redactPath rest v]
  · rw [heq, Value.object.injEq]
    refine ((List.map_congr_left fun f hf => ?_).trans (List.map_id fields)).symm
    rw [if_neg]
    · rfl
    · rintro rfl
      rw [Value.get_of_mem hnodup hf] at hnone
      cases hnone

/-- One more path after the walk is the walk with one more path. -/
theorem redactPath_blank {path : List String} (hne : path ≠ []) {v : Value} (hv : v.Keyed)
    (paths : Set (List String)) : redactPath path (blank paths v) = blank (insert path paths) v := by
  induction path generalizing v paths with
  | nil => exact absurd rfl hne
  | cons key rest ih =>
    cases hv with
    | @object fields hnodup hfields =>
      rw [blank_object, blank_object, redactPath_object (by rw [keys_blank]; exact hnodup), List.map_map,
        Value.object.injEq]
      refine List.map_congr_left fun f hf => ?_
      show (if f.1 = key then _ else _) = _
      by_cases hkey : f.1 = key
      · rw [if_pos hkey, Prod.mk.injEq]
        refine ⟨rfl, ?_⟩
        show (if rest = [] then mark else redactPath rest (blankMember paths f.1 f.2)) = _
        rw [hkey, blankMember, blankMember, below_insert_self]
        by_cases hrest : rest = []
        · rw [if_pos hrest, if_pos (by rw [hrest]; exact Set.mem_insert _ _)]
        · have hsame : [key] ∈ insert (key :: rest) paths ↔ [key] ∈ paths := by simp [Ne.symm hrest]
          rw [if_neg hrest]
          by_cases hlisted : [key] ∈ paths
          · rw [if_pos hlisted, if_pos (hsame.mpr hlisted)]
            exact redactPath_mark rest
          · rw [if_neg hlisted, if_neg fun h => hlisted (hsame.mp h)]
            exact ih hrest (hfields f hf) _
      · rw [if_neg hkey]
        show (f.1, _) = (f.1, _)
        rw [blankMember_insert_ne paths hkey]
    | _ => rw [blank_of_not_object rfl, blank_of_not_object rfl]; cases rest <;> rfl

/-- `redact_fields` is the walk with the set of its paths. -/
theorem redactFields_eq_blank {v : Value} (hv : v.Keyed) (fields : List String) :
    redactFields v fields = blank (listed fields) v := by
  have hfold : ∀ paths, redactFields (blank paths v) fields = blank (listed fields ∪ paths) v := by
    induction fields with
    | nil =>
      intro paths
      have hnone : listed [] = ∅ := by ext; simp [listed]
      rw [hnone, Set.empty_union]
      rfl
    | cons field fields ih =>
      intro paths
      show redactFields (redactPath (parts field) (blank paths v)) fields = _
      rw [redactPath_blank (parts_ne_nil field) hv, ih, listed_cons, Set.insert_union, Set.union_insert]
  have hempty := hfold ∅
  rwa [blank_empty hv, Set.union_empty] at hempty

/-! ### What the result depends on -/

/-- What there is at a node: the keys of an object, in their order, or the whole of another value. -/
inductive Node where
  | members (keys : List String)
  | leaf (v : Value)

def node : Value → Node
  | .object fields => .members (fields.map (·.1))
  | .null => .leaf .null
  | .bool b => .leaf (.bool b)
  | .number n => .leaf (.number n)
  | .string s => .leaf (.string s)
  | .array xs => .leaf (.array xs)

/-- The two values have the same node at every path that is not at or below one of these. -/
def AgreeOutside (paths : Set (List String)) (v w : Value) : Prop :=
  ∀ path, (∀ p ∈ paths, ¬ p <+: path) → (valueAt path v).map node = (valueAt path w).map node

/-- What agrees outside the paths agrees, at a member that is not listed, outside what is left of the paths. -/
theorem AgreeOutside.below {paths : Set (List String)} (hroot : [] ∉ paths) {v w : Value}
    (h : AgreeOutside paths v w) {key : String} {a b : Value} (hv : v.get key = some a) (hw : w.get key = some b) :
    AgreeOutside (below paths key) a b := by
  intro path hpath
  have hoff : ∀ p ∈ paths, ¬ p <+: key :: path := by
    intro p hp hprefix
    cases p with
    | nil => exact hroot hp
    | cons first rest =>
      obtain ⟨rfl, hrest⟩ := List.cons_prefix_cons.mp hprefix
      exact hpath rest hp hrest
  have hnode := h (key :: path) hoff
  rwa [valueAt, valueAt, hv, hw] at hnode

/-- The walk sees nothing at or below a listed path. -/
theorem blank_congr {paths : Set (List String)} (hroot : [] ∉ paths) {v w : Value} (hv : v.Keyed) (hw : w.Keyed)
    (h : AgreeOutside paths v w) : blank paths v = blank paths w := by
  induction hv generalizing paths w with
  | @object fields hnodup hfields ih =>
    have htop := Option.some.inj (h [] fun p hp hprefix => hroot (List.prefix_nil.mp hprefix ▸ hp))
    cases hw with
    | @object members hmembers hkeyed =>
      rw [blank_object, blank_object, Value.object.injEq]
      refine map_members_congr (Node.members.inj htop) fun key a b ha hb => ?_
      have hgeta := Value.get_of_mem hnodup ha
      have hgetb := Value.get_of_mem hmembers hb
      unfold blankMember
      split
      · rfl
      · next hkey => exact ih _ ha hkey (hkeyed _ hb) (h.below hroot hgeta hgetb)
    | _ => cases htop
  | _ =>
    have htop := Option.some.inj (h [] fun p hp hprefix => hroot (List.prefix_nil.mp hprefix ▸ hp))
    cases w with
    | object => cases htop
    | _ => rw [Node.leaf.inj htop]

/-- The walk leaves every other node as it is. -/
theorem agreeOutside_blank (paths : Set (List String)) (v : Value) : AgreeOutside paths v (blank paths v) := by
  intro path hpath
  induction path generalizing paths v with
  | nil =>
    show some (node v) = some (node (blank paths v))
    cases v with
    | object fields =>
      rw [blank_object, node, node, keys_blank]
    | _ => rw [blank_of_not_object rfl]
  | cons key rest ih =>
    rw [valueAt, valueAt, get_blank]
    cases v.get key with
    | none => rfl
    | some a =>
      have hkey : [key] ∉ paths := fun hlisted => hpath _ hlisted (List.prefix_append [key] rest)
      show (valueAt rest a).map node = (valueAt rest (blankMember paths key a)).map node
      rw [blankMember, if_neg hkey]
      exact ih _ a fun p hp hprefix => hpath (key :: p) hp (List.cons_prefix_cons.mpr ⟨rfl, hprefix⟩)

/-- Redaction is complete and local: the result depends neither on what is at a listed path nor on the order or the
number of times in which the paths are listed, a second time changes nothing, and every other node stays. -/
theorem redactFields_complete_local {v : Value} (hv : v.Keyed) (fields : List String) :
    (∀ w : Value, w.Keyed → AgreeOutside (listed fields) v w → redactFields v fields = redactFields w fields) ∧
    (∀ other, (∀ field, field ∈ other ↔ field ∈ fields) → redactFields v other = redactFields v fields) ∧
    redactFields (redactFields v fields) fields = redactFields v fields ∧
    AgreeOutside (listed fields) v (redactFields v fields) := by
  have hroot := nil_notMem_listed fields
  have hagree := agreeOutside_blank (listed fields) v
  refine ⟨fun w hw h => ?_, fun other hsame => ?_, ?_, ?_⟩
  · rw [redactFields_eq_blank hv, redactFields_eq_blank hw]
    exact blank_congr hroot hv hw h
  · have hlisted : listed other = listed fields := by
      ext path
      exact exists_congr fun field => and_congr_left fun _ => hsame field
    rw [redactFields_eq_blank hv, redactFields_eq_blank hv, hlisted]
  · rw [redactFields_eq_blank hv, redactFields_eq_blank (blank_keyed hv _)]
    exact (blank_congr hroot hv (blank_keyed hv _) hagree).symm
  · rw [redactFields_eq_blank hv]
    exact hagree

/-- A path, a path above it and a repetition, on a call with a member of each kind. -/
theorem redactFields_complete_local_credentials :
    let call (secret : Value) : Value := .object [("user", .string "admin"),
      ("credentials", .object [("api_key", secret), ("region", .string "eu")]), ("force", .bool true)]
    redactFields (call (.string "sk-1")) ["credentials.api_key", "force", "credentials.api_key"] =
      redactFields (call (.string "sk-1")) ["force", "credentials.api_key"] ∧
    redactFields (redactFields (call (.string "sk-1")) ["credentials", "credentials.api_key"])
        ["credentials", "credentials.api_key"] =
      redactFields (call (.string "sk-1")) ["credentials", "credentials.api_key"] := by
  intro call
  have hcall : (call (.string "sk-1")).Keyed := by
    refine Value.Keyed.cons (by decide) (Value.Keyed.string _) (Value.Keyed.cons (by decide) ?_
      (Value.Keyed.cons (by decide) (Value.Keyed.bool _) Value.Keyed.emptyObject))
    exact Value.Keyed.cons (by decide) (Value.Keyed.string _)
      (Value.Keyed.cons (by decide) (Value.Keyed.string _) Value.Keyed.emptyObject)
  exact ⟨(redactFields_complete_local hcall ["force", "credentials.api_key"]).2.1 _ fun field => by simp; tauto,
    (redactFields_complete_local hcall _).2.2.1⟩

end Redact

/-- The arguments as the message of `build_approval_blocks` shows them. -/
def ApprovalRequest.displayArgs (r : ApprovalRequest) : Value := Redact.redactFields r.toolArguments r.redactFields

theorem ApprovalRequest.displayArgs_hidden {r : ApprovalRequest} {field : String} (h : field ∈ r.redactFields) :
    Redact.Hidden (Redact.parts field) r.displayArgs := Redact.redactFields_hidden h r.toolArguments

end ThoughtGate
