import ThoughtGate.Approval.Redact
import ThoughtGate.Proxy.Handler

/-!
# The result of `initialize`

`protocol/capability.rs`, as `handle_initialize_method` uses it: the proxy's own capability is put into the upstream's result,
and the one for notifications is taken out. What both do along their paths is said once for any path (`created`, `removed`).

The member is put in only where all that the path leads through is missing or an object, though it is to be put in always;
and parents are taken out that were empty before (`initialize_result_iff`).
-/

namespace ThoughtGate

open Redact (valueAt valueAt_cons_insert_self valueAt_cons_insert_ne)

namespace Capability

/-! ### Along a path -/

/-- What a value is apart from its members. -/
def shape : Value → Option Value
  | .object _ => none
  | v => some v

/-- Neither path is a part of the other. -/
def Apart (p q : List String) : Prop := ¬ p <+: q ∧ ¬ q <+: p

/-- The value at a path is set, and the parents that are missing are made. -/
def created (v : Value) (path : List String) : Value → Value := path.foldr atEntry fun _ => v

/-- The member at a path is removed, and the parents in which nothing is left. -/
def removed : List String → List (String × Value) → List (String × Value)
  | [] => id
  | [key] => Value.removeField key
  | key :: rest => atObject key (removed rest)

/-- What the path leads through is missing or an object. -/
def Passable (path : List String) (v : Value) : Prop :=
  ∀ p w, p <+: path → p ≠ path → valueAt p v = some w → shape w = none

theorem shape_none {v : Value} (h : shape v = none) : ∃ fields, v = .object fields := by
  cases v with
  | object fields => exact ⟨fields, rfl⟩
  | _ => cases h

theorem get_of_shape {v w : Value} (h : shape v = some w) (key : String) : v.get key = none := by
  cases v with
  | object => cases h
  | _ => rfl

theorem valueAt_empty {path : List String} (h : path ≠ []) : valueAt path .emptyObject = none := by
  cases path with
  | nil => exact absurd rfl h
  | cons key rest => rfl

theorem valueAt_leaf {v w : Value} (h : shape v = some w) {path : List String} (hne : path ≠ []) : valueAt path v = none := by
  cases path with
  | nil => exact absurd rfl hne
  | cons key rest =>
    rw [valueAt, get_of_shape h]
    rfl

theorem valueAt_append (p q : List String) (v : Value) : valueAt (p ++ q) v = (valueAt p v).bind (valueAt q) := by
  induction p generalizing v with
  | nil => rfl
  | cons key p ih =>
    rw [List.cons_append, valueAt, valueAt, Option.bind_assoc]
    congr
    funext w
    exact ih w

theorem valueAt_cons {key : String} {v w : Value} (h : v.get key = some w) (rest : List String) :
    valueAt (key :: rest) v = valueAt rest w := by
  rw [valueAt, h]
  rfl

theorem valueAt_cons_none {key : String} {v : Value} (h : v.get key = none) (rest : List String) :
    valueAt (key :: rest) v = none := by
  rw [valueAt, h]
  rfl

theorem apart_cons {key : String} {p q : List String} : Apart (key :: p) (key :: q) ↔ Apart p q := by
  simp only [Apart, List.cons_prefix_cons, true_and]

theorem apart_append {p q r : List String} : Apart (p ++ q) (p ++ r) ↔ Apart q r := by
  simp only [Apart, List.prefix_append_right_inj]

theorem not_apart_nil (q : List String) : ¬ Apart [] q := fun h => h.1 List.nil_prefix

/-- Of a path through a member the rest goes through its value. -/
theorem passable_cons {key : String} {rest : List String} {v : Value} :
    Passable (key :: rest) v ↔ (∃ fields, v = .object fields) ∧ Passable rest ((v.get key).getD .emptyObject) := by
  constructor
  · intro h
    refine ⟨shape_none (h [] v List.nil_prefix (by simp) rfl), ?_⟩
    intro p w hp hne hw
    cases hget : v.get key with
    | none =>
      rw [hget, Option.getD_none] at hw
      cases p with
      | nil =>
        cases hw
        rfl
      | cons first p => cases hw
    | some x =>
      rw [hget, Option.getD_some] at hw
      refine h (key :: p) w (List.cons_prefix_cons.mpr ⟨rfl, hp⟩) (by simpa using hne) ?_
      rwa [valueAt_cons hget]
  · rintro ⟨⟨fields, rfl⟩, hrest⟩ p w hp hne hw
    cases p with
    | nil =>
      cases hw
      rfl
    | cons first p =>
      obtain ⟨rfl, hbegin⟩ := List.cons_prefix_cons.mp hp
      cases hget : (Value.object fields).get first with
      | none =>
        rw [valueAt_cons_none hget] at hw
        cases hw
      | some x =>
        rw [valueAt_cons hget] at hw
        rw [hget, Option.getD_some] at hrest
        exact hrest p w hbegin (by simpa using hne) hw

/-! ### Setting a member -/

section

variable {v : Value}

theorem created_object (key : String) (rest : List String) (fields : List (String × Value)) :
    created v (key :: rest) (.object fields) =
      .object (Value.insertField key (created v rest (((Value.object fields).get key).getD .emptyObject)) fields) := rfl

theorem created_leaf {w x : Value} (h : shape w = some x) (key : String) (rest : List String) :
    created v (key :: rest) w = w := by
  cases w with
  | object => cases h
  | _ => rfl

theorem shape_created (w : Value) (key : String) (rest : List String) : shape (created v (key :: rest) w) = shape w := by
  cases w with
  | object => rfl
  | _ => rfl

/-- The value is at the path exactly where it can be put there. -/
theorem valueAt_created_iff {path : List String} {w : Value} :
    valueAt path (created v path w) = some v ↔ Passable path w := by
  induction path generalizing w with
  | nil =>
    simp only [created, List.foldr_nil, valueAt, true_iff]
    intro p x hp hne
    exact absurd (List.prefix_nil.mp hp) hne
  | cons key rest ih =>
    rw [passable_cons, ← ih]
    cases hshape : shape w with
    | none =>
      obtain ⟨fields, rfl⟩ := shape_none hshape
      rw [created_object, valueAt_cons_insert_self]
      simp
    | some x =>
      have hno : ¬ ∃ fields, w = .object fields := by
        rintro ⟨fields, rfl⟩
        cases hshape
      rw [created_leaf hshape, valueAt_cons_none (get_of_shape hshape key)]
      simp [hno]

theorem valueAt_created_apart {p path : List String} (h : Apart p path) (w : Value) :
    valueAt p (created v path w) = valueAt p w := by
  induction path generalizing p w with
  | nil => exact absurd List.nil_prefix h.2
  | cons key rest ih =>
    cases p with
    | nil => exact absurd h (not_apart_nil _)
    | cons first p =>
      cases w with
      | object fields =>
        rw [created_object]
        by_cases hkey : first = key
        · subst hkey
          have hrest := apart_cons.mp h
          rw [valueAt_cons_insert_self, ih hrest]
          cases hget : (Value.object fields).get first with
          | none =>
            have hne : p ≠ [] := fun hnil => not_apart_nil rest (hnil ▸ hrest)
            rw [valueAt_cons_none hget, Option.getD_none, valueAt_empty hne]
          | some x => rw [valueAt_cons hget, Option.getD_some]
        · exact valueAt_cons_insert_ne hkey p _ fields
      | _ => rfl

/-- A parent that is there has the change in it. -/
theorem valueAt_created_parent {p : List String} (rest : List String) {w x : Value} (h : valueAt p w = some x) :
    valueAt p (created v (p ++ rest) w) = some (created v rest x) := by
  induction p generalizing w with
  | nil =>
    cases h
    rfl
  | cons key p ih =>
    cases w with
    | object fields =>
      obtain ⟨y, hget, hy⟩ := Option.bind_eq_some_iff.mp h
      rw [List.cons_append, created_object, valueAt_cons_insert_self, hget, Option.getD_some]
      exact ih hy
    | _ => cases h

/-- Nothing is changed where nothing is changed at one of the parents. -/
theorem created_eq_self {p : List String} {rest : List String} {w x : Value} (h : valueAt p w = some x)
    (hx : created v rest x = x) : created v (p ++ rest) w = w := by
  induction p generalizing w with
  | nil =>
    cases h
    exact hx
  | cons key p ih =>
    cases w with
    | object fields =>
      obtain ⟨y, hget, hy⟩ := Option.bind_eq_some_iff.mp h
      rw [List.cons_append, created_object, hget, Option.getD_some, ih hy, Value.insertField_get hget]
    | _ => cases h

end

/-! ### Removing a member -/

/-- What is left of a parent when the rest of the path has been removed from it. -/
def remnant (rest : List String) : Value → Option Value
  | .object members => if (removed rest members).isEmpty then none else some (.object (removed rest members))
  | v => some v

theorem get_atObject_self (key : String) (rest : List String) (fields : List (String × Value)) :
    (Value.object (atObject key (removed rest) fields)).get key = ((Value.object fields).get key).bind (remnant rest) := by
  unfold atObject
  split
  · rename_i members hget
    rw [hget, Option.bind_some, remnant]
    split
    · exact Value.get_removeField_self key fields
    · exact Value.get_insertField_self key _ fields
  · rename_i hother
    cases hget : (Value.object fields).get key with
    | none => rfl
    | some x =>
      cases x with
      | object members => exact absurd hget (hother members)
      | _ => rfl

theorem get_atObject_ne {key other : String} (hne : other ≠ key) (rest : List String) (fields : List (String × Value)) :
    (Value.object (atObject key (removed rest) fields)).get other = (Value.object fields).get other := by
  unfold atObject
  split
  · split
    · exact Value.get_removeField_ne hne fields
    · exact Value.get_insertField_ne hne _ fields
  · rfl

theorem removed_cons (key : String) {rest : List String} (h : rest ≠ []) : removed (key :: rest) = atObject key (removed rest) := by
  cases rest with
  | nil => exact absurd rfl h
  | cons next rest => rfl

theorem valueAt_removed_self {path : List String} (h : path ≠ []) (fields : List (String × Value)) :
    valueAt path (.object (removed path fields)) = none := by
  induction path generalizing fields with
  | nil => exact absurd rfl h
  | cons key rest ih =>
    by_cases hrest : rest = []
    · subst hrest
      exact valueAt_cons_none (Value.get_removeField_self key fields) []
    · rw [removed_cons key hrest, valueAt, get_atObject_self]
      cases (Value.object fields).get key with
      | none => rfl
      | some x =>
        cases x with
        | object members =>
          rw [Option.bind_some, remnant]
          split
          · rfl
          · exact ih hrest members
        | _ =>
          rw [Option.bind_some, remnant]
          · exact valueAt_leaf rfl hrest
          · simp

theorem valueAt_removed_apart {p path : List String} (h : Apart p path) (fields : List (String × Value)) :
    valueAt p (.object (removed path fields)) = valueAt p (.object fields) := by
  induction path generalizing p fields with
  | nil => exact absurd List.nil_prefix h.2
  | cons key rest ih =>
    cases p with
    | nil => exact absurd h (not_apart_nil _)
    | cons first p =>
      by_cases hkey : first = key
      · subst hkey
        have hapart := apart_cons.mp h
        have hne : p ≠ [] := fun hnil => not_apart_nil rest (hnil ▸ hapart)
        have hrest : rest ≠ [] := by
          rintro rfl
          exact hapart.2 List.nil_prefix
        rw [removed_cons first hrest, valueAt, valueAt, get_atObject_self]
        cases (Value.object fields).get first with
        | none => rfl
        | some x =>
          cases x with
          | object members =>
            rw [Option.bind_some, Option.bind_some, ← ih hapart members, remnant]
            split
            · rename_i hempty
              rw [List.isEmpty_iff.mp hempty]
              exact (valueAt_empty hne).symm
            · rfl
          | _ => rfl
      · by_cases hrest : rest = []
        · subst hrest
          rw [valueAt, valueAt]
          exact congrArg (Option.bind · (valueAt p)) (Value.get_removeField_ne hkey fields)
        · rw [removed_cons key hrest, valueAt, valueAt, get_atObject_ne hkey]

/-- A parent is what is left of it. -/
theorem valueAt_removed_parent {p rest : List String} (hp : p ≠ []) (hrest : rest ≠ []) (fields : List (String × Value)) :
    valueAt p (.object (removed (p ++ rest) fields)) = (valueAt p (.object fields)).bind (remnant rest) := by
  induction p generalizing fields with
  | nil => exact absurd rfl hp
  | cons key p ih =>
    rw [List.cons_append, removed_cons key (List.append_ne_nil_of_right_ne_nil p hrest), valueAt, valueAt, get_atObject_self]
    by_cases hnil : p = []
    · subst hnil
      rw [List.nil_append]
      cases (Value.object fields).get key with
      | none => rfl
      | some x =>
        show (remnant rest x).bind some = remnant rest x
        exact Option.bind_fun_some _
    · cases (Value.object fields).get key with
      | none => rfl
      | some x =>
        cases x with
        | object members =>
          rw [Option.bind_some, Option.bind_some, ← ih hnil members, remnant]
          split
          · rename_i hempty
            rw [List.isEmpty_iff.mp hempty]
            exact (valueAt_empty hnil).symm
          · rfl
        | _ =>
          rw [Option.bind_some, Option.bind_some, remnant, Option.bind_some]
          · rw [valueAt_leaf rfl hnil]
            rfl
          · simp

theorem removed_nil (path : List String) : removed path [] = [] := by
  rcases path with _ | ⟨key, _ | ⟨next, rest⟩⟩
  · rfl
  · rfl
  · rfl

/-- Where nothing is left, there was nothing off the path. -/
theorem not_apart_of_removed {path : List String} {fields : List (String × Value)} (h : removed path fields = [])
    {p : List String} (hp : (valueAt p (.object fields)).isSome = true) : ¬ Apart p path := by
  intro hapart
  have hne : p ≠ [] := fun hnil => not_apart_nil path (hnil ▸ hapart)
  rw [← valueAt_removed_apart hapart, h] at hp
  exact absurd (valueAt_empty hne) (Option.isSome_iff_ne_none.mp hp)

/-- Where nothing is left, the member was there, or one of the parents was empty before. -/
theorem member_of_removed {path : List String} (hpath : path ≠ []) {fields : List (String × Value)}
    (h : removed path fields = []) : (valueAt path (.object fields)).isSome = true ∨
      ∃ p, p <+: path ∧ p ≠ path ∧ valueAt p (.object fields) = some .emptyObject := by
  induction path generalizing fields with
  | nil => exact absurd rfl hpath
  | cons key rest ih =>
    cases fields with
    | nil => exact Or.inr ⟨[], List.nil_prefix, by simp, rfl⟩
    | cons f fields =>
      by_cases hrest : rest = []
      · subst hrest
        have hkey : f.1 = key := by
          have hall := List.filter_eq_nil_iff.mp h f List.mem_cons_self
          simpa using hall
        refine Or.inl ?_
        rw [valueAt, Value.get, List.find?_cons, hkey, beq_self_eq_true]
        rfl
      · rw [removed_cons key hrest, atObject] at h
        split at h
        · rename_i members hget
          split at h
          · rename_i hempty
            rcases ih hrest (List.isEmpty_iff.mp hempty) with hmember | ⟨p, hp, hne, hp'⟩
            · rw [valueAt_cons hget]
              exact Or.inl hmember
            · refine Or.inr ⟨key :: p, List.cons_prefix_cons.mpr ⟨rfl, hp⟩, by simpa using hne, ?_⟩
              rwa [valueAt_cons hget]
          · rw [Value.insertField] at h
            split at h
            · cases h
            · cases h
        · cases h

theorem removed_twice {path : List String} (hpath : path ≠ []) (fields : List (String × Value)) :
    removed path (removed path fields) = removed path fields := by
  induction path generalizing fields with
  | nil => exact absurd rfl hpath
  | cons key rest ih =>
    by_cases hrest : rest = []
    · subst hrest
      exact Value.removeField_twice key fields
    · have hget := get_atObject_self key rest fields
      rw [removed_cons key hrest]
      generalize hafter : atObject key (removed rest) fields = after at hget ⊢
      unfold atObject
      split
      · rename_i left hleft
        rw [hget] at hleft
        obtain ⟨x, hx, hremnant⟩ := Option.bind_eq_some_iff.mp hleft
        cases x with
        | object members =>
          rw [remnant] at hremnant
          split at hremnant
          · cases hremnant
          · rename_i hne
            cases hremnant
            rw [ih hrest members, if_neg hne]
            exact Value.insertField_get (hget.trans (by rw [hx, Option.bind_some, remnant, if_neg hne]))
        | _ => cases hremnant
      · rfl

/-! ### The capabilities -/

/-- `capabilities.tasks.requests["tools/call"]`. -/
def taskPath : List String := ["capabilities", "tasks", "requests", "tools/call"]

/-- `capabilities.notifications.tasks.status`. -/
def ssePath : List String := ["capabilities", "notifications", "tasks", "status"]

/-- Whether `true` stands at the path. -/
def extractSupport (path : List String) (result : Value) : Bool :=
  ((valueAt path result).bind Value.asBool).getD false

/-- `extract_upstream_task_support`. -/
def extractUpstreamTaskSupport : Value → Bool := extractSupport taskPath

/-- `extract_upstream_sse_support`. -/
def extractUpstreamSseSupport : Value → Bool := extractSupport ssePath

/-- What `handle_initialize_method` makes of the upstream's result. -/
def rewritten (result : Value) : Value := stripSseCapability (injectTaskCapability result)

theorem injectTaskCapability_eq : injectTaskCapability = created (.bool true) taskPath := rfl

theorem extractSupport_iff {path : List String} {result : Value} :
    extractSupport path result = true ↔ valueAt path result = some (.bool true) := by
  rw [extractSupport]
  constructor
  · intro h
    cases hvalue : valueAt path result with
    | none =>
      rw [hvalue] at h
      cases h
    | some v =>
      rw [hvalue] at h
      cases v with
      | bool b =>
        have hb : b = true := h
        rw [hb]
      | _ => cases h
  · intro h
    rw [h]
    rfl

theorem taskPath_apart : Apart taskPath ssePath := by
  constructor
  · decide
  · decide

/-- Below `capabilities`, what is stripped is removed. -/
theorem strip_object {fields members : List (String × Value)}
    (h : (Value.object fields).get "capabilities" = some (.object members)) : stripSseCapability (.object fields) =
      .object (Value.insertField "capabilities" (.object (removed ssePath.tail members)) fields) := by
  unfold stripSseCapability
  rw [h]
  rfl

theorem strip_other {v : Value} (h : ∀ members, v.get "capabilities" ≠ some (.object members)) :
    stripSseCapability v = v := by
  unfold stripSseCapability
  split
  · rename_i fields capabilities hobject
    obtain ⟨x, hget, hx⟩ := Option.bind_eq_some_iff.mp hobject
    cases x with
    | object members => exact absurd hget (h members)
    | _ => cases hx
  · rfl

/-- The two cases of a value that is stripped. -/
theorem strip_cases (v : Value) :
    (∃ fields members, v = .object fields ∧ v.get "capabilities" = some (.object members)) ∨
      ∀ members, v.get "capabilities" ≠ some (.object members) := by
  by_cases h : ∃ members, v.get "capabilities" = some (.object members)
  · obtain ⟨members, hget⟩ := h
    cases v with
    | object fields => exact Or.inl ⟨fields, members, rfl, hget⟩
    | _ => cases hget
  · exact Or.inr fun members hget => h ⟨members, hget⟩

theorem valueAt_strip_apart {p : List String} (h : Apart p ssePath) (v : Value) :
    valueAt p (stripSseCapability v) = valueAt p v := by
  rcases strip_cases v with ⟨fields, members, rfl, hget⟩ | hother
  · rw [strip_object hget]
    cases p with
    | nil => exact absurd h (not_apart_nil _)
    | cons first p =>
      by_cases hkey : first = "capabilities"
      · subst hkey
        rw [valueAt_cons_insert_self, valueAt_cons hget]
        exact valueAt_removed_apart (apart_cons.mp h) members
      · exact valueAt_cons_insert_ne hkey p _ fields
  · rw [strip_other hother]

/-- The result and its `capabilities` stay what they are. -/
theorem shape_strip {p : List String} (hp : p <+: ["capabilities"]) {v x : Value} (h : valueAt p v = some x) :
    ∃ y, valueAt p (stripSseCapability v) = some y ∧ shape y = shape x := by
  rcases strip_cases v with ⟨fields, members, rfl, hget⟩ | hother
  · rw [strip_object hget]
    cases p with
    | nil =>
      cases h
      exact ⟨_, rfl, rfl⟩
    | cons first p =>
      obtain ⟨rfl, hnil⟩ := List.cons_prefix_cons.mp hp
      obtain rfl := List.prefix_nil.mp hnil
      rw [valueAt_cons hget] at h
      cases h
      exact ⟨_, valueAt_cons_insert_self _ [] _ fields, rfl⟩
  · rw [strip_other hother]
    exact ⟨x, h, rfl⟩

/-- Below `capabilities`, a parent is what is left of it. -/
theorem valueAt_strip_parent {p rest : List String} (hpath : ssePath.tail = p ++ rest) (hp : p ≠ []) (hrest : rest ≠ [])
    (v : Value) : valueAt ("capabilities" :: p) (stripSseCapability v) =
      (valueAt ("capabilities" :: p) v).bind (remnant rest) := by
  rcases strip_cases v with ⟨fields, members, rfl, hget⟩ | hother
  · rw [strip_object hget, valueAt_cons_insert_self, valueAt_cons hget, hpath, valueAt_removed_parent hp hrest]
  · rw [strip_other hother]
    cases hget : v.get "capabilities" with
    | none =>
      rw [valueAt_cons_none hget]
      rfl
    | some x =>
      cases x with
      | object members => exact absurd hget (hother members)
      | _ =>
        rw [valueAt_cons hget, valueAt_leaf rfl hp]
        rfl

theorem valueAt_strip_self (v : Value) : valueAt ssePath (stripSseCapability v) = none := by
  rcases strip_cases v with ⟨fields, members, rfl, hget⟩ | hother
  · rw [strip_object hget, ssePath, valueAt_cons_insert_self]
    exact valueAt_removed_self (by simp) members
  · rw [strip_other hother, ssePath]
    cases hget : v.get "capabilities" with
    | none => exact valueAt_cons_none hget _
    | some x =>
      cases x with
      | object members => exact absurd hget (hother members)
      | _ =>
        rw [valueAt_cons hget]
        rfl

theorem strip_twice (v : Value) : stripSseCapability (stripSseCapability v) = stripSseCapability v := by
  rcases strip_cases v with ⟨fields, members, rfl, hget⟩ | hother
  · rw [strip_object hget, strip_object (Value.get_insertField_self _ _ fields), Value.insertField_over,
      removed_twice (by decide)]
  · rw [strip_other hother, strip_other hother]

/-! ### The result -/

/-- Nothing is left of the parent but the way to the member that is removed, and the member is there. -/
def EmptiedByRemoval (p : List String) (result : Value) : Prop :=
  (valueAt ssePath result).isSome = true ∧ ∀ q, p <+: q → (valueAt q result).isSome = true → ¬ Apart q ssePath

/-- Task support is announced, the notifications are not; whatever is neither on nor below the two paths is unchanged; on the
paths, what was there stays, an object or the same value, unless it has become empty by the removal, and nothing is made for
the member that is removed; and nothing changes when it is done again. -/
structure Rewritten (result result' : Value) : Prop where
  taskSupport : extractUpstreamTaskSupport result' = true
  noSseSupport : extractUpstreamSseSupport result' = false
  outside : ∀ p, Apart p taskPath → Apart p ssePath → valueAt p result' = valueAt p result
  parents : ∀ p w, p <+: taskPath ∧ p ≠ taskPath ∨ p <+: ssePath ∧ p ≠ ssePath → valueAt p result = some w →
    ¬ EmptiedByRemoval p result → ∃ w', valueAt p result' = some w' ∧ shape w' = shape w
  absent : ∀ p, p <+: ssePath → ¬ p <+: taskPath → valueAt p result = none → valueAt p result' = none
  again : rewritten result' = result'

/-- The parents that lead to the member for tasks are missing or objects, and those that lead to the member for notifications
are not empty. -/
structure Plain (result : Value) : Prop where
  passable : Passable taskPath result
  nonempty : ∀ p ∈ [["capabilities", "notifications"], ["capabilities", "notifications", "tasks"]],
    valueAt p result ≠ some .emptyObject

section

variable {result : Value}

theorem taskSupport_iff : extractUpstreamTaskSupport (rewritten result) = true ↔ Passable taskPath result := by
  rw [extractUpstreamTaskSupport, extractSupport_iff, rewritten, valueAt_strip_apart taskPath_apart,
    injectTaskCapability_eq, valueAt_created_iff]

theorem noSseSupport (result : Value) : extractUpstreamSseSupport (rewritten result) = false := by
  rw [extractUpstreamSseSupport, extractSupport, rewritten, valueAt_strip_self]
  rfl

theorem valueAt_rewritten_apart {p : List String} (htask : Apart p taskPath) (hsse : Apart p ssePath) :
    valueAt p (rewritten result) = valueAt p result := by
  rw [rewritten, valueAt_strip_apart hsse, injectTaskCapability_eq, valueAt_created_apart htask]

/-- Below `capabilities`, the paths are apart. -/
theorem parents_of_taskPath {p : List String} (h : p <+: taskPath) : p <+: ["capabilities"] ∨ Apart p ssePath := by
  rcases p with _ | ⟨first, _ | ⟨second, p⟩⟩
  · exact Or.inl List.nil_prefix
  · obtain ⟨rfl, -⟩ := List.cons_prefix_cons.mp h
    exact Or.inl (List.prefix_refl _)
  · obtain ⟨rfl, hsecond⟩ := List.cons_prefix_cons.mp h
    obtain ⟨rfl, -⟩ := List.cons_prefix_cons.mp hsecond
    exact Or.inr (by simp [Apart, ssePath])

theorem parents_of_ssePath {p : List String} (h : p <+: ssePath) (hne : p ≠ ssePath) :
    p <+: ["capabilities"] ∨ ∃ q rest, p = "capabilities" :: q ∧ ssePath.tail = q ++ rest ∧ q ≠ [] ∧ rest ≠ [] ∧
      Apart p taskPath := by
  rcases p with _ | ⟨first, _ | ⟨second, p⟩⟩
  · exact Or.inl List.nil_prefix
  · obtain ⟨rfl, -⟩ := List.cons_prefix_cons.mp h
    exact Or.inl (List.prefix_refl _)
  · obtain ⟨rfl, hsecond⟩ := List.cons_prefix_cons.mp h
    obtain ⟨rest, hrest⟩ := hsecond
    obtain ⟨rfl, -⟩ := List.cons.inj hrest
    refine Or.inr ⟨_, rest, rfl, hrest.symm, List.cons_ne_nil _ _, ?_, by simp [Apart, taskPath]⟩
    rintro rfl
    rw [List.append_nil] at hrest
    exact hne (congrArg ("capabilities" :: ·) hrest)

/-- On the path to the member for tasks, what was there is there, an object or the same. -/
theorem shape_rewritten_task {p : List String} (hp : p <+: taskPath) (hne : p ≠ taskPath) {w : Value}
    (h : valueAt p result = some w) : ∃ w', valueAt p (rewritten result) = some w' ∧ shape w' = shape w := by
  obtain ⟨rest, hrest⟩ := hp
  have hcreated : ∃ w', valueAt p (injectTaskCapability result) = some w' ∧ shape w' = shape w := by
    rw [injectTaskCapability_eq, ← hrest]
    cases rest with
    | nil => exact absurd (by simpa using hrest) hne
    | cons key rest => exact ⟨_, valueAt_created_parent (key :: rest) h, shape_created w key rest⟩
  obtain ⟨x, hx, hshape⟩ := hcreated
  rcases parents_of_taskPath ⟨rest, hrest⟩ with htop | hapart
  · obtain ⟨y, hy, hsame⟩ := shape_strip htop hx
    exact ⟨y, hy, hsame.trans hshape⟩
  · exact ⟨x, by rw [rewritten, valueAt_strip_apart hapart, hx], hshape⟩

/-- Nothing is put in a second time. -/
theorem inject_rewritten (result : Value) : injectTaskCapability (rewritten result) = rewritten result := by
  by_cases hpass : Passable taskPath result
  · have hvalue := extractSupport_iff.mp (taskSupport_iff.mpr hpass)
    exact @created_eq_self (.bool true) taskPath [] _ _ hvalue rfl
  · simp only [Passable, not_forall] at hpass
    obtain ⟨p, w, hp, hne, hw, hleaf⟩ := hpass
    obtain ⟨w', hw', hshape⟩ := shape_rewritten_task hp hne hw
    obtain ⟨x, hx⟩ := Option.ne_none_iff_exists'.mp (hshape ▸ hleaf)
    obtain ⟨rest, hrest⟩ := hp
    cases rest with
    | nil => exact absurd (by simpa using hrest) hne
    | cons key rest =>
      have hself := created_eq_self hw' (@created_leaf (.bool true) _ _ hx key rest)
      rwa [hrest] at hself

theorem rewritten_twice (result : Value) : rewritten (rewritten result) = rewritten result := by
  rw [rewritten, inject_rewritten]
  exact strip_twice _

/-- A parent of the member that is removed is what is left of it. -/
theorem valueAt_rewritten_parent {q rest : List String} (hpath : ssePath.tail = q ++ rest) (hq : q ≠ []) (hrest : rest ≠ [])
    (hapart : Apart ("capabilities" :: q) taskPath) : valueAt ("capabilities" :: q) (rewritten result) =
      (valueAt ("capabilities" :: q) result).bind (remnant rest) := by
  rw [rewritten, valueAt_strip_parent hpath hq hrest, injectTaskCapability_eq, valueAt_created_apart hapart]

theorem sse_parents : ∀ p ∈ [["capabilities", "notifications"], ["capabilities", "notifications", "tasks"]],
    p <+: ssePath ∧ p ≠ ssePath ∧ ¬ p <+: ["capabilities"] := by decide

theorem sse_parent_mem {q rest : List String} (hpath : ssePath.tail = q ++ rest) (hq : q ≠ []) (hrest : rest ≠ []) :
    "capabilities" :: q ∈ [["capabilities", "notifications"], ["capabilities", "notifications", "tasks"]] := by
  rcases q with _ | ⟨first, _ | ⟨second, _ | ⟨third, q⟩⟩⟩
  · exact absurd rfl hq
  · cases hpath
    exact List.mem_cons_self
  · cases hpath
    exact List.mem_cons_of_mem _ List.mem_cons_self
  · have hnil : q = [] ∧ rest = [] := by
      rw [← List.append_eq_nil_iff]
      exact (List.cons.inj (List.cons.inj (List.cons.inj hpath).2).2).2.symm
    exact absurd hnil.2 hrest

/-- Nothing is left of a parent that is not empty only where the member is all that it has. -/
theorem emptied_of_removed (hplain : Plain result) {q rest : List String} (hpath : ssePath.tail = q ++ rest) (hq : q ≠ [])
    (hrest : rest ≠ []) {members : List (String × Value)}
    (h : valueAt ("capabilities" :: q) result = some (.object members)) (hempty : removed rest members = []) :
    EmptiedByRemoval ("capabilities" :: q) result := by
  have hsse : ssePath = "capabilities" :: q ++ rest := congrArg ("capabilities" :: ·) hpath
  rcases member_of_removed hrest hempty with hmember | ⟨p, ⟨last, hp⟩, hne, hvalue⟩
  · constructor
    · rw [hsse, valueAt_append, h]
      exact hmember
    · rintro _ ⟨p, rfl⟩ hp
      rw [hsse, apart_append]
      rw [valueAt_append, h] at hp
      exact not_apart_of_removed hempty hp
  · have hlast : last ≠ [] := by
      rintro rfl
      exact hne (by simpa using hp)
    have hmem := sse_parent_mem (q := q ++ p) (by rw [hpath, ← hp, List.append_assoc])
      (List.append_ne_nil_of_left_ne_nil hq p) hlast
    refine absurd ?_ (hplain.nonempty _ hmem)
    rw [← List.cons_append, valueAt_append, h]
    exact hvalue

/-- On the path to the member that is removed, what was there is there, an object or the same, unless nothing but the member
was in it. -/
theorem shape_rewritten_sse (hplain : Plain result) {p : List String} (hp : p <+: ssePath) (hne : p ≠ ssePath) {w : Value}
    (h : valueAt p result = some w) (hemptied : ¬ EmptiedByRemoval p result) :
    ∃ w', valueAt p (rewritten result) = some w' ∧ shape w' = shape w := by
  rcases parents_of_ssePath hp hne with htop | ⟨q, rest, rfl, hpath, hq, hrest, hapart⟩
  · refine shape_rewritten_task (htop.trans (by decide)) ?_ h
    rintro rfl
    exact absurd htop (by decide)
  · rw [valueAt_rewritten_parent hpath hq hrest hapart, h, Option.bind_some]
    cases w with
    | object members =>
      rw [remnant]
      split
      · rename_i hempty
        exact absurd (emptied_of_removed hplain hpath hq hrest h (List.isEmpty_iff.mp hempty)) hemptied
      · exact ⟨_, rfl, rfl⟩
    | _ => exact ⟨_, rfl, rfl⟩

/-- The rewriting of an initialize result is as it should be exactly where the result is plain. -/
theorem initialize_result_iff (fields : List (String × Value)) :
    Rewritten (.object fields) (rewritten (.object fields)) ↔ Plain (.object fields) := by
  constructor
  · intro h
    refine ⟨taskSupport_iff.mp h.taskSupport, fun p hp hempty => ?_⟩
    obtain ⟨hbegin, hne, hbelow⟩ := sse_parents p hp
    rcases parents_of_ssePath hbegin hne with htop | ⟨q, rest, rfl, hpath, hq, hrest, hapart⟩
    · exact absurd htop hbelow
    · have hemptied : ¬ EmptiedByRemoval ("capabilities" :: q) (.object fields) := by
        rintro ⟨hmember, -⟩
        have hsse : ssePath = "capabilities" :: q ++ rest := congrArg ("capabilities" :: ·) hpath
        rw [hsse, valueAt_append, hempty, Option.bind_some, valueAt_empty hrest] at hmember
        cases hmember
      obtain ⟨w, hw, -⟩ := h.parents _ _ (Or.inr ⟨hbegin, hne⟩) hempty hemptied
      rw [valueAt_rewritten_parent hpath hq hrest hapart, hempty, Option.bind_some, Value.emptyObject, remnant,
        removed_nil] at hw
      cases hw
  · intro hplain
    refine ⟨taskSupport_iff.mpr hplain.passable, noSseSupport _, fun p => valueAt_rewritten_apart, ?_, ?_, rewritten_twice _⟩
    · rintro p w (⟨hp, hne⟩ | ⟨hp, hne⟩) hw hemptied
      · exact shape_rewritten_task hp hne hw
      · exact shape_rewritten_sse hplain hp hne hw hemptied
    · intro p hp htask hnone
      by_cases hne : p = ssePath
      · rw [hne]
        exact valueAt_strip_self _
      · rcases parents_of_ssePath hp hne with htop | ⟨q, rest, rfl, hpath, hq, hrest, hapart⟩
        · exact absurd (htop.trans (by decide)) htask
        · rw [valueAt_rewritten_parent hpath hq hrest hapart, hnone]
          rfl

end

/-- Nothing is announced beside `null`; and notifications that announce nothing are not kept. -/
theorem initialize_result_not_rewritten :
    ¬ Rewritten (.object [("capabilities", .null)]) (rewritten (.object [("capabilities", .null)])) ∧
      ¬ Rewritten (.object [("capabilities", .object [("notifications", .emptyObject)])])
        (rewritten (.object [("capabilities", .object [("notifications", .emptyObject)])])) := by
  constructor
  · intro h
    exact absurd h.taskSupport (by decide)
  · intro h
    have hemptied : ¬ EmptiedByRemoval ["capabilities", "notifications"]
        (.object [("capabilities", .object [("notifications", .emptyObject)])]) := by
      rintro ⟨hmember, -⟩
      exact absurd hmember (by decide)
    obtain ⟨w, hw, -⟩ := h.parents ["capabilities", "notifications"] .emptyObject (by decide) rfl hemptied
    have hgone : valueAt ["capabilities", "notifications"]
        (rewritten (.object [("capabilities", .object [("notifications", .emptyObject)])])) = none := rfl
    cases hgone.symm.trans hw

end Capability

end ThoughtGate
