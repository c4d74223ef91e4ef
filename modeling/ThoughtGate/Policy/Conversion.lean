import ThoughtGate.Base.Document
import ThoughtGate.Base.Literal
import ThoughtGate.Base.Reader
import ThoughtGate.Policy.Engine
import Mathlib.Tactic.Choose

/-!
# What Cedar sees of the arguments

`json_to_cedar_expr` of `policy/engine.rs`, up to the equality of Cedar's values: sets are sets and records are maps. Two
values of JSON become equal exactly when they are related by the congruence that the comments of the code allow for
(`conversion_identifies_iff`): arrays lose the order and the repetition of their elements, `null` is the empty record, and
integers that are no `Long` are their decimal texts.
-/

namespace ThoughtGate

/-! ### Equality of Cedar's values -/

namespace RestrictedExpression

/-- The values are equal, sets as sets and records as maps: the functions say which element is equal to which. -/
inductive Same : RestrictedExpression → RestrictedExpression → Prop
  | bool (b : Bool) : Same (.bool b) (.bool b)
  | long (n : Int) : Same (.long n) (.long n)
  | string (s : String) : Same (.string s) (.string s)
  | set {xs ys : List RestrictedExpression} (f g : RestrictedExpression → RestrictedExpression) :
      (∀ x ∈ xs, f x ∈ ys) → (∀ x ∈ xs, Same x (f x)) → (∀ y ∈ ys, g y ∈ xs) → (∀ y ∈ ys, Same (g y) y) →
      Same (.set xs) (.set ys)
  | record {fs gs : List (String × RestrictedExpression)} (f g : String × RestrictedExpression → RestrictedExpression) :
      (∀ m ∈ fs, (m.1, f m) ∈ gs) → (∀ m ∈ fs, Same m.2 (f m)) → (∀ m ∈ gs, (m.1, g m) ∈ fs) →
      (∀ m ∈ gs, Same (g m) m.2) → Same (.record fs) (.record gs)

instance : Nonempty RestrictedExpression := ⟨.bool true⟩

theorem same_set_iff {xs ys : List RestrictedExpression} :
    Same (.set xs) (.set ys) ↔ (∀ x ∈ xs, ∃ y ∈ ys, Same x y) ∧ ∀ y ∈ ys, ∃ x ∈ xs, Same x y := by
  constructor
  · intro h
    cases h with
    | set f g hf hsame hg hsame' =>
      exact ⟨fun x hx => ⟨f x, hf x hx, hsame x hx⟩, fun y hy => ⟨g y, hg y hy, hsame' y hy⟩⟩
  · rintro ⟨hxs, hys⟩
    choose! f hf hsame using hxs
    choose! g hg hsame' using hys
    exact .set f g hf hsame hg hsame'

theorem same_record_iff {fs gs : List (String × RestrictedExpression)} :
    Same (.record fs) (.record gs) ↔ (∀ m ∈ fs, ∃ e, (m.1, e) ∈ gs ∧ Same m.2 e) ∧
      ∀ m ∈ gs, ∃ e, (m.1, e) ∈ fs ∧ Same e m.2 := by
  constructor
  · intro h
    cases h with
    | record f g hf hsame hg hsame' =>
      exact ⟨fun m hm => ⟨f m, hf m hm, hsame m hm⟩, fun m hm => ⟨g m, hg m hm, hsame' m hm⟩⟩
  · rintro ⟨hfs, hgs⟩
    choose! f hf hsame using hfs
    choose! g hg hsame' using hgs
    exact .record f g hf hsame hg hsame'

mutual

theorem Same.refl : ∀ e : RestrictedExpression, Same e e
  | .bool b => .bool b
  | .long n => .long n
  | .string s => .string s
  | .set xs => by
    have hrefl := refl_items xs
    exact same_set_iff.mpr ⟨fun x hx => ⟨x, hx, hrefl x hx⟩, fun x hx => ⟨x, hx, hrefl x hx⟩⟩
  | .record fs => by
    have hrefl := refl_fields fs
    exact same_record_iff.mpr ⟨fun m hm => ⟨m.2, hm, hrefl m hm⟩, fun m hm => ⟨m.2, hm, hrefl m hm⟩⟩

theorem refl_items : ∀ xs : List RestrictedExpression, ∀ x ∈ xs, Same x x
  | [] => by simp
  | x :: xs => List.forall_mem_cons.mpr ⟨Same.refl x, refl_items xs⟩

theorem refl_fields : ∀ fs : List (String × RestrictedExpression), ∀ m ∈ fs, Same m.2 m.2
  | [] => by simp
  | (_, e) :: fs => List.forall_mem_cons.mpr ⟨Same.refl e, refl_fields fs⟩

end

theorem Same.symm {e e' : RestrictedExpression} (h : Same e e') : Same e' e := by
  induction h with
  | bool b => exact .bool b
  | long n => exact .long n
  | string s => exact .string s
  | set f g hf _ hg _ ih ih' => exact .set g f hg ih' hf ih
  | record f g hf _ hg _ ih ih' => exact .record g f hg ih' hf ih

theorem Same.trans {e e' e'' : RestrictedExpression} (h : Same e e') (h' : Same e' e'') : Same e e'' := by
  induction h generalizing e'' with
  | bool b => exact h'
  | long n => exact h'
  | string s => exact h'
  | set f g hf hsame hg _ ih ih' =>
    cases h' with
    | set f' g' hf' hsame' hg' hback' =>
      refine .set (f' ∘ f) (g ∘ g') (fun x hx => hf' _ (hf x hx)) (fun x hx => ih x hx (hsame' _ (hf x hx)))
        (fun z hz => hg _ (hg' z hz)) fun z hz => ih' _ (hg' z hz) (hback' z hz)
  | record f g hf _ hg _ ih ih' =>
    cases h' with
    | record f' g' hf' hsame' hg' hback' =>
      refine .record (fun m => f' (m.1, f m)) (fun m => g (m.1, g' m)) (fun m hm => hf' _ (hf m hm))
        (fun m hm => ih m hm (hsame' _ (hf m hm))) (fun m hm => hg _ (hg' m hm)) fun m hm =>
        ih' _ (hg' m hm) (hback' m hm)

end RestrictedExpression

open RestrictedExpression (Same same_set_iff same_record_iff)

/-! ### Integers -/

/-- An integer of the range of `i64` or `u64`. -/
def Number.IsInteger : Number → Prop
  | .posInt n => n < 2 ^ 64
  | .negInt i => -2 ^ 63 ≤ i ∧ i < 0
  | .float _ => False

namespace Value

/-! ### The congruence -/

/-- The least congruence by which the order of members, the order and the repetition of elements, `null` and the empty object,
and integers above `i64::MAX` and their decimal texts are the same. -/
inductive Alike : Value → Value → Prop
  | refl (v : Value) : Alike v v
  | symm {v w : Value} : Alike v w → Alike w v
  | trans {u v w : Value} : Alike u v → Alike v w → Alike u w
  | members {fields fields' : List (String × Value)} : fields.Perm fields' → Alike (.object fields) (.object fields')
  | elements {xs ys : List Value} : (∀ x, x ∈ xs ↔ x ∈ ys) → Alike (.array xs) (.array ys)
  | null : Alike .null (.object [])
  | large {n : Nat} : 2 ^ 63 ≤ n → n < 2 ^ 64 → Alike (.number (.posInt n)) (.string (toString n))
  | member (before : List (String × Value)) (key : String) {v w : Value} (after : List (String × Value)) :
      Alike v w → Alike (.object (before ++ (key, v) :: after)) (.object (before ++ (key, w) :: after))
  | item (before : List Value) {v w : Value} (after : List Value) :
      Alike v w → Alike (.array (before ++ v :: after)) (.array (before ++ w :: after))

theorem Alike.map_items {f : Value → Value} (xs before : List Value) (h : ∀ x ∈ xs, Alike x (f x)) :
    Alike (.array (before ++ xs)) (.array (before ++ xs.map f)) := by
  induction xs generalizing before with
  | nil => exact .refl _
  | cons x xs ih =>
    obtain ⟨hx, hxs⟩ := List.forall_mem_cons.mp h
    have hrest := ih (before ++ [f x]) hxs
    rw [List.append_assoc, List.append_assoc] at hrest
    exact (Alike.item before xs hx).trans hrest

theorem Alike.map_members {f : String × Value → Value} (fields before : List (String × Value))
    (h : ∀ m ∈ fields, Alike m.2 (f m)) :
    Alike (.object (before ++ fields)) (.object (before ++ fields.map fun m => (m.1, f m))) := by
  induction fields generalizing before with
  | nil => exact .refl _
  | cons m fields ih =>
    obtain ⟨hm, hfields⟩ := List.forall_mem_cons.mp h
    have hrest := ih (before ++ [(m.1, f m)]) hfields
    rw [List.append_assoc, List.append_assoc] at hrest
    exact (Alike.member before m.1 fields hm).trans hrest

instance : Nonempty Value := ⟨.null⟩

/-- Elements that are like others already there can be added. -/
theorem Alike.append {xs ys : List Value} (h : ∀ y ∈ ys, ∃ x ∈ xs, Alike y x) :
    Alike (.array xs) (.array (xs ++ ys)) := by
  choose! f hf hlike using h
  have hsame : ∀ x, x ∈ xs ↔ x ∈ xs ++ ys.map f := by
    intro x
    rw [List.mem_append, List.mem_map]
    constructor
    · exact Or.inl
    · rintro (hx | ⟨y, hy, rfl⟩)
      · exact hx
      · exact hf y hy
  exact (Alike.elements hsame).trans (Alike.map_items ys xs hlike).symm

/-- Arrays are alike when each element is like one of the other's. -/
theorem alike_array {xs ys : List Value} (hxs : ∀ x ∈ xs, ∃ y ∈ ys, Alike x y) (hys : ∀ y ∈ ys, ∃ x ∈ xs, Alike y x) :
    Alike (.array xs) (.array ys) := by
  refine (Alike.append hys).trans (.trans (.elements fun x => ?_) (Alike.append hxs).symm)
  rw [List.mem_append, List.mem_append, or_comm]

/-- Objects are alike when the members under each key are. -/
theorem alike_object {fields members : List (String × Value)} (hfields : (fields.map (·.1)).Nodup)
    (hmembers : (members.map (·.1)).Nodup) (h : ∀ m ∈ fields, ∃ w, (m.1, w) ∈ members ∧ Alike m.2 w)
    (h' : ∀ m ∈ members, ∃ v, (m.1, v) ∈ fields) : Alike (.object fields) (.object members) := by
  choose! f hf hlike using h
  refine (Alike.map_members fields [] hlike).trans (.members ?_)
  have hkeys : ((fields.map fun m => (m.1, f m)).map (·.1)) = fields.map (·.1) := by
    rw [List.map_map]
    rfl
  rw [List.nil_append]
  refine (List.perm_ext_iff_of_nodup ?_ hmembers.of_map).mpr fun m => ?_
  · exact List.Nodup.of_map (·.1) (hkeys ▸ hfields)
  · constructor
    · intro hm
      obtain ⟨m', hm', rfl⟩ := List.mem_map.mp hm
      exact hf m' hm'
    · intro hm
      obtain ⟨v, hv⟩ := h' m hm
      have hsame : (m.1, f (m.1, v)) = m := List.inj_on_of_nodup_map hmembers (hf _ hv) hm rfl
      exact List.mem_map.mpr ⟨(m.1, v), hv, hsame⟩

end Value

/-! ### The conversion -/

namespace CedarEngine

open Value (Alike alike_array alike_object)

/-- What a number is for Cedar. -/
def numberExpr : Number → RestrictedExpression
  | .posInt n => if n ≤ 2 ^ 63 - 1 then .long n else .string (toString n)
  | .negInt i => .long i
  | .float f => .long (roundToLong f)

mutual

/-- What a value is for Cedar, however deep it is. -/
def converted : Value → RestrictedExpression
  | .null => .record []
  | .bool b => .bool b
  | .number n => numberExpr n
  | .string s => .string s
  | .array xs => .set (convertedItems xs)
  | .object fields => .record (convertedFields fields)

def convertedItems : List Value → List RestrictedExpression
  | [] => []
  | x :: xs => converted x :: convertedItems xs

def convertedFields : List (String × Value) → List (String × RestrictedExpression)
  | [] => []
  | (k, v) :: fields => (k, converted v) :: convertedFields fields

end

theorem convertedItems_eq_map (xs : List Value) : convertedItems xs = xs.map converted := by
  induction xs with
  | nil => rfl
  | cons x xs ih => rw [convertedItems, ih, List.map_cons]

theorem convertedFields_eq_map (fields : List (String × Value)) :
    convertedFields fields = fields.map fun m => (m.1, converted m.2) := by
  induction fields with
  | nil => rfl
  | cons m fields ih => rw [convertedFields, ih, List.map_cons]

section

variable [F64.Display]

theorem numberToCedar_eq {n : Number} {e : RestrictedExpression} (h : numberToCedar n = .ok e) : e = numberExpr n := by
  cases n with
  | posInt n =>
    rw [numberToCedar] at h
    rw [numberExpr]
    split at h
    · cases h
      rw [if_pos ‹_›]
    · cases h
      rw [if_neg ‹_›]
  | negInt i =>
    cases h
    rfl
  | float f =>
    rw [numberToCedar] at h
    split at h
    · cases h
    · cases h
      rfl

omit [F64.Display] in
theorem ok_of_guarded {depth : Nat} {r : Except PolicyError RestrictedExpression} {e : RestrictedExpression}
    (h : (if maxJsonDepth < depth then .error jsonDepthError else r) = .ok e) : r = .ok e := by
  split at h
  · cases h
  · exact h

mutual

theorem jsonToCedarExprDepth_eq (depth : Nat) : ∀ (v : Value) (e : RestrictedExpression),
    jsonToCedarExprDepth depth v = .ok e → e = converted v
  | .null, e, h | .bool b, e, h | .string s, e, h => by
    rw [jsonToCedarExprDepth] at h
    cases ok_of_guarded h
    rfl
  | .number n, e, h => by
    rw [jsonToCedarExprDepth] at h
    exact numberToCedar_eq (ok_of_guarded h)
  | .array xs, e, h => by
    rw [jsonToCedarExprDepth] at h
    have hitems := ok_of_guarded h
    cases hxs : jsonItemsToCedar (depth + 1) xs with
    | error err =>
      rw [hxs] at hitems
      cases hitems
    | ok es =>
      rw [hxs] at hitems
      cases hitems
      rw [jsonItemsToCedar_eq (depth + 1) xs es hxs, converted]
  | .object fields, e, h => by
    rw [jsonToCedarExprDepth] at h
    have hmembers := ok_of_guarded h
    cases hfields : jsonFieldsToCedar (depth + 1) fields with
    | error err =>
      rw [hfields] at hmembers
      cases hmembers
    | ok es =>
      rw [hfields] at hmembers
      cases hmembers
      rw [jsonFieldsToCedar_eq (depth + 1) fields es hfields, converted]

theorem jsonItemsToCedar_eq (depth : Nat) : ∀ (xs : List Value) (es : List RestrictedExpression),
    jsonItemsToCedar depth xs = .ok es → es = convertedItems xs
  | [], es, h => by
    cases h
    rfl
  | x :: xs, es, h => by
    rw [jsonItemsToCedar] at h
    cases hx : jsonToCedarExprDepth depth x with
    | error err =>
      rw [hx] at h
      cases h
    | ok e =>
      cases hxs : jsonItemsToCedar depth xs with
      | error err =>
        rw [hx, hxs] at h
        cases h
      | ok es' =>
        rw [hx, hxs] at h
        cases h
        rw [convertedItems, jsonToCedarExprDepth_eq depth x e hx, jsonItemsToCedar_eq depth xs es' hxs]

theorem jsonFieldsToCedar_eq (depth : Nat) : ∀ (fields : List (String × Value))
    (es : List (String × RestrictedExpression)), jsonFieldsToCedar depth fields = .ok es → es = convertedFields fields
  | [], es, h => by
    cases h
    rfl
  | (k, v) :: fields, es, h => by
    rw [jsonFieldsToCedar] at h
    cases hv : jsonToCedarExprDepth depth v with
    | error err =>
      rw [hv] at h
      cases h
    | ok e =>
      cases hfields : jsonFieldsToCedar depth fields with
      | error err =>
        rw [hv, hfields] at h
        cases h
      | ok es' =>
        rw [hv, hfields] at h
        cases h
        rw [convertedFields, jsonToCedarExprDepth_eq depth v e hv, jsonFieldsToCedar_eq depth fields es' hfields]

end

end

/-! ### What is identified -/

theorem converted_array (xs : List Value) : converted (.array xs) = .set (xs.map converted) := by
  rw [converted, convertedItems_eq_map]

theorem converted_object (fields : List (String × Value)) :
    converted (.object fields) = .record (fields.map fun m => (m.1, converted m.2)) := by
  rw [converted, convertedFields_eq_map]

theorem same_array_iff {xs ys : List Value} : Same (converted (.array xs)) (converted (.array ys)) ↔
    (∀ x ∈ xs, ∃ y ∈ ys, Same (converted x) (converted y)) ∧ ∀ y ∈ ys, ∃ x ∈ xs, Same (converted x) (converted y) := by
  rw [converted_array, converted_array, same_set_iff]
  simp only [List.mem_map, exists_exists_and_eq_and, forall_exists_index, and_imp, forall_apply_eq_imp_iff₂]

theorem same_object_iff {fields members : List (String × Value)} :
    Same (converted (.object fields)) (converted (.object members)) ↔
      (∀ m ∈ fields, ∃ w, (m.1, w) ∈ members ∧ Same (converted m.2) (converted w)) ∧
        ∀ m ∈ members, ∃ v, (m.1, v) ∈ fields ∧ Same (converted v) (converted m.2) := by
  have hmem : ∀ (l : List (String × Value)) (k : String) (P : RestrictedExpression → Prop),
      (∃ e, (k, e) ∈ l.map (fun m => (m.1, converted m.2)) ∧ P e) ↔ ∃ v, (k, v) ∈ l ∧ P (converted v) := by
    intro l k P
    constructor
    · rintro ⟨e, he, hP⟩
      obtain ⟨m, hm, heq⟩ := List.mem_map.mp he
      cases heq
      exact ⟨m.2, hm, hP⟩
    · rintro ⟨v, hv, hP⟩
      exact ⟨converted v, List.mem_map.mpr ⟨(k, v), hv, rfl⟩, hP⟩
  rw [converted_object, converted_object, same_record_iff]
  simp only [List.forall_mem_map, hmem]

/-- Where one element is changed, each has its like. -/
theorem exists_mem_of_changed {α : Type} {P : α → α → Prop} (hrefl : ∀ x, P x x) {v w : α} (h : P v w)
    {before after : List α} {x : α} (hx : x ∈ before ++ v :: after) : ∃ y ∈ before ++ w :: after, P x y := by
  rcases List.mem_append.mp hx with hbefore | hrest
  · exact ⟨x, List.mem_append_left _ hbefore, hrefl x⟩
  · rcases List.mem_cons.mp hrest with rfl | hafter
    · exact ⟨w, List.mem_append_right _ List.mem_cons_self, h⟩
    · exact ⟨x, List.mem_append_right _ (List.mem_cons_of_mem _ hafter), hrefl x⟩

/-- Nothing that is alike is told apart. -/
theorem same_of_alike {v w : Value} (h : Alike v w) : Same (converted v) (converted w) := by
  induction h with
  | refl v => exact .refl _
  | symm _ ih => exact ih.symm
  | trans _ _ ih ih' => exact ih.trans ih'
  | members hperm =>
    exact same_object_iff.mpr ⟨fun m hm => ⟨m.2, hperm.mem_iff.mp hm, .refl _⟩,
      fun m hm => ⟨m.2, hperm.mem_iff.mpr hm, .refl _⟩⟩
  | elements hsame =>
    exact same_array_iff.mpr ⟨fun x hx => ⟨x, (hsame x).mp hx, .refl _⟩, fun x hx => ⟨x, (hsame x).mpr hx, .refl _⟩⟩
  | null => exact .refl _
  | @large n hlarge _ =>
    have hexpr : numberExpr (.posInt n) = .string (toString n) := if_neg (by omega)
    rw [converted, converted, hexpr]
    exact .refl _
  | @member before key v w after _ ih =>
    refine same_object_iff.mpr ⟨fun m hm => ?_, fun m hm => ?_⟩
    · obtain ⟨⟨k, w'⟩, hmem, rfl, hsame⟩ := exists_mem_of_changed (v := (key, v)) (w := (key, w))
        (P := fun m m' => m'.1 = m.1 ∧ Same (converted m.2) (converted m'.2)) (fun _ => ⟨rfl, .refl _⟩) ⟨rfl, ih⟩ hm
      exact ⟨w', hmem, hsame⟩
    · obtain ⟨⟨k, v'⟩, hmem, rfl, hsame⟩ := exists_mem_of_changed (v := (key, w)) (w := (key, v))
        (P := fun m m' => m'.1 = m.1 ∧ Same (converted m'.2) (converted m.2)) (fun _ => ⟨rfl, .refl _⟩) ⟨rfl, ih⟩ hm
      exact ⟨v', hmem, hsame⟩
  | item before after _ ih =>
    exact same_array_iff.mpr
      ⟨fun _ hx => exists_mem_of_changed (P := fun x y => Same (converted x) (converted y)) (fun _ => .refl _) ih hx,
      fun _ hy => exists_mem_of_changed (P := fun y x => Same (converted x) (converted y)) (fun _ => .refl _) ih hy⟩

theorem toString_nat_injective {m n : Nat} (h : toString m = toString n) : m = n :=
  Int.ofNat.inj (Value.toString_int_injective h)

/-- A number is a `Long` or, above them, its text. -/
theorem numberExpr_cases {n : Number} (h : n.IsInteger) :
    (∃ i : Int, numberExpr n = .long i ∧ i < 2 ^ 63 ∧ (n = .posInt i.toNat ∧ 0 ≤ i ∨ n = .negInt i ∧ i < 0)) ∨
      ∃ m : Nat, n = .posInt m ∧ 2 ^ 63 ≤ m ∧ m < 2 ^ 64 ∧ numberExpr n = .string (toString m) := by
  cases n with
  | posInt n =>
    have hrange : n < 2 ^ 64 := h
    by_cases hn : n ≤ 2 ^ 63 - 1
    · exact Or.inl ⟨n, if_pos hn, by omega, Or.inl ⟨rfl, by omega⟩⟩
    · exact Or.inr ⟨n, rfl, by omega, hrange, if_neg hn⟩
  | negInt i =>
    obtain ⟨hlow, hneg⟩ : -2 ^ 63 ≤ i ∧ i < 0 := h
    exact Or.inl ⟨i, rfl, by omega, Or.inr ⟨rfl, hneg⟩⟩
  | float f => exact h.elim

/-- Integers that Cedar takes for equal are equal. -/
theorem number_eq_of_same {m n : Number} (hm : m.IsInteger) (hn : n.IsInteger) (h : Same (numberExpr m) (numberExpr n)) :
    m = n := by
  rcases numberExpr_cases hm with ⟨i, hi, -, hcase⟩ | ⟨k, rfl, -, -, hk⟩
  · rcases numberExpr_cases hn with ⟨j, hj, -, hcase'⟩ | ⟨k, rfl, -, -, hk⟩
    · rw [hi, hj] at h
      cases h
      rcases hcase with ⟨rfl, hpos⟩ | ⟨rfl, hneg⟩
      · rcases hcase' with ⟨rfl, -⟩ | ⟨-, hneg⟩
        · rfl
        · omega
      · rcases hcase' with ⟨-, hpos⟩ | ⟨rfl, -⟩
        · omega
        · rfl
    · rw [hi, hk] at h
      cases h
  · rcases numberExpr_cases hn with ⟨j, hj, -, -⟩ | ⟨k', rfl, -, -, hk'⟩
    · rw [hk, hj] at h
      cases h
    · rw [hk, hk'] at h
      generalize htext : toString k' = text at h
      cases h
      rw [toString_nat_injective htext]

/-- What a number can be equal to. -/
def LongOrText : RestrictedExpression → Prop
  | .long _ => True
  | .string _ => True
  | _ => False

theorem longOrText_of_same {n : Number} (hn : n.IsInteger) {e : RestrictedExpression} (h : Same e (numberExpr n)) :
    LongOrText e := by
  rcases numberExpr_cases hn with ⟨i, hi, -, -⟩ | ⟨m, -, -, -, hm⟩
  · rw [hi] at h
    cases h
    trivial
  · rw [hm] at h
    cases h
    trivial

section

variable {w : Value}

theorem of_same_record {fs : List (String × RestrictedExpression)} (hw : w.Numbers Number.IsInteger)
    (h : Same (.record fs) (converted w)) : w = .null ∨ ∃ members, w = .object members := by
  cases hw with
  | null => exact Or.inl rfl
  | object => exact Or.inr ⟨_, rfl⟩
  | number hn =>
    rw [converted] at h
    exact (longOrText_of_same hn h).elim
  | _ => cases h

theorem of_same_set {es : List RestrictedExpression} (hw : w.Numbers Number.IsInteger)
    (h : Same (.set es) (converted w)) : ∃ ys, w = .array ys := by
  cases hw with
  | array => exact ⟨_, rfl⟩
  | number hn =>
    rw [converted] at h
    exact (longOrText_of_same hn h).elim
  | _ => cases h

theorem of_same_bool {b : Bool} (hw : w.Numbers Number.IsInteger) (h : Same (.bool b) (converted w)) : w = .bool b := by
  cases hw with
  | bool =>
    cases h
    rfl
  | number hn =>
    rw [converted] at h
    exact (longOrText_of_same hn h).elim
  | _ => cases h

/-- What is equal to a text is it, or an integer whose text it is. -/
theorem alike_of_same_string {s : String} (hw : w.Numbers Number.IsInteger) (h : Same (.string s) (converted w)) :
    Alike (.string s) w := by
  cases hw with
  | string t =>
    cases h
    exact .refl _
  | @number n hn =>
    rw [converted] at h
    rcases numberExpr_cases hn with ⟨i, hi, -, -⟩ | ⟨m, rfl, hlarge, hrange, hm⟩
    · rw [hi] at h
      cases h
    · rw [hm] at h
      cases h
      exact (Alike.large hlarge hrange).symm
  | _ => cases h

theorem of_same_long {i : Int} (hw : w.Numbers Number.IsInteger) (h : Same (.long i) (converted w)) :
    ∃ n : Number, w = .number n ∧ n.IsInteger := by
  cases hw with
  | number hn => exact ⟨_, rfl, hn⟩
  | _ => cases h

end

/-- What is not told apart is alike. -/
theorem alike_of_same {v w : Value} (hv : v.Keyed) (hw : w.Keyed) (hvn : v.Numbers Number.IsInteger)
    (hwn : w.Numbers Number.IsInteger) (h : Same (converted v) (converted w)) : Alike v w := by
  induction hv generalizing w with
  | null =>
    rcases of_same_record hwn h with rfl | ⟨members, rfl⟩
    · exact .refl _
    · have hnil : members = [] := by
        refine List.eq_nil_iff_forall_not_mem.mpr fun m hm => ?_
        rw [converted, converted_object, same_record_iff] at h
        obtain ⟨e, he, -⟩ := h.2 _ (List.mem_map_of_mem hm)
        cases he
      rw [hnil]
      exact .null
  | bool b =>
    rw [of_same_bool hwn h]
    exact .refl _
  | string s => exact alike_of_same_string hwn h
  | number n =>
    cases hvn with
    | number hn =>
      rcases numberExpr_cases hn with ⟨i, hi, -, -⟩ | ⟨m, rfl, hlarge, hrange, hm⟩
      · have hlong : Same (.long i) (converted w) := by rwa [converted, hi] at h
        obtain ⟨n', rfl, hn'⟩ := of_same_long hwn hlong
        rw [number_eq_of_same hn hn' h]
        exact .refl _
      · have hstring : Same (.string (toString m)) (converted w) := by rwa [converted, hm] at h
        exact (Alike.large hlarge hrange).trans (alike_of_same_string hwn hstring)
  | @array xs _ ih =>
    obtain ⟨ys, rfl⟩ := of_same_set hwn (by rwa [converted] at h)
    obtain ⟨hxs, hys⟩ := same_array_iff.mp h
    cases hvn with
    | array hvn =>
      cases hwn with
      | array hwn =>
        cases hw with
        | array hw =>
          refine alike_array (fun x hx => ?_) fun y hy => ?_
          · obtain ⟨y, hy, hsame⟩ := hxs x hx
            exact ⟨y, hy, ih x hx (hw y hy) (hvn x hx) (hwn y hy) hsame⟩
          · obtain ⟨x, hx, hsame⟩ := hys y hy
            exact ⟨x, hx, (ih x hx (hw y hy) (hvn x hx) (hwn y hy) hsame).symm⟩
  | @object fields hnodup _ ih =>
    rcases of_same_record hwn (by rwa [converted] at h) with rfl | ⟨members, rfl⟩
    · have hnil : fields = [] := by
        refine List.eq_nil_iff_forall_not_mem.mpr fun m hm => ?_
        have hempty : Same (converted (.object fields)) (converted (.object [])) := h
        obtain ⟨w, hw, -⟩ := (same_object_iff.mp hempty).1 m hm
        cases hw
      rw [hnil]
      exact Alike.null.symm
    · obtain ⟨hfields, hmembers⟩ := same_object_iff.mp h
      cases hvn with
      | object hvn =>
        cases hwn with
        | object hwn =>
          cases hw with
          | object hnodup' hw =>
            refine alike_object hnodup hnodup' (fun m hm => ?_) fun m hm => ?_
            · obtain ⟨x, hx, hsame⟩ := hfields m hm
              exact ⟨x, hx, ih m hm (hw _ hx) (hvn m hm) (hwn _ hx) hsame⟩
            · obtain ⟨x, hx, -⟩ := hmembers m hm
              exact ⟨x, hx⟩

variable [F64.Display]

/-- The conversion identifies what is alike and nothing else, and no two integers. -/
theorem conversion_identifies_iff {v w : Value} (hv : v.Keyed) (hw : w.Keyed) (hvn : v.Numbers Number.IsInteger)
    (hwn : w.Numbers Number.IsInteger) {e e' : RestrictedExpression} (he : jsonToCedarExpr v = .ok e)
    (he' : jsonToCedarExpr w = .ok e') :
    (Same e e' ↔ Alike v w) ∧
      ∀ m n : Number, m.IsInteger → n.IsInteger → Alike (.number m) (.number n) → m = n := by
  rw [jsonToCedarExprDepth_eq 0 v e he, jsonToCedarExprDepth_eq 0 w e' he']
  exact ⟨⟨alike_of_same hv hw hvn hwn, same_of_alike⟩, fun m n hm hn h => number_eq_of_same hm hn (same_of_alike h)⟩

end CedarEngine

namespace Sample

/-- `[null, 1]` and `[1, {}, 1]`. -/
def nullAndOne : Value := .array [.null, .number (.posInt 1)]

def oneAndEmpty : Value := .array [.number (.posInt 1), .emptyObject, .number (.posInt 1)]

theorem nullAndOne_keyed : nullAndOne.Keyed := .array (by simpa using ⟨.null, .number _⟩)

theorem oneAndEmpty_keyed : oneAndEmpty.Keyed :=
  .array (by simpa using ⟨.number _, .object (by simp) (by simp), .number _⟩)

theorem one_isInteger : Number.IsInteger (.posInt 1) := by
  show 1 < 2 ^ 64
  omega

theorem nullAndOne_numbers : nullAndOne.Numbers Number.IsInteger :=
  .array (by simpa using ⟨.null, .number one_isInteger⟩)

theorem oneAndEmpty_numbers : oneAndEmpty.Numbers Number.IsInteger :=
  .array (by simpa using ⟨.number one_isInteger, .object (by simp), .number one_isInteger⟩)

end Sample

namespace CedarEngine

open Value (Alike)

attribute [local instance] Sample.f64Display

theorem conversion_identifies_iff_sample :
    ∃ e e', jsonToCedarExpr Sample.nullAndOne = .ok e ∧ jsonToCedarExpr Sample.oneAndEmpty = .ok e' ∧
      (Same e e' ↔ Alike Sample.nullAndOne Sample.oneAndEmpty) ∧
      ∀ m n : Number, m.IsInteger → n.IsInteger → Alike (.number m) (.number n) → m = n := by
  refine ⟨.set [.record [], .long 1], .set [.long 1, .record [], .long 1], by rfl, by rfl, ?_⟩
  exact conversion_identifies_iff Sample.nullAndOne_keyed Sample.oneAndEmpty_keyed Sample.nullAndOne_numbers
    Sample.oneAndEmpty_numbers (by rfl) (by rfl)

end CedarEngine

end ThoughtGate
