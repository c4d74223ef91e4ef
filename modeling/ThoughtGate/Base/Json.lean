import Mathlib.Data.List.Sort
import Mathlib.Data.Rat.Defs

/-!
# JSON values

`serde_json::Value` with the `preserve_order` map (`cedar-policy-core` turns the feature on): an object is the
list of its members in insertion order. `Value.toJson` is `serde_json::to_string`, `canonicalJson` is the
sorted-key text that request hashes are made of (`governance/task/helpers.rs`).

A double is kept as the rational number it denotes, the two zeros apart; the decimal text that `ryu` prints for it is a
function of the caller's choice (`F64.Fmt`).
-/

namespace ThoughtGate

/-- A finite `f64`: the number it denotes, and whether it is `-0.0`, which has a text of its own. -/
structure F64 where
  val : Rat
  negZero : Bool := false
  val_negZero : negZero = true → val = 0 := by simp
deriving DecidableEq

/-- The shortest decimal text of a double (`ryu`). -/
class F64.Fmt where
  fmt : F64 → String

/-- `serde_json::Number`. -/
inductive Number where
  | posInt (n : Nat)
  | negInt (i : Int)
  | float (f : F64)
deriving DecidableEq

/-- `serde_json::Value`. -/
inductive Value where
  | null
  | bool (b : Bool)
  | number (n : Number)
  | string (s : String)
  | array (xs : List Value)
  | object (fields : List (String × Value))

namespace Value

instance : Inhabited Value := ⟨.null⟩

/-- `json!({})`. -/
def emptyObject : Value := .object []

/-- `Value::get` with a string index: only objects have members. -/
def get (key : String) : Value → Option Value
  | .object fields => (fields.find? fun f => f.1 == key).map (·.2)
  | _ => none

def asStr : Value → Option String
  | .string s => some s
  | _ => none

def isNull : Value → Bool
  | .null => true
  | _ => false

/-- `Value::as_bool`. -/
def asBool : Value → Option Bool
  | .bool b => some b
  | _ => none

/-- `Value::as_object`. -/
def asObject : Value → Option (List (String × Value))
  | .object fields => some fields
  | _ => none

/-- `Value::as_array`. -/
def asArray : Value → Option (List Value)
  | .array xs => some xs
  | _ => none

/-- `Map::insert`: in place if the member is there, at the end if it is not. -/
def insertField (key : String) (v : Value) : List (String × Value) → List (String × Value)
  | [] => [(key, v)]
  | f :: fields => if f.1 == key then (f.1, v) :: fields else f :: insertField key v fields

/-- `Map::remove`. The map fills the gap with its last member; no function here reads the order of the members. -/
def removeField (key : String) (fields : List (String × Value)) : List (String × Value) :=
  fields.filter fun f => !(f.1 == key)

/-- `value == json!({})`. -/
def isEmptyObject : Value → Bool
  | .object [] => true
  | _ => false

theorem get_insertField_self (key : String) (v : Value) (fields : List (String × Value)) :
    (Value.object (insertField key v fields)).get key = some v := by
  induction fields with
  | nil => simp [insertField, get]
  | cons f fields ih =>
    unfold insertField
    split
    · next h => simp [get, h]
    · next h =>
      simp only [get, List.find?_cons, h] at ih ⊢
      exact ih

theorem get_insertField_ne {key other : String} (hne : other ≠ key) (v : Value) (fields : List (String × Value)) :
    (Value.object (insertField key v fields)).get other = (Value.object fields).get other := by
  induction fields with
  | nil => simp [insertField, get, hne.symm]
  | cons f fields ih =>
    unfold insertField
    split
    · next h =>
      have hother : (f.1 == other) = false := by
        rw [beq_iff_eq.mp h]
        simpa using hne.symm
      simp [get, hother]
    · simp only [get, List.find?_cons] at ih ⊢
      cases f.1 == other with
      | true => rfl
      | false => exact ih

theorem get_removeField_ne {key other : String} (hne : other ≠ key) (fields : List (String × Value)) :
    (Value.object (removeField key fields)).get other = (Value.object fields).get other := by
  induction fields with
  | nil => rfl
  | cons f fields ih =>
    simp only [removeField, get, List.filter_cons] at ih ⊢
    by_cases h : f.1 = other
    · simp [h, hne]
    · by_cases hkey : f.1 = key
      · simp only [hkey, beq_self_eq_true, Bool.not_true, Bool.false_eq_true, if_false, List.find?_cons]
        rw [ih]
        have hother : (key == other) = false := by simpa using hne.symm
        simp [hother]
      · simp only [hkey, not_false_eq_true, Bool.not_eq_true', beq_eq_false_iff_ne, ne_eq, if_true, List.find?_cons]
        have hother : (f.1 == other) = false := by simpa using h
        simp only [hother]
        exact ih

/-- `serde_json`'s escape of one character: the two-character escapes, `\u00xx` for the other control
characters, everything else as it is. -/
def escapeChar (c : Char) : String :=
  if c = '"' then "\\\""
  else if c = '\\' then "\\\\"
  else if c = Char.ofNat 8 then "\\b"
  else if c = Char.ofNat 12 then "\\f"
  else if c = '\n' then "\\n"
  else if c = '\r' then "\\r"
  else if c = '\t' then "\\t"
  else if c.toNat < 32 then
    "\\u00" ++ String.ofList [Nat.digitChar (c.toNat / 16), Nat.digitChar (c.toNat % 16)]
  else String.ofList [c]

/-- A JSON string literal. -/
def quote (s : String) : String := "\"" ++ String.join (s.toList.map escapeChar) ++ "\""

variable [F64.Fmt]

def numberText : Number → String
  | .posInt n => toString n
  | .negInt i => toString i
  | .float f => F64.Fmt.fmt f

mutual

/-- `serde_json::to_string`. -/
def toJson : Value → String
  | .null => "null"
  | .bool b => if b then "true" else "false"
  | .number n => numberText n
  | .string s => quote s
  | .array xs => "[" ++ String.intercalate "," (toJsonItems xs) ++ "]"
  | .object fields => "\x7b" ++ String.intercalate "," (toJsonFields fields) ++ "\x7d"

def toJsonItems : List Value → List String
  | [] => []
  | x :: xs => toJson x :: toJsonItems xs

def toJsonFields : List (String × Value) → List String
  | [] => []
  | (k, v) :: fields => (quote k ++ ":" ++ toJson v) :: toJsonFields fields

end

/-- `MAX_CANONICAL_JSON_DEPTH`. -/
def maxCanonicalJsonDepth : Nat := 64

def depthError : String := "JSON nesting depth exceeds maximum of 64"

mutual

/-- `canonical_json_inner`. The source sorts the members before it descends; every failure below carries the
same text, so descending first and sorting the texts is the same function. -/
def canonicalJsonInner (depth : Nat) : Value → Except String String
  | .object fields =>
    if maxCanonicalJsonDepth < depth then .error depthError
    else do
      let entries ← canonicalFields (depth + 1) fields
      let sorted := entries.insertionSort fun a b => a.1 ≤ b.1
      .ok ("\x7b" ++ String.intercalate "," (sorted.map fun e => quote e.1 ++ ":" ++ e.2) ++ "\x7d")
  | .array xs =>
    if maxCanonicalJsonDepth < depth then .error depthError
    else do
      let items ← canonicalItems (depth + 1) xs
      .ok ("[" ++ String.intercalate "," items ++ "]")
  | .null => if maxCanonicalJsonDepth < depth then .error depthError else .ok "null"
  | .bool b =>
    if maxCanonicalJsonDepth < depth then .error depthError else .ok (if b then "true" else "false")
  | .number n => if maxCanonicalJsonDepth < depth then .error depthError else .ok (numberText n)
  | .string s => if maxCanonicalJsonDepth < depth then .error depthError else .ok (quote s)

def canonicalItems (depth : Nat) : List Value → Except String (List String)
  | [] => .ok []
  | x :: xs => do
    let t ← canonicalJsonInner depth x
    let ts ← canonicalItems depth xs
    .ok (t :: ts)

def canonicalFields (depth : Nat) : List (String × Value) → Except String (List (String × String))
  | [] => .ok []
  | (k, v) :: fields => do
    let t ← canonicalJsonInner depth v
    let ts ← canonicalFields depth fields
    .ok ((k, t) :: ts)

end

/-- `canonical_json`. -/
def canonicalJson (v : Value) : Except String String := canonicalJsonInner 0 v

end Value

end ThoughtGate
