import ThoughtGate.Base.Literal

/-!
# Texts read back

A reader for the texts that `Value.toJson` writes, and what it finds in them: the value that was written, with every double
as the reader takes its text (`readJson_toJson`). It stops where the value ends, so that a text determines its value
(`toJson_injective`).

The texts of doubles are a parameter (`F64.Fmt`); what is known of them is `F64.Decimal`. The reading of a decimal text is
the argument `double` of the reader.
-/

namespace ThoughtGate

namespace Value

/-- The characters that numbers are written with. -/
def isNumeral (c : Char) : Bool := c.isDigit || c == '-' || c == '+' || c == '.' || c == 'e' || c == 'E'

/-- The characters that an integer does not have. -/
def isFractional (c : Char) : Bool := c == '.' || c == 'e' || c == 'E'

end Value

/-- The texts of doubles: different ones for different doubles; numerals with a point or an exponent, ending in a digit. -/
structure F64.Decimal [F64.Fmt] : Prop where
  injective : Function.Injective F64.Fmt.fmt
  numeral : ∀ f, ∀ c ∈ (F64.Fmt.fmt f).toList, Value.isNumeral c = true
  fractional : ∀ f, (F64.Fmt.fmt f).toList.any Value.isFractional = true
  lastDigit : ∀ f, ∃ front c, (F64.Fmt.fmt f).toList = front ++ [c] ∧ c.isDigit = true

namespace Value

/-- Every number of the value is so. -/
inductive Numbers (P : Number → Prop) : Value → Prop
  | null : Numbers P .null
  | bool (b : Bool) : Numbers P (.bool b)
  | number {n : Number} : P n → Numbers P (.number n)
  | string (s : String) : Numbers P (.string s)
  | array {xs : List Value} : (∀ x ∈ xs, Numbers P x) → Numbers P (.array xs)
  | object {fields : List (String × Value)} : (∀ f ∈ fields, Numbers P f.2) → Numbers P (.object fields)

/-- Every negative integer is one (`N::NegInt` is "always less than zero"). -/
abbrev Signed (v : Value) : Prop := v.Numbers fun n => ∀ i, n = .negInt i → i < 0

/-! ### Doubles -/

mutual

/-- The value with each double changed. -/
def mapDoubles (g : F64 → F64) : Value → Value
  | .number (.float f) => .number (.float (g f))
  | .number n => .number n
  | .array xs => .array (mapDoublesItems g xs)
  | .object fields => .object (mapDoublesFields g fields)
  | .null => .null
  | .bool b => .bool b
  | .string s => .string s

def mapDoublesItems (g : F64 → F64) : List Value → List Value
  | [] => []
  | x :: xs => mapDoubles g x :: mapDoublesItems g xs

def mapDoublesFields (g : F64 → F64) : List (String × Value) → List (String × Value)
  | [] => []
  | (k, v) :: fields => (k, mapDoubles g v) :: mapDoublesFields g fields

end

section

variable (g : F64 → F64)

@[simp] theorem mapDoubles_null : Value.null.mapDoubles g = .null := rfl

@[simp] theorem mapDoubles_bool (b : Bool) : (Value.bool b).mapDoubles g = .bool b := rfl

@[simp] theorem mapDoubles_array (xs : List Value) : (Value.array xs).mapDoubles g = .array (mapDoublesItems g xs) := rfl

@[simp] theorem mapDoubles_object (fields : List (String × Value)) :
    (Value.object fields).mapDoubles g = .object (mapDoublesFields g fields) := rfl

@[simp] theorem mapDoublesItems_nil : mapDoublesItems g [] = [] := rfl

@[simp] theorem mapDoublesItems_cons (x : Value) (xs : List Value) :
    mapDoublesItems g (x :: xs) = x.mapDoubles g :: mapDoublesItems g xs := rfl

@[simp] theorem mapDoublesFields_nil : mapDoublesFields g [] = [] := rfl

@[simp] theorem mapDoublesFields_cons (f : String × Value) (fields : List (String × Value)) :
    mapDoublesFields g (f :: fields) = (f.1, f.2.mapDoubles g) :: mapDoublesFields g fields := rfl

end

end Value

/-! ### The reader -/

namespace Reader

open Value (isNumeral isFractional readInt readEscaped)

section

variable (double : List Char → F64)

/-- The number of a numeral. -/
def readNumber (numeral : List Char) : Number :=
  if numeral.any isFractional then .float (double numeral)
  else if numeral.head? = some '-' then .negInt (readInt numeral)
  else .posInt (Nat.ofDigitChars 10 numeral 0)

def readWord (chars : List Char) : Option (Value × List Char) :=
  if "null".toList.isPrefixOf chars then some (.null, chars.drop 4)
  else if "true".toList.isPrefixOf chars then some (.bool true, chars.drop 4)
  else if "false".toList.isPrefixOf chars then some (.bool false, chars.drop 5)
  else none

/-- What follows the opening quote, up to the closing one. -/
def readText : Nat → List Char → Option (List Char × List Char)
  | 0, _ => none
  | fuel + 1, chars =>
    if chars.head? = some '"' then some ([], chars.tail)
    else do
      let c ← readEscaped chars
      let cs ← readText fuel c.2
      some (c.1 :: cs.1, cs.2)

mutual

/-- The value at the front of a text, and the rest. -/
def readValue : Nat → List Char → Option (Value × List Char)
  | 0, _ => none
  | fuel + 1, chars =>
    if chars.head? = some '"' then do
      let s ← readText fuel chars.tail
      some (.string (String.ofList s.1), s.2)
    else if chars.head? = some '[' then
      if chars.tail.head? = some ']' then some (.array [], chars.tail.tail)
      else do
        let xs ← readItems fuel chars.tail
        some (.array xs.1, xs.2)
    else if chars.head? = some '\x7b' then
      if chars.tail.head? = some '\x7d' then some (.object [], chars.tail.tail)
      else do
        let fields ← readMembers fuel chars.tail
        some (.object fields.1, fields.2)
    else if chars.head?.any isNumeral then
      some (.number (readNumber double (chars.takeWhile isNumeral)), chars.dropWhile isNumeral)
    else readWord chars

/-- The items of an array, up to its end. -/
def readItems : Nat → List Char → Option (List Value × List Char)
  | 0, _ => none
  | fuel + 1, chars => do
    let x ← readValue fuel chars
    if x.2.head? = some ',' then do
      let xs ← readItems fuel x.2.tail
      some (x.1 :: xs.1, xs.2)
    else if x.2.head? = some ']' then some ([x.1], x.2.tail)
    else none

/-- The members of an object, up to its end. -/
def readMembers : Nat → List Char → Option (List (String × Value) × List Char)
  | 0, _ => none
  | fuel + 1, chars =>
    if chars.head? = some '"' then do
      let key ← readText fuel chars.tail
      if key.2.head? = some ':' then do
        let v ← readValue fuel key.2.tail
        let f := (String.ofList key.1, v.1)
        if v.2.head? = some ',' then do
          let fields ← readMembers fuel v.2.tail
          some (f :: fields.1, fields.2)
        else if v.2.head? = some '\x7d' then some ([f], v.2.tail)
        else none
      else none
    else none

end

/-- The value that is the whole text. -/
def readJson (text : String) : Option Value := do
  let v ← readValue double (text.toList.length + 1) text.toList
  if v.2 = [] then some v.1 else none

end

/-! ### Texts as lists of characters -/

theorem toList_array [F64.Fmt] (xs : List Value) : (Value.array xs).toJson.toList =
    '[' :: (List.intercalate [','] ((Value.toJsonItems xs).map String.toList) ++ [']']) := by
  simp [Value.toJson, String.toList_intercalate]

theorem toList_object [F64.Fmt] (fields : List (String × Value)) : (Value.object fields).toJson.toList =
    '\x7b' :: (List.intercalate [','] ((Value.toJsonFields fields).map String.toList) ++ ['\x7d']) := by
  simp [Value.toJson, String.toList_intercalate]

/-- What follows a number in a text. -/
def Stops (rest : List Char) : Prop := ∀ c, rest.head? = some c → isNumeral c = false

theorem stops_cons {c : Char} (h : isNumeral c = false) (rest : List Char) : Stops (c :: rest) := by
  intro d hd
  rw [← Option.some.inj hd]
  exact h

theorem stops_nil : Stops [] := fun c hc => by cases hc

/-! ### Strings -/

theorem escapeChar_head (c : Char) (rest : List Char) : ((Value.escapeChar c).toList ++ rest).head? ≠ some '"' := by
  unfold Value.escapeChar
  split_ifs with hquote
  all_goals simp_all

theorem readText_escaped (cs rest : List Char) {fuel : Nat} (h : cs.length < fuel) :
    readText fuel ((cs.flatMap fun c => (Value.escapeChar c).toList) ++ '"' :: rest) = some (cs, rest) := by
  induction cs generalizing fuel with
  | nil =>
    cases fuel with
    | zero => omega
    | succ fuel => rfl
  | cons c cs ih =>
    cases fuel with
    | zero => omega
    | succ fuel =>
      rw [List.flatMap_cons, List.append_assoc, readText, if_neg (escapeChar_head c _), Value.readEscaped_escapeChar]
      simp only [Option.bind_eq_bind, Option.bind_some]
      rw [ih (by simpa using h)]
      rfl

theorem length_escaped (cs : List Char) : cs.length ≤ (cs.flatMap fun c => (Value.escapeChar c).toList).length := by
  induction cs with
  | nil => exact Nat.le_refl _
  | cons c cs ih =>
    have hne : 0 < (Value.escapeChar c).toList.length := by
      unfold Value.escapeChar
      split_ifs
      all_goals simp
    rw [List.flatMap_cons, List.length_append, List.length_cons]
    omega

theorem length_quote (s : String) : s.toList.length + 2 ≤ (Value.quote s).toList.length := by
  have h := length_escaped s.toList
  rw [Value.toList_quote, List.length_append, List.length_cons, List.length_singleton]
  omega

theorem readText_quote (s : String) (rest : List Char) {fuel : Nat} (h : s.toList.length < fuel) :
    readText fuel ((Value.quote s).toList.tail ++ rest) = some (s.toList, rest) := by
  rw [Value.toList_quote, List.cons_append, List.tail_cons, List.append_assoc]
  exact readText_escaped s.toList rest h

/-! ### Numbers -/

theorem isNumeral_of_isDigit {c : Char} (h : c.isDigit = true) : isNumeral c = true := by
  simp [isNumeral, h]

theorem not_isFractional_of_isDigit {c : Char} (h : c.isDigit = true) : isFractional c = false := by
  have hne : ∀ d, d.isDigit = false → c ≠ d := by
    rintro d hd rfl
    rw [h] at hd
    cases hd
  simp [isFractional, hne '.' rfl, hne 'e' rfl, hne 'E' rfl]

theorem not_fractional_toString (i : Int) : (toString i).toList.any isFractional = false := by
  rw [List.any_eq_false]
  intro c hc
  rcases Value.mem_toString_int hc with hdigit | rfl
  · simp [not_isFractional_of_isDigit hdigit]
  · decide

theorem toString_nat (n : Nat) : (toString n).toList = Nat.toDigits 10 n := by
  rw [Nat.toString_eq_repr, Nat.toList_repr]

theorem takeWhile_numeral {text rest : List Char} (h : ∀ c ∈ text, isNumeral c = true) (hrest : Stops rest) :
    (text ++ rest).takeWhile isNumeral = text ∧ (text ++ rest).dropWhile isNumeral = rest := by
  have hstop : rest.takeWhile isNumeral = [] ∧ rest.dropWhile isNumeral = rest := by
    cases rest with
    | nil => exact ⟨rfl, rfl⟩
    | cons c rest => simp [hrest c rfl]
  rw [List.takeWhile_append_of_pos h, List.dropWhile_append_of_pos h, hstop.1, hstop.2, List.append_nil]
  exact ⟨rfl, rfl⟩

/-- The text of the items of an array, or of the members of an object. -/
def joined (texts : List String) : List Char := List.intercalate [','] (texts.map String.toList)

theorem joined_cons_cons (a b : String) (texts : List String) :
    joined (a :: b :: texts) = a.toList ++ ',' :: joined (b :: texts) := by
  simp [joined, List.intercalate_cons_cons]

theorem joined_singleton (a : String) : joined [a] = a.toList := by
  simp [joined]

theorem readValue_string (double : List Char → F64) (s : String) {fuel : Nat} (hfuel : (Value.quote s).toList.length < fuel) (rest : List Char) :
    readValue double fuel ((Value.quote s).toList ++ rest) = some (.string s, rest) := by
  obtain ⟨fuel, rfl⟩ := Nat.exists_eq_succ_of_ne_zero (Nat.ne_of_gt (Nat.zero_lt_of_lt hfuel))
  have hlength := length_quote s
  have htail : ((Value.quote s).toList ++ rest).tail = (Value.quote s).toList.tail ++ rest := by
    rw [Value.toList_quote]
    rfl
  have hhead : ((Value.quote s).toList ++ rest).head? = some '"' := by
    rw [Value.toList_quote]
    rfl
  rw [readValue, if_pos hhead, htail, readText_quote s rest (by omega)]
  show some (Value.string (String.ofList s.toList), rest) = _
  rw [String.ofList_toList]

section

variable [F64.Fmt] {double : List Char → F64}

/-- What the reader makes of the text of a double. -/
def reread (double : List Char → F64) (f : F64) : F64 := double (F64.Fmt.fmt f).toList

theorem numeral_of_mem (hfmt : F64.Decimal) (n : Number) : ∀ c ∈ (Value.numberText n).toList, isNumeral c = true := by
  intro c hc
  have hint : ∀ i : Int, c ∈ (toString i).toList → isNumeral c = true := by
    intro i hi
    rcases Value.mem_toString_int hi with hdigit | rfl
    · exact isNumeral_of_isDigit hdigit
    · rfl
  cases n with
  | posInt m => exact hint (m : Int) hc
  | negInt i => exact hint i hc
  | float f => exact hfmt.numeral f c hc

omit [F64.Fmt] in
theorem toDigits_lastDigit (m : Nat) : ∃ front c, Nat.toDigits 10 m = front ++ [c] ∧ c.isDigit = true := by
  refine ⟨(Nat.toDigits 10 m).dropLast, _, (List.dropLast_append_getLast Nat.toDigits_ne_nil).symm, ?_⟩
  exact Value.isDigit_of_mem_toDigits (List.getLast_mem Nat.toDigits_ne_nil)

/-- The text of a number ends in a digit. -/
theorem numberText_lastDigit (hfmt : F64.Decimal) (n : Number) :
    ∃ front c, (Value.numberText n).toList = front ++ [c] ∧ c.isDigit = true := by
  cases n with
  | posInt m =>
    show ∃ front c, (toString m).toList = front ++ [c] ∧ _
    rw [toString_nat]
    exact toDigits_lastDigit m
  | negInt i =>
    show ∃ front c, (toString i).toList = front ++ [c] ∧ _
    cases i with
    | ofNat m =>
      show ∃ front c, (toString (m : Int)).toList = front ++ [c] ∧ _
      rw [Value.toList_toString_nonneg]
      exact toDigits_lastDigit m
    | negSucc m =>
      rw [Value.toList_toString_neg]
      obtain ⟨front, c, heq, hc⟩ := toDigits_lastDigit (m + 1)
      exact ⟨'-' :: front, c, by rw [heq]; rfl, hc⟩
  | float f => exact hfmt.lastDigit f

theorem readNumber_numberText (hfmt : F64.Decimal) {n : Number} (hn : ∀ i, n = .negInt i → i < 0) :
    Value.number (readNumber double (Value.numberText n).toList) = (Value.number n).mapDoubles (reread double) := by
  cases n with
  | posInt m =>
    have htext : (Value.numberText (.posInt m)).toList = Nat.toDigits 10 m := toString_nat m
    have hfrac : (Nat.toDigits 10 m).any isFractional = false := by
      rw [← Value.toList_toString_nonneg]
      exact not_fractional_toString m
    have hsign : (Nat.toDigits 10 m).head? ≠ some '-' := by
      intro hhead
      have hdigit := Value.isDigit_of_mem_toDigits (List.mem_of_mem_head? hhead)
      cases hdigit
    rw [htext, readNumber, hfrac, if_neg Bool.false_ne_true, if_neg hsign, Nat.ofDigitChars_ten_toDigits]
    rfl
  | negInt i =>
    have hneg := hn i rfl
    have htext : (Value.numberText (.negInt i)).toList = (toString i).toList := rfl
    have hsign : (toString i).toList.head? = some '-' := by
      cases i with
      | ofNat m => simp at hneg; omega
      | negSucc m => rw [Value.toList_toString_neg]; rfl
    rw [htext, readNumber, not_fractional_toString, if_neg Bool.false_ne_true, if_pos hsign, Value.readInt_toString]
    rfl
  | float f =>
    have htext : (Value.numberText (.float f)).toList = (F64.Fmt.fmt f).toList := rfl
    rw [htext, readNumber, if_pos (hfmt.fractional f)]
    rfl

theorem readValue_number (hfmt : F64.Decimal) {n : Number} (hn : ∀ i, n = .negInt i → i < 0) {fuel : Nat}
    (hfuel : 0 < fuel) {rest : List Char} (hrest : Stops rest) :
    readValue double fuel ((Value.numberText n).toList ++ rest) =
      some ((Value.number n).mapDoubles (reread double), rest) := by
  obtain ⟨fuel, rfl⟩ := Nat.exists_eq_succ_of_ne_zero hfuel.ne'
  have hmem := numeral_of_mem hfmt n
  obtain ⟨front, last, htext, -⟩ := numberText_lastDigit hfmt n
  obtain ⟨c, tail, hhead⟩ : ∃ c tail, (Value.numberText n).toList = c :: tail := by
    cases front with
    | nil => exact ⟨_, _, htext⟩
    | cons c front => exact ⟨_, _, htext⟩
  have hc : isNumeral c = true := hmem c (by rw [hhead]; exact List.mem_cons_self)
  have hne : ∀ d, isNumeral d = false → ((Value.numberText n).toList ++ rest).head? ≠ some d := by
    intro d hd hsome
    rw [hhead] at hsome
    rw [← Option.some.inj hsome, hc] at hd
    cases hd
  have hnumeral : ((Value.numberText n).toList ++ rest).head?.any isNumeral = true := by
    rw [hhead]
    exact hc
  rw [readValue, if_neg (hne '"' rfl), if_neg (hne '[' rfl), if_neg (hne '\x7b' rfl), if_pos hnumeral,
    (takeWhile_numeral hmem hrest).1, (takeWhile_numeral hmem hrest).2, readNumber_numberText hfmt hn]

/-- What is read where the value was written is the value, up to its doubles, and the reader stops behind it. -/
def ReadsBack (double : List Char → F64) (v : Value) : Prop :=
  ∀ fuel rest, v.toJson.toList.length < fuel → Stops rest →
    readValue double fuel (v.toJson.toList ++ rest) = some (v.mapDoubles (reread double), rest)

theorem readItems_joined {x : Value} {xs : List Value} (h : ∀ y ∈ x :: xs, ReadsBack double y) {fuel : Nat}
    (hfuel : (joined (Value.toJsonItems (x :: xs))).length + 1 < fuel) (rest : List Char) :
    readItems double fuel (joined (Value.toJsonItems (x :: xs)) ++ ']' :: rest) =
      some (Value.mapDoublesItems (reread double) (x :: xs), rest) := by
  induction xs generalizing x fuel with
  | nil =>
    obtain ⟨fuel, rfl⟩ := Nat.exists_eq_succ_of_ne_zero (Nat.ne_of_gt (Nat.zero_lt_of_lt hfuel))
    have htext : joined (Value.toJsonItems [x]) = x.toJson.toList := joined_singleton _
    rw [htext] at hfuel ⊢
    rw [readItems, h x List.mem_cons_self fuel _ (by omega) (stops_cons rfl rest)]
    rfl
  | cons y ys ih =>
    obtain ⟨fuel, rfl⟩ := Nat.exists_eq_succ_of_ne_zero (Nat.ne_of_gt (Nat.zero_lt_of_lt hfuel))
    have htext : joined (Value.toJsonItems (x :: y :: ys)) =
        x.toJson.toList ++ ',' :: joined (Value.toJsonItems (y :: ys)) := joined_cons_cons _ _ _
    rw [htext, List.length_append, List.length_cons] at hfuel
    rw [htext, List.append_assoc, List.cons_append, readItems, h x List.mem_cons_self fuel _ (by omega) (stops_cons rfl _)]
    show (do
      let xs ← readItems double fuel (joined (Value.toJsonItems (y :: ys)) ++ ']' :: rest)
      some (x.mapDoubles (reread double) :: xs.1, xs.2)) = _
    rw [ih (fun z hz => h z (List.mem_cons_of_mem x hz)) (by omega)]
    rfl

theorem member_text (k : String) (v : Value) (fields : List (String × Value)) :
    ∃ text, Value.toJsonFields ((k, v) :: fields) = text :: Value.toJsonFields fields ∧
      text.toList = '"' :: ((Value.quote k).toList.tail ++ ':' :: v.toJson.toList) ∧
      k.toList.length + v.toJson.toList.length < text.toList.length := by
  refine ⟨Value.quote k ++ ":" ++ v.toJson, by rw [Value.toJsonFields], ?_, ?_⟩
  · rw [String.toList_append, String.toList_append, Value.toList_quote]
    simp
  · have h := length_quote k
    rw [String.toList_append, String.toList_append, List.length_append, List.length_append]
    omega

theorem readMembers_joined {f : String × Value} {fields : List (String × Value)}
    (h : ∀ g ∈ f :: fields, ReadsBack double g.2) {fuel : Nat}
    (hfuel : (joined (Value.toJsonFields (f :: fields))).length + 1 < fuel) (rest : List Char) :
    readMembers double fuel (joined (Value.toJsonFields (f :: fields)) ++ '\x7d' :: rest) =
      some (Value.mapDoublesFields (reread double) (f :: fields), rest) := by
  induction fields generalizing f fuel with
  | nil =>
    obtain ⟨k, v⟩ := f
    obtain ⟨fuel, rfl⟩ := Nat.exists_eq_succ_of_ne_zero (Nat.ne_of_gt (Nat.zero_lt_of_lt hfuel))
    have hv : ReadsBack double v := h _ List.mem_cons_self
    obtain ⟨text, hfields, htext, hlength⟩ := member_text k v []
    have hjoined : joined (Value.toJsonFields [(k, v)]) = text.toList := by
      rw [hfields]
      exact joined_singleton text
    rw [hjoined] at hfuel ⊢
    rw [htext, List.cons_append, List.append_assoc, List.cons_append, readMembers, List.head?_cons, if_pos rfl,
      List.tail_cons, readText_quote k _ (by omega)]
    simp only [Option.bind_eq_bind, Option.bind_some, List.head?_cons, if_true, List.tail_cons]
    rw [hv fuel _ (by omega) (stops_cons rfl rest)]
    simp
  | cons g fields ih =>
    obtain ⟨k, v⟩ := f
    obtain ⟨fuel, rfl⟩ := Nat.exists_eq_succ_of_ne_zero (Nat.ne_of_gt (Nat.zero_lt_of_lt hfuel))
    have hv : ReadsBack double v := h _ List.mem_cons_self
    obtain ⟨text, hfields, htext, hlength⟩ := member_text k v (g :: fields)
    have hjoined : joined (Value.toJsonFields ((k, v) :: g :: fields)) =
        text.toList ++ ',' :: joined (Value.toJsonFields (g :: fields)) := by
      rw [hfields]
      obtain ⟨k', v'⟩ := g
      exact joined_cons_cons _ _ _
    rw [hjoined, List.length_append, List.length_cons] at hfuel
    rw [hjoined, htext, List.cons_append, List.cons_append, List.append_assoc, List.append_assoc, List.cons_append,
      List.cons_append, readMembers, List.head?_cons, if_pos rfl, List.tail_cons, readText_quote k _ (by omega)]
    simp only [Option.bind_eq_bind, Option.bind_some, List.head?_cons, if_true, List.tail_cons]
    rw [hv fuel _ (by omega) (stops_cons rfl _)]
    simp only [Option.bind_some, List.head?_cons, if_true, List.tail_cons]
    rw [ih (fun z hz => h z (List.mem_cons_of_mem _ hz)) (by omega)]
    simp

/-- A value does not start with the end of an array. -/
theorem text_head {x : Value} (hx : ReadsBack double x) : ∃ c tail, x.toJson.toList = c :: tail ∧ c ≠ ']' := by
  have hread := hx (x.toJson.toList.length + 1) [] (Nat.lt_succ_self _) stops_nil
  cases htext : x.toJson.toList with
  | nil =>
    rw [htext] at hread
    simp [readValue, readWord] at hread
  | cons c tail =>
    refine ⟨c, tail, rfl, ?_⟩
    rintro rfl
    rw [htext] at hread
    simp [readValue, readWord, isNumeral] at hread

theorem joined_head {x : Value} (xs : List Value) (hx : ReadsBack double x) :
    ∃ c tail, joined (Value.toJsonItems (x :: xs)) = c :: tail ∧ c ≠ ']' := by
  obtain ⟨c, tail, htext, hc⟩ := text_head hx
  cases xs with
  | nil => exact ⟨c, tail, (joined_singleton _).trans htext, hc⟩
  | cons y ys =>
    refine ⟨c, tail ++ ',' :: joined (Value.toJsonItems (y :: ys)), ?_, hc⟩
    rw [show joined (Value.toJsonItems (x :: y :: ys)) = _ from joined_cons_cons _ _ _, htext]
    rfl

theorem readsBack_array {xs : List Value} (h : ∀ x ∈ xs, ReadsBack double x) : ReadsBack double (.array xs) := by
  intro fuel rest hfuel _
  obtain ⟨fuel, rfl⟩ := Nat.exists_eq_succ_of_ne_zero (Nat.ne_of_gt (Nat.zero_lt_of_lt hfuel))
  cases xs with
  | nil => simp [Value.toJson, Value.toJsonItems, readValue]
  | cons x xs =>
    obtain ⟨c, tail, hjoined, hc⟩ := joined_head xs (h x List.mem_cons_self)
    have htext : (Value.array (x :: xs)).toJson.toList ++ rest =
        '[' :: (joined (Value.toJsonItems (x :: xs)) ++ ']' :: rest) := by
      rw [toList_array, joined, List.cons_append, List.append_assoc]
      rfl
    have hhead : (joined (Value.toJsonItems (x :: xs)) ++ ']' :: rest).head? ≠ some ']' := by
      rw [hjoined]
      exact fun heq => hc (Option.some.inj heq)
    have hlength : (joined (Value.toJsonItems (x :: xs))).length + 1 < fuel := by
      rw [toList_array, List.length_cons, List.length_append, List.length_singleton] at hfuel
      exact Nat.lt_of_succ_lt_succ hfuel
    rw [htext, readValue, List.head?_cons, if_neg (by decide), if_pos rfl, List.tail_cons, if_neg hhead,
      readItems_joined h hlength rest]
    rfl

theorem readsBack_object {fields : List (String × Value)} (h : ∀ f ∈ fields, ReadsBack double f.2) :
    ReadsBack double (.object fields) := by
  intro fuel rest hfuel _
  obtain ⟨fuel, rfl⟩ := Nat.exists_eq_succ_of_ne_zero (Nat.ne_of_gt (Nat.zero_lt_of_lt hfuel))
  cases fields with
  | nil => simp [Value.toJson, Value.toJsonFields, readValue]
  | cons f fields =>
    have htext : (Value.object (f :: fields)).toJson.toList ++ rest =
        '\x7b' :: (joined (Value.toJsonFields (f :: fields)) ++ '\x7d' :: rest) := by
      rw [toList_object, joined, List.cons_append, List.append_assoc]
      rfl
    have hhead : (joined (Value.toJsonFields (f :: fields)) ++ '\x7d' :: rest).head? ≠ some '\x7d' := by
      obtain ⟨text, hfields, hmember, -⟩ := member_text f.1 f.2 fields
      rw [show Value.toJsonFields (f :: fields) = text :: Value.toJsonFields fields from hfields]
      cases Value.toJsonFields fields with
      | nil =>
        rw [joined_singleton, hmember]
        simp
      | cons next texts =>
        rw [joined_cons_cons, hmember]
        simp
    have hlength : (joined (Value.toJsonFields (f :: fields))).length + 1 < fuel := by
      rw [toList_object, List.length_cons, List.length_append, List.length_singleton] at hfuel
      exact Nat.lt_of_succ_lt_succ hfuel
    rw [htext, readValue, List.head?_cons, if_neg (by decide), if_neg (by decide), if_pos rfl, List.tail_cons,
      if_neg hhead, readMembers_joined h hlength rest]
    rfl

variable (double) in
/-- Whatever was written is read back. -/
theorem readsBack (hfmt : F64.Decimal) {v : Value} (hv : v.Signed) : ReadsBack double v := by
  induction hv with
  | null =>
    intro fuel rest hfuel _
    obtain ⟨fuel, rfl⟩ := Nat.exists_eq_succ_of_ne_zero (Nat.ne_of_gt (Nat.zero_lt_of_lt hfuel))
    simp [Value.toJson, readValue, readWord, isNumeral]
  | bool b =>
    intro fuel rest hfuel _
    obtain ⟨fuel, rfl⟩ := Nat.exists_eq_succ_of_ne_zero (Nat.ne_of_gt (Nat.zero_lt_of_lt hfuel))
    cases b <;> simp [Value.toJson, readValue, readWord, isNumeral]
  | number hn =>
    intro fuel rest hfuel hrest
    exact readValue_number hfmt hn (Nat.zero_lt_of_lt hfuel) hrest
  | string s =>
    intro fuel rest hfuel _
    exact readValue_string double s hfuel rest
  | array _ ih => exact readsBack_array ih
  | object _ ih => exact readsBack_object ih

variable (double) in
/-- Reading the text of a value gives the value with its doubles as they are read. -/
theorem readJson_toJson (hfmt : F64.Decimal) {v : Value} (hv : v.Signed) :
    readJson double v.toJson = some (v.mapDoubles (reread double)) := by
  have hread := readsBack double hfmt hv (v.toJson.toList.length + 1) [] (Nat.lt_succ_self _) stops_nil
  rw [List.append_nil] at hread
  rw [readJson, hread]
  rfl

end

/-! ### A text determines its value -/

mutual

theorem mapDoubles_id : ∀ v : Value, v.mapDoubles (fun f => f) = v
  | .null => rfl
  | .bool _ => rfl
  | .number (.posInt _) => rfl
  | .number (.negInt _) => rfl
  | .number (.float _) => rfl
  | .string _ => rfl
  | .array xs => congrArg Value.array (mapDoublesItems_id xs)
  | .object fields => congrArg Value.object (mapDoublesFields_id fields)

theorem mapDoublesItems_id : ∀ xs : List Value, Value.mapDoublesItems (fun f => f) xs = xs
  | [] => rfl
  | x :: xs => congrArg₂ List.cons (mapDoubles_id x) (mapDoublesItems_id xs)

theorem mapDoublesFields_id : ∀ fields : List (String × Value), Value.mapDoublesFields (fun f => f) fields = fields
  | [] => rfl
  | (k, v) :: fields => congrArg₂ (fun w ws => (k, w) :: ws) (mapDoubles_id v) (mapDoublesFields_id fields)

end

/-- The text of a value determines it. -/
theorem toJson_injective [F64.Fmt] (hfmt : F64.Decimal) {v w : Value} (hv : v.Signed) (hw : w.Signed)
    (h : v.toJson = w.toJson) : v = w := by
  -- the reader that takes the text of each double for that double
  have hsome : Nonempty F64 := ⟨⟨0, false, fun _ => rfl⟩⟩
  obtain ⟨undo, hundo⟩ := hfmt.injective.hasLeftInverse
  have hexact : reread (fun chars => undo (String.ofList chars)) = fun f => f := by
    funext f
    rw [reread, String.ofList_toList, hundo]
  have hreadv := readJson_toJson (fun chars => undo (String.ofList chars)) hfmt hv
  have hreadw := readJson_toJson (fun chars => undo (String.ofList chars)) hfmt hw
  rw [hexact, mapDoubles_id] at hreadv hreadw
  rw [h, hreadw] at hreadv
  exact (Option.some.inj hreadv).symm

end Reader

namespace Sample

/-- Texts of doubles from which the double can be told. -/
@[reducible] def decimalFmt : F64.Fmt where
  fmt f := if f.negZero then "-0.0" else toString f.val.num ++ ".0e" ++ toString (f.val.den : Int)

section

attribute [local instance] decimalFmt

theorem toList_decimalFmt {f : F64} (h : f.negZero = false) : (F64.Fmt.fmt f).toList =
    (toString f.val.num).toList ++ '.' :: '0' :: 'e' :: (toString (f.val.den : Int)).toList := by
  show (if f.negZero then "-0.0" else toString f.val.num ++ ".0e" ++ toString (f.val.den : Int)).toList = _
  rw [h]
  simp

theorem decimalFmt_negZero {f : F64} (h : f.negZero = true) : F64.Fmt.fmt f = "-0.0" := if_pos h

theorem point_not_mem (i : Int) : '.' ∉ (toString i).toList := by
  intro h
  rcases Value.mem_toString_int h with hdigit | hsign
  · exact absurd hdigit (by decide)
  · exact absurd hsign (by decide)

theorem val_of_decimalFmt {f g : F64} (hf : f.negZero = false) (hg : g.negZero = false)
    (h : F64.Fmt.fmt f = F64.Fmt.fmt g) : f.val = g.val := by
  have htexts := congrArg String.toList h
  rw [toList_decimalFmt hf, toList_decimalFmt hg] at htexts
  have hpoint : '.' ∉ '0' :: 'e' :: (toString (f.val.den : Int)).toList := by
    exact List.not_mem_cons_of_ne_of_not_mem (by decide)
      (List.not_mem_cons_of_ne_of_not_mem (by decide) (point_not_mem _))
  obtain ⟨hnum, -, hrest⟩ := (List.append_cons_inj_of_notMem (point_not_mem _) hpoint).mp htexts
  have hnum := Value.toString_int_injective (String.toList_injective hnum)
  have hden := Value.toString_int_injective (String.toList_injective (List.cons.inj (List.cons.inj hrest).2).2)
  exact Rat.ext hnum (by omega)

theorem decimalFmt_ne {f g : F64} (hf : f.negZero = true) (hg : g.negZero = false) :
    F64.Fmt.fmt f ≠ F64.Fmt.fmt g := by
  intro h
  have hmem : 'e' ∈ (F64.Fmt.fmt f).toList := by
    rw [h, toList_decimalFmt hg]
    simp
  rw [decimalFmt_negZero hf] at hmem
  exact absurd hmem (by decide)

theorem decimalFmt_injective : Function.Injective F64.Fmt.fmt := by
  intro f g h
  have hsign : f.negZero = g.negZero := by
    cases hf : f.negZero <;> cases hg : g.negZero
    · rfl
    · exact absurd h.symm (decimalFmt_ne hg hf)
    · exact absurd h (decimalFmt_ne hf hg)
    · rfl
  have hval : f.val = g.val := by
    cases hf : f.negZero with
    | true => rw [f.val_negZero hf, g.val_negZero (hsign ▸ hf)]
    | false => exact val_of_decimalFmt hf (hsign ▸ hf) h
  obtain ⟨val, negZero, _⟩ := f
  obtain ⟨val', negZero', _⟩ := g
  subst hsign hval
  rfl

theorem decimal_decimalFmt : F64.Decimal where
  injective := decimalFmt_injective
  numeral := by
    intro f c hc
    have hint : ∀ i : Int, c ∈ (toString i).toList → Value.isNumeral c = true := by
      intro i hi
      rcases Value.mem_toString_int hi with hdigit | rfl
      · simp [Value.isNumeral, hdigit]
      · rfl
    cases hf : f.negZero with
    | true =>
      rw [decimalFmt_negZero hf] at hc
      have hall : ∀ c ∈ "-0.0".toList, Value.isNumeral c = true := List.all_eq_true.mp rfl
      exact hall c hc
    | false =>
      rw [toList_decimalFmt hf] at hc
      rcases List.mem_append.mp hc with hnum | hrest
      · exact hint _ hnum
      · have hcases : c = '.' ∨ c = '0' ∨ c = 'e' ∨ c ∈ (toString (f.val.den : Int)).toList := by simpa using hrest
        rcases hcases with rfl | rfl | rfl | hden
        · rfl
        · rfl
        · rfl
        · exact hint _ hden
  fractional := by
    intro f
    cases hf : f.negZero with
    | true => rw [decimalFmt_negZero hf]; rfl
    | false =>
      rw [toList_decimalFmt hf, List.any_append]
      simp [Value.isFractional]
  lastDigit := by
    intro f
    cases hf : f.negZero with
    | true => exact ⟨['-', '0', '.'], '0', by rw [decimalFmt_negZero hf]; rfl, rfl⟩
    | false =>
      obtain ⟨front, c, hden, hc⟩ := Reader.toDigits_lastDigit f.val.den
      refine ⟨(toString f.val.num).toList ++ '.' :: '0' :: 'e' :: front, c, ?_, hc⟩
      rw [toList_decimalFmt hf, Value.toList_toString_nonneg, hden]
      simp

end

end Sample

end ThoughtGate
