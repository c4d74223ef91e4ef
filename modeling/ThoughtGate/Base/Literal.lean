import ThoughtGate.Base.Json

/-!
# Literals read back

The text of a string or of an integer determines it: `Value.quote_injective` and `numberText_injective`. The escapes are a
code that is read back one character at a time (`readEscaped`), and such a code is injective on texts.
-/

namespace ThoughtGate

/-- A code whose words are read back one at a time is injective. -/
theorem flatMap_injective_of_read {α β : Type} {code : α → List β} {read : List β → Option (α × List β)}
    (hnil : read [] = none) (hread : ∀ a rest, read (code a ++ rest) = some (a, rest)) :
    Function.Injective (List.flatMap code) := by
  have hne : ∀ a rest, code a ++ rest ≠ [] := by
    intro a rest hempty
    have h := hread a rest
    rw [hempty, hnil] at h
    cases h
  intro xs
  induction xs with
  | nil =>
    intro ys h
    cases ys with
    | nil => rfl
    | cons y ys => exact absurd h.symm (hne y _)
  | cons x xs ih =>
    intro ys h
    cases ys with
    | nil => exact absurd h (hne x _)
    | cons y ys =>
      have hx := hread x (xs.flatMap code)
      have hy := hread y (ys.flatMap code)
      rw [List.flatMap_cons, List.flatMap_cons] at h
      rw [h, hy] at hx
      obtain ⟨hhead, htail⟩ := Prod.mk.inj (Option.some.inj hx)
      rw [hhead, ih htail.symm]

namespace Value

/-- The value of a hexadecimal digit as `escapeChar` writes it. -/
def hexValue (c : Char) : Nat := if c.isDigit then c.toNat - 48 else c.toNat - 87

/-- The character after a backslash, outside of `\u00xx`. -/
def unescape (c : Char) : Char :=
  if c = 'b' then Char.ofNat 8
  else if c = 'f' then Char.ofNat 12
  else if c = 'n' then '\n'
  else if c = 'r' then '\r'
  else if c = 't' then '\t'
  else c

/-- Reads one character back. -/
def readEscaped : List Char → Option (Char × List Char)
  | [] => none
  | c :: rest =>
    if c = '\\' then
      match rest with
      | 'u' :: _ :: _ :: hi :: lo :: rest => some (Char.ofNat (16 * hexValue hi + hexValue lo), rest)
      | e :: rest => some (unescape e, rest)
      | [] => none
    else some (c, rest)

theorem hexValue_digitChar : ∀ n < 32, 16 * hexValue (Nat.digitChar (n / 16)) + hexValue (Nat.digitChar (n % 16)) = n := by
  decide

theorem readEscaped_escapeChar (c : Char) (rest : List Char) :
    readEscaped ((escapeChar c).toList ++ rest) = some (c, rest) := by
  unfold escapeChar
  split_ifs with hquote hbackslash hb hf hn hr ht hcontrol
  · subst hquote
    rfl
  · subst hbackslash
    rfl
  · subst hb
    rfl
  · subst hf
    rfl
  · subst hn
    rfl
  · subst hr
    rfl
  · subst ht
    rfl
  · simp only [String.toList_append, String.toList_ofList]
    show some (Char.ofNat (16 * hexValue (Nat.digitChar (c.toNat / 16)) + hexValue (Nat.digitChar (c.toNat % 16))), rest)
      = some (c, rest)
    rw [hexValue_digitChar c.toNat hcontrol, Char.ofNat_toNat]
  · rw [String.toList_ofList]
    simp [readEscaped, hbackslash]

theorem toList_quote (s : String) :
    (quote s).toList = '"' :: (s.toList.flatMap fun c => (escapeChar c).toList) ++ ['"'] := by
  rw [quote, String.toList_append, String.toList_append, String.toList_join, List.flatMap_map]
  rfl

/-- A literal determines its string. -/
theorem quote_injective : Function.Injective quote := by
  intro s t h
  have hlist : (quote s).toList = (quote t).toList := congrArg String.toList h
  rw [toList_quote, toList_quote] at hlist
  have hbody := List.append_cancel_right (List.cons.inj hlist).2
  exact String.toList_injective (flatMap_injective_of_read rfl readEscaped_escapeChar hbody)

/-! ### Integers -/

/-- The integer of a decimal text. -/
def readInt : List Char → Int
  | '-' :: digits => -(Nat.ofDigitChars 10 digits 0 : Nat)
  | digits => (Nat.ofDigitChars 10 digits 0 : Nat)

theorem toList_toString_nonneg (n : Nat) : (toString (n : Int)).toList = Nat.toDigits 10 n := by
  show (Nat.repr n).toList = _
  rw [Nat.toList_repr]

theorem toList_toString_neg (n : Nat) : (toString (Int.negSucc n)).toList = '-' :: Nat.toDigits 10 (n + 1) := by
  show ("-" ++ Nat.repr (n + 1)).toList = _
  rw [String.toList_append, Nat.toList_repr]
  rfl

theorem isDigit_of_mem_toDigits {n : Nat} {c : Char} (h : c ∈ Nat.toDigits 10 n) : c.isDigit = true :=
  Nat.isDigit_of_mem_toDigits (by decide) (by decide) h

theorem readInt_digits {digits : List Char} (h : ∀ c ∈ digits, c.isDigit = true) :
    readInt digits = (Nat.ofDigitChars 10 digits 0 : Nat) := by
  unfold readInt
  split
  · have hsign : Char.isDigit '-' = true := h '-' List.mem_cons_self
    cases hsign
  · rfl

theorem readInt_toString (i : Int) : readInt (toString i).toList = i := by
  cases i with
  | ofNat n =>
    show readInt (toString (n : Int)).toList = _
    rw [toList_toString_nonneg, readInt_digits fun c hc => isDigit_of_mem_toDigits hc, Nat.ofDigitChars_ten_toDigits]
    rfl
  | negSucc n =>
    rw [toList_toString_neg]
    show -((Nat.ofDigitChars 10 (Nat.toDigits 10 (n + 1)) 0 : Nat) : Int) = _
    rw [Nat.ofDigitChars_ten_toDigits]
    rfl

/-- A decimal text determines its integer. -/
theorem toString_int_injective : Function.Injective fun i : Int => toString i := by
  intro i j h
  rw [← readInt_toString i, ← readInt_toString j]
  exact congrArg (fun text : String => readInt text.toList) h

theorem mem_toString_int {i : Int} {c : Char} (h : c ∈ (toString i).toList) : c.isDigit = true ∨ c = '-' := by
  cases i with
  | ofNat n =>
    have hc : c ∈ (toString (n : Int)).toList := h
    rw [toList_toString_nonneg] at hc
    exact Or.inl (isDigit_of_mem_toDigits hc)
  | negSucc n =>
    rw [toList_toString_neg] at h
    rcases List.mem_cons.mp h with rfl | hc
    · exact Or.inr rfl
    · exact Or.inl (isDigit_of_mem_toDigits hc)

end Value

end ThoughtGate
