import ThoughtGate.Base.Scanner
import ThoughtGate.Lib.Fences

/-!
# Pretty texts

`serde_json::to_string_pretty` writes a value over several lines. The text is the compact one with blanks between its tokens
(`Spaced`): it determines the value (`prettyText_injective`), and a run of backticks in it is one in a string or a key of the
value, because JSON neither writes backticks itself nor escapes them (`fence_infix_prettyText`).
-/

namespace ThoughtGate

namespace Value

mutual

/-- The strings of a value, keys among them. -/
def texts : Value → List String
  | .string s => [s]
  | .array xs => textsItems xs
  | .object fields => textsFields fields
  | .null | .bool _ | .number _ => []

def textsItems : List Value → List String
  | [] => []
  | x :: xs => texts x ++ textsItems xs

def textsFields : List (String × Value) → List String
  | [] => []
  | (k, v) :: fields => k :: texts v ++ textsFields fields

end

theorem textsItems_eq_flatMap (xs : List Value) : textsItems xs = xs.flatMap texts := by
  induction xs with
  | nil => rfl
  | cons x xs ih => rw [textsItems, List.flatMap_cons, ih]

theorem textsFields_eq_flatMap (fields : List (String × Value)) :
    textsFields fields = fields.flatMap fun f => f.1 :: f.2.texts := by
  induction fields with
  | nil => rfl
  | cons f fields ih => rw [textsFields, List.flatMap_cons, ih]

/-- The indentation of a line: two blanks for each level. -/
def indentation (level : Nat) : String := String.ofList (List.replicate (2 * level) ' ')

section

variable [F64.Fmt]

mutual

/-- The `PrettyFormatter` at a level. -/
def prettyAt (level : Nat) : Value → String
  | .null => "null"
  | .bool b => if b then "true" else "false"
  | .number n => numberText n
  | .string s => quote s
  | .array xs =>
    if xs.isEmpty then "[]"
    else "[\n" ++ String.intercalate ",\n" (prettyItems (level + 1) xs) ++ "\n" ++ indentation level ++ "]"
  | .object fields =>
    if fields.isEmpty then "\x7b\x7d"
    else "\x7b\n" ++ String.intercalate ",\n" (prettyFields (level + 1) fields) ++ "\n" ++ indentation level ++ "\x7d"

def prettyItems (level : Nat) : List Value → List String
  | [] => []
  | x :: xs => (indentation level ++ prettyAt level x) :: prettyItems level xs

def prettyFields (level : Nat) : List (String × Value) → List String
  | [] => []
  | (k, v) :: fields => (indentation level ++ quote k ++ ": " ++ prettyAt level v) :: prettyFields level fields

end

theorem prettyItems_eq_map (level : Nat) (xs : List Value) :
    prettyItems level xs = xs.map fun x => indentation level ++ prettyAt level x := by
  induction xs with
  | nil => rfl
  | cons x xs ih => rw [prettyItems, List.map_cons, ih]

theorem prettyFields_eq_map (level : Nat) (fields : List (String × Value)) :
    prettyFields level fields = fields.map fun f => indentation level ++ quote f.1 ++ ": " ++ prettyAt level f.2 := by
  induction fields with
  | nil => rfl
  | cons f fields ih => rw [prettyFields, List.map_cons, ih]

/-- `serde_json::to_string_pretty`. -/
def prettyText (v : Value) : String := prettyAt 0 v

end

end Value

namespace Scanner

open Value (escapeChar quote)

/-! ### Blanks between tokens -/

/-- The text without the blanks outside of strings. -/
def strip (m : Mode) : List Char → List Char
  | [] => []
  | c :: text =>
    match m with
    | .out =>
      if c = ' ' ∨ c = '\n' then strip .out text else c :: strip (if c = '"' then .str else .out) text
    | .str => c :: strip (if c = '"' then .out else if c = '\\' then .esc else .str) text
    | .esc => c :: strip .str text

theorem strip_out_cons (c : Char) (text : List Char) : strip .out (c :: text) =
    if c = ' ' ∨ c = '\n' then strip .out text else c :: strip (if c = '"' then .str else .out) text := rfl

theorem strip_str_cons (c : Char) (text : List Char) : strip .str (c :: text) =
    c :: strip (if c = '"' then .out else if c = '\\' then .esc else .str) text := rfl

/-- Neither a blank nor a quote nor a backtick. -/
def isInk (c : Char) : Bool := !(c == ' ' || c == '\n' || c == '"' || c == '`')

/-- A text, the same without the blanks outside of its strings, and the strings. -/
inductive Spaced : List Char → List Char → List String → Prop
  | nil : Spaced [] [] []
  | blank {c : Char} : c = ' ' ∨ c = '\n' → Spaced [c] [] []
  | ink {c : Char} : isInk c = true → Spaced [c] [c] []
  | quote (s : String) : Spaced (quote s).toList (quote s).toList [s]
  | append {text text' bare bare' : List Char} {strings strings' : List String} : Spaced text bare strings →
      Spaced text' bare' strings' → Spaced (text ++ text') (bare ++ bare') (strings ++ strings')

theorem spaced_inks {text : List Char} (h : ∀ c ∈ text, isInk c = true) : Spaced text text [] := by
  induction text with
  | nil => exact .nil
  | cons c text ih => exact (Spaced.ink (h c List.mem_cons_self)).append (ih fun c hc => h c (List.mem_cons_of_mem _ hc))

theorem spaced_blanks {text : List Char} (h : ∀ c ∈ text, c = ' ' ∨ c = '\n') : Spaced text [] [] := by
  induction text with
  | nil => exact .nil
  | cons c text ih => exact (Spaced.blank (h c List.mem_cons_self)).append (ih fun c hc => h c (List.mem_cons_of_mem _ hc))

theorem spaced_indentation (level : Nat) : Spaced (Value.indentation level).toList [] [] := by
  refine spaced_blanks fun c hc => ?_
  rw [Value.indentation, String.toList_ofList] at hc
  exact .inl (List.eq_of_mem_replicate hc)

theorem spaced_intercalate {ι : Type} {text bare : ι → List Char} {strings : ι → List String} {xs : List ι}
    (h : ∀ x ∈ xs, Spaced (text x) (bare x) (strings x)) :
    Spaced (List.intercalate [',', '\n'] (xs.map text)) (List.intercalate [','] (xs.map bare)) (xs.flatMap strings) := by
  induction xs with
  | nil => exact .nil
  | cons x xs ih =>
    have hx := h x List.mem_cons_self
    have hxs := ih fun y hy => h y (List.mem_cons_of_mem _ hy)
    cases xs with
    | nil => simpa using hx
    | cons y ys =>
      have hcomma : Spaced [',', '\n'] [','] [] := (Spaced.ink rfl).append (.blank (.inr rfl))
      have hall := hx.append (hcomma.append hxs)
      simpa [List.intercalate_cons_cons] using hall

/-! ### The text of a value -/

theorem isInk_of_isNumeral {c : Char} (h : Value.isNumeral c = true) : isInk c = true := by
  unfold isInk
  by_contra hnot
  simp only [Bool.not_eq_true', Bool.not_eq_false, Bool.or_eq_true, beq_iff_eq] at hnot
  rcases hnot with ((rfl | rfl) | rfl) | rfl <;> cases h

theorem spaced_word (word : String) (h : word.toList.all isInk = true) : Spaced word.toList word.toList [] :=
  spaced_inks (List.all_eq_true.mp h)

/-- Items on lines of their own, in brackets. -/
theorem spaced_bracketed {ι : Type} {text bare : ι → String} {strings : ι → List String} {xs : List ι} (level : Nat)
    {opening closing : Char} (hopening : isInk opening = true) (hclosing : isInk closing = true)
    (h : ∀ x ∈ xs, Spaced (text x).toList (bare x).toList (strings x)) :
    Spaced (opening :: '\n' :: (List.intercalate [',', '\n'] (xs.map fun x => (text x).toList) ++
        '\n' :: ((Value.indentation level).toList ++ [closing])))
      (opening :: (List.intercalate [','] (xs.map fun x => (bare x).toList) ++ [closing])) (xs.flatMap strings) := by
  have hend := (spaced_indentation level).append (Spaced.ink hclosing)
  have hlines := (spaced_intercalate h).append ((Spaced.blank (.inr rfl)).append hend)
  have hall := (Spaced.ink hopening).append ((Spaced.blank (.inr rfl)).append hlines)
  simpa using hall

section

variable [F64.Fmt]

theorem spaced_array (level : Nat) {xs : List Value}
    (h : ∀ x ∈ xs, Spaced (x.prettyAt (level + 1)).toList x.toJson.toList x.texts) :
    Spaced ((Value.array xs).prettyAt level).toList (Value.array xs).toJson.toList (Value.array xs).texts := by
  have hitems : ∀ x ∈ xs, Spaced (Value.indentation (level + 1) ++ x.prettyAt (level + 1)).toList x.toJson.toList x.texts := by
    intro x hx
    rw [String.toList_append]
    exact (spaced_indentation _).append (h x hx)
  have hall := spaced_bracketed level (rfl : isInk '[' = true) (rfl : isInk ']' = true) hitems
  rw [Value.prettyAt, Value.texts, Value.textsItems_eq_flatMap, Reader.toList_array, Value.toJsonItems_eq_map,
    Value.prettyItems_eq_map]
  split
  · rename_i hempty
    rw [List.isEmpty_iff.mp hempty]
    exact spaced_word "[]" rfl
  · simpa [String.toList_intercalate, Function.comp_def] using hall

theorem spaced_object (level : Nat) {fields : List (String × Value)}
    (h : ∀ f ∈ fields, Spaced (f.2.prettyAt (level + 1)).toList f.2.toJson.toList f.2.texts) :
    Spaced ((Value.object fields).prettyAt level).toList (Value.object fields).toJson.toList (Value.object fields).texts := by
  have hmembers : ∀ f ∈ fields, Spaced
      (Value.indentation (level + 1) ++ quote f.1 ++ ": " ++ f.2.prettyAt (level + 1)).toList
      (quote f.1 ++ ":" ++ f.2.toJson).toList (f.1 :: f.2.texts) := by
    intro f hf
    have hcolon : Spaced ": ".toList ":".toList [] := (Spaced.ink (c := ':') rfl).append (.blank (.inl rfl))
    have hmember := (((spaced_indentation (level + 1)).append (.quote f.1)).append hcolon).append (h f hf)
    simpa using hmember
  have hall := spaced_bracketed level (rfl : isInk '\x7b' = true) (rfl : isInk '\x7d' = true) hmembers
  rw [Value.prettyAt, Value.texts, Value.textsFields_eq_flatMap, Reader.toList_object, Value.toJsonFields_eq_map,
    Value.prettyFields_eq_map]
  split
  · rename_i hempty
    rw [List.isEmpty_iff.mp hempty]
    exact spaced_word "\x7b\x7d" rfl
  · simpa [String.toList_intercalate, Function.comp_def] using hall

mutual

/-- The pretty text of a value is its compact text with blanks. -/
theorem spaced_prettyAt (hfmt : F64.Decimal) : ∀ (v : Value) (level : Nat),
    Spaced (v.prettyAt level).toList v.toJson.toList v.texts
  | .null, _ => spaced_word "null" rfl
  | .bool true, _ => spaced_word "true" rfl
  | .bool false, _ => spaced_word "false" rfl
  | .number n, _ => spaced_inks fun c hc => isInk_of_isNumeral (Reader.numeral_of_mem hfmt n c hc)
  | .string s, _ => .quote s
  | .array xs, level => spaced_array level (spaced_prettyItems hfmt xs (level + 1))
  | .object fields, level => spaced_object level (spaced_prettyFields hfmt fields (level + 1))

theorem spaced_prettyItems (hfmt : F64.Decimal) : ∀ (xs : List Value) (level : Nat), ∀ x ∈ xs,
    Spaced (x.prettyAt level).toList x.toJson.toList x.texts
  | [], _ => fun x h => by cases h
  | x :: xs, level => fun y h => by
    rcases List.mem_cons.mp h with heq | hmem
    · rw [heq]
      exact spaced_prettyAt hfmt x level
    · exact spaced_prettyItems hfmt xs level y hmem

theorem spaced_prettyFields (hfmt : F64.Decimal) : ∀ (fields : List (String × Value)) (level : Nat), ∀ f ∈ fields,
    Spaced (f.2.prettyAt level).toList f.2.toJson.toList f.2.texts
  | [], _ => fun f h => by cases h
  | (k, v) :: fields, level => fun f h => by
    rcases List.mem_cons.mp h with heq | hmem
    · rw [heq]
      exact spaced_prettyAt hfmt v level
    · exact spaced_prettyFields hfmt fields level f hmem

end

end

/-! ### The value of a text -/

theorem strip_str_plain {text : List Char} (h : ∀ c ∈ text, isPlain c = true) (rest : List Char) :
    strip .str (text ++ rest) = text ++ strip .str rest := by
  induction text with
  | nil => rfl
  | cons c text ih =>
    have hplain := h c List.mem_cons_self
    simp only [isPlain, Bool.not_eq_true', Bool.or_eq_false_iff, beq_eq_false_iff_ne] at hplain
    rw [List.cons_append, strip_str_cons, if_neg hplain.1.1.1.1.1, if_neg hplain.1.1.1.1.2,
      ih fun c hc => h c (List.mem_cons_of_mem _ hc), List.cons_append]

theorem strip_escape (c : Char) (rest : List Char) :
    strip .str ((escapeChar c).toList ++ rest) = (escapeChar c).toList ++ strip .str rest := by
  rcases escapeChar_cases c with ⟨-, heq⟩ | ⟨e, tail, heq, -, htail⟩ | ⟨hquote, hbackslash, heq⟩
  · rw [heq]
    rfl
  · rw [heq]
    show '\\' :: e :: strip .str (tail ++ rest) = _
    rw [strip_str_plain htail]
    rfl
  · rw [heq, List.singleton_append, strip_str_cons, if_neg hquote, if_neg hbackslash]
    rfl

/-- Blanks in a string stay. -/
theorem strip_quote (s : String) (rest : List Char) :
    strip .out ((quote s).toList ++ rest) = (quote s).toList ++ strip .out rest := by
  have hbody : ∀ cs : List Char, strip .str ((cs.flatMap fun c => (escapeChar c).toList) ++ '"' :: rest) =
      (cs.flatMap fun c => (escapeChar c).toList) ++ '"' :: strip .out rest := by
    intro cs
    induction cs with
    | nil => rfl
    | cons c cs ih => rw [List.flatMap_cons, List.append_assoc, strip_escape, ih, List.append_assoc]
  have hall := hbody s.toList
  rw [Value.toList_quote, List.append_assoc, List.append_assoc]
  exact congrArg (List.cons '"') hall

theorem Spaced.strip {text bare : List Char} {strings : List String} (h : Spaced text bare strings) (rest : List Char) :
    strip .out (text ++ rest) = bare ++ strip .out rest := by
  induction h generalizing rest with
  | nil => rfl
  | blank hc => exact if_pos hc
  | ink hc =>
    simp only [isInk, Bool.not_eq_true', Bool.or_eq_false_iff, beq_eq_false_iff_ne] at hc
    obtain ⟨⟨⟨hblank, hnewline⟩, hquote⟩, -⟩ := hc
    rw [List.singleton_append, strip_out_cons, if_neg (not_or.mpr ⟨hblank, hnewline⟩), if_neg hquote]
    rfl
  | quote s => exact strip_quote s rest
  | append _ _ ih ih' => rw [List.append_assoc, ih, ih', List.append_assoc]

/-- The pretty text of a value determines it. -/
theorem prettyText_injective [F64.Fmt] (hfmt : F64.Decimal) {v w : Value} (hv : v.Signed) (hw : w.Signed)
    (h : v.prettyText = w.prettyText) : v = w := by
  have hstrip : ∀ u : Value, Scanner.strip .out u.prettyText.toList = u.toJson.toList := by
    intro u
    have hspaced := (spaced_prettyAt hfmt u 0).strip []
    rw [List.append_nil] at hspaced
    exact hspaced.trans (List.append_nil _)
  refine Reader.toJson_injective hfmt hv hw (String.toList_inj.mp ?_)
  rw [← hstrip v, ← hstrip w, h]

/-! ### Backticks -/

theorem backtick_not_mem_escape : ∀ c, c ≠ '`' → (escapeChar c).toList ≠ [] ∧ '`' ∉ (escapeChar c).toList := by
  intro c hc
  have hdigit : ∀ n < 16, Nat.digitChar n ≠ '`' := by decide
  unfold escapeChar
  split_ifs with hquote hbackslash hb hf hn hr ht hcontrol
  iterate 7 exact by decide
  · have hhigh := hdigit (c.toNat / 16) (by omega)
    have hlow := hdigit (c.toNat % 16) (by omega)
    simp [String.toList_append, hhigh.symm, hlow.symm]
  · rw [String.toList_ofList]
    exact ⟨List.cons_ne_nil _ _, fun hmem => hc (List.mem_singleton.mp hmem).symm⟩

/-- A fence in a text with a quoted string in it. -/
theorem fence_infix_quote (k : Nat) (s : String) (xs ys : List Char) :
    List.replicate (k + 1) '`' <:+: xs ++ (quote s).toList ++ ys ↔ List.replicate (k + 1) '`' <:+: xs ∨
      List.replicate (k + 1) '`' <:+: s.toList ∨ List.replicate (k + 1) '`' <:+: ys := by
  have hquote : ('"' : Char) ≠ '`' := by decide
  have htext : xs ++ (quote s).toList ++ ys = xs ++ '"' :: ((s.toList.flatMap fun c => (escapeChar c).toList) ++ '"' :: ys) := by
    rw [Value.toList_quote]
    simp
  rw [htext, fence_infix_append_cons hquote, fence_infix_append_cons hquote,
    fence_infix_flatMap (fun c => (escapeChar c).toList) rfl backtick_not_mem_escape]

theorem not_fence_infix_nil (k : Nat) : ¬ List.replicate (k + 1) '`' <:+: [] := by simp

/-- Whatever a text is put between, its fences are those of its strings. -/
theorem Spaced.fence {text bare : List Char} {strings : List String} (h : Spaced text bare strings) (k : Nat) :
    (text = [] ∧ strings = []) ∨ ∀ xs ys, List.replicate (k + 1) '`' <:+: xs ++ text ++ ys ↔
      List.replicate (k + 1) '`' <:+: xs ∨ (∃ s ∈ strings, List.replicate (k + 1) '`' <:+: s.toList) ∨
        List.replicate (k + 1) '`' <:+: ys := by
  have hchar : ∀ c : Char, c ≠ '`' → ∀ xs ys, List.replicate (k + 1) '`' <:+: xs ++ [c] ++ ys ↔
      List.replicate (k + 1) '`' <:+: xs ∨ (∃ s ∈ ([] : List String), List.replicate (k + 1) '`' <:+: s.toList) ∨
        List.replicate (k + 1) '`' <:+: ys := by
    intro c hc xs ys
    rw [List.append_assoc, List.singleton_append, fence_infix_append_cons hc]
    simp
  induction h with
  | nil => exact .inl ⟨rfl, rfl⟩
  | blank hc => exact .inr (hchar _ (by rcases hc with rfl | rfl <;> decide))
  | ink hc =>
    refine .inr (hchar _ ?_)
    rintro rfl
    cases hc
  | quote s =>
    refine .inr fun xs ys => ?_
    rw [fence_infix_quote]
    simp
  | append _ _ ih ih' =>
    rcases ih with ⟨rfl, rfl⟩ | hfront
    · exact ih'
    · rcases ih' with ⟨rfl, rfl⟩ | hback
      · rw [List.append_nil, List.append_nil]
        exact .inr hfront
      · refine .inr fun xs ys => ?_
        have hrest := hback [] ys
        rw [List.nil_append, or_iff_right (not_fence_infix_nil k)] at hrest
        rw [← List.append_assoc, List.append_assoc, hfront, hrest]
        simp only [List.mem_append, or_and_right, exists_or, or_assoc]

/-- The fences of a pretty text are those of the strings and keys of its value. -/
theorem fence_infix_prettyText [F64.Fmt] (hfmt : F64.Decimal) (k : Nat) (v : Value) :
    List.replicate (k + 1) '`' <:+: v.prettyText.toList ↔
      ∃ s ∈ v.texts, List.replicate (k + 1) '`' <:+: s.toList := by
  rcases (spaced_prettyAt hfmt v 0).fence k with ⟨htext, hstrings⟩ | hall
  · rw [Value.prettyText, htext, hstrings]
    simp
  · have h := hall [] []
    rw [List.nil_append, List.append_nil, or_iff_right (not_fence_infix_nil k),
      or_iff_left (not_fence_infix_nil k)] at h
    exact h

end Scanner

end ThoughtGate
