import ThoughtGate.Base.Canonical

/-!
# Texts that end in a text

When the text of a value ends in the text of another one, both are numbers or both are strings (`absorbs_iff`): the brackets
of an array or an object close at the end of its text and no earlier. A scan that counts the brackets outside of strings
shows it (`Balanced`).
-/

namespace ThoughtGate

namespace Scanner

/-- Where a scan is: outside of strings, in one, or in one after a backslash. -/
inductive Mode where
  | out
  | str
  | esc
deriving DecidableEq

/-- One character, with the number of brackets that are open. Outside of strings there is no backslash, and no bracket
closes that is not open. -/
def next (s : Mode × Nat) (c : Char) : Option (Mode × Nat) :=
  match s.1 with
  | .out =>
    if c = '"' then some (.str, s.2)
    else if c = '\\' then none
    else if c = '[' ∨ c = '\x7b' then some (.out, s.2 + 1)
    else if c = ']' ∨ c = '\x7d' then if s.2 = 0 then none else some (.out, s.2 - 1)
    else some (.out, s.2)
  | .str => if c = '"' then some (.out, s.2) else if c = '\\' then some (.esc, s.2) else some (.str, s.2)
  | .esc => some (.str, s.2)

def scan (s : Mode × Nat) (text : List Char) : Option (Mode × Nat) := text.foldlM next s

theorem scan_nil (s : Mode × Nat) : scan s [] = some s := rfl

theorem scan_cons (s : Mode × Nat) (c : Char) (text : List Char) :
    scan s (c :: text) = (next s c).bind fun s => scan s text := by
  rw [scan, List.foldlM_cons]
  rfl

theorem scan_append (s : Mode × Nat) (a b : List Char) : scan s (a ++ b) = (scan s a).bind fun s => scan s b := by
  rw [scan, List.foldlM_append]
  rfl

/-- With one more bracket open the scan goes the same way. -/
theorem next_succ {m m' : Mode} {d d' : Nat} {c : Char} (h : next (m, d) c = some (m', d')) :
    next (m, d + 1) c = some (m', d' + 1) := by
  cases m with
  | out =>
    simp only [next, Nat.add_one_ne_zero, if_false, Nat.add_sub_cancel] at h ⊢
    split_ifs at h ⊢ with hquote hbackslash hopen hclose hzero
    all_goals
      rw [Option.some.injEq, Prod.mk.injEq] at h ⊢
      exact ⟨h.1, by omega⟩
  | str =>
    simp only [next] at h ⊢
    split_ifs at h ⊢ with hquote hbackslash
    all_goals
      rw [Option.some.injEq, Prod.mk.injEq] at h ⊢
      exact ⟨h.1, by omega⟩
  | esc =>
    simp only [next, Option.some.injEq, Prod.mk.injEq] at h ⊢
    exact ⟨h.1, by omega⟩

theorem scan_succ {text : List Char} : ∀ {m m' : Mode} {d d' : Nat}, scan (m, d) text = some (m', d') →
    scan (m, d + 1) text = some (m', d' + 1) := by
  induction text with
  | nil =>
    intro m m' d d' h
    rw [scan_nil, Option.some.injEq, Prod.mk.injEq] at h
    rw [scan_nil, h.1, h.2]
  | cons c text ih =>
    intro m m' d d' h
    rw [scan_cons] at h ⊢
    obtain ⟨⟨m₁, d₁⟩, hnext, hrest⟩ := Option.bind_eq_some_iff.mp h
    rw [next_succ hnext]
    exact ih hrest

/-- A text that the scan leaves as it came, and that it does not leave when it came in a string. -/
structure Balanced (text : List Char) : Prop where
  closes : ∀ d, scan (.out, d) text = some (.out, d)
  quoted : ∀ d m d', scan (.str, d) text = some (m, d') → m = .str

theorem Balanced.append {a b : List Char} (ha : Balanced a) (hb : Balanced b) : Balanced (a ++ b) where
  closes := by
    intro d
    rw [scan_append, ha.closes]
    exact hb.closes d
  quoted := by
    intro d m d' h
    rw [scan_append] at h
    obtain ⟨⟨m₁, d₁⟩, hfront, hback⟩ := Option.bind_eq_some_iff.mp h
    rw [ha.quoted d m₁ d₁ hfront] at hback
    exact hb.quoted d₁ m d' hback

/-- Neither a quote nor a backslash nor a bracket. -/
def isPlain (c : Char) : Bool :=
  !(c == '"' || c == '\\' || c == '[' || c == ']' || c == '\x7b' || c == '\x7d')

theorem balanced_nil : Balanced [] where
  closes _ := rfl
  quoted d m d' h := by
    rw [scan_nil, Option.some.injEq, Prod.mk.injEq] at h
    exact h.1.symm

theorem balanced_char {c : Char} (hc : isPlain c = true) : Balanced [c] := by
  simp only [isPlain, Bool.not_eq_true', Bool.or_eq_false_iff, beq_eq_false_iff_ne] at hc
  obtain ⟨⟨⟨⟨⟨hquote, hbackslash⟩, hopen⟩, hclose⟩, hbrace⟩, hend⟩ := hc
  constructor
  · intro d
    simp [scan_cons, scan_nil, next, hquote, hbackslash, hopen, hclose, hbrace, hend]
  · intro d m d' h
    simp only [scan_cons, scan_nil, next, hquote, hbackslash, if_false, Option.bind_some, Option.some.injEq,
      Prod.mk.injEq] at h
    exact h.1.symm

theorem balanced_plain {text : List Char} (h : ∀ c ∈ text, isPlain c = true) : Balanced text := by
  induction text with
  | nil => exact balanced_nil
  | cons c text ih =>
    exact (balanced_char (h c List.mem_cons_self)).append (ih fun c hc => h c (List.mem_cons_of_mem _ hc))

theorem balanced_bracketed {text : List Char} {opened closed : Char} (h : Balanced text)
    (hopened : opened = '[' ∨ opened = '\x7b') (hclosed : closed = ']' ∨ closed = '\x7d') :
    Balanced (opened :: (text ++ [closed])) := by
  have hnext : ∀ d, next (.out, d) opened = some (.out, d + 1) := by
    intro d
    rcases hopened with rfl | rfl
    · rfl
    · rfl
  have hlast : ∀ d, next (.out, d + 1) closed = some (.out, d) := by
    intro d
    rcases hclosed with rfl | rfl
    · rfl
    · rfl
  constructor
  · intro d
    rw [scan_cons, hnext, Option.bind_some, scan_append, h.closes, Option.bind_some, scan_cons, hlast]
    rfl
  · intro d m d' hscan
    have hfirst : next (.str, d) opened = some (.str, d) := by
      rcases hopened with rfl | rfl
      · rfl
      · rfl
    rw [scan_cons, hfirst, Option.bind_some, scan_append] at hscan
    obtain ⟨⟨m₁, d₁⟩, hfront, hback⟩ := Option.bind_eq_some_iff.mp hscan
    rw [h.quoted d m₁ d₁ hfront, scan_cons] at hback
    have hend : next (.str, d₁) closed = some (.str, d₁) := by
      rcases hclosed with rfl | rfl
      · rfl
      · rfl
    rw [hend, Option.bind_some, scan_nil, Option.some.injEq, Prod.mk.injEq] at hback
    exact hback.1.symm

/-! ### Strings -/

open Value (escapeChar quote)

theorem isPlain_digitChar : ∀ n < 16, isPlain (Nat.digitChar n) = true := by
  decide

/-- The escape of a character begins with a backslash and has no quote of its own, or is the character. -/
theorem escapeChar_cases (c : Char) : (c = '"' ∧ (escapeChar c).toList = ['\\', '"']) ∨
    (∃ e rest, (escapeChar c).toList = '\\' :: e :: rest ∧ e ≠ '"' ∧ ∀ d ∈ rest, isPlain d = true) ∨
    (c ≠ '"' ∧ c ≠ '\\' ∧ (escapeChar c).toList = [c]) := by
  by_cases hquote : c = '"'
  · exact .inl ⟨hquote, by rw [hquote]; rfl⟩
  · unfold escapeChar
    rw [if_neg hquote]
    split_ifs with hbackslash hb hf hn hr ht hcontrol
    · exact .inr (.inl ⟨'\\', [], rfl, by decide, by simp⟩)
    · exact .inr (.inl ⟨'b', [], rfl, by decide, by simp⟩)
    · exact .inr (.inl ⟨'f', [], rfl, by decide, by simp⟩)
    · exact .inr (.inl ⟨'n', [], rfl, by decide, by simp⟩)
    · exact .inr (.inl ⟨'r', [], rfl, by decide, by simp⟩)
    · exact .inr (.inl ⟨'t', [], rfl, by decide, by simp⟩)
    · refine .inr (.inl ⟨'u', ['0', '0', Nat.digitChar (c.toNat / 16), Nat.digitChar (c.toNat % 16)], ?_, by decide, ?_⟩)
      · rw [String.toList_append, String.toList_ofList (l := [_, _])]
        rfl
      · simp only [List.forall_mem_cons]
        exact ⟨rfl, rfl, isPlain_digitChar _ (by omega), isPlain_digitChar _ (by omega), by simp⟩
    · exact .inr (.inr ⟨hquote, hbackslash, String.toList_ofList⟩)

theorem quote_not_mem_escape {c : Char} (hc : c ≠ '"') : '"' ∉ (escapeChar c).toList := by
  rcases escapeChar_cases c with ⟨heq, -⟩ | ⟨e, rest, heq, he, hrest⟩ | ⟨hquote, -, heq⟩
  · exact absurd heq hc
  · rw [heq]
    refine List.not_mem_cons_of_ne_of_not_mem (by decide) (List.not_mem_cons_of_ne_of_not_mem (Ne.symm he) fun h => ?_)
    cases hrest _ h
  · rw [heq, List.mem_singleton]
    exact Ne.symm hquote

theorem next_str {c : Char} (hquote : c ≠ '"') (hbackslash : c ≠ '\\') (d : Nat) :
    next (.str, d) c = some (.str, d) := by
  simp [next, hquote, hbackslash]

theorem scan_plain_str (d : Nat) {text : List Char} (h : ∀ c ∈ text, isPlain c = true) :
    scan (.str, d) text = some (.str, d) := by
  induction text with
  | nil => rfl
  | cons c text ih =>
    have hplain := h c List.mem_cons_self
    simp only [isPlain, Bool.not_eq_true', Bool.or_eq_false_iff, beq_eq_false_iff_ne] at hplain
    rw [scan_cons, next_str hplain.1.1.1.1.1 hplain.1.1.1.1.2]
    exact ih fun c hc => h c (List.mem_cons_of_mem _ hc)

theorem scan_escape_str (d : Nat) (c : Char) : scan (.str, d) (escapeChar c).toList = some (.str, d) := by
  rcases escapeChar_cases c with ⟨-, heq⟩ | ⟨e, rest, heq, -, hrest⟩ | ⟨hquote, hbackslash, heq⟩
  · rw [heq]
    rfl
  · rw [heq]
    show scan (.str, d) rest = _
    exact scan_plain_str d hrest
  · rw [heq, scan_cons, next_str hquote hbackslash]
    rfl

theorem scan_escape_out {d d' : Nat} {m : Mode} {c : Char} (h : scan (.out, d) (escapeChar c).toList = some (m, d')) :
    m = .out := by
  rcases escapeChar_cases c with ⟨-, heq⟩ | ⟨e, rest, heq, -, -⟩ | ⟨hquote, hbackslash, heq⟩
  · rw [heq] at h
    cases h
  · rw [heq] at h
    cases h
  · rw [heq, scan_cons, next, if_neg hquote, if_neg hbackslash] at h
    split_ifs at h
    · exact (congrArg Prod.fst (Option.some.inj h)).symm
    · cases h
    · exact (congrArg Prod.fst (Option.some.inj h)).symm
    · exact (congrArg Prod.fst (Option.some.inj h)).symm

theorem scan_body_str (d : Nat) (cs : List Char) :
    scan (.str, d) (cs.flatMap fun c => (escapeChar c).toList) = some (.str, d) := by
  induction cs with
  | nil => rfl
  | cons c cs ih =>
    rw [List.flatMap_cons, scan_append, scan_escape_str]
    exact ih

theorem scan_body_out {m : Mode} (cs : List Char) : ∀ {d d' : Nat},
    scan (.out, d) (cs.flatMap fun c => (escapeChar c).toList) = some (m, d') → m = .out := by
  induction cs with
  | nil =>
    intro d d' h
    exact (congrArg Prod.fst (Option.some.inj h)).symm
  | cons c cs ih =>
    intro d d' h
    rw [List.flatMap_cons, scan_append] at h
    obtain ⟨⟨m₁, d₁⟩, hfront, hback⟩ := Option.bind_eq_some_iff.mp h
    rw [scan_escape_out hfront] at hback
    exact ih hback

theorem balanced_quote (s : String) : Balanced (quote s).toList := by
  constructor
  · intro d
    rw [Value.toList_quote, List.cons_append, scan_cons]
    show scan (.str, d) _ = _
    rw [scan_append, scan_body_str]
    rfl
  · intro d m d' h
    rw [Value.toList_quote, List.cons_append, scan_cons] at h
    have hbody : scan (.out, d) ((s.toList.flatMap fun c => (escapeChar c).toList) ++ ['"']) = some (m, d') := h
    rw [scan_append] at hbody
    obtain ⟨⟨m₁, d₁⟩, hfront, hback⟩ := Option.bind_eq_some_iff.mp hbody
    rw [scan_body_out s.toList hfront] at hback
    exact (congrArg Prod.fst (Option.some.inj hback)).symm

/-! ### Values -/

theorem isPlain_of_isNumeral {c : Char} (h : Value.isNumeral c = true) : isPlain c = true := by
  have hne : ∀ d, Value.isNumeral d = false → c ≠ d := by
    intro d hd heq
    rw [heq, hd] at h
    cases h
  simp [isPlain, hne '"' rfl, hne '\\' rfl, hne '[' rfl, hne ']' rfl, hne '\x7b' rfl, hne '\x7d' rfl]

theorem balanced_joined {texts : List String} (h : ∀ text ∈ texts, Balanced text.toList) :
    Balanced (Reader.joined texts) := by
  induction texts with
  | nil => exact balanced_nil
  | cons a texts ih =>
    have hrest := ih fun text htext => h text (List.mem_cons_of_mem _ htext)
    cases texts with
    | nil =>
      rw [Reader.joined_singleton]
      exact h a List.mem_cons_self
    | cons b texts =>
      rw [Reader.joined_cons_cons]
      exact (h a List.mem_cons_self).append ((balanced_char rfl).append hrest)

section

variable [F64.Fmt]

theorem balanced_items {xs : List Value} (h : ∀ x ∈ xs, Balanced x.toJson.toList) :
    Balanced (Reader.joined (Value.toJsonItems xs)) := by
  refine balanced_joined fun text htext => ?_
  rw [Value.toJsonItems_eq_map] at htext
  obtain ⟨x, hx, rfl⟩ := List.mem_map.mp htext
  exact h x hx

theorem balanced_fields {fields : List (String × Value)} (h : ∀ f ∈ fields, Balanced f.2.toJson.toList) :
    Balanced (Reader.joined (Value.toJsonFields fields)) := by
  refine balanced_joined fun text htext => ?_
  rw [Value.toJsonFields_eq_map] at htext
  obtain ⟨f, hf, rfl⟩ := List.mem_map.mp htext
  rw [String.toList_append, String.toList_append]
  exact ((balanced_quote f.1).append (balanced_char rfl)).append (h f hf)

theorem balanced_toJson (hfmt : F64.Decimal) {v : Value} (hv : v.Signed) : Balanced v.toJson.toList := by
  induction hv with
  | null =>
    have hplain : ∀ c ∈ "null".toList, isPlain c = true := List.all_eq_true.mp rfl
    exact balanced_plain hplain
  | bool b =>
    have htrue : ∀ c ∈ "true".toList, isPlain c = true := List.all_eq_true.mp rfl
    have hfalse : ∀ c ∈ "false".toList, isPlain c = true := List.all_eq_true.mp rfl
    cases b with
    | false => exact balanced_plain hfalse
    | true => exact balanced_plain htrue
  | number _ => exact balanced_plain fun c hc => isPlain_of_isNumeral (Reader.numeral_of_mem hfmt _ c hc)
  | string s => exact balanced_quote s
  | array _ ih =>
    rw [Reader.toList_array]
    exact balanced_bracketed (balanced_items ih) (.inl rfl) (.inl rfl)
  | object _ ih =>
    rw [Reader.toList_object]
    exact balanced_bracketed (balanced_fields ih) (.inr rfl) (.inr rfl)

/-! ### A text at the end of a text -/

omit [F64.Fmt] in
/-- A balanced text that opens with a bracket is not the end of a text in brackets, unless it is all of it. -/
theorem bracketed_not_suffix {inner text front : List Char} {opened closed : Char} (hinner : Balanced inner)
    (hclosed : closed = ']' ∨ closed = '\x7d') (htext : Balanced text)
    (hhead : text.head? = some '[' ∨ text.head? = some '\x7b') (hfront : front ≠ [])
    (h : opened :: (inner ++ [closed]) = front ++ text) : False := by
  obtain ⟨front, rfl⟩ : ∃ front', front = opened :: front' := by
    cases front with
    | nil => exact absurd rfl hfront
    | cons c front => exact ⟨front, by rw [(List.cons.inj h).1]⟩
  have hall : inner ++ [closed] = front ++ text := (List.cons.inj h).2
  obtain ⟨back, last, htail⟩ : ∃ back last, text = back ++ [last] := by
    rcases List.eq_nil_or_concat' text with hnil | hconcat
    · rw [hnil] at hhead
      rcases hhead with hhead | hhead
      · cases hhead
      · cases hhead
    · exact hconcat
  have hsplit : inner = front ++ back := by
    rw [htail, ← List.append_assoc] at hall
    exact (List.append_inj' hall rfl).1
  -- where the scan is at the beginning of the text, with the first bracket open
  have hcloses := hinner.closes 0
  rw [hsplit, scan_append] at hcloses
  obtain ⟨⟨m, d⟩, hbefore, -⟩ := Option.bind_eq_some_iff.mp hcloses
  have hopen := scan_succ hbefore
  have hend : scan (m, d + 1) text = some (.out, 0) := by
    have hscan : scan (.out, 1) (front ++ text) = some (.out, 0) := by
      rw [← hall, scan_append, hinner.closes]
      rcases hclosed with rfl | rfl
      · rfl
      · rfl
    rw [scan_append, hopen] at hscan
    exact hscan
  have hstr : ∀ d m' d', scan (.str, d) text = some (m', d') → m' = .str := htext.quoted
  cases m with
  | out =>
    rw [htext.closes] at hend
    cases hend
  | str => cases hstr _ _ _ hend
  | esc =>
    obtain ⟨c, rest, rfl⟩ : ∃ c rest, text = c :: rest := by
      cases text with
      | nil =>
        rcases hhead with hhead | hhead
        · cases hhead
        · cases hhead
      | cons c rest => exact ⟨c, rest, rfl⟩
    have hnext : next (.str, d + 1) c = some (.str, d + 1) := by
      rcases hhead with hhead | hhead
      · cases hhead
        rfl
      · cases hhead
        rfl
    rw [scan_cons] at hend
    have hsame : scan (.str, d + 1) (c :: rest) = some (.out, 0) := by
      rw [scan_cons, hnext]
      exact hend
    cases hstr _ _ _ hsame

omit [F64.Fmt] in
/-- A quote inside a string literal is an escaped one. -/
theorem split_at_quote (cs : List Char) : ∀ {front back : List Char},
    (cs.flatMap fun c => (escapeChar c).toList) = front ++ '"' :: back →
    ∃ u t, cs = u ++ '"' :: t ∧ front = (u.flatMap fun c => (escapeChar c).toList) ++ ['\\'] ∧
      back = t.flatMap fun c => (escapeChar c).toList := by
  induction cs with
  | nil =>
    intro front back h
    cases front with
    | nil => cases h
    | cons c front => cases h
  | cons c cs ih =>
    intro front back h
    have hrest : ∀ front', front = (escapeChar c).toList ++ front' →
        (cs.flatMap fun c => (escapeChar c).toList) = front' ++ '"' :: back →
        ∃ u t, c :: cs = u ++ '"' :: t ∧ front = (u.flatMap fun c => (escapeChar c).toList) ++ ['\\'] ∧
          back = t.flatMap fun c => (escapeChar c).toList := by
      intro front' hfront hcs
      obtain ⟨u, t, rfl, hu, ht⟩ := ih hcs
      refine ⟨c :: u, t, rfl, ?_, ht⟩
      rw [hfront, hu, List.flatMap_cons, List.append_assoc]
    rw [List.flatMap_cons] at h
    rcases List.append_eq_append_iff.mp h with ⟨front', hfront, hcs⟩ | ⟨mid, hmid, hcs⟩
    · exact hrest front' hfront hcs
    · cases mid with
      | nil => exact hrest [] (by rw [List.append_nil, hmid, List.append_nil]) hcs.symm
      | cons d mid =>
        obtain ⟨rfl, hback⟩ := List.cons.inj hcs
        have hc : c = '"' := by
          by_contra hne
          refine quote_not_mem_escape hne ?_
          rw [hmid]
          exact List.mem_append_right _ List.mem_cons_self
        subst hc
        have hescape : ['\\', '"'] = front ++ '"' :: mid := hmid
        cases front with
        | nil => cases (List.cons.inj hescape).1
        | cons e front =>
          obtain ⟨rfl, htail⟩ := List.cons.inj hescape
          cases front with
          | nil =>
            obtain ⟨-, rfl⟩ := List.cons.inj htail
            exact ⟨[], cs, rfl, rfl, hback⟩
          | cons e' front =>
            have hlength := congrArg List.length htail
            simp at hlength

/-- The kinds of values, as their last characters tell them apart. -/
inductive Kind where
  | null
  | bool
  | number
  | string
  | array
  | object
deriving DecidableEq

omit [F64.Fmt] in
def kind : Value → Kind
  | .null => .null
  | .bool _ => .bool
  | .number _ => .number
  | .string _ => .string
  | .array _ => .array
  | .object _ => .object

def lastKind (c : Char) : Kind :=
  if c.isDigit then .number
  else if c = 'l' then .null
  else if c = 'e' then .bool
  else if c = '"' then .string
  else if c = ']' then .array
  else .object

theorem toJson_lastKind (hfmt : F64.Decimal) (v : Value) :
    ∃ front c, v.toJson.toList = front ++ [c] ∧ lastKind c = kind v := by
  cases v with
  | null => exact ⟨['n', 'u', 'l'], 'l', by rw [Value.toJson]; decide, rfl⟩
  | bool b =>
    cases b with
    | false => exact ⟨['f', 'a', 'l', 's'], 'e', by rw [Value.toJson]; decide, rfl⟩
    | true => exact ⟨['t', 'r', 'u'], 'e', by rw [Value.toJson]; decide, rfl⟩
  | number n =>
    obtain ⟨front, c, htext, hc⟩ := Reader.numberText_lastDigit hfmt n
    exact ⟨front, c, htext, if_pos hc⟩
  | string s => exact ⟨_, '"', Value.toList_quote s, rfl⟩
  | array xs => exact ⟨_, ']', by rw [Reader.toList_array, ← List.cons_append], rfl⟩
  | object fields => exact ⟨_, '\x7d', by rw [Reader.toList_object, ← List.cons_append], rfl⟩

theorem kind_eq (hfmt : F64.Decimal) {v w : Value} {x : List Char} (h : v.toJson.toList = x ++ w.toJson.toList) :
    kind v = kind w := by
  obtain ⟨front, c, hv, hc⟩ := toJson_lastKind hfmt v
  obtain ⟨front', c', hw, hc'⟩ := toJson_lastKind hfmt w
  rw [hv, hw, ← List.append_assoc] at h
  have hlast := (List.append_inj' h rfl).2
  rw [← hc, ← hc', (List.cons.inj hlast).1]

end

end Scanner

namespace Value

section

variable [F64.Fmt]

/-- The body of a string literal. -/
def escaped (s : String) : String := String.join (s.toList.map escapeChar)

/-- The text of the first value is `x` and the text of the second, for two numbers or two strings. -/
inductive Absorbs (x : String) : Value → Value → Prop
  | number {n m : Number} : numberText n = x ++ numberText m → Absorbs x (.number n) (.number m)
  | string (u t : String) : x = "\"" ++ escaped u ++ "\\" → Absorbs x (.string (u ++ "\"" ++ t)) (.string t)

omit [F64.Fmt] in
theorem eq_empty_of_self_append {x s : String} (h : s = x ++ s) : x = "" := by
  have hlength := congrArg (fun text : String => text.toList.length) h
  simp only [String.toList_append, List.length_append] at hlength
  exact String.toList_injective (List.eq_nil_of_length_eq_zero (by omega))

theorem Absorbs.toJson {x : String} {v w : Value} (h : Absorbs x v w) : v.toJson = x ++ w.toJson := by
  cases h with
  | number h => exact h
  | string u t hx =>
    rw [Value.toJson, Value.toJson, hx]
    apply String.toList_injective
    simp [toList_quote, escaped, String.toList_join, List.flatMap_map, escapeChar]

theorem absorbs_string {x s s' : String} (hx : x ≠ "") (h : quote s = x ++ quote s') :
    Absorbs x (.string s) (.string s') := by
  have htext := congrArg String.toList h
  rw [String.toList_append, toList_quote, toList_quote] at htext
  obtain ⟨front, hfront⟩ : ∃ front, x.toList = '"' :: front := by
    cases hlist : x.toList with
    | nil => exact absurd (String.toList_injective hlist) hx
    | cons c front =>
      rw [hlist] at htext
      exact ⟨front, by rw [(List.cons.inj htext).1]⟩
  rw [hfront] at htext
  have hbody : (s.toList.flatMap fun c => (escapeChar c).toList) =
      front ++ '"' :: s'.toList.flatMap fun c => (escapeChar c).toList := by
    have hinner : (s.toList.flatMap fun c => (escapeChar c).toList) ++ ['"'] =
        front ++ (('"' :: s'.toList.flatMap fun c => (escapeChar c).toList) ++ ['"']) := (List.cons.inj htext).2
    rw [← List.append_assoc] at hinner
    exact List.append_cancel_right hinner
  obtain ⟨u, t, hs, hu, ht⟩ := Scanner.split_at_quote s.toList hbody
  have hs' : s'.toList = t := flatMap_injective_of_read rfl readEscaped_escapeChar ht
  have hsplit : s = String.ofList u ++ "\"" ++ s' := by
    apply String.toList_injective
    rw [hs, String.toList_append, String.toList_append, String.toList_ofList, hs', List.append_assoc]
    rfl
  rw [hsplit]
  refine .string _ _ (String.toList_injective ?_)
  rw [hfront, hu]
  simp [escaped, String.toList_join, List.flatMap_map]

/-- When the text of a value ends in the text of another, both are numbers or both are strings. -/
theorem absorbs_iff (hfmt : F64.Decimal) {v w : Value} (hv : v.Signed) (hw : w.Signed) {x : String} (hx : x ≠ "") :
    v.toJson = x ++ w.toJson ↔ Absorbs x v w := by
  refine ⟨fun h => ?_, Absorbs.toJson⟩
  have htext : v.toJson.toList = x.toList ++ w.toJson.toList := by rw [h, String.toList_append]
  have hkind := Scanner.kind_eq hfmt htext
  have hfront : x.toList ≠ [] := fun hnil => hx (String.toList_injective hnil)
  cases v with
  | null =>
    cases w with
    | null => exact absurd (eq_empty_of_self_append h) hx
    | _ => cases hkind
  | bool b =>
    cases w with
    | bool b' =>
      have hsuffix : (Value.bool b').toJson.toList <:+ (Value.bool b).toJson.toList := ⟨_, htext.symm⟩
      have hnot : ¬ "true".toList <:+ "false".toList ∧ ¬ "false".toList <:+ "true".toList := by decide
      cases b with
      | false =>
        cases b' with
        | false => exact absurd (eq_empty_of_self_append h) hx
        | true => exact absurd hsuffix hnot.1
      | true =>
        cases b' with
        | false => exact absurd hsuffix hnot.2
        | true => exact absurd (eq_empty_of_self_append h) hx
    | _ => cases hkind
  | number n =>
    cases w with
    | number m => exact .number h
    | _ => cases hkind
  | string s =>
    cases w with
    | string s' => exact absorbs_string hx h
    | _ => cases hkind
  | array xs =>
    cases w with
    | array ys =>
      cases hv with
      | array hxs =>
        have hitems := Scanner.balanced_items fun x hx => Scanner.balanced_toJson hfmt (hxs x hx)
        have hhead : (Value.array ys).toJson.toList.head? = some '[' := by rw [Reader.toList_array]; rfl
        rw [Reader.toList_array] at htext
        exact (Scanner.bracketed_not_suffix hitems (.inl rfl) (Scanner.balanced_toJson hfmt hw) (.inl hhead) hfront
          htext).elim
    | _ => cases hkind
  | object fields =>
    cases w with
    | object fields' =>
      cases hv with
      | object hfields =>
        have hmembers := Scanner.balanced_fields fun f hf => Scanner.balanced_toJson hfmt (hfields f hf)
        have hhead : (Value.object fields').toJson.toList.head? = some '\x7b' := by rw [Reader.toList_object]; rfl
        rw [Reader.toList_object] at htext
        exact (Scanner.bracketed_not_suffix hmembers (.inr rfl) (Scanner.balanced_toJson hfmt hw) (.inr hhead) hfront
          htext).elim
    | _ => cases hkind

end

end Value

end ThoughtGate
