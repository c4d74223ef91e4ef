import ThoughtGate.Config.Loader
import ThoughtGate.Lib.Replace
import Mathlib.Data.List.TakeWhile

/-!
# Environment variables in a configuration

`substitute_env_vars` of `config/loader.rs`. The references are collected once, from the text of the file; then each in turn is
replaced everywhere in the text as it has become.

It fails exactly for a required variable that is not set. Otherwise the result is that of a single pass if at every turn the
reference stands only where it stood in the file; and a text is safe in every environment exactly if it has at most one
reference (`substitution_simultaneous`).
-/

namespace ThoughtGate

/-! ### The pattern -/

/-- A match of the pattern: its text, and the two groups. -/
structure EnvRef where
  fullMatch : List Char
  varName : String
  default : Option String
deriving DecidableEq

namespace EnvVars

/-- `[A-Za-z_]`. -/
def isNameStart (c : Char) : Bool := c.isAlpha || c == '_'

/-- `[A-Za-z0-9_]`. -/
def isNameChar (c : Char) : Bool := c.isAlphanum || c == '_'

/-- The text of a reference. -/
def refText (name : List Char) : Option (List Char) → List Char
  | none => '$' :: '{' :: name ++ ['}']
  | some d => '$' :: '{' :: name ++ ':' :: '-' :: d ++ ['}']

def mkRef (name : List Char) (d : Option (List Char)) : EnvRef where
  fullMatch := refText name d
  varName := String.ofList name
  default := d.map String.ofList

/-- `ENV_VAR_PATTERN` from the beginning of the text. What may follow a name cannot be part of it, and a default ends at the first
brace, so that there is one way to match. -/
def matchHere : List Char → Option EnvRef
  | '$' :: '{' :: c :: rest =>
    if isNameStart c then
      match rest.dropWhile isNameChar with
      | '}' :: _ => some (mkRef (c :: rest.takeWhile isNameChar) none)
      | ':' :: '-' :: tail =>
        if tail.contains '}' then some (mkRef (c :: rest.takeWhile isNameChar) (some (tail.takeWhile (· != '}')))) else none
      | _ => none
    else none
  | _ => none

/-- The text as it is gone through for matches. -/
inductive Segment where
  | text (c : Char)
  | ref (r : EnvRef)
deriving DecidableEq

/-- After so many characters that belong to a match. -/
def segmentsFrom : Nat → List Char → List Segment
  | _, [] => []
  | skip + 1, _ :: rest => segmentsFrom skip rest
  | 0, c :: rest =>
    match matchHere (c :: rest) with
    | some r => .ref r :: segmentsFrom (r.fullMatch.length - 1) rest
    | none => .text c :: segmentsFrom 0 rest

def segments (content : List Char) : List Segment := segmentsFrom 0 content

def Segment.ref? : Segment → Option EnvRef
  | .text _ => none
  | .ref r => some r

/-- `captures_iter`. -/
def references (content : List Char) : List EnvRef := (segments content).filterMap Segment.ref?

/-! ### Substitution -/

/-- The variables of the loop. -/
structure Substitution where
  result : List Char
  errors : List (String × List Char)

def applyRef (env : String → Option String) (s : Substitution) (r : EnvRef) : Substitution :=
  match env r.varName with
  | some value => { s with result := replaceAll r.fullMatch value.toList s.result }
  | none =>
    match r.default with
    | some d => { s with result := replaceAll r.fullMatch d.toList s.result }
    | none => { s with errors := s.errors ++ [(r.varName, r.fullMatch)] }

/-- `substitute_env_vars`. -/
def substituteEnvVars (env : String → Option String) (content : String) : Except LoadError String :=
  let s := (references content.toList).foldl (applyRef env) ⟨content.toList, []⟩
  match s.errors with
  | (var, _) :: _ => .error (.missingEnvVar var "configuration")
  | [] => .ok (String.ofList s.result)

/-! ### What it is for -/

/-- The variable's value, or the default. -/
def value (env : String → Option String) (r : EnvRef) : Option String := (env r.varName).or r.default

/-- The text that a reference stands for; without a value, itself. -/
def valueText (env : String → Option String) (r : EnvRef) : List Char := (value env r).elim r.fullMatch String.toList

/-- A segment when these references have been replaced. -/
def render (env : String → Option String) (done : List EnvRef) : Segment → List Char
  | .text c => [c]
  | .ref r => if r ∈ done then valueText env r else r.fullMatch

/-- All references replaced at once. -/
def expanded (env : String → Option String) (content : String) : String :=
  String.ofList ((segments content.toList).flatMap (render env (references content.toList)))

/-- When a reference's turn comes, it stands only where it stood in the file and has not been replaced, or it stands for itself. -/
def Undisturbed (env : String → Option String) (content : String) : Prop :=
  ∀ done r later, references content.toList = done ++ r :: later → valueText env r = r.fullMatch ∨
    StandsOnly r.fullMatch (render env done) (fun segment => segment = .ref r ∧ r ∉ done) (segments content.toList)

example : references "${HOST:-localhost}:${PORT}".toList =
    [mkRef "HOST".toList (some "localhost".toList), mkRef "PORT".toList none] := by decide

/-! ### References -/

/-- Of the form that the pattern describes. -/
structure IsRef (r : EnvRef) (name : List Char) (d : Option (List Char)) : Prop where
  start : ∃ c rest, name = c :: rest ∧ isNameStart c = true ∧ ∀ x ∈ rest, isNameChar x = true
  noBrace : ∀ text ∈ d, '}' ∉ text
  eq : r = mkRef name d

theorem takeWhile_name {rest : List Char} (hrest : ∀ x ∈ rest, isNameChar x = true) {c : Char} (hc : isNameChar c = false)
    (tail : List Char) :
    (rest ++ c :: tail).takeWhile isNameChar = rest ∧ (rest ++ c :: tail).dropWhile isNameChar = c :: tail := by
  rw [List.takeWhile_append_of_pos hrest, List.dropWhile_append_of_pos hrest,
    List.takeWhile_cons_of_neg (by simp [hc]), List.dropWhile_cons_of_neg (by simp [hc]), List.append_nil]
  exact ⟨rfl, rfl⟩

theorem takeWhile_default {d tail : List Char} (hd : '}' ∉ d) : (d ++ '}' :: tail).takeWhile (· != '}') = d := by
  have hall : ∀ x ∈ d, (x != '}') = true := fun x hx => bne_iff_ne.mpr fun h => hd (h ▸ hx)
  rw [List.takeWhile_append_of_pos hall, List.takeWhile_cons_of_neg (by simp), List.append_nil]

theorem split_brace {tail : List Char} (h : '}' ∈ tail) : ∃ after, tail.takeWhile (· != '}') ++ '}' :: after = tail := by
  induction tail with
  | nil => cases h
  | cons c tail ih =>
    by_cases hc : c = '}'
    · subst hc
      exact ⟨tail, rfl⟩
    · obtain ⟨after, hafter⟩ := ih ((List.mem_cons.mp h).resolve_left (Ne.symm hc))
      refine ⟨after, ?_⟩
      have hne : (c != '}') = true := bne_iff_ne.mpr hc
      rw [List.takeWhile_cons_of_pos (by simpa using hne), List.cons_append, hafter]

theorem IsRef.matchHere {r : EnvRef} {name : List Char} {d : Option (List Char)} (h : IsRef r name d) (tail : List Char) :
    matchHere (r.fullMatch ++ tail) = some r := by
  obtain ⟨⟨c, rest, rfl, hc, hrest⟩, hd, rfl⟩ := h
  cases d with
  | none =>
    obtain ⟨htake, hdrop⟩ := takeWhile_name hrest (c := '}') (by decide) tail
    have htext : (mkRef (c :: rest) none).fullMatch ++ tail = '$' :: '{' :: c :: (rest ++ '}' :: tail) := by
      simp [mkRef, refText]
    rw [htext, EnvVars.matchHere, if_pos hc, hdrop, htake]
    rfl
  | some d =>
    obtain ⟨htake, hdrop⟩ := takeWhile_name hrest (c := ':') (by decide) ('-' :: (d ++ '}' :: tail))
    have htext : (mkRef (c :: rest) (some d)).fullMatch ++ tail = '$' :: '{' :: c :: (rest ++ ':' :: '-' :: (d ++ '}' :: tail)) := by
      simp [mkRef, refText]
    have hbrace : (d ++ '}' :: tail).contains '}' = true := by simp
    rw [htext, EnvVars.matchHere, if_pos hc, hdrop, htake]
    show (if (d ++ '}' :: tail).contains '}' = true then _ else _) = _
    rw [if_pos hbrace, takeWhile_default (hd d rfl)]

theorem exists_isRef {cs : List Char} {r : EnvRef} (h : matchHere cs = some r) :
    (∃ name d, IsRef r name d) ∧ r.fullMatch <+: cs := by
  unfold matchHere at h
  split at h
  · rename_i c rest
    split at h
    · rename_i hc
      have hname : ∀ x ∈ rest.takeWhile isNameChar, isNameChar x = true := fun x hx => List.mem_takeWhile_imp hx
      have hrest := List.takeWhile_append_dropWhile (p := isNameChar) (l := rest)
      split at h
      · rename_i tail hdrop
        cases h
        refine ⟨⟨_, none, ⟨c, _, rfl, hc, hname⟩, nofun, rfl⟩, ⟨tail, ?_⟩⟩
        rw [hdrop] at hrest
        refine Eq.trans ?_ (congrArg (fun text => '$' :: '{' :: c :: text) hrest)
        simp [mkRef, refText]
      · rename_i tail hdrop
        split at h
        · rename_i hbrace
          cases h
          have hd : '}' ∉ tail.takeWhile (· != '}') := fun hmem => by simpa using List.mem_takeWhile_imp hmem
          obtain ⟨after, hafter⟩ := split_brace (List.contains_iff_mem.mp hbrace)
          refine ⟨⟨_, some _, ⟨c, _, rfl, hc, hname⟩, ?_, rfl⟩, ⟨after, ?_⟩⟩
          · rintro text ⟨⟩
            exact hd
          · rw [hdrop] at hrest
            refine Eq.trans ?_ (congrArg (fun text => '$' :: '{' :: c :: text) hrest)
            rw [← congrArg (fun text => ':' :: '-' :: text) hafter]
            simp [mkRef, refText]
        · cases h
      · cases h
    · cases h
  · cases h

/-- A reference begins with a dollar sign, and its only closing brace is its last character. -/
theorem IsRef.shape {r : EnvRef} {name : List Char} {d : Option (List Char)} (h : IsRef r name d) :
    ∃ body, r.fullMatch = '$' :: body ++ ['}'] ∧ '}' ∉ '$' :: body := by
  obtain ⟨⟨c, rest, rfl, hc, hrest⟩, hd, rfl⟩ := h
  have hname : '}' ∉ c :: rest := by
    intro hmem
    rcases List.mem_cons.mp hmem with rfl | hmem
    · revert hc
      decide
    · have hchar := hrest _ hmem
      revert hchar
      decide
  cases d with
  | none => exact ⟨'{' :: c :: rest, rfl, by simpa using hname⟩
  | some d =>
    refine ⟨'{' :: (c :: rest) ++ ':' :: '-' :: d, by simp [mkRef, refText], ?_⟩
    have hdefault := hd d rfl
    simp only [List.mem_cons, List.mem_append, not_or] at hname ⊢
    exact ⟨by decide, ⟨by decide, hname⟩, by decide, by decide, hdefault⟩

theorem IsRef.ne_nil {r : EnvRef} {name : List Char} {d : Option (List Char)} (h : IsRef r name d) : r.fullMatch ≠ [] := by
  obtain ⟨body, hbody, -⟩ := h.shape
  rw [hbody]
  exact List.cons_ne_nil _ _

/-! ### Segments -/

theorem segments_cons (c : Char) (rest : List Char) : segments (c :: rest) =
    match matchHere (c :: rest) with
    | some r => .ref r :: segmentsFrom (r.fullMatch.length - 1) rest
    | none => .text c :: segments rest := rfl

theorem segmentsFrom_length (xs ys : List Char) : segmentsFrom xs.length (xs ++ ys) = segments ys := by
  induction xs with
  | nil => rfl
  | cons x xs ih => exact ih

theorem segments_text {c : Char} {rest : List Char} (h : matchHere (c :: rest) = none) :
    segments (c :: rest) = .text c :: segments rest := by
  rw [segments_cons, h]

theorem segments_ref {r : EnvRef} {name : List Char} {d : Option (List Char)} (h : IsRef r name d) (rest : List Char) :
    segments (r.fullMatch ++ rest) = .ref r :: segments rest := by
  have hmatch := h.matchHere rest
  obtain ⟨c, tail, htext⟩ := List.exists_cons_of_ne_nil h.ne_nil
  rw [htext, List.cons_append] at hmatch ⊢
  rw [segments_cons, hmatch]
  show Segment.ref r :: segmentsFrom (r.fullMatch.length - 1) (tail ++ rest) = _
  rw [htext]
  exact congrArg _ (segmentsFrom_length tail rest)

/-- A text as it is gone through. -/
theorem segments_induction {motive : List Char → Prop} (nil : motive [])
    (text : ∀ c rest, matchHere (c :: rest) = none → motive rest → motive (c :: rest))
    (ref : ∀ r name d rest, IsRef r name d → motive rest → motive (r.fullMatch ++ rest)) (content : List Char) :
    motive content := by
  induction hn : content.length using Nat.strongRecOn generalizing content with
  | ind n ih =>
    subst hn
    cases content with
    | nil => exact nil
    | cons c rest =>
      cases hmatch : matchHere (c :: rest) with
      | none => exact text c rest hmatch (ih rest.length (Nat.lt_succ_self _) rest rfl)
      | some r =>
        obtain ⟨⟨name, d, hr⟩, after, hafter⟩ := exists_isRef hmatch
        have hlength := congrArg List.length hafter
        have hpos := List.length_pos_iff.mpr hr.ne_nil
        rw [List.length_append] at hlength
        rw [← hafter]
        exact ref r name d after hr (ih after.length (by omega) after rfl)

/-- Together the segments are the text. -/
theorem flatMap_segments (env : String → Option String) (content : List Char) :
    (segments content).flatMap (render env []) = content := by
  induction content using segments_induction with
  | nil => rfl
  | text c rest hnone ih =>
    rw [segments_text hnone, List.flatMap_cons, ih]
    rfl
  | ref r name d rest hr ih =>
    rw [segments_ref hr, List.flatMap_cons, ih]
    rfl

theorem isRef_of_mem {content : List Char} {r : EnvRef} (h : r ∈ references content) : ∃ name d, IsRef r name d := by
  revert h
  unfold references
  induction content using segments_induction with
  | nil => exact nofun
  | text c rest hnone ih =>
    rw [segments_text hnone]
    exact ih
  | ref r' name d rest hr ih =>
    rw [segments_ref hr]
    intro h
    rcases List.mem_cons.mp h with rfl | h
    · exact ⟨name, d, hr⟩
    · exact ih h

/-! ### The loop -/

variable {env : String → Option String}

/-- What the loop makes of the text. -/
def replaced (env : String → Option String) (refs : List EnvRef) (text : List Char) : List Char :=
  refs.foldl (fun text r => replaceAll r.fullMatch (valueText env r) text) text

/-- A reference that has no value stays, and is noted. -/
theorem applyRef_eq {r : EnvRef} (hr : r.fullMatch ≠ []) (s : Substitution) :
    applyRef env s r = ⟨replaceAll r.fullMatch (valueText env r) s.result,
      s.errors ++ if (value env r).isSome then [] else [(r.varName, r.fullMatch)]⟩ := by
  unfold applyRef valueText value
  cases env r.varName with
  | some v => simp
  | none =>
    cases r.default with
    | some d => simp
    | none => simp [replaceAll_self hr]

theorem foldl_applyRef {refs : List EnvRef} (hrefs : ∀ r ∈ refs, r.fullMatch ≠ []) (s : Substitution) :
    refs.foldl (applyRef env) s = ⟨replaced env refs s.result,
      s.errors ++ refs.flatMap fun r => if (value env r).isSome then [] else [(r.varName, r.fullMatch)]⟩ := by
  induction refs generalizing s with
  | nil => simp [replaced]
  | cons r refs ih =>
    rw [List.forall_mem_cons] at hrefs
    rw [List.foldl_cons, applyRef_eq hrefs.1, ih hrefs.2]
    simp [replaced]

/-- It fails for the first variable that is required and not set, and otherwise the result is what has become of the text. -/
theorem substituteEnvVars_eq_ok_iff {content result : String} :
    substituteEnvVars env content = .ok result ↔ (∀ r ∈ references content.toList, (value env r).isSome = true) ∧
      result = String.ofList (replaced env (references content.toList) content.toList) := by
  have hrefs : ∀ r ∈ references content.toList, r.fullMatch ≠ [] := fun r hr => by
    obtain ⟨name, d, h⟩ := isRef_of_mem hr
    exact h.ne_nil
  have herrors : ((references content.toList).flatMap fun r =>
      if (value env r).isSome then [] else [(r.varName, r.fullMatch)]) = [] ↔
        ∀ r ∈ references content.toList, (value env r).isSome = true := by
    rw [List.flatMap_eq_nil_iff]
    refine forall_congr' fun r => imp_congr_right fun _ => ?_
    cases (value env r).isSome with
    | true => simp
    | false => simp
  unfold substituteEnvVars
  rw [foldl_applyRef hrefs, ← herrors]
  dsimp only
  rw [List.nil_append]
  split
  · rename_i hsome
    rw [hsome]
    exact ⟨nofun, nofun⟩
  · rename_i hnone
    rw [hnone]
    exact ⟨fun h => ⟨rfl, (Except.ok.inj h).symm⟩, fun h => congrArg Except.ok h.2.symm⟩

/-- It returns a text exactly when every required variable is set. -/
theorem exists_substituted_iff {content : String} :
    (∃ result, substituteEnvVars env content = .ok result) ↔
      ∀ r ∈ references content.toList, r.default = none → (env r.varName).isSome = true := by
  constructor
  · rintro ⟨result, h⟩ r hr hnone
    have hvalue := (substituteEnvVars_eq_ok_iff.mp h).1 r hr
    rwa [value, hnone, Option.or_none] at hvalue
  · intro h
    refine ⟨_, substituteEnvVars_eq_ok_iff.mpr ⟨fun r hr => ?_, rfl⟩⟩
    rw [value, Option.isSome_or, Bool.or_eq_true]
    cases hdefault : r.default with
    | none => exact Or.inl (h r hr hdefault)
    | some d => exact Or.inr rfl

/-! ### Turn by turn -/

/-- A turn renders one reference more. -/
theorem render_append (done : List EnvRef) (r : EnvRef) (segment : Segment) :
    render env (done ++ [r]) segment =
      if segment = .ref r ∧ r ∉ done then valueText env r else render env done segment := by
  cases segment with
  | text c => simp [render]
  | ref r' =>
    by_cases hr : r' = r
    · subst hr
      by_cases hdone : r' ∈ done
      · simp [render, hdone]
      · simp [render, hdone]
    · simp [render, hr]

/-- What has been replaced when every turn found only what stood in the file. -/
theorem replaced_of_undisturbed {content : List Char} {done later : List EnvRef}
    (hrefs : references content = done ++ later)
    (h : ∀ before r after, later = before ++ r :: after → valueText env r = r.fullMatch ∨
      StandsOnly r.fullMatch (render env (done ++ before)) (fun segment => segment = .ref r ∧ r ∉ done ++ before)
        (segments content)) :
    replaced env later ((segments content).flatMap (render env done)) =
      (segments content).flatMap (render env (done ++ later)) := by
  induction later generalizing done with
  | nil => rw [List.append_nil]; rfl
  | cons r later ih =>
    have hr : r.fullMatch ≠ [] := by
      obtain ⟨name, d, hr⟩ := isRef_of_mem (hrefs ▸ List.mem_append_right done List.mem_cons_self)
      exact hr.ne_nil
    have hturn : replaceAll r.fullMatch (valueText env r) ((segments content).flatMap (render env done)) =
        (segments content).flatMap (render env (done ++ [r])) := by
      rw [funext (render_append done r)]
      have hstep := h [] r later rfl
      rw [List.append_nil] at hstep
      rcases hstep with hself | honly
      · rw [hself, replaceAll_self hr]
        refine congrArg (List.flatMap · (segments content)) (funext fun segment => ?_)
        split
        · rename_i hit
          rw [hit.1, render, if_neg hit.2]
        · rfl
      · refine replaceAll_flatMap hr (fun segment hit => ?_) honly
        rw [hit.1, render, if_neg hit.2]
    have hrest := @ih (done ++ [r]) (by rw [hrefs, List.append_assoc]; rfl) fun before r' after hlater => by
      have hstep := h (r :: before) r' after (congrArg (r :: ·) hlater)
      rwa [List.append_assoc]
    rw [List.append_assoc, ← hturn] at hrest
    exact hrest

/-- Then the result is that of a single pass. -/
theorem substituted_of_undisturbed {content result : String} (h : Undisturbed env content)
    (hresult : substituteEnvVars env content = .ok result) : result = expanded env content := by
  obtain ⟨-, rfl⟩ := substituteEnvVars_eq_ok_iff.mp hresult
  have hall : replaced env (references content.toList) ((segments content.toList).flatMap (render env [])) =
      (segments content.toList).flatMap (render env (references content.toList)) :=
    replaced_of_undisturbed (List.nil_append _).symm h
  rw [flatMap_segments] at hall
  rw [hall]
  rfl

/-! ### A single reference -/

/-- Of two texts that end at their first closing brace, neither is longer. -/
theorem eq_of_append_brace {b b' rest rest' : List Char} (hb : '}' ∉ b) (hb' : '}' ∉ b') (h : b ++ '}' :: rest = b' ++ '}' :: rest') :
    b = b' := by
  have htake := congrArg (List.takeWhile (· != '}')) h
  rwa [takeWhile_default hb, takeWhile_default hb'] at htake

/-- A reference that begins inside of another ends with it. -/
theorem eq_suffix {r r' : EnvRef} {name name' : List Char} {d d' : Option (List Char)} (hr : IsRef r name d) (hr' : IsRef r' name' d')
    {before a after rest : List Char} (hbefore : r'.fullMatch = before ++ a) (ha : a ≠ [])
    (h : r.fullMatch ++ after = a ++ rest) : r.fullMatch = a := by
  obtain ⟨body, hbody, hbrace⟩ := hr.shape
  obtain ⟨body', hbody', hbrace'⟩ := hr'.shape
  obtain ⟨y, z, rfl⟩ := (List.eq_nil_or_concat' a).resolve_left ha
  rw [hbody', ← List.append_assoc] at hbefore
  obtain ⟨hfront, hlast⟩ := List.append_inj' hbefore rfl
  cases hlast
  have hy : '}' ∉ y := fun hmem => hbrace' (hfront ▸ List.mem_append_right before hmem)
  rw [hbody, List.append_assoc, List.append_assoc] at h
  rw [hbody, eq_of_append_brace hbrace hy h]

/-- Where no match hides its text at its end, a reference stands only where it is matched. -/
theorem standsOnly_of_references {content : List Char} {r : EnvRef} {name : List Char} {d : Option (List Char)} (hr : IsRef r name d)
    (hends : ∀ r' ∈ references content, r.fullMatch <:+ r'.fullMatch → r' = r) :
    StandsOnly r.fullMatch (render env []) (fun segment => segment = .ref r ∧ r ∉ ([] : List EnvRef)) (segments content) := by
  unfold StandsOnly
  rw [flatMap_segments]
  induction content using segments_induction with
  | nil =>
    intro before after h
    have hnil := (List.append_eq_nil_iff.mp (List.append_eq_nil_iff.mp h.symm).1).2
    exact absurd hnil hr.ne_nil
  | text c rest hnone ih =>
    intro before after h
    cases before with
    | nil =>
      have hmatch := hr.matchHere after
      rw [List.nil_append] at h
      rw [← h, hnone] at hmatch
      cases hmatch
    | cons c' before =>
      rw [List.cons_append, List.cons_append, List.cons.injEq] at h
      obtain ⟨rfl, h⟩ := h
      rw [segments_text hnone]
      obtain ⟨bs, b, bs', hsegments, hb, hbefore⟩ := ih (by rwa [references, segments_text hnone] at hends) before after h
      refine ⟨Segment.text c :: bs, b, bs', congrArg _ hsegments, hb, ?_⟩
      rw [List.flatMap_cons, hbefore]
      rfl
  | ref r' name' d' rest hr' ih =>
    intro before after h
    rw [references, segments_ref hr'] at hends
    rw [segments_ref hr']
    have hbehind : ∀ c', before = r'.fullMatch ++ c' → rest = c' ++ (r.fullMatch ++ after) →
        ∃ bs b bs', Segment.ref r' :: segments rest = bs ++ b :: bs' ∧ (b = .ref r ∧ r ∉ ([] : List EnvRef)) ∧
          bs.flatMap (render env []) = before := by
      intro c' hc' hrest
      obtain ⟨bs, b, bs', hsegments, hb, hbefore⟩ := ih (fun r'' hr'' => hends r'' (List.mem_cons_of_mem _ hr'')) c' after
        (by rw [hrest, List.append_assoc])
      refine ⟨.ref r' :: bs, b, bs', congrArg _ hsegments, hb, ?_⟩
      rw [List.flatMap_cons, hbefore, hc']
      rfl
    rw [List.append_assoc] at h
    rcases List.append_eq_append_iff.mp h with ⟨c', hc', hrest⟩ | ⟨a, ha, hrest⟩
    · exact hbehind c' hc' hrest
    · by_cases hnil : a = []
      · subst hnil
        rw [List.append_nil] at ha
        exact hbehind [] (ha.symm.trans (List.append_nil _).symm) hrest.symm
      · have hsame := eq_suffix hr hr' ha hnil hrest
        have heq : r' = r := hends r' List.mem_cons_self ⟨before, by rw [ha, hsame]⟩
        subst heq
        have hlength := congrArg List.length ha
        rw [hsame, List.length_append] at hlength
        have hfront : before = [] := List.eq_nil_of_length_eq_zero (by omega)
        subst hfront
        exact ⟨[], .ref r', segments rest, rfl, ⟨rfl, List.not_mem_nil⟩, rfl⟩

theorem undisturbed_of_le_one {content : String} (h : (references content.toList).length ≤ 1) : Undisturbed env content := by
  intro done r later hrefs
  right
  have hdone : done = [] := by
    rw [hrefs, List.length_append, List.length_cons] at h
    exact List.eq_nil_of_length_eq_zero (by omega)
  subst hdone
  rw [List.nil_append] at hrefs
  have hlater : later = [] := by
    rw [hrefs, List.length_cons] at h
    exact List.eq_nil_of_length_eq_zero (by omega)
  have hmem : r ∈ references content.toList := hrefs ▸ List.mem_cons_self
  obtain ⟨name, d, hr⟩ := isRef_of_mem hmem
  refine standsOnly_of_references hr fun r' hr' _ => ?_
  rw [hrefs, hlater] at hr'
  exact List.mem_singleton.mp hr'

/-! ### Two references

Every variable has the value of a long run and the last reference. When it is this reference's turn, a run stands before it, and
another one comes in. -/

/-- The run and the last reference. -/
def runAndRef (n : Nat) (r : EnvRef) : List Char := List.replicate n 'x' ++ r.fullMatch

def runEnv (n : Nat) (r : EnvRef) (_ : String) : Option String := some (String.ofList (runAndRef n r))

theorem valueText_runEnv (n : Nat) (r r' : EnvRef) : valueText (runEnv n r) r' = runAndRef n r := by
  simp [valueText, value, runEnv]

theorem length_segments_le (content : List Char) : (segments content).length ≤ content.length := by
  induction content using segments_induction with
  | nil => exact Nat.zero_le _
  | text c rest hnone ih =>
    rw [segments_text hnone, List.length_cons, List.length_cons]
    exact Nat.succ_le_succ ih
  | ref r name d rest hr ih =>
    have hpos := List.length_pos_iff.mpr hr.ne_nil
    rw [segments_ref hr, List.length_cons, List.length_append]
    omega

theorem infix_of_infix_succ {xs : List Char} {k : Nat} (h : List.replicate (k + 1) 'x' <:+: xs) :
    List.replicate k 'x' <:+: xs := by
  rw [List.replicate_succ'] at h
  exact (List.prefix_append _ _).isInfix.trans h

/-- In a single pass the runs stay apart. -/
theorem not_infix_of_pass {r : EnvRef} {name : List Char} {d : Option (List Char)} (hr : IsRef r name d) {n : Nat}
    (hn : r.fullMatch.length ≤ n) {refs : List EnvRef} {list : List Segment} (hlist : ∀ r', .ref r' ∈ list → r' ∈ refs) :
    ¬ List.replicate (list.length + n + 1) 'x' <:+: list.flatMap (render (runEnv n r) refs) := by
  induction list with
  | nil =>
    intro h
    have hnil := List.infix_nil.mp h
    rw [List.replicate_succ] at hnil
    cases hnil
  | cons segment list ih =>
    have hrest := ih fun r' hr' => hlist r' (List.mem_cons_of_mem _ hr')
    rw [List.length_cons, Nat.add_right_comm list.length 1 n, List.flatMap_cons]
    intro h
    cases segment with
    | text c =>
      rcases List.infix_cons_iff.mp h with hbegin | hinside
      · rw [List.replicate_succ] at hbegin
        exact hrest (List.cons_prefix_cons.mp hbegin).2.isInfix
      · exact hrest (infix_of_infix_succ hinside)
    | ref r' =>
      obtain ⟨body, hbody, -⟩ := hr.shape
      have htext : render (runEnv n r) refs (.ref r') = List.replicate n 'x' ++ '$' :: (body ++ ['}']) := by
        rw [render, if_pos (hlist r' List.mem_cons_self), valueText_runEnv, runAndRef, hbody]
        rfl
      have hlength := congrArg List.length hbody
      rw [List.length_append, List.length_cons, List.length_singleton] at hlength
      rw [htext, List.append_assoc, List.cons_append, List.append_assoc] at h
      have hbehind := infix_of_infix_append (by rw [List.length_replicate]; omega) (by decide) h
      exact hrest (infix_of_infix_succ (infix_of_infix_append (by omega) (by decide) hbehind))

/-- Turn by turn two of them come together. -/
theorem infix_of_turn {r : EnvRef} {name : List Char} {d : Option (List Char)} (hr : IsRef r name d) {n : Nat}
    (hn : r.fullMatch.length ≤ n) {text : List Char} (h : runAndRef n r <:+: text) :
    List.replicate (n + n) 'x' <:+: replaceAll r.fullMatch (runAndRef n r) text := by
  obtain ⟨before, after, rfl⟩ := h
  obtain ⟨body, hbody, -⟩ := hr.shape
  have hfront : replaceAll r.fullMatch (runAndRef n r) (before ++ (List.replicate n 'x' ++ (r.fullMatch ++ after))) =
      replaceAll r.fullMatch (runAndRef n r) before ++
        replaceAll r.fullMatch (runAndRef n r) (List.replicate n 'x' ++ (r.fullMatch ++ after)) := by
    refine replaceAll_append_of_inside hr.ne_nil fun _ a _ _ hbegin => ?_
    obtain ⟨tail, htail⟩ := hbegin
    rcases List.append_eq_append_iff.mp htail with ⟨z, hz, -⟩ | ⟨z, hz, hrest⟩
    · exact ⟨z, hz.symm⟩
    · -- the reference is not so long that it reaches past the run, and it does not end in it
      rcases List.eq_nil_or_concat' z with rfl | ⟨y, c, rfl⟩
      · rw [List.append_nil] at hz
        exact hz ▸ List.prefix_refl _
      · have hlength := congrArg List.length hz
        rw [List.length_append, List.length_append, List.length_singleton] at hlength
        rw [hbody, ← List.append_assoc] at hz
        obtain ⟨-, hlast⟩ := List.append_inj' hz rfl
        cases hlast
        rw [List.append_assoc] at hrest
        exact absurd ⟨_, hrest⟩ (not_prefix_append (by omega) (by decide))
  have hrun : replaceAll r.fullMatch (runAndRef n r) (List.replicate n 'x' ++ (r.fullMatch ++ after)) =
      List.replicate n 'x' ++ replaceAll r.fullMatch (runAndRef n r) (r.fullMatch ++ after) := by
    refine replaceAll_append fun _ a hsplit ha hbegin => ?_
    obtain ⟨c, a, rfl⟩ := List.exists_cons_of_ne_nil ha
    have hx : c = 'x' := List.eq_of_mem_replicate (hsplit ▸ List.mem_append_right _ List.mem_cons_self)
    rw [hbody, hx, List.cons_append, List.cons_append] at hbegin
    have hcontra := (List.cons_prefix_cons.mp hbegin).1
    revert hcontra
    decide
  have hall : (before ++ runAndRef n r) ++ after = before ++ (List.replicate n 'x' ++ (r.fullMatch ++ after)) := by
    simp [runAndRef]
  rw [hall, hfront, hrun, replaceAll_pattern hr.ne_nil]
  refine ⟨replaceAll r.fullMatch (runAndRef n r) before, r.fullMatch ++ replaceAll r.fullMatch (runAndRef n r) after, ?_⟩
  rw [List.replicate_add, runAndRef]
  simp only [List.append_assoc]

theorem replaced_cons (n : Nat) (r r' : EnvRef) (refs : List EnvRef) (text : List Char) :
    replaced (runEnv n r) (r' :: refs) text =
      replaced (runEnv n r) refs (replaceAll r'.fullMatch (runAndRef n r) text) := by
  rw [replaced, List.foldl_cons, valueText_runEnv]
  rfl

/-- The value that has come in for the first reference is still there, or has come in again. -/
theorem infix_replaced {r : EnvRef} {n : Nat} {refs : List EnvRef} (hrefs : ∀ r' ∈ refs, r'.fullMatch ≠ []) {text : List Char}
    (h : runAndRef n r <:+: text) : runAndRef n r <:+: replaced (runEnv n r) refs text := by
  induction refs generalizing text with
  | nil => exact h
  | cons r' refs ih =>
    rw [List.forall_mem_cons] at hrefs
    rw [replaced_cons]
    exact ih hrefs.2 (infix_replaceAll_stays hrefs.1 h)

theorem infix_of_mem {content : List Char} {r : EnvRef} (h : r ∈ references content) : r.fullMatch <:+: content := by
  obtain ⟨segment, hsegment, hr⟩ := List.mem_filterMap.mp h
  obtain ⟨bs, bs', hsegments⟩ := List.append_of_mem hsegment
  have hcontent := flatMap_segments (fun _ => none) content
  rw [hsegments, List.flatMap_append, List.flatMap_cons] at hcontent
  cases segment with
  | text c => cases hr
  | ref r' =>
    cases hr
    exact ⟨_, _, (List.append_assoc ..).trans hcontent⟩

/-- Of two references or more the last one is disturbed in some environment. -/
theorem exists_disturbed {content : String} (h : 2 ≤ (references content.toList).length) :
    ∃ env result, substituteEnvVars env content = .ok result ∧ result ≠ expanded env content := by
  obtain ⟨first, rest, hfirst⟩ := List.exists_cons_of_length_pos (Nat.lt_of_lt_of_le Nat.zero_lt_two h)
  obtain ⟨mid, last, rfl⟩ : ∃ mid last, rest = mid ++ [last] := by
    refine (List.eq_nil_or_concat' rest).resolve_left ?_
    rintro rfl
    rw [hfirst, List.length_singleton] at h
    exact absurd h (by decide)
  have hmem (r : EnvRef) (hr : r ∈ first :: (mid ++ [last])) : r ∈ references content.toList := hfirst ▸ hr
  have hne (r : EnvRef) (hr : r ∈ first :: (mid ++ [last])) : r.fullMatch ≠ [] := by
    obtain ⟨name, d, hr⟩ := isRef_of_mem (hmem r hr)
    exact hr.ne_nil
  have hlast : last ∈ first :: (mid ++ [last]) := by simp
  obtain ⟨name, d, hr⟩ := isRef_of_mem (hmem last hlast)
  have hlength := (infix_of_mem (hmem last hlast)).length_le
  obtain ⟨n, hn⟩ : ∃ n, n = content.toList.length + 1 := ⟨_, rfl⟩
  refine ⟨runEnv n last, _, substituteEnvVars_eq_ok_iff.mpr ⟨fun _ _ => rfl, rfl⟩, fun heq => ?_⟩
  have htext := String.ofList_injective heq
  -- the loop up to the last reference, and its turn
  have hbefore : runAndRef n last <:+: replaced (runEnv n last) (first :: mid) content.toList := by
    rw [replaced_cons]
    refine infix_replaced (fun r hr => hne r (List.mem_cons_of_mem _ (List.mem_append_left _ hr))) ?_
    exact infix_replaceAll (hne first List.mem_cons_self) (infix_of_mem (hmem first List.mem_cons_self))
  have htwice := infix_of_turn hr (by omega) hbefore
  have hreplaced : replaced (runEnv n last) (references content.toList) content.toList =
      replaceAll last.fullMatch (runAndRef n last) (replaced (runEnv n last) (first :: mid) content.toList) := by
    rw [hfirst, ← List.cons_append, replaced, List.foldl_append]
    exact replaced_cons n last last [] _
  rw [← hreplaced, htext] at htwice
  have hsegments := length_segments_le content.toList
  have hlong : n + n = (segments content.toList).length + n + 1 + (content.toList.length - (segments content.toList).length) := by
    omega
  rw [hlong, List.replicate_add] at htwice
  refine not_infix_of_pass hr (by omega) (fun r' hr' => ?_) ((List.prefix_append _ _).isInfix.trans htwice)
  exact List.mem_filterMap.mpr ⟨_, hr', rfl⟩

/-! ### A single pass -/

/-- It fails exactly for a required variable that is not set. The result is that of a single pass when each reference, at its
turn, stands only where it stood in the file; and in every environment it is, exactly for the texts with at most one reference. -/
theorem substitution_simultaneous (content : String) :
    (∀ env, (∃ result, substituteEnvVars env content = .ok result) ↔
      ∀ r ∈ references content.toList, r.default = none → (env r.varName).isSome = true) ∧
    (∀ env, Undisturbed env content → ∀ result, substituteEnvVars env content = .ok result → result = expanded env content) ∧
    ((∀ env result, substituteEnvVars env content = .ok result → result = expanded env content) ↔
      (references content.toList).length ≤ 1) := by
  refine ⟨fun _ => exists_substituted_iff, fun _ h _ hresult => substituted_of_undisturbed h hresult, fun h => ?_,
    fun h _ _ hresult => substituted_of_undisturbed (undisturbed_of_le_one h) hresult⟩
  by_contra hmany
  obtain ⟨env, result, hresult, hne⟩ := exists_disturbed (Nat.lt_of_not_le hmany)
  exact hne (h env result hresult)

/-- The value of `A` looks like a reference. -/
def aliasEnv (name : String) : Option String := if name = "A" then some "${B}" else some "b"

/-- It is replaced in turn. -/
theorem value_reinterpreted :
    substituteEnvVars aliasEnv "${A} ${B}" = .ok "b b" ∧ expanded aliasEnv "${A} ${B}" = "${B} b" := by decide

end EnvVars

end ThoughtGate
