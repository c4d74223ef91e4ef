import ThoughtGate.Policy.Loader

/-!
# Which policies are selected

What `load_policies_with_config` is for, stated over the environment and the files as the operating system has them
(`Host`): the highest configured tier decides, and the embedded policies, which permit everything, only where nothing
is configured (`Selects`). The loader asks `env::var` and `Path::exists`, which answer as for a missing input also when
the variable is not Unicode or the path cannot be searched, and it tests the joined YAML text for emptiness. The
selection is right exactly where none of these three decides (`Attended`).
-/

namespace ThoughtGate

/-- `std::env::VarError`. -/
inductive VarError where
  | notPresent
  | notUnicode
deriving DecidableEq

/-- The environment and the files. A path whose metadata cannot be read cannot be read either. -/
structure Host where
  var : String → Except VarError String
  onDisk : String → Bool
  searchable : String → Bool
  readToString : String → Except String String
  now : DateTime
  unread : ∀ path, searchable path = false → ∃ e, readToString path = .error e

/-- What a load reads of it: `env::var(..).ok()`, `Path::exists`. -/
def Host.world (h : Host) : World where
  env name := (h.var name).toOption
  pathExists path := h.onDisk path && h.searchable path
  readToString := h.readToString
  now := h.now

/-! ### The tiers -/

inductive Tier where
  | configMap
  | environment
  | yaml
  | embedded
deriving DecidableEq

namespace Host

/-- The file of the first tier. -/
def configMap (h : Host) : String := Loader.policyFile h.world

/-- `THOUGHTGATE_POLICIES`. -/
def policies (h : Host) : Except VarError String := h.var "THOUGHTGATE_POLICIES"

/-- The highest tier that is configured. -/
def tier (h : Host) (paths : List String) : Tier :=
  if h.onDisk h.configMap then .configMap
  else
    match h.policies with
    | .error .notPresent => if paths.isEmpty then .embedded else .yaml
    | _ => .environment

/-- These are the contents of the files, in order. -/
def Contents (h : Host) (paths contents : List String) : Prop :=
  List.Forall₂ (fun path content => h.readToString path = .ok content) paths contents

/-- One of the files cannot be read. -/
def YamlFails (h : Host) (paths : List String) : Prop := ∃ path ∈ paths, ∃ e, h.readToString path = .error e

/-- The text of a tier. -/
def IsText [Embedded] (h : Host) (paths : List String) : Tier → String → Prop
  | .configMap, text => h.readToString h.configMap = .ok text
  | .environment, text => h.policies = .ok text
  | .yaml, text => ∃ contents, h.Contents paths contents ∧ text = "\n".intercalate contents
  | .embedded, text => text = Embedded.defaultPolicies

/-- The embedded policies are selected only where nothing is configured, and otherwise the text of the highest
configured tier is, or there is an error. -/
structure Selects [Embedded] (h : Host) (paths : List String) (result : Except PolicyError (String × PolicySource)) :
    Prop where
  embeddedLast : ∀ text, result = .ok (text, .embedded) → h.tier paths = .embedded
  highest : (∃ e, result = .error e) ∨ ∃ text source, result = .ok (text, source) ∧ h.IsText paths (h.tier paths) text

/-- The configured inputs can be seen, or the load fails on a YAML file: the file of the first tier is searchable, the
variable is Unicode, the first YAML file is not empty. -/
structure Attended (h : Host) (paths : List String) : Prop where
  searchable : h.onDisk h.configMap = true → h.searchable h.configMap = true ∨
    ((∀ text, h.policies ≠ .ok text) ∧ h.YamlFails paths)
  unicode : h.onDisk h.configMap = false → h.policies = .error .notUnicode → h.YamlFails paths
  nonempty : h.onDisk h.configMap = false → h.policies = .error .notPresent →
    h.YamlFails paths ∨ ∀ path ∈ paths.head?, h.readToString path ≠ .ok ""

theorem attended_of_onDisk {h : Host} {paths : List String} (hdisk : h.onDisk h.configMap = true) :
    h.Attended paths ↔ (h.searchable h.configMap = true ∨
      ((∀ text, h.policies ≠ .ok text) ∧ h.YamlFails paths)) := by
  have hthere : h.onDisk h.configMap ≠ false := by
    rw [hdisk]
    decide
  constructor
  · intro hatt
    exact hatt.searchable hdisk
  · intro hone
    exact ⟨fun _ => hone, fun hno => absurd hno hthere, fun hno => absurd hno hthere⟩

theorem attended_of_absent {h : Host} {paths : List String} (hdisk : h.onDisk h.configMap = false) :
    h.Attended paths ↔ ((h.policies = .error .notUnicode → h.YamlFails paths) ∧
      (h.policies = .error .notPresent → h.YamlFails paths ∨ ∀ path ∈ paths.head?, h.readToString path ≠ .ok "")) := by
  have haway : h.onDisk h.configMap ≠ true := by
    rw [hdisk]
    exact Bool.false_ne_true
  constructor
  · intro hatt
    exact ⟨hatt.unicode hdisk, hatt.nonempty hdisk⟩
  · intro hboth
    exact ⟨fun hyes => absurd hyes haway, fun _ => hboth.1, fun _ => hboth.2⟩

theorem contents_or_fails (h : Host) (paths : List String) :
    (∃ contents, h.Contents paths contents) ∨ h.YamlFails paths := by
  induction paths with
  | nil => exact Or.inl ⟨[], .nil⟩
  | cons path paths ih =>
    cases hread : h.readToString path with
    | error e => exact Or.inr ⟨path, List.mem_cons_self, e, hread⟩
    | ok content =>
      rcases ih with ⟨contents, hcontents⟩ | ⟨path', hmem, e, he⟩
      · exact Or.inl ⟨content :: contents, .cons hread hcontents⟩
      · exact Or.inr ⟨path', List.mem_cons_of_mem _ hmem, e, he⟩

theorem Contents.not_fails {h : Host} {paths contents : List String} (hc : h.Contents paths contents) :
    ¬ h.YamlFails paths := by
  rintro ⟨path, hmem, e, he⟩
  induction hc with
  | nil => cases hmem
  | cons hread _ ih =>
    rcases List.mem_cons.mp hmem with rfl | hrest
    · rw [he] at hread
      cases hread
    · exact ih hrest

theorem Contents.unique {h : Host} {paths contents contents' : List String} (hc : h.Contents paths contents)
    (hc' : h.Contents paths contents') : contents = contents' := by
  refine List.right_unique_forall₂' (fun path content content' hread hread' => ?_) hc hc'
  rw [hread] at hread'
  exact Except.ok.inj hread'

end Host

/-! ### The loop over the YAML files -/

namespace Loader

open Host

variable {h : Host} {paths contents : List String}

theorem readAll_fails (hfails : h.YamlFails paths) (combined : String) :
    ∃ e, readAll h.world combined paths = .error e := by
  obtain ⟨path, hmem, e, he⟩ := hfails
  induction paths generalizing combined with
  | nil => cases hmem
  | cons path' paths ih =>
    rw [readAll]
    cases hread : h.world.readToString path' with
    | error e' => exact ⟨_, rfl⟩
    | ok content =>
      rcases List.mem_cons.mp hmem with rfl | hrest
      · have hsame : h.world.readToString path = .error e := he
        rw [hread] at hsame
        cases hsame
      · exact ih _ hrest

theorem readAll_ok (hc : h.Contents paths contents) (combined : String) :
    ∃ text, readAll h.world combined paths = .ok text := by
  induction hc generalizing combined with
  | nil => exact ⟨combined, rfl⟩
  | @cons path content paths contents hread hrest ih =>
    have hread' : h.world.readToString path = .ok content := hread
    rw [readAll, hread']
    exact ih _

/-- From the first text that is not empty on, every file is put behind a line break. -/
theorem readAll_of_nonempty (hc : h.Contents paths contents) {combined : String} (hne : combined.isEmpty = false) :
    readAll h.world combined paths = .ok ("\n".intercalate (combined :: contents)) := by
  induction hc generalizing combined with
  | nil => rw [readAll, String.intercalate_singleton]
  | @cons path content paths contents hread hrest ih =>
    have hread' : h.world.readToString path = .ok content := hread
    have hne' : (combined ++ "\n" ++ content).isEmpty = false := by simp
    rw [readAll, hread', hne]
    simp only [Bool.false_eq_true, if_false]
    rw [ih hne', String.intercalate_cons_append, String.intercalate_cons_cons]

/-- The loop over files the first of which is empty leaves out its line break. -/
theorem readAll_length_le (hc : h.Contents paths contents) {text : String}
    (hall : readAll h.world "" paths = .ok text) : text.length ≤ ("\n".intercalate contents).length := by
  induction hc with
  | nil =>
    cases hall
    exact Nat.zero_le _
  | @cons path content paths contents hread hrest ih =>
    have hread' : h.world.readToString path = .ok content := hread
    rw [readAll, hread'] at hall
    by_cases hempty : content = ""
    · subst hempty
      have htail : text.length ≤ ("\n".intercalate contents).length := ih hall
      cases contents with
      | nil => simpa using htail
      | cons next contents =>
        rw [String.intercalate_cons_cons, String.length_append]
        omega
    · have hne : content.isEmpty = false := by simpa using hempty
      have hjoined : readAll h.world content paths = .ok text := by simpa using hall
      rw [readAll_of_nonempty hrest hne] at hjoined
      cases hjoined
      exact Nat.le_refl _

variable [Embedded]

theorem loadFallback_fails (hfails : h.YamlFails paths) : ∃ e, loadFallback h.world (some paths) = .error e := by
  cases paths with
  | nil =>
    obtain ⟨path, hmem, -⟩ := hfails
    cases hmem
  | cons path paths =>
    obtain ⟨e, he⟩ := readAll_fails hfails ""
    exact ⟨e, by rw [loadFallback, he]⟩

theorem loadFallback_ok (hc : h.Contents paths contents) :
    ∃ text source, loadFallback h.world (some paths) = .ok (text, source) := by
  cases paths with
  | nil => exact ⟨_, _, rfl⟩
  | cons path paths =>
    obtain ⟨text, htext⟩ := readAll_ok hc ""
    rw [loadFallback, htext]
    dsimp only
    split
    · exact ⟨_, _, rfl⟩
    · exact ⟨_, _, rfl⟩

theorem loadFallback_of_nonempty {path content : String} (hc : h.Contents (path :: paths) (content :: contents))
    (hne : content ≠ "") : loadFallback h.world (some (path :: paths)) =
      .ok ("\n".intercalate (content :: contents), .configMap path h.now) := by
  cases hc with
  | cons hread hrest =>
    have hread' : h.world.readToString path = .ok content := hread
    have hne' : content.isEmpty = false := by simpa using hne
    have hall : readAll h.world "" (path :: paths) = .ok ("\n".intercalate (content :: contents)) := by
      rw [readAll, hread', ← readAll_of_nonempty hrest hne']
      simp
    have hjoined : ("\n".intercalate (content :: contents)).isEmpty = false := by
      cases contents with
      | nil => simpa using hne
      | cons next contents => simp
    rw [loadFallback, hall]
    simp only [hjoined, Bool.false_eq_true, if_false]
    rfl

/-- With an empty first file the embedded policies are selected, or the text is too short. -/
theorem loadFallback_of_empty {path : String} (hc : h.Contents (path :: paths) ("" :: contents)) {text : String}
    {source : PolicySource} (hload : loadFallback h.world (some (path :: paths)) = .ok (text, source)) :
    source = .embedded ∨ text ≠ "\n".intercalate ("" :: contents) := by
  rw [loadFallback] at hload
  cases hall : readAll h.world "" (path :: paths) with
  | error e =>
    rw [hall] at hload
    cases hload
  | ok combined =>
    rw [hall] at hload
    dsimp only at hload
    by_cases hempty : combined.isEmpty = true
    · rw [if_pos hempty] at hload
      cases hload
      exact Or.inl rfl
    · rw [if_neg hempty] at hload
      cases hload
      right
      cases hc with
      | cons hread hrest =>
        have hread' : h.world.readToString path = .ok "" := hread
        rw [readAll, hread'] at hall
        have hlen := readAll_length_le hrest hall
        rintro rfl
        cases contents with
        | nil => exact hempty (by simp)
        | cons next contents =>
          rw [String.intercalate_cons_cons, String.length_append] at hlen
          have hbreak : ("" ++ "\n" : String).length = 1 := rfl
          omega

end Loader

/-! ### The selection -/

theorem Host.world_pathExists (h : Host) (path : String) :
    h.world.pathExists path = (h.onDisk path && h.searchable path) := rfl

section

variable [Embedded]

open Loader Host

/-- Below the first tier: the variable, and the YAML files only where it cannot be read. -/
theorem Loader.load_below {h : Host} {paths : List String} {configPaths : Option (List String)}
    (hpaths : configPaths.getD [] = paths) (hno : (h.onDisk h.configMap && h.searchable h.configMap) = false) :
    (∀ text, h.policies = .ok text →
      loadPoliciesWithConfig h.world configPaths = .ok (text, .environment h.now)) ∧
    ((∀ text, h.policies ≠ .ok text) →
      loadPoliciesWithConfig h.world configPaths = loadFallback h.world (some paths)) := by
  have hno' : ¬ h.world.pathExists (policyFile h.world) = true := by
    rw [Host.world_pathExists]
    exact Bool.not_eq_true _ ▸ hno
  have hfall : loadFallback h.world configPaths = loadFallback h.world (some paths) := by
    subst hpaths
    cases configPaths <;> rfl
  constructor
  · intro text htext
    have henv : h.world.env "THOUGHTGATE_POLICIES" = some text := by
      show (h.var "THOUGHTGATE_POLICIES").toOption = some text
      rw [← Host.policies, htext]
      rfl
    rw [loadPoliciesWithConfig, if_neg hno', henv]
    rfl
  · intro hnone
    have henv : h.world.env "THOUGHTGATE_POLICIES" = none := by
      show (h.var "THOUGHTGATE_POLICIES").toOption = none
      rw [← Host.policies]
      cases hvar : h.policies with
      | error e => rfl
      | ok text => exact absurd hvar (hnone text)
    rw [loadPoliciesWithConfig, if_neg hno', henv, hfall]

/-- Where the text of the tier cannot be had and the load goes on to the YAML files, only a failure is right. -/
theorem Host.selects_iff_fails {h : Host} {paths : List String} {result : Except PolicyError (String × PolicySource)}
    (hresult : result = loadFallback h.world (some paths))
    (hnone : ∀ text, ¬ h.IsText paths (h.tier paths) text) : h.Selects paths result ↔ h.YamlFails paths := by
  subst hresult
  constructor
  · intro hsel
    rcases h.contents_or_fails paths with ⟨contents, hc⟩ | hfails
    · obtain ⟨text, source, hok⟩ := loadFallback_ok hc
      rcases hsel.highest with ⟨e, he⟩ | ⟨text', source', -, htext⟩
      · rw [hok] at he
        cases he
      · exact absurd htext (hnone text')
    · exact hfails
  · intro hfails
    obtain ⟨e, he⟩ := loadFallback_fails hfails
    refine ⟨fun text htext => ?_, Or.inl ⟨e, he⟩⟩
    rw [he] at htext
    cases htext

/-- The YAML tier, with the other two missing. -/
theorem Host.selects_yaml_iff {h : Host} {path : String} {paths : List String}
    (htier : h.tier (path :: paths) = .yaml) :
    h.Selects (path :: paths) (loadFallback h.world (some (path :: paths))) ↔
      (h.YamlFails (path :: paths) ∨ h.readToString path ≠ .ok "") := by
  rcases h.contents_or_fails (path :: paths) with ⟨contents, hc⟩ | hfails
  · cases hc with
    | @cons _ content _ contents hread hrest =>
      have hboth : h.Contents (path :: paths) (content :: contents) := .cons hread hrest
      by_cases hempty : content = ""
      · subst hempty
        refine iff_of_false (fun hsel => ?_) ?_
        · rcases hsel.highest with ⟨e, he⟩ | ⟨text, source, hload, htext⟩
          · obtain ⟨text, source, hok⟩ := loadFallback_ok hboth
            rw [hok] at he
            cases he
          · rw [htier] at htext
            obtain ⟨contents', hc', rfl⟩ := htext
            have hsame : contents' = "" :: contents := hc'.unique hboth
            subst hsame
            rcases loadFallback_of_empty hboth hload with rfl | hne
            · have hlast := hsel.embeddedLast _ hload
              rw [htier] at hlast
              cases hlast
            · exact hne rfl
        · rintro (hfails | hne)
          · exact hboth.not_fails hfails
          · exact hne hread
      · refine iff_of_true ?_ (Or.inr fun hread' => ?_)
        · have hload := loadFallback_of_nonempty hboth hempty
          refine ⟨fun text htext => ?_, Or.inr ⟨_, _, hload, ?_⟩⟩
          · rw [hload] at htext
            cases htext
          · rw [htier]
            exact ⟨_, hboth, rfl⟩
        · have hread'' : h.readToString path = .ok content := hread
          rw [hread''] at hread'
          cases hread'
          exact hempty rfl
  · refine iff_of_true ?_ (Or.inl hfails)
    obtain ⟨e, he⟩ := loadFallback_fails hfails
    refine ⟨fun text htext => ?_, Or.inl ⟨e, he⟩⟩
    rw [he] at htext
    cases htext

/-- The file of the first tier is there. -/
theorem Host.selects_of_onDisk {h : Host} {configPaths : Option (List String)} {paths : List String}
    (hpaths : configPaths.getD [] = paths) (hdisk : h.onDisk h.configMap = true) :
    h.Selects paths (loadPoliciesWithConfig h.world configPaths) ↔ h.Attended paths := by
  have htier : h.tier paths = .configMap := by rw [Host.tier, if_pos hdisk]
  rw [Host.attended_of_onDisk hdisk]
  cases hsearch : h.searchable h.configMap with
  | true =>
    refine iff_of_true ?_ (Or.inl rfl)
    have hexists : h.world.pathExists (policyFile h.world) = true := by
      rw [Host.world_pathExists]
      exact Bool.and_eq_true_iff.mpr ⟨hdisk, hsearch⟩
    rw [loadPoliciesWithConfig, if_pos hexists]
    cases hread : h.world.readToString (policyFile h.world) with
    | ok content =>
      refine ⟨fun text htext => ?_, Or.inr ⟨content, _, rfl, ?_⟩⟩
      · cases htext
      · rw [htier]
        exact hread
    | error e =>
      refine ⟨fun text htext => ?_, Or.inl ⟨_, rfl⟩⟩
      cases htext
  | false =>
    -- the file is there and cannot be seen: the load goes on below it
    obtain ⟨hset, hunset⟩ := load_below hpaths (by rw [hdisk, hsearch]; rfl)
    have hnone : ∀ text, ¬ h.IsText paths (h.tier paths) text := by
      intro text htext
      rw [htier] at htext
      obtain ⟨e, he⟩ := h.unread _ hsearch
      have hread : h.readToString h.configMap = .ok text := htext
      rw [he] at hread
      cases hread
    by_cases hvar : ∃ text, h.policies = .ok text
    · obtain ⟨text, htext⟩ := hvar
      refine iff_of_false (fun hsel => ?_) ?_
      · rw [hset text htext] at hsel
        rcases hsel.highest with ⟨e, he⟩ | ⟨text', source, -, htext'⟩
        · cases he
        · exact hnone text' htext'
      · rintro (hyes | ⟨hnot, -⟩)
        · cases hyes
        · exact hnot text htext
    · push Not at hvar
      rw [Host.selects_iff_fails (hunset hvar) hnone]
      constructor
      · intro hfails
        exact Or.inr ⟨hvar, hfails⟩
      · rintro (hyes | ⟨-, hfails⟩)
        · cases hyes
        · exact hfails

/-- The file of the first tier is not there. -/
theorem Host.selects_of_absent {h : Host} {configPaths : Option (List String)} {paths : List String}
    (hpaths : configPaths.getD [] = paths) (hdisk : h.onDisk h.configMap = false) :
    h.Selects paths (loadPoliciesWithConfig h.world configPaths) ↔ h.Attended paths := by
  obtain ⟨hset, hunset⟩ := load_below hpaths (by rw [hdisk]; rfl)
  rw [Host.attended_of_absent hdisk]
  cases hvar : h.policies with
  | ok text =>
    have htier : h.tier paths = .environment := by simp [Host.tier, hdisk, hvar]
    rw [hset text hvar]
    refine iff_of_true ⟨fun text' htext => ?_, Or.inr ⟨text, _, rfl, ?_⟩⟩ ⟨fun hbad => ?_, fun hbad => ?_⟩
    · cases htext
    · rw [htier]
      exact hvar
    · cases hbad
    · cases hbad
  | error e =>
    have hnot : ∀ text, h.policies ≠ .ok text := by
      intro text htext
      rw [hvar] at htext
      cases htext
    cases e with
    | notUnicode =>
      have htier : h.tier paths = .environment := by simp [Host.tier, hdisk, hvar]
      have hnone : ∀ text, ¬ h.IsText paths (h.tier paths) text := by
        intro text htext
        rw [htier] at htext
        exact hnot text htext
      rw [Host.selects_iff_fails (hunset hnot) hnone]
      constructor
      · intro hfails
        exact ⟨fun _ => hfails, fun _ => Or.inl hfails⟩
      · intro hboth
        exact hboth.1 rfl
    | notPresent =>
      rw [hunset hnot]
      have hcond : ∀ P : Prop, (((Except.error VarError.notPresent : Except VarError String) =
          .error .notUnicode → h.YamlFails paths) ∧
          ((Except.error VarError.notPresent : Except VarError String) = .error .notPresent → P)) ↔ P := by
        intro P
        constructor
        · intro hboth
          exact hboth.2 rfl
        · intro hP
          refine ⟨fun hbad => ?_, fun _ => hP⟩
          cases hbad
      rw [hcond]
      cases paths with
      | nil =>
        have htier : h.tier [] = .embedded := by simp [Host.tier, hdisk, hvar]
        refine iff_of_true ⟨fun _ _ => htier, Or.inr ⟨_, _, rfl, ?_⟩⟩ (Or.inr fun path hpath => ?_)
        · rw [htier]
          rfl
        · cases hpath
      | cons path paths =>
        have htier : h.tier (path :: paths) = .yaml := by simp [Host.tier, hdisk, hvar]
        rw [Host.selects_yaml_iff htier, List.head?_cons]
        simp only [Option.mem_def, Option.some.injEq, forall_eq']

end

/-! ### Inputs that are passed over -/

namespace Sample

/-- A policy directory with some files, and no policy in the environment. -/
def policyHost (policies : Except VarError String) (files : String → Except String String) : Host where
  var name := if name = "THOUGHTGATE_POLICIES" then policies else .error .notPresent
  onDisk path := match files path with
    | .ok _ => true
    | .error _ => false
  searchable _ := true
  readToString := files
  now := 0
  unread _ h := by cases h

/-- The only YAML file is empty. -/
def emptyFile : Host :=
  policyHost (.error .notPresent) fun path =>
    if path = "deny.cedar" then .ok "" else .error "No such file or directory (os error 2)"

end Sample

section

attribute [local instance] Sample.embedded

end

end ThoughtGate
