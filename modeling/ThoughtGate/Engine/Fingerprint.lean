import ThoughtGate.Base.Scanner
import ThoughtGate.Engine.Pipeline
import ThoughtGate.Task.Store

/-!
# Fingerprints of requests

The hash of a request is taken of its method, its name and the canonical text of its arguments, with nothing between them.
Which requests have one such input is said by `hashInput_eq_iff`: those that differ in the order of keys only, and those
where the end of one part passes for the beginning of the next (`Confusable`).
-/

namespace ThoughtGate

open Value

/-- The requests differ in the order of keys, or in their ids, only. -/
structure ToolCallRequest.Same (r s : ToolCallRequest) : Prop where
  method : r.method = s.method
  name : r.name = s.name
  arguments : Reordered r.arguments s.arguments

/-- As serde_json makes arguments: the keys of each object differ, the integers below zero are below zero. -/
structure ToolCallRequest.WellFormed (r : ToolCallRequest) : Prop where
  keyed : r.arguments.Keyed
  signed : r.arguments.Signed

section

variable [F64.Fmt]

/-- What `hash_request` feeds to SHA-256. -/
def hashInput (request : ToolCallRequest) : Except String String := do
  let args ← request.arguments.canonicalJson
  .ok (request.method ++ request.name ++ args)

theorem hashRequest_eq [Sha256] (request : ToolCallRequest) :
    hashRequest request = (hashInput request).map Sha256.hex := by
  unfold hashRequest hashInput
  cases request.arguments.canonicalJson with
  | error e => rfl
  | ok args => rfl

theorem hashInput_eq (request : ToolCallRequest) : hashInput request =
    if 64 < request.arguments.depth then .error depthError
    else .ok (request.method ++ request.name ++ request.arguments.sortKeys.toJson) := by
  unfold hashInput
  rw [canonicalJson_eq]
  by_cases hdepth : 64 < request.arguments.depth
  · rw [if_pos hdepth, if_pos hdepth]
    rfl
  · rw [if_neg hdepth, if_neg hdepth]
    rfl

theorem hashInput_ok {request : ToolCallRequest} {input : String} (h : hashInput request = .ok input) :
    input = request.method ++ request.name ++ request.arguments.sortKeys.toJson := by
  rw [hashInput_eq] at h
  split at h
  · cases h
  · exact (Except.ok.inj h).symm

/-- A request can be hashed unless its arguments are nested too deep. -/
theorem hashRequest_ok_iff [Sha256] (request : ToolCallRequest) :
    (∃ hash, hashRequest request = .ok hash) ↔ request.arguments.depth ≤ 64 := by
  rw [hashRequest_eq, hashInput_eq]
  by_cases hdepth : 64 < request.arguments.depth
  · rw [if_pos hdepth]
    refine ⟨fun ⟨hash, hhash⟩ => ?_, fun h => absurd hdepth (not_lt.mpr h)⟩
    cases hhash
  · rw [if_neg hdepth]
    exact ⟨fun _ => not_lt.mp hdepth, fun _ => ⟨_, rfl⟩⟩

theorem hashRequest_error [Sha256] {request : ToolCallRequest} (h : 64 < request.arguments.depth) :
    hashRequest request = .error depthError := by
  rw [hashRequest_eq, hashInput_eq, if_pos h]
  rfl

/-! ### Requests with one input -/

/-- The parts of one request run together as those of the other: the method ends elsewhere, or the name takes what the
arguments of the other begin with. -/
inductive Confusable (r s : ToolCallRequest) : Prop
  | method : r.method ≠ s.method → r.method ++ r.name = s.method ++ s.name → Reordered r.arguments s.arguments →
      Confusable r s
  | longer {x : String} : x ≠ "" → s.method ++ s.name = r.method ++ r.name ++ x →
      Absorbs x r.arguments s.arguments → Confusable r s
  | shorter {x : String} : x ≠ "" → r.method ++ r.name = s.method ++ s.name ++ x →
      Absorbs x s.arguments r.arguments → Confusable r s

omit [F64.Fmt] in
theorem sortKeys_eq_number {v : Value} {n : Number} (h : v.sortKeys = .number n) : v = .number n := by
  cases v with
  | number m => exact h
  | _ => cases h

omit [F64.Fmt] in
theorem sortKeys_eq_string {v : Value} {s : String} (h : v.sortKeys = .string s) : v = .string s := by
  cases v with
  | string t => exact h
  | _ => cases h

theorem absorbs_sortKeys {x : String} {v w : Value} : Absorbs x v.sortKeys w.sortKeys ↔ Absorbs x v w := by
  constructor
  · intro h
    generalize hv : v.sortKeys = v' at h
    generalize hw : w.sortKeys = w' at h
    cases h with
    | number h =>
      rw [sortKeys_eq_number hv, sortKeys_eq_number hw]
      exact .number h
    | string u t h =>
      rw [sortKeys_eq_string hv, sortKeys_eq_string hw]
      exact .string u t h
  · intro h
    cases h with
    | number h => exact .number h
    | string u t h => exact .string u t h

/-- Sorted texts are the same where the values are, up to the order of keys. -/
theorem sortKeys_toJson_eq_iff (hfmt : F64.Decimal) {v w : Value} (hv : v.Keyed) (hvs : v.Signed) (hws : w.Signed) :
    v.sortKeys.toJson = w.sortKeys.toJson ↔ Reordered v w := by
  constructor
  · intro h
    have hsorted := Reader.toJson_injective hfmt ((reordered_sortKeys v).numbers hvs)
      ((reordered_sortKeys w).numbers hws) h
    have hback := (reordered_sortKeys w).symm
    rw [← hsorted] at hback
    exact (reordered_sortKeys v).trans hback
  · intro h
    rw [h.sortKeys_eq hv]

omit [F64.Fmt] in
/-- Two ways of cutting one text in two. -/
theorem text_append_eq_iff {a b c d : String} : a ++ b = c ++ d ↔
    (∃ x, c = a ++ x ∧ b = x ++ d) ∨ ∃ x, a = c ++ x ∧ d = x ++ b := by
  constructor
  · intro h
    have hlist := congrArg String.toList h
    rw [String.toList_append, String.toList_append] at hlist
    rcases List.append_eq_append_iff.mp hlist with ⟨x, hc, hb⟩ | ⟨x, ha, hd⟩
    · refine .inl ⟨String.ofList x, String.toList_injective ?_, String.toList_injective ?_⟩
      · rw [hc, String.toList_append, String.toList_ofList]
      · rw [hb, String.toList_append, String.toList_ofList]
    · refine .inr ⟨String.ofList x, String.toList_injective ?_, String.toList_injective ?_⟩
      · rw [ha, String.toList_append, String.toList_ofList]
      · rw [hd, String.toList_append, String.toList_ofList]
  · rintro (⟨x, rfl, rfl⟩ | ⟨x, rfl, rfl⟩)
    · rw [String.append_assoc]
    · rw [String.append_assoc]

/-- Requests with one input are the same or confusable. -/
theorem same_or_confusable (hfmt : F64.Decimal) {r s : ToolCallRequest} (hr : r.WellFormed) (hs : s.WellFormed)
    {input : String} (hi : hashInput r = .ok input) (hj : hashInput s = .ok input) : r.Same s ∨ Confusable r s := by
  have heq := (hashInput_ok hi).symm.trans (hashInput_ok hj)
  have hrs := (reordered_sortKeys r.arguments).numbers hr.signed
  have hss := (reordered_sortKeys s.arguments).numbers hs.signed
  have haligned : r.method ++ r.name = s.method ++ s.name →
      r.arguments.sortKeys.toJson = s.arguments.sortKeys.toJson → r.Same s ∨ Confusable r s := by
    intro hparts htext
    have hargs := (sortKeys_toJson_eq_iff hfmt hr.keyed hr.signed hs.signed).mp htext
    by_cases hmethod : r.method = s.method
    · rw [hmethod] at hparts
      exact .inl ⟨hmethod, (String.append_right_inj _).mp hparts, hargs⟩
    · exact .inr (.method hmethod hparts hargs)
  rcases text_append_eq_iff.mp heq with ⟨x, hparts, htext⟩ | ⟨x, hparts, htext⟩
  · by_cases hx : x = ""
    · rw [hx, String.append_empty] at hparts
      rw [hx, String.empty_append] at htext
      exact haligned hparts.symm htext
    · exact .inr (.longer hx hparts (absorbs_sortKeys.mp ((absorbs_iff hfmt hrs hss hx).mp htext)))
  · by_cases hx : x = ""
    · rw [hx, String.append_empty] at hparts
      rw [hx, String.empty_append] at htext
      exact haligned hparts htext.symm
    · exact .inr (.shorter hx hparts (absorbs_sortKeys.mp ((absorbs_iff hfmt hss hrs hx).mp htext)))

theorem Confusable.input_eq {r s : ToolCallRequest} (hr : r.WellFormed) {i j : String} (hi : hashInput r = .ok i)
    (hj : hashInput s = .ok j) (h : Confusable r s) : i = j := by
  rw [hashInput_ok hi, hashInput_ok hj]
  cases h with
  | method _ hparts hargs => rw [hparts, hargs.sortKeys_eq hr.keyed]
  | longer _ hparts habsorbs =>
    rw [hparts, (absorbs_sortKeys.mpr habsorbs).toJson]
    exact String.append_assoc.symm
  | shorter _ hparts habsorbs =>
    rw [hparts, (absorbs_sortKeys.mpr habsorbs).toJson]
    exact String.append_assoc

omit [F64.Fmt] in
theorem eq_empty_of_append_self {x s : String} (h : s = s ++ x) : x = "" := by
  have hlength := congrArg (fun text : String => text.toList.length) h
  simp only [String.toList_append, List.length_append] at hlength
  exact String.toList_injective (List.eq_nil_of_length_eq_zero (by omega))

theorem Confusable.not_same {r s : ToolCallRequest} (h : Confusable r s) : ¬ r.Same s := by
  intro hsame
  cases h with
  | method hmethod _ _ => exact hmethod hsame.method
  | longer hx hparts _ =>
    rw [hsame.method, hsame.name] at hparts
    exact hx (eq_empty_of_append_self hparts)
  | shorter hx hparts _ =>
    rw [hsame.method, hsame.name] at hparts
    exact hx (eq_empty_of_append_self hparts)

theorem ToolCallRequest.Same.input_eq {r s : ToolCallRequest} (hr : r.WellFormed) {i j : String}
    (hi : hashInput r = .ok i) (hj : hashInput s = .ok j) (h : r.Same s) : i = j := by
  rw [hashInput_ok hi, hashInput_ok hj, h.method, h.name, h.arguments.sortKeys_eq hr.keyed]

theorem hashInput_eq_iff (hfmt : F64.Decimal) {r s : ToolCallRequest} (hr : r.WellFormed) (hs : s.WellFormed)
    {i j : String} (hi : hashInput r = .ok i) (hj : hashInput s = .ok j) :
    i = j ↔ r.Same s ∨ Confusable r s := by
  constructor
  · intro heq
    rw [← heq] at hj
    exact same_or_confusable hfmt hr hs hi hj
  · intro h
    rcases h with hsame | hconf
    · exact hsame.input_eq hr hi hj
    · exact hconf.input_eq hr hi hj

/-! ### The drift check -/

section

variable [Sha256] [PipelineLib]

/-- A transform that is hashed like the approved one passes, and no other does. -/
theorem postApprovalAmber_ok_iff {p : Pipeline} {inspect : Nat → String → String → InspectorReply} {task : Task}
    {s : ToolCallRequest} {i j : String} (hi : hashInput task.preApprovalTransformed = .ok i)
    (hj : hashInput s = .ok j) (hhash : hashRequest task.preApprovalTransformed = .ok task.requestHash)
    (hchain : p.runInspectorChain inspect task.originalRequest = .ok s) :
    p.postApprovalAmber inspect task = .ok s ↔ Sha256.hex i = Sha256.hex j := by
  have hstored : task.requestHash = Sha256.hex i := by
    rw [hashRequest_eq, hi] at hhash
    exact (Except.ok.inj hhash).symm
  have hnew : hashRequest s = .ok (Sha256.hex j) := by
    rw [hashRequest_eq, hj]
    rfl
  unfold Pipeline.postApprovalAmber
  simp only [hchain, hnew, hstored]
  by_cases heq : Sha256.hex j = Sha256.hex i
  · simp [heq]
  · rw [if_pos heq]
    refine ⟨fun h => ?_, fun h => absurd h.symm heq⟩
    cases hmode : p.config.transformDriftMode with
    | strict =>
      rw [hmode] at h
      cases h
    | permissive =>
      rw [hmode] at h
      have hsame : task.preApprovalTransformed = s := Except.ok.inj h
      rw [hsame, hj] at hi
      rw [Except.ok.inj hi]

/-- The fingerprint tells two requests apart, and only a collision of the hash lets another request past the drift check,
exactly where their parts do not run together. -/
theorem fingerprint_faithful_iff (hfmt : F64.Decimal) {r s : ToolCallRequest} (hr : r.WellFormed) (hs : s.WellFormed)
    {i j : String} (hi : hashInput r = .ok i) (hj : hashInput s = .ok j) :
    ((i = j ↔ r.Same s) ↔ ¬ Confusable r s) ∧
      ∀ (p : Pipeline) (inspect : Nat → String → String → InspectorReply) (task : Task),
        task.preApprovalTransformed = r → hashRequest r = .ok task.requestHash →
        p.runInspectorChain inspect task.originalRequest = .ok s →
        ((p.postApprovalAmber inspect task = .ok s → r.Same s ∨ (i ≠ j ∧ Sha256.hex i = Sha256.hex j)) ↔
          ¬ Confusable r s) := by
  have hinput := hashInput_eq_iff hfmt hr hs hi hj
  refine ⟨⟨fun h hconf => hconf.not_same (h.mp (hinput.mpr (.inr hconf))), fun hnot => ?_⟩, ?_⟩
  · rw [hinput]
    exact or_iff_left hnot
  · intro p inspect task hpre hhash hchain
    have hpass := postApprovalAmber_ok_iff (p := p) (by rw [hpre]; exact hi) hj (by rw [hpre]; exact hhash) hchain
    constructor
    · intro h hconf
      have heq := hinput.mpr (.inr hconf)
      rcases h (hpass.mpr (congrArg Sha256.hex heq)) with hsame | ⟨hne, -⟩
      · exact hconf.not_same hsame
      · exact hne heq
    · intro hnot hok
      by_cases heq : i = j
      · exact .inl ((hinput.mp heq).resolve_right hnot)
      · exact .inr ⟨heq, hpass.mp hok⟩

end

end

section

attribute [local instance] Sample.decimalFmt Sample.sha256 Sample.pipelineLib

namespace Sample

def pathFirst : List (String × Value) := [("path", .string "a.txt"), ("lines", .number (.posInt 20))]

def linesFirst : List (String × Value) := [("lines", .number (.posInt 20)), ("path", .string "a.txt")]

/-- A call of this tool with these arguments. -/
def called (name : String) (arguments : Value) : ToolCallRequest := ⟨"tools/call", name, arguments, .number 1⟩

theorem wellFormed_members {name : String} {fields : List (String × Value)} (hkeys : (fields.map (·.1)).Nodup)
    (hleaves : ∀ f ∈ fields, (∃ s, f.2 = .string s) ∨ ∃ n, f.2 = .number (.posInt n)) :
    (called name (.object fields)).WellFormed := by
  constructor
  · refine .object hkeys fun f hf => ?_
    rcases hleaves f hf with ⟨s, hs⟩ | ⟨n, hn⟩
    · rw [hs]
      exact .string s
    · rw [hn]
      exact .number _
  · refine .object fun f hf => ?_
    rcases hleaves f hf with ⟨s, hs⟩ | ⟨n, hn⟩
    · rw [hs]
      exact .string s
    · rw [hn]
      exact .number fun i hi => by cases hi

theorem pathFirst_wellFormed : (called "read" (.object pathFirst)).WellFormed :=
  wellFormed_members (by decide) (by simp [pathFirst])

theorem linesFirst_wellFormed : (called "read" (.object linesFirst)).WellFormed :=
  wellFormed_members (by decide) (by simp [linesFirst])

/-- The input of both. -/
def readInput : String := "tools/callread\x7b\"lines\":20,\"path\":\"a.txt\"\x7d"

end Sample

theorem fingerprint_faithful_iff_sample :
    (Sample.readInput = Sample.readInput ↔
        (Sample.called "read" (.object Sample.pathFirst)).Same (Sample.called "read" (.object Sample.linesFirst))) ↔
      ¬ Confusable (Sample.called "read" (.object Sample.pathFirst)) (Sample.called "read" (.object Sample.linesFirst)) :=
  (fingerprint_faithful_iff Sample.decimal_decimalFmt Sample.pathFirst_wellFormed Sample.linesFirst_wellFormed rfl
    rfl).1

/-- The tool `a` with the argument 11 and the tool `a1` with the argument 1 have one fingerprint. -/
theorem name_runs_into_arguments :
    hashInput (Sample.called "a" (.number (.posInt 11))) = .ok "tools/calla11" ∧
      hashInput (Sample.called "a1" (.number (.posInt 1))) = .ok "tools/calla11" ∧
      hashRequest (Sample.called "a" (.number (.posInt 11))) = hashRequest (Sample.called "a1" (.number (.posInt 1))) ∧
      ¬ (Sample.called "a" (.number (.posInt 11))).Same (Sample.called "a1" (.number (.posInt 1))) := by
  refine ⟨rfl, rfl, rfl, fun h => ?_⟩
  exact absurd h.name (by decide)

end

end ThoughtGate
