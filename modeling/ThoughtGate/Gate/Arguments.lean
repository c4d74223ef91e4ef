import ThoughtGate.Gate.Drift
import ThoughtGate.Engine.Fingerprint

/-!
# Arguments in Gates 3 and 4

The arguments of a call are read twice: Gate 3 turns them into a Cedar expression, Gate 4 hashes their canonical text. Both
stop at the same depth (`jsonToCedarExpr_ok_iff`), and Cedar refuses in addition a double that is no `Long`. Gate 3 looks at
the arguments of `tools/call` only: the other requests that it permits can still be nested too deep to be hashed.
-/

namespace ThoughtGate

open CedarEngine Value

/-- A double passes for a Cedar `Long` when it is whole, to the precision of the check, and an `i64` can hold it. -/
def Number.FitsLong (n : Number) : Prop :=
  ∀ f, n = .float f → |f.val - longToF64 (roundToLong f)| ≤ 1 / 2 ^ 52

namespace CedarEngine

theorem ok_bind_iff {ε α β : Type} (x : Except ε α) (f : α → β) :
    (∃ b, (x >>= fun a => .ok (f a)) = Except.ok b) ↔ ∃ a, x = .ok a := by
  cases x with
  | error e =>
    constructor
    · intro ⟨b, hb⟩
      cases hb
    · intro ⟨a, ha⟩
      cases ha
  | ok a => exact ⟨fun _ => ⟨a, rfl⟩, fun _ => ⟨f a, rfl⟩⟩

theorem ok_bind_bind_iff {ε α β γ : Type} (x : Except ε α) (y : Except ε β) (f : α → β → γ) :
    (∃ c, (x >>= fun a => y >>= fun b => .ok (f a b)) = Except.ok c) ↔ (∃ a, x = .ok a) ∧ ∃ b, y = .ok b := by
  cases x with
  | error e =>
    constructor
    · intro ⟨c, hc⟩
      cases hc
    · intro ⟨⟨a, ha⟩, _⟩
      cases ha
  | ok a =>
    have hy := ok_bind_iff y (f a)
    exact hy.trans ⟨fun h => ⟨⟨a, rfl⟩, h⟩, fun h => h.2⟩

section

variable [F64.Display]

theorem numberToCedar_ok_iff (n : Number) : (∃ e, numberToCedar n = .ok e) ↔ n.FitsLong := by
  unfold numberToCedar Number.FitsLong
  cases n with
  | posInt n =>
    refine ⟨fun _ f hf => (by cases hf), fun _ => ?_⟩
    by_cases hn : n ≤ 2 ^ 63 - 1
    · exact ⟨_, if_pos hn⟩
    · exact ⟨_, if_neg hn⟩
  | negInt i => simp
  | float f =>
    by_cases hfits : 1 / 2 ^ 52 < |f.val - longToF64 (roundToLong f)|
    · simp only [if_pos hfits]
      constructor
      · intro ⟨e, he⟩
        cases he
      · intro hle
        exact absurd hfits (not_lt.mpr (hle f rfl))
    · simp only [if_neg hfits]
      refine ⟨fun _ g hg => ?_, fun _ => ⟨_, rfl⟩⟩
      cases hg
      exact not_lt.mp hfits

omit [F64.Display] in
theorem guarded_ok_iff (depth : Nat) (r : Except PolicyError RestrictedExpression) :
    (∃ e, (if maxJsonDepth < depth then .error jsonDepthError else r) = .ok e) ↔ depth ≤ 64 ∧ ∃ e, r = .ok e := by
  rw [maxJsonDepth]
  by_cases hdepth : 64 < depth
  · rw [if_pos hdepth]
    constructor
    · intro ⟨e, he⟩
      cases he
    · intro ⟨hle, _⟩
      omega
  · rw [if_neg hdepth]
    exact ⟨fun h => ⟨by omega, h⟩, fun h => h.2⟩

mutual

/-- The conversion succeeds on what is not nested too deep and has no double that is no `Long`. -/
theorem jsonToCedarExprDepth_ok_iff (depth : Nat) : ∀ v : Value,
    (∃ e, jsonToCedarExprDepth depth v = .ok e) ↔ depth + v.depth ≤ 64 ∧ v.Numbers Number.FitsLong
  | .null => by
    rw [jsonToCedarExprDepth, guarded_ok_iff, Value.depth]
    exact and_congr Iff.rfl ⟨fun _ => .null, fun _ => ⟨_, rfl⟩⟩
  | .bool b => by
    rw [jsonToCedarExprDepth, guarded_ok_iff, Value.depth]
    exact and_congr Iff.rfl ⟨fun _ => .bool b, fun _ => ⟨_, rfl⟩⟩
  | .string s => by
    rw [jsonToCedarExprDepth, guarded_ok_iff, Value.depth]
    exact and_congr Iff.rfl ⟨fun _ => .string s, fun _ => ⟨_, rfl⟩⟩
  | .number n => by
    rw [jsonToCedarExprDepth, guarded_ok_iff, Value.depth, numberToCedar_ok_iff]
    refine and_congr Iff.rfl ⟨.number, fun hn => ?_⟩
    cases hn with
    | number hn => exact hn
  | .array xs => by
    rw [jsonToCedarExprDepth, guarded_ok_iff, Value.depth]
    by_cases hdepth : depth ≤ 64
    · rw [ok_bind_iff, jsonItemsToCedar_ok_iff depth hdepth xs, and_iff_right hdepth]
      refine and_congr Iff.rfl ⟨.array, fun hxs => ?_⟩
      cases hxs with
      | array hxs => exact hxs
    · exact ⟨fun h => absurd h.1 hdepth, fun h => absurd h.1 (by omega)⟩
  | .object fields => by
    rw [jsonToCedarExprDepth, guarded_ok_iff, Value.depth]
    by_cases hdepth : depth ≤ 64
    · rw [ok_bind_iff, jsonFieldsToCedar_ok_iff depth hdepth fields, and_iff_right hdepth]
      refine and_congr Iff.rfl ⟨.object, fun hfields => ?_⟩
      cases hfields with
      | object hfields => exact hfields
    · exact ⟨fun h => absurd h.1 hdepth, fun h => absurd h.1 (by omega)⟩

theorem jsonItemsToCedar_ok_iff (depth : Nat) (hdepth : depth ≤ 64) : ∀ xs : List Value,
    (∃ es, jsonItemsToCedar (depth + 1) xs = .ok es) ↔
      depth + depthItems xs ≤ 64 ∧ ∀ x ∈ xs, x.Numbers Number.FitsLong
  | [] => by simp [jsonItemsToCedar, depthItems, hdepth]
  | x :: xs => by
    rw [jsonItemsToCedar, ok_bind_bind_iff, jsonToCedarExprDepth_ok_iff (depth + 1) x,
      jsonItemsToCedar_ok_iff depth hdepth xs, depthItems, List.forall_mem_cons]
    constructor
    · intro ⟨⟨hx, hnumbers⟩, hxs, hrest⟩
      exact ⟨by omega, hnumbers, hrest⟩
    · intro ⟨hmax, hnumbers, hrest⟩
      exact ⟨⟨by omega, hnumbers⟩, by omega, hrest⟩

theorem jsonFieldsToCedar_ok_iff (depth : Nat) (hdepth : depth ≤ 64) : ∀ fields : List (String × Value),
    (∃ es, jsonFieldsToCedar (depth + 1) fields = .ok es) ↔
      depth + depthFields fields ≤ 64 ∧ ∀ f ∈ fields, f.2.Numbers Number.FitsLong
  | [] => by simp [jsonFieldsToCedar, depthFields, hdepth]
  | (k, v) :: fields => by
    rw [jsonFieldsToCedar, ok_bind_bind_iff, jsonToCedarExprDepth_ok_iff (depth + 1) v,
      jsonFieldsToCedar_ok_iff depth hdepth fields, depthFields, List.forall_mem_cons]
    constructor
    · intro ⟨⟨hv, hnumbers⟩, hfields, hrest⟩
      exact ⟨by omega, hnumbers, hrest⟩
    · intro ⟨hmax, hnumbers, hrest⟩
      exact ⟨⟨by omega, hnumbers⟩, by omega, hrest⟩

end

theorem jsonToCedarExpr_ok_iff (v : Value) :
    (∃ e, jsonToCedarExpr v = .ok e) ↔ v.depth ≤ 64 ∧ v.Numbers Number.FitsLong := by
  rw [jsonToCedarExpr, jsonToCedarExprDepth_ok_iff, Nat.zero_add]

theorem resourceEntity_toolCall_ok_iff (name server : String) (arguments : Value) :
    (∃ entity, resourceEntity (.toolCall name server arguments) = .ok entity) ↔
      ∃ e, jsonToCedarExpr arguments = .ok e :=
  ok_bind_iff _ _

theorem resourceEntity_of_isPermit [Cedar] {engine : CedarEngine} {request : CedarRequest}
    (h : (engine.evaluateV2 request).isPermit = true) : ∃ entity, resourceEntity request.resource = .ok entity := by
  obtain ⟨entities, hentities, -⟩ := (evaluateV2_isPermit_iff engine request).mp h
  unfold buildEntitiesV2 at hentities
  cases hentity : resourceEntity request.resource with
  | error e =>
    rw [hentity] at hentities
    cases hentities
  | ok entity => exact ⟨entity, rfl⟩

end

end CedarEngine

namespace Evaluator

section

variable [F64.Fmt] [F64.Display] [Sha256] [Cedar]

omit [F64.Fmt] [F64.Display] [Sha256] [Cedar] in
theorem cedarRequest_toolCall {req : EvaluateRequest} (htool : req.method = "tools/call") (time : TimeContext)
    (name policyId : String) (principal : Principal) : (cedarRequest time req name policyId principal).resource =
      .toolCall name req.serverId (extractArguments req.params) :=
  if_pos htool

/-- A tool call that Gate 3 permits can be hashed in Gate 4. -/
theorem hashRequest_of_isPermit {engine : CedarEngine} {time : TimeContext} {req : EvaluateRequest}
    {name policyId : String} {principal : Principal} (htool : req.method = "tools/call")
    (h : (engine.evaluateV2 (cedarRequest time req name policyId principal)).isPermit = true) :
    ∃ hash, hashRequest (toolRequest req name) = .ok hash := by
  have hentity := resourceEntity_of_isPermit h
  rw [cedarRequest_toolCall htool, resourceEntity_toolCall_ok_iff, jsonToCedarExpr_ok_iff] at hentity
  exact (hashRequest_ok_iff (toolRequest req name)).mpr hentity.1

omit [Cedar] in
/-- Gate 3 can read the arguments of a request that can be hashed, when its doubles pass for Cedar's integers. -/
theorem resourceEntity_of_hashRequest {time : TimeContext} {req : EvaluateRequest} {name policyId : String}
    {principal : Principal} (hlong : (extractArguments req.params).Numbers Number.FitsLong)
    (h : ∃ hash, hashRequest (toolRequest req name) = .ok hash) :
    ∃ entity, resourceEntity (cedarRequest time req name policyId principal).resource = .ok entity := by
  by_cases htool : req.method = "tools/call"
  · rw [cedarRequest_toolCall htool, resourceEntity_toolCall_ok_iff, jsonToCedarExpr_ok_iff]
    exact ⟨(hashRequest_ok_iff (toolRequest req name)).mp h, hlong⟩
  · exact ⟨_, by rw [cedarRequest, if_neg htool]; rfl⟩

/-- What the canonical text is, and how far Gates 3 and 4 read arguments. -/
theorem arguments_read_alike (hfmt : F64.Decimal) (double : List Char → F64) :
    (∀ v : Value, (∃ e, v.canonicalJson = .error e) ↔ 64 < v.depth) ∧
    (∀ v w : Value, v.Keyed → Reordered v w → v.canonicalJson = w.canonicalJson) ∧
    (∀ v w : Value, v.Signed → w.Signed → ∀ text, v.canonicalJson = .ok text → w.canonicalJson = .ok text →
      Reordered v w) ∧
    (∀ v : Value, v.Signed → ∀ text, v.canonicalJson = .ok text →
      ∃ w, Reader.readJson double text = some w ∧ Reordered (v.mapDoubles (Reader.reread double)) w) ∧
    (∀ v : Value, (∃ e, jsonToCedarExpr v = .ok e) ↔
      (∃ text, v.canonicalJson = .ok text) ∧ v.Numbers Number.FitsLong) ∧
    (∀ (engine : CedarEngine) (time : TimeContext) (req : EvaluateRequest) (name policyId : String)
      (principal : Principal), req.method = "tools/call" →
      (engine.evaluateV2 (cedarRequest time req name policyId principal)).isPermit = true →
      ∃ hash, hashRequest (toolRequest req name) = .ok hash) ∧
    (∀ (time : TimeContext) (req : EvaluateRequest) (name policyId : String) (principal : Principal),
      (extractArguments req.params).Numbers Number.FitsLong → (∃ hash, hashRequest (toolRequest req name) = .ok hash) →
      ∃ entity, resourceEntity (cedarRequest time req name policyId principal).resource = .ok entity) := by
  refine ⟨canonicalJson_error_iff, fun v w hv => canonicalJson_reordered hv, fun v w hv hw text =>
    reordered_of_canonicalJson hfmt hv hw, fun v hv text => readJson_canonicalJson hfmt double hv, fun v => ?_,
    fun engine time req name policyId principal => hashRequest_of_isPermit,
    fun time req name policyId principal => resourceEntity_of_hashRequest⟩
  rw [jsonToCedarExpr_ok_iff, canonicalJson_ok_iff]

end

end Evaluator

section

attribute [local instance] Sample.decimalFmt Sample.cedar Sample.f64Display Sample.sha256

namespace Sample

/-- A call of the tool `read`, its arguments in this order. -/
def readFile (arguments : List (String × Value)) : EvaluateRequest :=
  toolCall (some (.object [("name", .string "read"), ("arguments", .object arguments)]))

/-- A number under so many brackets. -/
def nested : Nat → Value
  | 0 => .number (.posInt 1)
  | n + 1 => .array [nested n]

theorem depth_nested (n : Nat) : (nested n).depth = n := by
  induction n with
  | zero => rfl
  | succ n ih =>
    rw [nested, Value.depth, depthItems, depthItems, ih]
    omega

/-- A prompt whose arguments are nested one level too deep. -/
def deepPrompt : EvaluateRequest :=
  { toolCall (some (.object [("name", .string "read"), ("arguments", nested 65)])) with method := "prompts/get" }

theorem extractArguments_readFile (arguments : List (String × Value)) :
    extractArguments (readFile arguments).params = .object arguments := rfl

def half : Number := .float { val := 1 / 2 }

/-- A picture at half its size. -/
def scaled : EvaluateRequest := readFile [("scale", .number half)]

theorem half_not_long : ¬ half.FitsLong := by
  intro h
  have hrounded : roundToLong { val := 1 / 2 } = 1 := by decide +kernel
  have hle := h _ rfl
  rw [hrounded, longToF64] at hle
  norm_num at hle

end Sample

theorem arguments_read_alike_sample :
    (Value.object Sample.pathFirst).canonicalJson = (Value.object Sample.linesFirst).canonicalJson ∧
      ∃ hash, hashRequest (Evaluator.toolRequest (Sample.readFile Sample.pathFirst) "read") = .ok hash := by
  have h := Evaluator.arguments_read_alike Sample.decimal_decimalFmt fun _ => { val := 0 }
  have hkeyed : (Value.object Sample.pathFirst).Keyed := by
    refine .object (by decide) fun f hf => ?_
    simp only [Sample.pathFirst, List.mem_cons, List.not_mem_nil, or_false] at hf
    rcases hf with rfl | rfl
    · exact .string _
    · exact .number _
  have hpermit : (Sample.defaults.evaluateV2 (Evaluator.cedarRequest Sample.evalEnv.time
      (Sample.readFile Sample.pathFirst) "read" "default" Sample.principal)).isPermit = true :=
    (Sample.evaluateV2_permitting _ _ _).mpr ⟨⟨_, rfl⟩, by decide⟩
  exact ⟨h.2.1 _ _ hkeyed (.members (List.Perm.swap _ _ [])), h.2.2.2.2.2.1 _ _ _ _ _ _ rfl hpermit⟩

/-- Gate 3 does not look at the arguments of a prompt, and does not take a fraction for a number. -/
theorem permitted_not_hashed :
    ((Sample.defaults.evaluateV2 (Evaluator.cedarRequest Sample.evalEnv.time Sample.deepPrompt "read" "default"
        Sample.principal)).isPermit = true ∧
      hashRequest (Evaluator.toolRequest Sample.deepPrompt "read") = .error Value.depthError) ∧
    ((∃ hash, hashRequest (Evaluator.toolRequest Sample.scaled "read") = .ok hash) ∧
      ¬ (Sample.defaults.evaluateV2 (Evaluator.cedarRequest Sample.evalEnv.time Sample.scaled "read" "default"
        Sample.principal)).isPermit = true) := by
  refine ⟨⟨?_, hashRequest_error ?_⟩, ⟨_, rfl⟩, fun h => ?_⟩
  · exact (Sample.evaluateV2_permitting _ _ _).mpr ⟨⟨_, rfl⟩, by decide⟩
  · show 64 < (Sample.nested 65).depth
    rw [Sample.depth_nested]
    decide
  · obtain ⟨hentity, -⟩ := (Sample.evaluateV2_permitting _ _ _).mp h
    rw [Evaluator.cedarRequest_toolCall rfl, resourceEntity_toolCall_ok_iff, jsonToCedarExpr_ok_iff, Sample.scaled,
      Sample.extractArguments_readFile] at hentity
    cases hentity.2 with
    | object hfields =>
      cases hfields ("scale", .number Sample.half) List.mem_cons_self with
      | number hfits => exact Sample.half_not_long hfits

end

end ThoughtGate
