import ThoughtGate.Shim.Readers

/-!
# Taking the trace context out of a message

Where `_meta` carries a trace context, the bytes that go to the server are the message written anew without it. It is not
edited but rebuilt from its classification, so that a member which the rebuild does not write is gone: a response loses its
result, and every message what it has beside `jsonrpc`, `id`, `method` and `params` (`strips_trace_only_iff`).
-/

namespace ThoughtGate

namespace Shim

/-- The members of `_meta` that make the trace context. -/
def traceKeys : List String := ["traceparent", "tracestate", "baggage"]

/-- The members that `rebuild_message_with_params` writes. -/
def rebuiltKeys : List String := ["jsonrpc", "id", "method", "params"]

/-- The parameters without the trace context in `_meta`, and without `_meta` if nothing is left in it. -/
structure WithoutTrace (p q : Value) : Prop where
  others : ∀ key, key ≠ "_meta" → q.get key = p.get key
  left : ∀ members, p.get "_meta" = some (.object members) → (∃ f ∈ members, f.1 ∉ traceKeys) →
    ∃ left, q.get "_meta" = some (.object left) ∧
      ∀ key, (Value.object left).get key = if key ∈ traceKeys then none else (Value.object members).get key
  empty : ∀ members, p.get "_meta" = some (.object members) → (∀ f ∈ members, f.1 ∈ traceKeys) → q.get "_meta" = none

/-- The message with the trace context taken out of its parameters, and otherwise as it was. -/
structure StripsTraceOnly (v w : Value) : Prop where
  others : ∀ key, key ≠ "params" → w.get key = v.get key
  params : ∃ p q, v.get "params" = some p ∧ w.get "params" = some q ∧ WithoutTrace p q

/-- Nothing of the message is lost when it is rebuilt: it is no response, and it has no other members. -/
def Rebuildable (kind : JsonRpcMessageKind) (v : Value) : Prop :=
  messageTypeFromKind kind ≠ .response ∧ ∀ key, (v.get key).isSome → key ∈ rebuiltKeys

/-! ### The parameters -/

theorem strippedMeta_eq (members : List (String × Value)) :
    strippedMeta members = members.filter fun f => f.1 ∉ traceKeys := by
  rw [strippedMeta, Value.removeField, Value.removeField, Value.removeField, List.filter_filter, List.filter_filter]
  refine List.filter_congr fun f _ => ?_
  simp only [traceKeys, List.mem_cons, List.not_mem_nil, or_false]
  by_cases h1 : f.1 = "traceparent" <;> by_cases h2 : f.1 = "tracestate" <;> by_cases h3 : f.1 = "baggage" <;> simp [h1, h2, h3]

theorem get_strippedMeta (members : List (String × Value)) (key : String) :
    (Value.object (strippedMeta members)).get key =
      if key ∈ traceKeys then none else (Value.object members).get key := by
  by_cases hkey : key ∈ traceKeys
  · rw [if_pos hkey, strippedMeta_eq]
    cases hget : (Value.object (members.filter fun f => f.1 ∉ traceKeys)).get key with
    | none => rfl
    | some v =>
      have hkept := (List.mem_filter.mp (Value.mem_of_get hget)).2
      simp [hkey] at hkept
  · rw [if_neg hkey, strippedMeta]
    simp only [traceKeys, List.mem_cons, List.not_mem_nil, or_false, not_or] at hkey
    rw [Value.get_removeField_ne hkey.2.2, Value.get_removeField_ne hkey.2.1, Value.get_removeField_ne hkey.1]

section

variable [Propagator]

/-- What `extract_context_from_meta` returns are the parameters without the trace context. -/
theorem stripped_withoutTrace {p q : Value} (h : stripped (some p) = some q) : WithoutTrace p q := by
  have hothers : ∀ key, key ≠ "_meta" → q.get key = p.get key := by
    intro key hkey
    have hget := get_strippedParams (some p) hkey
    rw [show (extractContextFromMeta (some p)).strippedParams = some q from h] at hget
    exact hget
  rcases meta_cases p with hnone | ⟨fields, members, rfl, hmeta⟩
  · refine ⟨hothers, fun members hobject => ?_, fun members hobject => ?_⟩
    · rw [hobject] at hnone
      cases hnone
    · rw [hobject] at hnone
      cases hnone
  · rw [stripped_object hmeta] at h
    cases h
    refine ⟨hothers, fun members' hobject hsome => ?_, fun members' hobject hnone => ?_⟩
    · obtain rfl := Value.object.inj (Option.some.inj (hmeta.symm.trans hobject))
      obtain ⟨f, hf, hkeep⟩ := hsome
      have hleft : ¬ (strippedMeta members).isEmpty = true := by
        rw [List.isEmpty_iff, strippedMeta_eq]
        exact List.ne_nil_of_mem (List.mem_filter.mpr ⟨hf, decide_eq_true hkeep⟩)
      rw [if_neg hleft]
      exact ⟨_, Value.get_insertField_self _ _ _, get_strippedMeta members⟩
    · obtain rfl := Value.object.inj (Option.some.inj (hmeta.symm.trans hobject))
      have hleft : (strippedMeta members).isEmpty = true := by
        rw [List.isEmpty_iff, strippedMeta_eq, List.filter_eq_nil_iff]
        intro f hf
        simpa using hnone f hf
      rw [if_pos hleft]
      exact Value.get_removeField_self _ _

omit [Propagator] in
/-- The message that is rebuilt has the members that it was classified by, and its parameters if it is no response. -/
theorem get_rebuilt {kind : JsonRpcMessageKind} (hkind : messageTypeFromKind kind ≠ .response) (q : Value) (key : String) :
    (rebuilt kind (some q)).get key =
      if key = "jsonrpc" then some (.string "2.0")
      else if key = "id" then kind.id.map idValue
      else if key = "method" then some (.string kind.method)
      else if key = "params" then some q
      else none := by
  by_cases h1 : key = "jsonrpc"
  · subst h1
    cases kind <;> rfl
  · by_cases h2 : key = "id"
    · subst h2
      cases kind <;> rfl
    · by_cases h3 : key = "method"
      · subst h3
        cases kind with
        | response id => exact absurd rfl hkind
        | _ => rfl
      · by_cases h4 : key = "params"
        · subst h4
          cases kind with
          | response id => exact absurd rfl hkind
          | _ => rfl
        · rw [if_neg h1, if_neg h2, if_neg h3, if_neg h4]
          cases kind with
          | response id => exact absurd rfl hkind
          | request id method => simp [rebuilt, Value.get, Ne.symm h1, Ne.symm h2, Ne.symm h3, Ne.symm h4]
          | notification method => simp [rebuilt, Value.get, Ne.symm h1, Ne.symm h3, Ne.symm h4]

omit [Propagator] in
theorem get_rebuilt_response (id : JsonRpcId) (params : Option Value) :
    (rebuilt (.response id) params).get "params" = none := rfl

/-- The rebuild keeps a message exactly if there is nothing in it to lose. -/
theorem strips_rebuilt_iff {v : Value} {kind : JsonRpcMessageKind} (hkind : classifyJsonrpc v = .ok kind)
    (hid : ∀ w id, v.get "id" = some w → parseId w = some id → idValue id = w) {p q : Value}
    (hp : v.get "params" = some p) (hq : stripped (some p) = some q) :
    StripsTraceOnly v (rebuilt kind (some q)) ↔ Rebuildable kind v := by
  constructor
  · rintro ⟨hothers, p', q', hp', hq', hwithout⟩
    have hresponse : messageTypeFromKind kind ≠ .response := by
      intro hresponse
      cases kind with
      | response id =>
        rw [get_rebuilt_response] at hq'
        cases hq'
      | _ => cases hresponse
    refine ⟨hresponse, fun key hsome => ?_⟩
    by_contra hmem
    simp only [rebuiltKeys, List.mem_cons, List.not_mem_nil, or_false, not_or] at hmem
    obtain ⟨h1, h2, h3, h4⟩ := hmem
    rw [← hothers key h4, get_rebuilt hresponse, if_neg h1, if_neg h2, if_neg h3, if_neg h4] at hsome
    cases hsome
  · rintro ⟨hresponse, hknown⟩
    obtain ⟨hmethod, hids⟩ := classifyJsonrpc_members hkind
    rw [if_neg hresponse] at hmethod
    refine ⟨fun key hkey => ?_, p, q, hp, ?_, stripped_withoutTrace hq⟩
    · rw [get_rebuilt hresponse]
      by_cases h1 : key = "jsonrpc"
      · rw [if_pos h1, h1, asStr_bind (classifyJsonrpc_ok hkind).1]
      · rw [if_neg h1]
        by_cases h2 : key = "id"
        · rw [if_pos h2, h2]
          cases hget : v.get "id" with
          | none =>
            rw [hget] at hids
            rw [Option.map_eq_none_iff.mp hids.symm]
            rfl
          | some w =>
            rw [hget] at hids
            obtain ⟨id, hkid, hparse⟩ := Option.map_eq_some_iff.mp hids.symm
            rw [hkid, Option.map_some, hid w id hget hparse.symm]
        · rw [if_neg h2]
          by_cases h3 : key = "method"
          · rw [if_pos h3, h3, asStr_bind hmethod]
          · rw [if_neg h3, if_neg hkey]
            cases hget : v.get key with
            | none => rfl
            | some w =>
              have hmem := hknown key (by rw [hget]; rfl)
              simp [rebuiltKeys, h1, h2, h3, hkey] at hmem
    · rw [get_rebuilt hresponse, if_neg (by decide), if_neg (by decide), if_neg (by decide), if_pos rfl]

/-- When a trace context was present, the bytes that are forwarded are the message with nothing but the trace context
taken out of it exactly if there was nothing else in it to lose. -/
theorem strips_trace_only_iff [F64.Fmt] [JsonText] [JsonDocument] {profile : Profile} {raw : ByteArray} {line : String}
    {msg : StdioMessage} {v : Value} (hread : readMessage profile raw = some msg)
    (hline : String.fromUTF8? raw = some line) (hv : JsonText.parse (Text.trim line).toUTF8 = .ok v)
    (htrace : (extractContextFromMeta msg.params).hadTraceContext = true) (hjson : JsonFacts raw line msg) :
    (∃ w, JsonDocument.document (forwardBytes raw msg) = some w ∧ StripsTraceOnly v w) ↔ Rebuildable msg.kind v := by
  obtain ⟨v', hv', hkind, hparams⟩ := readMessage_eq hread hline
  cases hv.symm.trans hv'
  obtain ⟨q, hq⟩ := stripped_isSome htrace
  have hbytes : forwardBytes raw msg = (rebuildMessageWithParams msg.kind (stripped msg.params)).toUTF8 := by
    rw [forwardBytes, if_pos htrace]
    rfl
  have hid : ∀ w id, v.get "id" = some w → parseId w = some id → idValue id = w := by
    intro w id hw hparse
    refine idValue_of_parseId hparse fun i hi => hjson.negative v i hv ?_
    rw [hw, hi]
  have hdocument : JsonDocument.document (forwardBytes raw msg) = some (rebuilt msg.kind (some q)) := by
    rw [hbytes, hjson.written, hq]
  cases hp : v.get "params" with
  | none =>
    rw [hparams, hp] at hq
    cases hq
  | some p =>
    rw [hparams, hp] at hq
    rw [hdocument, ← strips_rebuilt_iff hkind hid hp hq]
    constructor
    · rintro ⟨w, hw, hstrips⟩
      cases hw
      exact hstrips
    · intro hstrips
      exact ⟨_, rfl, hstrips⟩

end

end Shim

namespace Sample

/-- A trace context is there where there is a parent. -/
@[reducible] def tracing : Propagator where
  extracts members := members.any fun f => f.1 == "traceparent"

def traceParams : Value :=
  .object [("name", .string "read"), ("_meta", .object [("traceparent", .string "00-1-2-01"), ("baggage", .string "k=v")])]

/-- A call, and a response that carries parameters, both with a trace context. -/
def tracedCall : Value :=
  .object [("jsonrpc", .string "2.0"), ("id", .number (.posInt 1)), ("method", .string "tools/call"), ("params", traceParams)]

def tracedResponse : Value :=
  .object [("jsonrpc", .string "2.0"), ("id", .number (.posInt 1)), ("result", .string "done"), ("params", traceParams)]

/-- What is written for the two. -/
def untracedCall : Value :=
  .object [("jsonrpc", .string "2.0"), ("id", .number (.posInt 1)), ("method", .string "tools/call"),
    ("params", .object [("name", .string "read")])]

def untracedResponse : Value := .object [("jsonrpc", .string "2.0"), ("id", .number (.posInt 1))]

end Sample

section

attribute [local instance] Sample.f64Fmt Sample.tracing

namespace Sample

def isText (d : Value) (bytes : ByteArray) : Bool := bytes == d.toJson.toUTF8 || bytes == (d.toJson ++ "\n").toUTF8

/-- The grammar, for the texts of these four with and without a newline. -/
@[reducible] def tracedDocument : JsonDocument where
  document bytes :=
    if isText tracedCall bytes then some tracedCall
    else if isText tracedResponse bytes then some tracedResponse
    else if isText untracedCall bytes then some untracedCall
    else if isText untracedResponse bytes then some untracedResponse
    else none

attribute [local instance] tracedDocument

@[reducible] def tracedText : JsonText where
  parse bytes :=
    match JsonDocument.document bytes with
    | some d => .ok (d.readBy .last)
    | none => .error "expected value"

attribute [local instance] tracedText

def lineOf (d : Value) : ByteArray := (d.toJson ++ "\n").toUTF8

theorem isText_toJson (d : Value) : isText d d.toJson.toUTF8 = true :=
  Bool.or_eq_true_iff.mpr (.inl (beq_self_eq_true d.toJson.toUTF8.data))

theorem isText_line (d : Value) : isText d (lineOf d) = true :=
  Bool.or_eq_true_iff.mpr (.inr (beq_self_eq_true (lineOf d).data))

/-- What the line of a document is read as. -/
structure Traced (d : Value) (kind : JsonRpcMessageKind) : Prop where
  line : String.fromUTF8? (lineOf d) = some (d.toJson ++ "\n")
  trim : Text.trim (d.toJson ++ "\n") = d.toJson
  text : JsonDocument.document d.toJson.toUTF8 = some d
  raw : JsonDocument.document (lineOf d) = some d
  margins : Shim.jsonMargins (d.toJson ++ "\n") = true
  once : d.readBy .last = d
  id : d.get "id" = some (.number (.posInt 1))
  params : d.get "params" = some traceParams
  read : (Shim.readMessage .production (lineOf d)).map (·.kind) = some kind
  written : JsonDocument.document (Shim.rebuildMessageWithParams kind (some (.object [("name", .string "read")]))).toUTF8 =
    some (Shim.rebuilt kind (some (.object [("name", .string "read")])))

theorem tracedCall_traced : Traced tracedCall (.request (.number 1) "tools/call") where
  line := Text.decode_toUTF8 _
  trim := (Shim.trimmed_object _).trim_line
  text := if_pos (isText_toJson _)
  raw := if_pos (isText_line _)
  margins := Shim.jsonMargins_line (Shim.trimmed_object _)
  once := rfl
  id := rfl
  params := rfl
  read := by decide +kernel
  written := (if_neg (by decide +kernel)).trans ((if_neg (by decide +kernel)).trans (if_pos (by decide +kernel)))

theorem tracedResponse_traced : Traced tracedResponse (.response (.number 1)) where
  line := Text.decode_toUTF8 _
  trim := (Shim.trimmed_object _).trim_line
  text := (if_neg (by decide +kernel)).trans (if_pos (isText_toJson _))
  raw := (if_neg (by decide +kernel)).trans (if_pos (isText_line _))
  margins := Shim.jsonMargins_line (Shim.trimmed_object _)
  once := rfl
  id := rfl
  params := rfl
  read := by decide +kernel
  written := (if_neg (by decide +kernel)).trans ((if_neg (by decide +kernel)).trans
    ((if_neg (by decide +kernel)).trans (if_pos (by decide +kernel))))

theorem traceParams_stripped : Shim.stripped (some traceParams) = some (.object [("name", .string "read")]) := rfl

/-- The message of such a line has a trace context, and the readers stand to each other as they should. -/
theorem Traced.facts {d : Value} {kind : JsonRpcMessageKind} (h : Traced d kind) :
    ∃ msg, Shim.readMessage .production (lineOf d) = some msg ∧ msg.kind = kind ∧
      JsonText.parse (Text.trim (d.toJson ++ "\n")).toUTF8 = .ok d ∧
      (Shim.extractContextFromMeta msg.params).hadTraceContext = true ∧
      Shim.JsonFacts (lineOf d) (d.toJson ++ "\n") msg := by
  have hparse : JsonText.parse (Text.trim (d.toJson ++ "\n")).toUTF8 = .ok d := by
    have hfound := h.text
    rw [h.trim, tracedText]
    dsimp only
    rw [hfound]
    exact congrArg Except.ok h.once
  obtain ⟨msg, hread, hkind⟩ := Option.map_eq_some_iff.mp h.read
  obtain ⟨v, hv, -, hparams⟩ := Shim.readMessage_eq hread h.line
  cases hparse.symm.trans hv
  rw [h.params] at hparams
  refine ⟨msg, hread, hkind, hparse, by rw [hparams]; rfl, fun v hv => ?_, fun v i hv hid => ?_, ?_, ?_⟩
  · cases hparse.symm.trans hv
    exact ⟨d, by rw [h.trim, h.text], h.once.symm⟩
  · cases hparse.symm.trans hv
    rw [h.id] at hid
    cases hid
  · rw [h.margins, if_pos rfl, h.trim, h.text, h.raw]
  · rw [hkind, hparams, traceParams_stripped]
    exact h.written

end Sample

attribute [local instance] Sample.tracedDocument Sample.tracedText

theorem strips_trace_only_sample :
    ∃ msg w, Shim.readMessage .production (Sample.lineOf Sample.tracedCall) = some msg ∧
      (Shim.extractContextFromMeta msg.params).hadTraceContext = true ∧
      JsonDocument.document (Shim.forwardBytes (Sample.lineOf Sample.tracedCall) msg) = some w ∧
      Shim.StripsTraceOnly Sample.tracedCall w := by
  obtain ⟨msg, hread, hkind, hparse, htrace, hjson⟩ := Sample.Traced.facts Sample.tracedCall_traced
  have hbuild : Shim.Rebuildable msg.kind Sample.tracedCall := by
    rw [hkind]
    refine ⟨by decide, fun key hsome => ?_⟩
    obtain ⟨w, hw⟩ := Option.isSome_iff_exists.mp hsome
    have hmem := List.mem_map_of_mem (f := Prod.fst) (Value.mem_of_get hw)
    exact hmem
  obtain ⟨w, hw, hstrips⟩ := (Shim.strips_trace_only_iff hread Sample.tracedCall_traced.line hparse htrace hjson).mpr hbuild
  exact ⟨msg, w, hread, htrace, hw, hstrips⟩

/-- The response goes to the server without its result. -/
theorem traced_response_loses_result :
    ∃ msg, Shim.readMessage .production (Sample.lineOf Sample.tracedResponse) = some msg ∧
      JsonText.parse (Text.trim (Sample.tracedResponse.toJson ++ "\n")).toUTF8 = .ok Sample.tracedResponse ∧
      (Shim.extractContextFromMeta msg.params).hadTraceContext = true ∧
      Shim.JsonFacts (Sample.lineOf Sample.tracedResponse) (Sample.tracedResponse.toJson ++ "\n") msg ∧
      ¬ ∃ w, JsonDocument.document (Shim.forwardBytes (Sample.lineOf Sample.tracedResponse) msg) = some w ∧
        Shim.StripsTraceOnly Sample.tracedResponse w := by
  obtain ⟨msg, hread, hkind, hparse, htrace, hjson⟩ := Sample.Traced.facts Sample.tracedResponse_traced
  refine ⟨msg, hread, hparse, htrace, hjson, ?_⟩
  rintro ⟨w, hw, hstrips⟩
  have hwritten := hjson.written
  rw [Shim.forwardBytes, if_pos htrace] at hw
  rw [show Shim.stripped msg.params = (Shim.extractContextFromMeta msg.params).strippedParams from rfl, hw, hkind] at hwritten
  cases hwritten
  have hresult := hstrips.others "result" (by decide)
  cases hresult

end

end ThoughtGate
