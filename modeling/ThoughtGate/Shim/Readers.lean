import ThoughtGate.Base.Document
import ThoughtGate.Shim.AgentToServer

/-!
# What the server reads

The question to the governance service is made of what `serde_json` has read in the line, which is the last of several
members with one key. The bytes that go to the server are the line itself, or the message written anew when a trace context
was taken out of it, and the server may go by another rule (`Says`). Both see the same message when the line stands between
JSON's own white space and its repeated keys make no difference (`OneReading`); what is written anew has no repeated keys,
but a response that is written anew has lost its parameters (`forwarded_says_question_iff`).

The grammar of JSON (`JsonDocument`) is a parameter, and so is what `serde_json` has to do with it (`JsonFacts`).
-/

namespace ThoughtGate

/-- The document that bytes are a text of, with all members in their order. -/
class JsonDocument where
  document : ByteArray → Option Value

/-- The method of a message; a response has none, and a question about one has `"response"` in its place. -/
def EvaluateRequest.methodSent (question : EvaluateRequest) : Option String :=
  if question.messageType = .response then none else some question.method

namespace Shim

/-- The white space of JSON. -/
def isJsonSpace (c : Char) : Bool := c == ' ' || c == '\t' || c == '\n' || c == '\r'

/-- What `trim` takes off a line is white space to JSON as well. -/
def jsonMargins (line : String) : Bool :=
  (line.toList.takeWhile Text.isWhitespace).all isJsonSpace &&
    (line.toList.reverse.takeWhile Text.isWhitespace).all isJsonSpace

theorem jsonMargins_line {s : String} (h : Text.Trimmed s) : jsonMargins (s ++ "\n") = true := by
  obtain ⟨c, rest, hfirst, hc⟩ := h.first
  obtain ⟨d, back, hline, -, hd⟩ := h.reverse_line
  rw [jsonMargins, hline, String.toList_append, hfirst, List.cons_append, List.takeWhile_cons_of_neg (by simp [hc]),
    List.takeWhile_cons_of_pos (by rfl), List.takeWhile_cons_of_neg (by simp [hd])]
  rfl

/-- The message as it is written anew. -/
def rebuilt (kind : JsonRpcMessageKind) (params : Option Value) : Value :=
  let head : List (String × Value) := [("jsonrpc", .string "2.0")]
  let tail : List (String × Value) := (params.map fun p => ("params", p)).toList
  .object (match kind with
    | .request id method => head ++ [("id", idValue id), ("method", .string method)] ++ tail
    | .notification method => head ++ [("method", Value.string method)] ++ tail
    | .response id => head ++ [("id", idValue id)])

theorem rebuildMessageWithParams_eq [F64.Fmt] (kind : JsonRpcMessageKind) (params : Option Value) :
    rebuildMessageWithParams kind params = (rebuilt kind params).toJson ++ "\n" := rfl

section

variable [Propagator]

/-- The parameters without the members of the trace context. -/
def stripped (params : Option Value) : Option Value := (extractContextFromMeta params).strippedParams

/-- The members of a value are those of the question, but for the members of the trace context. -/
structure SameCall (v : Value) (question : EvaluateRequest) : Prop where
  method : (v.get "method").bind Value.asStr = question.methodSent
  id : (v.get "id").map parseId = question.id.map some
  params : stripped (v.get "params") = question.params

/-- To a reader with this rule the bytes say what the question says. -/
def Says [JsonDocument] (rule : KeyRule) (bytes : ByteArray) (question : EvaluateRequest) : Prop :=
  ∃ d, JsonDocument.document bytes = some d ∧ SameCall (d.readBy rule) question

/-- Where the method, the identifier or the parameters are there several times, or a key inside the parameters is, the
first and the last make no difference. -/
structure OneReading (d : Value) : Prop where
  method : (d.get "method").bind Value.asStr = (d.getLast "method").bind Value.asStr
  id : (d.get "id").map parseId = (d.getLast "id").map parseId
  params : stripped ((d.get "params").map (Value.readBy .first)) = stripped ((d.getLast "params").map (Value.readBy .last))

/-- A line in which there is one call only: as a message it is not a response with a trace context; and if there is no trace
context in it, it stands between JSON's own white space and has one reading. -/
def OneCall [JsonDocument] (line : String) (msg : StdioMessage) : Prop :=
  if (extractContextFromMeta msg.params).hadTraceContext then messageTypeFromKind msg.kind ≠ .response
  else jsonMargins line = true ∧ ∀ d, JsonDocument.document (Text.trim line).toUTF8 = some d → OneReading d

/-- `serde_json` reads the trimmed line with the last of several members, and a negative number is one; white space of JSON
around a text makes no difference, and anything else is no JSON; what it writes is read as what was written. -/
structure JsonFacts [F64.Fmt] [JsonText] [JsonDocument] (raw : ByteArray) (line : String) (msg : StdioMessage) : Prop where
  parsed : ∀ v, JsonText.parse (Text.trim line).toUTF8 = .ok v →
    ∃ d, JsonDocument.document (Text.trim line).toUTF8 = some d ∧ v = d.readBy .last
  negative : ∀ v i, JsonText.parse (Text.trim line).toUTF8 = .ok v → v.get "id" = some (.number (.negInt i)) → i < 0
  margins : JsonDocument.document raw =
    if jsonMargins line then JsonDocument.document (Text.trim line).toUTF8 else none
  written : JsonDocument.document (rebuildMessageWithParams msg.kind (stripped msg.params)).toUTF8 =
    some (rebuilt msg.kind (stripped msg.params))

/-! ### Parameters without a trace context -/

omit [Propagator] in
theorem strippedMeta_twice (members : List (String × Value)) : strippedMeta (strippedMeta members) = strippedMeta members := by
  rw [strippedMeta, strippedMeta, Value.removeField_comm "traceparent" "baggage",
    Value.removeField_comm "tracestate" "baggage", Value.removeField_twice,
    Value.removeField_comm "traceparent" "tracestate", Value.removeField_twice, Value.removeField_twice]

/-- What an object of parameters becomes. -/
theorem stripped_object {fields members : List (String × Value)}
    (hmeta : (Value.object fields).get "_meta" = some (.object members)) :
    stripped (some (.object fields)) = some (.object (if (strippedMeta members).isEmpty then
      Value.removeField "_meta" fields else Value.insertField "_meta" (.object (strippedMeta members)) fields)) := by
  rw [stripped, extractContextFromMeta, hmeta]
  rfl

/-- Without an object of that name there is nothing to strip. -/
theorem stripped_self {p : Value} (h : (p.get "_meta").bind Value.asObject = none) :
    stripped (some p) = some p ∧ (extractContextFromMeta (some p)).hadTraceContext = false := by
  rw [stripped, extractContextFromMeta, h]
  exact ⟨rfl, rfl⟩

omit [Propagator] in
/-- Either there is nothing to strip, or the parameters are an object with an object of that name. -/
theorem meta_cases (p : Value) : (p.get "_meta").bind Value.asObject = none ∨
    ∃ fields members, p = .object fields ∧ (Value.object fields).get "_meta" = some (.object members) := by
  cases p with
  | object fields =>
    cases hmeta : (Value.object fields).get "_meta" with
    | none => exact Or.inl rfl
    | some m =>
      cases m with
      | object members => exact Or.inr ⟨fields, members, rfl, hmeta⟩
      | _ => exact Or.inl rfl
  | _ => exact Or.inl rfl

theorem stripped_twice (params : Option Value) : stripped (stripped params) = stripped params := by
  cases params with
  | none => rfl
  | some p =>
    rcases meta_cases p with hnone | ⟨fields, members, rfl, hmeta⟩
    · rw [(stripped_self hnone).1, (stripped_self hnone).1]
    · rw [stripped_object hmeta]
      split
      · refine (stripped_self ?_).1
        rw [Value.get_removeField_self]
        rfl
      · next hsome =>
        rw [stripped_object (Value.get_insertField_self _ _ _), strippedMeta_twice, if_neg hsome, Value.insertField_over]

theorem stripped_keyed {p q : Value} (hp : p.Keyed) (h : stripped (some p) = some q) : q.Keyed := by
  rcases meta_cases p with hnone | ⟨fields, members, rfl, hmeta⟩
  · rw [(stripped_self hnone).1] at h
    cases h
    exact hp
  · rw [stripped_object hmeta] at h
    cases h
    split
    · exact hp.removeField _
    · exact hp.insertField _ (((hp.get hmeta).removeField _).removeField _ |>.removeField _)

/-- Parameters with a trace context are there, stripped or not. -/
theorem stripped_isSome {params : Option Value} (h : (extractContextFromMeta params).hadTraceContext = true) :
    ∃ q, stripped params = some q := by
  cases params with
  | none => cases h
  | some p =>
    rcases meta_cases p with hnone | ⟨fields, members, rfl, hmeta⟩
    · exact ⟨p, (stripped_self hnone).1⟩
    · exact ⟨_, stripped_object hmeta⟩

/-! ### The question -/

variable {v : Value} {kind : JsonRpcMessageKind} {line : String} {msg : StdioMessage} {raw bytes : ByteArray}
  {profile : Profile} {env : LineEnv}

omit [Propagator] in
theorem classifyJsonrpc_members (h : classifyJsonrpc v = .ok kind) :
    (v.get "method").bind Value.asStr = (if messageTypeFromKind kind = .response then none else some kind.method) ∧
      (v.get "id").map parseId = kind.id.map some := by
  obtain ⟨hversion, hid, -⟩ := classifyJsonrpc_ok h
  refine ⟨?_, ?_⟩
  · rw [classifyJsonrpc, if_neg (not_not.mpr hversion), hid] at h
    cases hmethod : (v.get "method").bind Value.asStr with
    | some method =>
      cases hkind : kind.id with
      | some id =>
        rw [hkind, hmethod] at h
        cases h
        rfl
      | none =>
        rw [hkind, hmethod] at h
        cases h
        rfl
    | none =>
      cases hkind : kind.id with
      | some id =>
        rw [hkind, hmethod] at h
        cases h
        rfl
      | none =>
        rw [hkind, hmethod] at h
        cases h
  · rw [readId] at hid
    cases hget : v.get "id" with
    | none =>
      rw [hget] at hid
      rw [← Except.ok.inj hid]
      rfl
    | some w =>
      rw [hget] at hid
      dsimp only at hid
      split at hid
      · next id hparse =>
        rw [← Except.ok.inj hid, Option.map_some, hparse]
        rfl
      · cases hid

/-- What was read in a line says what the question says. -/
theorem sameCall_parsed (serverId : String) (h : classifyJsonrpc v = .ok kind) :
    SameCall v (evalRequest serverId kind (v.get "params")) :=
  ⟨(classifyJsonrpc_members h).1, (classifyJsonrpc_members h).2, rfl⟩

omit [Propagator] in
theorem parseStdioValue_ok (h : parseStdioValue line v = .ok msg) :
    classifyJsonrpc v = .ok msg.kind ∧ msg.params = v.get "params" := by
  unfold parseStdioValue at h
  split at h
  · cases h
  · split at h
    · next kind hkind =>
      cases h
      exact ⟨hkind, rfl⟩
    · split at h
      · cases h
      · cases h
    · cases h
    · cases h

omit [Propagator] in
theorem parseStdioMessage_ok [JsonText] (h : parseStdioMessage line = .ok msg) :
    ∃ v, JsonText.parse (Text.trim line).toUTF8 = .ok v ∧ classifyJsonrpc v = .ok msg.kind ∧
      msg.params = v.get "params" := by
  rw [parseStdioMessage] at h
  split at h
  · cases h
  · split at h
    · cases h
    · split at h
      · cases h
      · next v hv => exact ⟨v, hv, parseStdioValue_ok h⟩

omit [Propagator] in
theorem readMessage_eq [JsonText] (hread : readMessage profile raw = some msg) (hline : String.fromUTF8? raw = some line) :
    ∃ v, JsonText.parse (Text.trim line).toUTF8 = .ok v ∧ classifyJsonrpc v = .ok msg.kind ∧ msg.params = v.get "params" := by
  rw [readMessage] at hread
  split at hread
  · cases hread
  · rw [hline] at hread
    dsimp only at hread
    split at hread
    · cases hread
    · cases hparse : parseStdioMessage line with
      | error e =>
        rw [hparse] at hread
        cases hread
      | ok msg' =>
        rw [hparse] at hread
        dsimp only at hread
        split at hread
        · cases hread
        · cases hread
          exact parseStdioMessage_ok hparse

section

variable [F64.Fmt]

theorem awaitApproval_forwarded {response : EvaluateResponse} {tracked : Option (String × String)}
    (h : awaitApproval profile raw msg env response = .forwarded bytes tracked) : bytes = forwardBytes raw msg := by
  unfold awaitApproval at h
  split at h
  · cases h
  · dsimp only at h
    split at h
    · cases h
    · split at h
      · cases h
        rfl
      · cases h
    all_goals cases h

/-- What is forwarded after an answer is the line or the message written anew. -/
theorem handleLine_forwarded [JsonText] {tracked : Option (String × String)}
    (h : (handleLine profile raw env).1 = .forwarded bytes tracked) (hread : readMessage profile raw = some msg) :
    bytes = forwardBytes raw msg := by
  rw [handleLine, hread] at h
  dsimp only at h
  unfold handleMessage at h
  split at h
  · cases h
  · split at h
    · cases h
    · split at h
      · cases h
        rfl
      · cases h
      · exact awaitApproval_forwarded h

/-- A message that the service lets through is forwarded. -/
theorem handleLine_forward [JsonText] {response : EvaluateResponse} (hread : readMessage profile raw = some msg)
    (hpass : isPassthrough msg.kind.method = false) (hresponse : evaluated profile env.evaluate = some response)
    (hdecision : response.decision = .forward) : (handleLine profile raw env).1 = forward raw msg := by
  rw [handleLine, hread]
  show (handleMessage profile raw msg env).1 = _
  rw [handleMessage, if_neg (by simp [hpass]), hresponse]
  dsimp only
  rw [hdecision]

end

/-! ### The line itself -/

omit [Propagator] in
theorem parseId_readBy (rule : KeyRule) (v : Value) : parseId (v.readBy rule) = parseId v := by
  cases v with
  | _ => rfl

omit [Propagator] in
theorem asStr_of_map (rule : KeyRule) (o : Option Value) :
    (o.map (Value.readBy rule)).bind Value.asStr = o.bind Value.asStr := by
  cases o with
  | none => rfl
  | some w => exact Value.asStr_readBy rule w

omit [Propagator] in
theorem parseId_of_map (rule : KeyRule) (o : Option Value) : (o.map (Value.readBy rule)).map parseId = o.map parseId := by
  cases o with
  | none => rfl
  | some w => exact congrArg some (parseId_readBy rule w)

/-- What a reader that keeps the first members finds is what the one that keeps the last has found, exactly when there is
one reading. -/
theorem sameCall_first_iff {d : Value} {question : EvaluateRequest} (h : SameCall (d.readBy .last) question) :
    SameCall (d.readBy .first) question ↔ OneReading d := by
  obtain ⟨hmethod, hid, hparams⟩ := h
  rw [Value.get_readBy_last] at hmethod hid hparams
  rw [asStr_of_map] at hmethod
  rw [parseId_of_map] at hid
  constructor
  · rintro ⟨hmethod', hid', hparams'⟩
    rw [Value.get_readBy_first] at hmethod' hid' hparams'
    rw [asStr_of_map] at hmethod'
    rw [parseId_of_map] at hid'
    exact ⟨hmethod'.trans hmethod.symm, hid'.trans hid.symm, hparams'.trans hparams.symm⟩
  · rintro ⟨hmethod', hid', hparams'⟩
    refine ⟨?_, ?_, ?_⟩
    · rw [Value.get_readBy_first, asStr_of_map, hmethod', hmethod]
    · rw [Value.get_readBy_first, parseId_of_map, hid', hid]
    · rw [Value.get_readBy_first, hparams', hparams]

/-- A document without repeated keys has one reading. -/
theorem oneReading_of_keyed {d : Value} (h : d.Keyed) : OneReading d := by
  refine ⟨by rw [h.getLast], by rw [h.getLast], ?_⟩
  rw [h.getLast]
  cases hget : d.get "params" with
  | none => rfl
  | some p => rw [Option.map_some, Option.map_some, (h.get hget).readBy, (h.get hget).readBy]

/-! ### The message written anew -/

omit [Propagator] in
/-- An identifier that was read is written as it stood there. -/
theorem idValue_of_parseId {id : JsonRpcId} (hparse : parseId v = some id)
    (hnegative : ∀ i, v = .number (.negInt i) → i < 0) : idValue id = v := by
  cases v with
  | number n =>
    obtain ⟨i, hi, rfl⟩ := Option.map_eq_some_iff.mp hparse
    cases n with
    | posInt m =>
      rw [Number.asI64] at hi
      split at hi
      · cases hi
        have hnonneg : (0 : Int) ≤ (m : Int) := by omega
        rw [idValue, if_pos hnonneg]
        simp
      · cases hi
    | negInt j =>
      cases hi
      have hneg := hnegative _ rfl
      rw [idValue, if_neg (by omega)]
    | float f => cases hi
  | string s =>
    cases hparse
    rfl
  | null =>
    cases hparse
    rfl
  | _ => cases hparse

omit [Propagator] in
theorem parseId_idValue {id : JsonRpcId} (hparse : parseId v = some id) (hnegative : ∀ i, v = .number (.negInt i) → i < 0) :
    parseId (idValue id) = some id := by
  rw [idValue_of_parseId hparse hnegative]
  exact hparse

omit [Propagator] in
theorem rebuilt_keyed {params : Option Value} (h : ∀ p, params = some p → p.Keyed) : (rebuilt kind params).Keyed := by
  have hid : ∀ id, (idValue id).Keyed := by
    intro id
    cases id with
    | number n => exact .number _
    | string s => exact .string s
    | null => exact .null
  have htail : (Value.object (params.map fun p => ("params", p)).toList).Keyed := by
    cases params with
    | none => exact .emptyObject
    | some p => exact .cons (by simp) (h p rfl) .emptyObject
  have hfresh : ∀ key, key ≠ "params" → key ∉ ((params.map fun p => ("params", p)).toList).map (·.1) := by
    intro key hkey
    cases params with
    | none => simp
    | some p => simpa using hkey
  cases kind with
  | request id method =>
    refine .cons ?_ (.string _) (.cons ?_ (hid id) (.cons (hfresh _ (by decide)) (.string method) htail))
    · simp [hfresh]
    · simp [hfresh]
  | notification method =>
    refine .cons ?_ (.string _) (.cons (hfresh _ (by decide)) (.string method) htail)
    simp [hfresh]
  | response id => exact .cons (by simp) (.string _) (.cons (by simp) (hid id) .emptyObject)

/-- A message that is written anew says what the question says, unless it is a response. -/
theorem sameCall_rebuilt_iff (serverId : String) {params : Option Value} {p : Value} (hp : stripped params = some p)
    (hid : ∀ id, kind.id = some id → parseId (idValue id) = some id) :
    SameCall (rebuilt kind (stripped params)) (evalRequest serverId kind params) ↔ messageTypeFromKind kind ≠ .response := by
  have htwice : stripped (some p) = some p := by
    rw [← hp]
    exact stripped_twice params
  have hquestion : (evalRequest serverId kind params).params = some p := hp
  rw [hp]
  cases kind with
  | response id =>
    refine iff_of_false (fun h => ?_) (fun h => h rfl)
    have hparams := h.params
    rw [hquestion] at hparams
    cases hparams
  | request id method =>
    refine iff_of_true ⟨rfl, ?_, ?_⟩ (fun h => by cases h)
    · exact congrArg some (hid id rfl)
    · rw [hquestion]
      exact htwice
  | notification method =>
    refine iff_of_true ⟨rfl, rfl, ?_⟩ (fun h => by cases h)
    rw [hquestion]
    exact htwice

end

section

variable [Propagator] [F64.Fmt] [JsonText] [JsonDocument] {msg : StdioMessage} {raw bytes : ByteArray}
  {profile : Profile} {env : LineEnv} {line : String}

/-- What was read for the identifier is read from what is written for it. -/
theorem JsonFacts.id_read {v : Value} (hjson : JsonFacts raw line msg) (hv : JsonText.parse (Text.trim line).toUTF8 = .ok v)
    (hkind : classifyJsonrpc v = .ok msg.kind) :
    ∀ id, msg.kind.id = some id → parseId (idValue id) = some id := by
  intro id hsome
  have hmember := (classifyJsonrpc_members hkind).2
  rw [hsome] at hmember
  obtain ⟨w, hw, hparse⟩ := Option.map_eq_some_iff.mp hmember
  refine parseId_idValue hparse fun i hi => hjson.negative _ i hv ?_
  rw [hw, hi]

omit [F64.Fmt] [JsonText] [JsonDocument] in
/-- The parameters that were read have distinct keys, and so has the message that is made of them. -/
theorem rebuilt_read_keyed {d : Value} (hparams : msg.params = (d.readBy .last).get "params") :
    (rebuilt msg.kind (stripped msg.params)).Keyed := by
  refine rebuilt_keyed fun q hq => ?_
  rw [hparams] at hq
  cases hget : (d.readBy .last).get "params" with
  | none =>
    rw [hget] at hq
    cases hq
  | some w =>
    rw [hget] at hq
    exact stripped_keyed ((Value.readBy_keyed .last d).get hget) hq

omit [F64.Fmt] [JsonText] in
/-- Bytes that are a value with distinct keys say the same to every reader. -/
theorem says_keyed_iff {v : Value} {question : EvaluateRequest} (hdocument : JsonDocument.document bytes = some v)
    (hkeyed : v.Keyed) : (∀ rule, Says rule bytes question) ↔ SameCall v question := by
  constructor
  · intro hsays
    obtain ⟨d, hd, hsame⟩ := hsays .last
    cases hdocument.symm.trans hd
    rwa [hkeyed.readBy] at hsame
  · intro hsame rule
    refine ⟨v, hdocument, ?_⟩
    rw [hkeyed.readBy]
    exact hsame

/-- A line that is written as it came says to the first reader what it says to the last one when it has one reading. -/
theorem says_raw_iff {d : Value} {question : EvaluateRequest} (hjson : JsonFacts raw line msg)
    (hd : JsonDocument.document (Text.trim line).toUTF8 = some d) (hlast : SameCall (d.readBy .last) question) :
    (∀ rule, Says rule raw question) ↔ jsonMargins line = true ∧ OneReading d := by
  constructor
  · intro hsays
    obtain ⟨d', hd', hsame⟩ := hsays .first
    rw [hjson.margins] at hd'
    split at hd'
    · next hmargins =>
      cases hd.symm.trans hd'
      exact ⟨hmargins, (sameCall_first_iff hlast).mp hsame⟩
    · cases hd'
  · rintro ⟨hmargins, hone⟩ rule
    refine ⟨d, by rw [hjson.margins, if_pos hmargins, hd], ?_⟩
    cases rule with
    | first => exact (sameCall_first_iff hlast).mpr hone
    | last => exact hlast

/-- Of every line that is forwarded after an answer, the bytes that are written say what the question has said, to readers
with either rule, exactly when there is one call in the line. -/
theorem forwarded_says_question_iff (serverId : String) {tracked : Option (String × String)}
    (hforwarded : (handleLine profile raw env).1 = .forwarded bytes tracked)
    (hread : readMessage profile raw = some msg) (hline : String.fromUTF8? raw = some line)
    (hjson : JsonFacts raw line msg) :
    (∀ rule, Says rule bytes (evalRequest serverId msg.kind msg.params)) ↔ OneCall line msg := by
  rw [handleLine_forwarded hforwarded hread]
  obtain ⟨v, hv, hkind, hparams⟩ := readMessage_eq hread hline
  obtain ⟨d, hd, rfl⟩ := hjson.parsed v hv
  rw [OneCall]
  cases htrace : (extractContextFromMeta msg.params).hadTraceContext with
  | true =>
    obtain ⟨p, hp⟩ := stripped_isSome htrace
    have hbytes : forwardBytes raw msg = (rebuildMessageWithParams msg.kind (stripped msg.params)).toUTF8 := by
      rw [forwardBytes, if_pos htrace]
      rfl
    rw [if_pos rfl, hbytes, says_keyed_iff hjson.written (rebuilt_read_keyed hparams)]
    exact sameCall_rebuilt_iff serverId hp (hjson.id_read hv hkind)
  | false =>
    have hbytes : forwardBytes raw msg = raw := by
      rw [forwardBytes, htrace]
      rfl
    have hlast : SameCall (d.readBy .last) (evalRequest serverId msg.kind msg.params) := by
      rw [hparams]
      exact sameCall_parsed serverId hkind
    rw [if_neg (by simp), hbytes, says_raw_iff hjson hd hlast]
    refine and_congr_right fun _ => ⟨fun hone d' hd' => ?_, fun hone => hone d hd⟩
    cases hd.symm.trans hd'
    exact hone

end

end Shim

section

attribute [local instance] Sample.f64Fmt Sample.propagator

namespace Sample

/-- The grammar, for the text of one document with and without a newline. -/
@[reducible] def documentOf (d : Value) : JsonDocument where
  document bytes := if bytes == d.toJson.toUTF8 || bytes == (d.toJson ++ "\n").toUTF8 then some d else none

/-- `serde_json`, for the text of one document. -/
@[reducible] def lastOf (d : Value) : JsonText where
  parse bytes := if bytes == d.toJson.toUTF8 then .ok (d.readBy .last) else .error "expected value"

theorem documentOf_toJson (d : Value) : (documentOf d).document d.toJson.toUTF8 = some d :=
  if_pos (Bool.or_eq_true_iff.mpr (.inl (beq_self_eq_true d.toJson.toUTF8.data)))

theorem documentOf_line (d : Value) : (documentOf d).document (d.toJson ++ "\n").toUTF8 = some d :=
  if_pos (Bool.or_eq_true_iff.mpr (.inr (beq_self_eq_true (d.toJson ++ "\n").toUTF8.data)))

theorem lastOf_toJson (d : Value) : (lastOf d).parse d.toJson.toUTF8 = .ok (d.readBy .last) :=
  if_pos (beq_self_eq_true d.toJson.toUTF8.data)

/-- The service says `Forward`. -/
def forwardEnv : LineEnv where
  evaluate := .response 200 (.ok { decision := .forward })
  pollStart := 0
  cycles := []
  revalidate := .failed "not asked"

theorem noTrace (params : Option Value) : (Shim.extractContextFromMeta params).hadTraceContext = false := by
  unfold Shim.extractContextFromMeta
  split
  · rfl
  · split
    · rfl
    · split
      · rfl
      · rfl

theorem forwardBytes_eq (raw : ByteArray) (msg : StdioMessage) : Shim.forwardBytes raw msg = raw := by
  rw [Shim.forwardBytes, if_neg (by simp [noTrace])]

end Sample

section

@[reducible] def Sample.readCallDocument : JsonDocument := Sample.documentOf Sample.readCallMessage

@[reducible] def Sample.readCallText : JsonText := Sample.lastOf Sample.readCallMessage

attribute [local instance] Sample.readCallDocument Sample.readCallText

/-- A call without repeated keys says the same to every reader. -/
theorem forwarded_says_question_sample :
    ∃ msg, Shim.readMessage .production Sample.readCallLine = some msg ∧
      ∀ rule, Shim.Says rule Sample.readCallLine (Shim.evalRequest "fs" msg.kind msg.params) := by
  have hkeyed : Sample.readCallMessage.Keyed :=
    .cons (by decide) (.string _) (.cons (by decide) (.number _) (.cons (by decide) (.string _)
      (.cons (by decide) (.cons (by decide) (.string _) .emptyObject) .emptyObject)))
  have hkind : (Shim.readMessage .production Sample.readCallLine).map (·.kind) =
      some (.request (.number 1) "tools/call") := by decide +kernel
  obtain ⟨msg, hread, hmsg⟩ := Option.map_eq_some_iff.mp hkind
  have hline : String.fromUTF8? Sample.readCallLine = some (Sample.readCallMessage.toJson ++ "\n") := Text.decode_toUTF8 _
  have htrim : Text.trim (Sample.readCallMessage.toJson ++ "\n") = Sample.readCallMessage.toJson :=
    (Shim.trimmed_object _).trim_line
  have hparse : JsonText.parse Sample.readCallMessage.toJson.toUTF8 = .ok Sample.readCallMessage := by
    rw [Sample.lastOf_toJson, hkeyed.readBy]
  have hdocument : JsonDocument.document Sample.readCallMessage.toJson.toUTF8 = some Sample.readCallMessage :=
    Sample.documentOf_toJson _
  have hraw : JsonDocument.document Sample.readCallLine = some Sample.readCallMessage := Sample.documentOf_line _
  have hmargins : Shim.jsonMargins (Sample.readCallMessage.toJson ++ "\n") = true :=
    Shim.jsonMargins_line (Shim.trimmed_object _)
  obtain ⟨v, hv, -, hparams⟩ := Shim.readMessage_eq hread hline
  rw [htrim, hparse] at hv
  cases hv
  have hjson : Shim.JsonFacts Sample.readCallLine (Sample.readCallMessage.toJson ++ "\n") msg := by
    refine ⟨fun v hv => ?_, fun v i hv hid => ?_, ?_, ?_⟩
    · rw [htrim, hparse] at hv
      cases hv
      exact ⟨_, by rw [htrim, hdocument], hkeyed.readBy.symm⟩
    · rw [htrim, hparse] at hv
      cases hv
      cases hid
    · rw [hmargins, if_pos rfl, htrim, hdocument, hraw]
    · rw [hmsg, hparams]
      exact hraw
  have hpass : Shim.isPassthrough msg.kind.method = false := by
    rw [hmsg]
    decide
  have hforwarded : (Shim.handleLine .production Sample.readCallLine Sample.forwardEnv).1 =
      Shim.forward Sample.readCallLine msg := Shim.handleLine_forward hread hpass rfl rfl
  rw [Shim.forward, Sample.forwardBytes_eq] at hforwarded
  refine ⟨msg, hread, (Shim.forwarded_says_question_iff "fs" hforwarded hread hline hjson).mpr ?_⟩
  rw [Shim.OneCall, if_neg (by simp [Sample.noTrace])]
  refine ⟨hmargins, fun d hd => ?_⟩
  rw [htrim, hdocument] at hd
  cases hd
  exact Shim.oneReading_of_keyed hkeyed

end

namespace Sample

/-- A call with two names. -/
def twoNames : Value :=
  .object [("jsonrpc", .string "2.0"), ("id", .number (.posInt 1)), ("method", .string "tools/call"),
    ("params", .object [("name", .string "remove"), ("name", .string "read")])]

def twoNamesLine : ByteArray := (twoNames.toJson ++ "\n").toUTF8

@[reducible] def twoNamesDocument : JsonDocument := documentOf twoNames

@[reducible] def twoNamesText : JsonText := lastOf twoNames

end Sample

attribute [local instance] Sample.twoNamesDocument Sample.twoNamesText

/-- The service was asked about `read`; a server that keeps the first of two members is told to `remove`. -/
theorem two_names_differ :
    ∃ msg, Shim.readMessage .production Sample.twoNamesLine = some msg ∧
      (Shim.handleLine .production Sample.twoNamesLine Sample.forwardEnv).1.written = some Sample.twoNamesLine ∧
      (msg.params.bind (·.get "name")).bind Value.asStr = some "read" ∧
      (((Sample.twoNames.readBy .first).get "params").bind (·.get "name")).bind Value.asStr = some "remove" ∧
      ¬ ∀ rule, Shim.Says rule Sample.twoNamesLine (Shim.evalRequest "fs" msg.kind msg.params) := by
  have hboth : (Shim.readMessage .production Sample.twoNamesLine).map
      (fun msg => (msg.kind, (msg.params.bind (·.get "name")).bind Value.asStr)) =
        some (.request (.number 1) "tools/call", some "read") := by decide +kernel
  obtain ⟨msg, hread, hmsg⟩ := Option.map_eq_some_iff.mp hboth
  obtain ⟨hkind, hname⟩ := Prod.mk.inj hmsg
  have hpass : Shim.isPassthrough msg.kind.method = false := by
    rw [hkind]
    decide
  have hforwarded : (Shim.handleLine .production Sample.twoNamesLine Sample.forwardEnv).1 =
      Shim.forward Sample.twoNamesLine msg := Shim.handleLine_forward hread hpass rfl rfl
  rw [Shim.forward, Sample.forwardBytes_eq] at hforwarded
  have hfirst : (((Sample.twoNames.readBy .first).get "params").bind (·.get "name")).bind Value.asStr =
      some "remove" := by decide
  have hdocument : JsonDocument.document Sample.twoNamesLine = some Sample.twoNames := Sample.documentOf_line _
  refine ⟨msg, hread, by rw [hforwarded]; rfl, hname, hfirst, fun hsays => ?_⟩
  obtain ⟨d, hd, hsame⟩ := hsays .first
  rw [hdocument] at hd
  cases hd
  have hparams := congrArg (fun params => (Option.bind params (·.get "name")).bind Value.asStr) hsame.params
  have hleft := Shim.get_strippedParams ((Sample.twoNames.readBy .first).get "params") (show "name" ≠ "_meta" by decide)
  have hright := Shim.get_strippedParams msg.params (show "name" ≠ "_meta" by decide)
  have hnames : (((Sample.twoNames.readBy .first).get "params").bind (·.get "name")).bind Value.asStr =
      (msg.params.bind (·.get "name")).bind Value.asStr := by
    rw [← hleft, ← hright]
    exact hparams
  rw [hfirst, hname] at hnames
  exact absurd hnames (by decide)

end

end ThoughtGate
