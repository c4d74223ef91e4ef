import ThoughtGate.Base.Error
import ThoughtGate.Task.Types

/-!
# JSON-RPC messages

The two readings of a message: `classifyJsonrpc` (`jsonrpc.rs`), which the stdio shim goes by, and
`parseSingleRequest` (`transport/jsonrpc.rs`), which the HTTP proxy goes by. Both work on a decoded `Value`. The proxy
decodes a body that is one object without that detour; the two decoders differ for a member that occurs twice, which a
`Value` no longer shows, and for what a `Value` cannot hold (`FastPath`).

The JSON parser (`JsonText`) and what `serde` says of a value that it cannot decode (`Serde`) are functions of the
caller's choice.
-/

namespace ThoughtGate

/-- `serde_json::from_slice`; `from_str` is the same function of the bytes of a text. -/
class JsonText where
  parse : ByteArray → Except String Value

/-- The text of `serde`'s error for a value that does not have the shape of a `RawJsonRpcRequest`. -/
class Serde where
  structureError : Value → String

/-- `Number::as_i64`. -/
def Number.asI64 : Number → Option Int
  | .posInt n => if n < 2 ^ 63 then some n else none
  | .negInt i => some i
  | .float _ => none

/-- `Number::as_u64`. -/
def Number.asU64 : Number → Option Nat
  | .posInt n => some n
  | _ => none

/-- `parse_id`, and `JsonRpcId::deserialize`. -/
def parseId : Value → Option JsonRpcId
  | .number n => n.asI64.map .number
  | .string s => some (.string s)
  | .null => some .null
  | _ => none

/-! ### Classification -/

/-- `JsonRpcMessageKind`. -/
inductive JsonRpcMessageKind where
  | request (id : JsonRpcId) (method : String)
  | response (id : JsonRpcId)
  | notification (method : String)
deriving DecidableEq

inductive JsonRpcClassifyError where
  | invalidVersion
  | invalidId
  | unclassifiable
deriving DecidableEq

/-- What stands under `id`: nothing, an identifier, or something else (`.transpose()`). -/
def readId (value : Value) : Except JsonRpcClassifyError (Option JsonRpcId) :=
  match value.get "id" with
  | none => .ok none
  | some v =>
    match parseId v with
    | some id => .ok (some id)
    | none => .error .invalidId

/-- `classify_jsonrpc`. -/
def classifyJsonrpc (value : Value) : Except JsonRpcClassifyError JsonRpcMessageKind := do
  if (value.get "jsonrpc").bind Value.asStr ≠ some "2.0" then throw .invalidVersion
  let id ← readId value
  match id, (value.get "method").bind Value.asStr with
  | some id, some method => .ok (.request id method)
  | some id, none => .ok (.response id)
  | none, some method => .ok (.notification method)
  | none, none => .error .unclassifiable

/-! ### Parsing -/

/-- `TaskMetadata`: `params.task` is there. -/
structure TaskMetadata where
  ttl : Option Duration
deriving DecidableEq

/-- `McpRequest`, without its time stamp and its correlation id. -/
structure McpRequest where
  id : Option JsonRpcId
  method : String
  params : Option Value
  taskMetadata : Option TaskMetadata

/-- `JsonRpcRequest`: what goes upstream, under the version that is always written. -/
structure JsonRpcRequest where
  id : Option JsonRpcId
  method : String
  params : Option Value

/-- `to_jsonrpc_request`. -/
def McpRequest.toJsonrpcRequest (request : McpRequest) : JsonRpcRequest where
  id := request.id
  method := request.method
  params := request.params

/-- `RawJsonRpcRequest`. -/
structure RawJsonRpcRequest where
  jsonrpc : Option String
  id : Option JsonRpcId
  method : Option String
  params : Option Value

/-- An optional text: absent and `null` are nothing, a text is itself, anything else does not decode. -/
def decodeText : Option Value → Option (Option String)
  | none | some .null => some none
  | some (.string s) => some (some s)
  | some _ => none

/-- `deserialize_optional_id`: absent is nothing, `null` is an identifier. -/
def decodeId : Option Value → Option (Option JsonRpcId)
  | none => some none
  | some v => (parseId v).map some

/-- An optional value: `null` is nothing. -/
def decodeValue : Option Value → Option Value
  | none | some .null => none
  | some v => some v

def decodeMembers (jsonrpc id method params : Option Value) : Option RawJsonRpcRequest := do
  let jsonrpc ← decodeText jsonrpc
  let id ← decodeId id
  let method ← decodeText method
  some { jsonrpc, id, method, params := decodeValue params }

/-- The derived `RawJsonRpcRequest::deserialize`: the members of an object, or four values in their order. -/
def decodeRequest : Value → Option RawJsonRpcRequest
  | .object fields =>
    let value := Value.object fields
    decodeMembers (value.get "jsonrpc") (value.get "id") (value.get "method") (value.get "params")
  | .array [jsonrpc, id, method, params] => decodeMembers (some jsonrpc) (some id) (some method) (some params)
  | _ => none

/-- `MAX_TTL_MS`: 24 hours. -/
def maxTtlMs : Nat := 24 * 60 * 60 * 1000

/-- `extract_task_metadata`. -/
def extractTaskMetadata (params : Option Value) : Option TaskMetadata := do
  let params ← params
  let task ← params.get "task"
  let ttl := match task.get "ttl" with
    | some (.number n) => n.asU64.map fun ms => min ms maxTtlMs * 1000000
    | _ => none
  some { ttl }

/-- `parse_single_from_raw`. -/
def parseSingleFromRaw (raw : RawJsonRpcRequest) : Except ThoughtGateError McpRequest :=
  match raw.jsonrpc with
  | none => .error (.invalidRequest "Missing required field: jsonrpc")
  | some version =>
    if version ≠ "2.0" then
      .error (.invalidRequest ("Invalid jsonrpc version: expected \"2.0\", got \"" ++ version ++ "\""))
    else
      match raw.method with
      | none => .error (.invalidRequest "Missing required field: method")
      | some method =>
        .ok { id := raw.id, method, params := raw.params, taskMetadata := extractTaskMetadata raw.params }

/-- A request has task metadata exactly where its parameters have a member `task`. -/
theorem extractTaskMetadata_isSome (params : Option Value) :
    (extractTaskMetadata params).isSome = (params.bind (Value.get "task")).isSome := by
  cases params with
  | none => rfl
  | some params => cases h : params.get "task" <;> simp [extractTaskMetadata, h]

theorem parseSingleFromRaw_metadata {raw : RawJsonRpcRequest} {request : McpRequest}
    (h : parseSingleFromRaw raw = .ok request) : request.taskMetadata = extractTaskMetadata request.params := by
  unfold parseSingleFromRaw at h
  split at h
  · cases h
  · split at h
    · cases h
    · split at h
      · cases h
      · cases h
        rfl

/-- `parse_single_request`. -/
def parseSingleRequest [Serde] (value : Value) : Except ThoughtGateError McpRequest :=
  match decodeRequest value with
  | none => .error (.invalidRequest ("Invalid JSON-RPC structure: " ++ Serde.structureError value))
  | some raw => parseSingleFromRaw raw

inductive BatchItem where
  | valid (request : McpRequest)
  | invalid (id : Option JsonRpcId) (error : ThoughtGateError)

inductive ParsedRequests where
  | single (request : McpRequest)
  | batch (items : List BatchItem)

/-- `u8::is_ascii_whitespace`. -/
def isAsciiWhitespace (b : UInt8) : Bool := b == 32 || b == 9 || b == 10 || b == 12 || b == 13

/-- One item of a batch; the identifier of a malformed one is looked for separately. -/
def batchItem [Serde] (item : Value) : BatchItem :=
  match parseSingleRequest item with
  | .ok request => .valid request
  | .error error => .invalid ((item.get "id").bind parseId) error

/-- `parse_jsonrpc`. -/
def parseJsonrpc [JsonText] [Serde] (bytes : ByteArray) : Except ThoughtGateError ParsedRequests :=
  match bytes.toList.find? fun b => !isAsciiWhitespace b with
  | none => .error (.parseError "Invalid JSON: empty input")
  | some first =>
    match JsonText.parse bytes with
    | .error e => .error (.parseError ("Invalid JSON: " ++ e))
    | .ok value =>
      if first = 0x7b then (parseSingleRequest value).map .single
      else
        match value with
        | .array [] => .error (.invalidRequest "Empty batch is not allowed")
        | .array items => .ok (.batch (items.map batchItem))
        | _ => .error (.invalidRequest "Request must be an object or array")

/-! ### The two readings agree -/

/-- The method of a message, and `"response"` for a response (`method_from_kind`). -/
def JsonRpcMessageKind.method : JsonRpcMessageKind → String
  | .request _ method => method
  | .notification method => method
  | .response _ => "response"

/-- `id_from_kind`. -/
def JsonRpcMessageKind.id : JsonRpcMessageKind → Option JsonRpcId
  | .request id _ => some id
  | .response id => some id
  | .notification _ => none

theorem classifyJsonrpc_ok {value : Value} {kind : JsonRpcMessageKind} (h : classifyJsonrpc value = .ok kind) :
    (value.get "jsonrpc").bind Value.asStr = some "2.0" ∧ readId value = .ok kind.id ∧
      ((value.get "method").bind Value.asStr = some kind.method ∨ ∃ id, kind = .response id) := by
  unfold classifyJsonrpc at h
  split at h
  · cases h
  · next hversion =>
    have hjsonrpc : (value.get "jsonrpc").bind Value.asStr = some "2.0" := by simpa using hversion
    refine ⟨hjsonrpc, ?_⟩
    cases hid : readId value with
    | error e =>
      rw [hid] at h
      cases h
    | ok id =>
      rw [hid] at h
      cases hmethod : (value.get "method").bind Value.asStr with
      | some method =>
        cases id <;>
        · simp only [hmethod] at h
          cases h
          exact ⟨rfl, .inl rfl⟩
      | none =>
        cases id with
        | some id =>
          simp only [hmethod] at h
          cases h
          exact ⟨rfl, .inr ⟨id, rfl⟩⟩
        | none =>
          simp only [hmethod] at h
          cases h

theorem asStr_bind {value : Option Value} {text : String} (h : value.bind Value.asStr = some text) :
    value = some (.string text) := by
  cases value with
  | none => cases h
  | some v =>
    cases v <;> cases h
    rfl

theorem decodeId_of_readId {value : Value} {id : Option JsonRpcId} (h : readId value = .ok id) :
    decodeId (value.get "id") = some id := by
  unfold readId at h
  cases hget : value.get "id" with
  | none =>
    rw [hget] at h
    cases h
    rfl
  | some v =>
    rw [hget] at h
    cases hparse : parseId v with
    | none => simp [hparse] at h
    | some found =>
      simp only [hparse] at h
      cases h
      simp [decodeId, hparse]

/-- A message that the shim classifies as a request or a notification parses for the proxy, with the same identifier
and method. -/
theorem parseSingleRequest_of_classify [Serde] {value : Value} {kind : JsonRpcMessageKind}
    (h : classifyJsonrpc value = .ok kind) (hkind : ∀ id, kind ≠ .response id) :
    parseSingleRequest value = .ok
      { id := kind.id, method := kind.method, params := decodeValue (value.get "params"),
        taskMetadata := extractTaskMetadata (decodeValue (value.get "params")) } := by
  obtain ⟨hversion, hid, hmethod⟩ := classifyJsonrpc_ok h
  have hmethod : (value.get "method").bind Value.asStr = some kind.method :=
    hmethod.resolve_right fun ⟨id, hresp⟩ => hkind id hresp
  cases value with
  | object fields =>
    unfold parseSingleRequest decodeRequest
    dsimp only
    rw [asStr_bind hversion, asStr_bind hmethod]
    simp [decodeMembers, decodeText, decodeId_of_readId hid, parseSingleFromRaw]
  | _ => cases hversion

/-- The call that a message carries: an identifier makes it a request. -/
def JsonRpcMessageKind.ofCall (id : Option JsonRpcId) (method : String) : JsonRpcMessageKind :=
  match id with
  | some id => .request id method
  | none => .notification method

theorem readId_of_decodeId {value : Value} {id : Option JsonRpcId} (h : decodeId (value.get "id") = some id) :
    readId value = .ok id := by
  unfold readId
  cases hget : value.get "id" with
  | none =>
    rw [hget] at h
    cases h
    rfl
  | some v =>
    rw [hget, decodeId] at h
    obtain ⟨found, hfound, rfl⟩ := Option.map_eq_some_iff.mp h
    simp only [hfound]

theorem decodeText_eq_some {value : Option Value} {text : String} (h : decodeText value = some (some text)) :
    value = some (.string text) := by
  cases value with
  | none => cases h
  | some v =>
    cases v <;> cases h
    rfl

/-- The other direction: a call that parses for the proxy is a call for the shim. -/
theorem classify_of_parseSingleRequest [Serde] {fields : List (String × Value)} {request : McpRequest}
    (h : parseSingleRequest (.object fields) = .ok request) :
    classifyJsonrpc (.object fields) = .ok (.ofCall request.id request.method) := by
  unfold parseSingleRequest at h
  cases hraw : decodeRequest (.object fields) with
  | none =>
    rw [hraw] at h
    cases h
  | some raw =>
    rw [hraw] at h
    simp only [decodeRequest, decodeMembers, Option.bind_eq_bind, Option.bind_eq_some_iff] at hraw
    obtain ⟨jsonrpc, hjsonrpc, id, hid, method, hmethod, hmade⟩ := hraw
    cases hmade
    have hcall : ∃ name, jsonrpc = some "2.0" ∧ method = some name ∧ request.id = id ∧ request.method = name := by
      simp only [parseSingleFromRaw] at h
      split at h
      · cases h
      · rename_i version
        split at h
        · cases h
        · rename_i hversion
          rw [not_not] at hversion
          subst hversion
          split at h
          · cases h
          · rename_i name
            cases h
            exact ⟨name, rfl, rfl, rfl, rfl⟩
    obtain ⟨name, rfl, rfl, hrid, hrmethod⟩ := hcall
    rw [hrid, hrmethod, classifyJsonrpc, decodeText_eq_some hjsonrpc, decodeText_eq_some hmethod,
      readId_of_decodeId hid]
    cases id <;> rfl

/-- The two readings of a value: they see the same calls, and what the shim takes for a response has no method. -/
structure ReadAlike [Serde] (value : Value) : Prop where
  calls : ∀ id method, (parseSingleRequest value).map (fun request => (request.id, request.method)) = .ok (id, method) ↔
    classifyJsonrpc value = .ok (.ofCall id method)
  responses : ∀ id, classifyJsonrpc value = .ok (.response id) → value.get "method" = none

theorem readId_found {value : Value} {id : JsonRpcId} (h : readId value = .ok (some id)) :
    ∃ v found, value.get "id" = some v ∧ parseId v = some found := by
  unfold readId at h
  cases hget : value.get "id" with
  | none =>
    rw [hget] at h
    cases h
  | some v =>
    cases hparse : parseId v with
    | none =>
      simp only [hget, hparse] at h
      cases h
    | some found => exact ⟨v, found, rfl, hparse⟩

/-- A method that is no text counts as none. -/
theorem classifyJsonrpc_of_not_text {value v m : Value} {id : JsonRpcId} (hversion : value.get "jsonrpc" = some (.string "2.0"))
    (hget : value.get "id" = some v) (hid : parseId v = some id) (hm : value.get "method" = some m)
    (hstr : m.asStr = none) : classifyJsonrpc value = .ok (.response id) := by
  have hread : readId value = .ok (some id) := by
    simp only [readId, hget, hid]
  rw [classifyJsonrpc, hversion, hread, hm]
  simp only [Option.bind_some, hstr]
  rfl

/-- The two readings of an object are alike exactly when an object with the version and an identifier has no method
or a text for one. -/
theorem read_alike_iff [Serde] (fields : List (String × Value)) :
    ReadAlike (.object fields) ↔
      ((Value.object fields).get "jsonrpc" = some (.string "2.0") →
        (∃ v id, (Value.object fields).get "id" = some v ∧ parseId v = some id) →
        ∀ v, (Value.object fields).get "method" = some v → ∃ method, v = .string method) := by
  generalize hvalue : Value.object fields = value
  constructor
  · rintro halike hversion ⟨v, id, hget, hid⟩ m hm
    cases hstr : m.asStr with
    | some method =>
      have htext : (some m).bind Value.asStr = some method := hstr
      exact ⟨method, Option.some.inj (asStr_bind htext)⟩
    | none =>
      rw [halike.responses id (classifyJsonrpc_of_not_text hversion hget hid hm hstr)] at hm
      cases hm
  · intro hcond
    refine ⟨fun id method => ⟨fun hparse => ?_, fun hclass => ?_⟩, fun id hresponse => ?_⟩
    · subst hvalue
      cases hrequest : parseSingleRequest (.object fields) with
      | error e =>
        rw [hrequest] at hparse
        cases hparse
      | ok request =>
        rw [hrequest] at hparse
        cases hparse
        exact classify_of_parseSingleRequest hrequest
    · have hcall : ∀ id', JsonRpcMessageKind.ofCall id method ≠ .response id' := by
        intro id' heq
        cases id <;> cases heq
      rw [parseSingleRequest_of_classify hclass hcall]
      cases id <;> rfl
    · by_contra hsome
      obtain ⟨m, hm⟩ := Option.ne_none_iff_exists'.mp hsome
      obtain ⟨hversion, hread, -⟩ := classifyJsonrpc_ok hresponse
      obtain ⟨method, rfl⟩ := hcond (asStr_bind hversion) (readId_found hread) m hm
      -- with a text for its method it is a request
      rw [classifyJsonrpc, hversion, hread, hm] at hresponse
      cases hresponse

namespace Sample

@[reducible] def serde : Serde where
  structureError _ := "invalid type"

/-- A parser that knows the texts of these values. -/
@[reducible] def jsonTextOf [F64.Fmt] (values : List Value) : JsonText where
  parse bytes :=
    match values.find? fun v => v.toJson.toUTF8 == bytes with
    | some v => .ok v
    | none => .error "expected value"

/-- A message whose method is a number. -/
def numberMethod : Value :=
  .object [("jsonrpc", .string "2.0"), ("id", .number (.posInt 1)), ("method", .number (.posInt 5))]

end Sample

section

attribute [local instance] Sample.serde

/-- A method that is no text: an error for the proxy, a response for the shim. -/
theorem read_alike_fails :
    classifyJsonrpc Sample.numberMethod = .ok (.response (.number 1)) ∧
      parseSingleRequest Sample.numberMethod =
        .error (.invalidRequest "Invalid JSON-RPC structure: invalid type") ∧
      ¬ ReadAlike Sample.numberMethod := by
  refine ⟨rfl, rfl, fun halike => ?_⟩
  have hnone := halike.responses (.number 1) rfl
  cases hnone

end

end ThoughtGate
