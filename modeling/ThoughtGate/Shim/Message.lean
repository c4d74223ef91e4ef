import ThoughtGate.Base.Text
import ThoughtGate.Gate.Evaluator
import ThoughtGate.Transport.JsonRpc

/-!
# Messages of the stdio shim

A line between the agent and the wrapped server (`shim/ndjson.rs`), its message, and the question that the shim puts to
the governance service about it (`shim/proxy/helpers.rs`, `telemetry/propagation.rs`).

The recognition of a W3C trace context (`opentelemetry`) is a parameter.
-/

namespace ThoughtGate

/-- Whether the members of `_meta` carry a valid remote span context. -/
class Propagator where
  extracts : List (String × Value) → Bool

/-- `FramingError`, without the errors of the pipe itself. -/
inductive FramingError where
  | messageTooLarge (maxBytes : Nat)
  | malformedJson (reason : String)
  | missingVersion
  | unsupportedVersion (version : String)
  | unsupportedBatch
deriving DecidableEq

/-- `StdioMessage`. -/
structure StdioMessage where
  kind : JsonRpcMessageKind
  params : Option Value
  raw : String

namespace Shim

/-! ### Lines -/

/-- `MAX_MESSAGE_BYTES`. -/
def maxMessageBytes : Nat := 10 * 1024 * 1024

/-- The bytes between the newlines. -/
def segments : List UInt8 → List (List UInt8)
  | [] => [[]]
  | b :: bytes =>
    if b = 10 then [] :: segments bytes
    else
      match segments bytes with
      | [] => [[b]]
      | s :: rest => (b :: s) :: rest

/-- The text of an object begins and ends with its braces. -/
theorem trimmed_object [F64.Fmt] (fields : List (String × Value)) : Text.Trimmed (Value.object fields).toJson where
  first := by
    refine ⟨'\x7b', (String.intercalate "," (Value.toJsonFields fields) ++ "\x7d").toList, ?_, rfl⟩
    rw [Value.toJson, String.append_assoc, String.toList_append]
    rfl
  last := by
    refine ⟨("\x7b" ++ String.intercalate "," (Value.toJsonFields fields)).toList, '\x7d', ?_, rfl⟩
    rw [Value.toJson, String.toList_append]
    rfl

/-- The message of a decoded line (the second half of `parse_stdio_message`). -/
def parseStdioValue (line : String) (value : Value) : Except FramingError StdioMessage :=
  match value with
  | .array _ => .error .unsupportedBatch
  | value =>
    match classifyJsonrpc value with
    | .ok kind => .ok { kind, params := value.get "params", raw := line }
    | .error .invalidVersion =>
      match (value.get "jsonrpc").bind Value.asStr with
      | some version => .error (.unsupportedVersion version)
      | none => .error .missingVersion
    | .error .invalidId => .error (.malformedJson "invalid id field")
    | .error .unclassifiable => .error (.malformedJson "message has neither id nor method")

/-- `parse_stdio_message`. -/
def parseStdioMessage [JsonText] (line : String) : Except FramingError StdioMessage :=
  if line.utf8ByteSize > maxMessageBytes then .error (.messageTooLarge maxMessageBytes)
  else if (Text.trim line).isEmpty then .error (.malformedJson "empty message")
  else
    match JsonText.parse (Text.trim line).toUTF8 with
    | .error reason => .error (.malformedJson reason)
    | .ok value => parseStdioValue line value

/-- `detect_smuggling`: a part of the line after a newline is a JSON-RPC message of its own. -/
def detectSmuggling [JsonText] (raw : ByteArray) : Bool :=
  (segments raw.toList).tail.any fun segment =>
    !segment.isEmpty &&
      match JsonText.parse ⟨segment.toArray⟩ with
      | .ok value => (value.get "jsonrpc").isSome
      | .error _ => false

/-! ### Kinds of messages -/

/-- `is_passthrough`. -/
def isPassthrough (method : String) : Bool :=
  ["initialize", "initialized", "notifications/cancelled", "notifications/progress", "notifications/resources/updated",
    "notifications/resources/list_changed", "notifications/tools/list_changed", "notifications/prompts/list_changed",
    "ping", "pong"].contains method

/-- `message_type_from_kind`. -/
def messageTypeFromKind : JsonRpcMessageKind → MessageType
  | .request _ _ => .request
  | .response _ => .response
  | .notification _ => .notification

/-! ### Trace context -/

/-- `StdioTraceContext`. -/
structure TraceContext where
  strippedParams : Option Value
  hadTraceContext : Bool

/-- `_meta` without the members of the trace context. -/
def strippedMeta (members : List (String × Value)) : List (String × Value) :=
  Value.removeField "baggage" (Value.removeField "tracestate" (Value.removeField "traceparent" members))

/-- `extract_context_from_meta` with `propagate_upstream = false`. -/
def extractContextFromMeta [Propagator] (params : Option Value) : TraceContext :=
  match params with
  | none => ⟨none, false⟩
  | some params =>
    match (params.get "_meta").bind Value.asObject with
    | none => ⟨some params, false⟩
    | some members =>
      match params.asObject with
      | none => ⟨some params, Propagator.extracts members⟩
      | some fields =>
        let stripped := strippedMeta members
        let fields :=
          if stripped.isEmpty then Value.removeField "_meta" fields
          else Value.insertField "_meta" (.object stripped) fields
        ⟨some (.object fields), Propagator.extracts members⟩

/-- The identifier as it is serialised. -/
def idValue : JsonRpcId → Value
  | .number n => .number (if 0 ≤ n then .posInt n.toNat else .negInt n)
  | .string s => .string s
  | .null => .null

/-- `rebuild_message_with_params`. -/
def rebuildMessageWithParams [F64.Fmt] (kind : JsonRpcMessageKind) (params : Option Value) : String :=
  let head : List (String × Value) := [("jsonrpc", .string "2.0")]
  let tail : List (String × Value) := (params.map fun p => ("params", p)).toList
  let fields := match kind with
    | .request id method => head ++ [("id", idValue id), ("method", .string method)] ++ tail
    | .notification method => head ++ [("method", Value.string method)] ++ tail
    | .response id => head ++ [("id", idValue id)]
  (Value.object fields).toJson ++ "\n"

/-! ### The question to the governance service -/

/-- The question about a message (`eval_req`). -/
def evalRequest [Propagator] (serverId : String) (kind : JsonRpcMessageKind) (params : Option Value) :
    EvaluateRequest where
  serverId := serverId
  direction := .agentToServer
  method := kind.method
  id := kind.id
  params := (extractContextFromMeta params).strippedParams
  messageType := messageTypeFromKind kind

/-- The question as the service decodes it: an identifier and parameters that are `null` do not come through. -/
def received (req : EvaluateRequest) : EvaluateRequest :=
  { req with
    id := req.id.filter fun id => id ≠ .null
    params := decodeValue req.params }

/-! ### Names survive -/

theorem get_decodeValue (params : Option Value) (key : String) :
    (decodeValue params).bind (·.get key) = params.bind (·.get key) := by
  cases params with
  | none => rfl
  | some v => cases v <;> rfl

/-- Stripping the trace context leaves every other member alone. -/
theorem get_strippedParams [Propagator] (params : Option Value) {key : String} (hkey : key ≠ "_meta") :
    ((extractContextFromMeta params).strippedParams).bind (·.get key) = params.bind (·.get key) := by
  unfold extractContextFromMeta
  cases params with
  | none => rfl
  | some params =>
    cases params with
    | object fields =>
      dsimp only
      cases ((Value.object fields).get "_meta").bind Value.asObject with
      | none => rfl
      | some members =>
        simp only [Value.asObject, Option.bind_some]
        split
        · exact Value.get_removeField_ne hkey fields
        · exact Value.get_insertField_ne hkey _ fields
    | _ => rfl

end Shim

/-- The name of the resource is read off one member of the parameters. -/
theorem extractResourceName_congr {method : String} {params params' : Option Value}
    (h : ∀ key, resourceKey method = some key → params.bind (·.get key) = params'.bind (·.get key)) :
    extractResourceName method params = extractResourceName method params' := by
  have hread : ∀ params : Option Value, extractResourceName method params =
      (resourceKey method).bind fun key => (params.bind (·.get key)).bind Value.asStr := by
    intro params
    unfold extractResourceName
    cases params with
    | none =>
      cases resourceKey method <;> rfl
    | some params => rfl
  rw [hread params, hread params']
  cases hkey : resourceKey method with
  | none => rfl
  | some key =>
    simp only [Option.bind_some]
    rw [h key hkey]

theorem resourceKey_ne_meta {method key : String} (h : resourceKey method = some key) : key ≠ "_meta" := by
  unfold resourceKey at h
  split at h
  · cases h
    decide
  · split at h
    · cases h
      decide
    · split at h
      · cases h
        decide
      · cases h

/-- The service reads the same name as the one in the message. -/
theorem extractResourceName_received [Propagator] (serverId : String) (kind : JsonRpcMessageKind)
    (params : Option Value) :
    extractResourceName kind.method (Shim.received (Shim.evalRequest serverId kind params)).params =
      extractResourceName kind.method params := by
  apply extractResourceName_congr
  intro key hkey
  calc (Shim.received (Shim.evalRequest serverId kind params)).params.bind (·.get key)
      = ((Shim.extractContextFromMeta params).strippedParams).bind (·.get key) := Shim.get_decodeValue _ key
    _ = params.bind (·.get key) := Shim.get_strippedParams params (resourceKey_ne_meta hkey)

namespace Sample

/-- No message carries a trace context. -/
@[reducible] def propagator : Propagator where
  extracts _ := false

end Sample

end ThoughtGate
