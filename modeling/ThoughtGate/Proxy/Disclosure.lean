import ThoughtGate.Proxy.Response
import ThoughtGate.Base.Time

/-!
# What an error tells a client

Some fields of `ThoughtGateError` are not for clients: where the upstream is and what it said, which source hides a tool,
which rule or policy denied it. `clientView` blanks them. `to_jsonrpc_error` puts its answer together from six functions
of the error, and five of them factor through that view. The display text does not: an upstream error is displayed with
the message of the upstream (`errors_leak_nothing_iff`), and `classify_error` of `transport/upstream.rs` fills that message
with the text of an error of the HTTP client (`classifyError_told_iff`).
-/

namespace ThoughtGate

namespace ThoughtGateError

/-- What a client may know of an error: the fields that are not for clients are blank. -/
def clientView : ThoughtGateError → ThoughtGateError
  | .upstreamConnectionFailed _ _ => .upstreamConnectionFailed "" ""
  | .upstreamTimeout _ secs => .upstreamTimeout "" secs
  | .upstreamError code _ => .upstreamError code ""
  | .toolNotExposed tool _ => .toolNotExposed tool ""
  | .governanceRuleDenied tool _ => .governanceRuleDenied tool none
  | .policyDenied tool _ _ => .policyDenied tool none none
  | e => e

/-- The message of the upstream. -/
def upstreamMessage : ThoughtGateError → Option String
  | .upstreamError _ message => some message
  | _ => none

/-! ### The six functions -/

theorem factors_of_view {β : Type} {g : ThoughtGateError → β} (h : ∀ e, g e.clientView = g e) :
    g.FactorsThrough clientView := by
  intro e e' hview
  rw [← h e, hview, h]

theorem toJsonrpcCode_factors : toJsonrpcCode.FactorsThrough clientView := factors_of_view fun e => by cases e <;> rfl

theorem gate_factors : gate.FactorsThrough clientView := factors_of_view fun e => by cases e <;> rfl

theorem tool_factors : tool.FactorsThrough clientView := factors_of_view fun e => by cases e <;> rfl

theorem safeDetails_factors : safeDetails.FactorsThrough clientView := factors_of_view fun e => by cases e <;> rfl

theorem errorTypeName_factors : errorTypeName.FactorsThrough clientView := factors_of_view fun e => by cases e <;> rfl

theorem retryAfter_factors : retryAfter.FactorsThrough clientView := factors_of_view fun e => by cases e <;> rfl

/-- The display text is the upstream's message or what the display of the view is. -/
theorem display_eq (e : ThoughtGateError) :
    e.display = (e.upstreamMessage.map fun message => "MCP server error: " ++ message).getD e.clientView.display := by
  cases e <;> rfl

theorem upstreamMessage_isSome_factors : (fun e => (upstreamMessage e).isSome).FactorsThrough clientView :=
  factors_of_view fun e => by cases e <;> rfl

theorem display_eq_iff {e e' : ThoughtGateError} (h : e.clientView = e'.clientView) :
    e.display = e'.display ↔ e.upstreamMessage = e'.upstreamMessage := by
  have hboth : e.upstreamMessage.isSome = e'.upstreamMessage.isSome := upstreamMessage_isSome_factors h
  rw [display_eq e, display_eq e', h]
  cases hmessage : e.upstreamMessage with
  | none =>
    cases hmessage' : e'.upstreamMessage with
    | none => exact ⟨fun _ => rfl, fun _ => rfl⟩
    | some message' =>
      rw [hmessage, hmessage'] at hboth
      cases hboth
  | some message =>
    cases hmessage' : e'.upstreamMessage with
    | none =>
      rw [hmessage, hmessage'] at hboth
      cases hboth
    | some message' =>
      rw [Option.map_some, Option.map_some, Option.getD_some, Option.getD_some, Option.some.injEq]
      exact String.append_right_inj _

/-! ### The response -/

/-- Errors that a client may not tell apart are answered alike if and only if their displays are the same. -/
theorem toJsonrpcError_eq_iff_display {e e' : ThoughtGateError} (h : e.clientView = e'.clientView)
    (correlationId : String) :
    e.toJsonrpcError correlationId = e'.toJsonrpcError correlationId ↔ e.display = e'.display := by
  unfold toJsonrpcError
  rw [toJsonrpcCode_factors h, gate_factors h, tool_factors h, safeDetails_factors h, errorTypeName_factors h,
    retryAfter_factors h]
  constructor
  · intro heq
    have hmembers := Value.object.inj heq
    have hmessage := (List.cons.inj (List.cons.inj hmembers).2).1
    exact Value.string.inj (congrArg Prod.snd hmessage)
  · intro hdisplay
    rw [hdisplay]

/-- Errors that differ in what is not for clients are answered alike unless they are upstream errors with different
messages. -/
theorem errors_leak_nothing_iff {e e' : ThoughtGateError} (h : e.clientView = e'.clientView) (correlationId : String) :
    e.toJsonrpcError correlationId = e'.toJsonrpcError correlationId ↔ e.upstreamMessage = e'.upstreamMessage :=
  (toJsonrpcError_eq_iff_display h correlationId).trans (display_eq_iff h)

theorem errors_leak_nothing_iff_sample :
    (policyDenied "delete" (some "policy3") (some "role intern")).toJsonrpcError "c1" =
      (policyDenied "delete" none none).toJsonrpcError "c1" := by
  have hview : clientView (policyDenied "delete" (some "policy3") (some "role intern")) =
      clientView (policyDenied "delete" none none) := rfl
  exact (errors_leak_nothing_iff hview "c1").mpr rfl

end ThoughtGateError

/-! ### Errors of the HTTP client -/

/-- `reqwest::Error`: what it is classified by, and its text. -/
structure ReqwestError where
  isTimeout : Bool
  isConnect : Bool
  text : String

/-- `UpstreamConfig`: what `classify_error` reads. -/
structure UpstreamConfig where
  baseUrl : String
  timeout : Duration

/-- `classify_error`. -/
def UpstreamConfig.classifyError (config : UpstreamConfig) (error : ReqwestError) : ThoughtGateError :=
  if error.isTimeout then .upstreamTimeout config.baseUrl config.timeout.asSecs
  else if error.isConnect then .upstreamConnectionFailed config.baseUrl error.text
  else .upstreamError (-32002) error.text

/-- Of errors of one class, under whatever URL, a client is told the text if it is neither a timeout nor a failed
connection. -/
theorem UpstreamConfig.classifyError_told_iff {config config' : UpstreamConfig} (htimeout : config.timeout = config'.timeout)
    {error error' : ReqwestError} (hisTimeout : error.isTimeout = error'.isTimeout)
    (hisConnect : error.isConnect = error'.isConnect) (correlationId : String) :
    (config.classifyError error).toJsonrpcError correlationId = (config'.classifyError error').toJsonrpcError correlationId ↔
      error.isTimeout = true ∨ error.isConnect = true ∨ error.text = error'.text := by
  have hview : (config.classifyError error).clientView = (config'.classifyError error').clientView := by
    unfold classifyError
    rw [hisTimeout, hisConnect, htimeout]
    split_ifs <;> rfl
  rw [ThoughtGateError.toJsonrpcError_eq_iff_display hview, ThoughtGateError.display_eq_iff hview]
  unfold classifyError
  rw [hisTimeout, hisConnect]
  split_ifs with h h'
  · simp [h, ThoughtGateError.upstreamMessage]
  · simp [h', ThoughtGateError.upstreamMessage]
  · simp [h, h', ThoughtGateError.upstreamMessage]

namespace Sample

def upstreamConfig : UpstreamConfig := ⟨"http://10.0.0.7:3000", Duration.fromSecs 30⟩

def sendError : ReqwestError := ⟨false, false, "error sending request for url (http://10.0.0.7:3000/)"⟩

def decodeError : ReqwestError := ⟨false, false, "error decoding response body"⟩

end Sample

/-- A request that fails on the way tells the client the address of the upstream. -/
theorem upstream_message_told : ¬ ∀ (e e' : ThoughtGateError) (correlationId : String), e.clientView = e'.clientView →
    e.toJsonrpcError correlationId = e'.toJsonrpcError correlationId := by
  intro h
  have heq := h (Sample.upstreamConfig.classifyError Sample.sendError)
    (Sample.upstreamConfig.classifyError Sample.decodeError) "c1" rfl
  have hclass : Sample.sendError.isTimeout = Sample.decodeError.isTimeout := rfl
  have hconnect : Sample.sendError.isConnect = Sample.decodeError.isConnect := rfl
  rcases (UpstreamConfig.classifyError_told_iff rfl hclass hconnect "c1").mp heq with htimeout | hconnect | htext
  · cases htimeout
  · cases hconnect
  · exact absurd htext (by decide)

end ThoughtGate
