import ThoughtGate.Lib.Threads
import ThoughtGate.Proxy.Disclosure
import ThoughtGate.Shim.Polling
import ThoughtGate.Transport.FastPath

/-!
# The client of the upstream

`transport/upstream.rs`: one post and what is made of its answer (`forwardOnce`), the limit on the body of an answer
(`readBodyLimited`), and the retries of `forward_with_retry`, as threads of which any number run at the same time.

What a post comes to is an input. An error of the client with `is_connect` says that there was no connection, so that
nothing was sent over it, and an answer is one to a request that has arrived (`Attempt.allows`); after any other error the
request may have arrived or not.

A body is accepted exactly if it is within the limit, whatever its chunks, and never more than the limit is held
(`body_read_exactly`). A call brings its request to the upstream at most once, and not at all where it reports that there
was no connection (`forwarded_at_most_once`).
-/

namespace ThoughtGate

/-! ### The body of an answer -/

/-- The `Content-Length` of an answer, and the chunks of its body up to the end or an error. -/
structure HttpBody where
  contentLength : Option Nat
  chunks : List (Except String ByteArray)

/-- A body beyond the limit. -/
def tooLarge (size : String) (maxSize : Nat) : ThoughtGateError :=
  .upstreamError (-32002) ("Upstream response too large: " ++ size ++ " bytes exceeds " ++ toString maxSize ++ " byte limit")

/-- One round of the loop of `read_body_limited`. -/
def readChunk (maxSize : Nat) (buf : ByteArray) : Except String ByteArray → Except ThoughtGateError ByteArray
  | .error e => .error (.upstreamError (-32002) ("Failed to read upstream response: " ++ e))
  | .ok chunk =>
    if maxSize < buf.size + chunk.size then .error (tooLarge (">=" ++ toString (buf.size + chunk.size)) maxSize)
    else .ok (buf ++ chunk)

/-- `read_body_limited`. -/
def readBodyLimited (maxSize : Nat) (body : HttpBody) : Except ThoughtGateError ByteArray :=
  match body.contentLength with
  | some n =>
    if maxSize < n then .error (tooLarge (toString n) maxSize) else body.chunks.foldlM (readChunk maxSize) .empty
  | none => body.chunks.foldlM (readChunk maxSize) .empty

namespace HttpBody

/-- The body is this, in chunks of whatever sizes. -/
def Carries (body : HttpBody) (data : ByteArray) : Prop :=
  ∃ chunks : List ByteArray, body.chunks = chunks.map .ok ∧ data = chunks.foldl (· ++ ·) .empty

/-- The announced length is within the limit, or there is none. -/
def Announces (body : HttpBody) (maxSize : Nat) : Prop := ∀ n, body.contentLength = some n → n ≤ maxSize

end HttpBody

theorem foldl_append (chunks : List ByteArray) (buf : ByteArray) :
    chunks.foldl (· ++ ·) buf = buf ++ chunks.foldl (· ++ ·) .empty := by
  induction chunks generalizing buf with
  | nil => simp
  | cons chunk chunks ih =>
    rw [List.foldl_cons, ih, List.foldl_cons, ih (.empty ++ chunk), ByteArray.empty_append, ByteArray.append_assoc]

/-- The loop gets through exactly the chunks that are read and stay within the limit; it holds what it has read. -/
theorem foldlM_readChunk {maxSize : Nat} {chunks : List (Except String ByteArray)} {buf data : ByteArray}
    (hbuf : buf.size ≤ maxSize) :
    chunks.foldlM (readChunk maxSize) buf = .ok data ↔
      ∃ read : List ByteArray, chunks = read.map .ok ∧ data = read.foldl (· ++ ·) buf ∧ data.size ≤ maxSize := by
  induction chunks generalizing buf with
  | nil =>
    constructor
    · intro h
      cases h
      exact ⟨[], rfl, rfl, hbuf⟩
    · rintro ⟨read, hread, rfl, -⟩
      rw [List.map_eq_nil_iff.mp hread.symm]
      rfl
  | cons chunk chunks ih =>
    cases chunk with
    | error e =>
      constructor
      · intro h
        cases h
      · rintro ⟨_ | ⟨c, read⟩, hread, -, -⟩
        · cases hread
        · cases hread
    | ok chunk =>
      by_cases hfits : buf.size + chunk.size ≤ maxSize
      · have hround : readChunk maxSize buf (.ok chunk) = .ok (buf ++ chunk) := if_neg (Nat.not_lt.mpr hfits)
        have hsize : (buf ++ chunk).size ≤ maxSize := by rwa [ByteArray.size_append]
        rw [List.foldlM_cons, hround]
        refine (ih hsize).trans ?_
        constructor
        · rintro ⟨read, rfl, rfl, hle⟩
          exact ⟨chunk :: read, rfl, rfl, hle⟩
        · rintro ⟨_ | ⟨c, read⟩, hread, rfl, hle⟩
          · cases hread
          · cases hread
            exact ⟨read, rfl, rfl, hle⟩
      · have hround : readChunk maxSize buf (.ok chunk) =
            .error (tooLarge (">=" ++ toString (buf.size + chunk.size)) maxSize) := if_pos (Nat.lt_of_not_le hfits)
        rw [List.foldlM_cons, hround]
        constructor
        · intro h
          cases h
        · rintro ⟨_ | ⟨c, read⟩, hread, rfl, hle⟩
          · cases hread
          · cases hread
            rw [List.foldl_cons, foldl_append, ByteArray.size_append, ByteArray.size_append] at hle
            omega

theorem readBodyLimited_ok_iff {maxSize : Nat} {body : HttpBody} {data : ByteArray} :
    readBodyLimited maxSize body = .ok data ↔ body.Announces maxSize ∧ body.Carries data ∧ data.size ≤ maxSize := by
  have hloop : body.chunks.foldlM (readChunk maxSize) .empty = .ok data ↔ body.Carries data ∧ data.size ≤ maxSize := by
    rw [foldlM_readChunk (Nat.zero_le maxSize)]
    constructor
    · rintro ⟨read, hread, hdata, hle⟩
      exact ⟨⟨read, hread, hdata⟩, hle⟩
    · rintro ⟨⟨read, hread, hdata⟩, hle⟩
      exact ⟨read, hread, hdata, hle⟩
  unfold readBodyLimited
  cases hlen : body.contentLength with
  | none =>
    have hannounces : body.Announces maxSize := by
      intro n hn
      rw [hlen] at hn
      cases hn
    rw [hloop]
    exact ⟨fun h => ⟨hannounces, h⟩, And.right⟩
  | some n =>
    by_cases hn : maxSize < n
    · simp only [if_pos hn]
      constructor
      · intro h
        cases h
      · rintro ⟨hannounced, -⟩
        exact absurd (hannounced n hlen) (Nat.not_le.mpr hn)
    · have hannounces : body.Announces maxSize := by
        intro m hm
        rw [hlen] at hm
        cases hm
        exact Nat.le_of_not_lt hn
      simp only [if_neg hn]
      rw [hloop]
      exact ⟨fun h => ⟨hannounces, h⟩, And.right⟩

/-- A body is accepted exactly if neither its announced nor its real length is beyond the limit and it can be read to its
end, whatever its chunks; at no moment more than the limit is held. -/
theorem body_read_exactly (maxSize : Nat) (body : HttpBody) :
    (∀ data, readBodyLimited maxSize body = .ok data ↔
      body.Announces maxSize ∧ body.Carries data ∧ data.size ≤ maxSize) ∧
    ∀ read rest buf, body.chunks = read ++ rest → read.foldlM (readChunk maxSize) .empty = .ok buf →
      buf.size ≤ maxSize := by
  refine ⟨fun data => readBodyLimited_ok_iff, ?_⟩
  intro read rest buf _ hread
  obtain ⟨_, _, _, hle⟩ := (foldlM_readChunk (Nat.zero_le maxSize)).mp hread
  exact hle

/-! ### The answer as it is read -/

/-- `ErrorData`. -/
structure ErrorData where
  correlationId : String
  gate : Option String
  tool : Option String
  details : Option String
  errorType : String
  retryAfter : Option Nat
deriving DecidableEq

/-- `JsonRpcError`. -/
structure JsonRpcError where
  code : Int
  message : String
  data : Option ErrorData
deriving DecidableEq

/-- `JsonRpcResponse`, with the version that it came with. -/
structure WireResponse where
  jsonrpc : String
  id : Option JsonRpcId
  result : Option Value
  error : Option JsonRpcError

namespace Doc

/-- The value of a field of a derived `Deserialize`; a field that comes twice is an error. -/
def fieldOf (name : String) (members : List (Option String × Doc)) : Option (Option Doc) :=
  match under name members with
  | [] => some none
  | [x] => some (some x)
  | _ => none

/-- The values of the fields: the members of an object with these names, or all values of an array in their order. -/
def structFields (names : List String) : Doc → Option (List (Option Doc))
  | .object members =>
    if members.all fun m => m.1.isSome then names.mapM fun name => fieldOf name members else none
  | .array xs => if xs.length = names.length then some (xs.map some) else none
  | _ => none

/-- An `Option` field: missing and `null` are `None`. -/
def readOption {α : Type} (read : Doc → Option α) : Option Doc → Option (Option α)
  | none | some .null => some none
  | some x => (read x).map some

/-- `String::deserialize`. -/
def readString : Doc → Option String
  | .string s => some s
  | _ => none

/-- `u64::deserialize`. -/
def readU64 : Doc → Option Nat
  | .number n => n.asU64
  | _ => none

/-- `i32::deserialize`. -/
def readI32 : Doc → Option Int
  | .number n => n.asI64.filter fun i => -2 ^ 31 ≤ i && i < 2 ^ 31
  | _ => none

end Doc

/-- The derived `ErrorData::deserialize`. -/
def decodeErrorData (x : Doc) : Option ErrorData :=
  match x.structFields ["correlation_id", "gate", "tool", "details", "error_type", "retry_after"] with
  | some [correlationId, gate, tool, details, errorType, retryAfter] => do
    some {
      correlationId := ← correlationId.bind Doc.readString
      gate := ← Doc.readOption Doc.readString gate
      tool := ← Doc.readOption Doc.readString tool
      details := ← Doc.readOption Doc.readString details
      errorType := ← errorType.bind Doc.readString
      retryAfter := ← Doc.readOption Doc.readU64 retryAfter }
  | _ => none

/-- The derived `JsonRpcError::deserialize`. -/
def decodeError (x : Doc) : Option JsonRpcError :=
  match x.structFields ["code", "message", "data"] with
  | some [code, message, data] => do
    some {
      code := ← code.bind Doc.readI32
      message := ← message.bind Doc.readString
      data := ← Doc.readOption decodeErrorData data }
  | _ => none

/-- The derived `JsonRpcResponse::deserialize`. -/
def decodeResponse (x : Doc) : Option WireResponse :=
  match x.structFields ["jsonrpc", "id", "result", "error"] with
  | some [jsonrpc, id, result, error] => do
    some {
      jsonrpc := ← jsonrpc.bind Doc.readString
      id := ← Doc.readOption (fun x => (x.value (maxNesting - 1)).bind parseId) id
      result := ← Doc.readOption (Doc.value (maxNesting - 1)) result
      error := ← Doc.readOption decodeError error }
  | _ => none

/-! ### One attempt -/

/-- The texts of others: `canonical_reason` of the `http` crate, and what `serde_json` says of a body that is no response. -/
class HttpText where
  canonicalReason : Nat → Option String
  responseError : ByteArray → String

/-- `UpstreamClient`: its configuration, with the limit on the body of an answer. -/
structure UpstreamClient where
  config : UpstreamConfig
  maxResponseSize : Nat := 10 * 1024 * 1024

/-- What a post comes to. -/
inductive Attempt where
  | failed (error : ReqwestError)
  | answered (status : Nat) (body : HttpBody)

section

variable [HttpText]

/-- `StatusCode`'s text. -/
def statusText (status : Nat) : String :=
  toString status ++ " " ++ (HttpText.canonicalReason status).getD "<unknown status code>"

/-- `classify_upstream_http_error`. -/
def classifyUpstreamHttpError (status : Nat) : ThoughtGateError :=
  if status = 401 ∨ status = 403 then .upstreamError (-32002) ("Upstream authentication error: HTTP " ++ statusText status)
  else if status = 404 then .upstreamError (-32002) ("Upstream resource not found: HTTP " ++ statusText status)
  else if status = 429 then .rateLimited none
  else if 400 ≤ status ∧ status ≤ 499 then .upstreamError (-32602) ("Upstream client error: HTTP " ++ statusText status)
  else if status = 503 then .serviceUnavailable ("Upstream service unavailable: HTTP " ++ statusText status)
  else .upstreamError (-32002) ("Upstream server error: HTTP " ++ statusText status)

variable [SerdeJson]

/-- `from_slice::<JsonRpcResponse>`. -/
def readResponseText (bytes : ByteArray) : Except ThoughtGateError WireResponse :=
  match (SerdeJson.document bytes).bind decodeResponse with
  | some response => .ok response
  | none => .error (.upstreamError (-32002) ("Failed to parse upstream response: " ++ HttpText.responseError bytes))

/-- `forward_once`, for what the post comes to. -/
def UpstreamClient.forwardOnce (client : UpstreamClient) (request : McpRequest) :
    Attempt → Except ThoughtGateError WireResponse
  | .failed error => .error (client.config.classifyError error)
  | .answered status body =>
    if status = 204 then .ok { jsonrpc := "2.0", id := request.id, result := some .null, error := none }
    else if isSuccess status then do readResponseText (← readBodyLimited client.maxResponseSize body)
    else .error (classifyUpstreamHttpError status)

end

/-- Whether the request has arrived can be told where there was no connection and where there is an answer. -/
def Attempt.allows : Attempt → Bool → Bool
  | .answered _ _, arrived => arrived
  | .failed error, arrived => !(arrived && error.isConnect)

/-- An error that is tried again. -/
def isConnectionFailed : ThoughtGateError → Bool
  | .upstreamConnectionFailed _ _ => true
  | _ => false

theorem readBodyLimited_error {maxSize : Nat} {body : HttpBody} {e : ThoughtGateError}
    (h : readBodyLimited maxSize body = .error e) : isConnectionFailed e = false := by
  have hloop : ∀ (chunks : List (Except String ByteArray)) (buf : ByteArray),
      chunks.foldlM (readChunk maxSize) buf = .error e → isConnectionFailed e = false := by
    intro chunks
    induction chunks with
    | nil =>
      intro buf h
      cases h
    | cons chunk chunks ih =>
      intro buf h
      rw [List.foldlM_cons] at h
      cases hround : readChunk maxSize buf chunk with
      | ok next =>
        rw [hround] at h
        exact ih next h
      | error e' =>
        rw [hround] at h
        cases h
        unfold readChunk at hround
        split at hround
        · cases hround
          rfl
        · split at hround
          · cases hround
            rfl
          · cases hround
  unfold readBodyLimited at h
  split at h
  · split at h
    · cases h
      rfl
    · exact hloop _ _ h
  · exact hloop _ _ h

/-- Only what did not arrive is sent again: an answer, or a timeout, is never taken for a connection that failed. -/
theorem not_arrived_of_retriable [HttpText] [SerdeJson] {client : UpstreamClient} {request : McpRequest} {attempt : Attempt}
    {e : ThoughtGateError} (h : client.forwardOnce request attempt = .error e) (he : isConnectionFailed e = true) :
    attempt.allows true = false := by
  cases attempt with
  | failed error =>
    cases h
    unfold UpstreamConfig.classifyError at he
    split at he
    · cases he
    · split at he
      · rename_i hconnect
        simp [Attempt.allows, hconnect]
      · cases he
  | answered status body =>
    exfalso
    simp only [UpstreamClient.forwardOnce] at h
    split at h
    · cases h
    · split at h
      · cases hbody : readBodyLimited client.maxResponseSize body with
        | error e' =>
          rw [hbody] at h
          cases h
          rw [readBodyLimited_error hbody] at he
          cases he
        | ok bytes =>
          rw [hbody] at h
          change readResponseText bytes = .error e at h
          unfold readResponseText at h
          split at h
          · cases h
          · cases h
            cases he
      · cases h
        unfold classifyUpstreamHttpError at he
        split_ifs at he <;> cases he

/-- An answer that is passed on is one to a request that has arrived. -/
theorem arrived_of_ok [HttpText] [SerdeJson] {client : UpstreamClient} {request : McpRequest} {attempt : Attempt}
    {response : WireResponse} (h : client.forwardOnce request attempt = .ok response) : attempt.allows false = false := by
  cases attempt with
  | failed error => cases h
  | answered status body => rfl

/-! ### Retries -/

/-- `MAX_TRANSPORT_RETRIES`. -/
def maxTransportRetries : Nat := 2

/-- The calls by their numbers: which were posted, which have arrived at the upstream, the milliseconds between two posts,
and what was returned. -/
structure ForwardState where
  calls : Nat := 0
  posted : List Nat := []
  arrived : List Nat := []
  backoffs : List (Nat × Nat) := []
  returned : List (Nat × Except ThoughtGateError WireResponse) := []

/-- Where a call of `forward_with_retry` stands. -/
inductive ForwardPc where
  | calling (request : McpRequest)
  | sending (call : Nat) (request : McpRequest) (attempt : Nat)
  | sleeping (call : Nat) (request : McpRequest) (attempt : Nat)

/-- A post comes to something, with the request arrived or not; a caller may give up while it waits. -/
inductive ForwardInput where
  | go
  | sent (attempt : Attempt) (arrived : Bool)
  | drop (arrived : Bool)

namespace ForwardState

/-- A request was posted, and has arrived or not. -/
def post (s : ForwardState) (call : Nat) (arrived : Bool) : ForwardState :=
  { s with posted := s.posted ++ [call], arrived := if arrived then s.arrived ++ [call] else s.arrived }

def backoff (s : ForwardState) (call ms : Nat) : ForwardState := { s with backoffs := s.backoffs ++ [(call, ms)] }

def finish (s : ForwardState) (call : Nat) (result : Except ThoughtGateError WireResponse) : ForwardState :=
  { s with returned := s.returned ++ [(call, result)] }

end ForwardState

/-- `forward_with_retry`, one step at a time. The last attempt returns whatever it comes to, so that the end of the loop is
not reached. -/
def UpstreamClient.forwardNext [HttpText] [SerdeJson] (client : UpstreamClient) (s : ForwardState) :
    ForwardPc → ForwardInput → Option (ForwardState × Option ForwardPc)
  | .calling request, .go => some ({ s with calls := s.calls + 1 }, some (.sending s.calls request 0))
  | .sending call request attempt, .sent answer arrived =>
    if answer.allows arrived then
      match client.forwardOnce request answer with
      | .ok response => some ((s.post call arrived).finish call (.ok response), none)
      | .error e =>
        if !isConnectionFailed e || attempt == maxTransportRetries then
          some ((s.post call arrived).finish call (.error e), none)
        else some ((s.post call arrived).backoff call (100 * 4 ^ attempt), some (.sleeping call request attempt))
    else none
  | .sending call _ _, .drop arrived => some (s.post call arrived, none)
  | .sleeping call request attempt, .go => some (s, some (.sending call request (attempt + 1)))
  | .sleeping .., .drop _ => some (s, none)
  | _, _ => none

/-- Any number of calls of `forward_with_retry` at the same time. -/
def UpstreamClient.forwards [HttpText] [SerdeJson] (client : UpstreamClient) :
    Program ForwardState ForwardPc ForwardInput Empty where
  init := {}
  start _ _
    | .calling _ => true
    | _ => false
  next s p i := client.forwardNext s p i
  held _ := []
  wants _ := none

/-- What happened to one call. -/
structure CallRecord where
  posted : Nat
  arrived : Nat
  waits : List Nat
  results : List (Except ThoughtGateError WireResponse)

namespace ForwardState

def record (s : ForwardState) (call : Nat) : CallRecord where
  posted := s.posted.count call
  arrived := s.arrived.count call
  waits := s.backoffs.filterMap fun b => if b.1 = call then some b.2 else none
  results := s.returned.filterMap fun r => if r.1 = call then some r.2 else none

variable (s : ForwardState) (call other : Nat)

theorem record_post (arrived : Bool) : (s.post call arrived).record call =
    { s.record call with
      posted := (s.record call).posted + 1
      arrived := (s.record call).arrived + if arrived then 1 else 0 } := by
  cases arrived <;> simp [post, record]

theorem record_post_ne (h : other ≠ call) (arrived : Bool) : (s.post call arrived).record other = s.record other := by
  cases arrived <;> simp [post, record, Ne.symm h]

theorem record_backoff (ms : Nat) : (s.backoff call ms).record call =
    { s.record call with waits := (s.record call).waits ++ [ms] } := by
  simp [backoff, record]

theorem record_backoff_ne (h : other ≠ call) (ms : Nat) : (s.backoff call ms).record other = s.record other := by
  simp [backoff, record, Ne.symm h]

theorem record_finish (result : Except ThoughtGateError WireResponse) : (s.finish call result).record call =
    { s.record call with results := (s.record call).results ++ [result] } := by
  simp [finish, record]

theorem record_finish_ne (h : other ≠ call) (result : Except ThoughtGateError WireResponse) :
    (s.finish call result).record other = s.record other := by
  simp [finish, record, Ne.symm h]

end ForwardState

namespace CallRecord

/-- So many attempts have found no connection, and nothing else has happened. -/
def unconnected (attempts : Nat) : CallRecord := ⟨attempts, 0, (List.range attempts).map fun k => 100 * 4 ^ k, []⟩

/-- What is never done twice and what is reported truly: the request arrives at most once, in at most three posts with at
most two pauses; a response comes for a request that has arrived, and "no connection" for one that has not. -/
structure Accounted (r : CallRecord) : Prop where
  arrived : r.arrived ≤ 1
  posted : r.posted ≤ 3
  waits : r.waits <+: [100, 400]
  results : r.results.length ≤ 1
  response : ∀ response, .ok response ∈ r.results → r.arrived = 1
  unconnected : ∀ e, .error e ∈ r.results → isConnectionFailed e = true → r.arrived = 0 ∧ r.posted = 3

theorem waits_prefix {attempts : Nat} (h : attempts ≤ maxTransportRetries) :
    ((List.range attempts).map fun k => 100 * 4 ^ k) <+: [100, 400] := by
  have hcases : attempts = 0 ∨ attempts = 1 ∨ attempts = 2 := by
    unfold maxTransportRetries at h
    omega
  rcases hcases with rfl | rfl | rfl <;> decide

theorem accounted_unconnected {attempts : Nat} (h : attempts ≤ maxTransportRetries) : (unconnected attempts).Accounted where
  arrived := Nat.zero_le 1
  posted := Nat.le_succ_of_le h
  waits := waits_prefix h
  results := Nat.zero_le 1
  response _ hr := by cases hr
  unconnected _ he := by cases he

/-- The last post of a call, after which nothing is returned: its caller has given up. -/
theorem accounted_dropped {attempts : Nat} (h : attempts ≤ maxTransportRetries) (arrived : Bool) :
    Accounted { unconnected attempts with posted := attempts + 1, arrived := if arrived then 1 else 0 } where
  arrived := by cases arrived <;> simp
  posted := Nat.succ_le_succ h
  waits := waits_prefix h
  results := Nat.zero_le 1
  response _ hr := by cases hr
  unconnected _ he := by cases he

/-- The last post of a call, and what is returned for it. -/
theorem accounted_finished {attempts : Nat} (h : attempts ≤ maxTransportRetries) {arrived : Bool}
    {result : Except ThoughtGateError WireResponse} (hok : ∀ response, result = .ok response → arrived = true)
    (hfailed : ∀ e, result = .error e → isConnectionFailed e = true → arrived = false ∧ attempts = maxTransportRetries) :
    Accounted { unconnected attempts with
      posted := attempts + 1, arrived := if arrived then 1 else 0, results := [result] } where
  arrived := by cases arrived <;> simp
  posted := Nat.succ_le_succ h
  waits := waits_prefix h
  results := Nat.le_refl 1
  response response hr := by simp [hok response (List.mem_singleton.mp hr).symm]
  unconnected e he hclass := by
    obtain ⟨harrived, hattempts⟩ := hfailed e (List.mem_singleton.mp he).symm hclass
    simp [harrived, hattempts, maxTransportRetries]

end CallRecord

namespace ForwardPc

/-- The call that a thread is about. -/
def call : ForwardPc → Option Nat
  | .calling _ => none
  | .sending call _ _ | .sleeping call _ _ => some call

/-- What has happened to the call while it runs: there was no connection yet. -/
def Stands (s : ForwardState) : ForwardPc → Prop
  | .calling _ => True
  | .sending call _ attempt => s.record call = .unconnected attempt ∧ attempt ≤ maxTransportRetries
  | .sleeping call _ attempt => s.record call = .unconnected (attempt + 1) ∧ attempt < maxTransportRetries

end ForwardPc

/-- The steps of a call, by what they add to its record. -/
inductive ForwardStep (s : ForwardState) : ForwardPc → ForwardState → Option ForwardPc → Prop
  | begin (request : McpRequest) :
      ForwardStep s (.calling request) { s with calls := s.calls + 1 } (some (.sending s.calls request 0))
  | finish (call : Nat) (request : McpRequest) (attempt : Nat) (arrived : Bool)
      (result : Except ThoughtGateError WireResponse) (hok : ∀ response, result = .ok response → arrived = true)
      (hfailed : ∀ e, result = .error e → isConnectionFailed e = true →
        arrived = false ∧ attempt = maxTransportRetries) :
      ForwardStep s (.sending call request attempt) ((s.post call arrived).finish call result) none
  | again (call : Nat) (request : McpRequest) (attempt : Nat) (hattempt : attempt ≠ maxTransportRetries) :
      ForwardStep s (.sending call request attempt) ((s.post call false).backoff call (100 * 4 ^ attempt))
        (some (.sleeping call request attempt))
  | dropped (call : Nat) (request : McpRequest) (attempt : Nat) (arrived : Bool) :
      ForwardStep s (.sending call request attempt) (s.post call arrived) none
  | wake (call : Nat) (request : McpRequest) (attempt : Nat) :
      ForwardStep s (.sleeping call request attempt) s (some (.sending call request (attempt + 1)))
  | droppedAsleep (call : Nat) (request : McpRequest) (attempt : Nat) :
      ForwardStep s (.sleeping call request attempt) s none

section

variable [HttpText] [SerdeJson] {client : UpstreamClient} {s s' : ForwardState} {p : ForwardPc} {p' : Option ForwardPc}
  {i : ForwardInput}

theorem sending_next {call : Nat} {request : McpRequest} {attempt : Nat} {answer : Attempt} {arrived : Bool}
    (h : client.forwardNext s (.sending call request attempt) (.sent answer arrived) = some (s', p')) :
    ForwardStep s (.sending call request attempt) s' p' := by
  simp only [UpstreamClient.forwardNext] at h
  split at h
  · rename_i hallowed
    split at h
    · rename_i response hresponse
      cases h
      refine .finish _ _ _ _ _ ?_ ?_
      · intro r _
        by_contra hnot
        rw [Bool.eq_false_iff.mpr hnot, arrived_of_ok hresponse] at hallowed
        cases hallowed
      · intro e he
        cases he
    · rename_i e he
      have hstays : isConnectionFailed e = true → arrived = false := by
        intro hclass
        by_contra hnot
        rw [Bool.not_eq_false] at hnot
        rw [hnot, not_arrived_of_retriable he hclass] at hallowed
        cases hallowed
      split at h
      · rename_i hlast
        cases h
        refine .finish _ _ _ _ _ ?_ ?_
        · intro r hr
          cases hr
        · rintro e' he' hclass
          cases he'
          refine ⟨hstays hclass, ?_⟩
          simpa [hclass] using hlast
      · rename_i hagain
        simp only [Bool.or_eq_true, Bool.not_eq_true', beq_iff_eq, not_or, Bool.not_eq_false] at hagain
        cases h
        rw [hstays hagain.1]
        exact .again _ _ _ hagain.2
  · cases h

theorem forward_next (h : client.forwardNext s p i = some (s', p')) : ForwardStep s p s' p' := by
  cases p with
  | calling request =>
    cases i with
    | go =>
      cases h
      exact .begin request
    | _ => cases h
  | sending call request attempt =>
    cases i with
    | go => cases h
    | sent answer arrived => exact sending_next h
    | drop arrived =>
      cases h
      exact .dropped ..
  | sleeping call request attempt =>
    cases i with
    | go =>
      cases h
      exact .wake ..
    | sent answer arrived => cases h
    | drop arrived =>
      cases h
      exact .droppedAsleep ..

end

/-- The calls of the threads are told apart, numbers that are still to come have no record, a call that runs stands where
its thread says, and every call is accounted for. -/
structure Forwarding (s : ThreadState ForwardState ForwardPc) : Prop where
  once : Program.MarkedOnce ForwardPc.call s.threads
  known : ∀ call, Program.Marked ForwardPc.call s.threads call → call < s.shared.calls
  fresh : ∀ call, s.shared.calls ≤ call → s.shared.record call = .unconnected 0
  stands : ∀ t p, s.threads.lookup t = some p → p.Stands s.shared
  accounted : ∀ call, (s.shared.record call).Accounted

namespace ForwardStep

variable {s s' : ForwardState} {p q : ForwardPc} {p' : Option ForwardPc} {call other : Nat}

/-- A step concerns one call. -/
theorem record_ne (h : ForwardStep s p s' p') (hother : p.call ≠ some other) : s'.record other = s.record other := by
  have hne : ∀ call, p.call = some call → other ≠ call := by
    rintro call hcall rfl
    exact hother hcall
  cases h with
  | begin request => rfl
  | finish call request attempt arrived result =>
    rw [ForwardState.record_finish_ne _ _ _ (hne call rfl), ForwardState.record_post_ne _ _ _ (hne call rfl)]
  | again call request attempt =>
    rw [ForwardState.record_backoff_ne _ _ _ (hne call rfl), ForwardState.record_post_ne _ _ _ (hne call rfl)]
  | dropped call request attempt arrived => rw [ForwardState.record_post_ne _ _ _ (hne call rfl)]
  | wake call request attempt => rfl
  | droppedAsleep call request attempt => rfl

/-- A call that goes on stands where its thread says. -/
theorem stands (h : ForwardStep s p s' (some q)) (hp : p.Stands s) (hfresh : s.record s.calls = .unconnected 0) :
    q.Stands s' := by
  cases h with
  | begin request => exact ⟨hfresh, Nat.zero_le _⟩
  | again call request attempt hattempt =>
    obtain ⟨hrecord, hle⟩ := hp
    refine ⟨?_, Nat.lt_of_le_of_ne hle hattempt⟩
    rw [ForwardState.record_backoff, ForwardState.record_post, hrecord]
    simp [CallRecord.unconnected, List.range_succ]
  | wake call request attempt => exact ⟨hp.1, hp.2⟩

/-- The call is accounted for after the step. -/
theorem accounted (h : ForwardStep s p s' p') (hp : p.Stands s) (hcall : p.call = some call) :
    (s'.record call).Accounted := by
  cases h with
  | begin request => cases hcall
  | finish call' request attempt arrived result hok hfailed =>
    cases hcall
    rw [ForwardState.record_finish, ForwardState.record_post, hp.1]
    have h := CallRecord.accounted_finished hp.2 hok hfailed
    simpa [CallRecord.unconnected] using h
  | again call' request attempt hattempt =>
    cases hcall
    obtain ⟨hrecord, hle⟩ := hp
    have hnext : ((s.post call false).backoff call (100 * 4 ^ attempt)).record call = .unconnected (attempt + 1) := by
      rw [ForwardState.record_backoff, ForwardState.record_post, hrecord]
      simp [CallRecord.unconnected, List.range_succ]
    rw [hnext]
    exact CallRecord.accounted_unconnected (Nat.lt_of_le_of_ne hle hattempt)
  | dropped call' request attempt arrived =>
    cases hcall
    rw [ForwardState.record_post, hp.1]
    have h := CallRecord.accounted_dropped hp.2 arrived
    simpa [CallRecord.unconnected] using h
  | wake call' request attempt =>
    cases hcall
    rw [hp.1]
    exact CallRecord.accounted_unconnected hp.2
  | droppedAsleep call' request attempt =>
    cases hcall
    rw [hp.1]
    exact CallRecord.accounted_unconnected hp.2

theorem calls_le (h : ForwardStep s p s' p') : s.calls ≤ s'.calls := by
  cases h with
  | begin request => exact Nat.le_succ _
  | finish call request attempt arrived result => exact Nat.le_refl _
  | again call request attempt => exact Nat.le_refl _
  | dropped call request attempt arrived => exact Nat.le_refl _
  | wake call request attempt => exact Nat.le_refl _
  | droppedAsleep call request attempt => exact Nat.le_refl _

/-- A thread stays with its call, or gets the next number. -/
theorem call_cases (h : ForwardStep s p s' (some q)) (hq : q.call = some call) :
    p.call = some call ∨ (call = s.calls ∧ s'.calls = s.calls + 1) := by
  cases h with
  | begin request =>
    cases hq
    exact Or.inr ⟨rfl, rfl⟩
  | again call' request attempt hattempt => exact Or.inl hq
  | wake call' request attempt => exact Or.inl hq

end ForwardStep

section

variable {s : ThreadState ForwardState ForwardPc} {shared : ForwardState} {t : Nat} {p : ForwardPc} {p' : Option ForwardPc}

theorem Forwarding.step (h : Forwarding s) (hp : s.threads.lookup t = some p) (hstep : ForwardStep s.shared p shared p') :
    Forwarding ⟨shared, Program.settle s.threads t p'⟩ := by
  have hfresh : s.shared.record s.shared.calls = .unconnected 0 := h.fresh _ (Nat.le_refl _)
  have hstands := h.stands t p hp
  -- the mark of the thread that moves is its old one or a new number
  have hmark : ∀ call, p'.bind ForwardPc.call = some call →
      p.call = some call ∨ (call = s.shared.calls ∧ shared.calls = s.shared.calls + 1) := by
    intro call hcall
    obtain ⟨q, rfl, hq⟩ := Option.bind_eq_some_iff.mp hcall
    exact hstep.call_cases hq
  -- another thread is about another call
  have hother : ∀ u q, u ≠ t → s.threads.lookup u = some q → ∀ call, q.call = some call → p.call ≠ some call := by
    intro u q hu hq call hcall hcontra
    exact hu (h.once u t q p call hq hp hcall hcontra)
  refine ⟨?_, ?_, ?_, ?_, ?_⟩
  · intro u v q r call hu hv hq hr
    rcases Program.settle_cases hu with ⟨rfl, rfl⟩ | ⟨hut, hu'⟩
    · rcases Program.settle_cases hv with ⟨rfl, -⟩ | ⟨hvt, hv'⟩
      · rfl
      · rcases hmark call hq with hold | ⟨rfl, -⟩
        · exact absurd hold (hother v r hvt hv' call hr)
        · exact absurd (h.known _ ⟨v, r, hv', hr⟩) (Nat.lt_irrefl _)
    · rcases Program.settle_cases hv with ⟨rfl, rfl⟩ | ⟨-, hv'⟩
      · rcases hmark call hr with hold | ⟨rfl, -⟩
        · exact absurd hold (hother u q hut hu' call hq)
        · exact absurd (h.known _ ⟨u, q, hu', hq⟩) (Nat.lt_irrefl _)
      · exact h.once u v q r call hu' hv' hq hr
  · rintro call ⟨u, q, hu, hq⟩
    rcases Program.settle_cases hu with ⟨rfl, rfl⟩ | ⟨-, hu⟩
    · rcases hmark call hq with hold | ⟨rfl, hnext⟩
      · exact Nat.lt_of_lt_of_le (h.known _ ⟨u, p, hp, hold⟩) hstep.calls_le
      · exact hnext ▸ Nat.lt_succ_self _
    · exact Nat.lt_of_lt_of_le (h.known _ ⟨u, q, hu, hq⟩) hstep.calls_le
  · intro call hcall
    have hold := Nat.le_trans hstep.calls_le hcall
    rw [hstep.record_ne, h.fresh call hold]
    intro hcontra
    exact absurd (h.known _ ⟨t, p, hp, hcontra⟩) (Nat.not_lt.mpr hold)
  · intro u q hu
    rcases Program.settle_cases hu with ⟨rfl, rfl⟩ | ⟨hut, hu⟩
    · exact hstep.stands hstands hfresh
    · have hq := h.stands u q hu
      cases q with
      | calling request => trivial
      | sending call request attempt =>
        exact ⟨(hstep.record_ne (hother u _ hut hu call rfl)).trans hq.1, hq.2⟩
      | sleeping call request attempt =>
        exact ⟨(hstep.record_ne (hother u _ hut hu call rfl)).trans hq.1, hq.2⟩
  · intro call
    by_cases hcall : p.call = some call
    · exact hstep.accounted hstands hcall
    · exact (hstep.record_ne hcall).symm ▸ h.accounted call

end

section

variable [HttpText] [SerdeJson] {client : UpstreamClient}

theorem reachable_forwarding {s : ThreadState ForwardState ForwardPc} (h : client.forwards.machine.Reachable s) :
    Forwarding s := by
  refine Machine.Reachable.invariant (I := Forwarding) ?_ ?_ h
  · refine ⟨?_, ?_, fun _ _ => rfl, ?_, fun _ => CallRecord.accounted_unconnected (Nat.zero_le _)⟩
    · intro t u p q call ht
      cases ht
    · rintro call ⟨t, p, ht, -⟩
      cases ht
    · intro t p ht
      cases ht
  · intro s a s' hI ha
    rcases Program.step_cases ha with ⟨t, p, rfl, hnone, hstart, rfl⟩ | ⟨t, i, p, shared, p', rfl, hp, -, hnext, rfl⟩
    · cases p with
      | calling request =>
        have hsettle : s.threads.insert t (.calling request) = Program.settle s.threads t (some (.calling request)) := rfl
        refine ⟨?_, ?_, hI.fresh, ?_, hI.accounted⟩
        · rw [hsettle]
          exact Program.markedOnce_settle hI.once fun call hcall => by cases hcall
        · intro call hcall
          exact hI.known call ((Program.marked_insert hnone rfl).mp hcall)
        · intro u q hu
          rw [hsettle] at hu
          rcases Program.settle_cases hu with ⟨-, hq⟩ | ⟨-, hold⟩
          · cases hq
            trivial
          · exact hI.stands u q hold
      | sending call request attempt => cases hstart
      | sleeping call request attempt => cases hstart
    · exact hI.step hp (forward_next hnext)

end

namespace Sample

@[reducible] def httpText : HttpText := ⟨fun _ => none, fun _ => ""⟩

/-- No body is read. -/
@[reducible] def noDocuments : SerdeJson := ⟨fun _ => none, fun _ => "", fun _ => (true, "")⟩

def upstreamClient : UpstreamClient := { config := upstreamConfig }

def forwardRequest : McpRequest := ⟨some (.number 1), "tools/call", none, none⟩

def refused : Attempt := .failed ⟨false, true, "connection refused"⟩

/-- Two calls at the same time: one finds no connection and then gets an answer, the other runs out of time over a request
that has arrived. -/
def forwarding : List (ThreadAct ForwardPc ForwardInput) :=
  [.spawn 0 (.calling forwardRequest), .spawn 1 (.calling forwardRequest), .run 0 .go, .run 0 (.sent refused false),
    .run 1 .go, .run 1 (.sent (.failed ⟨true, false, "operation timed out"⟩) true), .run 0 .go,
    .run 0 (.sent (.answered 204 ⟨none, []⟩) true)]

end Sample

section

open Sample

attribute [local instance] Sample.httpText Sample.noDocuments

end

end ThoughtGate
