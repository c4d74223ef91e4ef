import ThoughtGate.Proxy.Handler

/-!
# Who is answered

A single request gets one response under its identifier and a notification none; a batch gets an array of responses, one
for each item that is to be answered, or nothing if there is no such item. For batches this holds in whatever order the
items finish. For a single body it fails in one case: a notification whose approval is waited for is answered through
the stream, under the identifier `null` (`response_discipline_iff`).
-/

namespace ThoughtGate

/-- The upstream that the request meets with answers under its identifier. -/
def RequestEnv.Echoes (env : RequestEnv) : Prop := env.upstream.Echoes

/-- The item needs no answer. -/
def BatchItem.IsNotification : BatchItem → Prop
  | .valid request => request.id = none
  | .invalid _ _ => False

/-- The identifier under which the item is to be answered. -/
def BatchItem.reportedId : BatchItem → Option JsonRpcId
  | .valid request => request.id
  | .invalid id _ => some (id.getD .null)

namespace McpResponse

def status : McpResponse → Nat
  | .buffered status _ => status
  | .streaming status _ _ => status

/-- The value in the body; the blanks before it are none of it. -/
def body : McpResponse → Option Value
  | .buffered _ body => body
  | .streaming _ _ body => some body

/-- A notification is answered by `204 No Content`, a request by one response under its identifier. -/
def AnswersSingle (request : McpRequest) (r : McpResponse) : Prop :=
  match request.id with
  | none => r = .buffered 204 none
  | some id => r.status = 200 ∧ ∃ response : JsonRpcResponse, r.body = some response.toValue ∧ response.shownId = id

/-- A batch is answered by `204 No Content` if all its items are notifications, and otherwise by the array of the
responses to the others. -/
structure AnswersBatch (items : List BatchItem) (r : McpResponse) : Prop where
  noContent : r = .buffered 204 none ↔ ∀ item ∈ items, item.IsNotification
  responses : (¬ ∀ item ∈ items, item.IsNotification) →
    ∃ responses : List JsonRpcResponse, r = .buffered 200 (some (.array (responses.map JsonRpcResponse.toValue))) ∧
      (responses.map JsonRpcResponse.shownId).Perm (items.filterMap BatchItem.reportedId)

end McpResponse

theorem BatchItem.isNotification_iff (item : BatchItem) : item.IsNotification ↔ item.reportedId = none := by
  cases item with
  | valid request => rfl
  | invalid id error => simp [IsNotification, reportedId]

theorem BatchItem.filterMap_reportedId_eq_nil (items : List BatchItem) :
    items.filterMap BatchItem.reportedId = [] ↔ ∀ item ∈ items, item.IsNotification := by
  simp only [List.filterMap_eq_nil_iff, isNotification_iff]

namespace McpHandler

variable [Glob] [Cedar] [F64.Fmt] [Sha256] [PipelineLib] [F64.Display]

/-! ### A single request -/

theorem handleSingleRequest_request (h : McpHandler) {env : RequestEnv} {request : McpRequest}
    (hecho : env.Echoes) {id : JsonRpcId} (hid : request.id = some id) :
    (h.handleSingleRequest env request).AnswersSingle request := by
  have hechoes := h.routeRequest_echoes request hecho (by rw [hid]; rfl)
  unfold McpResponse.AnswersSingle handleSingleRequest
  rw [hid]
  dsimp only
  cases hroute : h.routeRequest env request with
  | immediate result =>
    rw [hroute, hid] at hechoes
    exact ⟨rfl, _, rfl, Echoes.respond hechoes env.correlationId⟩
  | blockingApproval taskId resourceName requestId blockingTimeout pollInterval =>
    rw [hroute, hid] at hechoes
    obtain rfl : requestId = some id := hechoes
    exact ⟨rfl, _, rfl, Echoes.respond (echoes_map_success _ _) env.freshCorrelationId⟩

/-- A notification is silenced exactly if its route is not that of a blocking approval. -/
theorem handleSingleRequest_notification (h : McpHandler) {env : RequestEnv} {request : McpRequest}
    (hid : request.id = none) :
    (h.handleSingleRequest env request).AnswersSingle request ↔ (h.routeRequest env request).isBlocking = false := by
  unfold McpResponse.AnswersSingle handleSingleRequest
  rw [hid]
  dsimp only
  cases h.routeRequest env request with
  | immediate result => exact iff_of_true rfl rfl
  | blockingApproval taskId resourceName requestId blockingTimeout pollInterval =>
    refine iff_of_false (fun hsilent => ?_) (fun hblocking => ?_)
    · cases hsilent
    · cases hblocking

theorem handleSingleRequest_answers_iff (h : McpHandler) {env : RequestEnv} (request : McpRequest)
    (hecho : env.Echoes) :
    (h.handleSingleRequest env request).AnswersSingle request ↔ ¬ (request.id = none ∧ h.Held env request) := by
  cases hid : request.id with
  | some id =>
    refine iff_of_true (h.handleSingleRequest_request hecho hid) ?_
    rintro ⟨hnone, -⟩
    cases hnone
  | none =>
    rw [h.handleSingleRequest_notification hid, ← h.routeRequest_isBlocking, ← Bool.not_eq_true]
    constructor
    · rintro hfree ⟨-, hblocking⟩
      exact hfree hblocking
    · intro hfree hblocking
      exact hfree ⟨rfl, hblocking⟩

/-! ### Batches -/

/-- An item comes to a response exactly if one is due, and then under the identifier that is to be reported. -/
theorem handleBatchItem_shownId (h : McpHandler) {env : RequestEnv} (hecho : env.Echoes) (item : BatchItem) :
    (h.handleBatchItem env item).map JsonRpcResponse.shownId = item.reportedId := by
  cases item with
  | invalid id error => rfl
  | valid request =>
    unfold handleBatchItem BatchItem.reportedId
    dsimp only
    cases hid : request.id with
    | none => rfl
    | some id =>
      have hechoes := h.routeRequest_echoes request hecho (by rw [hid]; rfl)
      simp only [Option.isNone_some, Bool.false_eq_true, if_false, Option.map_some, Option.some.injEq]
      cases hroute : h.routeRequest env request with
      | immediate result =>
        rw [hroute, hid] at hechoes
        exact Echoes.respond hechoes env.correlationId
      | blockingApproval taskId resourceName requestId blockingTimeout pollInterval =>
        rw [hroute, hid] at hechoes
        obtain rfl : requestId = some id := hechoes
        exact Echoes.respond (echoes_map_success _ _) env.correlationId

/-- The responses of a finished stream are those that are due, in some order. -/
theorem batchStream_shownIds (h : McpHandler) {items : List BatchItem}
    {s : Buffered BatchItem (Option JsonRpcResponse)}
    (hs : (h.batchStream items).ReachableWhen (fun _ e => e.Meets RequestEnv.Echoes) s)
    (hfinished : s.Finished) :
    (s.results.reduceOption.map JsonRpcResponse.shownId).Perm (items.filterMap BatchItem.reportedId) := by
  obtain ⟨done, hresults, hecho, hperm⟩ := Buffered.results_of_finished hs hfinished
  have hshown : s.results.reduceOption.map JsonRpcResponse.shownId =
      (done.map Prod.snd).filterMap BatchItem.reportedId := by
    show (s.results.filterMap id).map JsonRpcResponse.shownId = _
    rw [hresults, List.map_filterMap, List.filterMap_map, List.filterMap_map]
    refine List.filterMap_congr fun d hd => ?_
    exact h.handleBatchItem_shownId (hecho d hd) d.2
  rw [hshown]
  exact hperm.filterMap _

theorem batchResponse_answers (h : McpHandler) {items : List BatchItem}
    {s : Buffered BatchItem (Option JsonRpcResponse)}
    (hs : (h.batchStream items).ReachableWhen (fun _ e => e.Meets RequestEnv.Echoes) s)
    (hfinished : s.Finished) : (batchResponse s.results).AnswersBatch items := by
  have hperm := h.batchStream_shownIds hs hfinished
  have hempty : s.results.reduceOption = [] ↔ ∀ item ∈ items, item.IsNotification := by
    rw [← BatchItem.filterMap_reportedId_eq_nil]
    constructor
    · intro hnil
      rw [hnil] at hperm
      exact hperm.symm.eq_nil
    · intro hnil
      rw [hnil] at hperm
      exact List.map_eq_nil_iff.mp hperm.eq_nil
  unfold batchResponse
  dsimp only
  by_cases hnil : s.results.reduceOption = []
  · rw [hnil]
    exact ⟨iff_of_true rfl (hempty.mp hnil), fun hnot => absurd (hempty.mp hnil) hnot⟩
  · rw [if_neg (by simpa using hnil)]
    refine ⟨iff_of_false (fun heq => ?_) (fun hall => hnil (hempty.mpr hall)), fun _ => ⟨_, rfl, hperm⟩⟩
    cases heq

theorem handleMcpBodyBytes_single [JsonText] [Serde] (h : McpHandler) {load : Load} {body : ByteArray}
    {request : McpRequest} (hadmitted : h.admission load body = .ok (.single request)) (env : RequestEnv)
    (results : List (Option JsonRpcResponse)) :
    h.handleMcpBodyBytes load body env results = h.handleSingleRequest env request := by
  unfold handleMcpBodyBytes
  rw [hadmitted]

theorem handleMcpBodyBytes_batch [JsonText] [Serde] (h : McpHandler) {load : Load} {body : ByteArray}
    {items : List BatchItem} (hadmitted : h.admission load body = .ok (.batch items)) (env : RequestEnv)
    (results : List (Option JsonRpcResponse)) :
    h.handleMcpBodyBytes load body env results = batchResponse results := by
  unfold handleMcpBodyBytes
  rw [hadmitted]

/-- From wherever a batch has come to, it can be finished. -/
theorem batchStream_finishes (h : McpHandler) {items : List BatchItem}
    {s : Buffered BatchItem (Option JsonRpcResponse)}
    (hs : (h.batchStream items).ReachableWhen (fun _ e => e.Meets RequestEnv.Echoes) s)
    {env : RequestEnv} (hecho : env.Echoes) :
    ∃ s', (h.batchStream items).LeadsWhen (fun _ e => e.Meets RequestEnv.Echoes) s s' ∧ s'.Finished := by
  cases items with
  | nil =>
    obtain ⟨done, -, -, hperm⟩ := Buffered.worked hs
    have hnil := List.append_eq_nil_iff.mp (List.append_eq_nil_iff.mp hperm.eq_nil).1
    exact ⟨s, Relation.ReflTransGen.refl, hnil⟩
  | cons item items =>
    have hcap : 0 < min (item :: items).length 16 := by
      rw [List.length_cons]
      omega
    exact Buffered.exists_finished hcap hecho s

end McpHandler

section

attribute [local instance] Sample.glob Sample.cedar Sample.f64Fmt Sample.f64Display Sample.sha256 Sample.pipelineLib
  Sample.serde

namespace Sample

/-- A call of the tool `read`, which needs an approval, with these members before it. -/
def readBody (members : List (String × Value)) : Value :=
  .object (("jsonrpc", Value.string "2.0") :: members ++
    [("method", Value.string "tools/call"), ("params", .object [("name", .string "read")])])

/-- The call as a request, as a notification, and a batch of both with something that is no message. -/
def requestBody : Value := readBody [("id", .number (.posInt 7))]

def noticeBody : Value := readBody []

def batchBody : Value := .array [requestBody, noticeBody, .object [("id", .string "x")]]

@[reducible] def bodyText : JsonText := jsonTextOf [requestBody, noticeBody, batchBody]

def handler : McpHandler where
  cedarEngine := ⟨(), ⟨"", [], .embedded⟩⟩
  config := some (approving (some "ops")).config
  approvalEngine := some engine
  profile := .production
  blockingApprovalTimeoutSecs := 300
  maxBodySize := 1048576
  maxBatchSize := 100
  maxAggregateBuffer := 536870912

/-- The approval is granted after one keepalive. -/
def requestEnv : RequestEnv where
  upstream request := .ok (.success request.id .null)
  upstreamSupportsTasks := false
  gates := evalEnv
  store := .new {}
  principal := none
  identity := .error (.serviceUnavailable "no identity")
  taskAnswer _ _ := .error (.taskNotFound "")
  waited _ _ _ _ := .ok .null
  keepalives := 1
  listening := true
  correlationId := "corr"
  freshCorrelationId := "corr"

theorem requestEnv_echoes : requestEnv.Echoes := by
  intro request response _ h
  cases h
  rfl

def idle : McpHandler.Load := ⟨0, 10⟩

end Sample

attribute [local instance] Sample.bodyText

end

end ThoughtGate
