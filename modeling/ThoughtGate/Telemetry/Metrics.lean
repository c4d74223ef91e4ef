import ThoughtGate.Proxy.Discipline
import ThoughtGate.Shim.Message
import Mathlib.Data.Finset.Prod
import Mathlib.Data.Set.Finite.Basic
import Mathlib.Data.Finset.Card

/-!
# Metrics

`telemetry/prom_metrics.rs` and `telemetry/cardinality.rs`: the families of counters and histograms that grow by a label set
whenever a new one is recorded, the limiters that keep the names of tools and servers in them few, and the places in the
proxy and the shim from which messages are recorded.

A limited name keeps the label that it once had (`resolve_stays`). The name of the method is a label that no limiter sees:
the families stay within a bound exactly if the methods of the messages are finitely many (`cardinality_bounded_iff`).

Metrics are switched on. Of a histogram the number of observations is kept, not what was observed.
-/

namespace ThoughtGate

/-! ### Limited labels -/

/-- `CardinalityLimiter`. -/
structure CardinalityLimiter where
  known : Finset String
  maxValues : Nat
  card_le : known.card ≤ maxValues

namespace CardinalityLimiter

/-- The label of the values for which there is no room. -/
def other : String := "__other__"

def new (maxValues : Nat) : CardinalityLimiter where
  known := ∅
  maxValues
  card_le := Nat.zero_le maxValues

/-- `resolve`. -/
def resolve (l : CardinalityLimiter) (value : String) : String × CardinalityLimiter :=
  if value ∈ l.known then (value, l)
  else if h : l.known.card < l.maxValues then
    (value, { l with known := insert value l.known, card_le := (Finset.card_insert_le _ _).trans h })
  else (other, l)

variable (l : CardinalityLimiter) (value : String)

/-- What `resolve` does. -/
theorem resolve_cases :
    ((l.resolve value).1 = value ∧ (l.resolve value).2.known = insert value l.known) ∨
      ((l.resolve value).1 = other ∧ (l.resolve value).2 = l) := by
  unfold resolve
  split
  · rename_i hknown
    exact .inl ⟨rfl, (Finset.insert_eq_self.mpr hknown).symm⟩
  · split
    · exact .inl ⟨rfl, rfl⟩
    · exact .inr ⟨rfl, rfl⟩

@[simp] theorem maxValues_resolve : (l.resolve value).2.maxValues = l.maxValues := by
  unfold resolve
  split_ifs <;> rfl

/-- No value is forgotten. -/
theorem known_subset_resolve : l.known ⊆ (l.resolve value).2.known := by
  rcases resolve_cases l value with ⟨-, hknown⟩ | ⟨-, hsame⟩
  · rw [hknown]
    exact Finset.subset_insert value l.known
  · rw [hsame]

/-- The label is a known value or the one of all others. -/
theorem resolve_mem : (l.resolve value).1 ∈ insert other (l.resolve value).2.known := by
  rcases resolve_cases l value with ⟨hlabel, hknown⟩ | ⟨hlabel, -⟩
  · rw [hlabel, hknown]
    exact Finset.mem_insert_of_mem (Finset.mem_insert_self value l.known)
  · rw [hlabel]
    exact Finset.mem_insert_self other _

theorem resolve_of_mem {l : CardinalityLimiter} {value : String} (h : value ∈ l.known) : (l.resolve value).1 = value := by
  rw [resolve, if_pos h]

/-- A value that was its own label remains so as long as no value is forgotten. -/
theorem resolve_stays {l l' : CardinalityLimiter} {value : String} (h : (l.resolve value).1 = value)
    (hl : (l.resolve value).2.known ⊆ l'.known) : (l'.resolve value).1 = value := by
  rcases resolve_cases l value with ⟨-, hknown⟩ | ⟨hother, -⟩
  · refine resolve_of_mem (hl ?_)
    rw [hknown]
    exact Finset.mem_insert_self value l.known
  · rcases resolve_cases l' value with ⟨hlabel, -⟩ | ⟨hlabel, -⟩
    · exact hlabel
    · rw [hlabel, ← hother, h]

end CardinalityLimiter

/-! ### Families -/

structure RequestLabels where
  method : String
  toolName : String
  status : String
deriving DecidableEq

structure DurationLabels where
  method : String
  toolName : String
deriving DecidableEq

structure ErrorLabels where
  errorType : String
  method : String
deriving DecidableEq

structure PayloadLabels where
  direction : String
  method : String
deriving DecidableEq

structure StdioMessageLabels where
  serverId : String
  direction : String
  method : String
deriving DecidableEq

/-- `prometheus_client`'s `Family`: how often each label set was recorded. -/
abbrev Family (L : Type) := Table L Nat

namespace Family

variable {L : Type} [DecidableEq L]

/-- `get_or_create`, and one more. -/
def record (f : Family L) (labels : L) : Family L := f.insert labels ((f.lookup labels).getD 0 + 1)

theorem mem_record {f : Family L} {labels labels' : L} : labels' ∈ f.record labels ↔ labels' = labels ∨ labels' ∈ f :=
  AList.mem_insert f

/-- The number of label sets. -/
def labelSets (f : Family L) : Nat := f.keys.length

/-- The label sets are no more than the places they are told apart by. -/
theorem labelSets_le {α : Type} {f : Family L} (g : L → α) (hg : Function.Injective g) (places : Finset α)
    (h : ∀ labels ∈ f, g labels ∈ places) : f.labelSets ≤ places.card := by
  have hcard : f.labelSets = f.keys.toFinset.card := (List.toFinset_card_of_nodup f.keys_nodup).symm
  rw [hcard]
  exact Finset.card_le_card_of_injOn g (fun labels hlabels => h labels (List.mem_toFinset.mp hlabels)) hg.injOn

/-- What the label sets say in one place. -/
def values {α : Type} [DecidableEq α] (f : Family L) (g : L → α) : Finset α := f.keys.toFinset.image g

theorem mem_values {α : Type} [DecidableEq α] {f : Family L} (g : L → α) {labels : L} (h : labels ∈ f) :
    g labels ∈ f.values g :=
  Finset.mem_image_of_mem g (List.mem_toFinset.mpr h)

theorem card_values_le {α : Type} [DecidableEq α] (f : Family L) (g : L → α) : (f.values g).card ≤ f.labelSets :=
  calc (f.values g).card ≤ f.keys.toFinset.card := Finset.card_image_le
    _ = f.labelSets := List.toFinset_card_of_nodup f.keys_nodup

end Family

/-- `ThoughtGateMetrics`: the families that messages are recorded in, and the limiters. -/
structure ThoughtGateMetrics where
  requestsTotal : Family RequestLabels
  requestDurationMs : Family DurationLabels
  errorsTotal : Family ErrorLabels
  requestPayloadSizeBytes : Family PayloadLabels
  stdioMessagesTotal : Family StdioMessageLabels
  toolNameLimiter : CardinalityLimiter
  serverIdLimiter : CardinalityLimiter

/-- A call of one of the recording methods. -/
inductive Recording where
  | request (method : String) (toolName : Option String) (status : String)
  | requestDuration (method : String) (toolName : Option String)
  | error (errorType method : String)
  | payloadSize (direction method : String)
  | stdioMessage (serverId direction method : String)
deriving DecidableEq

namespace ThoughtGateMetrics

/-- `ThoughtGateMetrics::new`. -/
def new : ThoughtGateMetrics where
  requestsTotal := ∅
  requestDurationMs := ∅
  errorsTotal := ∅
  requestPayloadSizeBytes := ∅
  stdioMessagesTotal := ∅
  toolNameLimiter := .new 200
  serverIdLimiter := .new 50

/-- The label of a tool, `"none"` where there is none. -/
def toolLabel (limiter : CardinalityLimiter) : Option String → String × CardinalityLimiter
  | some toolName => limiter.resolve toolName
  | none => ("none", limiter)

/-- `record_request`. -/
def recordRequest (m : ThoughtGateMetrics) (method : String) (toolName : Option String) (status : String) :
    ThoughtGateMetrics :=
  let (tool, limiter) := toolLabel m.toolNameLimiter toolName
  { m with toolNameLimiter := limiter, requestsTotal := m.requestsTotal.record ⟨method, tool, status⟩ }

/-- `record_request_duration`. -/
def recordRequestDuration (m : ThoughtGateMetrics) (method : String) (toolName : Option String) : ThoughtGateMetrics :=
  let (tool, limiter) := toolLabel m.toolNameLimiter toolName
  { m with toolNameLimiter := limiter, requestDurationMs := m.requestDurationMs.record ⟨method, tool⟩ }

/-- `record_error`. -/
def recordError (m : ThoughtGateMetrics) (errorType method : String) : ThoughtGateMetrics :=
  { m with errorsTotal := m.errorsTotal.record ⟨errorType, method⟩ }

/-- `record_payload_size`. -/
def recordPayloadSize (m : ThoughtGateMetrics) (direction method : String) : ThoughtGateMetrics :=
  { m with requestPayloadSizeBytes := m.requestPayloadSizeBytes.record ⟨direction, method⟩ }

/-- `record_stdio_message`. -/
def recordStdioMessage (m : ThoughtGateMetrics) (serverId direction method : String) : ThoughtGateMetrics :=
  let (limitedId, limiter) := m.serverIdLimiter.resolve serverId
  { m with serverIdLimiter := limiter, stdioMessagesTotal := m.stdioMessagesTotal.record ⟨limitedId, direction, method⟩ }

def record (m : ThoughtGateMetrics) : Recording → ThoughtGateMetrics
  | .request method toolName status => m.recordRequest method toolName status
  | .requestDuration method toolName => m.recordRequestDuration method toolName
  | .error errorType method => m.recordError errorType method
  | .payloadSize direction method => m.recordPayloadSize direction method
  | .stdioMessage serverId direction method => m.recordStdioMessage serverId direction method

/-- The metrics after some calls. -/
def after (log : List Recording) : ThoughtGateMetrics := log.foldl record new

end ThoughtGateMetrics

/-! ### What is recorded of a message -/

/-- `inbound_method`. -/
def ParsedRequests.inboundMethod : ParsedRequests → String
  | .single request => request.method
  | .batch _ => "batch"

/-- `extract_tool_name`. -/
def McpRequest.calledTool (request : McpRequest) : Option String :=
  if request.method ≠ "tools/call" then none else (request.params.bind fun params => params.get "name").bind Value.asStr

namespace McpHandler

variable [Glob] [Cedar] [F64.Fmt] [F64.Display] [Sha256] [PipelineLib]

/-- What `handle_single_request_bytes` records. -/
def singleRecordings (h : McpHandler) (env : RequestEnv) (request : McpRequest) : List Recording :=
  match h.routeRequest env request with
  | .blockingApproval _ _ _ _ _ => [.request request.method request.calledTool "blocking"]
  | .immediate (.ok _) =>
    [.request request.method request.calledTool "success", .requestDuration request.method request.calledTool]
  | .immediate (.error e) =>
    [.request request.method request.calledTool "error", .requestDuration request.method request.calledTool,
      .error e.errorTypeName request.method]

/-- What `handle_mcp_body_bytes` records of a body that is parsed and not too long. -/
def bodyRecordings (h : McpHandler) (load : Load) (env : RequestEnv) (parsed : ParsedRequests) : List Recording :=
  let inbound := Recording.payloadSize "inbound" parsed.inboundMethod
  let outbound := Recording.payloadSize "outbound" parsed.inboundMethod
  if load.permits < permitCount parsed then [inbound]
  else
    match parsed with
    | .single request =>
      inbound :: h.singleRecordings env request ++
        match h.handleSingleRequest env request with
        | .buffered _ _ => [outbound]
        | .streaming _ _ _ => []
    | .batch _ => [inbound, outbound]

end McpHandler

/-- A message that has been read: a body by the proxy, a line by the shim on its way to the server or to the agent. -/
inductive ClientMessage where
  | body (load : McpHandler.Load) (env : RequestEnv) (parsed : ParsedRequests)
  | agentToServer (serverId : String) (msg : StdioMessage)
  | serverToAgent (serverId : String) (msg : StdioMessage)

namespace ClientMessage

/-- The method of a message; that of a batch is `"batch"`, that of a response `"response"`. -/
def method : ClientMessage → String
  | .body _ _ parsed => parsed.inboundMethod
  | .agentToServer _ msg => msg.kind.method
  | .serverToAgent _ msg => msg.kind.method

variable [Glob] [Cedar] [F64.Fmt] [F64.Display] [Sha256] [PipelineLib]

/-- What is recorded of a message. -/
def recordings (h : McpHandler) : ClientMessage → List Recording
  | .body load env parsed => h.bodyRecordings load env parsed
  | .agentToServer serverId msg => [.stdioMessage serverId "agent_to_server" msg.kind.method]
  | .serverToAgent serverId msg => [.stdioMessage serverId "server_to_agent" msg.kind.method]

/-- The calls that have been made for some messages, finished or not, one among the other. -/
def Recorded (h : McpHandler) (messages : List ClientMessage) (log : List Recording) : Prop :=
  log.Subperm (messages.flatMap (recordings h))

end ClientMessage

/-! ### A bound on the label sets -/

/-- The outcomes of a request. -/
def statuses : Finset String := {"success", "error", "blocking"}

/-- The names of `error_type_name`. -/
def errorTypes : Finset String :=
  {"parse_error", "invalid_request", "invalid_params", "upstream_connection_failed", "upstream_timeout", "upstream_error",
    "tool_not_exposed", "governance_rule_denied", "policy_denied", "task_not_found", "task_expired", "task_cancelled",
    "task_result_not_ready", "approval_rejected", "approval_timeout", "policy_drift", "transform_drift", "rate_limited",
    "service_unavailable", "internal_error", "task_required"}

theorem errorTypeName_mem (e : ThoughtGateError) : e.errorTypeName ∈ errorTypes := by
  cases e <;> simp [errorTypes, ThoughtGateError.errorTypeName]

def payloadDirections : Finset String := {"inbound", "outbound"}

def stdioDirections : Finset String := {"agent_to_server", "server_to_agent"}

namespace Recording

/-- A recording of the program for a method of these names. -/
def Of (names : Finset String) : Recording → Prop
  | .request method _ status => method ∈ names ∧ status ∈ statuses
  | .requestDuration method _ => method ∈ names
  | .error errorType method => errorType ∈ errorTypes ∧ method ∈ names
  | .payloadSize direction method => direction ∈ payloadDirections ∧ method ∈ names
  | .stdioMessage _ direction method => direction ∈ stdioDirections ∧ method ∈ names

def toolName : Recording → Option String
  | .request _ toolName _ => toolName
  | .requestDuration _ toolName => toolName
  | _ => none

def serverId : Recording → Option String
  | .stdioMessage serverId _ _ => some serverId
  | _ => none

end Recording

section

variable [Glob] [Cedar] [F64.Fmt] [F64.Display] [Sha256] [PipelineLib]

theorem McpHandler.singleRecordings_of (h : McpHandler) (env : RequestEnv) {request : McpRequest} {names : Finset String}
    (hname : request.method ∈ names) : ∀ r ∈ h.singleRecordings env request, r.Of names := by
  unfold singleRecordings
  split
  · simp [Recording.Of, hname, statuses]
  · simp [Recording.Of, hname, statuses]
  · simp [Recording.Of, hname, statuses, errorTypeName_mem]

/-- What is recorded of a message is recorded under its method. -/
theorem ClientMessage.recordings_of (h : McpHandler) {msg : ClientMessage} {names : Finset String}
    (hname : msg.method ∈ names) : ∀ r ∈ msg.recordings h, r.Of names := by
  cases msg with
  | body load env parsed =>
    have hinbound : (Recording.payloadSize "inbound" parsed.inboundMethod).Of names := ⟨by decide, hname⟩
    have houtbound : (Recording.payloadSize "outbound" parsed.inboundMethod).Of names := ⟨by decide, hname⟩
    intro r hr
    unfold recordings McpHandler.bodyRecordings at hr
    dsimp only at hr
    split at hr
    · rw [List.mem_singleton] at hr
      rwa [hr]
    · cases parsed with
      | single request =>
        have hsingle := h.singleRecordings_of env hname r
        rcases List.mem_append.mp hr with hfront | hlast
        · rcases List.mem_cons.mp hfront with rfl | hrouted
          · exact hinbound
          · exact hsingle hrouted
        · split at hlast
          · rw [List.mem_singleton] at hlast
            rwa [hlast]
          · cases hlast
      | batch items =>
        rcases List.mem_cons.mp hr with rfl | hlast
        · exact hinbound
        · rw [List.mem_singleton] at hlast
          rwa [hlast]
  | agentToServer serverId msg => simpa [recordings, method, Recording.Of, stdioDirections] using hname
  | serverToAgent serverId msg => simpa [recordings, method, Recording.Of, stdioDirections] using hname

/-- Whatever becomes of a message, it is recorded that it came. -/
theorem ClientMessage.arrival_recorded (h : McpHandler) (msg : ClientMessage) :
    .payloadSize "inbound" msg.method ∈ msg.recordings h ∨
      ∃ serverId direction, .stdioMessage serverId direction msg.method ∈ msg.recordings h := by
  cases msg with
  | body load env parsed =>
    left
    unfold recordings McpHandler.bodyRecordings
    dsimp only
    split
    · exact List.mem_singleton_self _
    · cases parsed with
      | single request => exact List.mem_append_left _ (List.mem_cons_self)
      | batch items => exact List.mem_cons_self
  | agentToServer serverId msg => exact .inr ⟨serverId, "agent_to_server", List.mem_singleton_self _⟩
  | serverToAgent serverId msg => exact .inr ⟨serverId, "server_to_agent", List.mem_singleton_self _⟩

end

namespace ThoughtGateMetrics

/-- The labels that a tool may have had. -/
def toolLabels (m : ThoughtGateMetrics) : Finset String :=
  insert "none" (insert CardinalityLimiter.other m.toolNameLimiter.known)

/-- The labels that a server may have had. -/
def serverLabels (m : ThoughtGateMetrics) : Finset String := insert CardinalityLimiter.other m.serverIdLimiter.known

/-- All labels are among those of the program, of the limiters and of these names. -/
structure Within (names : Finset String) (m : ThoughtGateMetrics) : Prop where
  maxTools : m.toolNameLimiter.maxValues = 200
  maxServers : m.serverIdLimiter.maxValues = 50
  requests : ∀ labels ∈ m.requestsTotal,
    labels.method ∈ names ∧ labels.toolName ∈ m.toolLabels ∧ labels.status ∈ statuses
  durations : ∀ labels ∈ m.requestDurationMs, labels.method ∈ names ∧ labels.toolName ∈ m.toolLabels
  errors : ∀ labels ∈ m.errorsTotal, labels.errorType ∈ errorTypes ∧ labels.method ∈ names
  payloads : ∀ labels ∈ m.requestPayloadSizeBytes, labels.direction ∈ payloadDirections ∧ labels.method ∈ names
  stdio : ∀ labels ∈ m.stdioMessagesTotal,
    labels.serverId ∈ m.serverLabels ∧ labels.direction ∈ stdioDirections ∧ labels.method ∈ names

theorem within_new (names : Finset String) : Within names new where
  maxTools := rfl
  maxServers := rfl
  requests := fun _ h => absurd h (AList.notMem_empty _)
  durations := fun _ h => absurd h (AList.notMem_empty _)
  errors := fun _ h => absurd h (AList.notMem_empty _)
  payloads := fun _ h => absurd h (AList.notMem_empty _)
  stdio := fun _ h => absurd h (AList.notMem_empty _)

/-- What asking for the label of a tool does. -/
theorem toolLabel_spec (limiter : CardinalityLimiter) (toolName : Option String) :
    (toolLabel limiter toolName).2.maxValues = limiter.maxValues ∧
      limiter.known ⊆ (toolLabel limiter toolName).2.known ∧
      (toolLabel limiter toolName).1 ∈ insert "none" (insert CardinalityLimiter.other (toolLabel limiter toolName).2.known) := by
  cases toolName with
  | none => exact ⟨rfl, Finset.Subset.refl _, Finset.mem_insert_self _ _⟩
  | some name =>
    exact ⟨limiter.maxValues_resolve name, limiter.known_subset_resolve name,
      Finset.mem_insert_of_mem (limiter.resolve_mem name)⟩

variable {names : Finset String} {m : ThoughtGateMetrics}

theorem Within.record (hm : Within names m) {r : Recording} (hr : r.Of names) : Within names (m.record r) := by
  have htools {known known' : Finset String} (hsub : known ⊆ known') {label : String}
      (h : label ∈ insert "none" (insert CardinalityLimiter.other known)) :
      label ∈ insert "none" (insert CardinalityLimiter.other known') :=
    Finset.insert_subset_insert _ (Finset.insert_subset_insert _ hsub) h
  cases r with
  | request method toolName status =>
    obtain ⟨hmax, hsub, hlabel⟩ := toolLabel_spec m.toolNameLimiter toolName
    refine { hm with
      maxTools := hmax.trans hm.maxTools
      requests := fun labels hmem => ?_
      durations := fun labels hmem => ⟨(hm.durations labels hmem).1, htools hsub (hm.durations labels hmem).2⟩ }
    rcases Family.mem_record.mp hmem with rfl | hold
    · exact ⟨hr.1, hlabel, hr.2⟩
    · obtain ⟨hmethod, htool, hstatus⟩ := hm.requests labels hold
      exact ⟨hmethod, htools hsub htool, hstatus⟩
  | requestDuration method toolName =>
    obtain ⟨hmax, hsub, hlabel⟩ := toolLabel_spec m.toolNameLimiter toolName
    refine { hm with
      maxTools := hmax.trans hm.maxTools
      durations := fun labels hmem => ?_
      requests := fun labels hmem => ⟨(hm.requests labels hmem).1, htools hsub (hm.requests labels hmem).2.1,
        (hm.requests labels hmem).2.2⟩ }
    rcases Family.mem_record.mp hmem with rfl | hold
    · exact ⟨hr, hlabel⟩
    · exact ⟨(hm.durations labels hold).1, htools hsub (hm.durations labels hold).2⟩
  | error errorType method =>
    refine { hm with errors := fun labels hmem => ?_ }
    rcases Family.mem_record.mp hmem with rfl | hold
    · exact hr
    · exact hm.errors labels hold
  | payloadSize direction method =>
    refine { hm with payloads := fun labels hmem => ?_ }
    rcases Family.mem_record.mp hmem with rfl | hold
    · exact hr
    · exact hm.payloads labels hold
  | stdioMessage serverId direction method =>
    refine { hm with
      maxServers := (m.serverIdLimiter.maxValues_resolve serverId).trans hm.maxServers
      stdio := fun labels hmem => ?_ }
    rcases Family.mem_record.mp hmem with rfl | hold
    · exact ⟨m.serverIdLimiter.resolve_mem serverId, hr⟩
    · obtain ⟨hserver, hrest⟩ := hm.stdio labels hold
      exact ⟨Finset.insert_subset_insert _ (m.serverIdLimiter.known_subset_resolve serverId) hserver, hrest⟩

theorem within_after {log : List Recording} (h : ∀ r ∈ log, r.Of names) : Within names (after log) := by
  induction log using List.reverseRecOn with
  | nil => exact within_new names
  | append_singleton log r ih =>
    rw [after, List.foldl_append]
    exact (ih fun r' hr' => h r' (List.mem_append_left _ hr')).record (h r (by simp))

/-- Each of the families has at most so many label sets. -/
structure LabelSetsLe (m : ThoughtGateMetrics) (bound : Nat) : Prop where
  requests : m.requestsTotal.labelSets ≤ bound
  durations : m.requestDurationMs.labelSets ≤ bound
  errors : m.errorsTotal.labelSets ≤ bound
  payloads : m.requestPayloadSizeBytes.labelSets ≤ bound
  stdio : m.stdioMessagesTotal.labelSets ≤ bound

theorem Within.card_toolLabels (hm : Within names m) : m.toolLabels.card ≤ 202 := by
  have hknown := m.toolNameLimiter.card_le
  have hinner := Finset.card_insert_le CardinalityLimiter.other m.toolNameLimiter.known
  have houter := Finset.card_insert_le "none" (insert CardinalityLimiter.other m.toolNameLimiter.known)
  rw [hm.maxTools] at hknown
  unfold toolLabels
  omega

theorem Within.card_serverLabels (hm : Within names m) : m.serverLabels.card ≤ 51 := by
  have hknown := m.serverIdLimiter.card_le
  have hinsert := Finset.card_insert_le CardinalityLimiter.other m.serverIdLimiter.known
  rw [hm.maxServers] at hknown
  unfold serverLabels
  omega

/-- For each name there are at most 202 labels of tools with three outcomes, which is more than in the other families. -/
theorem Within.labelSetsLe (hm : Within names m) : m.LabelSetsLe (606 * names.card) where
  requests := by
    have hinjective : Function.Injective fun labels : RequestLabels =>
        (labels.method, labels.toolName, labels.status) := by
      rintro ⟨⟩ ⟨⟩ h
      cases h
      rfl
    have hle := Family.labelSets_le _ hinjective (names ×ˢ m.toolLabels ×ˢ statuses) fun labels hmem => by
      obtain ⟨hmethod, htool, hstatus⟩ := hm.requests labels hmem
      exact Finset.mk_mem_product hmethod (Finset.mk_mem_product htool hstatus)
    have htools := Nat.mul_le_mul_left names.card (Nat.mul_le_mul_right 3 hm.card_toolLabels)
    have hstatuses : statuses.card = 3 := rfl
    rw [Finset.card_product, Finset.card_product, hstatuses] at hle
    omega
  durations := by
    have hinjective : Function.Injective fun labels : DurationLabels => (labels.method, labels.toolName) := by
      rintro ⟨⟩ ⟨⟩ h
      cases h
      rfl
    have hle := Family.labelSets_le _ hinjective (names ×ˢ m.toolLabels) fun labels hmem =>
      Finset.mk_mem_product (hm.durations labels hmem).1 (hm.durations labels hmem).2
    have htools := Nat.mul_le_mul_left names.card hm.card_toolLabels
    rw [Finset.card_product] at hle
    omega
  errors := by
    have hinjective : Function.Injective fun labels : ErrorLabels => (labels.errorType, labels.method) := by
      rintro ⟨⟩ ⟨⟩ h
      cases h
      rfl
    have hle := Family.labelSets_le _ hinjective (errorTypes ×ˢ names) fun labels hmem =>
      Finset.mk_mem_product (hm.errors labels hmem).1 (hm.errors labels hmem).2
    have herrors : errorTypes.card = 21 := by decide
    rw [Finset.card_product, herrors] at hle
    omega
  payloads := by
    have hinjective : Function.Injective fun labels : PayloadLabels => (labels.direction, labels.method) := by
      rintro ⟨⟩ ⟨⟩ h
      cases h
      rfl
    have hle := Family.labelSets_le _ hinjective (payloadDirections ×ˢ names) fun labels hmem =>
      Finset.mk_mem_product (hm.payloads labels hmem).1 (hm.payloads labels hmem).2
    have hdirections : payloadDirections.card = 2 := rfl
    rw [Finset.card_product, hdirections] at hle
    omega
  stdio := by
    have hinjective : Function.Injective fun labels : StdioMessageLabels =>
        (labels.method, labels.serverId, labels.direction) := by
      rintro ⟨⟩ ⟨⟩ h
      cases h
      rfl
    have hle := Family.labelSets_le _ hinjective (names ×ˢ m.serverLabels ×ˢ stdioDirections) fun labels hmem => by
      obtain ⟨hserver, hdirection, hmethod⟩ := hm.stdio labels hmem
      exact Finset.mk_mem_product hmethod (Finset.mk_mem_product hserver hdirection)
    have hservers := Nat.mul_le_mul_left names.card (Nat.mul_le_mul_right 2 hm.card_serverLabels)
    have hdirections : stdioDirections.card = 2 := rfl
    rw [Finset.card_product, Finset.card_product, hdirections] at hle
    omega

/-! ### What stays -/

/-- What a recording leaves as it was: known values, and the label sets of two families. -/
structure Grows (m m' : ThoughtGateMetrics) : Prop where
  tools : m.toolNameLimiter.known ⊆ m'.toolNameLimiter.known
  servers : m.serverIdLimiter.known ⊆ m'.serverIdLimiter.known
  payloads : ∀ labels ∈ m.requestPayloadSizeBytes, labels ∈ m'.requestPayloadSizeBytes
  stdio : ∀ labels ∈ m.stdioMessagesTotal, labels ∈ m'.stdioMessagesTotal

theorem Grows.refl (m : ThoughtGateMetrics) : Grows m m :=
  ⟨Finset.Subset.refl _, Finset.Subset.refl _, fun _ h => h, fun _ h => h⟩

theorem Grows.trans {m₁ m₂ m₃ : ThoughtGateMetrics} (h : Grows m₁ m₂) (h' : Grows m₂ m₃) : Grows m₁ m₃ :=
  ⟨h.tools.trans h'.tools, h.servers.trans h'.servers, fun labels hmem => h'.payloads labels (h.payloads labels hmem),
    fun labels hmem => h'.stdio labels (h.stdio labels hmem)⟩

theorem grows_record (m : ThoughtGateMetrics) (r : Recording) : Grows m (m.record r) := by
  have hrefl := Grows.refl m
  cases r with
  | request method toolName status => exact { hrefl with tools := (toolLabel_spec _ toolName).2.1 }
  | requestDuration method toolName => exact { hrefl with tools := (toolLabel_spec _ toolName).2.1 }
  | error errorType method => exact { hrefl with }
  | payloadSize direction method =>
    exact { hrefl with payloads := fun labels hmem => Family.mem_record.mpr (.inr hmem) }
  | stdioMessage serverId direction method =>
    exact { hrefl with
      servers := m.serverIdLimiter.known_subset_resolve serverId
      stdio := fun labels hmem => Family.mem_record.mpr (.inr hmem) }

theorem grows_foldl (m : ThoughtGateMetrics) (log : List Recording) : Grows m (log.foldl record m) := by
  induction log generalizing m with
  | nil => exact Grows.refl m
  | cons r log ih => exact (grows_record m r).trans (ih _)

theorem grows_after (log : List Recording) (r : Recording) (rest : List Recording) :
    Grows ((after log).record r) (after (log ++ r :: rest)) := by
  have hsplit : after (log ++ r :: rest) = rest.foldl record ((after log).record r) := by
    rw [after, List.foldl_append]
    rfl
  rw [hsplit]
  exact grows_foldl _ rest

/-- A recording in a log has left its label set. -/
theorem grows_of_mem {log : List Recording} {r : Recording} (h : r ∈ log) :
    ∃ m : ThoughtGateMetrics, Grows (m.record r) (after log) := by
  obtain ⟨before, rest, rfl⟩ := List.append_of_mem h
  exact ⟨after before, grows_after before r rest⟩

/-- The label that a tool's name is given. -/
def labelOfTool (m : ThoughtGateMetrics) (name : String) : String := (m.toolNameLimiter.resolve name).1

/-- The label that a server's name is given. -/
def labelOfServer (m : ThoughtGateMetrics) (name : String) : String := (m.serverIdLimiter.resolve name).1

/-- A tool recorded under its own name is recorded under it from then on. -/
theorem labelOfTool_stays {log : List Recording} {r : Recording} {name : String} (hr : r.toolName = some name)
    (h : (after log).labelOfTool name = name) (rest : List Recording) :
    (after (log ++ r :: rest)).labelOfTool name = name := by
  refine CardinalityLimiter.resolve_stays h (Finset.Subset.trans ?_ (grows_after log r rest).tools)
  cases r with
  | request method toolName status =>
    cases hr
    exact Finset.Subset.refl _
  | requestDuration method toolName =>
    cases hr
    exact Finset.Subset.refl _
  | _ => cases hr

theorem labelOfServer_stays {log : List Recording} {r : Recording} {name : String} (hr : r.serverId = some name)
    (h : (after log).labelOfServer name = name) (rest : List Recording) :
    (after (log ++ r :: rest)).labelOfServer name = name := by
  refine CardinalityLimiter.resolve_stays h (Finset.Subset.trans ?_ (grows_after log r rest).servers)
  cases r with
  | stdioMessage serverId direction method =>
    cases hr
    exact Finset.Subset.refl _
  | _ => cases hr

end ThoughtGateMetrics

/-! ### Runs -/

namespace ClientMessage

variable [Glob] [Cedar] [F64.Fmt] [F64.Display] [Sha256] [PipelineLib]

/-- In every run on messages of a kind the families stay within a bound. -/
def Bounded (h : McpHandler) (kind : Set ClientMessage) : Prop :=
  ∃ bound, ∀ messages : List ClientMessage, (∀ msg ∈ messages, msg ∈ kind) →
    ∀ log, Recorded h messages log → (ThoughtGateMetrics.after log).LabelSetsLe bound

/-- The methods of the messages of a kind. -/
def methods (kind : Set ClientMessage) : Set String := method '' kind

theorem bounded_of_finite (h : McpHandler) {kind : Set ClientMessage} (hfinite : (methods kind).Finite) : Bounded h kind := by
  refine ⟨606 * hfinite.toFinset.card, fun messages hkind log hlog => ?_⟩
  refine (ThoughtGateMetrics.within_after fun r hr => ?_).labelSetsLe
  obtain ⟨msg, hmsg, hmem⟩ := List.mem_flatMap.mp (hlog.subset hr)
  exact recordings_of h (hfinite.mem_toFinset.mpr ⟨msg, hkind msg hmsg, rfl⟩) r hmem

/-- Finitely many of the methods have a label set each, in one of two families. -/
theorem card_le_of_bounded (h : McpHandler) {kind : Set ClientMessage} {bound : Nat}
    (hbound : ∀ messages : List ClientMessage, (∀ msg ∈ messages, msg ∈ kind) →
      ∀ log, Recorded h messages log → (ThoughtGateMetrics.after log).LabelSetsLe bound)
    {names : Finset String} (hnames : (names : Set String) ⊆ methods kind) : names.card ≤ 2 * bound := by
  have hex : ∀ name : names, ∃ msg ∈ kind, msg.method = name.1 := fun name => hnames name.2
  choose msg hkind hmethod using hex
  let messages := names.attach.toList.map msg
  have hle := hbound messages (by
    intro m hm
    obtain ⟨name, -, rfl⟩ := List.mem_map.mp hm
    exact hkind name) (messages.flatMap (recordings h)) (List.Subperm.refl _)
  generalize hm : ThoughtGateMetrics.after (messages.flatMap (recordings h)) = m at hle
  have hrecorded : names ⊆ m.requestPayloadSizeBytes.values PayloadLabels.method ∪
      m.stdioMessagesTotal.values StdioMessageLabels.method := by
    intro name hname
    have hmem : msg ⟨name, hname⟩ ∈ messages := List.mem_map_of_mem (Finset.mem_toList.mpr (Finset.mem_attach _ _))
    have hname : (msg ⟨name, hname⟩).method = name := hmethod ⟨name, hname⟩
    rw [← hname, Finset.mem_union, ← hm]
    rcases arrival_recorded h (msg _) with harrival | ⟨serverId, direction, harrival⟩
    · obtain ⟨_, hgrows⟩ := ThoughtGateMetrics.grows_of_mem (List.mem_flatMap_of_mem hmem harrival)
      exact .inl (Family.mem_values _ (hgrows.payloads _ (Family.mem_record.mpr (.inl rfl))))
    · obtain ⟨_, hgrows⟩ := ThoughtGateMetrics.grows_of_mem (List.mem_flatMap_of_mem hmem harrival)
      exact .inr (Family.mem_values StdioMessageLabels.method (hgrows.stdio _ (Family.mem_record.mpr (.inl rfl))))
  have hpayloads := (Family.card_values_le m.requestPayloadSizeBytes PayloadLabels.method).trans hle.payloads
  have hstdio := (Family.card_values_le m.stdioMessagesTotal StdioMessageLabels.method).trans hle.stdio
  calc names.card ≤ _ := Finset.card_le_card hrecorded
    _ ≤ _ := Finset.card_union_le _ _
    _ ≤ 2 * bound := by omega

theorem finite_of_bounded (h : McpHandler) {kind : Set ClientMessage} (hbounded : Bounded h kind) :
    (methods kind).Finite := by
  obtain ⟨bound, hbound⟩ := hbounded
  by_contra hinfinite
  obtain ⟨names, hnames, hcard⟩ := Set.Infinite.exists_subset_card_eq hinfinite (2 * bound + 1)
  have hle := card_le_of_bounded h hbound hnames
  omega

/-- In the runs on messages of a kind the families stay within a bound exactly if there are finitely many methods among
them; in every run a name of a tool or a server that was once its own label remains so. -/
theorem cardinality_bounded_iff (h : McpHandler) (kind : Set ClientMessage) :
    (Bounded h kind ↔ (methods kind).Finite) ∧
    (∀ (log rest : List Recording) (r : Recording) (name : String), r.toolName = some name →
      (ThoughtGateMetrics.after log).labelOfTool name = name →
      (ThoughtGateMetrics.after (log ++ r :: rest)).labelOfTool name = name) ∧
    ∀ (log rest : List Recording) (r : Recording) (name : String), r.serverId = some name →
      (ThoughtGateMetrics.after log).labelOfServer name = name →
      (ThoughtGateMetrics.after (log ++ r :: rest)).labelOfServer name = name :=
  ⟨⟨finite_of_bounded h, bounded_of_finite h⟩,
    fun _ rest _ _ hr hlabel => ThoughtGateMetrics.labelOfTool_stays hr hlabel rest,
    fun _ rest _ _ hr hlabel => ThoughtGateMetrics.labelOfServer_stays hr hlabel rest⟩

end ClientMessage

section

attribute [local instance] Sample.glob Sample.cedar Sample.f64Fmt Sample.f64Display Sample.sha256 Sample.pipelineLib

namespace Sample

/-- A request for a method of any name, at a proxy that is not busy. -/
def namedRequest (name : String) : ClientMessage :=
  .body idle requestEnv (.single { id := some (.number 1), method := name, params := none, taskMetadata := none })

end Sample

/-- A client that makes up methods makes label sets without end. -/
theorem method_labels_unbounded : ¬ ClientMessage.Bounded Sample.handler (Set.range Sample.namedRequest) := by
  intro hbounded
  have hfinite := ClientMessage.finite_of_bounded Sample.handler hbounded
  have hall : ClientMessage.methods (Set.range Sample.namedRequest) = Set.univ :=
    Set.eq_univ_of_forall fun name => ⟨Sample.namedRequest name, ⟨name, rfl⟩, rfl⟩
  rw [hall] at hfinite
  exact Set.infinite_univ hfinite

end

end ThoughtGate
