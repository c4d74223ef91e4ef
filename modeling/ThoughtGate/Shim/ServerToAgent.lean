import ThoughtGate.Config.ListFiltering
import ThoughtGate.Shim.AgentToServer

/-!
# From the server to the agent

`server_to_agent` of `shim/proxy/server_to_agent.rs`: a line of the server is passed on as it is, unless it is the response
to a request that is tracked in `pending.outbound` as one for a list; then its list is filtered. Here are the pieces of one
round of its loop, in their order: `readServerLine`, the removal from `pending.outbound` (`Shim/Channel`), and
`deliver`. The map `pending.inbound`, which is only written to, is in `Shim/Tracking`.

What makes a delivery harmless for an agent that has asked for a list (`Covered`, `deliver_exposedOnly`): the line shows
nothing that is hidden, or it was matched with a request for that list and decodes untrimmed, as the filter reads it.
-/

namespace ThoughtGate

namespace Shim

/-- What `server_to_agent` does with a line that it has read. -/
inductive ServerLine where
  /-- It is too long, or blank. -/
  | skipped
  /-- It is passed on as it is. -/
  | untouched
  /-- It is a response, for which a request is looked up. -/
  | response (id : JsonRpcId)
deriving DecidableEq

/-- What is written to the agent: the line as it came, or the filtered response and a newline. -/
inductive Delivery where
  | raw (line : ByteArray)
  | filtered (response : Value)

/-- What `bounded_read_line` returns: the only newline is the last byte. -/
def isLine (raw : ByteArray) : Bool := raw.toList.dropLast.all fun b => b ≠ 10

section

variable [JsonText]

/-- One round of the loop up to the point where the line is passed on or correlated. -/
def readServerLine (raw : ByteArray) : ServerLine :=
  if maxMessageBytes < raw.size then .skipped
  else
    match String.fromUTF8? raw with
    | none => .untouched
    | some buf =>
      if (Text.trim buf).isEmpty then .skipped
      else
        match parseStdioMessage buf with
        | .error _ => .untouched
        | .ok msg =>
          match msg.kind with
          | .response id => .response id
          | .request _ _ | .notification _ => .untouched

variable [Glob]

/-- `filter_list_response`, before the response is serialised. -/
def filterListResponse (rawJson : ByteArray) (method : String) (config : Config) (sourceId : String) :
    Option Value :=
  match JsonText.parse rawJson with
  | .ok (.object fields) =>
    ((Value.object fields).get "result").bind fun result =>
      (filterListResult config sourceId false method result).map fun filtered =>
        .object (Value.insertField "result" filtered fields)
  | _ => none

/-- What is written for a line that was matched with a request for this method, or with none. -/
def deliver (config : Config) (serverId : String) (raw : ByteArray) (matched : Option String) : Delivery :=
  match matched with
  | none => .raw raw
  | some method =>
    if isListMethod method then
      match filterListResponse raw method config serverId with
      | some response => .filtered response
      | none => .raw raw
    else .raw raw

/-! ### What the agent sees -/

omit [Glob] in
/-- The messages of a text: the items of a batch, or the one value. -/
def decodedMessages (bytes : ByteArray) : List Value :=
  match JsonText.parse bytes with
  | .ok (.array items) => items
  | .ok value => [value]
  | .error _ => []

omit [Glob] in
/-- What the agent may read in a line, whether it trims it or not. -/
def lineMessages (raw : ByteArray) : List Value :=
  decodedMessages raw ++
    match String.fromUTF8? raw with
    | some line => decodedMessages (Text.trim line).toUTF8
    | none => []

omit [Glob] in
def Delivery.messages : Delivery → List Value
  | .raw line => lineMessages line
  | .filtered response => [response]

omit [JsonText] [Glob] in
/-- The message has this identifier (its key in `pending.outbound`). -/
def answers [F64.Fmt] (key : String) (message : Value) : Bool :=
  ((message.get "id").bind parseId).any fun id => outboundKey id == key

omit [JsonText] in
/-- If the message is a success with a list for the method, the source exposes every item of it. -/
def exposedOnly (config : Config) (serverId method : String) (message : Value) : Bool :=
  (message.get "result").all fun result =>
    (listedItems method result).all fun item =>
      (config.getSource serverId).any fun source => itemVisible source.expose (listKeyField method) item

omit [JsonText] in
theorem exposedOnly_iff {config : Config} {serverId method : String} {message : Value} :
    exposedOnly config serverId method message = true ↔
      ∀ result, message.get "result" = some result → ∀ item ∈ listedItems method result,
        ∃ source, config.getSource serverId = some source ∧
          itemVisible source.expose (listKeyField method) item = true := by
  simp only [exposedOnly, Option.all_eq_true, List.all_eq_true, Option.any_eq_true]

/-- A filtered response is the line's message with its list filtered. -/
theorem filterListResponse_some {raw : ByteArray} {method : String} {config : Config} {sourceId : String}
    {response : Value} (h : filterListResponse raw method config sourceId = some response) :
    ∃ fields result filtered, JsonText.parse raw = .ok (.object fields) ∧
      (Value.object fields).get "result" = some result ∧
      filterListResult config sourceId false method result = some filtered ∧
      response = .object (Value.insertField "result" filtered fields) := by
  unfold filterListResponse at h
  split at h
  · rename_i fields hparse
    obtain ⟨result, hresult, hmap⟩ := Option.bind_eq_some_iff.mp h
    obtain ⟨filtered, hfiltered, rfl⟩ := Option.map_eq_some_iff.mp hmap
    exact ⟨fields, result, filtered, hparse, hresult, hfiltered, rfl⟩
  · cases h

/-- A response that is not filtered shows no list. -/
theorem filterListResponse_none {raw : ByteArray} {method : String} {config : Config} {sourceId : String}
    {message : Value} (hlist : isListMethod method = true) (hparse : JsonText.parse raw = .ok message)
    (h : filterListResponse raw method config sourceId = none) : exposedOnly config sourceId method message = true := by
  refine exposedOnly_iff.mpr fun result hresult item hitem => ?_
  have hnone : listedItems method result = [] := by
    cases message with
    | object fields =>
      rw [filterListResponse, hparse] at h
      dsimp only at h
      rw [hresult, Option.bind_some] at h
      exact filterListResult_none hlist (Option.map_eq_none_iff.mp h)
    | _ => cases hresult
  rw [hnone] at hitem
  cases hitem

variable [F64.Fmt]

/-- The line, matched with a request for `matched`, hides what it has to from an agent that asks for `method` under
`key`. -/
def Covered (config : Config) (serverId : String) (raw : ByteArray) (matched : Option String) (key method : String) :
    Prop :=
  ∀ message ∈ lineMessages raw, answers key message = true →
    exposedOnly config serverId method message = true ∨ (matched = some method ∧ JsonText.parse raw = .ok message)

omit [JsonText] [Glob] in
theorem answers_insert_result (key : String) (v : Value) (fields : List (String × Value)) :
    answers key (.object (Value.insertField "result" v fields)) = answers key (.object fields) := by
  have hid : (Value.object (Value.insertField "result" v fields)).get "id" = (Value.object fields).get "id" :=
    Value.get_insertField_ne (by decide) v fields
  unfold answers
  rw [hid]

/-- What is delivered for a covered line shows nothing hidden. -/
theorem deliver_exposedOnly {config : Config} {serverId key method : String} {raw : ByteArray}
    {matched : Option String} (hlist : isListMethod method = true)
    (h : Covered config serverId raw matched key method) {message : Value}
    (hmessage : message ∈ (deliver config serverId raw matched).messages) (hanswers : answers key message = true) :
    exposedOnly config serverId method message = true := by
  cases matched with
  | none =>
    rcases h message hmessage hanswers with hshown | ⟨hmatched, -⟩
    · exact hshown
    · cases hmatched
  | some asked =>
    unfold deliver at hmessage
    dsimp only at hmessage
    split at hmessage
    · rename_i hasked
      cases hresponse : filterListResponse raw asked config serverId with
      | none =>
        rw [hresponse] at hmessage
        rcases h message hmessage hanswers with hshown | ⟨hmatched, hparse⟩
        · exact hshown
        · cases hmatched
          exact filterListResponse_none hlist hparse hresponse
      | some response =>
        rw [hresponse] at hmessage
        cases List.mem_singleton.mp hmessage
        obtain ⟨fields, result, filtered, hparse, hresult, hfiltered, rfl⟩ := filterListResponse_some hresponse
        refine exposedOnly_iff.mpr fun result' hresult' item hitem => ?_
        rw [Value.get_insertField_self] at hresult'
        cases hresult'
        by_cases hsame : method = asked
        · subst hsame
          exact filterListResult_visible hfiltered hitem
        · -- another list was filtered, so the line itself has to be harmless
          rw [filterListResult_other hfiltered hlist hsame] at hitem
          have hline : Value.object fields ∈ lineMessages raw := by
            refine List.mem_append_left _ ?_
            rw [decodedMessages, hparse]
            exact List.mem_singleton_self _
          rw [answers_insert_result] at hanswers
          rcases h _ hline hanswers with hshown | ⟨hmatched, -⟩
          · exact exposedOnly_iff.mp hshown result hresult item hitem
          · cases hmatched
            exact absurd rfl hsame
    · rename_i hasked
      rcases h message hmessage hanswers with hshown | ⟨hmatched, -⟩
      · exact hshown
      · cases hmatched
        exact absurd hlist hasked

end

end Shim

end ThoughtGate
