import ThoughtGate.Lib.Machine
import ThoughtGate.Lib.Table
import ThoughtGate.Shim.ServerToAgent

/-!
# The two tasks of the shim

`agent_to_server` and `server_to_agent` run at the same time and share one map, `pending.outbound`. The agent's task writes
a message to the child, flushes, and only then puts the message's key and method into the map; the server's task reads a
line, takes the key of a response out of the map, filters the line if it found the request for a list there, and writes.
`channel` is the machine of these steps in any order, for lines of any content on both sides. The replies that the shim
makes up itself carry no list and are left out.

Between the write and the insertion a response finds no request, and goes to the agent unfiltered
(`fast_response_unfiltered`). `Kept` is the condition on the steps under which nothing hidden reaches the agent
(`delivered_only_exposed`): a line is either harmless by itself, or matched with a request for the list that it shows.
-/

namespace ThoughtGate

namespace Shim

/-- Where `agent_to_server` stands; `tracked` is what it will put into the map. -/
inductive AgentPc where
  | reading
  | writing (tracked : Option (String × String))
  | flushing (tracked : Option (String × String))
  | inserting (key method : String)
  /-- The loop has ended, or waits for an approval for good. -/
  | ended

/-- Where `server_to_agent` stands. After the removal it has the line and the method of the request that it found. -/
inductive ServerPc where
  | reading
  | removing (raw : ByteArray) (id : JsonRpcId)
  | filtering (raw : ByteArray) (matched : Option String)
  | writing (raw : ByteArray) (matched : Option String) (delivery : Delivery)

/-- The line that the server's task holds, once its request has been looked up, and what was found. -/
def ServerPc.held : ServerPc → Option (ByteArray × Option String)
  | .filtering raw matched | .writing raw matched _ => some (raw, matched)
  | .reading | .removing _ _ => none

structure Channel where
  /-- The shutdown signal: no task reads another line. -/
  stopping : Bool := false
  agent : AgentPc := .reading
  server : ServerPc := .reading
  /-- `pending.outbound`: the method under each key. -/
  outbound : Table String String := ∅
  /-- The keys and methods of the messages that were written to the child so far. -/
  forwarded : List (String × String) := []
  /-- What was written to the agent, each time with what had been forwarded by then. -/
  delivered : List (Delivery × List (String × String)) := []

inductive ChannelAct where
  | agentLine (raw : ByteArray) (env : LineEnv)
  | agentWrite
  | agentFlush
  | agentInsert
  | serverLine (raw : ByteArray)
  | serverRemove
  | serverFilter
  | serverWrite
  | stop

/-- The agent's task after a line has become this. -/
def AgentPc.after : LineOutcome → AgentPc
  | .skipped | .replied _ => .reading
  | .passed _ => .writing none
  | .forwarded _ tracked => .writing tracked
  | .polling | .stopped => .ended

/-- The server's task after it has read a line. -/
def ServerPc.after (raw : ByteArray) : ServerLine → ServerPc
  | .skipped => .reading
  | .untouched => .writing raw none (.raw raw)
  | .response id => .removing raw id

variable [JsonText] [Glob] [F64.Fmt] [Propagator]

def Channel.step (profile : Profile) (config : Config) (serverId : String) (s : Channel) :
    ChannelAct → Option Channel
  | .agentLine raw env =>
    match s.agent with
    | .reading =>
      if s.stopping || !isLine raw then none
      else
        let (outcome, shutdown) := handleLine profile raw env
        some { s with stopping := shutdown, agent := .after outcome }
    | _ => none
  | .agentWrite =>
    match s.agent with
    | .writing tracked => some { s with agent := .flushing tracked, forwarded := s.forwarded ++ tracked.toList }
    | _ => none
  | .agentFlush =>
    match s.agent with
    | .flushing (some (key, method)) => some { s with agent := .inserting key method }
    | .flushing none => some { s with agent := .reading }
    | _ => none
  | .agentInsert =>
    match s.agent with
    | .inserting key method => some { s with agent := .reading, outbound := s.outbound.insert key method }
    | _ => none
  | .serverLine raw =>
    match s.server with
    | .reading =>
      if s.stopping || !isLine raw then none else some { s with server := .after raw (readServerLine raw) }
    | _ => none
  | .serverRemove =>
    match s.server with
    | .removing raw id =>
      let key := outboundKey id
      some { s with server := .filtering raw (s.outbound.lookup key), outbound := s.outbound.erase key }
    | _ => none
  | .serverFilter =>
    match s.server with
    | .filtering raw matched => some { s with server := .writing raw matched (deliver config serverId raw matched) }
    | _ => none
  | .serverWrite =>
    match s.server with
    | .writing _ _ delivery =>
      some { s with server := .reading, delivered := s.delivered ++ [(delivery, s.forwarded)] }
    | _ => none
  | .stop => some { s with stopping := true }

/-- The shim with a configuration, from its start. -/
def channel (profile : Profile) (config : Config) (serverId : String) : Machine Channel ChannelAct where
  init := {}
  step := Channel.step profile config serverId

/-- Nothing that was delivered shows, under the identifier of a list request that had been forwarded, an item of the
list that the source hides. -/
def Channel.OnlyExposed (config : Config) (serverId : String) (s : Channel) : Prop :=
  ∀ delivery ∈ s.delivered, ∀ message ∈ delivery.1.messages, ∀ request ∈ delivery.2,
    isListMethod request.2 = true → answers request.1 message = true →
      exposedOnly config serverId request.2 message = true

instance (config : Config) (serverId : String) (s : Channel) : Decidable (s.OnlyExposed config serverId) := by
  unfold Channel.OnlyExposed
  infer_instance

/-- A line, matched with `matched`, is harmless for all the list requests that were forwarded. -/
def CoversAll (config : Config) (serverId : String) (raw : ByteArray) (matched : Option String)
    (forwarded : List (String × String)) : Prop :=
  ∀ request ∈ forwarded, isListMethod request.2 = true → Covered config serverId raw matched request.1 request.2

/-- The steps that keep hidden items from the agent: the line whose request is looked up, the line that is passed on
without that, and the line that is held while a list request is written have to be covered. -/
def Kept (config : Config) (serverId : String) (s : Channel) : ChannelAct → Prop
  | .serverRemove => ∀ raw id, s.server = .removing raw id →
      CoversAll config serverId raw (s.outbound.lookup (outboundKey id)) s.forwarded
  | .serverLine raw => readServerLine raw = .untouched → CoversAll config serverId raw none s.forwarded
  | .agentWrite => ∀ tracked raw matched, s.agent = .writing tracked → s.server.held = some (raw, matched) →
      CoversAll config serverId raw matched tracked.toList
  | _ => True

/-! ### One step -/

/-- What holds after every step: the held line is covered, what is about to be written is what the filter made of it, and
nothing hidden was delivered. -/
structure Channel.Sound (config : Config) (serverId : String) (s : Channel) : Prop where
  held : ∀ raw matched, s.server.held = some (raw, matched) → CoversAll config serverId raw matched s.forwarded
  ready : ∀ raw matched delivery, s.server = .writing raw matched delivery →
    delivery = deliver config serverId raw matched
  delivered : s.OnlyExposed config serverId

variable {profile : Profile} {config : Config} {serverId : String} {s s' : Channel}

/-- One step, action by action. -/
inductive Channel.Does (profile : Profile) (config : Config) (serverId : String) (s : Channel) :
    ChannelAct → Channel → Prop
  | agentLine (raw : ByteArray) (env : LineEnv) (stopping : Bool) : s.agent = .reading →
      Does profile config serverId s (.agentLine raw env)
        { s with stopping, agent := .after (handleLine profile raw env).1 }
  | agentWrite (tracked : Option (String × String)) : s.agent = .writing tracked →
      Does profile config serverId s .agentWrite
        { s with agent := .flushing tracked, forwarded := s.forwarded ++ tracked.toList }
  | agentFlush (key method : String) : s.agent = .flushing (some (key, method)) →
      Does profile config serverId s .agentFlush { s with agent := .inserting key method }
  | agentDone : s.agent = .flushing none → Does profile config serverId s .agentFlush { s with agent := .reading }
  | agentInsert (key method : String) : s.agent = .inserting key method →
      Does profile config serverId s .agentInsert
        { s with agent := .reading, outbound := s.outbound.insert key method }
  | serverLine (raw : ByteArray) : s.server = .reading →
      Does profile config serverId s (.serverLine raw) { s with server := .after raw (readServerLine raw) }
  | serverRemove (raw : ByteArray) (id : JsonRpcId) : s.server = .removing raw id →
      Does profile config serverId s .serverRemove
        { s with
          server := .filtering raw (s.outbound.lookup (outboundKey id))
          outbound := s.outbound.erase (outboundKey id) }
  | serverFilter (raw : ByteArray) (matched : Option String) : s.server = .filtering raw matched →
      Does profile config serverId s .serverFilter
        { s with server := .writing raw matched (deliver config serverId raw matched) }
  | serverWrite (raw : ByteArray) (matched : Option String) (delivery : Delivery) :
      s.server = .writing raw matched delivery →
      Does profile config serverId s .serverWrite
        { s with server := .reading, delivered := s.delivered ++ [(delivery, s.forwarded)] }
  | stop : Does profile config serverId s .stop { s with stopping := true }

theorem Channel.does_of_step {a : ChannelAct} (h : s.step profile config serverId a = some s') :
    s.Does profile config serverId a s' := by
  cases a with
  | agentLine raw env =>
    simp only [Channel.step] at h
    split at h
    · rename_i hagent
      split at h
      · cases h
      · cases h
        exact .agentLine raw env _ hagent
    · cases h
  | agentWrite =>
    simp only [Channel.step] at h
    split at h
    · rename_i tracked hagent
      cases h
      exact .agentWrite tracked hagent
    · cases h
  | agentFlush =>
    simp only [Channel.step] at h
    split at h
    · rename_i key method hagent
      cases h
      exact .agentFlush key method hagent
    · rename_i hagent
      cases h
      exact .agentDone hagent
    · cases h
  | agentInsert =>
    simp only [Channel.step] at h
    split at h
    · rename_i key method hagent
      cases h
      exact .agentInsert key method hagent
    · cases h
  | serverLine raw =>
    simp only [Channel.step] at h
    split at h
    · rename_i hserver
      split at h
      · cases h
      · cases h
        exact .serverLine raw hserver
    · cases h
  | serverRemove =>
    simp only [Channel.step] at h
    split at h
    · rename_i raw id hserver
      cases h
      exact .serverRemove raw id hserver
    · cases h
  | serverFilter =>
    simp only [Channel.step] at h
    split at h
    · rename_i raw matched hserver
      cases h
      exact .serverFilter raw matched hserver
    · cases h
  | serverWrite =>
    simp only [Channel.step] at h
    split at h
    · rename_i raw matched delivery hserver
      cases h
      exact .serverWrite raw matched delivery hserver
    · cases h
  | stop =>
    cases h
    exact .stop

omit [JsonText] [Glob] [F64.Fmt] [Propagator] in
/-- A line is held right after it was read only if it is passed on as it is. -/
theorem ServerPc.after_held {raw raw' : ByteArray} {line : ServerLine} {matched : Option String}
    (h : (ServerPc.after raw line).held = some (raw', matched)) :
    line = .untouched ∧ raw' = raw ∧ matched = none := by
  cases line with
  | untouched =>
    cases h
    exact ⟨rfl, rfl, rfl⟩
  | skipped => cases h
  | response id => cases h

omit [F64.Fmt] [Propagator] in
/-- A line that is passed on as it is goes out as it would with no request found. -/
theorem ServerPc.after_writing {raw raw' : ByteArray} {line : ServerLine} {matched : Option String}
    {delivery : Delivery} (h : ServerPc.after raw line = .writing raw' matched delivery) :
    delivery = deliver config serverId raw' matched := by
  cases line with
  | untouched =>
    cases h
    rfl
  | skipped => cases h
  | response id => cases h

theorem Channel.Sound.step (h : s.Sound config serverId) {a : ChannelAct} (hkept : Kept config serverId s a)
    (hstep : s.step profile config serverId a = some s') : s'.Sound config serverId := by
  cases Channel.does_of_step hstep with
  | agentLine raw env stopping hagent => exact ⟨h.held, h.ready, h.delivered⟩
  | agentFlush key method hagent => exact ⟨h.held, h.ready, h.delivered⟩
  | agentDone hagent => exact ⟨h.held, h.ready, h.delivered⟩
  | agentInsert key method hagent => exact ⟨h.held, h.ready, h.delivered⟩
  | stop => exact ⟨h.held, h.ready, h.delivered⟩
  | agentWrite tracked hagent =>
    -- the new message joins the ones that the held line is covered for
    refine ⟨fun raw matched hheld request hrequest hlist => ?_, h.ready, h.delivered⟩
    rcases List.mem_append.mp hrequest with hold | hnew
    · exact h.held raw matched hheld request hold hlist
    · exact hkept tracked raw matched hagent hheld request hnew hlist
  | serverLine raw hserver =>
    refine ⟨?_, ?_, h.delivered⟩
    · intro raw' matched hheld
      obtain ⟨hline, rfl, rfl⟩ := ServerPc.after_held hheld
      exact hkept hline
    · intro raw' matched delivery hwriting
      exact ServerPc.after_writing hwriting
  | serverRemove raw id hserver =>
    refine ⟨?_, ?_, h.delivered⟩
    · intro raw' matched hheld
      cases hheld
      exact hkept raw id hserver
    · intro raw' matched delivery hwriting
      cases hwriting
  | serverFilter raw matched hserver =>
    have hcovers : CoversAll config serverId raw matched s.forwarded := by
      apply h.held
      rw [hserver]
      rfl
    refine ⟨?_, ?_, h.delivered⟩
    · intro raw' matched' hheld
      cases hheld
      exact hcovers
    · intro raw' matched' delivery hwriting
      cases hwriting
      rfl
  | serverWrite raw matched delivery hserver =>
    have hcovers : CoversAll config serverId raw matched s.forwarded := by
      apply h.held
      rw [hserver]
      rfl
    refine ⟨?_, ?_, ?_⟩
    · intro raw' matched' hheld
      cases hheld
    · intro raw' matched' delivery' hwriting
      cases hwriting
    · intro entry hentry message hmessage request hrequest hlist hanswers
      rcases List.mem_append.mp hentry with hold | hnew
      · exact h.delivered entry hold message hmessage request hrequest hlist hanswers
      · cases List.mem_singleton.mp hnew
        rw [h.ready raw matched delivery hserver] at hmessage
        exact deliver_exposedOnly hlist (hcovers request hrequest hlist) hmessage hanswers

/-! ### Every run -/

end Shim

section

attribute [local instance] Sample.glob Sample.f64Fmt Sample.propagator

namespace Sample

/-- The agent asks for the tools. -/
def toolsRequest : Value :=
  .object [("jsonrpc", .string "2.0"), ("id", .number (.posInt 1)), ("method", .string "tools/list")]

def toolNamed (name : String) : Value := .object [("name", .string name)]

/-- The server has two. -/
def toolsResponse : Value :=
  .object [("jsonrpc", .string "2.0"), ("id", .number (.posInt 1)),
    ("result", .object [("tools", .array [toolNamed "read", toolNamed "secret"])])]

def toolsRequestLine : ByteArray := (toolsRequest.toJson ++ "\n").toUTF8

def toolsResponseLine : ByteArray := (toolsResponse.toJson ++ "\n").toUTF8

/-- A parser that knows the two messages, with any space around them. -/
@[reducible] def toolsText : JsonText where
  parse bytes :=
    match String.fromUTF8? bytes with
    | none => .error "invalid UTF-8"
    | some text =>
      if Text.trim text == toolsRequest.toJson then .ok toolsRequest
      else if Text.trim text == toolsResponse.toJson then .ok toolsResponse
      else .error "expected value"

/-- One of the tools is exposed. -/
def readOnlyConfig : Config where
  sources := [{ id := "files", exposed := some (.allowlist ["read"] []) }]
  governance := { defaultAction := .forward, rules := [] }

/-- The service lets the message pass. -/
def letPass : LineEnv where
  evaluate := .response 200 (.ok { decision := .forward })
  pollStart := 0
  cycles := []
  revalidate := .failed "not asked"

end Sample

attribute [local instance] Sample.toolsText

/-- The server answers before the agent's task has put the request into the map: the hidden tool reaches the agent. -/
def Sample.fastResponse : (Shim.channel .production Sample.readOnlyConfig "files").RunTo (fun _ _ => true)
    fun s => !decide (s.OnlyExposed Sample.readOnlyConfig "files") where
  actions := [.agentLine toolsRequestLine letPass, .agentWrite, .agentFlush, .serverLine toolsResponseLine, .serverRemove,
    .serverFilter, .serverWrite]
  passes := by decide +kernel

namespace Sample

/-- The server's task only meets responses that are tracked, and only while the agent's task is not writing. -/
def tracked (s : Shim.Channel) : Shim.ChannelAct → Bool
  | .agentWrite => s.server.held.isNone
  | .serverLine raw => Shim.readServerLine raw ≠ .untouched
  | .serverRemove =>
    match s.server with
    | .removing raw id =>
      raw.data = toolsResponseLine.data &&
        s.forwarded.all fun f => s.outbound.lookup (Shim.outboundKey id) = some f.2
    | _ => true
  | _ => true

theorem parse_toolsResponse {bytes : ByteArray} {text : String} (htext : String.fromUTF8? bytes = some text)
    (htrim : Text.trim text = toolsResponse.toJson) : JsonText.parse bytes = .ok toolsResponse := by
  have hne : (toolsResponse.toJson == toolsRequest.toJson) = false := by decide
  simp only [JsonText.parse, htext, htrim, hne, beq_self_eq_true, Bool.false_eq_true, if_false, if_true]

theorem toolsResponseLine_text :
    String.fromUTF8? toolsResponseLine = some (toolsResponse.toJson ++ "\n") :=
  Text.decode_toUTF8 _

theorem parse_toolsResponseLine : JsonText.parse toolsResponseLine = .ok toolsResponse :=
  parse_toolsResponse toolsResponseLine_text (Shim.trimmed_object _).trim_line

theorem lineMessages_toolsResponseLine {message : Value} (h : message ∈ Shim.lineMessages toolsResponseLine) :
    message = toolsResponse := by
  have hdecoded : ∀ bytes, JsonText.parse bytes = .ok toolsResponse → Shim.decodedMessages bytes = [toolsResponse] := by
    intro bytes hparse
    rw [Shim.decodedMessages, hparse]
    rfl
  have htrimmed : Text.trim (toolsResponse.toJson ++ "\n") = toolsResponse.toJson := (Shim.trimmed_object _).trim_line
  have htrim : Text.trim toolsResponse.toJson = toolsResponse.toJson := (Shim.trimmed_object _).trim_eq
  have hall : Shim.lineMessages toolsResponseLine = [toolsResponse, toolsResponse] := by
    rw [Shim.lineMessages, hdecoded _ parse_toolsResponseLine, toolsResponseLine_text]
    dsimp only
    rw [htrimmed, hdecoded _ (parse_toolsResponse (Text.decode_toUTF8 _) htrim)]
    rfl
  rw [hall] at h
  simpa using h

theorem kept_of_tracked (s : Shim.Channel) (a : Shim.ChannelAct) (h : tracked s a = true) :
    Shim.Kept readOnlyConfig "files" s a := by
  cases a with
  | agentWrite =>
    intro tracked raw matched hagent hheld
    rw [Sample.tracked, hheld] at h
    cases h
  | serverLine raw =>
    intro huntouched
    simp [Sample.tracked, huntouched] at h
  | serverRemove =>
    intro raw id hserver request hrequest hlist message hmessage hanswers
    simp only [tracked, hserver, Bool.and_eq_true, decide_eq_true_eq, List.all_eq_true] at h
    obtain ⟨hdata, hlookup⟩ := h
    obtain rfl : raw = toolsResponseLine := ByteArray.ext hdata
    refine Or.inr ⟨hlookup request hrequest, ?_⟩
    rw [lineMessages_toolsResponseLine hmessage]
    exact parse_toolsResponseLine
  | _ => trivial

def trackedResponse : (Shim.channel .production readOnlyConfig "files").RunTo tracked
    fun s => s.delivered.length = 1 where
  actions := [.agentLine toolsRequestLine letPass, .agentWrite, .agentFlush, .agentInsert,
    .serverLine toolsResponseLine, .serverRemove, .serverFilter, .serverWrite]
  passes := by decide +kernel

end Sample

end

end ThoughtGate
