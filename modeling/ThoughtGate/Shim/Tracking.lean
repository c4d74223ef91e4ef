import ThoughtGate.Base.Literal
import ThoughtGate.Shim.Channel

/-!
# Requests that wait for an answer

`PendingRequests` of `shim/proxy/helpers.rs` has a map for each direction: `outbound` for the agent's requests that wait for
the server, `inbound` for the server's requests that wait for the agent. `tracking` is the machine of `Shim/Channel` with
`pending.inbound` put in, beside a record of the requests that are really open: a request is open from the moment in which
its line has reached the other side until its answer has. A step is possible if both parties keep to the protocol (`fits`):
no identifier is used for two open requests of one party, and only an open request is answered, once.

The maps go wrong in three ways: a request that passes through is written and not tracked; an answer of the agent is
written, and is tracked as if it were a request, while the request that it answers stays in `inbound` for good; and an
answer of the server is looked up before its request is in the map. `Tracking.tracks` is a step that is none of these.
-/

namespace ThoughtGate

namespace Shim

/-- The key and method that `agent_to_server` puts into the map for a written line, or `none`, while it has not. -/
def AgentPc.pendingKey : AgentPc → Option String
  | .flushing tracked => tracked.map Prod.fst
  | .inserting key _ => some key
  | .reading | .writing _ | .ended => none

/-- No line is being handled. -/
def AgentPc.idle : AgentPc → Bool
  | .reading | .ended => true
  | .writing _ | .flushing _ | .inserting _ _ => false

def ServerPc.idle : ServerPc → Bool
  | .reading => true
  | .removing _ _ | .filtering _ _ | .writing _ _ _ => false

theorem AgentPc.pendingKey_of_idle {pc : AgentPc} (h : pc.idle = true) : pc.pendingKey = none := by
  cases pc with
  | reading => rfl
  | ended => rfl
  | writing tracked => cases h
  | flushing tracked => cases h
  | inserting key method => cases h

theorem ServerPc.eq_reading_of_idle {pc : ServerPc} (h : pc.idle = true) : pc = .reading := by
  cases pc with
  | reading => rfl
  | removing raw id => cases h
  | filtering raw matched => cases h
  | writing raw matched delivery => cases h

theorem pendingKey_after (outcome : LineOutcome) : (AgentPc.after outcome).pendingKey = none := by
  cases outcome <;> rfl

/-- The request whose answer has been looked up and not yet delivered. -/
def ServerPc.lookedUp : ServerPc → Option JsonRpcMessageKind → Option JsonRpcId
  | .filtering _ _, some (.response id) | .writing _ _ _, some (.response id) => some id
  | _, _ => none

/-- The request of the server that is in the map and not yet delivered. -/
def ServerPc.delivering : ServerPc → Option JsonRpcMessageKind → Option JsonRpcId
  | .writing _ _ _, some (.request id _) => some id
  | _, _ => none

@[simp] theorem ServerPc.lookedUp_reading (kind : Option JsonRpcMessageKind) :
    ServerPc.reading.lookedUp kind = none := rfl

@[simp] theorem ServerPc.delivering_reading (kind : Option JsonRpcMessageKind) :
    ServerPc.reading.delivering kind = none := rfl

theorem ServerPc.after_of_not_response {line : ServerLine} (raw : ByteArray) (h : ∀ id, line ≠ .response id) :
    ServerPc.after raw line = .reading ∨ ServerPc.after raw line = .writing raw none (.raw raw) := by
  cases line with
  | skipped => exact Or.inl rfl
  | untouched => exact Or.inr rfl
  | response id => exact absurd rfl (h id)

theorem ServerPc.lookedUp_eq_none {pc : ServerPc} {kind : Option JsonRpcMessageKind}
    (h : ∀ id, kind ≠ some (.response id)) : pc.lookedUp kind = none := by
  unfold ServerPc.lookedUp
  split
  · exact absurd rfl (h _)
  · exact absurd rfl (h _)
  · rfl

theorem ServerPc.delivering_eq_none {pc : ServerPc} {kind : Option JsonRpcMessageKind}
    (h : ∀ id method, kind ≠ some (.request id method)) : pc.delivering kind = none := by
  unfold ServerPc.delivering
  split
  · exact absurd rfl (h _ _)
  · rfl

/-- The shim with both maps, and the requests that are open. -/
structure Tracking where
  channel : Channel := {}
  /-- `pending.inbound`: the method under each key. -/
  inbound : Table String String := ∅
  /-- The message that `agent_to_server` handles. -/
  agentMessage : Option JsonRpcMessageKind := none
  /-- The message that `server_to_agent` handles. -/
  serverMessage : Option JsonRpcMessageKind := none
  /-- The agent's requests that were written to the server and have no answer. -/
  agentRequests : List JsonRpcId := []
  /-- The server's requests that were delivered to the agent and have no answer. -/
  serverRequests : List JsonRpcId := []

/-- A message that keeps to the protocol, for the open requests of its sender and of the other side. -/
def fits (own other : List JsonRpcId) : Option JsonRpcMessageKind → Bool
  | some (.request id _) => id ∉ own
  | some (.response id) => id ∈ other
  | some (.notification _) | none => true

/-- The open requests of the sender, after the message has reached the other side. -/
def opening (own : List JsonRpcId) : Option JsonRpcMessageKind → List JsonRpcId
  | some (.request id _) => id :: own
  | some (.response _) | some (.notification _) | none => own

/-- The open requests of the other side, after the message has reached it. -/
def closing (other : List JsonRpcId) : Option JsonRpcMessageKind → List JsonRpcId
  | some (.response id) => other.erase id
  | some (.request _ _) | some (.notification _) | none => other

theorem mem_opening {own : List JsonRpcId} {kind : Option JsonRpcMessageKind} {id : JsonRpcId} (h : id ∈ own) :
    id ∈ opening own kind := by
  unfold opening
  split
  · exact List.mem_cons_of_mem _ h
  · exact h
  · exact h
  · exact h

theorem mem_of_mem_closing {other : List JsonRpcId} {kind : Option JsonRpcMessageKind} {id : JsonRpcId}
    (h : id ∈ closing other kind) : id ∈ other := by
  unfold closing at h
  split at h
  · exact List.mem_of_mem_erase h
  · exact h
  · exact h
  · exact h

section

variable [JsonText]

/-- The message of a line of the server, if it is one. -/
def readServerMessage (raw : ByteArray) : Option JsonRpcMessageKind :=
  if maxMessageBytes < raw.size then none
  else
    match String.fromUTF8? raw with
    | none => none
    | some buf =>
      if (Text.trim buf).isEmpty then none
      else
        match parseStdioMessage buf with
        | .error _ => none
        | .ok msg => some msg.kind

/-- A response is what is correlated; every other message is passed on as it is. -/
theorem readServerLine_cases (raw : ByteArray) :
    (∃ id, readServerMessage raw = some (.response id) ∧ readServerLine raw = .response id) ∨
      (∃ id method, readServerMessage raw = some (.request id method) ∧ readServerLine raw = .untouched) ∨
      ((∀ id, readServerMessage raw ≠ some (.response id)) ∧
        (∀ id method, readServerMessage raw ≠ some (.request id method)) ∧
        ∀ id, readServerLine raw ≠ .response id) := by
  unfold readServerMessage readServerLine
  split_ifs
  · exact Or.inr (Or.inr ⟨by simp, by simp, by simp⟩)
  · cases String.fromUTF8? raw with
    | none => exact Or.inr (Or.inr ⟨by simp, by simp, by simp⟩)
    | some buf =>
      dsimp only
      split_ifs
      · exact Or.inr (Or.inr ⟨by simp, by simp, by simp⟩)
      · cases parseStdioMessage buf with
        | error e => exact Or.inr (Or.inr ⟨by simp, by simp, by simp⟩)
        | ok msg =>
          dsimp only
          cases msg.kind with
          | response id => exact Or.inl ⟨id, rfl, rfl⟩
          | request id method => exact Or.inr (Or.inl ⟨id, method, rfl, rfl⟩)
          | notification method => exact Or.inr (Or.inr ⟨by simp, by simp, by simp⟩)

end

section

variable [JsonText] [Glob] [F64.Fmt] [Propagator]

/-- `pending.inbound` after a message of the server. -/
def trackInbound (inbound : Table String String) : Option JsonRpcMessageKind → Table String String
  | some (.request id method) => inbound.insert (outboundKey id) method
  | some (.response _) | some (.notification _) | none => inbound

/-- What a step of the channel does to the rest. -/
def Tracking.follow (profile : Profile) (s : Tracking) (channel : Channel) : ChannelAct → Tracking
  | .agentLine raw _ => { s with channel, agentMessage := (readMessage profile raw).map (·.kind) }
  | .agentWrite =>
    { s with
      channel
      agentRequests := opening s.agentRequests s.agentMessage
      serverRequests := closing s.serverRequests s.agentMessage }
  | .serverLine raw =>
    { s with
      channel
      serverMessage := readServerMessage raw
      inbound := trackInbound s.inbound (readServerMessage raw) }
  | .serverWrite =>
    { s with
      channel
      serverRequests := opening s.serverRequests s.serverMessage
      agentRequests := closing s.agentRequests s.serverMessage }
  | .agentFlush | .agentInsert | .serverRemove | .serverFilter | .stop => { s with channel }

omit [Glob] [Propagator] in
@[simp] theorem Tracking.follow_channel (profile : Profile) (s : Tracking) (channel : Channel) (a : ChannelAct) :
    (s.follow profile channel a).channel = channel := by
  cases a <;> rfl

/-- The parties keep to the protocol. -/
def Tracking.permits (s : Tracking) : ChannelAct → Bool
  | .agentWrite => fits s.agentRequests s.serverRequests s.agentMessage
  | .serverLine raw => fits s.serverRequests s.agentRequests (readServerMessage raw)
  | _ => true

def Tracking.step (profile : Profile) (config : Config) (serverId : String) (s : Tracking) (a : ChannelAct) :
    Option Tracking :=
  if s.permits a then (s.channel.step profile config serverId a).map fun channel => s.follow profile channel a else none

/-- The shim with its maps, from its start. -/
def tracking (profile : Profile) (config : Config) (serverId : String) : Machine Tracking ChannelAct where
  init := {}
  step := Tracking.step profile config serverId

/-- Every line that was read has been handled. -/
def Tracking.Settled (s : Tracking) : Prop := s.channel.agent.idle = true ∧ s.channel.server.idle = true

instance (s : Tracking) : Decidable s.Settled := inferInstanceAs (Decidable (_ ∧ _))

/-- Each map has the keys of the open requests and no others. -/
structure Tracking.Exact (s : Tracking) : Prop where
  outbound : ∀ key, key ∈ s.channel.outbound ↔ ∃ id ∈ s.agentRequests, outboundKey id = key
  inbound : ∀ key, key ∈ s.inbound ↔ ∃ id ∈ s.serverRequests, outboundKey id = key

/-- A step that is none of these: a request that passes through, or an answer, is written to the server; an answer of the
server is looked up while the agent's task has its request written and not yet put into the map. -/
def Tracking.tracks (s : Tracking) : ChannelAct → Bool
  | .agentWrite =>
    match s.agentMessage with
    | some (.request _ method) => !isPassthrough method
    | some (.response _) => false
    | some (.notification _) | none => true
  | .serverRemove =>
    match s.channel.server with
    | .removing _ id => s.channel.agent.pendingKey ≠ some (outboundKey id)
    | .reading | .filtering _ _ | .writing _ _ _ => true
  | _ => true

end

section

variable [F64.Fmt]

/-! ### The keys -/

theorem outboundKey_number (n : Int) : outboundKey (.number n) = toString n := by
  show (Value.number (if 0 ≤ n then .posInt n.toNat else .negInt n)).toJson = toString n
  by_cases hn : 0 ≤ n
  · obtain ⟨m, rfl⟩ := Int.eq_ofNat_of_zero_le hn
    rw [if_pos hn]
    rfl
  · rw [if_neg hn]
    rfl

/-- No two identifiers share a key. -/
theorem outboundKey_injective : Function.Injective outboundKey := by
  have hquote : ∀ text : String, '"' ∈ (Value.quote text).toList := by
    intro text
    rw [Value.toList_quote]
    exact List.mem_cons_self
  have hstring : ∀ (n : Int) (text : String), toString n ≠ Value.quote text := by
    intro n text heq
    have hmem := hquote text
    rw [← heq] at hmem
    rcases Value.mem_toString_int hmem with hdigit | hsign
    · cases hdigit
    · cases hsign
  have hnull : ∀ n : Int, toString n ≠ "null" := by
    intro n heq
    have hmem : 'n' ∈ (toString n).toList := by
      rw [heq]
      decide
    rcases Value.mem_toString_int hmem with hdigit | hsign
    · cases hdigit
    · cases hsign
  have hword : ∀ text : String, Value.quote text ≠ "null" := by
    intro text heq
    have hmem := hquote text
    rw [heq] at hmem
    revert hmem
    decide
  intro a b h
  cases a with
  | number m =>
    rw [outboundKey_number] at h
    cases b with
    | number n =>
      rw [outboundKey_number] at h
      rw [Value.toString_int_injective h]
    | string t => exact absurd h (hstring m t)
    | null => exact absurd h (hnull m)
  | string s =>
    cases b with
    | number n =>
      rw [outboundKey_number] at h
      exact absurd h.symm (hstring n s)
    | string t => rw [Value.quote_injective h]
    | null => exact absurd h (hword s)
  | null =>
    cases b with
    | number n =>
      rw [outboundKey_number] at h
      exact absurd h.symm (hnull n)
    | string t => exact absurd h.symm (hword t)
    | null => rfl

/-! ### What the tasks hold -/

/-- The key and method that are put into the map once a message is written. -/
def trackedFor (kind : JsonRpcMessageKind) : Option (String × String) :=
  if isPassthrough kind.method then none else kind.id.map fun id => (outboundKey id, kind.method)

theorem trackInbound_of_not_request {inbound : Table String String} {kind : Option JsonRpcMessageKind}
    (h : ∀ id method, kind ≠ some (.request id method)) : trackInbound inbound kind = inbound := by
  unfold trackInbound
  split
  · exact absurd rfl (h _ _)
  · rfl
  · rfl
  · rfl

/-- What a task holds agrees with the message that it handles, and the other party kept to the protocol with it. -/
structure Tracking.Handling (s : Tracking) : Prop where
  writing : ∀ tracked, s.channel.agent = .writing tracked →
    ∃ kind, s.agentMessage = some kind ∧ tracked = trackedFor kind
  removing : ∀ raw id, s.channel.server = .removing raw id → s.serverMessage = some (.response id)
  filtering : ∀ raw matched, s.channel.server = .filtering raw matched → ∃ id, s.serverMessage = some (.response id)
  answers : ∀ id, s.channel.server.idle = false → s.serverMessage = some (.response id) → id ∈ s.agentRequests
  asks : ∀ id method, s.channel.server.idle = false → s.serverMessage = some (.request id method) →
    id ∉ s.serverRequests

variable {s : Tracking}

/-- The answer that was looked up is an answer to an open request. -/
theorem Tracking.Handling.mem_of_lookedUp (h : s.Handling) {id : JsonRpcId}
    (hid : s.channel.server.lookedUp s.serverMessage = some id) : id ∈ s.agentRequests := by
  unfold ServerPc.lookedUp at hid
  split at hid
  · rename_i hserver hmessage
    cases hid
    exact h.answers id (by rw [hserver]; rfl) hmessage
  · rename_i hserver hmessage
    cases hid
    exact h.answers id (by rw [hserver]; rfl) hmessage
  · cases hid

/-- The agent's task goes on, to something else than a write. -/
theorem Tracking.Handling.agent (h : s.Handling) {pc : AgentPc} (outbound : Table String String)
    (hpc : ∀ tracked, pc ≠ .writing tracked) :
    ({ s with channel := { s.channel with agent := pc, outbound } } : Tracking).Handling := by
  refine ⟨?_, h.removing, h.filtering, h.answers, h.asks⟩
  intro tracked hwriting
  exact absurd hwriting (hpc tracked)

/-- The server's task goes on with the message that it has. -/
theorem Tracking.Handling.server (h : s.Handling) {pc : ServerPc} (outbound : Table String String)
    (hbusy : s.channel.server.idle = false) (hremoving : ∀ raw id, pc ≠ .removing raw id)
    (hfiltering : ∀ raw matched, pc = .filtering raw matched → ∃ id, s.serverMessage = some (.response id)) :
    ({ s with channel := { s.channel with server := pc, outbound } } : Tracking).Handling := by
  refine ⟨h.writing, ?_, hfiltering, ?_, ?_⟩
  · intro raw id hserver
    exact absurd hserver (hremoving raw id)
  · intro id _ hmessage
    exact h.answers id hbusy hmessage
  · intro id method _ hmessage
    exact h.asks id method hbusy hmessage

end

/-! ### What a step does -/

section

variable [JsonText] [F64.Fmt] [Propagator]

omit [JsonText] in
theorem awaitApproval_writing {profile : Profile} {raw : ByteArray} {msg : StdioMessage} {env : LineEnv}
    {response : EvaluateResponse} {tracked : Option (String × String)}
    (h : AgentPc.after (awaitApproval profile raw msg env response) = .writing tracked) :
    tracked = msg.kind.id.map fun id => (outboundKey id, msg.kind.method) := by
  unfold awaitApproval at h
  split at h
  · cases h
  · dsimp only at h
    split at h
    · cases h
    · split at h
      · cases h
        rfl
      · cases h
    all_goals cases h

/-- A line that is going to be written is a message, and it is tracked unless it passes through. -/
theorem handleLine_writing {profile : Profile} {raw : ByteArray} {env : LineEnv} {tracked : Option (String × String)}
    (h : AgentPc.after (handleLine profile raw env).1 = .writing tracked) :
    ∃ msg, readMessage profile raw = some msg ∧ tracked = trackedFor msg.kind := by
  unfold handleLine at h
  split at h
  · cases h
  · rename_i msg hread
    refine ⟨msg, hread, ?_⟩
    unfold handleMessage at h
    unfold trackedFor
    split at h
    · rename_i hpass
      cases h
      rw [if_pos hpass]
    · rename_i hpass
      rw [if_neg hpass]
      split at h
      · cases h
      · split at h
        · cases h
          rfl
        · cases h
        · exact awaitApproval_writing h

end

variable [JsonText] [Glob] [F64.Fmt] [Propagator]

variable {profile : Profile} {config : Config} {serverId : String} {s s' : Tracking}

/-- One step: a step of the channel with which the parties keep to the protocol, and what follows from it. -/
inductive Tracking.Does (profile : Profile) (config : Config) (serverId : String) (s : Tracking) (a : ChannelAct) :
    Tracking → Prop
  | intro {channel : Channel} : s.permits a = true → s.channel.Does profile config serverId a channel →
      Does profile config serverId s a (s.follow profile channel a)

theorem Tracking.does_of_step {a : ChannelAct} (h : s.step profile config serverId a = some s') :
    s.Does profile config serverId a s' := by
  unfold Tracking.step at h
  split at h
  · rename_i hpermits
    obtain ⟨channel, hchannel, rfl⟩ := Option.map_eq_some_iff.mp h
    exact ⟨hpermits, Channel.does_of_step hchannel⟩
  · cases h

omit [Glob] [Propagator] in
/-- The server's task takes up a message that keeps to the protocol. -/
theorem Tracking.Handling.serverLine (h : s.Handling) (raw : ByteArray) (inbound : Table String String)
    (hfits : fits s.serverRequests s.agentRequests (readServerMessage raw) = true) :
    ({ s with
        channel := { s.channel with server := .after raw (readServerLine raw) }
        serverMessage := readServerMessage raw
        inbound } : Tracking).Handling := by
  rcases readServerLine_cases raw with ⟨id, hmessage, hline⟩ | ⟨id, method, hmessage, hline⟩ |
    ⟨hresponse, hrequest, hline⟩
  · rw [hmessage, hline]
    rw [hmessage] at hfits
    refine ⟨h.writing, ?_, ?_, ?_, ?_⟩
    · intro raw' id' hremoving
      cases hremoving
      rfl
    · intro raw' matched hfiltering
      cases hfiltering
    · intro id' _ hid'
      cases hid'
      exact of_decide_eq_true hfits
    · intro id' method hidle hid'
      cases hid'
  · rw [hmessage, hline]
    rw [hmessage] at hfits
    refine ⟨h.writing, ?_, ?_, ?_, ?_⟩
    · intro raw' id' hremoving
      cases hremoving
    · intro raw' matched hfiltering
      cases hfiltering
    · intro id' hidle hid'
      cases hid'
    · intro id' method' _ hid'
      cases hid'
      exact of_decide_eq_true hfits
  · refine ⟨h.writing, ?_, ?_, fun id' _ hid' => absurd hid' (hresponse id'),
      fun id' method' _ hid' => absurd hid' (hrequest id' method')⟩
    · intro raw' id' hremoving
      rcases ServerPc.after_of_not_response raw hline with hafter | hafter
      all_goals
        have hremoving' := hafter.symm.trans hremoving
        cases hremoving'
    · intro raw' matched hfiltering
      rcases ServerPc.after_of_not_response raw hline with hafter | hafter
      all_goals
        have hfiltering' := hafter.symm.trans hfiltering
        cases hfiltering'

theorem Tracking.Handling.step (h : s.Handling) {a : ChannelAct} (hstep : s.Does profile config serverId a s') :
    s'.Handling := by
  obtain ⟨hfits, hstep⟩ := hstep
  cases hstep with
  | agentLine raw env stopping hagent =>
    refine ⟨?_, h.removing, h.filtering, h.answers, h.asks⟩
    intro tracked hwriting
    obtain ⟨msg, hread, htracked⟩ := handleLine_writing hwriting
    refine ⟨msg.kind, ?_, htracked⟩
    show (readMessage profile raw).map (·.kind) = some msg.kind
    rw [hread]
    rfl
  | agentWrite tracked hagent =>
    refine ⟨?_, h.removing, h.filtering, ?_, ?_⟩
    · intro tracked' hwriting
      cases hwriting
    · intro id hidle hmessage
      exact mem_opening (h.answers id hidle hmessage)
    · intro id method hidle hmessage hmem
      exact h.asks id method hidle hmessage (mem_of_mem_closing hmem)
  | agentFlush key method hagent => exact h.agent s.channel.outbound (by simp)
  | agentDone hagent => exact h.agent s.channel.outbound (by simp)
  | agentInsert key method hagent => exact h.agent (s.channel.outbound.insert key method) (by simp)
  | serverLine raw hserver => exact h.serverLine raw _ hfits
  | serverRemove raw id hserver =>
    refine h.server (s.channel.outbound.erase (outboundKey id)) (by rw [hserver]; rfl) (by simp) ?_
    intro raw' matched _
    exact ⟨id, h.removing raw id hserver⟩
  | serverFilter raw matched hserver =>
    exact h.server s.channel.outbound (by rw [hserver]; rfl) (by simp) (by simp)
  | serverWrite raw matched delivery hserver =>
    refine ⟨h.writing, ?_, ?_, ?_, ?_⟩
    · intro raw' id' hremoving
      cases hremoving
    · intro raw' matched' hfiltering
      cases hfiltering
    · intro id' hidle
      cases hidle
    · intro id' method' hidle
      cases hidle
  | stop => exact ⟨h.writing, h.removing, h.filtering, h.answers, h.asks⟩

end Shim

end ThoughtGate
