import ThoughtGate.Lib.Requests
import ThoughtGate.Shim.Tracking

/-!
# When the maps of requests are exact

`Tracking.InStep` is how the maps stand to the open requests while lines are being handled, in terms of `Asked` and
`Served`. A step that keeps the maps keeps it; any other leaves an open request untracked, an answered one behind, or an
answer that has overtaken its request (`Tracking.Astray`), and none of these goes away while the lines are handled.
-/

namespace ThoughtGate

namespace Shim

/-! ### Between the steps -/

section

variable [F64.Fmt] {s : Tracking}

/-- Both maps are exact, but for the lines that are being handled. -/
structure Tracking.InStep (s : Tracking) : Prop where
  handling : s.Handling
  outbound : Asked outboundKey s.agentRequests s.channel.outbound s.channel.agent.pendingKey
    (s.channel.server.lookedUp s.serverMessage)
  inbound : Served outboundKey s.serverRequests s.inbound (s.channel.server.delivering s.serverMessage)

theorem Tracking.InStep.init : ({} : Tracking).InStep where
  handling := by
    refine ⟨?_, ?_, ?_, ?_, ?_⟩
    · intro tracked hwriting
      cases hwriting
    · intro raw id hremoving
      cases hremoving
    · intro raw matched hfiltering
      cases hfiltering
    · intro id hidle
      cases hidle
    · intro id method hidle
      cases hidle
  outbound := Asked.empty
  inbound := Served.empty

theorem Tracking.InStep.exact (h : s.InStep) (hsettled : s.Settled) : s.Exact := by
  have hpending := AgentPc.pendingKey_of_idle hsettled.1
  have hserver := ServerPc.eq_reading_of_idle hsettled.2
  have hout := h.outbound
  have hin := h.inbound
  rw [hpending, hserver, ServerPc.lookedUp_reading] at hout
  rw [hserver, ServerPc.delivering_reading] at hin
  exact ⟨hout.mem_iff_open, hin.mem_iff_open⟩

theorem Tracking.InStep.agentWrite (h : s.InStep) {tracked : Option (String × String)}
    (hagent : s.channel.agent = .writing tracked) (htracks : s.tracks .agentWrite = true)
    (hfits : fits s.agentRequests s.serverRequests s.agentMessage = true) :
    Asked outboundKey (opening s.agentRequests s.agentMessage) s.channel.outbound (AgentPc.flushing tracked).pendingKey
        (s.channel.server.lookedUp s.serverMessage) ∧
      Served outboundKey (closing s.serverRequests s.agentMessage) s.inbound
        (s.channel.server.delivering s.serverMessage) := by
  have hpending : s.channel.agent.pendingKey = none := by
    rw [hagent]
    rfl
  have hout := h.outbound
  rw [hpending] at hout
  obtain ⟨kind, hmessage, rfl⟩ := h.handling.writing tracked hagent
  rw [hmessage] at hfits ⊢
  rw [Tracking.tracks, hmessage] at htracks
  cases kind with
  | request id method =>
    have hkey : (AgentPc.flushing (trackedFor (.request id method))).pendingKey = some (outboundKey id) := by
      have hpass : isPassthrough method = false := by simpa using htracks
      unfold trackedFor
      rw [if_neg (by show ¬ isPassthrough method = true; rw [hpass]; decide)]
      rfl
    have hnew : id ∉ s.agentRequests := of_decide_eq_true hfits
    rw [hkey]
    exact ⟨hout.ask outboundKey_injective hnew fun hlooked => hnew (h.handling.mem_of_lookedUp hlooked), h.inbound⟩
  | response id => cases htracks
  | notification method =>
    have hkey : (AgentPc.flushing (trackedFor (.notification method))).pendingKey = none := by
      unfold trackedFor
      split
      · rfl
      · rfl
    rw [hkey]
    exact ⟨hout, h.inbound⟩

theorem Tracking.InStep.serverWrite (h : s.InStep) {raw : ByteArray} {matched : Option String} {delivery : Delivery}
    (hserver : s.channel.server = .writing raw matched delivery) :
    Asked outboundKey (closing s.agentRequests s.serverMessage) s.channel.outbound s.channel.agent.pendingKey none ∧
      Served outboundKey (opening s.serverRequests s.serverMessage) s.inbound none := by
  have hout := h.outbound
  have hin := h.inbound
  have hidle : s.channel.server.idle = false := by
    rw [hserver]
    rfl
  rw [hserver] at hout hin
  cases hmessage : s.serverMessage with
  | none =>
    rw [hmessage] at hout hin
    exact ⟨hout, hin⟩
  | some kind =>
    rw [hmessage] at hout hin
    cases kind with
    | request id method => exact ⟨hout, hin.deliver (h.handling.asks id method hidle hmessage)⟩
    | response id => exact ⟨hout.answer, hin⟩
    | notification method => exact ⟨hout, hin⟩

end

variable [JsonText] [Glob] [F64.Fmt] [Propagator] {profile : Profile} {config : Config} {serverId : String}
  {s s' : Tracking}

/-! ### Steps that keep the maps -/

omit [Glob] [Propagator] in
theorem Tracking.InStep.serverLine (h : s.InStep) (raw : ByteArray) (hserver : s.channel.server = .reading) :
    Asked outboundKey s.agentRequests s.channel.outbound s.channel.agent.pendingKey
        ((ServerPc.after raw (readServerLine raw)).lookedUp (readServerMessage raw)) ∧
      Served outboundKey s.serverRequests (trackInbound s.inbound (readServerMessage raw))
        ((ServerPc.after raw (readServerLine raw)).delivering (readServerMessage raw)) := by
  have hout := h.outbound
  have hin := h.inbound
  rw [hserver, ServerPc.lookedUp_reading] at hout
  rw [hserver, ServerPc.delivering_reading] at hin
  rcases readServerLine_cases raw with ⟨id, hmessage, hline⟩ | ⟨id, method, hmessage, hline⟩ | ⟨hresponse, hrequest, -⟩
  · rw [hmessage, hline]
    exact ⟨hout, hin⟩
  · rw [hmessage, hline]
    exact ⟨hout, hin.insert method⟩
  · rw [ServerPc.lookedUp_eq_none hresponse, ServerPc.delivering_eq_none hrequest, trackInbound_of_not_request hrequest]
    exact ⟨hout, hin⟩

theorem Tracking.InStep.step (h : s.InStep) {a : ChannelAct} (htracks : s.tracks a = true)
    (hstep : s.Does profile config serverId a s') : s'.InStep := by
  have hhandling := h.handling.step hstep
  have hout := h.outbound
  obtain ⟨hfits, hstep⟩ := hstep
  cases hstep with
  | agentLine raw env stopping hagent =>
    rw [hagent] at hout
    refine ⟨hhandling, ?_, h.inbound⟩
    show Asked outboundKey s.agentRequests s.channel.outbound (AgentPc.after (handleLine profile raw env).1).pendingKey _
    rw [pendingKey_after]
    exact hout
  | agentWrite tracked hagent =>
    obtain ⟨houtbound, hinbound⟩ := h.agentWrite hagent htracks hfits
    exact ⟨hhandling, houtbound, hinbound⟩
  | agentFlush key method hagent =>
    rw [hagent] at hout
    exact ⟨hhandling, hout, h.inbound⟩
  | agentDone hagent =>
    rw [hagent] at hout
    exact ⟨hhandling, hout, h.inbound⟩
  | agentInsert key method hagent =>
    rw [hagent] at hout
    exact ⟨hhandling, hout.insert method, h.inbound⟩
  | serverLine raw hserver =>
    obtain ⟨houtbound, hinbound⟩ := h.serverLine raw hserver
    exact ⟨hhandling, houtbound, hinbound⟩
  | serverRemove raw id hserver =>
    have hmessage := h.handling.removing raw id hserver
    have hin := h.inbound
    rw [hserver, hmessage] at hout hin
    rw [Tracking.tracks, hserver] at htracks
    refine ⟨hhandling, ?_, ?_⟩
    · show Asked outboundKey s.agentRequests (s.channel.outbound.erase (outboundKey id)) s.channel.agent.pendingKey
        (ServerPc.lookedUp (.filtering raw _) s.serverMessage)
      rw [hmessage]
      exact hout.remove outboundKey_injective (of_decide_eq_true htracks)
    · show Served outboundKey s.serverRequests s.inbound (ServerPc.delivering (.filtering raw _) s.serverMessage)
      rw [hmessage]
      exact hin
  | serverFilter raw matched hserver =>
    obtain ⟨id, hmessage⟩ := h.handling.filtering raw matched hserver
    have hin := h.inbound
    rw [hserver, hmessage] at hout hin
    refine ⟨hhandling, ?_, ?_⟩
    · show Asked outboundKey s.agentRequests s.channel.outbound s.channel.agent.pendingKey
        (ServerPc.lookedUp (.writing raw matched _) s.serverMessage)
      rw [hmessage]
      exact hout
    · show Served outboundKey s.serverRequests s.inbound (ServerPc.delivering (.writing raw matched _) s.serverMessage)
      rw [hmessage]
      exact hin
  | serverWrite raw matched delivery hserver =>
    obtain ⟨houtbound, hinbound⟩ := h.serverWrite hserver
    exact ⟨hhandling, houtbound, hinbound⟩
  | stop => exact ⟨hhandling, h.outbound, h.inbound⟩

/-! ### Steps that leave them wrong -/

/-- The step reads a line. -/
def ChannelAct.readsLine : ChannelAct → Bool
  | .agentLine _ _ | .serverLine _ => true
  | .agentWrite | .agentFlush | .agentInsert | .serverRemove | .serverFilter | .serverWrite | .stop => false

/-- The open request is not in the map, and is not going to be put into it. -/
structure Tracking.Untracked (s : Tracking) (id : JsonRpcId) : Prop where
  isOpen : id ∈ s.agentRequests
  absent : outboundKey id ∉ s.channel.outbound
  notPending : s.channel.agent.pendingKey ≠ some (outboundKey id)
  unanswered : s.channel.server.idle = false → s.serverMessage ≠ some (.response id)

/-- The request of the server has its answer and stays in the map. -/
structure Tracking.Leftover (s : Tracking) (id : JsonRpcId) : Prop where
  answered : id ∉ s.serverRequests
  present : outboundKey id ∈ s.inbound
  notAsked : s.channel.server.idle = false → ∀ method, s.serverMessage ≠ some (.request id method)

/-- The request of the agent has its answer, or is about to get it, and is in the map or is going to be. -/
structure Tracking.Overtaken (s : Tracking) (id : JsonRpcId) : Prop where
  tracked : outboundKey id ∈ s.channel.outbound ∨ s.channel.agent.pendingKey = some (outboundKey id)
  nodup : s.agentRequests.Nodup
  lookedUp : ∀ raw id', s.channel.server ≠ .removing raw id'
  answered : id ∈ s.agentRequests → s.channel.server.idle = false ∧ s.serverMessage = some (.response id)

variable {a : ChannelAct} {id : JsonRpcId}

theorem Tracking.Untracked.step (h : s.Untracked id) (hagent : ∀ tracked, s.channel.agent ≠ .writing tracked)
    (hline : a.readsLine = false) (hstep : s.Does profile config serverId a s') : s'.Untracked id := by
  have hpending := h.notPending
  have hunanswered := h.unanswered
  obtain ⟨hfits, hstep⟩ := hstep
  cases hstep with
  | agentLine raw env stopping hreading => cases hline
  | agentWrite tracked hwriting => exact absurd hwriting (hagent tracked)
  | agentFlush key method hflushing =>
    rw [hflushing] at hpending
    exact ⟨h.isOpen, h.absent, hpending, h.unanswered⟩
  | agentDone hflushing => exact ⟨h.isOpen, h.absent, by simp [AgentPc.pendingKey], h.unanswered⟩
  | agentInsert key method hinserting =>
    rw [hinserting] at hpending
    refine ⟨h.isOpen, ?_, by simp [AgentPc.pendingKey], h.unanswered⟩
    intro hmem
    rcases (AList.mem_insert _).mp hmem with heq | hold
    · exact hpending (congrArg some heq.symm)
    · exact h.absent hold
  | serverLine raw hreading => cases hline
  | serverRemove raw id' hserver =>
    rw [hserver] at hunanswered
    exact ⟨h.isOpen, fun hmem => h.absent (AList.mem_erase.mp hmem).2, h.notPending, fun _ => hunanswered rfl⟩
  | serverFilter raw matched hserver =>
    rw [hserver] at hunanswered
    exact ⟨h.isOpen, h.absent, h.notPending, fun _ => hunanswered rfl⟩
  | serverWrite raw matched delivery hserver =>
    rw [hserver] at hunanswered
    refine ⟨?_, h.absent, h.notPending, by simp [ServerPc.idle]⟩
    show id ∈ closing s.agentRequests s.serverMessage
    unfold closing
    split
    · rename_i id' hmessage
      have hne : id ≠ id' := fun heq => hunanswered rfl (heq ▸ hmessage)
      exact (List.mem_erase_of_ne hne).mpr h.isOpen
    all_goals exact h.isOpen
  | stop => exact ⟨h.isOpen, h.absent, h.notPending, h.unanswered⟩

theorem Tracking.Leftover.step (h : s.Leftover id) (hagent : ∀ tracked, s.channel.agent ≠ .writing tracked)
    (hline : a.readsLine = false) (hstep : s.Does profile config serverId a s') : s'.Leftover id := by
  have hasked := h.notAsked
  obtain ⟨hfits, hstep⟩ := hstep
  cases hstep with
  | agentLine raw env stopping hreading => cases hline
  | agentWrite tracked hwriting => exact absurd hwriting (hagent tracked)
  | agentFlush key method hflushing => exact ⟨h.answered, h.present, h.notAsked⟩
  | agentDone hflushing => exact ⟨h.answered, h.present, h.notAsked⟩
  | agentInsert key method hinserting => exact ⟨h.answered, h.present, h.notAsked⟩
  | serverLine raw hreading => cases hline
  | serverRemove raw id' hserver =>
    rw [hserver] at hasked
    exact ⟨h.answered, h.present, fun _ => hasked rfl⟩
  | serverFilter raw matched hserver =>
    rw [hserver] at hasked
    exact ⟨h.answered, h.present, fun _ => hasked rfl⟩
  | serverWrite raw matched delivery hserver =>
    rw [hserver] at hasked
    refine ⟨?_, h.present, by simp [ServerPc.idle]⟩
    show id ∉ opening s.serverRequests s.serverMessage
    unfold opening
    split
    · rename_i id' method hmessage
      intro hmem
      rcases List.mem_cons.mp hmem with rfl | hold
      · exact hasked rfl method hmessage
      · exact h.answered hold
    all_goals exact h.answered
  | stop => exact ⟨h.answered, h.present, h.notAsked⟩

theorem Tracking.Overtaken.step (h : s.Overtaken id) (hagent : ∀ tracked, s.channel.agent ≠ .writing tracked)
    (hline : a.readsLine = false) (hstep : s.Does profile config serverId a s') : s'.Overtaken id := by
  have htracked := h.tracked
  have hanswered := h.answered
  obtain ⟨hfits, hstep⟩ := hstep
  cases hstep with
  | agentLine raw env stopping hreading => cases hline
  | agentWrite tracked hwriting => exact absurd hwriting (hagent tracked)
  | agentFlush key method hflushing =>
    rw [hflushing] at htracked
    exact ⟨htracked, h.nodup, h.lookedUp, h.answered⟩
  | agentDone hflushing =>
    rw [hflushing] at htracked
    rcases htracked with hpresent | hnone
    · exact ⟨Or.inl hpresent, h.nodup, h.lookedUp, h.answered⟩
    · cases hnone
  | agentInsert key method hinserting =>
    rw [hinserting] at htracked
    refine ⟨Or.inl ((AList.mem_insert _).mpr ?_), h.nodup, h.lookedUp, h.answered⟩
    rcases htracked with hpresent | hpending
    · exact Or.inr hpresent
    · exact Or.inl (Option.some.inj hpending).symm
  | serverLine raw hreading => cases hline
  | serverRemove raw id' hserver => exact absurd hserver (h.lookedUp raw id')
  | serverFilter raw matched hserver => exact ⟨h.tracked, h.nodup, by simp, fun hid => ⟨rfl, (h.answered hid).2⟩⟩
  | serverWrite raw matched delivery hserver =>
    have hnodup : (closing s.agentRequests s.serverMessage).Nodup := by
      unfold closing
      split
      · exact h.nodup.erase _
      all_goals exact h.nodup
    refine ⟨h.tracked, hnodup, by simp, ?_⟩
    intro hid
    have hmem : id ∈ closing s.agentRequests s.serverMessage := hid
    rw [(h.answered (mem_of_mem_closing hmem)).2] at hmem
    exact absurd rfl (h.nodup.mem_erase_iff.mp hmem).1
  | stop => exact ⟨h.tracked, h.nodup, h.lookedUp, h.answered⟩

/-- What a step that does not keep the maps leaves behind, until the lines have been handled. -/
def Tracking.Astray (s : Tracking) : Prop :=
  (∀ tracked, s.channel.agent ≠ .writing tracked) ∧ ∃ id, s.Untracked id ∨ s.Leftover id ∨ s.Overtaken id

omit [JsonText] [Glob] [Propagator] in
theorem Tracking.Astray.not_exact (h : s.Astray) (hsettled : s.Settled) : ¬ s.Exact := by
  intro hexact
  obtain ⟨-, id, huntracked | hleftover | hovertaken⟩ := h
  · exact huntracked.absent ((hexact.outbound _).mpr ⟨id, huntracked.isOpen, rfl⟩)
  · obtain ⟨id', hid', hkey⟩ := (hexact.inbound _).mp hleftover.present
    rw [outboundKey_injective hkey] at hid'
    exact hleftover.answered hid'
  · have hpresent : outboundKey id ∈ s.channel.outbound := by
      rcases hovertaken.tracked with hpresent | hpending
      · exact hpresent
      · rw [AgentPc.pendingKey_of_idle hsettled.1] at hpending
        cases hpending
    obtain ⟨id', hid', hkey⟩ := (hexact.outbound _).mp hpresent
    rw [outboundKey_injective hkey] at hid'
    have hbusy := (hovertaken.answered hid').1
    rw [hsettled.2] at hbusy
    cases hbusy

theorem Tracking.Astray.step (h : s.Astray) (hline : a.readsLine = false)
    (hstep : s.Does profile config serverId a s') : s'.Astray := by
  obtain ⟨hagent, id, hid⟩ := h
  refine ⟨?_, id, ?_⟩
  · obtain ⟨-, hstep⟩ := hstep
    cases hstep with
    | agentLine raw env stopping hreading => cases hline
    | agentWrite tracked hwriting => exact absurd hwriting (hagent tracked)
    | agentFlush key method hflushing => simp
    | agentDone hflushing => simp
    | agentInsert key method hinserting => simp
    | serverLine raw hreading => cases hline
    | serverRemove raw id' hserver => exact hagent
    | serverFilter raw matched hserver => exact hagent
    | serverWrite raw matched delivery hserver => exact hagent
    | stop => exact hagent
  · rcases hid with huntracked | hleftover | hovertaken
    · exact Or.inl (huntracked.step hagent hline hstep)
    · exact Or.inr (Or.inl (hleftover.step hagent hline hstep))
    · exact Or.inr (Or.inr (hovertaken.step hagent hline hstep))

theorem Tracking.InStep.astray (h : s.InStep) (htracks : s.tracks a = false)
    (hstep : s.Does profile config serverId a s') : s'.Astray := by
  obtain ⟨hfits, hstep⟩ := hstep
  cases hstep with
  | agentWrite tracked hwriting =>
    refine ⟨by simp, ?_⟩
    obtain ⟨kind, hmessage, rfl⟩ := h.handling.writing tracked hwriting
    rw [Tracking.tracks, hmessage] at htracks
    rw [Tracking.permits, hmessage] at hfits
    rw [Tracking.follow, hmessage]
    cases kind with
    | request id method =>
      have hpass : isPassthrough method = true := by simpa using htracks
      have hnew : id ∉ s.agentRequests := of_decide_eq_true hfits
      refine ⟨id, Or.inl ⟨List.mem_cons_self, ?_, ?_, fun hidle hid => hnew (h.handling.answers id hidle hid)⟩⟩
      · intro hmem
        obtain ⟨id', hid', hkey, -⟩ := (h.outbound.mem_iff _).mp hmem
        rw [outboundKey_injective hkey] at hid'
        exact hnew hid'
      · show (AgentPc.flushing (trackedFor (.request id method))).pendingKey ≠ _
        unfold trackedFor
        rw [if_pos (show isPassthrough (JsonRpcMessageKind.request id method).method = true from hpass)]
        simp [AgentPc.pendingKey]
    | response id =>
      have hopen : id ∈ s.serverRequests := of_decide_eq_true hfits
      refine ⟨id, Or.inr (Or.inl ⟨fun hmem => ?_, (h.inbound.mem_iff _).mpr ⟨id, rfl, Or.inl hopen⟩, ?_⟩)⟩
      · exact absurd rfl (h.inbound.nodup.mem_erase_iff.mp hmem).1
      · intro hidle method hid
        exact h.handling.asks id method hidle hid hopen
    | notification method => cases htracks
  | serverRemove raw id hserver =>
    rw [Tracking.tracks, hserver] at htracks
    have hpending : s.channel.agent.pendingKey = some (outboundKey id) := by simpa using htracks
    refine ⟨?_, id, Or.inr (Or.inr ⟨Or.inr hpending, h.outbound.nodup, by simp,
      fun _ => ⟨rfl, h.handling.removing raw id hserver⟩⟩)⟩
    intro tracked hwriting
    have hagent : s.channel.agent = .writing tracked := hwriting
    rw [hagent] at hpending
    cases hpending
  | agentLine raw env stopping hreading => cases htracks
  | agentFlush key method hflushing => cases htracks
  | agentDone hflushing => cases htracks
  | agentInsert key method hinserting => cases htracks
  | serverLine raw hreading => cases htracks
  | serverFilter raw matched hserver => cases htracks
  | serverWrite raw matched delivery hserver => cases htracks
  | stop => cases htracks

/-! ### Every run -/

theorem inStep_of_reachableWhen
    (h : (tracking profile config serverId).ReachableWhen (fun s a => s.tracks a = true) s) : s.InStep := by
  refine Machine.ReachableWhen.invariant Tracking.InStep.init ?_ h
  intro s a s' _ hs htracks hstep
  exact hs.step htracks (Tracking.does_of_step hstep)

/-- For any behaviour of the two parties and of the service, and in any order of the two tasks: in every run whose steps
all keep the maps, the maps are exact whenever the lines that were read have been handled, and empty when every request has
its answer. After any other step they are not exact as soon as the lines have been handled. -/
theorem tracking_exact (profile : Profile) (config : Config) (serverId : String) :
    (∀ s, (tracking profile config serverId).ReachableWhen (fun s a => s.tracks a = true) s → s.Settled →
        s.Exact ∧ (s.agentRequests = [] → s.channel.outbound = ∅) ∧ (s.serverRequests = [] → s.inbound = ∅)) ∧
      ∀ s a s' s'', (tracking profile config serverId).ReachableWhen (fun s a => s.tracks a = true) s →
        s.tracks a = false → (tracking profile config serverId).step s a = some s' →
        (tracking profile config serverId).LeadsWhen (fun _ a => a.readsLine = false) s' s'' → s''.Settled →
          ¬ s''.Exact := by
  refine ⟨?_, ?_⟩
  · intro s hreach hsettled
    have hexact := (inStep_of_reachableWhen hreach).exact hsettled
    refine ⟨hexact, fun hnone => ?_, fun hnone => ?_⟩
    · apply Table.eq_empty
      intro key hkey
      obtain ⟨id, hid, -⟩ := (hexact.outbound key).mp hkey
      rw [hnone] at hid
      cases hid
    · apply Table.eq_empty
      intro key hkey
      obtain ⟨id, hid, -⟩ := (hexact.inbound key).mp hkey
      rw [hnone] at hid
      cases hid
  · intro s a s' s'' hreach htracks hstep hleads hsettled
    have hastray : s'.Astray := (inStep_of_reachableWhen hreach).astray htracks (Tracking.does_of_step hstep)
    have hlast : s''.Astray := by
      refine hleads.invariant hastray ?_
      intro t a t' ht hline hstep
      exact ht.step hline (Tracking.does_of_step hstep)
    exact hlast.not_exact hsettled

end Shim

section

attribute [local instance] Sample.glob Sample.f64Fmt Sample.propagator

namespace Sample

def requestMessage (id : Nat) (method : String) : Value :=
  .object [("jsonrpc", .string "2.0"), ("id", .number (.posInt id)), ("method", .string method)]

def answerMessage (id : Nat) : Value :=
  .object [("jsonrpc", .string "2.0"), ("id", .number (.posInt id)), ("result", .null)]

def initializeRequest : Value := requestMessage 1 "initialize"

def callRequest : Value := requestMessage 1 "tools/call"

/-- The server asks the agent for a completion. -/
def samplingRequest : Value := requestMessage 7 "sampling/createMessage"

def messageLine (message : Value) : ByteArray := (message.toJson ++ "\n").toUTF8

/-- Nothing is open, and something is in the map. -/
theorem not_exact_of_mem {s : Shim.Tracking} {key : String} (hagent : s.agentRequests = [])
    (hkey : key ∈ s.channel.outbound.keys) : ¬ s.Exact := by
  intro hexact
  obtain ⟨id, hid, -⟩ := (hexact.outbound key).mp hkey
  rw [hagent] at hid
  cases hid

end Sample

/-- A parser that knows the messages. -/
@[reducible] def Sample.messageText : JsonText :=
  Sample.jsonTextOf [Sample.answerMessage 1, Sample.answerMessage 7, Sample.callRequest, Sample.initializeRequest,
    Sample.samplingRequest]

attribute [local instance] Sample.messageText

/-- An `initialize` that was written is not in the map. -/
def Sample.initialized : (Shim.tracking .production Sample.readOnlyConfig "files").RunTo (fun _ _ => true) fun s =>
    decide (s.Settled ∧ s.agentRequests = [.number 1] ∧ s.channel.outbound.keys = []) where
  actions := [.agentLine (messageLine initializeRequest) letPass, .agentWrite, .agentFlush]
  passes := by decide +kernel

/-- The server asks the agent once and is answered. -/
def Sample.sampled : (Shim.tracking .production Sample.readOnlyConfig "files").RunTo (fun _ _ => true) fun s =>
    decide (s.Settled ∧ s.agentRequests = [] ∧ s.serverRequests = [] ∧ s.channel.outbound.keys = ["7"] ∧
      s.inbound.keys = ["7"]) where
  actions := [.serverLine (messageLine samplingRequest), .serverWrite,
    .agentLine (messageLine (answerMessage 7)) letPass, .agentWrite, .agentFlush, .agentInsert]
  passes := by decide +kernel

/-- An answer is looked up before its request is in the map. -/
def Sample.overtakenCall : (Shim.tracking .production Sample.readOnlyConfig "files").RunTo (fun _ _ => true) fun s =>
    decide (s.Settled ∧ s.agentRequests = [] ∧ s.serverRequests = [] ∧ s.channel.outbound.keys = ["1"]) where
  actions := [.agentLine (messageLine callRequest) letPass, .agentWrite, .agentFlush,
    .serverLine (messageLine (answerMessage 1)), .serverRemove, .serverFilter, .serverWrite, .agentInsert]
  passes := by decide +kernel

/-- An `initialize` that was written is not in the map. After the server has asked the agent once and has been answered,
nothing is open, and its identifier is in both maps. After an answer that was looked up too early nothing is open, and its
request is in the map. -/
theorem answered_request_kept :
    (∃ s, (Shim.tracking .production Sample.readOnlyConfig "files").Reachable s ∧ s.Settled ∧ ¬ s.Exact ∧
        s.agentRequests = [.number 1] ∧ s.channel.outbound.keys = []) ∧
      (∃ s, (Shim.tracking .production Sample.readOnlyConfig "files").Reachable s ∧ s.Settled ∧ ¬ s.Exact ∧
        s.agentRequests = [] ∧ s.serverRequests = [] ∧ s.channel.outbound.keys = ["7"] ∧ s.inbound.keys = ["7"]) ∧
      ∃ s, (Shim.tracking .production Sample.readOnlyConfig "files").Reachable s ∧ s.Settled ∧ ¬ s.Exact ∧
        s.agentRequests = [] ∧ s.serverRequests = [] ∧ s.channel.outbound.keys = ["1"] := by
  refine ⟨?_, ?_, ?_⟩
  · obtain ⟨s, hreachable, htest⟩ := Sample.initialized.exists_reachable
    obtain ⟨hsettled, hagent, hkeys⟩ := of_decide_eq_true htest
    refine ⟨s, hreachable, hsettled, ?_, hagent, hkeys⟩
    intro hexact
    have hmem : Shim.outboundKey (.number 1) ∈ s.channel.outbound.keys :=
      (hexact.outbound _).mpr ⟨.number 1, by simp [hagent], rfl⟩
    rw [hkeys] at hmem
    cases hmem
  · obtain ⟨s, hreachable, htest⟩ := Sample.sampled.exists_reachable
    obtain ⟨hsettled, hagent, hserver, hkeys, hinbound⟩ := of_decide_eq_true htest
    have hmem : "7" ∈ s.channel.outbound.keys := by
      rw [hkeys]
      exact List.mem_cons_self
    exact ⟨s, hreachable, hsettled, Sample.not_exact_of_mem hagent hmem, hagent, hserver, hkeys, hinbound⟩
  · obtain ⟨s, hreachable, htest⟩ := Sample.overtakenCall.exists_reachable
    obtain ⟨hsettled, hagent, hserver, hkeys⟩ := of_decide_eq_true htest
    have hmem : "1" ∈ s.channel.outbound.keys := by
      rw [hkeys]
      exact List.mem_cons_self
    exact ⟨s, hreachable, hsettled, Sample.not_exact_of_mem hagent hmem, hagent, hserver, hkeys⟩

def Sample.answeredCall : (Shim.tracking .production Sample.readOnlyConfig "files").RunTo (fun s a => s.tracks a)
    fun s => decide (s.Settled ∧ s.agentRequests = [] ∧ s.serverRequests = [.number 7]) where
  actions := [.serverLine (messageLine samplingRequest), .agentLine (messageLine callRequest) letPass, .agentWrite,
    .serverWrite, .agentFlush, .agentInsert, .serverLine (messageLine (answerMessage 1)), .serverRemove, .serverFilter,
    .serverWrite]
  passes := by decide +kernel

/-- The next two steps write an `initialize`. -/
def Sample.initializing : (Shim.tracking .production Sample.readOnlyConfig "files").RunTo (fun s a => s.tracks a)
    fun s => !s.tracks .agentWrite &&
      ((Shim.tracking .production Sample.readOnlyConfig "files").step s .agentWrite).any fun s' =>
        ((Shim.tracking .production Sample.readOnlyConfig "files").step s' .agentFlush).any
          fun s'' => decide (s''.Settled ∧ s''.agentRequests = [.number 1]) where
  actions := [.agentLine (messageLine initializeRequest) letPass]
  passes := by decide +kernel

theorem tracking_exact_sample :
    (∃ s : Shim.Tracking, s.serverRequests = [.number 7] ∧ s.Exact ∧ s.channel.outbound = ∅) ∧
      ∃ s : Shim.Tracking, s.agentRequests = [.number 1] ∧ ¬ s.Exact := by
  obtain ⟨hexact, hastray⟩ := Shim.tracking_exact .production Sample.readOnlyConfig "files"
  refine ⟨?_, ?_⟩
  · obtain ⟨s, hreachable, htest⟩ := Sample.answeredCall.exists_reachableWhen
    obtain ⟨hsettled, hagent, hserver⟩ := of_decide_eq_true htest
    obtain ⟨hkeys, hempty, -⟩ := hexact s hreachable hsettled
    exact ⟨s, hserver, hkeys, hempty hagent⟩
  · obtain ⟨s, hreachable, htest⟩ := Sample.initializing.exists_reachableWhen
    obtain ⟨htracks, hrest⟩ := Bool.and_eq_true_iff.mp htest
    obtain ⟨s', hwrite, hrest⟩ := (Option.any_eq_true ..).mp hrest
    obtain ⟨s'', hflush, hlast⟩ := (Option.any_eq_true ..).mp hrest
    obtain ⟨hsettled, hagent⟩ := of_decide_eq_true hlast
    refine ⟨s'', hagent, hastray s .agentWrite s' s'' hreachable (by simpa using htracks) hwrite ?_ hsettled⟩
    exact Relation.ReflTransGen.single ⟨.agentFlush, rfl, hflush⟩

end

end ThoughtGate
