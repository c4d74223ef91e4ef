import ThoughtGate.Lib.Threads
import ThoughtGate.Proxy.Discipline

/-!
# Concurrent bodies

`handle_mcp_body_bytes` at its atomic steps, any number of calls at once over the counter of buffered bytes and the
semaphore: a call adds the size of its body and then compares, and takes it off again when it is too much or, through
`BufferGuard`, on every way out. A call whose answer is a stream leaves a task behind that goes on.

The bodies that have passed the comparison never exceed the limit together, and the counter is what the calls have added and
not taken off (`aggregate_buffer_bounded`). The permits of a call that leaves a task behind are given back when the call
returns, so the requests in progress stay within the semaphore's bound only in runs without such calls
(`requests_within_permits`).

Bodies are in memory, so that those of all calls are less than `2 ^ 64` bytes together; counters are `usize`.
-/

namespace ThoughtGate

/-- Whether the response is a stream. -/
def McpResponse.isStreaming : McpResponse → Bool
  | .buffered _ _ => false
  | .streaming _ _ _ => true

namespace McpHandler

/-! ### Steps of a call -/

/-- Where a call is. Guarded bodies have their `BufferGuard`; a call that returns still has the guard, its permits until it
has given them back, and perhaps a task that it has spawned, which may be all that is left of it. -/
inductive CallPc where
  | received (body : ByteArray)
  | counted (body : ByteArray) (prev : Nat)
  | guarded (body : ByteArray)
  | parsed (size : Nat) (request : ParsedRequests)
  | handling (size : Nat) (request : ParsedRequests)
  | returning (size : Nat) (permits : Option Nat) (spawned : Bool)
  | streaming

/-- The call goes on; the handling of its body is done, or dropped; the spawned task is done. -/
inductive CallInput where
  | go
  | answered (env : RequestEnv)
  | dropped
  | completed

/-- `fetch_add`. -/
def Load.add (load : Load) (size : Nat) : Load := { load with bufferedBytes := (load.bufferedBytes + size) % 2 ^ 64 }

/-- `fetch_sub`. -/
def Load.sub (load : Load) (size : Nat) : Load :=
  { load with bufferedBytes := (load.bufferedBytes + (2 ^ 64 - size)) % 2 ^ 64 }

/-- The requests of a body. -/
def requestCount : ParsedRequests → Nat
  | .single _ => 1
  | .batch items => items.length

/-- The bytes of the body that the call has in memory. -/
def CallPc.live : CallPc → Nat
  | .received body => body.size
  | .counted body _ => body.size
  | .guarded body => body.size
  | .parsed size _ => size
  | .handling size _ => size
  | .returning size _ _ => size
  | .streaming => 0

/-- The bytes that the call has added to the counter and not taken off. -/
def CallPc.owes : CallPc → Nat
  | .counted body _ => body.size
  | .guarded body => body.size
  | .parsed size _ => size
  | .handling size _ => size
  | .returning size _ _ => size
  | _ => 0

/-- The bytes of a body that has passed the comparison. -/
def CallPc.passed : CallPc → Nat
  | .counted _ _ => 0
  | p => p.owes

/-- The permits that the call has. -/
def CallPc.permits : CallPc → Nat
  | .handling _ request => permitCount request
  | .returning _ permits _ => permits.getD 0
  | _ => 0

/-- The requests that have been admitted and are not yet answered. -/
def CallPc.inProgress : CallPc → Nat
  | .handling _ request => requestCount request
  | .returning _ _ true => 1
  | .streaming => 1
  | _ => 0

/-- A call may start while its body has room in memory. -/
def callStart (threads : Table Nat CallPc) : CallPc → Bool
  | .received body => decide (Table.total (fun _ p => p.live) threads + body.size < 2 ^ 64)
  | _ => false

theorem Load.add_bufferedBytes {load : Load} {size : Nat} (hfits : load.bufferedBytes + size < 2 ^ 64) :
    (load.add size).bufferedBytes = load.bufferedBytes + size := Nat.mod_eq_of_lt hfits

theorem Load.sub_bufferedBytes {load : Load} {size rest : Nat} (hload : load.bufferedBytes = size + rest)
    (hfits : size + rest < 2 ^ 64) : (load.sub size).bufferedBytes = rest := by
  show (load.bufferedBytes + (2 ^ 64 - size)) % 2 ^ 64 = rest
  omega

theorem owes_le_live (p : CallPc) : p.owes ≤ p.live := by
  cases p with
  | received body => exact Nat.zero_le _
  | _ => exact Nat.le_refl _

section

variable [Glob] [Cedar]

/-- The body is too much on top of what was buffered. -/
def Exceeds (h : McpHandler) (prev size : Nat) : Prop := h.maxAggregateBuffer < min (prev + size) (2 ^ 64 - 1)

instance (h : McpHandler) (prev size : Nat) : Decidable (h.Exceeds prev size) := inferInstanceAs (Decidable (_ < _))

/-- The batch is too long. -/
def TooLong (h : McpHandler) : ParsedRequests → Prop
  | .single _ => False
  | .batch items => h.maxBatchSize < items.length

instance (h : McpHandler) (request : ParsedRequests) : Decidable (h.TooLong request) :=
  match request with
  | .single _ => inferInstanceAs (Decidable False)
  | .batch _ => inferInstanceAs (Decidable (_ < _))

variable [F64.Fmt] [F64.Display] [Sha256] [PipelineLib]

/-- The answer is a stream, and a task is left behind for it. -/
def spawns (h : McpHandler) (env : RequestEnv) : ParsedRequests → Bool
  | .single request => (h.handleSingleRequest env request).isStreaming
  | .batch _ => false

variable [JsonText] [Serde]

/-- The next atomic step of a call, or of the task that it has spawned. -/
def callNext (h : McpHandler) (load : Load) : CallPc → CallInput → Option (Load × Option CallPc)
  | .received body, .go =>
    if h.maxBodySize < body.size then some (load, none)
    else some (load.add body.size, some (.counted body load.bufferedBytes))
  | .counted body prev, .go =>
    if h.Exceeds prev body.size then some (load.sub body.size, none) else some (load, some (.guarded body))
  | .guarded body, .go =>
    match parseJsonrpc body with
    | .error _ => some (load, some (.returning body.size none false))
    | .ok request =>
      if h.TooLong request then some (load, some (.returning body.size none false))
      else some (load, some (.parsed body.size request))
  | .parsed size request, .go =>
    if load.permits < permitCount request then some (load, some (.returning size none false))
    else some ({ load with permits := load.permits - permitCount request }, some (.handling size request))
  | .handling size request, .answered env =>
    some (load, some (.returning size (some (permitCount request)) (h.spawns env request)))
  | .handling size request, .dropped => some (load, some (.returning size (some (permitCount request)) false))
  | .returning size (some n) spawned, .go =>
    some ({ load with permits := load.permits + n }, some (.returning size none spawned))
  | .returning size none spawned, .go => some (load.sub size, if spawned then some .streaming else none)
  | .returning size permits true, .completed => some (load, some (.returning size permits false))
  | .streaming, .completed => some (load, none)
  | _, _ => none

/-- The calls of a handler with so many permits. -/
def calls (h : McpHandler) (maxConcurrentRequests : Nat) : Program Load CallPc CallInput Empty where
  init := ⟨0, maxConcurrentRequests⟩
  start _ threads p := callStart threads p
  next := h.callNext
  held _ := []
  wants _ := none

/-- The steps, by what they do to the counter and the permits. -/
inductive CallStep (h : McpHandler) (load : Load) : CallPc → CallInput → Load → Option CallPc → Prop
  | tooLarge {body : ByteArray} : CallStep h load (.received body) .go load none
  | counted {body : ByteArray} :
      CallStep h load (.received body) .go (load.add body.size) (some (.counted body load.bufferedBytes))
  | refused {body : ByteArray} {prev : Nat} : h.Exceeds prev body.size →
      CallStep h load (.counted body prev) .go (load.sub body.size) none
  | admitted {body : ByteArray} {prev : Nat} : ¬ h.Exceeds prev body.size →
      CallStep h load (.counted body prev) .go load (some (.guarded body))
  | invalid {body : ByteArray} : CallStep h load (.guarded body) .go load (some (.returning body.size none false))
  | parsed {body : ByteArray} {request : ParsedRequests} : parseJsonrpc body = .ok request → ¬ h.TooLong request →
      CallStep h load (.guarded body) .go load (some (.parsed body.size request))
  | limited {size : Nat} {request : ParsedRequests} :
      CallStep h load (.parsed size request) .go load (some (.returning size none false))
  | acquired {size : Nat} {request : ParsedRequests} : permitCount request ≤ load.permits →
      CallStep h load (.parsed size request) .go { load with permits := load.permits - permitCount request }
        (some (.handling size request))
  | answered {size : Nat} {request : ParsedRequests} {env : RequestEnv} :
      CallStep h load (.handling size request) (.answered env) load
        (some (.returning size (some (permitCount request)) (h.spawns env request)))
  | dropped {size : Nat} {request : ParsedRequests} :
      CallStep h load (.handling size request) .dropped load (some (.returning size (some (permitCount request)) false))
  | released {size n : Nat} {spawned : Bool} :
      CallStep h load (.returning size (some n) spawned) .go { load with permits := load.permits + n }
        (some (.returning size none spawned))
  | uncounted {size : Nat} {spawned : Bool} :
      CallStep h load (.returning size none spawned) .go (load.sub size) (if spawned then some .streaming else none)
  | completed {size : Nat} {permits : Option Nat} :
      CallStep h load (.returning size permits true) .completed load (some (.returning size permits false))
  | ended : CallStep h load .streaming .completed load none

theorem callNext_cases {h : McpHandler} {load load' : Load} {p : CallPc} {i : CallInput} {p' : Option CallPc}
    (hnext : h.callNext load p i = some (load', p')) : CallStep h load p i load' p' := by
  cases p with
  | received body =>
    cases i with
    | go =>
      rw [callNext] at hnext
      split at hnext
      · cases hnext
        exact .tooLarge
      · cases hnext
        exact .counted
    | _ => cases hnext
  | counted body prev =>
    cases i with
    | go =>
      rw [callNext] at hnext
      split at hnext
      · rename_i hexceeds
        cases hnext
        exact .refused hexceeds
      · rename_i hexceeds
        cases hnext
        exact .admitted hexceeds
    | _ => cases hnext
  | guarded body =>
    cases i with
    | go =>
      rw [callNext] at hnext
      split at hnext
      · cases hnext
        exact .invalid
      · rename_i request hparse
        split at hnext
        · cases hnext
          exact .invalid
        · rename_i hlong
          cases hnext
          exact .parsed hparse hlong
    | _ => cases hnext
  | parsed size request =>
    cases i with
    | go =>
      rw [callNext] at hnext
      split at hnext
      · cases hnext
        exact .limited
      · rename_i hpermits
        cases hnext
        exact .acquired (Nat.le_of_not_lt hpermits)
    | _ => cases hnext
  | handling size request =>
    cases i with
    | answered env =>
      cases hnext
      exact .answered
    | dropped =>
      cases hnext
      exact .dropped
    | _ => cases hnext
  | returning size permits spawned =>
    cases i with
    | go =>
      cases permits with
      | none =>
        cases hnext
        exact .uncounted
      | some n =>
        cases hnext
        exact .released
    | completed =>
      cases spawned with
      | true =>
        cases permits with
        | none =>
          cases hnext
          exact .completed
        | some n =>
          cases hnext
          exact .completed
      | false => cases permits <;> cases hnext
    | _ => cases permits <;> cases hnext
  | streaming =>
    cases i with
    | completed =>
      cases hnext
      exact .ended
    | _ => cases hnext

/-- The call goes so many steps on, nothing else being done in between. -/
def goes (h : McpHandler) : Nat → Load → CallPc → Option (Load × CallPc)
  | 0, load, p => some (load, p)
  | n + 1, load, p => (h.callNext load p .go).bind fun c => c.2.bind fun p' => h.goes n c.1 p'

/-- Undisturbed, a call comes to the handling of what `admission` lets through. -/
theorem goes_iff_admission (h : McpHandler) {load : Load} {body : ByteArray} (hfits : load.bufferedBytes + body.size < 2 ^ 64)
    (request : ParsedRequests) : (∃ load', h.goes 4 load (.received body) = some (load', .handling body.size request)) ↔
      h.admission load body = .ok request := by
  have hadd : load.add body.size = ⟨load.bufferedBytes + body.size, load.permits⟩ := by
    rw [Load.add, Nat.mod_eq_of_lt hfits]
  unfold admission goes
  rw [callNext]
  by_cases hsize : h.maxBodySize < body.size
  · simp [hsize]
  · rw [if_neg hsize, if_neg hsize, Option.bind_some, Option.bind_some, hadd, goes, callNext]
    by_cases hexceeds : h.maxAggregateBuffer < min (load.bufferedBytes + body.size) (2 ^ 64 - 1)
    · rw [if_pos hexceeds, if_pos (show h.Exceeds _ _ from hexceeds)]
      simp
    · rw [if_neg hexceeds, if_neg (show ¬ h.Exceeds _ _ from hexceeds), Option.bind_some, Option.bind_some, goes, callNext]
      cases parseJsonrpc body with
      | error e => simp [goes, callNext]
      | ok parsed =>
        cases parsed with
        | single request' =>
          by_cases hpermits : load.permits < permitCount (.single request')
          · simp [TooLong, goes, callNext, hpermits]
          · simp [TooLong, goes, callNext, hpermits]
        | batch items =>
          by_cases hbatch : h.maxBatchSize < items.length
          · simp [TooLong, hbatch, goes, callNext]
          · by_cases hpermits : load.permits < permitCount (.batch items)
            · simp [TooLong, hbatch, goes, callNext, hpermits]
            · simp [TooLong, hbatch, goes, callNext, hpermits]

/-! ### What is buffered -/

variable {h : McpHandler} {maxConcurrentRequests : Nat}

/-- No step takes memory. -/
theorem CallStep.live {load load' : Load} {p : CallPc} {i : CallInput} {p' : Option CallPc}
    (hstep : CallStep h load p i load' p') : Program.weigh CallPc.live p' ≤ p.live := by
  cases hstep with
  | uncounted =>
    rename_i spawned
    cases spawned with
    | true => exact Nat.zero_le _
    | false => exact Nat.zero_le _
  | _ => first | exact Nat.le_refl _ | exact Nat.zero_le _

/-- The bodies of all calls are in memory. -/
theorem live_lt {s : ThreadState Load CallPc} (hs : (h.calls maxConcurrentRequests).machine.Reachable s) :
    Table.total (fun _ p => p.live) s.threads < 2 ^ 64 := by
  refine hs.invariant (I := fun s => Table.total (fun _ p => p.live) s.threads < 2 ^ 64) (Nat.two_pow_pos 64) ?_
  intro s a s' hI ha
  rcases Program.step_cases ha with ⟨t, p, rfl, hnone, hstart, rfl⟩ | ⟨t, i, p, shared, p', rfl, hp, -, hnext, rfl⟩
  · cases p with
    | received body =>
      rw [Table.total_insert_new _ _ hnone]
      have hroom := of_decide_eq_true hstart
      show body.size + _ < _
      omega
    | _ => cases hstart
  · have hnew := Program.total_settle CallPc.live hp p'
    have hle := (callNext_cases hnext).live
    show Table.total (fun _ p => CallPc.live p) (Program.settle s.threads t p') < 2 ^ 64
    omega

/-- What a step makes of the counter, while the bodies that are counted fit into it. -/
theorem CallStep.bufferedBytes {load load' : Load} {p : CallPc} {i : CallInput} {p' : Option CallPc}
    (hstep : CallStep h load p i load' p') {rest : Nat} (hload : load.bufferedBytes = p.owes + rest)
    (hfits : p.live + rest < 2 ^ 64) : load'.bufferedBytes = Program.weigh CallPc.owes p' + rest := by
  cases hstep with
  | tooLarge => exact hload
  | counted =>
    rename_i body
    have hrest : load.bufferedBytes = rest := hload.trans (Nat.zero_add rest)
    have hlive : body.size + rest < 2 ^ 64 := hfits
    rw [Load.add_bufferedBytes (by omega), hrest]
    exact Nat.add_comm rest body.size
  | refused => exact (Load.sub_bufferedBytes hload hfits).trans (Nat.zero_add rest).symm
  | uncounted =>
    rename_i size spawned
    have hsub : (load.sub size).bufferedBytes = rest := Load.sub_bufferedBytes hload hfits
    rw [hsub]
    cases spawned with
    | true => exact (Nat.zero_add rest).symm
    | false => exact (Nat.zero_add rest).symm
  | _ => exact hload

/-- The counter is what the calls have added and not taken off. -/
theorem bufferedBytes_eq {s : ThreadState Load CallPc} (hs : (h.calls maxConcurrentRequests).machine.Reachable s) :
    s.shared.bufferedBytes = Table.total (fun _ p => p.owes) s.threads := by
  refine Program.total_invariant (R := fun load n => load.bufferedBytes = n) CallPc.owes rfl ?_ ?_ hs
  · intro s threads p hstart
    cases p with
    | received body => rfl
    | _ => cases hstart
  · intro s t i p shared p' hs _ hp hnext hR
    have hlive := live_lt hs
    rw [Table.total_erase _ hp] at hlive
    have hle : Table.total (fun _ p => CallPc.owes p) (s.threads.erase t) ≤
        Table.total (fun _ p => CallPc.live p) (s.threads.erase t) := Table.total_mono fun _ p => owes_le_live p
    exact (callNext_cases hnext).bufferedBytes hR (by omega)

/-- The bytes of a body that has passed the comparison, or will. -/
def CallPc.willPass (h : McpHandler) : CallPc → Nat
  | .counted body prev => if h.Exceeds prev body.size then 0 else body.size
  | p => p.owes

omit [F64.Fmt] [F64.Display] [Sha256] [PipelineLib] [JsonText] [Serde] in
theorem passed_le_willPass (p : CallPc) : p.passed ≤ p.willPass h := by
  cases p with
  | counted body prev => exact Nat.zero_le _
  | _ => exact Nat.le_refl _

omit [F64.Fmt] [F64.Display] [Sha256] [PipelineLib] [JsonText] [Serde] in
theorem willPass_le_owes (p : CallPc) : p.willPass h ≤ p.owes := by
  cases p with
  | counted body prev =>
    show (if h.Exceeds prev body.size then 0 else body.size) ≤ body.size
    split
    · exact Nat.zero_le _
    · exact Nat.le_refl _
  | _ => exact Nat.le_refl _

/-- Only the step that counts a body decides that it will pass, and then it fits on top of what is counted. -/
theorem CallStep.willPass {load load' : Load} {p : CallPc} {i : CallInput} {p' : Option CallPc}
    (hstep : CallStep h load p i load' p') : Program.weigh (CallPc.willPass h) p' ≤ p.willPass h ∨
      ∃ body, p = .received body ∧ Program.weigh (CallPc.willPass h) p' = body.size ∧
        ¬ h.Exceeds load.bufferedBytes body.size := by
  cases hstep with
  | counted =>
    rename_i body
    by_cases hexceeds : h.Exceeds load.bufferedBytes body.size
    · left
      rw [Program.weigh_some, CallPc.willPass, if_pos hexceeds]
      exact Nat.zero_le _
    · exact Or.inr ⟨body, rfl, by rw [Program.weigh_some, CallPc.willPass, if_neg hexceeds], hexceeds⟩
  | admitted hexceeds =>
    left
    rw [Program.weigh_some, CallPc.willPass.eq_1, if_neg hexceeds]
    exact Nat.le_refl _
  | uncounted =>
    rename_i spawned
    cases spawned with
    | true => exact Or.inl (Nat.zero_le _)
    | false => exact Or.inl (Nat.zero_le _)
  | _ => first | exact Or.inl (Nat.le_refl _) | exact Or.inl (Nat.zero_le _)

/-- What has passed the comparison or will is within the limit. -/
theorem willPass_le {s : ThreadState Load CallPc} (hs : (h.calls maxConcurrentRequests).machine.Reachable s) :
    Table.total (fun _ p => p.willPass h) s.threads ≤ h.maxAggregateBuffer := by
  refine Program.total_invariant (R := fun _ n => n ≤ h.maxAggregateBuffer) (CallPc.willPass h) (Nat.zero_le _) ?_ ?_ hs
  · intro s threads p hstart
    cases p with
    | received body => rfl
    | _ => cases hstart
  · intro s t i p shared p' hs _ hp hnext hR
    rcases (callNext_cases hnext).willPass with hle | ⟨body, rfl, hnew, hexceeds⟩
    · omega
    · rw [hnew]
      have hlive := live_lt hs
      have hcounter := bufferedBytes_eq hs
      rw [Table.total_erase _ hp] at hlive hcounter
      have hwill : Table.total (fun _ p => CallPc.willPass h p) (s.threads.erase t) ≤
          Table.total (fun _ p => CallPc.owes p) (s.threads.erase t) := Table.total_mono fun _ p => willPass_le_owes p
      have howes : Table.total (fun _ p => CallPc.owes p) (s.threads.erase t) ≤
          Table.total (fun _ p => CallPc.live p) (s.threads.erase t) := Table.total_mono fun _ p => owes_le_live p
      have hreceived : CallPc.owes (.received body) = 0 := rfl
      have hbody : CallPc.live (.received body) = body.size := rfl
      unfold Exceeds at hexceeds
      omega

/-- The bodies that have passed the comparison never exceed the limit together; no call takes more off the counter than it
holds; and it is zero when no call is there, whatever tasks are left. -/
theorem aggregate_buffer_bounded {s : ThreadState Load CallPc}
    (hs : (h.calls maxConcurrentRequests).machine.Reachable s) :
    Table.total (fun _ p => p.passed) s.threads ≤ h.maxAggregateBuffer ∧
      (∀ t p, s.threads.lookup t = some p → p.owes ≤ s.shared.bufferedBytes) ∧
      ((∀ t p, s.threads.lookup t = some p → p = .streaming) → s.shared.bufferedBytes = 0) := by
  refine ⟨(Table.total_mono fun _ p => passed_le_willPass p).trans (willPass_le hs), ?_, ?_⟩
  · intro t p hp
    rw [bufferedBytes_eq hs]
    exact Table.le_total (fun _ p => CallPc.owes p) hp
  · intro hidle
    rw [bufferedBytes_eq hs]
    refine Table.total_eq_zero fun e he => ?_
    rw [hidle e.1 e.2 (Table.mem_entries_iff.mp he)]
    rfl

/-! ### What is in progress -/

/-- Permits are with the semaphore or with a call. -/
theorem CallStep.permits {load load' : Load} {p : CallPc} {i : CallInput} {p' : Option CallPc}
    (hstep : CallStep h load p i load' p') :
    load'.permits + Program.weigh CallPc.permits p' = load.permits + p.permits := by
  cases hstep with
  | acquired hpermits =>
    show load.permits - _ + _ = load.permits + 0
    rw [Nat.add_zero]
    exact Nat.sub_add_cancel hpermits
  | uncounted =>
    rename_i spawned
    cases spawned with
    | true => rfl
    | false => rfl
  | _ => rfl

theorem permits_eq {ok : ThreadState Load CallPc → ThreadAct CallPc CallInput → Prop} {s : ThreadState Load CallPc}
    (hs : (h.calls maxConcurrentRequests).machine.ReachableWhen ok s) :
    s.shared.permits + Table.total (fun _ p => p.permits) s.threads = maxConcurrentRequests := by
  refine Program.total_invariant (R := fun load n => load.permits + n = maxConcurrentRequests) CallPc.permits rfl ?_ ?_ hs
  · intro s threads p hstart
    cases p with
    | received body => rfl
    | _ => cases hstart
  · intro s t i p shared p' _ _ _ hnext hR
    have hpermits := (callNext_cases hnext).permits
    omega

/-- The step does not end the handling of a single request that is held for its approval, and acquires no permits for a batch
whose length they cannot count. -/
def Covers (h : McpHandler) (s : ThreadState Load CallPc) : ThreadAct CallPc CallInput → Prop
  | .spawn _ _ => True
  | .run t i => (∀ size request env, s.threads.lookup t = some (.handling size (.single request)) → i = .answered env →
      ¬ h.Held env request) ∧
    ∀ size items, s.threads.lookup t = some (.parsed size (.batch items)) → items.length < 2 ^ 32

/-- The requests of the call are within its permits, and it has left no task behind. -/
def CallPc.Covered : CallPc → Prop
  | .handling _ request => requestCount request ≤ permitCount request
  | .returning _ _ spawned => spawned = false
  | .streaming => False
  | _ => True

omit [Glob] [Cedar] [F64.Fmt] [F64.Display] [Sha256] [PipelineLib] [JsonText] [Serde] in
theorem CallPc.Covered.inProgress {p : CallPc} (hp : p.Covered) : p.inProgress ≤ p.permits := by
  cases p with
  | handling size request => exact hp
  | returning size permits spawned =>
    have hspawned : spawned = false := hp
    rw [hspawned]
    exact Nat.zero_le _
  | streaming => exact hp.elim
  | _ => exact Nat.zero_le _

omit [JsonText] [Serde] in
/-- Only for a request that is held is a task left behind. -/
theorem spawns_iff (h : McpHandler) (env : RequestEnv) (request : McpRequest) :
    h.spawns env (.single request) = true ↔ h.Held env request := by
  rw [← routeRequest_isBlocking, spawns, handleSingleRequest]
  cases h.routeRequest env request with
  | immediate result =>
    dsimp only
    split
    · exact Iff.rfl
    · exact Iff.rfl
  | blockingApproval taskId resourceName requestId blockingTimeout pollInterval => exact Iff.rfl

omit [Glob] [Cedar] [F64.Fmt] [F64.Display] [Sha256] [PipelineLib] [JsonText] [Serde] in
theorem requestCount_le_permitCount {request : ParsedRequests}
    (hfits : ∀ items, request = .batch items → items.length < 2 ^ 32) : requestCount request ≤ permitCount request := by
  cases request with
  | single request => exact Nat.le_refl _
  | batch items =>
    have hlength := hfits items rfl
    show items.length ≤ max items.length 1 % 2 ^ 32
    rw [Nat.mod_eq_of_lt (by omega)]
    exact Nat.le_max_left _ _

/-- A step that meets the condition leaves the call covered. -/
theorem CallStep.covered {s : ThreadState Load CallPc} {load' : Load} {t : Nat} {p : CallPc} {i : CallInput}
    {p' : Option CallPc} (hstep : CallStep h s.shared p i load' p') (hp : s.threads.lookup t = some p)
    (hcovers : h.Covers s (.run t i)) (hold : p.Covered) : ∀ q, p' = some q → q.Covered := by
  cases hstep with
  | acquired =>
    rintro _ ⟨⟩
    refine requestCount_le_permitCount fun items hitems => ?_
    subst hitems
    exact hcovers.2 _ items hp
  | answered =>
    rename_i size request env
    rintro _ ⟨⟩
    show h.spawns env request = false
    cases request with
    | single request =>
      rw [← Bool.not_eq_true, spawns_iff]
      exact hcovers.1 _ request env hp rfl
    | batch items => rfl
  | uncounted =>
    rename_i size spawned
    have hspawned : spawned = false := hold
    rw [hspawned]
    rintro _ ⟨⟩
  | released =>
    rintro _ ⟨⟩
    exact hold
  | tooLarge | refused => rintro _ ⟨⟩
  | ended => exact hold.elim
  | counted | admitted | parsed =>
    rintro _ ⟨⟩
    trivial
  | invalid | limited | dropped | completed =>
    rintro _ ⟨⟩
    rfl

theorem covered {s : ThreadState Load CallPc}
    (hs : (h.calls maxConcurrentRequests).machine.ReachableWhen h.Covers s) : s.threads.All fun _ p => p.Covered := by
  refine hs.invariant (I := fun s => s.threads.All fun _ p => p.Covered) (Table.All.empty _) ?_
  intro s a s' _ hI hok ha
  rcases Program.step_cases ha with ⟨t, p, rfl, hnone, hstart, rfl⟩ | ⟨t, i, p, shared, p', rfl, hp, -, hnext, rfl⟩
  · refine Table.All.insert hI ?_
    cases p with
    | received body => trivial
    | _ => cases hstart
  · have hnew := (callNext_cases hnext).covered hp hok (hI t p hp)
    cases p' with
    | none => exact Table.All.erase hI t
    | some q => exact Table.All.insert hI (hnew q rfl)

/-- While no call leaves a task behind, and no batch is too long to be counted, the requests in progress are within the
permits. -/
theorem requests_within_permits {s : ThreadState Load CallPc}
    (hs : (h.calls maxConcurrentRequests).machine.ReachableWhen h.Covers s) :
    Table.total (fun _ p => p.inProgress) s.threads ≤ maxConcurrentRequests := by
  have hcovered := (covered hs).mono fun _ p hp => hp.inProgress
  have hle : Table.total (fun _ p => CallPc.inProgress p) s.threads ≤
      Table.total (fun _ p => CallPc.permits p) s.threads := hcovered.total_le
  have hpermits := permits_eq hs
  omega

end

end McpHandler

section

attribute [local instance] Sample.glob Sample.cedar Sample.f64Fmt Sample.f64Display Sample.sha256 Sample.pipelineLib
  Sample.serde Sample.bodyText

namespace Sample

/-- The call of a tool that needs an approval comes in and is admitted. -/
def admitted (t : Nat) : List (ThreadAct McpHandler.CallPc McpHandler.CallInput) :=
  .spawn t (.received requestBody.toJson.toUTF8) :: List.replicate 4 (.run t .go)

/-- A call is answered by a stream and gives its permit back. -/
def streamed (t : Nat) : List (ThreadAct McpHandler.CallPc McpHandler.CallInput) :=
  [.run t (.answered requestEnv), .run t .go]

end Sample

namespace McpHandler

/-- With one permit, two calls have passed the comparison: the one whose approval is waited for has given its permit back. -/
def twoAdmitted : (Sample.handler.calls 1).machine.RunTo (fun _ _ => true) fun s =>
    decide (0 < Table.total (fun _ p => p.passed) s.threads ∧ 1 < Table.total (fun _ p => p.inProgress) s.threads) where
  actions := Sample.admitted 0 ++ Sample.streamed 0 ++ Sample.admitted 1
  passes := by decide +kernel

theorem two_admitted :
    ∃ s, (Sample.handler.calls 1).machine.Reachable s ∧ 0 < Table.total (fun _ p => p.passed) s.threads ∧
      1 < Table.total (fun _ p => p.inProgress) s.threads := by
  obtain ⟨s, hs, htest⟩ := twoAdmitted.exists_reachable
  exact ⟨s, hs, of_decide_eq_true htest⟩

/-- Two calls whose bodies have passed the comparison. -/
theorem aggregate_buffer_bounded_sample :
    ∃ s : ThreadState Load CallPc, 0 < Table.total (fun _ p => p.passed) s.threads ∧
      Table.total (fun _ p => p.passed) s.threads ≤ Sample.handler.maxAggregateBuffer ∧
      (∀ t p, s.threads.lookup t = some p → p.owes ≤ s.shared.bufferedBytes) ∧
      ((∀ t p, s.threads.lookup t = some p → p = .streaming) → s.shared.bufferedBytes = 0) := by
  obtain ⟨s, hs, hpassed, -⟩ := two_admitted
  exact ⟨s, hpassed, aggregate_buffer_bounded hs⟩

/-- With one permit, two requests are in progress: the one whose approval is waited for has given its permit back. -/
theorem requests_beyond_permits :
    ∃ s, (Sample.handler.calls 1).machine.Reachable s ∧ ¬ Table.total (fun _ p => p.inProgress) s.threads ≤ 1 := by
  obtain ⟨s, hs, -, htwo⟩ := two_admitted
  exact ⟨s, hs, Nat.not_le_of_lt htwo⟩

/-- No handling ends, and no batch acquires permits. -/
def coversSample (s : ThreadState Load CallPc) : ThreadAct CallPc CallInput → Bool
  | .spawn _ _ => true
  | .run _ (.answered _) => false
  | .run t _ =>
    match s.threads.lookup t with
    | some (.parsed _ (.batch _)) => false
    | _ => true

theorem covers_sample {s : ThreadState Load CallPc} {a : ThreadAct CallPc CallInput} (h : coversSample s a = true) :
    Sample.handler.Covers s a := by
  cases a with
  | spawn t p => trivial
  | run t i =>
    constructor
    · rintro size request env - rfl
      cases h
    · intro size items hp
      cases i with
      | answered env => cases h
      | _ =>
        simp only [coversSample, hp] at h
        cases h

/-- One permit and a request in progress. -/
def oneAdmitted : (Sample.handler.calls 1).machine.RunTo coversSample fun s =>
    decide (Table.total (fun _ p => p.inProgress) s.threads = 1) where
  actions := Sample.admitted 0
  passes := by decide +kernel

theorem requests_within_permits_sample :
    ∃ s : ThreadState Load CallPc, Table.total (fun _ p => p.inProgress) s.threads = 1 ∧
      Table.total (fun _ p => p.inProgress) s.threads ≤ 1 := by
  obtain ⟨s, hs, htest⟩ := oneAdmitted.exists_reachableWhen
  exact ⟨s, of_decide_eq_true htest, requests_within_permits (hs.mono fun _ _ h => covers_sample h)⟩

end McpHandler

end

end ThoughtGate
