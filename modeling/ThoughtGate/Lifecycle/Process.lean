import ThoughtGate.Lifecycle.Manager
import ThoughtGate.Transport.Upstream

/-!
# The process of the proxy

`main` of `thoughtgate-proxy/src/main.rs` with the tasks beside it: the handlers of the signals, the checker of the
upstream's health, the tasks of the connections, and the probes of readiness (`lifecycle/health.rs`). `main` verifies the
upstream, marks itself ready, accepts connections until the shutdown token is cancelled, drains and stops; each access to
the shared data is one step. `main` is one task, so where it stands is part of the process, and a thread `main` lets it take
its next step.

`track_request` does not keep a drain safe by itself, and `mark_ready` may store over a shutdown. In the process only the
accept loop tracks requests, and the drain comes after it in the same task: a process that ends well has closed every
connection, and at no moment are there more connections than permits (`process_accounted`).

What is left out: the pending tasks that fail at the shutdown, logs and telemetry, the sockets, and a panic in the task of a
connection.
-/

namespace ThoughtGate

/-- What `main` is configured with. -/
structure ProcessConfig where
  upstreamUrl : Option String
  requireUpstreamAtStartup : Bool
  startupTimeoutSecs : Nat
  maxConcurrentStreams : Nat

/-- The cells of `LifecycleManager` that are stored and loaded. -/
structure Health where
  state : LifecycleState := .starting
  configLoaded : Bool := false
  approvalStoreInitialized : Bool := false
  upstreamHealthy : Bool := false
deriving DecidableEq

/-- `is_shutting_down`. -/
def Health.isShuttingDown (h : Health) : Bool := h.state = .shuttingDown || h.state = .stopped

/-- `ReadinessChecks`. -/
structure ReadinessChecks where
  configLoaded : Bool
  upstreamReachable : Bool
  approvalStoreInitialized : Bool
deriving DecidableEq

/-- A `ReadinessResponse` with its code, and the first and the last moment of its probe. -/
structure ReadinessAnswer where
  since : Nat
  last : Nat
  code : Nat
  status : String
  checks : ReadinessChecks
  reason : Option String
deriving DecidableEq

/-- Where `main` stands: the access it makes next. -/
inductive ProxyPc where
  | connecting
  | deadline
  | markConfigLoaded
  | markApprovalStoreInitialized
  | markReady
  | accepting
  | trackCheck
  | trackAdd
  | limiting
  | acquiring
  | refusing
  | countConnection
  | countRequest
  | spawning
  | draining
  | stopping (result : DrainResult)
  | failed (error : String)
  | finished (result : Except String Unit)

/-- Where a task stands. -/
inductive TaskPc where
  | main
  | beginShutdown
  | cancelLifecycle
  | cancelShutdown
  | quit
  | checkUpstream
  | connection
  | handling
  | uncountConnection
  | uncountRequest
  | dropGuard
  | dropPermit
  | probe
  | probeUpstream (since : Nat) (down : Bool)
  | probeConfig (since : Nat) (down upstream : Bool)
  | probeStore (since : Nat) (down upstream config : Bool)
  | probeReady (since : Nat) (checks : ReadinessChecks)
  | probeAgain (since : Nat) (checks : ReadinessChecks)
  | probeState (since : Nat) (checks : ReadinessChecks)

/-- What a step takes from outside: the reply to a `HEAD` request to the upstream (its status, or the error of the request),
whether a deadline has passed, what the accept loop is woken by, and what the rate limiter says. -/
inductive ProcessInput where
  | go
  | upstream (reply : Except String Nat)
  | clock (late : Bool)
  | connected
  | acceptFailed
  | cancelled
  | limited (allowed : Bool)

/-- The shared data of the process, with every moment of the cells so far. The index of the moment at which `mark_ready`
stored is a ghost. -/
structure Process where
  health : Health := {}
  past : List Health := []
  main : ProxyPc := .connecting
  lifecycleToken : Bool := false
  shutdownToken : Bool := false
  activeRequests : Nat := 0
  /-- The permits of the semaphore that are left. -/
  available : Nat
  connectionsActive : Int := 0
  requestsActive : Int := 0
  /-- The tasks of connections that were spawned and have not begun. -/
  spawned : Nat := 0
  answers : List ReadinessAnswer := []
  readyAt : Option Nat := none
  exited : Bool := false

namespace Process

/-- The moments of the cells, the present one last. -/
def moments (m : Process) : List Health := m.past ++ [m.health]

/-- A store to the cells. -/
def store (m : Process) (health : Health) : Process := { m with health, past := m.past ++ [m.health] }

/-- A probe is answered. -/
def answer (m : Process) (since code : Nat) (status : String) (checks : ReadinessChecks) (reason : Option String) : Process :=
  { m with answers := m.answers ++ [⟨since, m.past.length, code, status, checks, reason⟩] }

end Process

/-- `Display` of `LifecycleState`. -/
def LifecycleState.display : LifecycleState → String
  | .starting => "starting"
  | .ready => "ready"
  | .shuttingDown => "shutting_down"
  | .stopped => "stopped"

namespace ReadinessChecks

/-- `all_pass`. -/
def allPass (c : ReadinessChecks) : Bool := c.configLoaded && c.upstreamReachable && c.approvalStoreInitialized

/-- `first_failure`. -/
def firstFailure (c : ReadinessChecks) : Option String :=
  if !c.configLoaded then some "config_loaded"
  else if !c.upstreamReachable then some "upstream_reachable"
  else if !c.approvalStoreInitialized then some "approval_store_initialized"
  else none

end ReadinessChecks

/-! ### The accesses -/

namespace ProxyPc

section

variable [HttpText] (c : ProcessConfig)

/-- `verify_upstream_connectivity`: the error with which `main` returns. -/
def connectivityError (reply : Except String Nat) : Option String :=
  match c.upstreamUrl with
  | none => none
  | some url =>
    if !c.requireUpstreamAtStartup then none
    else
      match reply with
      | .error e => some ("Cannot connect to upstream " ++ url ++ " at startup: " ++ e)
      | .ok status =>
        if 200 ≤ status ∧ status ≤ 399 then none
        else some ("Upstream " ++ url ++ " returned non-success status " ++ statusText status ++ " at startup")

/-- The next access of `main`. -/
def next (m : Process) : ProxyPc → ProcessInput → Option Process
  | .connecting, .upstream reply =>
    match connectivityError c reply with
    | some e => some { m with main := .failed e, exited := true }
    | none => some { m.store { m.health with upstreamHealthy := true } with main := .deadline }
  | .deadline, .clock late =>
    if late then
      some { m with
        main := .failed ("Startup timeout exceeded (" ++ toString c.startupTimeoutSecs ++ "s)"), exited := true }
    else some { m with main := .markConfigLoaded }
  | .markConfigLoaded, .go =>
    some { m.store { m.health with configLoaded := true } with main := .markApprovalStoreInitialized }
  | .markApprovalStoreInitialized, .go =>
    some { m.store { m.health with approvalStoreInitialized := true } with main := .markReady }
  | .markReady, .go =>
    some { m.store { m.health with state := .ready } with main := .accepting, readyAt := some (m.past.length + 1) }
  | .accepting, .connected => some { m with main := .trackCheck }
  | .accepting, .acceptFailed => some m
  | .accepting, .cancelled => if m.shutdownToken then some { m with main := .draining } else none
  -- `track_request`; a connection that is turned away is answered by a task of its own
  | .trackCheck, .go => some { m with main := if m.health.isShuttingDown then .accepting else .trackAdd }
  | .trackAdd, .go => some { m with activeRequests := m.activeRequests + 1, main := .limiting }
  | .limiting, .limited allowed => some { m with main := if allowed then .acquiring else .refusing }
  | .acquiring, .go =>
    if m.available = 0 then some { m with main := .refusing }
    else some { m with available := m.available - 1, main := .countConnection }
  | .refusing, .go => some { m with activeRequests := fetchSub m.activeRequests 1, main := .accepting }
  | .countConnection, .go => some { m with connectionsActive := m.connectionsActive + 1, main := .countRequest }
  | .countRequest, .go => some { m with requestsActive := m.requestsActive + 1, main := .spawning }
  | .spawning, .go => some { m with spawned := m.spawned + 1, main := .accepting }
  -- `graceful_shutdown`
  | .draining, .clock late =>
    match LifecycleManager.drainRound m.activeRequests late with
    | none => some m
    | some result => some { m with main := .stopping result }
  | .stopping .complete, .go =>
    some { m.store { m.health with state := .stopped } with main := .finished (.ok ()), exited := true }
  | .stopping (.timeout remaining), .go =>
    some { m.store { m.health with state := .stopped } with
      main := .finished (.error ("Drain timeout exceeded with " ++ toString remaining ++ " remaining requests"))
      exited := true }
  | _, _ => none

end

end ProxyPc

namespace TaskPc

/-- Where a task starts. -/
def start : TaskPc → Bool
  | .main | .beginShutdown | .quit | .checkUpstream | .connection | .probe => true
  | _ => false

/-- Whether the upstream is healthy by the reply to a check: only a server error and no reply at all say that it is not. -/
def upstreamHealthy : Except String Nat → Bool
  | .ok status => !(500 ≤ status && status ≤ 599)
  | .error _ => false

/-- The next access of a task. -/
def next [HttpText] (c : ProcessConfig) (m : Process) : TaskPc → ProcessInput → Option (Process × Option TaskPc)
  | .main, i => (m.main.next c m i).map fun m => (m, some .main)
  -- SIGINT and SIGTERM
  | .beginShutdown, .go => some (m.store { m.health with state := .shuttingDown }, some .cancelLifecycle)
  | .cancelLifecycle, .go => some ({ m with lifecycleToken := true }, some .cancelShutdown)
  | .cancelShutdown, .go => some ({ m with shutdownToken := true }, none)
  -- SIGQUIT
  | .quit, .go => some ({ m.store { m.health with state := .stopped } with exited := true }, none)
  -- `spawn_upstream_health_checker`
  | .checkUpstream, .upstream reply =>
    some (m.store { m.health with upstreamHealthy := upstreamHealthy reply }, some .checkUpstream)
  | .checkUpstream, .cancelled => if m.lifecycleToken then some (m, none) else none
  -- the task of a connection
  | .connection, .go => if m.spawned = 0 then none else some ({ m with spawned := m.spawned - 1 }, some .handling)
  | .handling, .go => some (m, some .uncountConnection)
  | .uncountConnection, .go => some ({ m with connectionsActive := m.connectionsActive - 1 }, some .uncountRequest)
  | .uncountRequest, .go => some ({ m with requestsActive := m.requestsActive - 1 }, some .dropGuard)
  | .dropGuard, .go => some ({ m with activeRequests := fetchSub m.activeRequests 1 }, some .dropPermit)
  | .dropPermit, .go => some ({ m with available := m.available + 1 }, none)
  -- `readiness_handler`, load by load
  | .probe, .go => some (m, some (.probeUpstream m.past.length m.health.isShuttingDown))
  | .probeUpstream since down, .go => some (m, some (.probeConfig since down m.health.upstreamHealthy))
  | .probeConfig since down upstream, .go => some (m, some (.probeStore since down upstream m.health.configLoaded))
  | .probeStore since down upstream config, .go =>
    let checks : ReadinessChecks := ⟨config, upstream, m.health.approvalStoreInitialized⟩
    if down then some (m.answer since 503 "not_ready" checks (some "shutting_down"), none)
    else if checks.allPass then some (m, some (.probeReady since checks))
    else some (m.answer since 503 "not_ready" checks checks.firstFailure, none)
  | .probeReady since checks, .go =>
    if m.health.state = .ready then some (m.answer since 200 "ready" checks none, none)
    else some (m, some (.probeAgain since checks))
  | .probeAgain since checks, .go =>
    if m.health.state = .ready then some (m.answer since 503 "not_ready" checks none, none)
    else some (m, some (.probeState since checks))
  | .probeState since checks, .go =>
    some (m.answer since 503 "not_ready" checks (some ("lifecycle_state: " ++ m.health.state.display)), none)
  | _, _ => none

end TaskPc

/-- The tasks of the process; after its end they take no step. -/
def process [HttpText] (c : ProcessConfig) : Program Process TaskPc ProcessInput Empty where
  init := { available := c.maxConcurrentStreams }
  start m _ p := p.start && !m.exited
  next m p i := if m.exited then none else p.next c m i
  held _ := []
  wants _ := none

/-! ### What the accesses do -/

/-- The accesses of `main` after which nothing but its place is different, and no step of the startup is done. -/
inductive ProxyPc.Moves : ProxyPc → ProxyPc → Prop
  | connected : Moves .accepting .trackCheck
  | shutDown : Moves .accepting .draining
  | turnedAway : Moves .trackCheck .accepting
  | notTurnedAway : Moves .trackCheck .trackAdd
  | allowed : Moves .limiting .acquiring
  | limited : Moves .limiting .refusing
  | full : Moves .acquiring .refusing

/-- The accesses of `main`, by what they do. -/
inductive ProxyPc.Step (m : Process) : ProxyPc → Process → Prop
  | failed {p : ProxyPc} (hp : p = .connecting ∨ p = .deadline) (e : String) :
    ProxyPc.Step m p { m with main := .failed e, exited := true }
  | reached : ProxyPc.Step m .connecting { m.store { m.health with upstreamHealthy := true } with main := .deadline }
  | inTime : ProxyPc.Step m .deadline { m with main := .markConfigLoaded }
  | markConfigLoaded : ProxyPc.Step m .markConfigLoaded
    { m.store { m.health with configLoaded := true } with main := .markApprovalStoreInitialized }
  | markApprovalStoreInitialized : ProxyPc.Step m .markApprovalStoreInitialized
    { m.store { m.health with approvalStoreInitialized := true } with main := .markReady }
  | markReady : ProxyPc.Step m .markReady
    { m.store { m.health with state := .ready } with main := .accepting, readyAt := some (m.past.length + 1) }
  | waits {p : ProxyPc} (hp : p = .accepting ∨ p = .draining) : ProxyPc.Step m p m
  | moves {p q : ProxyPc} (hmoves : p.Moves q) : ProxyPc.Step m p { m with main := q }
  | trackAdd : ProxyPc.Step m .trackAdd { m with activeRequests := m.activeRequests + 1, main := .limiting }
  | acquiring (havailable : m.available ≠ 0) :
    ProxyPc.Step m .acquiring { m with available := m.available - 1, main := .countConnection }
  | refusing : ProxyPc.Step m .refusing { m with activeRequests := fetchSub m.activeRequests 1, main := .accepting }
  | countConnection :
    ProxyPc.Step m .countConnection { m with connectionsActive := m.connectionsActive + 1, main := .countRequest }
  | countRequest : ProxyPc.Step m .countRequest { m with requestsActive := m.requestsActive + 1, main := .spawning }
  | spawning : ProxyPc.Step m .spawning { m with spawned := m.spawned + 1, main := .accepting }
  | drained {result : DrainResult} (hresult : result = .complete → m.activeRequests = 0) :
    ProxyPc.Step m .draining { m with main := .stopping result }
  | stopped : ProxyPc.Step m (.stopping .complete)
    { m.store { m.health with state := .stopped } with main := .finished (.ok ()), exited := true }
  | stoppedLate (remaining : Nat) (e : String) : ProxyPc.Step m (.stopping (.timeout remaining))
    { m.store { m.health with state := .stopped } with main := .finished (.error e), exited := true }

/-- The tasks of a readiness probe. -/
def TaskPc.probing : TaskPc → Bool
  | .probe | .probeUpstream .. | .probeConfig .. | .probeStore .. | .probeReady .. | .probeAgain .. | .probeState .. => true
  | _ => false

/-- The accesses of a task, by what they do. -/
inductive TaskPc.Step (m : Process) : TaskPc → Process → Option TaskPc → Prop
  | main {m' : Process} (hstep : ProxyPc.Step m m.main m') : TaskPc.Step m .main m' (some .main)
  | beginShutdown : TaskPc.Step m .beginShutdown (m.store { m.health with state := .shuttingDown }) (some .cancelLifecycle)
  | cancelLifecycle : TaskPc.Step m .cancelLifecycle { m with lifecycleToken := true } (some .cancelShutdown)
  | cancelShutdown : TaskPc.Step m .cancelShutdown { m with shutdownToken := true } none
  | quit : TaskPc.Step m .quit { m.store { m.health with state := .stopped } with exited := true } none
  | checked (healthy : Bool) :
    TaskPc.Step m .checkUpstream (m.store { m.health with upstreamHealthy := healthy }) (some .checkUpstream)
  | unchecked : TaskPc.Step m .checkUpstream m none
  | begun (hspawned : m.spawned ≠ 0) : TaskPc.Step m .connection { m with spawned := m.spawned - 1 } (some .handling)
  | handled : TaskPc.Step m .handling m (some .uncountConnection)
  | uncountConnection :
    TaskPc.Step m .uncountConnection { m with connectionsActive := m.connectionsActive - 1 } (some .uncountRequest)
  | uncountRequest : TaskPc.Step m .uncountRequest { m with requestsActive := m.requestsActive - 1 } (some .dropGuard)
  | dropGuard : TaskPc.Step m .dropGuard { m with activeRequests := fetchSub m.activeRequests 1 } (some .dropPermit)
  | dropPermit : TaskPc.Step m .dropPermit { m with available := m.available + 1 } none
  | probes {p p' : TaskPc} (hp : p.probing = true) (hp' : p'.probing = true) : TaskPc.Step m p m (some p')
  | answers {p : TaskPc} (hp : p.probing = true) (since code : Nat) (status : String) (checks : ReadinessChecks)
    (reason : Option String) : TaskPc.Step m p (m.answer since code status checks reason) none

section

variable [HttpText] {c : ProcessConfig} {m m' : Process}

theorem ProxyPc.next_step {p : ProxyPc} {i : ProcessInput} (h : p.next c m i = some m') : ProxyPc.Step m p m' := by
  cases p with
  | connecting =>
    cases i with
    | upstream reply =>
      simp only [next] at h
      split at h
      · cases h
        exact .failed (Or.inl rfl) _
      · cases h
        exact .reached
    | _ => cases h
  | deadline =>
    cases i with
    | clock late =>
      simp only [next] at h
      split at h
      · cases h
        exact .failed (Or.inr rfl) _
      · cases h
        exact .inTime
    | _ => cases h
  | markConfigLoaded =>
    cases i with
    | go =>
      cases h
      exact .markConfigLoaded
    | _ => cases h
  | markApprovalStoreInitialized =>
    cases i with
    | go =>
      cases h
      exact .markApprovalStoreInitialized
    | _ => cases h
  | markReady =>
    cases i with
    | go =>
      cases h
      exact .markReady
    | _ => cases h
  | accepting =>
    cases i with
    | connected =>
      cases h
      exact .moves .connected
    | acceptFailed =>
      cases h
      exact .waits (Or.inl rfl)
    | cancelled =>
      obtain ⟨-, h⟩ := Option.ite_none_right_eq_some.mp h
      cases h
      exact .moves .shutDown
    | _ => cases h
  | trackCheck =>
    cases i with
    | go =>
      cases h
      split
      · exact .moves .turnedAway
      · exact .moves .notTurnedAway
    | _ => cases h
  | trackAdd =>
    cases i with
    | go =>
      cases h
      exact .trackAdd
    | _ => cases h
  | limiting =>
    cases i with
    | limited allowed =>
      cases h
      cases allowed with
      | true => exact .moves .allowed
      | false => exact .moves .limited
    | _ => cases h
  | acquiring =>
    cases i with
    | go =>
      simp only [next] at h
      split at h
      · cases h
        exact .moves .full
      · rename_i havailable
        cases h
        exact .acquiring havailable
    | _ => cases h
  | refusing =>
    cases i with
    | go =>
      cases h
      exact .refusing
    | _ => cases h
  | countConnection =>
    cases i with
    | go =>
      cases h
      exact .countConnection
    | _ => cases h
  | countRequest =>
    cases i with
    | go =>
      cases h
      exact .countRequest
    | _ => cases h
  | spawning =>
    cases i with
    | go =>
      cases h
      exact .spawning
    | _ => cases h
  | draining =>
    cases i with
    | clock late =>
      simp only [next] at h
      split at h
      · cases h
        exact .waits (Or.inr rfl)
      · rename_i hround
        cases h
        refine .drained ?_
        rintro rfl
        exact LifecycleManager.drainRound_complete.mp hround
    | _ => cases h
  | stopping result =>
    cases i with
    | go =>
      cases result with
      | complete =>
        cases h
        exact .stopped
      | timeout remaining =>
        cases h
        exact .stoppedLate remaining _
    | _ => cases result <;> cases h
  | failed e | finished result => cases i <;> cases h

theorem TaskPc.next_step {p : TaskPc} {i : ProcessInput} {p' : Option TaskPc} (h : p.next c m i = some (m', p')) :
    TaskPc.Step m p m' p' := by
  cases p with
  | main =>
    obtain ⟨m₁, hmain, heq⟩ := Option.map_eq_some_iff.mp h
    cases heq
    exact .main (ProxyPc.next_step hmain)
  | beginShutdown =>
    cases i with
    | go =>
      cases h
      exact .beginShutdown
    | _ => cases h
  | cancelLifecycle =>
    cases i with
    | go =>
      cases h
      exact .cancelLifecycle
    | _ => cases h
  | cancelShutdown =>
    cases i with
    | go =>
      cases h
      exact .cancelShutdown
    | _ => cases h
  | quit =>
    cases i with
    | go =>
      cases h
      exact .quit
    | _ => cases h
  | checkUpstream =>
    cases i with
    | upstream reply =>
      cases h
      exact .checked _
    | cancelled =>
      obtain ⟨-, h⟩ := Option.ite_none_right_eq_some.mp h
      cases h
      exact .unchecked
    | _ => cases h
  | connection =>
    cases i with
    | go =>
      obtain ⟨hspawned, h⟩ := Option.ite_none_left_eq_some.mp h
      cases h
      exact .begun hspawned
    | _ => cases h
  | handling =>
    cases i with
    | go =>
      cases h
      exact .handled
    | _ => cases h
  | uncountConnection =>
    cases i with
    | go =>
      cases h
      exact .uncountConnection
    | _ => cases h
  | uncountRequest =>
    cases i with
    | go =>
      cases h
      exact .uncountRequest
    | _ => cases h
  | dropGuard =>
    cases i with
    | go =>
      cases h
      exact .dropGuard
    | _ => cases h
  | dropPermit =>
    cases i with
    | go =>
      cases h
      exact .dropPermit
    | _ => cases h
  | probe | probeUpstream | probeConfig =>
    cases i with
    | go =>
      cases h
      exact .probes rfl rfl
    | _ => cases h
  | probeStore since down upstream config =>
    cases i with
    | go =>
      simp only [next] at h
      split at h
      · cases h
        exact .answers rfl _ _ _ _ _
      · split at h
        · cases h
          exact .probes rfl rfl
        · cases h
          exact .answers rfl _ _ _ _ _
    | _ => cases h
  | probeReady since checks | probeAgain since checks =>
    cases i with
    | go =>
      simp only [next] at h
      split at h
      · cases h
        exact .answers rfl _ _ _ _ _
      · cases h
        exact .probes rfl rfl
    | _ => cases h
  | probeState since checks =>
    cases i with
    | go =>
      cases h
      exact .answers rfl _ _ _ _ _
    | _ => cases h

end

/-! ### Connections -/

/-- The shares of a connection: the guard of `track_request`, a permit, and its parts of the two gauges. -/
inductive Share where
  | guard
  | permit
  | connection
  | request
deriving DecidableEq

/-- What `main` has of it for the connection in its hands. -/
def ProxyPc.holds : Share → ProxyPc → Nat
  | .guard, .limiting | .guard, .acquiring | .guard, .refusing => 1
  | .guard, .countConnection | .guard, .countRequest | .guard, .spawning => 1
  | .permit, .countConnection | .permit, .countRequest | .permit, .spawning => 1
  | .connection, .countRequest | .connection, .spawning => 1
  | .request, .spawning => 1
  | _, _ => 0

/-- What the task of a connection has of it. -/
def TaskPc.holds : Share → TaskPc → Nat
  | _, .handling | _, .uncountConnection => 1
  | .guard, .uncountRequest | .permit, .uncountRequest | .request, .uncountRequest => 1
  | .guard, .dropGuard | .permit, .dropGuard => 1
  | .permit, .dropPermit => 1
  | _, _ => 0

/-- The counter of a resource is right when the running tasks of connections have `n` of it: `main` may hold one more, and
each task that has not begun has one. -/
def Process.Balanced (c : ProcessConfig) (r : Share) (m : Process) (n : Nat) : Prop :=
  match r with
  | .guard => m.activeRequests = n + m.main.holds .guard + m.spawned
  | .permit => m.available + (n + m.main.holds .permit + m.spawned) = c.maxConcurrentStreams
  | .connection => m.connectionsActive = (n + m.main.holds .connection + m.spawned : Nat)
  | .request => m.requestsActive = (n + m.main.holds .request + m.spawned : Nat)

/-- `main` has seen that no connection is left. -/
def ProxyPc.drained : ProxyPc → Prop
  | .stopping .complete | .finished (.ok ()) => True
  | _ => False

section

variable {c : ProcessConfig} {r : Share} {m m' : Process} {n : Nat}

theorem ProxyPc.Moves.holds {p q : ProxyPc} (h : p.Moves q) : q.holds r = p.holds r := by
  cases h <;> cases r <;> rfl

theorem ProxyPc.Moves.not_drained {p q : ProxyPc} (h : p.Moves q) : ¬ q.drained := by
  cases h <;> exact id

theorem TaskPc.holds_probing {p : TaskPc} (h : p.probing = true) : p.holds r = 0 := by
  cases p with
  | probe | probeUpstream | probeConfig | probeStore | probeReady | probeAgain | probeState => cases r <;> rfl
  | _ => cases h

/-- An access of `main` keeps the counters right. -/
theorem ProxyPc.Step.balanced (h : ProxyPc.Step m m.main m') (hm : m.Balanced c r n) : m'.Balanced c r n := by
  generalize hmain : m.main = p at h
  cases h with
  | failed hp e =>
    rcases hp with rfl | rfl <;> cases r <;> simpa [Process.Balanced, ProxyPc.holds, hmain] using hm
  | moves hmoves =>
    have hsame := hmoves.holds (r := r)
    cases r <;> simpa [Process.Balanced, hmain, hsame] using hm
  | waits hp => exact hm
  | trackAdd | acquiring havailable | countConnection | countRequest | spawning =>
    cases r <;> simp [Process.Balanced, ProxyPc.holds, hmain] at hm ⊢ <;> omega
  | refusing =>
    cases r with
    | guard =>
      simp only [Process.Balanced, ProxyPc.holds, hmain] at hm ⊢
      rw [fetchSub_of_le (by omega)]
      omega
    | _ => simpa [Process.Balanced, ProxyPc.holds, hmain] using hm
  | reached | inTime | markConfigLoaded | markApprovalStoreInitialized | markReady | drained | stopped | stoppedLate =>
    cases r <;> simpa [Process.Balanced, Process.store, ProxyPc.holds, hmain] using hm

/-- An access of a task keeps the counters right; `n` is what the other tasks have. -/
theorem TaskPc.Step.balanced {p : TaskPc} {p' : Option TaskPc} (h : TaskPc.Step m p m' p')
    (hm : m.Balanced c r (p.holds r + n)) : m'.Balanced c r (Program.weigh (TaskPc.holds r) p' + n) := by
  cases h with
  | main hstep =>
    have hnone : TaskPc.holds r .main = 0 := by cases r <;> rfl
    rw [Program.weigh_some, hnone]
    rw [hnone] at hm
    exact hstep.balanced hm
  | begun hspawned | uncountConnection | uncountRequest | dropPermit =>
    cases r <;> simp [Process.Balanced, TaskPc.holds] at hm ⊢ <;> omega
  | dropGuard =>
    cases r with
    | guard =>
      simp only [Process.Balanced, TaskPc.holds, Program.weigh_some] at hm ⊢
      rw [fetchSub_of_le (by omega)]
      omega
    | _ => simpa [Process.Balanced, TaskPc.holds] using hm
  | probes hp hp' =>
    rw [TaskPc.holds_probing hp] at hm
    rw [Program.weigh_some, TaskPc.holds_probing hp']
    exact hm
  | answers hp =>
    rw [TaskPc.holds_probing hp] at hm
    cases r <;> exact hm
  | beginShutdown | cancelLifecycle | cancelShutdown | quit | checked | unchecked | handled =>
    cases r <;> simpa [Process.Balanced, Process.store, TaskPc.holds] using hm

/-- `main` has drained only where it has read zero, and it tracks no request after that. -/
theorem ProxyPc.Step.of_drained (h : ProxyPc.Step m m.main m') (hdrained : m'.main.drained) :
    m'.activeRequests = m.activeRequests ∧ (m.main.drained ∨ m.activeRequests = 0) := by
  generalize hmain : m.main = p at h
  cases h with
  | stopped => exact ⟨rfl, Or.inl trivial⟩
  | drained hresult =>
    rename_i result
    cases result with
    | complete => exact ⟨rfl, Or.inr (hresult rfl)⟩
    | timeout remaining => exact hdrained.elim
  | moves hmoves => exact absurd hdrained hmoves.not_drained
  | waits hp =>
    rw [hmain] at hdrained
    rcases hp with rfl | rfl <;> exact hdrained.elim
  | _ => exact hdrained.elim

/-- A task other than `main` leaves `main` where it is, and only the drop of a guard changes the number of requests. -/
theorem TaskPc.Step.main_eq {p : TaskPc} {p' : Option TaskPc} (h : TaskPc.Step m p m' p') (hp : p ≠ .main) :
    m'.main = m.main ∧ (p ≠ .dropGuard → m'.activeRequests = m.activeRequests) := by
  cases h with
  | main hstep => exact absurd rfl hp
  | dropGuard => exact ⟨rfl, fun hne => absurd rfl hne⟩
  | _ => exact ⟨rfl, fun _ => rfl⟩

theorem TaskPc.Step.of_main {p' : Option TaskPc} (h : TaskPc.Step m .main m' p') : ProxyPc.Step m m.main m' := by
  cases h with
  | main hstep => exact hstep
  | probes hp | answers hp => cases hp

end

section

variable [HttpText] {c : ProcessConfig} {r : Share} {m m' : Process}

theorem process_next {p : TaskPc} {i : ProcessInput} {p' : Option TaskPc} (h : (process c).next m p i = some (m', p')) :
    p.next c m i = some (m', p') :=
  (Option.ite_none_left_eq_some.mp h).2

/-- What the running tasks of connections have. -/
def openShares (r : Share) (s : ThreadState Process TaskPc) : Nat := s.threads.total fun _ p => p.holds r

variable {s : ThreadState Process TaskPc}

omit [HttpText] in
theorem start_holds {p : TaskPc} (h : p.start = true) : p.holds r = 0 := by
  cases p with
  | main | beginShutdown | quit | checkUpstream | connection | probe => cases r <;> rfl
  | _ => cases h

/-- The counters are right in every state. -/
theorem process_balanced (h : (process c).machine.Reachable s) (r : Share) : s.shared.Balanced c r (openShares r s) := by
  refine Program.total_invariant (R := Process.Balanced c r) (TaskPc.holds r) ?_ ?_ ?_ h
  · cases r <;> rfl
  · intro m threads p hstart
    rw [process, Bool.and_eq_true] at hstart
    exact start_holds hstart.1
  · intro s t i p m p' _ _ _ hnext hm
    exact (TaskPc.next_step (process_next hnext)).balanced hm

/-- Once `main` has drained, no guard is left. -/
theorem process_drained (h : (process c).machine.Reachable s) (hdrained : s.shared.main.drained) :
    s.shared.activeRequests = 0 := by
  have hall : s.shared.Balanced c .guard (openShares .guard s) ∧ (s.shared.main.drained → s.shared.activeRequests = 0) := by
    refine Program.total_invariant (R := fun m n => m.Balanced c .guard n ∧ (m.main.drained → m.activeRequests = 0))
      (TaskPc.holds .guard) ⟨rfl, fun hd => hd.elim⟩ ?_ ?_ h
    · intro m threads p hstart
      rw [process, Bool.and_eq_true] at hstart
      exact start_holds hstart.1
    · rintro s t i p m p' - - - hnext ⟨hbalanced, hzero⟩
      have hstep := TaskPc.next_step (process_next hnext)
      refine ⟨hstep.balanced hbalanced, fun hd => ?_⟩
      by_cases hmain : p = .main
      · subst hmain
        obtain ⟨hsame, hcases⟩ := hstep.of_main.of_drained hd
        rw [hsame]
        rcases hcases with hold | hread
        · exact hzero hold
        · exact hread
      · obtain ⟨hsame, hrequests⟩ := hstep.main_eq hmain
        rw [hsame] at hd
        have hnone := hzero hd
        by_cases hguard : p = .dropGuard
        · -- a guard that is dropped was counted
          subst hguard
          have hcount : s.shared.activeRequests = 1 + _ + _ + _ := hbalanced
          omega
        · rw [hrequests hguard, hnone]
  exact hall.2 hdrained

omit [HttpText] in
/-- A task that has one of the gauges has a guard. -/
theorem TaskPc.holds_le_guard (p : TaskPc) (hr : r ≠ .permit) : p.holds r ≤ p.holds .guard := by
  cases p <;> cases r <;> first | exact Nat.le_refl _ | exact Nat.zero_le _ | exact absurd rfl hr

/-- In every state of the process the guards, the permits and the two gauges are those of the connections, which are never more
than the permits; and once `main` has drained without running out of time, no connection is being handled or waits to be, the
gauges are back at zero, and so it stays. -/
theorem process_accounted (h : (process c).machine.Reachable s) :
    (∀ r, s.shared.Balanced c r (openShares r s)) ∧
    openShares .permit s + s.shared.spawned ≤ c.maxConcurrentStreams ∧
    (s.shared.main.drained →
      s.shared.activeRequests = 0 ∧ s.shared.connectionsActive = 0 ∧ s.shared.requestsActive = 0 ∧ s.shared.spawned = 0 ∧
        ∀ t, s.threads.lookup t ≠ some .handling) := by
  have hbalanced := process_balanced h
  refine ⟨hbalanced, ?_, fun hdrained => ?_⟩
  · have hpermits : s.shared.available + (openShares .permit s + s.shared.main.holds .permit + s.shared.spawned) =
        c.maxConcurrentStreams := hbalanced .permit
    omega
  · have hzero := process_drained h hdrained
    have hguards : s.shared.activeRequests = openShares .guard s + s.shared.main.holds .guard + s.shared.spawned :=
      hbalanced .guard
    have hnone : ∀ r, r ≠ .permit → openShares r s = 0 ∧ s.shared.main.holds r = 0 := by
      intro r hr
      have hle : openShares r s ≤ openShares .guard s := Table.total_mono fun _ p => p.holds_le_guard hr
      refine ⟨by omega, ?_⟩
      cases hmain : s.shared.main with
      | stopping result => cases r <;> rfl
      | finished result => cases r <;> rfl
      | _ =>
        rw [hmain] at hdrained
        exact hdrained.elim
    have hconnections : s.shared.connectionsActive =
        (openShares .connection s + s.shared.main.holds .connection + s.shared.spawned : Nat) := hbalanced .connection
    have hrequests : s.shared.requestsActive =
        (openShares .request s + s.shared.main.holds .request + s.shared.spawned : Nat) := hbalanced .request
    obtain ⟨hconnection, hconnection'⟩ := hnone .connection nofun
    obtain ⟨hrequest, hrequest'⟩ := hnone .request nofun
    refine ⟨hzero, by omega, by omega, by omega, ?_⟩
    intro t ht
    have hone : 1 ≤ openShares .guard s := Table.le_total (fun _ p => TaskPc.holds .guard p) ht
    omega

end

section

attribute [local instance] Sample.httpText

namespace Sample

/-- Two connections at a time. -/
def twoStreams : ProcessConfig where
  upstreamUrl := none
  requireUpstreamAtStartup := true
  startupTimeoutSecs := 15
  maxConcurrentStreams := 2

/-- The process starts up and has one connection when it is told to shut down; the drain waits for it. -/
def drainedRun : List (ThreadAct TaskPc ProcessInput) :=
  [.spawn 0 .main, .run 0 (.upstream (.ok 200)), .run 0 (.clock false), .run 0 .go, .run 0 .go, .run 0 .go, .run 0 .connected,
    .run 0 .go, .run 0 .go, .run 0 (.limited true), .run 0 .go, .run 0 .go, .run 0 .go, .run 0 .go, .spawn 1 .connection,
    .run 1 .go, .spawn 2 .beginShutdown, .run 2 .go, .run 2 .go, .run 2 .go, .run 0 .cancelled, .run 0 (.clock false),
    .run 1 .go, .run 1 .go, .run 1 .go, .run 1 .go, .run 0 (.clock false), .run 0 .go]

def endedWell (s : ThreadState Process TaskPc) : Bool :=
  match s.shared.main with
  | .finished (.ok ()) => true
  | _ => false

theorem drained_of_endedWell {s : ThreadState Process TaskPc} (h : endedWell s = true) : s.shared.main.drained := by
  unfold endedWell at h
  split at h
  · rename_i hmain
    rw [hmain]
    trivial
  · cases h

end Sample

theorem process_accounted_sample :
    ∃ s, (process Sample.twoStreams).machine.Reachable s ∧ Sample.endedWell s = true ∧ s.shared.available = 1 ∧
      openShares .permit s = 1 ∧ s.shared.activeRequests = 0 ∧ s.shared.connectionsActive = 0 := by
  have hrun : ((process Sample.twoStreams).machine.exec (process Sample.twoStreams).machine.init Sample.drainedRun).any
      (fun s => Sample.endedWell s && s.shared.available == 1) = true := by
    decide
  obtain ⟨s, hs, htest⟩ := Machine.exists_reachable_of_exec hrun
  rw [Bool.and_eq_true, beq_iff_eq] at htest
  obtain ⟨hended, havailable⟩ := htest
  obtain ⟨hbalanced, -, hdrained⟩ := process_accounted hs
  have hmain := Sample.drained_of_endedWell hended
  obtain ⟨hzero, hconnections, -, hspawned, -⟩ := hdrained hmain
  have hpermits : s.shared.available + (openShares .permit s + s.shared.main.holds .permit + s.shared.spawned) = 2 :=
    hbalanced .permit
  have hnone : s.shared.main.holds .permit = 0 := by
    cases hcase : s.shared.main with
    | stopping result => rfl
    | finished result => rfl
    | _ =>
      rw [hcase] at hmain
      exact hmain.elim
  exact ⟨s, hs, hended, havailable, by omega, hzero, hconnections⟩

end

end ThoughtGate
