import ThoughtGate.Lib.Threads
import ThoughtGate.Task.Store

/-!
# The lifecycle manager

`lifecycle/mod.rs` with its calls interleaved. The shared data are the state cell, the counter of active
requests and the cancellation token; every load, store, `fetch_add`, `fetch_sub` and `cancel` on them is one step
of a thread. A request that has its `RequestGuard` is a thread too: its next step is the drop.

The probes (`state`, `is_ready`, `is_shutting_down`) are one load each, so they are functions of the state they
are called in. The load of `drain_requests` that reads zero is the step at which it returns `Complete`: nothing
shared is touched in between. Metrics, logs, the clock and the health of the upstream are left out; whether the
drain's deadline has passed is an input.
-/

namespace ThoughtGate

/-- `LifecycleState`. -/
inductive LifecycleState where
  | starting
  | ready
  | shuttingDown
  | stopped
deriving DecidableEq

/-- The place of a state in `Starting → Ready → ShuttingDown → Stopped`. -/
def LifecycleState.rank : LifecycleState → Nat
  | .starting => 0
  | .ready => 1
  | .shuttingDown => 2
  | .stopped => 3

/-- `DrainResult`. -/
inductive DrainResult where
  | complete
  | timeout (remaining : Nat)
deriving DecidableEq

/-- The shared part of `LifecycleManager`. The two ghost flags record that some `begin_shutdown` has returned,
and that some `drain_requests` has returned `Complete` after that. -/
structure LifecycleManager where
  state : LifecycleState
  shutdownToken : Bool
  activeRequests : Nat
  shutdownReturned : Bool
  drained : Bool
deriving DecidableEq

namespace LifecycleManager

/-- `LifecycleManager::new`. -/
def new : LifecycleManager where
  state := .starting
  shutdownToken := false
  activeRequests := 0
  shutdownReturned := false
  drained := false

/-- `is_ready`. -/
def isReady (m : LifecycleManager) : Bool := m.state = .ready

/-- `is_shutting_down`. -/
def isShuttingDown (m : LifecycleManager) : Bool := m.state = .shuttingDown || m.state = .stopped

theorem isShuttingDown_iff {m : LifecycleManager} : m.isShuttingDown = true ↔ 2 ≤ m.state.rank := by
  cases h : m.state <;> simp [isShuttingDown, LifecycleState.rank, h]

theorem isReady_of_rank {m : LifecycleManager} (h : 2 ≤ m.state.rank) : m.isReady = false := by
  cases hs : m.state <;> simp_all [isReady, LifecycleState.rank]

/-- What `drain_requests` makes of a count it has loaded; `none`: it sleeps and loads again. -/
def drainRound (active : Nat) (late : Bool) : Option DrainResult :=
  if active = 0 then some .complete else if late then some (.timeout active) else none

theorem drainRound_complete {active : Nat} {late : Bool} :
    drainRound active late = some .complete ↔ active = 0 := by
  unfold drainRound
  split_ifs with h1 h2 <;> simp [h1]

end LifecycleManager

/-! ### The calls -/

/-- Where a call stands: the access it makes next. -/
inductive LifecyclePc where
  | markReady
  | beginShutdown
  | beginShutdownCancel
  | beginShutdownLog
  | markStopped
  | trackCheck
  | trackAdd
  | guardDrop
  | drainLoad
deriving DecidableEq

namespace LifecyclePc

/-- Where a call starts. -/
def start : LifecyclePc → Bool
  | .markReady | .beginShutdown | .markStopped | .trackCheck | .drainLoad => true
  | _ => false

/-- One access; `late` says, for a drain, whether its deadline has passed. -/
def next (m : LifecycleManager) (late : Bool) : LifecyclePc → LifecycleManager × Option LifecyclePc
  | .markReady => ({ m with state := .ready }, none)
  | .beginShutdown => ({ m with state := .shuttingDown }, some .beginShutdownCancel)
  | .beginShutdownCancel => ({ m with shutdownToken := true }, some .beginShutdownLog)
  | .beginShutdownLog => ({ m with shutdownReturned := true }, none)
  | .markStopped => ({ m with state := .stopped }, none)
  | .trackCheck => if m.isShuttingDown then (m, none) else (m, some .trackAdd)
  | .trackAdd => ({ m with activeRequests := m.activeRequests + 1 }, some .guardDrop)
  | .guardDrop => ({ m with activeRequests := fetchSub m.activeRequests 1 }, none)
  | .drainLoad =>
    match LifecycleManager.drainRound m.activeRequests late with
    | none => (m, some .drainLoad)
    | some .complete => ({ m with drained := m.drained || m.shutdownReturned }, none)
    | some (.timeout _) => (m, none)

/-- The live guards that a thread holds. -/
def guards : LifecyclePc → Nat
  | .guardDrop => 1
  | _ => 0

end LifecyclePc

/-- The manager and its running calls; they take no locks. -/
def lifecycleProgram : Program LifecycleManager LifecyclePc Bool Empty where
  init := .new
  start _ _ p := p.start
  next m p late := some (p.next m late)
  held _ := []
  wants _ := none

abbrev lifecycleMachine : Machine (ThreadState LifecycleManager LifecyclePc) (ThreadAct LifecyclePc Bool) :=
  lifecycleProgram.machine

/-- The live guards of a state. -/
def liveGuards (s : ThreadState LifecycleManager LifecyclePc) : Nat := s.threads.total fun _ p => p.guards

/-- A thread stands at this access. -/
def Standing (s : ThreadState LifecycleManager LifecyclePc) (p : LifecyclePc) : Prop :=
  ∃ t, s.threads.lookup t = some p

/-! ### What a step can do -/

/-- A step is the start of a call, or one access of a running call. -/
theorem lifecycle_step {s s' : ThreadState LifecycleManager LifecyclePc} {a : ThreadAct LifecyclePc Bool}
    (h : lifecycleMachine.step s a = some s') :
    (∃ t p, a = .spawn t p ∧ s.threads.lookup t = none ∧ p.start = true ∧
      s' = { s with threads := s.threads.insert t p }) ∨
    (∃ t late p, a = .run t late ∧ s.threads.lookup t = some p ∧
      s' = ⟨(p.next s.shared late).1, Program.settle s.threads t (p.next s.shared late).2⟩) := by
  rcases Program.step_cases h with ⟨t, p, ha, hnone, hstart, hs⟩ | ⟨t, late, p, m, p', ha, hp, -, hnext, hs⟩
  · exact Or.inl ⟨t, p, ha, hnone, hstart, hs⟩
  · have hpair : p.next s.shared late = (m, p') := Option.some.inj hnext
    refine Or.inr ⟨t, late, p, ha, hp, ?_⟩
    rw [hpair]
    exact hs

/-- Who stands where after a step of one thread. -/
theorem Standing.of_run {s : ThreadState LifecycleManager LifecyclePc} {t : Nat} {late : Bool} {p q : LifecyclePc}
    {m : LifecycleManager} (h : Standing ⟨m, Program.settle s.threads t (p.next s.shared late).2⟩ q) :
    (p.next s.shared late).2 = some q ∨ Standing s q := by
  obtain ⟨u, hu⟩ := h
  rcases Program.settle_cases hu with ⟨-, hq⟩ | ⟨-, hold⟩
  · exact Or.inl hq
  · exact Or.inr ⟨u, hold⟩

/-- Who stands where after a call has started. -/
theorem Standing.of_spawn {s : ThreadState LifecycleManager LifecyclePc} {t : Nat} {p q : LifecyclePc}
    (h : Standing { s with threads := s.threads.insert t p } q) : p = q ∨ Standing s q := by
  obtain ⟨u, hu⟩ := h
  by_cases hut : u = t
  · subst hut
    rw [AList.lookup_insert] at hu
    exact Or.inl (Option.some.inj hu)
  · rw [AList.lookup_insert_ne hut] at hu
    exact Or.inr ⟨u, hu⟩

/-- Only a load that has not seen the shutdown leads to the increment. -/
theorem LifecyclePc.next_trackAdd {m : LifecycleManager} {late : Bool} {p : LifecyclePc}
    (h : (p.next m late).2 = some .trackAdd) : p = .trackCheck ∧ m.isShuttingDown = false := by
  cases p with
  | trackCheck =>
    simp only [next] at h
    split at h
    · cases h
    · rename_i hdown
      exact ⟨rfl, by simpa using hdown⟩
  | drainLoad =>
    simp only [next] at h
    split at h <;> cases h
  | markReady | beginShutdownLog | markStopped | guardDrop => cases h
  | beginShutdown | beginShutdownCancel | trackAdd => cases h

/-- The counter is the number of live guards, whatever the order of the accesses. -/
theorem activeRequests_eq {ok : ThreadState LifecycleManager LifecyclePc → ThreadAct LifecyclePc Bool → Prop}
    {s : ThreadState LifecycleManager LifecyclePc} (h : lifecycleMachine.ReachableWhen ok s) :
    s.shared.activeRequests = liveGuards s := by
  refine Program.total_invariant (R := fun m n => m.activeRequests = n) LifecyclePc.guards rfl ?_ ?_ h
  · intro _ _ p hstart
    cases p <;> first | rfl | cases hstart
  · intro s t late p m p' _ _ _ hnext hR
    obtain ⟨rfl, rfl⟩ : (p.next s.shared late).1 = m ∧ (p.next s.shared late).2 = p' := by
      have hpair : p.next s.shared late = (m, p') := Option.some.inj hnext
      rw [hpair]
      exact ⟨rfl, rfl⟩
    cases p with
    | trackAdd =>
      simp only [LifecyclePc.next, LifecyclePc.guards, Program.weigh_some] at hR ⊢
      omega
    | guardDrop =>
      simp only [LifecyclePc.next, LifecyclePc.guards, Program.weigh_none] at hR ⊢
      rw [fetchSub_of_le (by omega)]
      omega
    | trackCheck =>
      simp only [LifecyclePc.next]
      split <;> exact hR
    | drainLoad =>
      simp only [LifecyclePc.next]
      split <;> exact hR
    | markReady | beginShutdown | beginShutdownCancel | beginShutdownLog | markStopped => exact hR

end ThoughtGate
