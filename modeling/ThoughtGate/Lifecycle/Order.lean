import ThoughtGate.Lifecycle.Manager

/-!
# The order of the lifecycle states

Each transition is an unconditional store, so the order `Starting → Ready → ShuttingDown → Stopped` is only kept
by the order of the calls. A step goes back exactly when `mark_ready` stores over a shutdown or `begin_shutdown`
stores over `Stopped` (`goes_back_iff`); and a request that has passed its check before the shutdown still gets
its guard after it. In the runs without these three (`inOrder`) the state only moves forward, and after
`begin_shutdown` nothing is ready and no guard is handed out.
-/

namespace ThoughtGate

/-- `mark_ready` stores only before the shutdown, `begin_shutdown` stores only before `Stopped`, and when
`begin_shutdown` returns no `track_request` stands between its check and its increment. -/
def inOrder (s : ThreadState LifecycleManager LifecyclePc) : ThreadAct LifecyclePc Bool → Bool
  | .spawn .. => true
  | .run t _ =>
    match s.threads.lookup t with
    | some .markReady => decide (s.shared.state.rank ≤ LifecycleState.ready.rank)
    | some .beginShutdown => decide (s.shared.state ≠ .stopped)
    | some .beginShutdownLog => s.threads.entries.all fun e => decide (e.2 ≠ .trackAdd)
    | _ => true

/-- The step of a `track_request` that hands out its guard. -/
def returnsGuard (s : ThreadState LifecycleManager LifecyclePc) : ThreadAct LifecyclePc Bool → Prop
  | .spawn .. => False
  | .run t _ => s.threads.lookup t = some .trackAdd

/-- What an access makes of the state cell. -/
theorem LifecyclePc.next_state (m : LifecycleManager) (late : Bool) (p : LifecyclePc) :
    (p.next m late).1.state =
      match p with
      | .markReady => .ready
      | .beginShutdown => .shuttingDown
      | .markStopped => .stopped
      | _ => m.state := by
  cases p with
  | trackCheck =>
    simp only [next]
    split <;> rfl
  | drainLoad =>
    simp only [next]
    split <;> rfl
  | markReady | beginShutdown | beginShutdownCancel | beginShutdownLog | markStopped | trackAdd | guardDrop => rfl

/-- The two stores that go back. -/
theorem LifecyclePc.goes_back_iff {m : LifecycleManager} {late : Bool} {p : LifecyclePc} :
    (p.next m late).1.state.rank < m.state.rank ↔
      (p = .markReady ∧ 2 ≤ m.state.rank) ∨ (p = .beginShutdown ∧ m.state = .stopped) := by
  rw [next_state]
  cases p with
  | markReady => simp [LifecycleState.rank, Nat.lt_iff_add_one_le]
  | beginShutdown => cases m.state <;> simp [LifecycleState.rank]
  | markStopped => cases m.state <;> simp [LifecycleState.rank]
  | beginShutdownCancel | beginShutdownLog | trackCheck | trackAdd | guardDrop | drainLoad => simp

/-- A shutdown that has stored its state is in force, and once it has returned no request is about to get a
guard. -/
structure InForce (s : ThreadState LifecycleManager LifecyclePc) : Prop where
  cancelling : Standing s .beginShutdownCancel → 2 ≤ s.shared.state.rank
  logging : Standing s .beginShutdownLog → 2 ≤ s.shared.state.rank
  returned : s.shared.shutdownReturned = true → 2 ≤ s.shared.state.rank
  settled : s.shared.shutdownReturned = true → ¬ Standing s .trackAdd

theorem InForce.init : InForce lifecycleMachine.init where
  cancelling h := by
    obtain ⟨t, ht⟩ := h
    cases ht
  logging h := by
    obtain ⟨t, ht⟩ := h
    cases ht
  returned h := by cases h
  settled h := by cases h

/-- One step in order does not go back. -/
theorem inOrder.rank_le {s s' : ThreadState LifecycleManager LifecyclePc} {a : ThreadAct LifecyclePc Bool}
    (hok : inOrder s a = true) (ha : lifecycleMachine.step s a = some s') :
    s.shared.state.rank ≤ s'.shared.state.rank := by
  rcases lifecycle_step ha with ⟨t, p, rfl, -, -, rfl⟩ | ⟨t, late, p, rfl, hp, rfl⟩
  · exact Nat.le_refl _
  · apply Nat.le_of_not_lt
    intro hback
    simp only [inOrder, hp] at hok
    rcases LifecyclePc.goes_back_iff.mp hback with ⟨rfl, hdown⟩ | ⟨rfl, hstop⟩
    · have hle : s.shared.state.rank ≤ 1 := of_decide_eq_true hok
      omega
    · exact of_decide_eq_true hok hstop

theorem LifecyclePc.next_shutdownReturned {m : LifecycleManager} {late : Bool} {p : LifecyclePc}
    (h : (p.next m late).1.shutdownReturned = true) : p = .beginShutdownLog ∨ m.shutdownReturned = true := by
  cases p with
  | beginShutdownLog => exact Or.inl rfl
  | trackCheck =>
    simp only [next] at h
    split at h <;> exact Or.inr h
  | drainLoad =>
    simp only [next] at h
    split at h <;> exact Or.inr h
  | markReady | beginShutdown | beginShutdownCancel | markStopped | trackAdd | guardDrop => exact Or.inr h

/-- The calls that lead to the later accesses of `begin_shutdown`. -/
theorem LifecyclePc.next_begin {m : LifecycleManager} {late : Bool} {p q : LifecyclePc}
    (h : (p.next m late).2 = some q) (hq : q = .beginShutdownCancel ∨ q = .beginShutdownLog) :
    p = .beginShutdown ∨ p = .beginShutdownCancel := by
  cases p with
  | beginShutdown => exact Or.inl rfl
  | beginShutdownCancel => exact Or.inr rfl
  | trackCheck =>
    simp only [next] at h
    split at h
    · cases h
    · cases h
      rcases hq with hq | hq <;> cases hq
  | drainLoad =>
    simp only [next] at h
    split at h
    · cases h
      rcases hq with hq | hq <;> cases hq
    · cases h
    · cases h
  | trackAdd =>
    cases h
    rcases hq with hq | hq <;> cases hq
  | markReady | beginShutdownLog | markStopped | guardDrop => cases h

/-- Where a shutdown in progress stands, the state says so. -/
theorem InForce.begun {s : ThreadState LifecycleManager LifecyclePc} (hs : InForce s) {t : Nat} {late : Bool}
    {p q : LifecyclePc} (hp : s.threads.lookup t = some p)
    (hle : s.shared.state.rank ≤ (p.next s.shared late).1.state.rank)
    (hq : q = .beginShutdownCancel ∨ q = .beginShutdownLog)
    (hnew : (p.next s.shared late).2 = some q ∨ Standing s q) : 2 ≤ (p.next s.shared late).1.state.rank := by
  rcases hnew with hnext | hold
  · rcases LifecyclePc.next_begin hnext hq with rfl | rfl
    · exact Nat.le_refl 2
    · exact hs.cancelling ⟨t, hp⟩
  · rcases hq with rfl | rfl
    · exact Nat.le_trans (hs.cancelling hold) hle
    · exact Nat.le_trans (hs.logging hold) hle

theorem InForce.step {s s' : ThreadState LifecycleManager LifecyclePc} {a : ThreadAct LifecyclePc Bool}
    (hs : InForce s) (hok : inOrder s a = true) (ha : lifecycleMachine.step s a = some s') : InForce s' := by
  have hle := inOrder.rank_le hok ha
  rcases lifecycle_step ha with ⟨t, p, rfl, -, hstart, rfl⟩ | ⟨t, late, p, rfl, hp, rfl⟩
  · have hold : ∀ q, q.start = false → Standing { s with threads := s.threads.insert t p } q → Standing s q := by
      intro q hq hstand
      rcases hstand.of_spawn with rfl | hold
      · rw [hstart] at hq
        cases hq
      · exact hold
    exact {
      cancelling := fun h => hs.cancelling (hold _ rfl h)
      logging := fun h => hs.logging (hold _ rfl h)
      returned := hs.returned
      settled := fun hret h => hs.settled hret (hold _ rfl h) }
  · have hdown : (p.next s.shared late).1.shutdownReturned = true → 2 ≤ s.shared.state.rank := by
      intro hret
      rcases LifecyclePc.next_shutdownReturned hret with rfl | hret
      · exact hs.logging ⟨t, hp⟩
      · exact hs.returned hret
    refine ⟨?_, ?_, ?_, ?_⟩
    · intro h
      exact hs.begun hp hle (Or.inl rfl) (Standing.of_run h)
    · intro h
      exact hs.begun hp hle (Or.inr rfl) (Standing.of_run h)
    · intro hret
      exact Nat.le_trans (hdown hret) hle
    · intro hret h
      rcases Standing.of_run h with hnext | hold
      · obtain ⟨-, hup⟩ := LifecyclePc.next_trackAdd hnext
        rw [LifecycleManager.isShuttingDown_iff.mpr (hdown hret)] at hup
        cases hup
      · rcases LifecyclePc.next_shutdownReturned hret with rfl | hret
        · -- the shutdown returns here: the order of the calls says that nobody stands at the increment
          simp only [inOrder, hp] at hok
          obtain ⟨u, hu⟩ := hold
          have hne := List.all_eq_true.mp hok _ (Table.mem_entries_iff (e := ⟨u, .trackAdd⟩).mpr hu)
          exact of_decide_eq_true hne rfl
        · exact hs.settled hret hold

theorem shutdownReturned_step {s s' : ThreadState LifecycleManager LifecyclePc} {a : ThreadAct LifecyclePc Bool}
    (ha : lifecycleMachine.step s a = some s') (hret : s.shared.shutdownReturned = true) :
    s'.shared.shutdownReturned = true := by
  rcases lifecycle_step ha with ⟨t, p, rfl, -, -, rfl⟩ | ⟨t, late, p, rfl, -, rfl⟩
  · exact hret
  · cases p with
    | trackCheck =>
      simp only [LifecyclePc.next]
      split <;> exact hret
    | drainLoad =>
      simp only [LifecyclePc.next]
      split <;> exact hret
    | beginShutdownLog => rfl
    | markReady | beginShutdown | beginShutdownCancel | markStopped | trackAdd | guardDrop => exact hret

/-- In the runs whose calls come in order the state only moves forward, and once `begin_shutdown` has run nothing
is ready and no guard is handed out. -/
theorem lifecycle_forward {s s' : ThreadState LifecycleManager LifecyclePc}
    (h : lifecycleMachine.ReachableWhen (fun s a => inOrder s a = true) s)
    (hl : lifecycleMachine.LeadsWhen (fun s a => inOrder s a = true) s s') :
    s.shared.state.rank ≤ s'.shared.state.rank ∧
      (s.shared.shutdownReturned = true →
        s'.shared.isReady = false ∧ ∀ a, ¬ returnsGuard s' a) := by
  have hfwd : InForce s :=
    h.invariant InForce.init fun t l t' _ hI hok hstep => hI.step hok hstep
  have hrun : InForce s' ∧ s.shared.state.rank ≤ s'.shared.state.rank ∧
      (s.shared.shutdownReturned = true → s'.shared.shutdownReturned = true) := by
    refine Machine.LeadsWhen.invariant
      (I := fun t => InForce t ∧ s.shared.state.rank ≤ t.shared.state.rank ∧
        (s.shared.shutdownReturned = true → t.shared.shutdownReturned = true))
      ⟨hfwd, Nat.le_refl _, id⟩ ?_ hl
    intro t a t' hI hok ha
    obtain ⟨hforward, hle, hret⟩ := hI
    exact ⟨hforward.step hok ha, Nat.le_trans hle (inOrder.rank_le hok ha),
      fun hs => shutdownReturned_step ha (hret hs)⟩
  obtain ⟨hforward, hle, hret⟩ := hrun
  refine ⟨hle, fun hs => ⟨LifecycleManager.isReady_of_rank (hforward.returned (hret hs)), ?_⟩⟩
  intro a hguard
  cases a with
  | spawn t p => exact hguard
  | run t late => exact hforward.settled (hret hs) ⟨t, hguard⟩

/-- Startup and shutdown, with a request that is let in and finished in between. -/
def Sample.startAndStop : List (ThreadAct LifecyclePc Bool) :=
  [.spawn 0 .markReady, .run 0 false, .spawn 1 .trackCheck, .run 1 false, .run 1 false, .run 1 false,
    .spawn 2 .beginShutdown, .run 2 false, .run 2 false, .run 2 false]

theorem lifecycle_forward_sample :
    ∃ s s' : ThreadState LifecycleManager LifecyclePc,
      s.shared.shutdownReturned = true ∧ s'.shared.state = .stopped ∧
      s.shared.state.rank ≤ s'.shared.state.rank ∧
      (s.shared.shutdownReturned = true →
        s'.shared.isReady = false ∧ ∀ a, ¬ returnsGuard s' a) := by
  have hrun : ((lifecycleMachine.execWhen inOrder lifecycleMachine.init Sample.startAndStop).any fun s =>
      s.shared.shutdownReturned &&
        (lifecycleMachine.execWhen inOrder s [.spawn 3 .markStopped, .run 3 false]).any fun s' =>
          decide (s'.shared.state = .stopped)) = true := by decide
  obtain ⟨s, s', hs, htest, hl, htest'⟩ := Machine.exists_leadsWhen_of_execWhen hrun
  exact ⟨s, s', htest, of_decide_eq_true htest', lifecycle_forward hs hl⟩

/-- A signal that arrives before startup has finished, and then its end. -/
def Sample.earlySignal : List (ThreadAct LifecyclePc Bool) :=
  [.spawn 0 .beginShutdown, .run 0 false, .run 0 false, .run 0 false]

/-- `mark_ready` makes a draining process ready again. -/
theorem ready_after_shutdown :
    ∃ s s', lifecycleMachine.Reachable s ∧ lifecycleMachine.Leads s s' ∧ s.shared.shutdownReturned = true ∧
      s'.shared.state.rank < s.shared.state.rank ∧ s'.shared.isReady = true := by
  have hrun : ((lifecycleMachine.execWhen (fun _ _ => true) lifecycleMachine.init Sample.earlySignal).any fun s =>
      (s.shared.shutdownReturned && decide (s.shared.state = .shuttingDown)) &&
        (lifecycleMachine.execWhen (fun _ _ => true) s [.spawn 1 .markReady, .run 1 false]).any fun s' =>
          decide (s'.shared.state = .ready)) = true := by decide
  obtain ⟨s, s', hs, htest, hl, htest'⟩ := Machine.exists_leadsWhen_of_execWhen hrun
  obtain ⟨hret, hdown⟩ := Bool.and_eq_true_iff.mp htest
  have hdown : s.shared.state = .shuttingDown := of_decide_eq_true hdown
  have hready : s'.shared.state = .ready := of_decide_eq_true htest'
  refine ⟨s, s', hs.reachable, hl.leads, hret, ?_, ?_⟩
  · rw [hdown, hready]
    decide
  · rw [LifecycleManager.isReady, hready]
    rfl

end ThoughtGate
