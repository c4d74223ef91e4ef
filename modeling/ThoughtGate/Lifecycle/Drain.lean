import ThoughtGate.Lifecycle.Manager

/-!
# Draining

`active_requests` is the number of live guards in every state (`activeRequests_eq`). But `track_request` looks
at the state and increments the counter in two accesses: a request that has passed the check before the shutdown
can increment after `drain_requests` has read zero and returned `Complete`. In the runs in which no request
stands between the two when a drain reads zero, and no `mark_ready` follows (`drainSafe`), a completed drain is
final.
-/

namespace ThoughtGate

/-- When `drain_requests` reads zero after `begin_shutdown` has returned, the shutdown is in force and no
`track_request` stands between its check and its increment; no `mark_ready` comes after such a drain. -/
def drainSafe (s : ThreadState LifecycleManager LifecyclePc) : ThreadAct LifecyclePc Bool → Bool
  | .spawn .. => true
  | .run t _ =>
    match s.threads.lookup t with
    | some .drainLoad =>
      !(decide (s.shared.activeRequests = 0) && s.shared.shutdownReturned) ||
        (s.shared.isShuttingDown && s.threads.entries.all fun e => decide (e.2 ≠ .trackAdd))
    | some .markReady => !s.shared.drained
    | _ => true

/-- After a completed drain the shutdown is in force, and no request has a guard or is about to get one. -/
structure Drained (s : ThreadState LifecycleManager LifecyclePc) : Prop where
  down : s.shared.isShuttingDown = true
  noneAdding : ¬ Standing s .trackAdd
  noneAlive : ¬ Standing s .guardDrop

theorem liveGuards_pos {s : ThreadState LifecycleManager LifecyclePc} (h : Standing s .guardDrop) :
    0 < liveGuards s := by
  obtain ⟨t, ht⟩ := h
  have hone : 1 ≤ liveGuards s := Table.le_total (fun _ p => LifecyclePc.guards p) ht
  omega

theorem liveGuards_eq_zero {s : ThreadState LifecycleManager LifecyclePc} (h : ¬ Standing s .guardDrop) :
    liveGuards s = 0 := by
  apply Table.total_eq_zero
  intro e he
  have hlookup := Table.mem_entries_iff.mp he
  cases hp : e.2 with
  | guardDrop =>
    rw [hp] at hlookup
    exact absurd ⟨e.1, hlookup⟩ h
  | markReady | beginShutdown | beginShutdownCancel | beginShutdownLog | markStopped | trackCheck | trackAdd
  | drainLoad => rfl

/-- A guard comes only from the increment. -/
theorem LifecyclePc.next_guardDrop {m : LifecycleManager} {late : Bool} {p : LifecyclePc}
    (h : (p.next m late).2 = some .guardDrop) : p = .trackAdd := by
  cases p with
  | trackAdd => rfl
  | trackCheck =>
    simp only [next] at h
    split at h <;> cases h
  | drainLoad =>
    simp only [next] at h
    split at h <;> cases h
  | markReady | beginShutdown | beginShutdownCancel | beginShutdownLog | markStopped | guardDrop => cases h

/-- A drain completes in the access that reads zero after `begin_shutdown` has returned. -/
theorem LifecyclePc.next_drained {m : LifecycleManager} {late : Bool} {p : LifecyclePc}
    (h : (p.next m late).1.drained = true) :
    m.drained = true ∨ (p = .drainLoad ∧ m.activeRequests = 0 ∧ m.shutdownReturned = true) := by
  cases p with
  | trackCheck =>
    simp only [next] at h
    split at h <;> exact Or.inl h
  | drainLoad =>
    simp only [next] at h
    split at h
    · exact Or.inl h
    · rename_i hround
      rcases Bool.or_eq_true_iff.mp h with h | hret
      · exact Or.inl h
      · exact Or.inr ⟨rfl, LifecycleManager.drainRound_complete.mp hround, hret⟩
    · exact Or.inl h
  | markReady | beginShutdown | beginShutdownCancel | beginShutdownLog | markStopped | trackAdd | guardDrop =>
    exact Or.inl h

/-- Only `mark_ready` undoes a shutdown. -/
theorem LifecyclePc.next_isShuttingDown {m : LifecycleManager} {late : Bool} {p : LifecyclePc}
    (hm : m.isShuttingDown = true) (hp : p ≠ .markReady) : (p.next m late).1.isShuttingDown = true := by
  cases p with
  | markReady => exact absurd rfl hp
  | beginShutdown | markStopped => rfl
  | trackCheck =>
    simp only [next]
    split <;> exact hm
  | drainLoad =>
    simp only [next]
    split <;> exact hm
  | beginShutdownCancel | beginShutdownLog | trackAdd | guardDrop => exact hm

theorem Drained.run {s : ThreadState LifecycleManager LifecyclePc} (hs : Drained s) {t : Nat} {late : Bool}
    {p : LifecyclePc} (hp : s.threads.lookup t = some p) (hready : p ≠ .markReady) :
    Drained ⟨(p.next s.shared late).1, Program.settle s.threads t (p.next s.shared late).2⟩ where
  down := LifecyclePc.next_isShuttingDown hs.down hready
  noneAdding h := by
    rcases Standing.of_run h with hnext | hold
    · obtain ⟨-, hup⟩ := LifecyclePc.next_trackAdd hnext
      rw [hs.down] at hup
      cases hup
    · exact hs.noneAdding hold
  noneAlive h := by
    rcases Standing.of_run h with hnext | hold
    · have hadd : p = .trackAdd := LifecyclePc.next_guardDrop hnext
      subst hadd
      exact hs.noneAdding ⟨t, hp⟩
    · exact hs.noneAlive hold

theorem Drained.spawn {s : ThreadState LifecycleManager LifecyclePc} (hs : Drained s) {t : Nat} {p : LifecyclePc}
    (hstart : p.start = true) : Drained { s with threads := s.threads.insert t p } where
  down := hs.down
  noneAdding h := by
    rcases h.of_spawn with rfl | hold
    · cases hstart
    · exact hs.noneAdding hold
  noneAlive h := by
    rcases h.of_spawn with rfl | hold
    · cases hstart
    · exact hs.noneAlive hold

/-- One safe step keeps a completed drain final. -/
theorem drained_step {s s' : ThreadState LifecycleManager LifecyclePc} {a : ThreadAct LifecyclePc Bool}
    (hcount : s.shared.activeRequests = liveGuards s) (hs : s.shared.drained = true → Drained s)
    (hok : drainSafe s a = true) (ha : lifecycleMachine.step s a = some s') :
    s'.shared.drained = true → Drained s' := by
  intro hdrained
  rcases lifecycle_step ha with ⟨t, p, rfl, -, hstart, rfl⟩ | ⟨t, late, p, rfl, hp, rfl⟩
  · exact (hs hdrained).spawn hstart
  · simp only [drainSafe, hp] at hok
    rcases LifecyclePc.next_drained hdrained with hold | ⟨rfl, hzero, hret⟩
    · refine (hs hold).run hp ?_
      rintro rfl
      rw [hold] at hok
      cases hok
    · rw [hzero, hret] at hok
      obtain ⟨hdown, hnone⟩ := Bool.and_eq_true_iff.mp hok
      refine Drained.run ⟨hdown, ?_, ?_⟩ hp (by decide)
      · intro hstand
        obtain ⟨u, hu⟩ := hstand
        have hne := List.all_eq_true.mp hnone _ (Table.mem_entries_iff (e := ⟨u, .trackAdd⟩).mpr hu)
        exact of_decide_eq_true hne rfl
      · intro hstand
        have hpos := liveGuards_pos hstand
        omega

/-- The counter is always the number of live guards; and in the safe runs no guard is alive from the moment on at
which `drain_requests` has returned `Complete` after `begin_shutdown` had returned. -/
theorem drain_safe {s : ThreadState LifecycleManager LifecyclePc} (h : lifecycleMachine.Reachable s) :
    s.shared.activeRequests = liveGuards s ∧
      (lifecycleMachine.ReachableWhen (fun s a => drainSafe s a = true) s →
        s.shared.drained = true → liveGuards s = 0) := by
  refine ⟨activeRequests_eq h, fun hsafe hdrained => ?_⟩
  have hinv : s.shared.drained = true → Drained s := by
    refine hsafe.invariant (I := fun s => s.shared.drained = true → Drained s) (fun hnew => by cases hnew) ?_
    intro t a t' ht hI hok ha
    exact drained_step (activeRequests_eq ht) hI hok ha
  exact liveGuards_eq_zero (hinv hdrained).noneAlive

/-- A request that is let in, a shutdown, and the drain that waits for the request. -/
def Sample.shutdownAndDrain : List (ThreadAct LifecyclePc Bool) :=
  [.spawn 0 .markReady, .run 0 false, .spawn 1 .trackCheck, .run 1 false, .run 1 false, .spawn 2 .beginShutdown,
    .run 2 false, .run 2 false, .run 2 false, .spawn 3 .drainLoad, .run 3 false, .run 1 false, .run 3 false]

/-- The request passes the check, the shutdown and the drain go by, and then it gets its guard. -/
def Sample.guardAfterDrain : List (ThreadAct LifecyclePc Bool) :=
  [.spawn 0 .markReady, .run 0 false, .spawn 1 .trackCheck, .run 1 false, .spawn 2 .beginShutdown, .run 2 false,
    .run 2 false, .run 2 false, .spawn 3 .drainLoad, .run 3 false, .run 1 false]

/-- A guard that is created after a drain has returned `Complete`. -/
theorem guard_after_drain :
    ∃ s, lifecycleMachine.Reachable s ∧ s.shared.drained = true ∧ liveGuards s = 1 := by
  have hrun : ((lifecycleMachine.exec lifecycleMachine.init Sample.guardAfterDrain).any fun s =>
      s.shared.drained && decide (liveGuards s = 1)) = true := by decide
  obtain ⟨s, hs, htest⟩ := Machine.exists_reachable_of_exec hrun
  obtain ⟨hdrained, hguards⟩ := Bool.and_eq_true_iff.mp htest
  exact ⟨s, hs, hdrained, of_decide_eq_true hguards⟩

theorem drain_safe_sample :
    ∃ s, s.shared.drained = true ∧ s.shared.activeRequests = liveGuards s ∧ liveGuards s = 0 := by
  have hrun : ((lifecycleMachine.execWhen drainSafe lifecycleMachine.init Sample.shutdownAndDrain).any fun s =>
      s.shared.drained) = true := by decide
  obtain ⟨s, hs, hdrained⟩ := Machine.exists_reachableWhen_of_execWhen hrun
  obtain ⟨hcount, hzero⟩ := drain_safe hs.reachable
  exact ⟨s, hdrained, hcount, hzero hs hdrained⟩

end ThoughtGate
