import ThoughtGate.Task.Effects

/-!
# The store's counters are exact

Between two operations the three counters of the store are what they stand for: the number of stored tasks
that are not terminal, their number per rate-limit key, and the sum of their estimated bytes; each within its
limit, and no `fetch_sub` ever took more than there was.

The counters are compared with totals over the task table, so that each effect is one replaced, added or
removed entry: `touch` and `drop` move nothing, `finish` takes one live entry out of every total, `accept` adds
one, `bounce` gives back what it took.
-/

namespace ThoughtGate

namespace TaskEntry

/-- One for a task that is not terminal. -/
def live (e : TaskEntry) : Nat := if e.task.status.isTerminal then 0 else 1

/-- The rate-limit key an entry is counted under. -/
def key (e : TaskEntry) : String := e.task.principal.rateLimitKey

def liveOf (k : String) (e : TaskEntry) : Nat := if e.key = k then e.live else 0

def liveBytes (e : TaskEntry) : Nat := e.live * e.estimatedBytes

end TaskEntry

namespace TaskStore

/-- The number of stored non-terminal tasks. -/
def liveTasks (s : TaskStore) : Nat := s.tasks.total fun _ e => e.live

/-- The number of stored non-terminal tasks whose principal has the key. -/
def liveTasksOf (s : TaskStore) (k : String) : Nat := s.tasks.total fun _ e => e.liveOf k

/-- The estimated bytes of the stored non-terminal tasks. -/
def liveBytes (s : TaskStore) : Nat := s.tasks.total fun _ e => e.liveBytes

/-- The counters equal their totals and respect the limits, and nothing has wrapped. -/
structure Accounted (config : TaskStoreConfig) (s : TaskStore) : Prop where
  count : s.pendingCount = s.liveTasks
  countBound : s.pendingCount ≤ config.maxPendingGlobal
  principal : ∀ k, s.principalCount k = s.liveTasksOf k
  principalBound : ∀ k, s.principalCount k ≤ config.maxPendingPerPrincipal
  bytes : s.pendingBytes = s.liveBytes
  bytesBound : s.pendingBytes ≤ config.maxPendingBytes
  noUnderflow : s.underflow = false

/-! ### The counters after each instruction -/

theorem addPrincipal_principalCount (s : TaskStore) (key k : String) :
    (s.addPrincipal key).principalCount k = s.principalCount k + if k = key then 1 else 0 := by
  refine (Table.getD_lookup_insert s.pendingByPrincipal k key _ 0).trans ?_
  split
  · rename_i h
    rw [h]
  · rfl

theorem subPrincipal_principalCount {s : TaskStore} {key : String} (h : 1 ≤ s.principalCount key) (k : String) :
    (s.subPrincipal key).principalCount k = s.principalCount k - if k = key then 1 else 0 := by
  refine (Table.getD_lookup_insert s.pendingByPrincipal k key _ 0).trans ?_
  split
  · rename_i hk
    rw [hk, fetchSub_of_le h]
  · rfl

theorem subPrincipal_principalCount_ne (s : TaskStore) {key k : String} (h : k ≠ key) :
    (s.subPrincipal key).principalCount k = s.principalCount k := by
  refine (Table.getD_lookup_insert s.pendingByPrincipal k key _ 0).trans ?_
  rw [if_neg h]
  rfl

theorem removePrincipalIfZero_principalCount (s : TaskStore) (key k : String) :
    (s.removePrincipalIfZero key).principalCount k = s.principalCount k := by
  unfold removePrincipalIfZero
  split
  · rename_i hzero
    exact Table.getD_lookup_erase (by rw [hzero]; rfl) k
  · rfl

/-- Everything but the table of principals. -/
theorem removePrincipalIfZero_counters (s : TaskStore) (key : String) :
    (s.removePrincipalIfZero key).pendingCount = s.pendingCount ∧
      (s.removePrincipalIfZero key).pendingBytes = s.pendingBytes ∧
      (s.removePrincipalIfZero key).underflow = s.underflow := by
  unfold removePrincipalIfZero
  split <;> exact ⟨rfl, rfl, rfl⟩

/-- Taking one task out of the three counters when each has it. -/
structure Decremented (s : TaskStore) (key : String) (n : Nat) (s' : TaskStore) : Prop where
  count : s'.pendingCount + 1 = s.pendingCount
  bytes : s'.pendingBytes + n = s.pendingBytes
  principal : ∀ k, s'.principalCount k = s.principalCount k - if k = key then 1 else 0
  underflow : s'.underflow = s.underflow

theorem decrementPendingCounters_spec {s : TaskStore} {t : Task} {n : Nat} (hc : 1 ≤ s.pendingCount)
    (hb : n ≤ s.pendingBytes) (hp : 1 ≤ s.principalCount t.principal.rateLimitKey) :
    s.Decremented t.principal.rateLimitKey n (s.decrementPendingCounters t n) := by
  set key := t.principal.rateLimitKey with hkey
  have hsub : s.Decremented key n (((s.subPendingCount 1).subPendingBytes n).subPrincipal key) := by
    refine ⟨?_, ?_, subPrincipal_principalCount hp, ?_⟩
    · have : fetchSub s.pendingCount 1 + 1 = s.pendingCount := by rw [fetchSub_of_le hc]; omega
      exact this
    · have : fetchSub s.pendingBytes n + n = s.pendingBytes := by rw [fetchSub_of_le hb]; omega
      exact this
    · have hc' : ¬ s.pendingCount < 1 := by omega
      have hb' : ¬ s.pendingBytes < n := by omega
      have hp' : ¬ ((s.subPendingCount 1).subPendingBytes n).principalCount key < 1 := Nat.not_lt.mpr hp
      simp only [subPrincipal, hp', decide_false, Bool.or_false]
      simp [subPendingBytes, subPendingCount, hc', hb']
  unfold decrementPendingCounters
  dsimp only
  rw [← hkey]
  split
  · rename_i hnone
    have hzero : s.principalCount key = 0 := by
      have hnone' : s.pendingByPrincipal.lookup key = none := hnone
      rw [principalCount, hnone']
      rfl
    omega
  · split
    · obtain ⟨h1, h2, h3⟩ := removePrincipalIfZero_counters
        (((s.subPendingCount 1).subPendingBytes n).subPrincipal key) key
      refine ⟨by rw [h1]; exact hsub.count, by rw [h2]; exact hsub.bytes, fun k => ?_, h3.trans hsub.underflow⟩
      rw [removePrincipalIfZero_principalCount]
      exact hsub.principal k
    · exact hsub

/-- The slots a creation takes before it knows whether it is accepted. -/
theorem reserved_counters (s : TaskStore) (key : String) :
    (({ s with pendingCount := s.pendingCount + 1 }.principalEntry key).addPrincipal key).pendingCount =
        s.pendingCount + 1 ∧
      (({ s with pendingCount := s.pendingCount + 1 }.principalEntry key).addPrincipal key).pendingBytes =
        s.pendingBytes ∧
      (∀ k, (({ s with pendingCount := s.pendingCount + 1 }.principalEntry key).addPrincipal key).principalCount k =
        s.principalCount k + if k = key then 1 else 0) ∧
      (({ s with pendingCount := s.pendingCount + 1 }.principalEntry key).addPrincipal key).underflow =
        s.underflow := by
  refine ⟨?_, ?_, fun k => ?_, ?_⟩
  · simp only [addPrincipal, principalEntry]
    split <;> rfl
  · simp only [addPrincipal, principalEntry_pendingBytes]
  · rw [addPrincipal_principalCount, principalEntry_principalCount]
    rfl
  · simp only [addPrincipal, principalEntry]
    split <;> rfl

/-- A refused creation leaves the counters as they were. -/
theorem bounced_counters (s : TaskStore) (key : String) :
    (s.bounced key).pendingCount = s.pendingCount ∧ (s.bounced key).pendingBytes = s.pendingBytes ∧
      (∀ k, (s.bounced key).principalCount k = s.principalCount k) ∧
      (s.bounced key).underflow = s.underflow := by
  obtain ⟨hcount, hbytes, hprincipal, hflow⟩ := reserved_counters s key
  unfold bounced
  generalize (({ s with pendingCount := s.pendingCount + 1 }).principalEntry key).addPrincipal key = r at *
  have hone : 1 ≤ r.principalCount key := by
    rw [hprincipal key, if_pos rfl]
    omega
  refine ⟨?_, hbytes, fun k => ?_, ?_⟩
  · show fetchSub r.pendingCount 1 = s.pendingCount
    rw [hcount, fetchSub_of_le (by omega)]
    omega
  · show (r.subPrincipal key).principalCount k = s.principalCount k
    rw [subPrincipal_principalCount hone, hprincipal k]
    omega
  · have hc : ¬ r.pendingCount < 1 := by omega
    have hp : ¬ r.principalCount key < 1 := by omega
    simp only [rollback, subPendingCount, subPrincipal, hc, hp, decide_false, Bool.or_false]
    exact hflow

theorem Accounted.new (config : TaskStoreConfig) : Accounted config (.new config) where
  count := rfl
  countBound := Nat.zero_le _
  principal _ := rfl
  principalBound _ := Nat.zero_le _
  bytes := rfl
  bytesBound := Nat.zero_le _
  noUnderflow := rfl

/-! ### Effects keep the accounts -/

theorem liveTasks_put {s : TaskStore} {id : TaskId} {e : TaskEntry} (e' : TaskEntry)
    (he : s.tasks.lookup id = some e) : (s.put id e').liveTasks + e.live = s.liveTasks + e'.live :=
  Table.total_insert_old _ e' he

theorem liveTasksOf_put {s : TaskStore} {id : TaskId} {e : TaskEntry} (e' : TaskEntry)
    (he : s.tasks.lookup id = some e) (k : String) :
    (s.put id e').liveTasksOf k + e.liveOf k = s.liveTasksOf k + e'.liveOf k :=
  Table.total_insert_old _ e' he

theorem liveBytes_put {s : TaskStore} {id : TaskId} {e : TaskEntry} (e' : TaskEntry)
    (he : s.tasks.lookup id = some e) : (s.put id e').liveBytes + e.liveBytes = s.liveBytes + e'.liveBytes :=
  Table.total_insert_old _ e' he

/-- An entry of the same weights may replace another. -/
theorem Accounted.replace {config : TaskStoreConfig} {s : TaskStore} (h : Accounted config s) {id : TaskId}
    {e e' : TaskEntry} (he : s.tasks.lookup id = some e) (hlive : e'.live = e.live) (hkey : e'.key = e.key)
    (hbytes : e'.estimatedBytes = e.estimatedBytes) : Accounted config (s.put id e') := by
  have hof : ∀ k, e'.liveOf k = e.liveOf k := fun k => by simp only [TaskEntry.liveOf, hkey, hlive]
  have hsum : e'.liveBytes = e.liveBytes := by simp only [TaskEntry.liveBytes, hlive, hbytes]
  refine ⟨?_, h.countBound, fun k => ?_, h.principalBound, ?_, h.bytesBound, h.noUnderflow⟩
  · have h1 := liveTasks_put e' he
    have h2 := h.count
    show s.pendingCount = _
    omega
  · have h1 := liveTasksOf_put e' he k
    have h2 := h.principal k
    have h3 := hof k
    show s.principalCount k = _
    omega
  · have h1 := liveBytes_put e' he
    have h2 := h.bytes
    show s.pendingBytes = _
    omega

/-- The weights of an entry that leaves the live ones, seen from the counters. -/
theorem Accounted.has {config : TaskStoreConfig} {s : TaskStore} (h : Accounted config s) {id : TaskId}
    {e : TaskEntry} (he : s.tasks.lookup id = some e) (hlive : e.live = 1) :
    1 ≤ s.pendingCount ∧ e.estimatedBytes ≤ s.pendingBytes ∧ 1 ≤ s.principalCount e.key := by
  have h1 : e.live ≤ s.liveTasks := Table.le_total (fun _ e => e.live) he
  have h2 : e.liveBytes ≤ s.liveBytes := Table.le_total (fun _ e => e.liveBytes) he
  have h3 : e.liveOf e.key ≤ s.liveTasksOf e.key := Table.le_total (fun _ e' => e'.liveOf e.key) he
  rw [h.count, h.bytes, h.principal]
  simp only [TaskEntry.liveBytes, TaskEntry.liveOf, hlive, if_true, Nat.one_mul] at h1 h2 h3
  exact ⟨h1, h2, h3⟩

theorem Accounted.finish {config : TaskStoreConfig} {s : TaskStore} (h : Accounted config s) {now : DateTime}
    {id : TaskId} {e : TaskEntry} {t' : Task} (he : s.tasks.lookup id = some e)
    (hprin : t'.principal = e.task.principal) (hlive : e.task.status.isTerminal = false)
    (hterm : t'.status.isTerminal = true) : Accounted config (s.becomeTerminal now id { e with task := t' }) := by
  set e' : TaskEntry := { e with task := t' } with he'
  have hone : e.live = 1 := by simp [TaskEntry.live, hlive]
  have hzero : (terminalEntry now e').live = 0 := by simp [TaskEntry.live, terminalEntry, he', hterm]
  obtain ⟨hc, hb, hp⟩ := h.has he hone
  have hkey : t'.principal.rateLimitKey = e.key := by rw [hprin, TaskEntry.key]
  rw [← hkey] at hp
  have hdec : Decremented s e.key e.estimatedBytes (s.becomeTerminal now id e') := by
    obtain ⟨h1, h2, h3, h4⟩ := decrementPendingCounters_spec (s := s.put id { e' with terminalAt := some now })
      (t := t') (n := e.estimatedBytes) hc hb hp
    rw [hkey] at h3
    exact ⟨h1, h2, h3, h4⟩
  have htasks : (s.becomeTerminal now id e').tasks = (s.put id (terminalEntry now e')).tasks := by
    simp [becomeTerminal, terminalEntry]
  refine ⟨?_, ?_, fun k => ?_, fun k => ?_, ?_, ?_, hdec.underflow.trans h.noUnderflow⟩
  · rw [liveTasks, htasks]
    have h1 := liveTasks_put (terminalEntry now e') he
    have h2 := hdec.count
    have h3 := h.count
    rw [liveTasks] at h1
    omega
  · have h1 := hdec.count
    have h2 := h.countBound
    omega
  · rw [liveTasksOf, htasks, hdec.principal k, h.principal k]
    have h1 := liveTasksOf_put (terminalEntry now e') he k
    rw [liveTasksOf] at h1
    simp only [TaskEntry.liveOf, hone, hzero, ite_self, Nat.add_zero] at h1
    simp only [TaskEntry.liveOf, eq_comm (a := k)]
    omega
  · rw [hdec.principal k]
    exact le_trans (Nat.sub_le _ _) (h.principalBound k)
  · rw [liveBytes, htasks]
    have h1 := liveBytes_put (terminalEntry now e') he
    have h2 := hdec.bytes
    have h3 := h.bytes
    rw [liveBytes] at h1
    simp only [TaskEntry.liveBytes, hone, hzero, Nat.zero_mul, Nat.one_mul, Nat.add_zero] at h1
    simp only [TaskEntry.liveBytes]
    omega
  · have h1 := hdec.bytes
    have h2 := h.bytesBound
    omega

theorem Accounted.accept {config : TaskStoreConfig} {s : TaskStore} (h : Accounted config s)
    (hconfig : s.config = config) {id : TaskId} {task : Task} {n : Nat} (hfresh : s.tasks.lookup id = none)
    (hst : task.status = .working) (hroom : s.pendingCount < s.config.maxPendingGlobal)
    (hslot : s.principalCount task.principal.rateLimitKey < s.config.maxPendingPerPrincipal)
    (hmem : s.pendingBytes + n ≤ s.config.maxPendingBytes) : Accounted config (s.admitted id task n) := by
  subst hconfig
  obtain ⟨hcount, hbytes, hprincipal, hflow⟩ := reserved_counters s task.principal.rateLimitKey
  set e : TaskEntry := { task, terminalAt := none, notifications := 0, estimatedBytes := n } with he
  have hone : e.live = 1 := by simp [TaskEntry.live, he, hst, TaskStatus.isTerminal]
  have hsum : (s.admitted id task n).pendingBytes = s.pendingBytes + n := congrArg (· + n) hbytes
  refine ⟨?_, hcount.trans_le hroom, fun k => ?_, fun k => ?_, ?_, hsum.trans_le hmem,
    hflow.trans h.noUnderflow⟩
  · rw [liveTasks, admitted_tasks, Table.total_insert_new _ _ hfresh, ← he, hone, Nat.add_comm]
    exact hcount.trans (congrArg (· + 1) h.count)
  · rw [liveTasksOf, admitted_tasks, Table.total_insert_new _ _ hfresh, ← he, TaskEntry.liveOf, hone, Nat.add_comm]
    refine (hprincipal k).trans ?_
    rw [h.principal k]
    simp only [eq_comm (a := k)]
    rfl
  · refine (hprincipal k).trans_le ?_
    split
    · rename_i hk
      rw [hk]
      exact hslot
    · exact h.principalBound k
  · rw [liveBytes, admitted_tasks, Table.total_insert_new _ _ hfresh, ← he, TaskEntry.liveBytes, hone,
      Nat.one_mul, Nat.add_comm, hsum, h.bytes]
    rfl

theorem Accounted.drop {config : TaskStoreConfig} {s : TaskStore} (h : Accounted config s) {id : TaskId}
    {e : TaskEntry} (he : s.tasks.lookup id = some e) (hterm : e.task.status.isTerminal = true) :
    Accounted config (s.cleanupOne id) := by
  have hzero : e.live = 0 := by simp [TaskEntry.live, hterm]
  obtain ⟨index, hframe⟩ := cleanupOne_frame he
  have herase : ∀ f : TaskId → TaskEntry → Nat, f id e = 0 →
      Table.total f (s.tasks.erase id) = Table.total f s.tasks := by
    intro f hf
    rw [Table.total_erase f he, hf, Nat.zero_add]
  rw [hframe]
  refine ⟨?_, h.countBound, fun k => ?_, h.principalBound, ?_, h.bytesBound, h.noUnderflow⟩
  · rw [liveTasks, herase _ hzero]
    exact h.count
  · rw [liveTasksOf, herase _ (by simp [TaskEntry.liveOf, hzero])]
    exact h.principal k
  · rw [liveBytes, herase _ (by simp [TaskEntry.liveBytes, hzero])]
    exact h.bytes

theorem Accounted.bounce {config : TaskStoreConfig} {s : TaskStore} (h : Accounted config s) (key : String) :
    Accounted config (s.bounced key) := by
  obtain ⟨hc, hb, hp, hu⟩ := bounced_counters s key
  refine ⟨?_, hc.trans_le h.countBound, fun k => ?_, fun k => ?_, ?_, hb.trans_le h.bytesBound,
    hu.trans h.noUnderflow⟩
  · rw [hc, liveTasks, bounced_tasks]
    exact h.count
  · rw [hp k, liveTasksOf, bounced_tasks]
    exact h.principal k
  · rw [hp k]
    exact h.principalBound k
  · rw [hb, liveBytes, bounced_tasks]
    exact h.bytes

end TaskStore

/-! ### Every reachable store -/

theorem TaskStore.Accounted.effect {config : TaskStoreConfig} {new : TaskId → Prop}
    {auto : ApprovalRecord → Prop} {s s' : TaskStore}
    (hkeyed : WellKeyed s) (hconfig : s.config = config) (hs : s.Accounted config) (h : Effect new auto s s') :
    s'.Accounted config := by
  cases h with
  | touch he hstep hterm =>
    refine hs.replace he ?_ ?_ rfl
    · simp only [TaskEntry.live, hterm]
    · simp only [TaskEntry.key, hstep.sameOrigin.principal]
  | finish he hstep hlive hterm => exact hs.finish he hstep.sameOrigin.principal hlive hterm
  | accept _ hfresh _ hst _ _ _ _ hroom hslot hmem => exact hs.accept hconfig hfresh hst hroom hslot hmem
  | bounce _ => exact hs.bounce _
  | drop he hat => exact hs.drop he ((hkeyed _ _ he).2.symm.trans hat)

/-- In every store that the operations reach from an empty one, the counters are exact and within their
limits, and no decrement has underflowed. -/
theorem reachable_accounted [F64.Fmt] [Sha256] {config : TaskStoreConfig} {s : TaskStore}
    (h : (storeMachine config).Reachable s) : s.Accounted config := by
  refine (storeMachine_invariant (I := fun s => s.config = config ∧ s.Accounted config)
    ⟨rfl, .new config⟩ ?_ h).2.2
  intro new s s' hkeyed hs heff
  exact ⟨heff.config.trans hs.1, hs.2.effect hkeyed hs.1 heff⟩

/-- Three creations, the third over the principal's limit, and one task executed. -/
def Sample.storeOps : List StoreOp :=
  [.create "tg_1" 0 request request principal none .deny,
   .create "tg_2" 1 request request principal none .deny,
   .create "tg_3" 2 request request principal none .deny,
   .transition 3 "tg_1" .inputRequired none,
   .recordApproval 4 "tg_1" .approved "alice" (Duration.fromSecs 60),
   .complete 5 "tg_1" ⟨.null, false⟩]

section

attribute [local instance] Sample.f64Fmt Sample.sha256

theorem reachable_accounted_sample :
    ∃ s, (storeMachine { maxPendingPerPrincipal := 2 }).Reachable s ∧
      (s.pendingCount = 1 ∧ s.pendingBytes = 202) ∧ s.Accounted { maxPendingPerPrincipal := 2 } := by
  have hrun : ((storeMachine { maxPendingPerPrincipal := 2 }).exec
      (storeMachine { maxPendingPerPrincipal := 2 }).init Sample.storeOps).any
        (fun s => decide (s.pendingCount = 1 ∧ s.pendingBytes = 202)) = true := by
    decide
  obtain ⟨s, hreach, hcounters⟩ := Machine.exists_reachable_of_exec hrun
  exact ⟨s, hreach, of_decide_eq_true hcounters, reachable_accounted hreach⟩

end

end ThoughtGate
