import ThoughtGate.Task.Threads

/-!
# Deadlocks of the task store

`create` keeps the write guard of its `pending_by_principal` entry while it inserts into `tasks`. A call that
makes a task terminal keeps the write guard of the task's shard while `decrement_pending_counters` goes to
`pending_by_principal`. When the two meet on both shards, each waits for the other for good.

This is the only way: in the runs that keep the two apart (`apart`) the waits follow an order of the locks,
`pending_by_principal` for a creation that holds nothing yet, then the shards of `tasks` upwards, then
`pending_by_principal` for a call that closes a task, then `by_principal`.
-/

namespace ThoughtGate

open WaitGraph (Mode WaitsFor Deadlocked)

namespace Pc

/-- The key whose `pending_by_principal` entry a `create` holds with its insertion still to come. -/
def reserving : Pc → Option String
  | .createAdd c | .createLoadBytes c _ | .createAddBytes c _ | .createInsert c _ => some c.key
  | _ => none

/-- The key whose counter a call has yet to take the task out of that it made terminal. -/
def closing : Pc → Option String
  | .entrySubCount _ _ key _ | .entrySubBytes _ _ key _ | .entryGetCounter _ _ key | .entrySubPrincipal _ _ key
  | .entryRemove _ _ key => some key
  | _ => none

theorem reserving_not_closing {p : Pc} {k : String} (h : p.reserving = some k) : p.closing = none := by
  cases p with
  | createAdd | createLoadBytes | createAddBytes | createInsert => rfl
  | _ => cases h

/-- The order in which waiting calls stand. -/
def rank (σ : Sharding) (p : Pc) : Nat :=
  match p, p.wants σ with
  | .createEntry _, _ => 0
  | _, some (.tasks shard, _) => shard + 1
  | _, some (.principals _, _) => σ.count + 1
  | _, some (.index _, _) => σ.count + 2
  | _, none => 0

end Pc

/-- The key of the task that a call on an entry makes terminal. -/
def closes (s : TaskStore) (u : EntryCall) : Option String := do
  let e ← s.tasks.lookup u.id
  let task ← u.body e.task
  if !e.task.status.isTerminal && task.status.isTerminal then some task.principal.rateLimitKey else none

/-- No `create` takes an entry of a `pending_by_principal` shard that a running call still needs to close its
task, and no call makes a task terminal whose counter lies in a shard that a `create` holds before its
insertion. -/
def apart (σ : Sharding) (s : ThreadState TaskStore Pc) : ThreadAct Pc Unit → Bool
  | .spawn .. => true
  | .run t _ =>
    match s.threads.lookup t with
    | some (.createEntry c) =>
      s.threads.entries.all fun e => e.2.closing.all fun key => σ.principals key != σ.principals c.key
    | some (.entryBody u _) =>
      (closes s.shared u).all fun key =>
        s.threads.entries.all fun e => e.2.reserving.all fun k => σ.principals k != σ.principals key
    | _ => true

/-- Creations before their insertion and calls that close a task are in different shards. -/
def Apart (σ : Sharding) (s : ThreadState TaskStore Pc) : Prop :=
  ∀ t u p q k key, s.threads.lookup t = some p → s.threads.lookup u = some q → p.reserving = some k →
    q.closing = some key → σ.principals k ≠ σ.principals key

section

variable [F64.Fmt] [Sha256] {σ : Sharding} {config : TaskStoreConfig}

theorem Goes.reserving {s : TaskStore} {p p' : Pc} (h : Goes σ s p p') {k : String} (hk : p'.reserving = some k) :
    p.reserving = some k ∨ ∃ c, p = .createEntry c ∧ c.key = k := by
  cases h with
  | @entry c =>
    cases hk
    exact Or.inr ⟨c, rfl, rfl⟩
  | built | fits | addBytes => exact Or.inl hk
  | _ => cases hk

theorem Goes.closing {s : TaskStore} {p p' : Pc} (h : Goes σ s p p') {key : String}
    (hkey : p'.closing = some key) :
    p.closing = some key ∨ ∃ u rest, p = .entryBody u rest ∧ closes s u = some key := by
  cases h with
  | @close u rest e task he hbody hlive hterm =>
    cases hkey
    exact Or.inr ⟨u, rest, rfl, by simp [closes, he, hbody, hlive, hterm]⟩
  | subCount | subBytes | counter | subLast => exact Or.inl hkey
  | _ => cases hkey

theorem Apart.run {s : ThreadState TaskStore Pc} (hs : Apart σ s) {t : Nat} {p : Pc}
    (hp : s.threads.lookup t = some p) (hok : apart σ s (.run t ()) = true) :
    Apart σ ⟨(p.next σ s.shared).1, Program.settle s.threads t (p.next σ s.shared).2⟩ := by
  intro a b pa pb k key ha hb hk hkey
  rcases Program.settle_cases ha with ⟨rfl, hpa⟩ | ⟨hane, hpa⟩ <;>
    rcases Program.settle_cases hb with ⟨hbt, hpb⟩ | ⟨hbne, hpb⟩
  · -- one call is not both
    rw [hpa] at hpb
    cases hpb
    rw [Pc.reserving_not_closing hk] at hkey
    cases hkey
  · rcases (next_goes hpa).reserving hk with hold | ⟨c, rfl, rfl⟩
    · exact hs a b p pb k key hp hpb hold hkey
    · simp only [apart, hp, List.all_eq_true] at hok
      have hall := hok ⟨b, pb⟩ (Table.mem_entries_iff.mpr hpb)
      simp only [hkey, Option.all_some, bne_iff_ne, ne_eq] at hall
      exact fun heq => hall heq.symm
  · subst hbt
    rcases (next_goes hpb).closing hkey with hold | ⟨u, rest, rfl, hcloses⟩
    · exact hs a b pa p k key hpa hp hk hold
    · simp only [apart, hp, hcloses, Option.all_some, List.all_eq_true] at hok
      have hall := hok ⟨a, pa⟩ (Table.mem_entries_iff.mpr hpa)
      simpa [hk] using hall
  · exact hs a b pa pb k key hpa hpb hk hkey

theorem reachable_apart {s : ThreadState TaskStore Pc}
    (h : (threadMachine σ config).ReachableWhen (fun s a => apart σ s a = true) s) : Apart σ s := by
  have hinit : Apart σ (⟨.new config, ∅⟩ : ThreadState TaskStore Pc) := by
    intro t u p q k key ht
    simp at ht
  refine h.invariant hinit ?_
  intro s a s' _ hs hok ha
  rcases Program.step_cases ha with ⟨t, p, rfl, hnone, hstart, rfl⟩ | ⟨t, i, p, shared, p', rfl, hp, -, hnext, rfl⟩
  · -- a call starts with nothing reserved and nothing to close
    have hfresh : p.reserving = none ∧ p.closing = none := by
      have hstart : p.start s.shared s.threads = true := hstart
      unfold Pc.start at hstart
      split at hstart
      all_goals first
        | exact ⟨rfl, rfl⟩
        | cases hstart
    intro a b pa pb k key hpa hpb hk hkey
    have hold : ∀ u q, (s.threads.insert t p).lookup u = some q → q = p ∨ s.threads.lookup u = some q := by
      intro u q hu
      by_cases hut : u = t
      · rw [hut, AList.lookup_insert] at hu
        exact Or.inl (Option.some.inj hu).symm
      · rw [AList.lookup_insert_ne hut] at hu
        exact Or.inr hu
    rcases hold a pa hpa with rfl | hpa'
    · rw [hfresh.1] at hk
      cases hk
    · rcases hold b pb hpb with rfl | hpb'
      · rw [hfresh.2] at hkey
        cases hkey
      · exact hs a b pa pb k key hpa' hpb' hk hkey
  · obtain ⟨rfl, rfl⟩ := threadProgram_next hnext
    exact hs.run hp hok

end

/-! ### The order of the waits -/

section

variable {σ : Sharding}

/-- Who holds a lock of `tasks`, if it waits at all, waits for a higher one. -/
theorem rank_of_held_tasks {q : Pc} {shard : Nat} {m : Mode} (hheld : (Lock.tasks shard, m) ∈ q.held σ)
    (hwait : (q.wants σ).isSome) : shard + 1 < q.rank σ := by
  cases q with
  | scanShard scan i found =>
    cases i with
    | zero => cases hheld
    | succ i =>
      unfold Pc.held at hheld
      simp only [List.mem_singleton, Prod.mk.injEq, Lock.tasks.injEq] at hheld
      show shard + 1 < i + 1 + 1
      omega
  | entryGetCounter u rest key | entryRemove u rest key =>
    unfold Pc.held at hheld
    simp only [List.mem_singleton, Prod.mk.injEq, Lock.tasks.injEq] at hheld
    have hlt := σ.tasks_lt u.id
    show shard + 1 < σ.count + 1
    omega
  | entryBody | entrySubCount | entrySubBytes | entrySubPrincipal | entryNotify | scanEnd => cases hwait
  | _ =>
    unfold Pc.held at hheld
    simp at hheld

/-- Who holds an entry of `pending_by_principal` and waits is a creation before or after its insertion. -/
theorem held_principals_cases {q : Pc} {shard : Nat} {m : Mode}
    (hheld : (Lock.principals shard, m) ∈ q.held σ) (hwait : (q.wants σ).isSome) :
    (∃ c task, q = .createInsert c task ∧ σ.principals c.key = shard) ∨ ∃ c, q = .createIndex c := by
  cases q with
  | createInsert c task =>
    unfold Pc.held at hheld
    simp only [List.mem_singleton, Prod.mk.injEq, Lock.principals.injEq] at hheld
    exact Or.inl ⟨c, task, rfl, hheld.1.symm⟩
  | createIndex c => exact Or.inr ⟨c, rfl⟩
  | createAdd | createLoadBytes | createAddBytes | createUndoPrincipal | createUndoCount | createReturn
  | entrySubPrincipal => cases hwait
  | scanShard scan i found =>
    unfold Pc.held at hheld
    cases i <;> simp at hheld
  | _ =>
    unfold Pc.held at hheld
    simp at hheld

theorem not_held_index {q : Pc} {shard : Nat} {m : Mode} : (Lock.index shard, m) ∉ q.held σ := by
  cases q with
  | scanShard scan i found =>
    unfold Pc.held
    cases i <;> simp
  | _ =>
    unfold Pc.held
    simp

/-- A wait on a waiting call goes up in rank. -/
theorem rank_lt_of_waits {s : ThreadState TaskStore Pc} (hs : Apart σ s) {t u : Nat} {p q : Pc} {l : Lock}
    {m m' : Mode} (hp : s.threads.lookup t = some p) (hq : s.threads.lookup u = some q)
    (hwants : p.wants σ = some (l, m)) (hheld : (l, m') ∈ q.held σ) (hwait : (q.wants σ).isSome) :
    p.rank σ < q.rank σ := by
  cases p with
  | createEntry c =>
    cases hwants
    rcases held_principals_cases hheld hwait with ⟨c', task, rfl, _⟩ | ⟨c', rfl⟩
    · exact Nat.succ_pos _
    · exact Nat.succ_pos _
  | entryGetCounter v rest key | entryRemove v rest key =>
    cases hwants
    rcases held_principals_cases hheld hwait with ⟨c', task, rfl, hshard⟩ | ⟨c', rfl⟩
    · exact absurd hshard (hs u t _ _ c'.key key hq hp rfl rfl)
    · exact Nat.lt_succ_self _
  | createInsert | entryGet | scanShard | cleanupRemove =>
    cases hwants
    exact rank_of_held_tasks hheld hwait
  | listGet ids =>
    cases ids with
    | nil => cases hwants
    | cons id ids =>
      cases hwants
      exact rank_of_held_tasks hheld hwait
  | createIndex | cleanupIndex | cleanupDropIndex | listIds =>
    cases hwants
    exact absurd hheld not_held_index
  | _ => cases hwants

end

section

variable [F64.Fmt] [Sha256] {σ : Sharding} {config : TaskStoreConfig}

/-- In the runs that keep creations before their insertion and calls that close a task apart, no set of calls is
ever deadlocked. -/
theorem no_deadlock_of_apart {s : ThreadState TaskStore Pc}
    (h : (threadMachine σ config).ReachableWhen (fun s a => apart σ s a = true) s) (T : Set Nat) :
    ¬ Deadlocked ((threadProgram σ config).holds s) ((threadProgram σ config).waits s) T := by
  have hapart := reachable_apart h
  refine Program.not_deadlocked (Pc.rank σ) ?_ T
  intro t u p q l m m' _ hp hq hwants hheld _ hwait
  exact rank_lt_of_waits hapart hp hq hwants hheld hwait

end

/-! ### A deadlock -/

section

attribute [local instance] Sample.f64Fmt Sample.sha256

/-- A task is stored; then a second creation of the same principal reaches its insertion while the first task is
failed and reaches the principal's counter. -/
def Sample.deadlock : List (ThreadAct Pc Unit) :=
  [ThreadAct.spawn 0 (Pc.createLoad (createArgs "tg_1" "app"))] ++ List.replicate 9 (ThreadAct.run 0 ()) ++
    [ThreadAct.spawn 0 (Pc.createLoad (createArgs "tg_2" "app")),
      .spawn 1 (.entryGet (.fail 1 "tg_1" ⟨.upstreamError, "connection refused", true⟩) [])] ++
    List.replicate 6 (ThreadAct.run 0 ()) ++ List.replicate 4 (ThreadAct.run 1 ())

/-- What a thread waits for and what it holds. -/
def Sample.locks (s : ThreadState TaskStore Pc) (t : Nat) : Option (Option (Lock × Mode) × List (Lock × Mode)) :=
  (s.threads.lookup t).map fun p => (p.wants sharding, p.held sharding)

def Sample.deadlockRun : (threadMachine Sample.sharding {}).RunTo (fun _ _ => true) fun s =>
    decide (Sample.locks s 0 = some (some (.tasks 0, .write), [(.principals 3, .write)]) ∧
      Sample.locks s 1 = some (some (.principals 3, .read), [(.tasks 0, .write)])) where
  actions := Sample.deadlock
  passes := by decide +kernel

theorem deadlock_reachable :
    ∃ s, (threadMachine Sample.sharding {}).Reachable s ∧
      Deadlocked ((threadProgram Sample.sharding {}).holds s) ((threadProgram Sample.sharding {}).waits s)
        {0, 1} := by
  obtain ⟨s, hreach, hlocks⟩ := Sample.deadlockRun.exists_reachable
  obtain ⟨h0, h1⟩ := of_decide_eq_true hlocks
  obtain ⟨p, hp, hp'⟩ := Option.map_eq_some_iff.mp h0
  obtain ⟨q, hq, hq'⟩ := Option.map_eq_some_iff.mp h1
  obtain ⟨hpwants, hpheld⟩ := Prod.mk.inj hp'
  obtain ⟨hqwants, hqheld⟩ := Prod.mk.inj hq'
  refine ⟨s, hreach, ⟨0, by simp⟩, ?_⟩
  intro t ht
  rcases ht with rfl | rfl
  · refine ⟨1, by simp, by decide, .tasks 0, .write, .write, ?_, ⟨q, hq, ?_⟩, rfl⟩
    · simp [Program.waits, hp, threadProgram, hpwants]
    · simp [threadProgram, hqheld]
  · refine ⟨0, by simp, by decide, .principals 3, .read, .write, ?_, ⟨p, hp, ?_⟩, rfl⟩
    · simp [Program.waits, hq, threadProgram, hqwants]
    · simp [threadProgram, hpheld]

/-- As above with another principal, whose counter lies in another shard. -/
def Sample.noDeadlock : List (ThreadAct Pc Unit) :=
  [ThreadAct.spawn 0 (Pc.createLoad (createArgs "tg_1" "app"))] ++ List.replicate 9 (ThreadAct.run 0 ()) ++
    [ThreadAct.spawn 0 (Pc.createLoad (createArgs "tg_2" "agent")),
      .spawn 1 (.entryGet (.fail 1 "tg_1" ⟨.upstreamError, "connection refused", true⟩) [])] ++
    List.replicate 6 (ThreadAct.run 0 ()) ++ List.replicate 4 (ThreadAct.run 1 ())

def Sample.noDeadlockRun : (threadMachine Sample.sharding {}).RunTo (apart Sample.sharding)
    fun s => decide (s.threads.keys = [1, 0]) where
  actions := Sample.noDeadlock
  passes := by decide +kernel

theorem no_deadlock_of_apart_sample :
    ∃ s, (threadMachine Sample.sharding {}).ReachableWhen (fun s a => apart Sample.sharding s a = true) s ∧
      s.threads.keys = [1, 0] ∧
      ¬ Deadlocked ((threadProgram Sample.sharding {}).holds s) ((threadProgram Sample.sharding {}).waits s)
        {0, 1} := by
  obtain ⟨s, hreach, hkeys⟩ := Sample.noDeadlockRun.exists_reachableWhen
  exact ⟨s, hreach, of_decide_eq_true hkeys, no_deadlock_of_apart hreach {0, 1}⟩

end

end ThoughtGate
