import ThoughtGate.Task.Threads

/-!
# Capacity limits with the calls interleaved

While calls run, a counter of the store is the total over the stored non-terminal tasks plus what the running
calls owe it: a slot that a `create` has taken for a task not yet inserted, or a task that is already terminal
and not yet taken out. The count owes nothing and stays within its limit because of the `compare_exchange`; the
counter of a principal may overshoot, but only by creations that are going to roll back. The byte limit is
checked on a value loaded earlier, so two creations can pass on the same value: it holds in the runs in which no
two stand between that load and the `fetch_add`.
-/

namespace ThoughtGate

open Program (weigh weigh_none weigh_some)

namespace Pc

/-! ### What the running calls owe -/

/-- The calls whose slot in `pending_count` is not that of a stored live task. -/
def owedCount : Pc → Nat
  | .createEntry _ | .createAdd _ | .createLoadBytes _ _ | .createAddBytes _ _ | .createInsert _ _
  | .createUndoPrincipal _ | .createUndoCount _ | .entrySubCount .. => 1
  | _ => 0

/-- The calls whose slot under the key is not that of a stored live task. -/
def owedOf (k : String) : Pc → Nat
  | .createLoadBytes c _ | .createAddBytes c _ | .createInsert c _ | .createUndoPrincipal c =>
    if c.key = k then 1 else 0
  | .entrySubCount _ _ key _ | .entrySubBytes _ _ key _ | .entryGetCounter _ _ key | .entrySubPrincipal _ _ key =>
    if key = k then 1 else 0
  | _ => 0

/-- The creations under the key that have passed the check of the principal's limit. -/
def passedOf (k : String) : Pc → Nat
  | .createLoadBytes c _ | .createAddBytes c _ | .createInsert c _ => if c.key = k then 1 else 0
  | _ => 0

/-- The creations between the byte check and the `fetch_add`. -/
def addsBytes : Pc → Bool
  | .createAddBytes .. => true
  | _ => false

def owedBytes [F64.Fmt] : Pc → Nat
  | .createInsert _ task => TaskStore.estimateBytes task
  | .entrySubCount _ _ _ bytes | .entrySubBytes _ _ _ bytes => bytes
  | _ => 0

/-! ### The heads of the loops -/

/-- Weights that are zero at the heads of the loops. -/
structure Idle (f : Pc → Nat) : Prop where
  entryGet : ∀ u rest, f (.entryGet u rest) = 0
  cleanupRemove : ∀ id rest, f (.cleanupRemove id rest) = 0
  listGet : ∀ ids, f (.listGet ids) = 0
  scanShard : ∀ scan i found, f (.scanShard scan i found) = 0
  scanEnd : ∀ scan found, f (.scanEnd scan found) = 0

namespace Idle

variable {f : Pc → Nat} (hf : Idle f)

include hf

theorem entryLoop (rest : List EntryCall) : weigh f (Pc.entryLoop rest) = 0 := by
  cases rest with
  | nil => rfl
  | cons u us => exact hf.entryGet u us

theorem cleanupLoop (rest : List TaskId) : weigh f (Pc.cleanupLoop rest) = 0 := by
  cases rest with
  | nil => rfl
  | cons id ids => exact hf.cleanupRemove id ids

theorem listLoop (ids : List TaskId) : weigh f (Pc.listLoop ids) = 0 := by
  cases ids with
  | nil => rfl
  | cons id ids => exact hf.listGet (id :: ids)

theorem scanned (found : List TaskId) (scan : Scan) : weigh f (Pc.scanned found scan) = 0 := by
  cases scan with
  | expireOverdue now => exact hf.entryLoop _
  | cleanupTerminal now => exact hf.cleanupLoop _
  | failAllPending now reason => exact hf.entryLoop _

theorem scanLoop (σ : Sharding) (scan : Scan) (i : Nat) (found : List TaskId) :
    f (Pc.scanLoop σ scan i found) = 0 := by
  rcases scanLoop_cases σ scan i found with h | h
  · rw [h, hf.scanShard]
  · rw [h, hf.scanEnd]

end Idle

end Pc

/-! ### Invariants of the running calls -/

/-- What a program counter remembers of the checks made before it. -/
def Pc.Coherent [F64.Fmt] (config : TaskStoreConfig) : Pc → Prop
  | .createCas _ current => current < config.maxPendingGlobal
  | .createLoadBytes c task => task.id = c.id ∧ task.principal = c.principal ∧ task.status = .working
  | .createAddBytes c task | .createInsert c task =>
    (task.id = c.id ∧ task.principal = c.principal ∧ task.status = .working) ∧
      TaskStore.estimateBytes task ≤ config.maxPendingBytes
  | _ => True

/-- The ids that a cleanup is going to remove. -/
def Pc.doomed : Pc → List TaskId
  | .scanShard (.cleanupTerminal _) _ found | .scanEnd (.cleanupTerminal _) found => found
  | .cleanupRemove id rest => id :: rest
  | .cleanupIndex _ _ rest | .cleanupDropIndex _ rest => rest
  | _ => []

structure Sound [F64.Fmt] (config : TaskStoreConfig) (s : ThreadState TaskStore Pc) : Prop where
  configured : s.shared.config = config
  keyed : WellKeyed s.shared
  sized : s.shared.tasks.All fun _ e => e.estimatedBytes ≤ config.maxPendingBytes
  coherent : ∀ t p, s.threads.lookup t = some p → p.Coherent config
  doomed : ∀ t p, s.threads.lookup t = some p → ∀ id ∈ p.doomed, ∀ e, s.shared.tasks.lookup id = some e →
    e.task.status.isTerminal = true
  fresh : ∀ t p id, s.threads.lookup t = some p → p.inserts = some id → s.shared.tasks.lookup id = none ∧
    ∀ u q, u ≠ t → s.threads.lookup u = some q → id ∉ q.mentions

theorem Pc.doomed_subset_mentions (p : Pc) {id : TaskId} (h : id ∈ p.doomed) : id ∈ p.mentions := by
  cases p with
  | scanShard scan i found =>
    cases scan with
    | cleanupTerminal now => exact h
    | _ => cases h
  | scanEnd scan found =>
    cases scan with
    | cleanupTerminal now => exact h
    | _ => cases h
  | cleanupIndex id' key rest => exact List.mem_cons_of_mem _ h
  | cleanupRemove | cleanupDropIndex => exact h
  | _ => cases h

theorem Pc.inserts_mem_mentions {p : Pc} {id : TaskId} (h : p.inserts = some id) : id ∈ p.mentions := by
  cases p with
  | createLoad | createCas | createEntry | createAdd | createLoadBytes | createAddBytes | createInsert =>
    cases h
    exact List.mem_singleton_self _
  | _ => cases h

section

variable [F64.Fmt] {config : TaskStoreConfig}

/-- What is not stored and not inserted by the step stays away. -/
theorem TaskMove.lookup_none {s : TaskStore} {p : Pc} {tasks : Table TaskId TaskEntry}
    (h : TaskMove s p tasks) {id : TaskId} (hid : s.tasks.lookup id = none)
    (hins : ∀ c task, p = .createInsert c task → c.id ≠ id) : tasks.lookup id = none := by
  cases h with
  | same => exact hid
  | @rewrite _ id' e e' he =>
    have hne : id ≠ id' := by
      rintro rfl
      rw [hid] at he
      cases he
    rw [AList.lookup_insert_ne hne, hid]
  | @insert c task =>
    rw [AList.lookup_insert_ne (hins c task rfl).symm, hid]
  | @remove id' rest =>
    by_cases hne : id = id'
    · rw [hne, AList.lookup_erase]
    · rw [AList.lookup_erase_ne hne, hid]

/-- A terminal task stays terminal until it is removed, and its id is not used again. -/
theorem TaskMove.terminal {s : TaskStore} {p : Pc} {tasks : Table TaskId TaskEntry} (h : TaskMove s p tasks)
    {id : TaskId} (hid : ∀ e, s.tasks.lookup id = some e → e.task.status.isTerminal = true)
    (hins : ∀ c task, p = .createInsert c task → c.id ≠ id) {e : TaskEntry} (he : tasks.lookup id = some e) :
    e.task.status.isTerminal = true := by
  cases h with
  | same => exact hid e he
  | @rewrite _ id' e₀ e' he₀ _ _ hterm =>
    by_cases hne : id = id'
    · subst hne
      rw [AList.lookup_insert] at he
      cases he
      exact hterm (hid e₀ he₀)
    · rw [AList.lookup_insert_ne hne] at he
      exact hid e he
  | @insert c task =>
    rw [AList.lookup_insert_ne (hins c task rfl).symm] at he
    exact hid e he
  | @remove id' rest =>
    by_cases hne : id = id'
    · rw [hne, AList.lookup_erase] at he
      cases he
    · rw [AList.lookup_erase_ne hne] at he
      exact hid e he

theorem TaskMove.keyed {s : TaskStore} (hs : WellKeyed s) {p : Pc} (hp : p.Coherent config)
    {s' : TaskStore} (h : TaskMove s p s'.tasks) : WellKeyed s' := by
  unfold WellKeyed
  generalize s'.tasks = tasks at h
  cases h with
  | same => exact hs
  | rewrite he horigin _ _ hat =>
    obtain ⟨hid, hat₀⟩ := hs _ _ he
    exact Table.All.insert hs ⟨horigin.id.trans hid, hat hat₀⟩
  | insert =>
    obtain ⟨⟨hid, _, hst⟩, _⟩ := hp
    refine Table.All.insert hs ⟨hid, ?_⟩
    simp [hst, TaskStatus.isTerminal]
  | remove => exact Table.All.erase hs _

theorem TaskMove.sized {s : TaskStore} (hs : s.tasks.All fun _ e => e.estimatedBytes ≤ config.maxPendingBytes)
    {p : Pc} (hp : p.Coherent config) {tasks : Table TaskId TaskEntry} (h : TaskMove s p tasks) :
    tasks.All fun _ e => e.estimatedBytes ≤ config.maxPendingBytes := by
  cases h with
  | same => exact hs
  | rewrite he _ hbytes => exact Table.All.insert hs (hbytes.trans_le (hs _ _ he))
  | insert => exact Table.All.insert hs hp.2
  | remove => exact Table.All.erase hs _

end

section

variable [F64.Fmt] [Sha256] {σ : Sharding} {config : TaskStoreConfig}

theorem Goes.coherent {s : TaskStore} (hconfig : s.config = config) {p p' : Pc} (hp : p.Coherent config)
    (h : Goes σ s p p') : p'.Coherent config := by
  subst hconfig
  cases h with
  | load hroom => exact hroom
  | built _ htask =>
    obtain ⟨hid, hprin, hst, _⟩ := Task.new_ok htask
    exact ⟨hid, hprin, hst⟩
  | fits hfits => exact ⟨hp, by omega⟩
  | addBytes => exact hp
  | _ => trivial

/-- A call comes to know only ids that are stored. -/
theorem Goes.mentions {s : TaskStore} (hkeyed : WellKeyed s) {p p' : Pc} (h : Goes σ s p p') {id : TaskId}
    (hid : id ∈ p'.mentions) : id ∈ p.mentions ∨ (s.tasks.lookup id).isSome := by
  have hscan : ∀ scan i found, id ∈ found ++ Pc.scanShardIds σ s scan i →
      id ∈ found ∨ (s.tasks.lookup id).isSome := by
    intro scan i found hmem
    rcases List.mem_append.mp hmem with hold | hnew
    · exact Or.inl hold
    · right
      obtain ⟨e, he, hide⟩ := List.mem_map.mp hnew
      have hlook := Table.mem_entries_iff.mp (List.mem_filter.mp he).1
      rw [← hide, (hkeyed _ _ hlook).1, hlook]
      rfl
  cases h with
  | @scanShard scan i found => exact hscan scan i found hid
  | @scanEnd scan i found => exact hscan scan i found hid
  | load | swap | retry | entry | built | fits | addBytes | cleanup | removed => exact Or.inl hid
  | gone | indexed | emptied => exact Or.inl (List.mem_cons_of_mem _ hid)
  | dropped => exact Or.inl hid
  | _ => cases hid

/-- A cleanup comes to doom only terminal tasks. -/
theorem Goes.doomed {s : TaskStore} (hkeyed : WellKeyed s) {p p' : Pc} (h : Goes σ s p p') {id : TaskId}
    (hid : id ∈ p'.doomed) :
    id ∈ p.doomed ∨ ∃ e, s.tasks.lookup id = some e ∧ e.task.status.isTerminal = true := by
  have hscan : ∀ now i found, id ∈ found ++ Pc.scanShardIds σ s (.cleanupTerminal now) i →
      id ∈ found ∨ ∃ e, s.tasks.lookup id = some e ∧ e.task.status.isTerminal = true := by
    intro now i found hmem
    rcases List.mem_append.mp hmem with hold | hnew
    · exact Or.inl hold
    · right
      obtain ⟨e, he, hide⟩ := List.mem_map.mp hnew
      obtain ⟨hin, htakes⟩ := List.mem_filter.mp he
      have hlook := Table.mem_entries_iff.mp hin
      obtain ⟨hkey, hat⟩ := hkeyed _ _ hlook
      refine ⟨e.2, by rw [← hide, hkey, hlook], ?_⟩
      rw [Bool.and_eq_true] at htakes
      have hstale := htakes.2
      simp only [Pc.scanTakes] at hstale
      rw [← hat]
      split at hstale
      · rename_i hsome
        rw [hsome]
        rfl
      · cases hstale
  cases h with
  | @scanShard scan i found =>
    cases scan with
    | cleanupTerminal now => exact hscan now i found hid
    | _ => cases hid
  | @scanEnd scan i found =>
    cases scan with
    | cleanupTerminal now => exact hscan now i found hid
    | _ => cases hid
  | cleanup | dropped => exact Or.inl hid
  | gone | removed => exact Or.inl (List.mem_cons_of_mem _ hid)
  | indexed | emptied => exact Or.inl hid
  | _ => cases hid

/-- Before its insertion a `create` keeps its id. -/
theorem Goes.inserts {s : TaskStore} {p p' : Pc} (h : Goes σ s p p') {id : TaskId}
    (hid : p'.inserts = some id) : p.inserts = some id ∧ ∀ c task, p ≠ .createInsert c task := by
  cases h with
  | load | swap | retry | entry | built | fits | addBytes => exact ⟨hid, fun _ _ => nofun⟩
  | _ => cases hid

omit [Sha256] in
theorem Sound.spawn {s : ThreadState TaskStore Pc} (hs : Sound config s) {t : Nat} {p : Pc}
    (hnone : s.threads.lookup t = none) (hstart : p.start s.shared s.threads = true) :
    Sound config { s with threads := s.threads.insert t p } := by
  -- a call starts with nothing remembered and nothing doomed
  have hcases : p.Coherent config ∧ p.doomed = [] ∧ ((p.inserts = none ∧ p.mentions = []) ∨
      ∃ id, p.inserts = some id ∧ p.mentions = [id] ∧ s.shared.tasks.lookup id = none ∧
        ∀ u q, s.threads.lookup u = some q → id ∉ q.mentions) := by
    unfold Pc.start at hstart
    split at hstart
    · rename_i c
      rw [Bool.and_eq_true, Option.isNone_iff_eq_none, List.all_eq_true] at hstart
      refine ⟨trivial, rfl, Or.inr ⟨c.id, rfl, rfl, hstart.1, ?_⟩⟩
      intro u q hu
      exact of_decide_eq_true (hstart.2 _ (Table.mem_entries_iff (e := ⟨u, q⟩).mpr hu))
    · exact ⟨trivial, rfl, Or.inl ⟨rfl, rfl⟩⟩
    · rename_i scan
      cases scan <;> exact ⟨trivial, rfl, Or.inl ⟨rfl, rfl⟩⟩
    · exact ⟨trivial, rfl, Or.inl ⟨rfl, rfl⟩⟩
    · cases hstart
  obtain ⟨hcoh, hdoom, hids⟩ := hcases
  have hthreads : ∀ u q, (s.threads.insert t p).lookup u = some q →
      (u = t ∧ q = p) ∨ (u ≠ t ∧ s.threads.lookup u = some q) := by
    intro u q hu
    by_cases hut : u = t
    · subst hut
      rw [AList.lookup_insert] at hu
      cases hu
      exact Or.inl ⟨rfl, rfl⟩
    · rw [AList.lookup_insert_ne hut] at hu
      exact Or.inr ⟨hut, hu⟩
  refine ⟨hs.configured, hs.keyed, hs.sized, fun u q hu => ?_, fun u q hu id hid e he => ?_,
    fun u q id hu hins => ?_⟩
  · rcases hthreads u q hu with ⟨rfl, rfl⟩ | ⟨_, hold⟩
    · exact hcoh
    · exact hs.coherent u q hold
  · rcases hthreads u q hu with ⟨rfl, rfl⟩ | ⟨_, hold⟩
    · rw [hdoom] at hid
      cases hid
    · exact hs.doomed u q hold id hid e he
  · rcases hthreads u q hu with ⟨rfl, rfl⟩ | ⟨hne, hold⟩
    · rcases hids with ⟨hnone, _⟩ | ⟨id', hid', _, hfree, hunknown⟩
      · rw [hnone] at hins
        cases hins
      · rw [hid'] at hins
        cases hins
        refine ⟨hfree, fun w r hw hr => ?_⟩
        rcases hthreads w r hr with ⟨rfl, _⟩ | ⟨_, hold⟩
        · exact absurd rfl hw
        · exact hunknown w r hold
    · obtain ⟨hfree, hunknown⟩ := hs.fresh u q id hold hins
      refine ⟨hfree, fun w r hw hr => ?_⟩
      rcases hthreads w r hr with ⟨rfl, rfl⟩ | ⟨_, hold'⟩
      · rcases hids with ⟨_, hnil⟩ | ⟨id', _, hlist, _, hunknown'⟩
        · rw [hnil]
          exact List.not_mem_nil
        · rw [hlist, List.mem_singleton]
          rintro rfl
          have hmem : id ∈ q.mentions := Pc.inserts_mem_mentions hins
          exact hunknown' u q hold hmem
      · exact hunknown w r hw hold'

theorem Sound.run {s : ThreadState TaskStore Pc} (hs : Sound config s) {t : Nat} {p : Pc}
    (hp : s.threads.lookup t = some p) :
    Sound config ⟨(p.next σ s.shared).1, Program.settle s.threads t (p.next σ s.shared).2⟩ := by
  have hmove := next_taskMove σ s.shared p
  have hcoh := hs.coherent t p hp
  -- the id of another call's creation is not the one inserted here
  have hother : ∀ u q id, u ≠ t → s.threads.lookup u = some q → id ∈ q.mentions →
      ∀ c task, p = .createInsert c task → c.id ≠ id := by
    rintro u q id hne hu hid c task rfl rfl
    exact (hs.fresh t _ c.id hp rfl).2 u q hne hu hid
  refine ⟨(next_config σ s.shared p).trans hs.configured, hmove.keyed hs.keyed hcoh, hmove.sized hs.sized hcoh,
    fun u q hu => ?_, fun u q hu id hid e he => ?_, fun u q id hu hins => ?_⟩
  · rcases Program.settle_cases hu with ⟨rfl, hq⟩ | ⟨_, hold⟩
    · exact (next_goes hq).coherent hs.configured hcoh
    · exact hs.coherent u q hold
  · rcases Program.settle_cases hu with ⟨rfl, hq⟩ | ⟨hne, hold⟩
    · have hgoes := next_goes hq
      have hterm : ∀ e, s.shared.tasks.lookup id = some e → e.task.status.isTerminal = true := by
        intro e₀ he₀
        rcases hgoes.doomed hs.keyed hid with hdoom | ⟨e₁, he₁, hterm₁⟩
        · exact hs.doomed u p hp id hdoom e₀ he₀
        · rw [he₁] at he₀
          cases he₀
          exact hterm₁
      refine hmove.terminal hterm ?_ he
      rintro c task rfl rfl
      cases hq
      cases hid
    · exact hmove.terminal (hs.doomed u q hold id hid)
        (hother u q id hne hold (q.doomed_subset_mentions hid)) he
  · rcases Program.settle_cases hu with ⟨rfl, hq⟩ | ⟨hne, hold⟩
    · obtain ⟨hins', hnot⟩ := (next_goes hq).inserts hins
      obtain ⟨hfree, hunknown⟩ := hs.fresh u p id hp hins'
      refine ⟨hmove.lookup_none hfree fun c task heq => absurd heq (hnot c task), fun w r hw hr => ?_⟩
      rcases Program.settle_cases hr with ⟨rfl, _⟩ | ⟨_, hold⟩
      · exact absurd rfl hw
      · exact hunknown w r hw hold
    · obtain ⟨hfree, hunknown⟩ := hs.fresh u q id hold hins
      refine ⟨hmove.lookup_none hfree (hother u q id hne hold (Pc.inserts_mem_mentions hins)),
        fun w r hw hr => ?_⟩
      rcases Program.settle_cases hr with ⟨rfl, hr'⟩ | ⟨_, hold'⟩
      · intro hmem
        rcases (next_goes hr').mentions hs.keyed hmem with hknown | hstored
        · exact hunknown w p hw hp hknown
        · rw [hfree] at hstored
          cases hstored
      · exact hunknown w r hw hold'

theorem reachable_sound {ok : ThreadState TaskStore Pc → ThreadAct Pc Unit → Prop}
    {s : ThreadState TaskStore Pc} (h : (threadMachine σ config).ReachableWhen ok s) : Sound config s := by
  have hinit : Sound config ⟨.new config, ∅⟩ := by
    refine ⟨rfl, Table.All.empty _, Table.All.empty _, ?_, ?_, ?_⟩
    all_goals
      intro t p
      intros
      simp_all
  refine h.invariant hinit ?_
  intro s a s' _ hs _ ha
  rcases Program.step_cases ha with ⟨t, p, rfl, hnone, hstart, rfl⟩ | ⟨t, i, p, shared, p', rfl, hp, -, hnext, rfl⟩
  · exact hs.spawn hnone hstart
  · obtain ⟨rfl, rfl⟩ := threadProgram_next hnext
    exact hs.run hp

/-! ### The totals, step by step -/

/-- The sum of a weight over the stored entries. -/
def TaskStore.weight (w : TaskEntry → Nat) (s : TaskStore) : Nat := s.tasks.total fun _ e => w e

/-- A weight that only live tasks have, and that depends on their key and bytes alone. -/
structure LiveWeight (w : TaskEntry → Nat) : Prop where
  terminal : ∀ e, e.task.status.isTerminal = true → w e = 0
  same : ∀ e e', e'.live = e.live → e'.key = e.key → e'.estimatedBytes = e.estimatedBytes → w e' = w e

/-- The entry that a `create` inserts. -/
def newEntry (task : Task) : TaskEntry where
  task := task
  terminalAt := none
  notifications := 0
  estimatedBytes := TaskStore.estimateBytes task

/-- The weight that the next step of a call inserts. -/
def Pc.gains (w : TaskEntry → Nat) : Pc → Nat
  | .createInsert _ task => w (newEntry task)
  | _ => 0

/-- The weight that becomes terminal in the next step of a call. -/
def Pc.loses (w : TaskEntry → Nat) (s : TaskStore) : Pc → Nat
  | .entryBody u _ =>
    match s.tasks.lookup u.id with
    | none => 0
    | some e =>
      match u.body e.task with
      | none => 0
      | some task => if !e.task.status.isTerminal && task.status.isTerminal then w e else 0
  | _ => 0

/-- The step on an entry: left alone, closed, or rewritten. -/
theorem entryBody_cases (σ : Sharding) (s : TaskStore) (u : EntryCall) (rest : List EntryCall) :
    ((Pc.entryBody u rest).next σ s = (s, Pc.entryLoop rest) ∧ ∀ w, (Pc.entryBody u rest).loses w s = 0) ∨
    (∃ e task, s.tasks.lookup u.id = some e ∧ TaskStep (fun _ => True) e.task task ∧
      e.task.status.isTerminal = false ∧ task.status.isTerminal = true ∧
      (Pc.entryBody u rest).next σ s = (s.put u.id { e with task, terminalAt := some u.now },
        some (.entrySubCount u rest task.principal.rateLimitKey e.estimatedBytes)) ∧
      ∀ w, (Pc.entryBody u rest).loses w s = w e) ∨
    (∃ e task, s.tasks.lookup u.id = some e ∧ TaskStep (fun _ => True) e.task task ∧
      task.status.isTerminal = e.task.status.isTerminal ∧
      (Pc.entryBody u rest).next σ s = (s.put u.id { e with task }, Pc.entryLoop rest) ∧
      ∀ w, (Pc.entryBody u rest).loses w s = 0) := by
  cases he : s.tasks.lookup u.id with
  | none => exact Or.inl ⟨by simp only [Pc.next, he], fun w => by simp only [Pc.loses, he]⟩
  | some e =>
    cases hbody : u.body e.task with
    | none => exact Or.inl ⟨by simp only [Pc.next, he, hbody], fun w => by simp only [Pc.loses, he, hbody]⟩
    | some task =>
      have hstep := EntryCall.body_taskStep hbody
      by_cases hcond : (!e.task.status.isTerminal && task.status.isTerminal) = true
      · refine Or.inr (Or.inl ⟨e, task, rfl, hstep, ?_, ?_, ?_, fun w => ?_⟩)
        · simpa using (Bool.and_eq_true_iff.mp hcond).1
        · exact (Bool.and_eq_true_iff.mp hcond).2
        · simp only [Pc.next, he, hbody, hcond, if_true]
        · simp only [Pc.loses, he, hbody, hcond, if_true]
      · refine Or.inr (Or.inr ⟨e, task, rfl, hstep, ?_, ?_, fun w => ?_⟩)
        · cases hterm : e.task.status.isTerminal with
          | true => rw [hstep.terminal hterm, hterm]
          | false => simpa [hterm] using hcond
        · simp only [Pc.next, he, hbody, hcond, if_false, Bool.false_eq_true]
        · simp only [Pc.loses, he, hbody, hcond, if_false, Bool.false_eq_true]

theorem next_weight {w : TaskEntry → Nat} (hw : LiveWeight w) {s : ThreadState TaskStore Pc} (hs : Sound config s)
    {t : Nat} {p : Pc} (hp : s.threads.lookup t = some p) :
    (p.next σ s.shared).1.weight w + p.loses w s.shared = s.shared.weight w + p.gains w := by
  have hsame : ∀ s' : TaskStore, s'.tasks = s.shared.tasks → s'.weight w + 0 = s.shared.weight w + 0 := by
    intro s' h
    rw [TaskStore.weight, h]
    rfl
  cases p with
  | createInsert c task =>
    have hfree := (hs.fresh t _ c.id hp rfl).1
    have hnew : (s.shared.put c.id (newEntry task)).weight w = w (newEntry task) + s.shared.weight w :=
      Table.total_insert_new _ _ hfree
    show (s.shared.put c.id (newEntry task)).weight w + 0 = s.shared.weight w + w (newEntry task)
    omega
  | entryBody u rest =>
    have hold : ∀ e e', s.shared.tasks.lookup u.id = some e →
        (s.shared.put u.id e').weight w + w e = s.shared.weight w + w e' :=
      fun e e' he => Table.total_insert_old _ e' he
    rcases entryBody_cases σ s.shared u rest with
      ⟨hnext, hloses⟩ | ⟨e, task, he, hstep, _, hterm, hnext, hloses⟩ | ⟨e, task, he, hstep, hsame', hnext, hloses⟩
    · rw [hnext, hloses]
      rfl
    · have hzero := hw.terminal { e with task, terminalAt := some u.now } hterm
      have := hold e { e with task, terminalAt := some u.now } he
      rw [hnext, hloses]
      show (s.shared.put u.id _).weight w + w e = s.shared.weight w + 0
      omega
    · have hlive : ({ e with task } : TaskEntry).live = e.live := by simp only [TaskEntry.live, hsame']
      have hkey : ({ e with task } : TaskEntry).key = e.key := by
        simp only [TaskEntry.key, hstep.sameOrigin.principal]
      have heq := hw.same e { e with task } hlive hkey rfl
      have := hold e { e with task } he
      rw [hnext, hloses]
      show (s.shared.put u.id _).weight w + 0 = s.shared.weight w + 0
      omega
  | entryNotify u rest =>
    simp only [Pc.next]
    split
    · rfl
    · rename_i e he
      have heq := hw.same e { e with notifications := e.notifications + 1 } rfl rfl rfl
      have hold : (s.shared.put u.id { e with notifications := e.notifications + 1 }).weight w + w e =
          s.shared.weight w + w { e with notifications := e.notifications + 1 } :=
        Table.total_insert_old _ _ he
      show (s.shared.put u.id _).weight w + 0 = s.shared.weight w + 0
      omega
  | cleanupRemove id rest =>
    simp only [Pc.next]
    split
    · rfl
    · rename_i e he
      have hzero := hw.terminal e (hs.doomed t _ hp id List.mem_cons_self e he)
      have hold : s.shared.weight w = w e + Table.total (fun _ e => w e) (s.shared.tasks.erase id) :=
        Table.total_erase _ he
      show Table.total (fun _ e => w e) (s.shared.tasks.erase id) + 0 = s.shared.weight w + 0
      omega
  | createEntry c => exact hsame _ (TaskStore.principalEntry_tasks _ _)
  | entryRemove u rest key => exact hsame _ (TaskStore.removePrincipalIfZero_tasks _ _)
  | _ =>
    simp only [Pc.next]
    repeat' split
    all_goals exact hsame _ rfl

/-! ### The counters, step by step -/

omit [F64.Fmt] [Sha256] in
theorem liveWeight_live : LiveWeight TaskEntry.live where
  terminal e h := by simp [TaskEntry.live, h]
  same _ _ h _ _ := h

omit [F64.Fmt] [Sha256] in
theorem liveWeight_liveOf (k : String) : LiveWeight (TaskEntry.liveOf k) where
  terminal e h := by simp [TaskEntry.liveOf, TaskEntry.live, h]
  same e e' hlive hkey _ := by simp only [TaskEntry.liveOf, hlive, hkey]

omit [F64.Fmt] [Sha256] in
theorem liveWeight_liveBytes : LiveWeight TaskEntry.liveBytes where
  terminal e h := by simp [TaskEntry.liveBytes, TaskEntry.live, h]
  same e e' hlive _ hbytes := by simp only [TaskEntry.liveBytes, hlive, hbytes]

omit [F64.Fmt] [Sha256] in
theorem idle_owedCount : Pc.Idle Pc.owedCount :=
  ⟨fun _ _ => rfl, fun _ _ => rfl, fun _ => rfl, fun _ _ _ => rfl, fun _ _ => rfl⟩

omit [F64.Fmt] [Sha256] in
theorem idle_owedOf (k : String) : Pc.Idle (Pc.owedOf k) :=
  ⟨fun _ _ => rfl, fun _ _ => rfl, fun _ => rfl, fun _ _ _ => rfl, fun _ _ => rfl⟩

omit [Sha256] in
theorem idle_owedBytes : Pc.Idle Pc.owedBytes :=
  ⟨fun _ _ => rfl, fun _ _ => rfl, fun _ => rfl, fun _ _ _ => rfl, fun _ _ => rfl⟩

omit [Sha256] in
theorem newEntry_live {task : Task} (h : task.status = .working) : (newEntry task).live = 1 := by
  simp [newEntry, TaskEntry.live, h, TaskStatus.isTerminal]

theorem next_count {s : ThreadState TaskStore Pc} (hs : Sound config s) {t : Nat} {p : Pc}
    (hp : s.threads.lookup t = some p) {rest : Nat}
    (h : s.shared.pendingCount = s.shared.weight TaskEntry.live + (p.owedCount + rest)) :
    (p.next σ s.shared).1.pendingCount =
      (p.next σ s.shared).1.weight TaskEntry.live + (weigh Pc.owedCount (p.next σ s.shared).2 + rest) := by
  have hw := next_weight liveWeight_live hs hp (σ := σ)
  have hloops := idle_owedCount
  -- a step that moves neither the counter nor what the call owes it
  have hstay : (p.next σ s.shared).1.pendingCount = s.shared.pendingCount →
      weigh Pc.owedCount (p.next σ s.shared).2 = p.owedCount → p.loses TaskEntry.live s.shared = 0 →
      p.gains TaskEntry.live = 0 → (p.next σ s.shared).1.pendingCount =
        (p.next σ s.shared).1.weight TaskEntry.live + (weigh Pc.owedCount (p.next σ s.shared).2 + rest) := by
    intros
    omega
  cases p with
  | createCas c current =>
    simp only [Pc.next]
    split
    · rename_i hcur
      subst hcur
      show s.shared.pendingCount + 1 = s.shared.weight TaskEntry.live + (1 + rest)
      simp only [Pc.owedCount] at h
      omega
    · exact h
  | createInsert c task =>
    have hst := (hs.coherent t _ hp).1.2.2
    simp only [Pc.gains, Pc.loses, newEntry_live hst] at hw
    simp only [Pc.owedCount] at h
    show s.shared.pendingCount = _ + (0 + rest)
    omega
  | createUndoCount c | entrySubCount u us key bytes =>
    simp only [Pc.owedCount] at h
    show fetchSub s.shared.pendingCount 1 = s.shared.weight TaskEntry.live + (0 + rest)
    rw [fetchSub_of_le (by omega)]
    omega
  | entryBody u us =>
    rcases entryBody_cases σ s.shared u us with
      ⟨hnext, hloses⟩ | ⟨e, task, _, _, hlive, _, hnext, hloses⟩ | ⟨e, task, _, _, _, hnext, hloses⟩
    · refine hstay (by rw [hnext]) ?_ (hloses _) rfl
      rw [hnext, hloops.entryLoop]
      rfl
    · have hone : e.live = 1 := by simp [TaskEntry.live, hlive]
      rw [hloses, hone] at hw
      simp only [Pc.owedCount, Pc.gains] at h hw
      rw [hnext] at hw ⊢
      simp only [TaskStore.put_pendingCount, weigh_some, Pc.owedCount] at hw ⊢
      omega
    · refine hstay (by rw [hnext, TaskStore.put_pendingCount]) ?_ (hloses _) rfl
      rw [hnext, hloops.entryLoop]
      rfl
  | createEntry c => exact hstay (TaskStore.principalEntry_pendingCount _ _) rfl rfl rfl
  | entryRemove u us key =>
    exact hstay (TaskStore.removePrincipalIfZero_counters _ _).1 rfl rfl rfl
  | _ =>
    refine hstay ?_ ?_ rfl rfl
    · simp only [Pc.next]
      repeat' split
      all_goals rfl
    · simp only [Pc.next]
      repeat' split
      all_goals first
        | rfl
        | exact hloops.entryLoop _
        | exact hloops.cleanupLoop _
        | exact hloops.listLoop _
        | exact hloops.scanned _ _
        | exact hloops.scanLoop _ _ _ _

theorem next_of {k : String} {s : ThreadState TaskStore Pc} (hs : Sound config s) {t : Nat} {p : Pc}
    (hp : s.threads.lookup t = some p) {rest : Nat}
    (h : s.shared.principalCount k = s.shared.weight (TaskEntry.liveOf k) + (p.owedOf k + rest)) :
    (p.next σ s.shared).1.principalCount k =
      (p.next σ s.shared).1.weight (TaskEntry.liveOf k) + (weigh (Pc.owedOf k) (p.next σ s.shared).2 + rest) := by
  have hw := next_weight (liveWeight_liveOf k) hs hp (σ := σ)
  have hloops := idle_owedOf k
  have hstay : (p.next σ s.shared).1.principalCount k = s.shared.principalCount k →
      weigh (Pc.owedOf k) (p.next σ s.shared).2 = p.owedOf k → p.loses (TaskEntry.liveOf k) s.shared = 0 →
      p.gains (TaskEntry.liveOf k) = 0 → (p.next σ s.shared).1.principalCount k =
        (p.next σ s.shared).1.weight (TaskEntry.liveOf k) +
          (weigh (Pc.owedOf k) (p.next σ s.shared).2 + rest) := by
    intros
    omega
  -- taking a slot back: the key's own counter has it, the others are not touched
  have hsub : ∀ key : String, p.owedOf k = (if key = k then 1 else 0) →
      (s.shared.subPrincipal key).principalCount k = s.shared.weight (TaskEntry.liveOf k) + (0 + rest) := by
    intro key howed
    by_cases hk : key = k
    · subst hk
      rw [if_pos rfl] at howed
      rw [TaskStore.subPrincipal_principalCount (by omega), if_pos rfl]
      omega
    · rw [if_neg hk] at howed
      rw [TaskStore.subPrincipal_principalCount_ne _ (Ne.symm hk)]
      omega
  cases p with
  | createAdd c =>
    have hadd : (s.shared.addPrincipal c.key).principalCount k =
        s.shared.weight (TaskEntry.liveOf k) + ((if c.key = k then 1 else 0) + rest) := by
      rw [TaskStore.addPrincipal_principalCount, h]
      simp only [Pc.owedOf, eq_comm (a := k)]
      omega
    simp only [Pc.next]
    repeat' split
    all_goals exact hadd
  | createInsert c task =>
    obtain ⟨⟨_, hprin, hst⟩, _⟩ := hs.coherent t _ hp
    have hgain : (newEntry task).liveOf k = if c.key = k then 1 else 0 := by
      have hkey : (newEntry task).key = c.key := by simp only [newEntry, TaskEntry.key, hprin, CreateArgs.key]
      rw [TaskEntry.liveOf, newEntry_live hst, hkey]
    simp only [Pc.gains, Pc.loses, hgain] at hw
    simp only [Pc.owedOf] at h
    show s.shared.principalCount k = _ + (0 + rest)
    omega
  | createUndoPrincipal c => exact hsub c.key rfl
  | entryBody u us =>
    rcases entryBody_cases σ s.shared u us with
      ⟨hnext, hloses⟩ | ⟨e, task, _, hstep, hlive, _, hnext, hloses⟩ | ⟨e, task, _, _, _, hnext, hloses⟩
    · refine hstay (by rw [hnext]) ?_ (hloses _) rfl
      rw [hnext, hloops.entryLoop]
      rfl
    · have hone : e.live = 1 := by simp [TaskEntry.live, hlive]
      have hkey : task.principal.rateLimitKey = e.key := by rw [hstep.sameOrigin.principal, TaskEntry.key]
      rw [hloses, TaskEntry.liveOf, hone] at hw
      simp only [Pc.owedOf, Pc.gains] at h hw
      rw [hnext] at hw ⊢
      simp only [TaskStore.put_principalCount, weigh_some, Pc.owedOf, hkey] at hw ⊢
      omega
    · refine hstay (by rw [hnext, TaskStore.put_principalCount]) ?_ (hloses _) rfl
      rw [hnext, hloops.entryLoop]
      rfl
  | entryGetCounter u us key =>
    simp only [Pc.next]
    split
    · rename_i hnone
      -- a call that owes a slot under its key finds the counter
      by_cases hk : key = k
      · subst hk
        have hzero : s.shared.principalCount key = 0 := by rw [TaskStore.principalCount, hnone]; rfl
        simp only [Pc.owedOf, if_true] at h
        omega
      · simp only [Pc.owedOf, if_neg hk] at h
        exact h
    · exact h
  | entrySubPrincipal u us key =>
    simp only [Pc.next]
    split
    all_goals exact hsub key rfl
  | createEntry c => exact hstay (TaskStore.principalEntry_principalCount _ _ _) rfl rfl rfl
  | entryRemove u us key => exact hstay (TaskStore.removePrincipalIfZero_principalCount _ _ _) rfl rfl rfl
  | _ =>
    refine hstay ?_ ?_ rfl rfl
    · simp only [Pc.next]
      repeat' split
      all_goals rfl
    · simp only [Pc.next]
      repeat' split
      all_goals first
        | rfl
        | exact hloops.entryLoop _
        | exact hloops.cleanupLoop _
        | exact hloops.listLoop _
        | exact hloops.scanned _ _
        | exact hloops.scanLoop _ _ _ _

theorem next_bytes {s : ThreadState TaskStore Pc} (hs : Sound config s) {t : Nat} {p : Pc}
    (hp : s.threads.lookup t = some p) {rest : Nat}
    (h : s.shared.pendingBytes = s.shared.weight TaskEntry.liveBytes + (p.owedBytes + rest)) :
    (p.next σ s.shared).1.pendingBytes =
      (p.next σ s.shared).1.weight TaskEntry.liveBytes + (weigh Pc.owedBytes (p.next σ s.shared).2 + rest) := by
  have hw := next_weight liveWeight_liveBytes hs hp (σ := σ)
  have hloops := idle_owedBytes
  have hstay : (p.next σ s.shared).1.pendingBytes = s.shared.pendingBytes →
      weigh Pc.owedBytes (p.next σ s.shared).2 = p.owedBytes → p.loses TaskEntry.liveBytes s.shared = 0 →
      p.gains TaskEntry.liveBytes = 0 → (p.next σ s.shared).1.pendingBytes =
        (p.next σ s.shared).1.weight TaskEntry.liveBytes +
          (weigh Pc.owedBytes (p.next σ s.shared).2 + rest) := by
    intros
    omega
  cases p with
  | createAddBytes c task =>
    simp only [Pc.owedBytes] at h
    show s.shared.pendingBytes + TaskStore.estimateBytes task =
      s.shared.weight TaskEntry.liveBytes + (TaskStore.estimateBytes task + rest)
    omega
  | createInsert c task =>
    have hst := (hs.coherent t _ hp).1.2.2
    have hgain : (newEntry task).liveBytes = TaskStore.estimateBytes task := by
      rw [TaskEntry.liveBytes, newEntry_live hst, Nat.one_mul]
      rfl
    simp only [Pc.gains, Pc.loses, hgain] at hw
    simp only [Pc.owedBytes] at h
    show s.shared.pendingBytes = _ + (0 + rest)
    omega
  | entryBody u us =>
    rcases entryBody_cases σ s.shared u us with
      ⟨hnext, hloses⟩ | ⟨e, task, _, _, hlive, _, hnext, hloses⟩ | ⟨e, task, _, _, _, hnext, hloses⟩
    · refine hstay (by rw [hnext]) ?_ (hloses _) rfl
      rw [hnext, hloops.entryLoop]
      rfl
    · have hall : e.liveBytes = e.estimatedBytes := by simp [TaskEntry.liveBytes, TaskEntry.live, hlive]
      rw [hloses, hall] at hw
      simp only [Pc.owedBytes, Pc.gains] at h hw
      rw [hnext] at hw ⊢
      simp only [TaskStore.put_pendingBytes, weigh_some, Pc.owedBytes] at hw ⊢
      omega
    · refine hstay (by rw [hnext, TaskStore.put_pendingBytes]) ?_ (hloses _) rfl
      rw [hnext, hloops.entryLoop]
      rfl
  | entrySubBytes u us key bytes =>
    simp only [Pc.owedBytes] at h
    show fetchSub s.shared.pendingBytes bytes = s.shared.weight TaskEntry.liveBytes + (0 + rest)
    rw [fetchSub_of_le (by omega)]
    omega
  | createEntry c => exact hstay (TaskStore.principalEntry_pendingBytes _ _) rfl rfl rfl
  | entryRemove u us key =>
    exact hstay (TaskStore.removePrincipalIfZero_counters _ _).2.1 rfl rfl rfl
  | _ =>
    refine hstay ?_ ?_ rfl rfl
    · simp only [Pc.next]
      repeat' split
      all_goals rfl
    · simp only [Pc.next]
      repeat' split
      all_goals first
        | rfl
        | exact hloops.entryLoop _
        | exact hloops.cleanupLoop _
        | exact hloops.listLoop _
        | exact hloops.scanned _ _
        | exact hloops.scanLoop _ _ _ _

/-! ### Every run -/

/-- What the running calls owe in all. -/
def owed (f : Pc → Nat) (s : ThreadState TaskStore Pc) : Nat := Table.total (fun _ p => f p) s.threads

omit [F64.Fmt] [Sha256] in
theorem start_idle {f : Pc → Nat} (hf : Pc.Idle f) (hload : ∀ c, f (.createLoad c) = 0)
    (hlist : ∀ principal, f (.listIds principal) = 0) {s : TaskStore} {threads : Table Nat Pc} {p : Pc}
    (h : p.start s threads = true) : f p = 0 := by
  unfold Pc.start at h
  split at h
  · exact hload _
  · exact hf.entryGet _ _
  · exact hf.scanShard _ _ _
  · exact hlist _
  · cases h

section

variable {ok : ThreadState TaskStore Pc → ThreadAct Pc Unit → Prop} {s : ThreadState TaskStore Pc}

theorem reachable_count (h : (threadMachine σ config).ReachableWhen ok s) :
    s.shared.pendingCount = s.shared.liveTasks + owed Pc.owedCount s := by
  refine Program.total_invariant (R := fun st n => st.pendingCount = st.weight TaskEntry.live + n) Pc.owedCount
    rfl (fun _ _ _ => start_idle idle_owedCount (fun _ => rfl) fun _ => rfl) ?_ h
  intro s t i p shared p' hreach _ hp hnext hR
  obtain ⟨rfl, rfl⟩ := threadProgram_next hnext
  exact next_count (reachable_sound hreach) hp hR

theorem reachable_of (h : (threadMachine σ config).ReachableWhen ok s) (k : String) :
    s.shared.principalCount k = s.shared.liveTasksOf k + owed (Pc.owedOf k) s := by
  refine Program.total_invariant (R := fun st n => st.principalCount k = st.weight (TaskEntry.liveOf k) + n)
    (Pc.owedOf k) rfl (fun _ _ _ => start_idle (idle_owedOf k) (fun _ => rfl) fun _ => rfl) ?_ h
  intro s t i p shared p' hreach _ hp hnext hR
  obtain ⟨rfl, rfl⟩ := threadProgram_next hnext
  exact next_of (reachable_sound hreach) hp hR

theorem reachable_bytes (h : (threadMachine σ config).ReachableWhen ok s) :
    s.shared.pendingBytes = s.shared.liveBytes + owed Pc.owedBytes s := by
  refine Program.total_invariant (R := fun st n => st.pendingBytes = st.weight TaskEntry.liveBytes + n)
    Pc.owedBytes rfl (fun _ _ _ => start_idle idle_owedBytes (fun _ => rfl) fun _ => rfl) ?_ h
  intro s t i p shared p' hreach _ hp hnext hR
  obtain ⟨rfl, rfl⟩ := threadProgram_next hnext
  exact next_bytes (reachable_sound hreach) hp hR

/-- The `compare_exchange` keeps the count within its limit. -/
theorem reachable_count_le (h : (threadMachine σ config).ReachableWhen ok s) :
    s.shared.pendingCount ≤ config.maxPendingGlobal := by
  refine Program.total_invariant (R := fun st _ => st.pendingCount ≤ config.maxPendingGlobal) (fun _ => 0)
    (Nat.zero_le _) (fun _ _ _ _ => rfl) ?_ h
  intro s t i p shared p' hreach _ hp hnext hR
  obtain ⟨rfl, rfl⟩ := threadProgram_next hnext
  have hcount := reachable_count hreach
  have howes : p.owedCount ≤ owed Pc.owedCount s := Table.le_total (fun _ p => p.owedCount) hp
  have hsub : p.owedCount = 1 → fetchSub s.shared.pendingCount 1 ≤ config.maxPendingGlobal := by
    intro hone
    rw [fetchSub_of_le (by omega)]
    omega
  cases p with
  | createCas c current =>
    have hcur : current < config.maxPendingGlobal := (reachable_sound hreach).coherent t _ hp
    simp only [Pc.next]
    split
    · exact hcur
    · exact hR
  | createUndoCount | entrySubCount => exact hsub rfl
  | createEntry c => exact (TaskStore.principalEntry_pendingCount _ _).trans_le hR
  | entryRemove u us key => exact (TaskStore.removePrincipalIfZero_counters _ _).1.trans_le hR
  | _ =>
    simp only [Pc.next]
    repeat' split
    all_goals exact hR

omit [F64.Fmt] [Sha256] in
theorem passedOf_le_owedOf (k : String) (p : Pc) : p.passedOf k ≤ p.owedOf k := by
  cases p with
  | createLoadBytes | createAddBytes | createInsert => exact Nat.le_refl _
  | _ => exact Nat.zero_le _

/-- A key's stored tasks and its creations past the check stay within the principal's limit. -/
theorem reachable_passed_le (h : (threadMachine σ config).ReachableWhen ok s) (k : String) :
    s.shared.liveTasksOf k + owed (Pc.passedOf k) s ≤ config.maxPendingPerPrincipal := by
  refine Program.total_invariant
    (R := fun st n => st.weight (TaskEntry.liveOf k) + n ≤ config.maxPendingPerPrincipal) (Pc.passedOf k)
    (Nat.zero_le _) (fun _ _ _ => start_idle
      ⟨fun _ _ => rfl, fun _ _ => rfl, fun _ => rfl, fun _ _ _ => rfl, fun _ _ => rfl⟩ (fun _ => rfl) fun _ => rfl)
    ?_ h
  intro s t i p shared p' hreach _ hp hnext hR
  obtain ⟨rfl, rfl⟩ := threadProgram_next hnext
  have hs := reachable_sound hreach
  have hw := next_weight (liveWeight_liveOf k) hs hp (σ := σ)
  set rest := Table.total (fun _ q => Pc.passedOf k q) (s.threads.erase t) with hrest
  -- a step that passes no check moves a creation's slot at most into the store
  have hkeep : p.gains (TaskEntry.liveOf k) + weigh (Pc.passedOf k) (p.next σ s.shared).2 ≤ p.passedOf k →
      (p.next σ s.shared).1.weight (TaskEntry.liveOf k) + (weigh (Pc.passedOf k) (p.next σ s.shared).2 + rest) ≤
        config.maxPendingPerPrincipal := by
    intro hle
    omega
  cases hp' : (p.next σ s.shared).2 with
  | none =>
    rw [hp'] at hkeep
    refine hkeep ?_
    cases p with
    | createInsert => cases hp'
    | _ => exact Nat.zero_le _
  | some q =>
    rw [hp'] at hkeep
    have hgoes := next_goes hp'
    generalize (p.next σ s.shared).1 = st at hw hkeep
    cases hgoes with
    | @built c ttl task hslot _ =>
      -- the counter that was read counts every stored and every passed task of the key
      have hcount := reachable_of hreach k
      have hsplit : owed (Pc.owedOf k) s = 0 + Table.total (fun _ q => Pc.owedOf k q) (s.threads.erase t) :=
        Table.total_erase (fun _ q => Pc.owedOf k q) hp
      have hle : rest ≤ Table.total (fun _ q => Pc.owedOf k q) (s.threads.erase t) :=
        Table.total_mono fun _ q => passedOf_le_owedOf k q
      rw [hs.configured] at hslot
      simp only [Pc.gains, Pc.loses, Pc.passedOf, weigh_some] at hw hkeep ⊢ hR
      by_cases hk : c.key = k
      · rw [hk] at hslot
        have hlive : s.shared.liveTasksOf k = s.shared.weight (TaskEntry.liveOf k) := rfl
        rw [if_pos hk]
        omega
      · rw [if_neg hk]
        omega
    | @insert c task =>
      refine hkeep ?_
      obtain ⟨⟨_, hprin, hst⟩, _⟩ := hs.coherent t _ hp
      have hkey : (newEntry task).key = c.key := by simp only [newEntry, TaskEntry.key, hprin, CreateArgs.key]
      simp only [Pc.gains, TaskEntry.liveOf, newEntry_live hst, hkey, weigh_some, Pc.passedOf]
      omega
    | @addBytes c task =>
      exact hkeep (Nat.le_of_eq (Nat.zero_add _))
    | @fits c task =>
      exact hkeep (Nat.le_of_eq (Nat.zero_add _))
    | @entryLoop p u us =>
      refine hkeep ?_
      cases p with
      | createInsert => cases hp'
      | _ => exact Nat.zero_le _
    | @list p ids =>
      refine hkeep ?_
      cases p with
      | createInsert => cases hp'
      | _ => exact Nat.zero_le _
    | _ => exact hkeep (Nat.zero_le _)

/-- No `create` loads `pending_bytes` while another one stands between its load and its `fetch_add`. -/
def noByteRace (s : ThreadState TaskStore Pc) : ThreadAct Pc Unit → Bool
  | .spawn .. => true
  | .run t _ =>
    match s.threads.lookup t with
    | some (.createLoadBytes ..) => s.threads.entries.all fun e => !e.2.addsBytes
    | _ => true

/-- The bytes that a creation has found room for and not yet added. -/
def Pc.checkedBytes : Pc → Nat
  | .createAddBytes _ task => TaskStore.estimateBytes task
  | _ => 0

omit [Sha256] in
theorem idle_checkedBytes : Pc.Idle Pc.checkedBytes :=
  ⟨fun _ _ => rfl, fun _ _ => rfl, fun _ => rfl, fun _ _ _ => rfl, fun _ _ => rfl⟩

/-- Without a race, the room a creation has found is still there when it takes it. -/
theorem reachable_checkedBytes_le (h : (threadMachine σ config).ReachableWhen (fun s a => noByteRace s a = true) s) :
    s.shared.pendingBytes + owed Pc.checkedBytes s ≤ config.maxPendingBytes := by
  refine Program.total_invariant (R := fun st n => st.pendingBytes + n ≤ config.maxPendingBytes) Pc.checkedBytes
    (Nat.zero_le _) (fun _ _ _ => start_idle idle_checkedBytes (fun _ => rfl) fun _ => rfl) ?_ h
  intro s t i p shared p' hreach halone hp hnext hR
  obtain ⟨rfl, rfl⟩ := threadProgram_next hnext
  have hs := reachable_sound hreach
  have hloops := idle_checkedBytes
  set rest := Table.total (fun _ q => Pc.checkedBytes q) (s.threads.erase t) with hrest
  cases p with
  | createLoadBytes c task =>
    simp only [Pc.next]
    split
    · exact hR
    · rename_i hfits
      rw [hs.configured] at hfits
      have hzero : rest = 0 := by
        refine Table.total_eq_zero fun e he => ?_
        have hlook := Table.mem_entries_iff.mp he
        have hne : e.1 ≠ t := by
          intro heq
          rw [heq, AList.lookup_erase] at hlook
          cases hlook
        rw [AList.lookup_erase_ne hne] at hlook
        obtain ⟨u, q⟩ := e
        cases q with
        | createAddBytes c' task' =>
          simp only [noByteRace, hp, List.all_eq_true] at halone
          have := halone ⟨u, .createAddBytes c' task'⟩ (Table.mem_entries_iff.mpr hlook)
          cases this
        | _ => rfl
      show s.shared.pendingBytes + (TaskStore.estimateBytes task + rest) ≤ config.maxPendingBytes
      omega
  | createAddBytes c task =>
    simp only [Pc.checkedBytes] at hR
    show s.shared.pendingBytes + TaskStore.estimateBytes task + (0 + rest) ≤ config.maxPendingBytes
    omega
  | entrySubBytes u us key bytes =>
    have hbytes := reachable_bytes hreach
    have howes : bytes ≤ owed Pc.owedBytes s := Table.le_total (fun _ p => p.owedBytes) hp
    simp only [Pc.checkedBytes] at hR
    show fetchSub s.shared.pendingBytes bytes + (0 + rest) ≤ config.maxPendingBytes
    rw [fetchSub_of_le (by omega)]
    omega
  | createEntry c =>
    show (s.shared.principalEntry c.key).pendingBytes + (0 + rest) ≤ config.maxPendingBytes
    rw [TaskStore.principalEntry_pendingBytes]
    exact hR
  | entryRemove u us key =>
    show (s.shared.removePrincipalIfZero key).pendingBytes + (0 + rest) ≤ config.maxPendingBytes
    rw [(TaskStore.removePrincipalIfZero_counters _ _).2.1]
    exact hR
  | _ =>
    simp only [Pc.next]
    repeat' split
    all_goals first
      | exact hR
      | (rw [hloops.entryLoop]; exact hR)
      | (rw [hloops.cleanupLoop]; exact hR)
      | (rw [hloops.listLoop]; exact hR)
      | (rw [hloops.scanned]; exact hR)
      | (rw [weigh_some, hloops.scanLoop]; exact hR)

/-- Every stored task passed the byte check alone, so the count bounds the bytes too. -/
theorem reachable_liveBytes_le_mul (h : (threadMachine σ config).ReachableWhen ok s) :
    s.shared.liveBytes ≤ s.shared.liveTasks * config.maxPendingBytes := by
  refine Table.total_le_mul fun e he => ?_
  have hsize := (reachable_sound h).sized _ _ (Table.mem_entries_iff.mp he)
  exact Nat.mul_le_mul_left _ hsize

/-- Whatever the interleaving of the calls, the stored live tasks respect the limits of their number, in all and
per key; their bytes stay within the limit when no two creations race on `pending_bytes`, and within the global
number of tasks times that limit in any case; and once all calls have finished the counters are exact. -/
theorem capacity_limits (h : (threadMachine σ config).Reachable s) :
    s.shared.liveTasks ≤ config.maxPendingGlobal ∧
      (∀ k, s.shared.liveTasksOf k ≤ config.maxPendingPerPrincipal) ∧
      s.shared.liveBytes ≤ config.maxPendingGlobal * config.maxPendingBytes ∧
      ((threadMachine σ config).ReachableWhen (fun s a => noByteRace s a = true) s → s.shared.liveBytes ≤ config.maxPendingBytes) ∧
      (s.threads = ∅ → s.shared.pendingCount = s.shared.liveTasks ∧
        (∀ k, s.shared.principalCount k = s.shared.liveTasksOf k) ∧
        s.shared.pendingBytes = s.shared.liveBytes) := by
  have hcount := reachable_count h
  have hbound := reachable_count_le h
  have hbytes := reachable_bytes h
  have hlive : s.shared.liveTasks ≤ config.maxPendingGlobal := by omega
  refine ⟨hlive, fun k => ?_, ?_, fun hrace => ?_, fun hdone => ?_⟩
  · have := reachable_passed_le h k
    omega
  · exact (reachable_liveBytes_le_mul h).trans (Nat.mul_le_mul_right _ hlive)
  · have := reachable_checkedBytes_le hrace
    omega
  · have hnone : ∀ f, owed f s = 0 := by
      intro f
      rw [owed, hdone]
      rfl
    refine ⟨?_, fun k => ?_, ?_⟩
    · rw [hcount, hnone, Nat.add_zero]
    · rw [reachable_of h k, hnone, Nat.add_zero]
    · rw [hbytes, hnone, Nat.add_zero]

end

end

/-! ### A race on the byte limit -/

section

attribute [local instance] Sample.f64Fmt Sample.sha256

/-- Room for one request of 202 bytes, not for two. -/
def Sample.tightConfig : TaskStoreConfig := { maxPendingBytes := 300 }

/-- Two creations load `pending_bytes` before either adds to it. -/
def Sample.byteRace : List (ThreadAct Pc Unit) :=
  [ThreadAct.spawn 0 (Pc.createLoad (createArgs "tg_1" "app")), .spawn 1 (.createLoad (createArgs "tg_2" "agent"))] ++
    List.replicate 5 (ThreadAct.run 0 ()) ++ List.replicate 5 (ThreadAct.run 1 ()) ++ List.replicate 2 (ThreadAct.run 0 ()) ++
    List.replicate 2 (ThreadAct.run 1 ())

def Sample.byteRun : (threadMachine Sample.sharding Sample.tightConfig).RunTo (fun _ _ => true)
    fun s => decide (s.shared.liveBytes = 404) where
  actions := Sample.byteRace
  passes := by decide +kernel

theorem bytes_exceed_limit :
    ∃ s, (threadMachine Sample.sharding Sample.tightConfig).Reachable s ∧
      s.shared.liveBytes = 404 ∧ ¬ s.shared.liveBytes ≤ Sample.tightConfig.maxPendingBytes := by
  obtain ⟨s, hreach, hbytes⟩ := Sample.byteRun.exists_reachable
  rw [decide_eq_true_iff] at hbytes
  refine ⟨s, hreach, hbytes, ?_⟩
  rw [hbytes]
  decide

/-- One creation after the other: the second finds no room. -/
def Sample.noByteRace : List (ThreadAct Pc Unit) :=
  [ThreadAct.spawn 0 (Pc.createLoad (createArgs "tg_1" "app")), .spawn 1 (.createLoad (createArgs "tg_2" "agent"))] ++
    List.replicate 9 (ThreadAct.run 0 ()) ++ List.replicate 8 (ThreadAct.run 1 ())

def Sample.noByteRun : (threadMachine Sample.sharding Sample.tightConfig).RunTo ThoughtGate.noByteRace
    fun s => decide (s.threads.keys = []) where
  actions := Sample.noByteRace
  passes := by decide +kernel

theorem capacity_limits_sample :
    ∃ s, (threadMachine Sample.sharding Sample.tightConfig).Reachable s ∧ s.threads = ∅ ∧
      s.shared.liveBytes ≤ 300 ∧ s.shared.pendingCount = s.shared.liveTasks := by
  obtain ⟨s, hrace, hkeys⟩ := Sample.noByteRun.exists_reachableWhen
  have hdone : s.threads = ∅ := AList.ext (List.map_eq_nil_iff.mp (of_decide_eq_true hkeys))
  obtain ⟨_, _, _, hbytes, hexact⟩ := capacity_limits hrace.reachable
  exact ⟨s, hrace.reachable, hdone, hbytes hrace, (hexact hdone).1⟩

end

end ThoughtGate
