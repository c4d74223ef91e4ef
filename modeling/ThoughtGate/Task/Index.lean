import ThoughtGate.Task.Capacity
import ThoughtGate.Task.Failures
import ThoughtGate.Lib.Index

/-!
# The principal index

`by_principal` is a secondary index of `tasks`: it lists the ids of a principal's tasks under its key. Taken as
one step each, the operations keep it exact. Cut at their map accesses, `create` stores the task before it lists
it, and `cleanup_terminal` removes a task before it takes it out of its list: in between the index is exact up to
the calls that stand there (`IndexedBut`).

What would break it is a cleanup that removes a task between the two insertions of its `create`, since the id
would be listed afterwards and stay. The locks exclude that: a task that has just become terminal is under the
guard of the call that closed it, and that call waits for the counter of the principal, which `create` holds
until it returns (`Guarded`).
-/

namespace ThoughtGate

open Index (Listing Exact listed)

namespace TaskStore

/-- The key under which a stored task belongs. -/
def owner (s : TaskStore) (id : TaskId) : Option String := (s.tasks.lookup id).map TaskEntry.key

/-- Every stored id is listed exactly once under its principal's key, every listed id is that of a task stored
under the key, and no list is empty. -/
structure Indexed (s : TaskStore) : Prop where
  once : ∀ id e, s.tasks.lookup id = some e → (listed s.byPrincipal e.key).count id = 1
  stored : ∀ k ids, s.byPrincipal.lookup k = some ids → ∀ id ∈ ids, ∃ e, s.tasks.lookup id = some e ∧ e.key = k
  noEmpty : ∀ k, s.byPrincipal.lookup k ≠ some []

theorem Indexed.of_exact {s : TaskStore} (h : Exact s.owner s.byPrincipal) : s.Indexed where
  once id e he := by
    have hmem : id ∈ listed s.byPrincipal e.key := by
      rw [h.mem]
      refine Or.inl ⟨?_, not_false⟩
      rw [owner, he]
      rfl
    exact List.count_eq_one_of_mem (h.nodup e.key) hmem
  stored k ids hids id hid := by
    have hmem : id ∈ listed s.byPrincipal k := by
      rw [listed, hids]
      exact hid
    rcases (h.mem k id).mp hmem with ⟨hown, -⟩ | hfalse
    · exact Option.map_eq_some_iff.mp hown
    · exact hfalse.elim
  noEmpty k hk := h.empty k hk

/-! ### The operations as updates of the table and of the index -/

theorem owner_insert (s : TaskStore) (id : TaskId) (e : TaskEntry) {s' : TaskStore}
    (h : s'.tasks = s.tasks.insert id e) : s'.owner = Function.update s.owner id (some e.key) := by
  funext j
  by_cases hj : j = id
  · subst hj
    rw [owner, h, AList.lookup_insert, Function.update_self]
    rfl
  · rw [owner, h, AList.lookup_insert_ne hj, Function.update_of_ne hj]
    rfl

theorem owner_erase (s : TaskStore) (id : TaskId) {s' : TaskStore} (h : s'.tasks = s.tasks.erase id) :
    s'.owner = Function.update s.owner id none := by
  funext j
  by_cases hj : j = id
  · subst hj
    rw [owner, h, AList.lookup_erase, Function.update_self]
    rfl
  · rw [owner, h, AList.lookup_erase_ne hj, Function.update_of_ne hj]
    rfl

/-- An entry rewritten under the same key belongs where it was. -/
theorem owner_rewrite {s s' : TaskStore} {id : TaskId} {e e' : TaskEntry} (he : s.tasks.lookup id = some e)
    (hkey : e'.key = e.key) (h : s'.tasks = s.tasks.insert id e') : s'.owner = s.owner := by
  rw [owner_insert s id e' h, Function.update_eq_self_iff, owner, he, hkey]
  rfl

theorem unindexTask_byPrincipal (s : TaskStore) (key : String) (id : TaskId) :
    (s.unindexTask key id).byPrincipal = Index.dropEmpty (Index.retain s.byPrincipal key id) key := by
  unfold unindexTask Index.retain
  cases hids : s.byPrincipal.lookup key with
  | none =>
    rw [Index.dropEmpty_of_ne (by rw [hids]; nofun)]
  | some ids =>
    dsimp only
    by_cases hempty : ids.filter (· ≠ id) = []
    · rw [if_pos (List.isEmpty_iff.mpr hempty), hempty, Index.dropEmpty_of_nil (AList.lookup_insert _)]
      apply AList.ext
      simp [AList.erase, AList.insert, List.kinsert]
    · rw [if_neg (mt List.isEmpty_iff.mp hempty), Index.dropEmpty_of_ne]
      rw [AList.lookup_insert]
      exact mt Option.some.inj hempty

@[simp] theorem decrementPendingCounters_byPrincipal (s : TaskStore) (task : Task) (n : Nat) :
    (s.decrementPendingCounters task n).byPrincipal = s.byPrincipal := by
  unfold decrementPendingCounters
  dsimp only
  split
  · rfl
  · split
    · unfold removePrincipalIfZero
      split <;> rfl
    · rfl

@[simp] theorem principalEntry_byPrincipal (s : TaskStore) (key : String) :
    (s.principalEntry key).byPrincipal = s.byPrincipal := by
  unfold principalEntry
  split <;> rfl

theorem admitted_byPrincipal (s : TaskStore) (id : TaskId) (task : Task) (n : Nat) :
    (s.admitted id task n).byPrincipal = Index.push s.byPrincipal task.principal.rateLimitKey id := by
  simp [admitted, indexTask, put, addPrincipal, Index.push, listed]

/-! ### Each operation as one step -/

/-- A new task is stored and listed. -/
theorem exact_accept {s s' : TaskStore} (h : Exact s.owner s.byPrincipal) {id : TaskId} {e : TaskEntry}
    (hnew : s.tasks.lookup id = none) (htasks : s'.tasks = s.tasks.insert id e)
    (hindex : s'.byPrincipal = Index.push s.byPrincipal e.key id) : Exact s'.owner s'.byPrincipal := by
  have hnone : s.owner id = none := by rw [owner, hnew]; rfl
  rw [owner_insert s id e htasks, hindex]
  have hpush := (h.store (k := e.key) hnone fun _ => not_false).push (i := id) (k := e.key)
    (Function.update_self id (some e.key) s.owner) (Or.inl rfl) fun _ => not_false
  refine hpush.congr ?_ (fun _ _ => Iff.rfl) fun _ hk => hk.1
  intro j _
  simp

/-- A task is removed and taken out of its list. -/
theorem exact_drop {s s' : TaskStore} (h : Exact s.owner s.byPrincipal) {id : TaskId} {e : TaskEntry}
    (he : s.tasks.lookup id = some e) (htasks : s'.tasks = s.tasks.erase id)
    (hindex : s'.byPrincipal = Index.dropEmpty (Index.retain s.byPrincipal e.key id) e.key) :
    Exact s'.owner s'.byPrincipal := by
  have hown : s.owner id = some e.key := by rw [owner, he]; rfl
  rw [owner_erase s id htasks, hindex]
  have hremove := h.remove hown not_false
  have hretain := hremove.retain (k := e.key) (Function.update_self id none s.owner)
  refine (hretain.dropEmpty e.key).congr (fun _ _ => Iff.rfl) ?_ ?_
  · intro j k
    simp
  · rintro k ⟨hfalse | ⟨hk, -⟩, hne⟩
    · exact hfalse
    · exact hne hk

theorem Indexed.effect {new : TaskId → Prop} {auto : ApprovalRecord → Prop} {s s' : TaskStore}
    (hs : Exact s.owner s.byPrincipal) (h : Effect new auto s s') : Exact s'.owner s'.byPrincipal := by
  cases h with
  | @touch id e t' he hstep hterm =>
    have hown : (s.put id { e with task := t' }).owner = s.owner := by
      refine owner_rewrite he ?_ rfl
      simp only [TaskEntry.key, hstep.sameOrigin.principal]
    rw [hown]
    exact hs
  | @finish now id e t' he hstep hlive hterm =>
    have hkey : (terminalEntry now { e with task := t' }).key = e.key := by
      simp only [TaskEntry.key, terminalEntry, hstep.sameOrigin.principal]
    have hown : (s.becomeTerminal now id { e with task := t' }).owner = s.owner := by
      refine owner_rewrite he hkey ?_
      simp [becomeTerminal, terminalEntry]
    rw [hown]
    have hindex : (s.becomeTerminal now id { e with task := t' }).byPrincipal = s.byPrincipal := by
      simp [becomeTerminal, put]
    rw [hindex]
    exact hs
  | accept _ hfresh => exact exact_accept hs hfresh (admitted_tasks ..) (admitted_byPrincipal ..)
  | @bounce key _ =>
    have hown : (s.bounced key).owner = s.owner := by
      funext j
      rw [owner, bounced_tasks]
      rfl
    rw [hown, bounced_byPrincipal]
    exact hs
  | @drop id e he _ =>
    have htasks : (s.cleanupOne id).tasks = s.tasks.erase id := by
      obtain ⟨index, hframe⟩ := cleanupOne_frame he
      rw [hframe]
    refine exact_drop hs he htasks ?_
    rw [cleanupOne, he]
    exact unindexTask_byPrincipal _ _ _

/-- The index of every store that the operations reach, each taken as one step. -/
theorem exact_of_reachable [F64.Fmt] [Sha256] {config : TaskStoreConfig} {s : TaskStore}
    (h : (storeMachine config).Reachable s) : Exact s.owner s.byPrincipal := by
  have hinit : Exact (TaskStore.new config).owner (TaskStore.new config).byPrincipal := Index.exact_empty
  exact (storeMachine_invariant (I := fun s => Exact s.owner s.byPrincipal) hinit
    (fun _ _ _ _ hs heff => Indexed.effect hs heff) h).2

theorem indexed_of_reachable [F64.Fmt] [Sha256] {config : TaskStoreConfig} {s : TaskStore}
    (h : (storeMachine config).Reachable s) : s.Indexed := .of_exact (exact_of_reachable h)

end TaskStore

/-! ### The operations cut at their map accesses -/

namespace Pc

/-- The task that a `create` has stored and not yet listed. -/
def indexing : Pc → Option TaskId
  | .createIndex c => some c.id
  | _ => none

/-- The task that a cleanup has removed and not yet taken out of its list. -/
def unindexing : Pc → Option (TaskId × String)
  | .cleanupIndex id key _ => some (id, key)
  | _ => none

/-- The list that a cleanup has found empty and not yet dropped. -/
def emptying : Pc → Option String
  | .cleanupDropIndex key _ => some key
  | _ => none

end Pc

open Program (Marked MarkedOnce settle)

/-- The task that a call has just made terminal, with the key of the counter that it has yet to get. -/
def Pc.closingFirst : Pc → Option (TaskId × String)
  | .entrySubCount u _ key _ | .entrySubBytes u _ key _ | .entryGetCounter u _ key => some (u.id, key)
  | _ => none

/-- The accesses that write to the task table. -/
def Pc.writesTasks : Pc → Bool
  | .createInsert .. | .cleanupRemove .. | .entryBody .. | .entryNotify .. => true
  | _ => false

/-- The index is exact up to the calls that stand between two accesses of an update. -/
structure IndexedBut (s : ThreadState TaskStore Pc) : Prop where
  listing : Listing s.shared.owner s.shared.byPrincipal (Marked Pc.indexing s.threads)
    (fun id k => Marked Pc.unindexing s.threads (id, k)) (Marked Pc.emptying s.threads)
  stored : ∀ t c, s.threads.lookup t = some (.createIndex c) → s.shared.owner c.id = some c.key
  removed : ∀ id k, Marked Pc.unindexing s.threads (id, k) → s.shared.owner id = none
  onceIndexing : MarkedOnce Pc.indexing s.threads
  onceUnindexing : MarkedOnce Pc.unindexing s.threads

/-- The accesses that no index update is made of. -/
def Pc.plain : Pc → Bool
  | .createInsert .. | .createIndex _ | .cleanupRemove .. | .cleanupIndex .. | .cleanupDropIndex .. => false
  | _ => true

section

variable [F64.Fmt] [Sha256] {σ : Sharding} {config : TaskStoreConfig}

theorem Pc.next_owner {s : TaskStore} {p : Pc} (hp : p.plain = true) : (p.next σ s).1.owner = s.owner := by
  have hmove := next_taskMove σ s p
  generalize hs : (p.next σ s).1 = s' at hmove
  have hrest : ∀ tasks, TaskMove s p tasks → s'.tasks = tasks → s'.owner = s.owner := by
    intro tasks htasks heq
    cases htasks with
    | same =>
      funext j
      rw [TaskStore.owner, heq]
      rfl
    | rewrite he horigin =>
      refine TaskStore.owner_rewrite he ?_ heq
      rw [TaskEntry.key, TaskEntry.key, horigin.principal]
    | insert => cases hp
    | remove => cases hp
  exact hrest _ hmove rfl

theorem Pc.next_byPrincipal {s : TaskStore} {p : Pc} (hp : p.plain = true) :
    (p.next σ s).1.byPrincipal = s.byPrincipal := by
  cases p with
  | createInsert | createIndex | cleanupRemove | cleanupIndex | cleanupDropIndex => cases hp
  | createEntry c => exact TaskStore.principalEntry_byPrincipal s c.key
  | entryRemove u rest key =>
    simp only [Pc.next, TaskStore.removePrincipalIfZero]
    split <;> rfl
  | _ =>
    simp only [Pc.next]
    repeat' split
    all_goals rfl

/-- Only the insertion of a `create` leads to a task stored and not yet listed, and so on. -/
theorem Pc.next_plain {s : TaskStore} {p : Pc} (hp : p.plain = true) :
    (p.next σ s).2.bind Pc.indexing = none ∧ (p.next σ s).2.bind Pc.unindexing = none ∧
      (p.next σ s).2.bind Pc.emptying = none := by
  cases hq : (p.next σ s).2 with
  | none => exact ⟨rfl, rfl, rfl⟩
  | some q =>
    cases next_goes hq with
    | insert | removed | emptied => cases hp
    | _ => exact ⟨rfl, rfl, rfl⟩

omit [F64.Fmt] [Sha256] in
theorem Pc.plain_marks {p : Pc} (hp : p.plain = true) :
    p.indexing = none ∧ p.unindexing = none ∧ p.emptying = none := by
  cases p with
  | createIndex | cleanupIndex | cleanupDropIndex => cases hp
  | _ => exact ⟨rfl, rfl, rfl⟩

omit [F64.Fmt] [Sha256] in
/-- A step that moves no task, to a program counter that stands inside no update: only the listing is left to
show. -/
theorem IndexedBut.of_listing {s : ThreadState TaskStore Pc} (hs : IndexedBut s) {t : Nat} {p' : Option Pc}
    {shared : TaskStore} (hown : shared.owner = s.shared.owner) (hi' : p'.bind Pc.indexing = none)
    (hu' : p'.bind Pc.unindexing = none)
    (hlisting : Listing s.shared.owner shared.byPrincipal (Marked Pc.indexing (settle s.threads t p'))
      (fun id k => Marked Pc.unindexing (settle s.threads t p') (id, k))
      (Marked Pc.emptying (settle s.threads t p'))) :
    IndexedBut ⟨shared, settle s.threads t p'⟩ := by
  refine ⟨?_, ?_, ?_, ?_, ?_⟩
  · rw [hown]
    exact hlisting
  · intro u c hc
    rw [hown]
    rcases Program.settle_cases hc with ⟨-, rfl⟩ | ⟨-, hold⟩
    · cases hi'
    · exact hs.stored u c hold
  · intro id k hk
    rw [hown]
    rcases Program.marked_settle.mp hk with hnew | ⟨u, q, -, hu, hq⟩
    · rw [hu'] at hnew
      cases hnew
    · exact hs.removed id k ⟨u, q, hu, hq⟩
  · refine Program.markedOnce_settle hs.onceIndexing fun a ha => ?_
    rw [hi'] at ha
    cases ha
  · refine Program.markedOnce_settle hs.onceUnindexing fun a ha => ?_
    rw [hu'] at ha
    cases ha

omit [F64.Fmt] [Sha256] in
theorem IndexedBut.spawn {s : ThreadState TaskStore Pc} (hs : IndexedBut s) {t : Nat} {p : Pc}
    (hnone : s.threads.lookup t = none) (hstart : p.start s.shared s.threads = true) :
    IndexedBut { s with threads := s.threads.insert t p } := by
  obtain ⟨hi, hu, he⟩ : p.indexing = none ∧ p.unindexing = none ∧ p.emptying = none := by
    cases p with
    | createIndex | cleanupIndex | cleanupDropIndex => cases hstart
    | _ => exact ⟨rfl, rfl, rfl⟩
  have hinsert : settle s.threads t (some p) = s.threads.insert t p := rfl
  rw [← hinsert]
  refine hs.of_listing rfl hi hu (hs.listing.congr (fun id _ => ?_) (fun id k => ?_) fun k hk => ?_)
  · exact Program.marked_insert hnone hi
  · exact Program.marked_insert hnone hu
  · exact (Program.marked_insert hnone he).mpr hk

omit [F64.Fmt] [Sha256] in
/-- A step outside the updates. -/
theorem IndexedBut.skip {s : ThreadState TaskStore Pc} (hs : IndexedBut s) {t : Nat} {p : Pc} {p' : Option Pc}
    {shared : TaskStore} (hp : s.threads.lookup t = some p)
    (hmarks : p.indexing = none ∧ p.unindexing = none ∧ p.emptying = none)
    (hmarks' : p'.bind Pc.indexing = none ∧ p'.bind Pc.unindexing = none ∧ p'.bind Pc.emptying = none)
    (hown : shared.owner = s.shared.owner) (hindex : shared.byPrincipal = s.shared.byPrincipal) :
    IndexedBut ⟨shared, settle s.threads t p'⟩ := by
  obtain ⟨hi, hu, he⟩ := hmarks
  obtain ⟨hi', hu', he'⟩ := hmarks'
  refine hs.of_listing hown hi' hu' ?_
  rw [hindex]
  refine hs.listing.congr (fun id _ => ?_) (fun id k => ?_) fun k hk => ?_
  · exact Program.marked_settle_same hp hi hi'
  · exact Program.marked_settle_same hp hu hu'
  · exact (Program.marked_settle_same hp he he').mpr hk

/-- `create` stores its task: it is missing from the index for now. -/
theorem IndexedBut.run_insert {s : ThreadState TaskStore Pc} (hsound : Sound config s) (hs : IndexedBut s) {t : Nat}
    {c : CreateArgs} {task : Task} (hp : s.threads.lookup t = some (.createInsert c task)) :
    IndexedBut ⟨(Pc.next σ s.shared (.createInsert c task)).1,
      settle s.threads t (Pc.next σ s.shared (.createInsert c task)).2⟩ := by
  obtain ⟨hnew, hunknown⟩ := hsound.fresh t _ c.id hp rfl
  obtain ⟨⟨-, hprincipal, -⟩, -⟩ := hsound.coherent t _ hp
  have hnone : s.shared.owner c.id = none := by rw [TaskStore.owner, hnew]; rfl
  have hkey : (newEntry task).key = c.key := by rw [TaskEntry.key, newEntry, hprincipal]; rfl
  have hown : (Pc.next σ s.shared (.createInsert c task)).1.owner =
      Function.update s.shared.owner c.id (some c.key) := by
    rw [← hkey]
    exact TaskStore.owner_insert s.shared c.id (newEntry task) rfl
  -- nobody else is at work on the id that this call has drawn
  have hstale : ∀ k, ¬ Marked Pc.unindexing s.threads (c.id, k) := by
    rintro k ⟨u, q, hu, hq⟩
    cases q with
    | cleanupIndex id key rest =>
      cases hq
      have hne : u ≠ t := by
        rintro rfl
        rw [hp] at hu
        cases hu
      exact hunknown u _ hne hu List.mem_cons_self
    | _ => cases hq
  have hmissing : ¬ Marked Pc.indexing s.threads c.id := by
    rintro ⟨u, q, hu, hq⟩
    cases q with
    | createIndex c' =>
      have heq : c'.id = c.id := Option.some.inj hq
      have hstored := hs.stored u c' hu
      rw [heq, hnone] at hstored
      cases hstored
    | _ => cases hq
  refine ⟨?_, ?_, ?_, ?_, ?_⟩
  · rw [hown]
    refine (hs.listing.store (k := c.key) hnone hstale).congr (fun id _ => ?_) (fun id k => ?_) fun k hk => ?_
    · exact Program.marked_settle_new hp rfl rfl
    · exact Program.marked_settle_same hp rfl rfl
    · exact (Program.marked_settle_same hp rfl rfl).mpr hk
  · intro u c' hc
    rw [hown]
    rcases Program.settle_cases hc with ⟨rfl, hpc⟩ | ⟨-, hold⟩
    · cases hpc
      exact Function.update_self _ _ _
    · have hne : c'.id ≠ c.id := by
        intro heq
        have hstored := hs.stored u c' hold
        rw [heq, hnone] at hstored
        cases hstored
      rw [Function.update_of_ne hne]
      exact hs.stored u c' hold
  · intro id k hk
    have hold := (Program.marked_settle_same hp rfl rfl).mp hk
    have hne : id ≠ c.id := by
      rintro rfl
      exact hstale k hold
    rw [hown, Function.update_of_ne hne]
    exact hs.removed id k hold
  · refine Program.markedOnce_settle hs.onceIndexing fun a ha => ?_
    cases ha
    exact hmissing
  · refine Program.markedOnce_settle hs.onceUnindexing fun a ha => ?_
    cases ha

/-- `create` lists its task. -/
theorem IndexedBut.run_index {s : ThreadState TaskStore Pc} (hs : IndexedBut s) {t : Nat} {c : CreateArgs}
    (hp : s.threads.lookup t = some (.createIndex c)) :
    IndexedBut ⟨(Pc.next σ s.shared (.createIndex c)).1,
      settle s.threads t (Pc.next σ s.shared (.createIndex c)).2⟩ := by
  have hstored := hs.stored t c hp
  have hstale : ∀ k, ¬ Marked Pc.unindexing s.threads (c.id, k) := by
    intro k hk
    rw [hs.removed c.id k hk] at hstored
    cases hstored
  have hpush := hs.listing.push hstored ⟨t, _, hp, rfl⟩ hstale
  refine hs.of_listing rfl rfl rfl (hpush.congr (fun id _ => ?_) (fun id k => ?_) fun k hk => ?_)
  · exact Program.marked_settle_gone hp hs.onceIndexing rfl rfl
  · exact Program.marked_settle_same hp rfl rfl
  · exact (Program.marked_settle_same hp rfl rfl).mpr hk.1

omit [F64.Fmt] [Sha256] in
/-- The next round of a cleanup carries no mark. -/
theorem Pc.cleanupLoop_marks (rest : List TaskId) :
    (Pc.cleanupLoop rest).bind Pc.indexing = none ∧ (Pc.cleanupLoop rest).bind Pc.unindexing = none ∧
      (Pc.cleanupLoop rest).bind Pc.emptying = none := by
  cases rest with
  | nil => exact ⟨rfl, rfl, rfl⟩
  | cons id rest => exact ⟨rfl, rfl, rfl⟩

/-- A cleanup removes a task that has been listed: its list still has it. -/
theorem IndexedBut.run_remove {s : ThreadState TaskStore Pc} (hs : IndexedBut s) {t : Nat} {id : TaskId}
    {rest : List TaskId} (hp : s.threads.lookup t = some (.cleanupRemove id rest))
    (hlisted : ¬ Marked Pc.indexing s.threads id) :
    IndexedBut ⟨(Pc.next σ s.shared (.cleanupRemove id rest)).1,
      settle s.threads t (Pc.next σ s.shared (.cleanupRemove id rest)).2⟩ := by
  cases he : s.shared.tasks.lookup id with
  | none =>
    simp only [Pc.next, he]
    exact hs.skip hp ⟨rfl, rfl, rfl⟩ (Pc.cleanupLoop_marks rest) rfl rfl
  | some e =>
    have hown : s.shared.owner id = some e.key := by rw [TaskStore.owner, he]; rfl
    have hown' : ({ s.shared with tasks := s.shared.tasks.erase id } : TaskStore).owner =
        Function.update s.shared.owner id none := TaskStore.owner_erase s.shared id rfl
    simp only [Pc.next, he]
    refine ⟨?_, ?_, ?_, ?_, ?_⟩
    · rw [hown']
      refine (hs.listing.remove hown hlisted).congr (fun j _ => ?_) (fun j k => ?_) fun k hk => ?_
      · exact Program.marked_settle_same hp rfl rfl
      · rw [Program.marked_settle_new hp rfl rfl]
        exact or_congr_left Prod.mk_inj
      · exact (Program.marked_settle_same hp rfl rfl).mpr hk
    · intro u c hc
      rcases Program.settle_cases hc with ⟨rfl, hpc⟩ | ⟨-, hold⟩
      · cases hpc
      · have hne : c.id ≠ id := by
          rintro rfl
          exact hlisted ⟨u, _, hold, rfl⟩
        rw [hown', Function.update_of_ne hne]
        exact hs.stored u c hold
    · intro j k hk
      rw [hown']
      rcases (Program.marked_settle_new hp rfl rfl).mp hk with hnew | hold
      · rw [(Prod.mk.inj hnew).1]
        exact Function.update_self _ _ _
      · by_cases hj : j = id
        · rw [hj]
          exact Function.update_self _ _ _
        · rw [Function.update_of_ne hj]
          exact hs.removed j k hold
    · refine Program.markedOnce_settle hs.onceIndexing fun a ha => ?_
      cases ha
    · refine Program.markedOnce_settle hs.onceUnindexing fun a ha hold => ?_
      cases ha
      rw [hs.removed _ _ hold] at hown
      cases hown

/-- A cleanup takes a removed task out of its list, and goes on to drop the list if that leaves it empty. -/
theorem Pc.next_cleanupIndex (s : TaskStore) (id : TaskId) (key : String) (rest : List TaskId) :
    (Pc.next σ s (.cleanupIndex id key rest)).1 = { s with byPrincipal := Index.retain s.byPrincipal key id } ∧
      (((Pc.next σ s (.cleanupIndex id key rest)).2 = some (.cleanupDropIndex key rest)) ∨
        ((Pc.next σ s (.cleanupIndex id key rest)).2 = Pc.cleanupLoop rest ∧
          (Index.retain s.byPrincipal key id).lookup key ≠ some [])) := by
  simp only [Pc.next, Index.retain]
  cases hids : s.byPrincipal.lookup key with
  | none =>
    refine ⟨rfl, Or.inr ⟨rfl, ?_⟩⟩
    intro h
    rw [hids] at h
    cases h
  | some ids =>
    dsimp only
    by_cases hempty : ids.filter (· ≠ id) = []
    · rw [if_pos (List.isEmpty_iff.mpr hempty)]
      exact ⟨rfl, Or.inl rfl⟩
    · rw [if_neg (mt List.isEmpty_iff.mp hempty)]
      refine ⟨rfl, Or.inr ⟨rfl, ?_⟩⟩
      rw [AList.lookup_insert]
      exact mt Option.some.inj hempty

theorem IndexedBut.run_unindex {s : ThreadState TaskStore Pc} (hs : IndexedBut s) {t : Nat} {id : TaskId}
    {key : String} {rest : List TaskId} (hp : s.threads.lookup t = some (.cleanupIndex id key rest)) :
    IndexedBut ⟨(Pc.next σ s.shared (.cleanupIndex id key rest)).1,
      settle s.threads t (Pc.next σ s.shared (.cleanupIndex id key rest)).2⟩ := by
  obtain ⟨hshared, hgoes⟩ := Pc.next_cleanupIndex (σ := σ) s.shared id key rest
  generalize hp' : (Pc.next σ s.shared (.cleanupIndex id key rest)).2 = p' at hgoes
  rw [hshared]
  have hmarks : p'.bind Pc.indexing = none ∧ p'.bind Pc.unindexing = none ∧
      ((Index.retain s.shared.byPrincipal key id).lookup key = some [] → p'.bind Pc.emptying = some key) := by
    rcases hgoes with rfl | ⟨rfl, hne⟩
    · exact ⟨rfl, rfl, fun _ => rfl⟩
    · obtain ⟨hi', hu', -⟩ := Pc.cleanupLoop_marks rest
      exact ⟨hi', hu', fun h => absurd h hne⟩
  obtain ⟨hi', hu', he'⟩ := hmarks
  have hgone := hs.removed id key ⟨t, _, hp, rfl⟩
  refine hs.of_listing rfl hi' hu'
    ((hs.listing.retain (k := key) hgone).congr (fun j _ => ?_) (fun j k => ?_) fun k hk => ?_)
  · exact Program.marked_settle_same hp rfl hi'
  · rw [Program.marked_settle_gone hp hs.onceUnindexing rfl hu', ne_eq, Prod.mk_inj]
  · rw [Program.marked_settle]
    rcases hk with ⟨u, q, hu, hq⟩ | ⟨rfl, hempty⟩
    · have hne : u ≠ t := by
        rintro rfl
        rw [hp] at hu
        cases hu
        cases hq
      exact Or.inr ⟨u, q, hne, hu, hq⟩
    · exact Or.inl (he' hempty)

/-- A cleanup drops a list that is still empty. -/
theorem Pc.next_cleanupDropIndex (s : TaskStore) (key : String) (rest : List TaskId) :
    Pc.next σ s (.cleanupDropIndex key rest) =
      ({ s with byPrincipal := Index.dropEmpty s.byPrincipal key }, Pc.cleanupLoop rest) := by
  simp only [Pc.next]
  by_cases hempty : s.byPrincipal.lookup key = some []
  · rw [if_pos hempty, Index.dropEmpty_of_nil hempty]
  · rw [if_neg hempty, Index.dropEmpty_of_ne hempty]

theorem IndexedBut.run_dropIndex {s : ThreadState TaskStore Pc} (hs : IndexedBut s) {t : Nat} {key : String}
    {rest : List TaskId} (hp : s.threads.lookup t = some (.cleanupDropIndex key rest)) :
    IndexedBut ⟨(Pc.next σ s.shared (.cleanupDropIndex key rest)).1,
      settle s.threads t (Pc.next σ s.shared (.cleanupDropIndex key rest)).2⟩ := by
  rw [Pc.next_cleanupDropIndex]
  obtain ⟨hi', hu', -⟩ := Pc.cleanupLoop_marks rest
  refine hs.of_listing rfl hi' hu'
    ((hs.listing.dropEmpty key).congr (fun j _ => ?_) (fun j k => ?_) fun k hk => ?_)
  · exact Program.marked_settle_same hp rfl hi'
  · exact Program.marked_settle_same hp rfl hu'
  · obtain ⟨⟨u, q, hu, hq⟩, hne⟩ := hk
    rw [Program.marked_settle]
    refine Or.inr ⟨u, q, ?_, hu, hq⟩
    rintro rfl
    rw [hp] at hu
    cases hu
    cases hq
    exact hne rfl

/-! ### No task is removed before it is listed -/

omit [F64.Fmt] [Sha256] in
/-- The call that has made a task terminal holds the write guard of its shard. -/
theorem Pc.held_of_closingFirst {q : Pc} {id : TaskId} {key : String} (h : q.closingFirst = some (id, key)) :
    (Lock.tasks (σ.tasks id), WaitGraph.Mode.write) ∈ q.held σ := by
  cases q with
  | entrySubCount | entrySubBytes | entryGetCounter =>
    cases h
    exact List.mem_singleton_self _
  | _ => cases h

theorem Pc.next_tasks {s : TaskStore} {p : Pc} (hp : p.writesTasks = false) : (p.next σ s).1.tasks = s.tasks := by
  cases p with
  | createInsert | cleanupRemove | entryBody | entryNotify => cases hp
  | createEntry c => exact TaskStore.principalEntry_tasks s c.key
  | entryRemove u rest key => exact TaskStore.removePrincipalIfZero_tasks s key
  | _ =>
    simp only [Pc.next]
    repeat' split
    all_goals rfl

/-- A task that is terminal after a step was so before, or the step has closed it and holds its guard. -/
theorem next_terminal {s : TaskStore} {p : Pc} (hp : p.Coherent config) {id : TaskId} {e' : TaskEntry}
    (he' : (p.next σ s).1.tasks.lookup id = some e') (hterm : e'.task.status.isTerminal = true) :
    (∃ e, s.tasks.lookup id = some e ∧ e.task.status.isTerminal = true) ∨
      ∃ e, s.tasks.lookup id = some e ∧ (p.next σ s).2.bind Pc.closingFirst = some (id, e.key) := by
  -- an entry that keeps being terminal or not, whatever else is written to it
  have hkeep : ∀ (id₀ : TaskId) (e₀ e₁ : TaskEntry), s.tasks.lookup id₀ = some e₀ →
      e₁.task.status.isTerminal = e₀.task.status.isTerminal → (s.tasks.insert id₀ e₁).lookup id = some e' →
      ∃ e, s.tasks.lookup id = some e ∧ e.task.status.isTerminal = true := by
    intro id₀ e₀ e₁ he₀ hsame hlook
    by_cases hid : id = id₀
    · subst hid
      rw [AList.lookup_insert] at hlook
      cases hlook
      exact ⟨e₀, he₀, hsame.symm.trans hterm⟩
    · rw [AList.lookup_insert_ne hid] at hlook
      exact ⟨e', hlook, hterm⟩
  cases p with
  | createInsert c task =>
    by_cases hid : id = c.id
    · subst hid
      obtain ⟨⟨-, -, hworking⟩, -⟩ := hp
      simp only [Pc.next, TaskStore.put, AList.lookup_insert] at he'
      cases he'
      rw [hworking] at hterm
      cases hterm
    · simp only [Pc.next, TaskStore.put, AList.lookup_insert_ne hid] at he'
      exact Or.inl ⟨e', he', hterm⟩
  | cleanupRemove id₀ rest =>
    simp only [Pc.next] at he'
    split at he'
    · exact Or.inl ⟨e', he', hterm⟩
    · by_cases hid : id = id₀
      · rw [hid, AList.lookup_erase] at he'
        cases he'
      · rw [AList.lookup_erase_ne hid] at he'
        exact Or.inl ⟨e', he', hterm⟩
  | entryNotify u rest =>
    simp only [Pc.next] at he'
    split at he'
    · exact Or.inl ⟨e', he', hterm⟩
    · rename_i e he
      exact Or.inl (hkeep u.id e { e with notifications := e.notifications + 1 } he rfl he')
  | entryBody u rest =>
    rcases entryBody_cases σ s u rest with ⟨hnext, -⟩ | ⟨e, task, he, hstep, -, -, hnext, -⟩ |
      ⟨e, task, he, -, hsame, hnext, -⟩
    · rw [hnext] at he'
      exact Or.inl ⟨e', he', hterm⟩
    · rw [hnext] at he' ⊢
      by_cases hid : id = u.id
      · subst hid
        refine Or.inr ⟨e, he, ?_⟩
        rw [TaskEntry.key, ← hstep.sameOrigin.principal]
        rfl
      · rw [TaskStore.put, AList.lookup_insert_ne hid] at he'
        exact Or.inl ⟨e', he', hterm⟩
    · rw [hnext] at he'
      exact Or.inl (hkeep u.id e { e with task } he hsame he')
  | _ =>
    rw [Pc.next_tasks rfl] at he'
    exact Or.inl ⟨e', he', hterm⟩

/-- A task that is terminal and not yet listed is under the guard of the call that closed it: that call waits for
the counter of its principal, which the `create` holds until it returns. -/
def Guarded (s : ThreadState TaskStore Pc) : Prop :=
  ∀ t c e, s.threads.lookup t = some (.createIndex c) → s.shared.tasks.lookup c.id = some e →
    e.task.status.isTerminal = true → Marked Pc.closingFirst s.threads (c.id, c.key)

/-- A call that has closed a task goes on to the counter of the principal, and stays before it while a `create`
under the key is running. -/
theorem Pc.next_closingFirst {s : ThreadState TaskStore Pc} {t u : Nat} {p : Pc} {id : TaskId} {c : CreateArgs}
    (hne : u ≠ t) (hc : s.threads.lookup u = some (.createIndex c)) (hp : p.closingFirst = some (id, c.key))
    (hready : (threadProgram σ config).ready s.threads t p = true) :
    (p.next σ s.shared).2.bind Pc.closingFirst = some (id, c.key) := by
  cases p with
  | entrySubCount v rest key bytes => exact hp
  | entrySubBytes v rest key bytes => exact hp
  | entryGetCounter v rest key =>
    cases hp
    have hheld : (Lock.principals (σ.principals c.key), WaitGraph.Mode.write) ∈
        (threadProgram σ config).held (.createIndex c) := List.mem_singleton_self _
    have hfree := Program.not_conflicts_of_ready hready rfl hne hc hheld
    cases hfree
  | _ => cases hp

theorem Guarded.run {s : ThreadState TaskStore Pc} (hsound : Sound config s) (hs : IndexedBut s) (hg : Guarded s)
    {t : Nat} {p : Pc} (hp : s.threads.lookup t = some p)
    (hready : (threadProgram σ config).ready s.threads t p = true) :
    Guarded ⟨(p.next σ s.shared).1, settle s.threads t (p.next σ s.shared).2⟩ := by
  intro u c e' hc he' hterm
  rw [Program.marked_settle]
  rcases Program.settle_cases hc with ⟨rfl, hpc⟩ | ⟨hne, hold⟩
  · -- the task has just been inserted, and is not terminal
    cases next_goes hpc with
    | @insert _ task =>
      obtain ⟨⟨-, -, hworking⟩, -⟩ := hsound.coherent u _ hp
      simp only [Pc.next, TaskStore.put, AList.lookup_insert] at he'
      cases he'
      rw [hworking] at hterm
      cases hterm
  · rcases next_terminal (hsound.coherent t p hp) he' hterm with ⟨e, he, hbefore⟩ | ⟨e, he, hclosed⟩
    · obtain ⟨v, q, hv, hq⟩ := hg u c e hold he hbefore
      by_cases hvt : v = t
      · subst hvt
        rw [hp] at hv
        cases hv
        exact Or.inl (Pc.next_closingFirst hne hold hq hready)
      · exact Or.inr ⟨v, q, hvt, hv, hq⟩
    · have hstored := hs.stored u c hold
      rw [TaskStore.owner, he] at hstored
      rw [Option.some.inj hstored] at hclosed
      exact Or.inl hclosed

/-- A cleanup that gets the shard of a task finds it listed. -/
theorem Guarded.listed {s : ThreadState TaskStore Pc} (hsound : Sound config s) (hs : IndexedBut s)
    (hg : Guarded s) {t : Nat} {id : TaskId} {rest : List TaskId}
    (hp : s.threads.lookup t = some (.cleanupRemove id rest))
    (hready : (threadProgram σ config).ready s.threads t (.cleanupRemove id rest) = true) :
    ¬ Marked Pc.indexing s.threads id := by
  rintro ⟨u, q, hu, hq⟩
  cases q with
  | createIndex c =>
    have hid : c.id = id := Option.some.inj hq
    subst hid
    have hstored := hs.stored u c hu
    obtain ⟨e, he, -⟩ := Option.map_eq_some_iff.mp hstored
    have hterm := hsound.doomed t _ hp c.id List.mem_cons_self e he
    obtain ⟨v, r, hv, hr⟩ := hg u c e hu he hterm
    have hne : v ≠ t := by
      rintro rfl
      rw [hp] at hv
      cases hv
      cases hr
    have hheld : (Lock.tasks (σ.tasks c.id), WaitGraph.Mode.write) ∈ (threadProgram σ config).held r :=
      Pc.held_of_closingFirst hr
    have hfree := Program.not_conflicts_of_ready hready rfl hne hv hheld
    cases hfree
  | _ => cases hq

theorem reachable_indexedBut {s : ThreadState TaskStore Pc} (h : (threadMachine σ config).Reachable s) :
    IndexedBut s ∧ Guarded s := by
  have hinit : IndexedBut ⟨.new config, ∅⟩ := by
    refine ⟨?_, ?_, ?_, ?_, ?_⟩
    · refine Listing.congr Index.exact_empty (fun _ hown => by cases hown) (fun id k => ?_) fun _ hk => hk.elim
      refine ⟨?_, False.elim⟩
      rintro ⟨u, q, hu, -⟩
      cases hu
    · intro t c hc
      cases hc
    · rintro id k ⟨t, p, hp, -⟩
      cases hp
    · intro t u p q a hp
      cases hp
    · intro t u p q a hp
      cases hp
  refine Machine.ReachableWhen.invariant (I := fun s => IndexedBut s ∧ Guarded s)
    ⟨hinit, fun t c e hc => by cases hc⟩ ?_ h
  intro s a s' hreach hI _ ha
  obtain ⟨hs, hg⟩ := hI
  have hsound := reachable_sound hreach
  rcases Program.step_cases ha with ⟨t, p, rfl, hnone, hstart, rfl⟩ |
    ⟨t, i, p, shared, p', rfl, hp, hready, hnext, rfl⟩
  · refine ⟨hs.spawn hnone hstart, fun u c e hc he hterm => ?_⟩
    have hinsert : s.threads.insert t p = settle s.threads t (some p) := rfl
    rw [hinsert] at hc ⊢
    rcases Program.settle_cases hc with ⟨-, hpc⟩ | ⟨-, hold⟩
    · cases hpc
      cases hstart
    · obtain ⟨v, q, hv, hq⟩ := hg u c e hold he hterm
      rw [Program.marked_settle]
      refine Or.inr ⟨v, q, ?_, hv, hq⟩
      rintro rfl
      rw [hnone] at hv
      cases hv
  · obtain ⟨rfl, rfl⟩ := threadProgram_next hnext
    refine ⟨?_, hg.run hsound hs hp hready⟩
    by_cases hplain : p.plain = true
    · exact hs.skip hp (Pc.plain_marks hplain) (Pc.next_plain hplain) (Pc.next_owner hplain)
        (Pc.next_byPrincipal hplain)
    · cases p with
      | createInsert c task => exact hs.run_insert hsound hp
      | createIndex c => exact hs.run_index hp
      | cleanupRemove id rest => exact hs.run_remove hp (hg.listed hsound hs hp hready)
      | cleanupIndex id key rest => exact hs.run_unindex hp
      | cleanupDropIndex key rest => exact hs.run_dropIndex hp
      | _ => exact absurd rfl hplain

/-- With every call one step the index is exact in every reachable store. With the calls cut at their map
accesses it is exact in every reachable state in which none is running. -/
theorem principal_index_exact :
    (∀ s, (storeMachine config).Reachable s → s.Indexed) ∧
      ∀ s, (threadMachine σ config).Reachable s → s.threads = ∅ → s.shared.Indexed := by
  refine ⟨fun s h => TaskStore.indexed_of_reachable h, fun s h hrest => ?_⟩
  obtain ⟨hbut, -⟩ := reachable_indexedBut h
  have hnone : ∀ {α : Type} (f : Pc → Option α) (a : α), ¬ Marked f s.threads a := by
    rintro α f a ⟨t, p, hp, -⟩
    rw [hrest] at hp
    cases hp
  refine TaskStore.Indexed.of_exact (hbut.listing.congr (fun id _ => ?_) (fun id k => ?_) fun k hk => ?_)
  · exact ⟨False.elim, hnone _ _⟩
  · exact ⟨False.elim, hnone _ _⟩
  · exact hnone _ _ hk

end

/-! ### A cleanup between two creations -/

section

attribute [local instance] Sample.f64Fmt Sample.sha256

/-- Terminal tasks are removed after one nanosecond. -/
def Sample.graceConfig : TaskStoreConfig := { terminalGracePeriod := 1 }

/-- A stored task is failed and goes; a second creation under the same principal lists its task between the
`retain` that empties the list and the `remove_if` of the cleanup. -/
def Sample.cleanupRace : List (ThreadAct Pc Unit) :=
  [ThreadAct.spawn 0 (Pc.createLoad (createArgs "tg_1" "app"))] ++ List.replicate 9 (ThreadAct.run 0 ()) ++
    [ThreadAct.spawn 1 (Pc.entryGet (.fail 1 "tg_1" ⟨.upstreamError, "connection refused", true⟩) [])] ++
    List.replicate 8 (ThreadAct.run 1 ()) ++
    [ThreadAct.spawn 2 (Pc.scanShard (.cleanupTerminal 9) 0 []), .spawn 3 (.createLoad (createArgs "tg_2" "app"))] ++
    List.replicate 4 (ThreadAct.run 2 ()) ++ List.replicate 9 (ThreadAct.run 3 ()) ++ [ThreadAct.run 2 ()]

def Sample.cleanupRun : (threadMachine Sample.sharding Sample.graceConfig).RunTo (fun _ _ => true)
    fun s => decide (s.threads.keys = [] ∧ s.shared.tasks.keys = ["tg_2"] ∧
      ∀ e ∈ s.shared.byPrincipal.entries, e.2.length < 2 ^ 64) where
  actions := Sample.cleanupRace
  passes := by decide +kernel

theorem principal_index_exact_sample :
    ∃ s, (threadMachine Sample.sharding Sample.graceConfig).Reachable s ∧ s.threads = ∅ ∧
      s.shared.tasks.keys = ["tg_2"] ∧ s.shared.Indexed := by
  obtain ⟨s, hreach, hend⟩ := Sample.cleanupRun.exists_reachable
  obtain ⟨hkeys, htasks, -⟩ := of_decide_eq_true hend
  have hdone : s.threads = ∅ := AList.ext (List.map_eq_nil_iff.mp hkeys)
  exact ⟨s, hreach, hdone, htasks, principal_index_exact.2 s hreach hdone⟩

end

end ThoughtGate
