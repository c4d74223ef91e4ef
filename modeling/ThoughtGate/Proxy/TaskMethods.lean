import ThoughtGate.Base.Error
import ThoughtGate.Base.Text
import ThoughtGate.Task.Index

/-!
# Whose tasks a caller sees

`tasks/list` goes through the index: it shows the tasks filed under the caller's `rateLimitKey`. The other task
methods first compare the caller with the principal of the task (`verify_task_principal`). The key leaves three fields
of a principal out and writes the other three with colons between them and none around them, so that it takes
different principals for one. What it tells apart is stated without it, by the colon-separated `segments` of these
three fields.

The caller's identity (`infer_principal`: environment variables and mounted files) is an argument, `none` where it
cannot be established.
-/

namespace ThoughtGate

/-! ### `tasks/list` -/

/-- `Sep1686Status`. -/
inductive Sep1686Status where
  | working
  | inputRequired
  | completed
  | failed
  | cancelled
deriving DecidableEq

/-- `impl From<TaskStatus> for Sep1686Status`. -/
def Sep1686Status.ofStatus : TaskStatus → Sep1686Status
  | .working | .executing => .working
  | .inputRequired => .inputRequired
  | .completed => .completed
  | .failed | .rejected | .expired => .failed
  | .cancelled => .cancelled

/-- `Sep1686TaskListEntry`. -/
structure Sep1686TaskListEntry where
  taskId : TaskId
  status : Sep1686Status
  createdAt : DateTime
  toolName : String
deriving DecidableEq

/-- `TasksListResponse`. -/
structure TasksListResponse where
  tasks : List Sep1686TaskListEntry
  nextCursor : Option String
deriving DecidableEq

/-- `PAGE_SIZE`. -/
def pageSize : Nat := 20

/-- `TaskHandler::handle_tasks_list`; a cursor that is no number is the first page. -/
def handleTasksList (s : TaskStore) (cursor : Option String) (principal : Principal) : TasksListResponse :=
  let offset := (cursor.bind Text.parseUsize).getD 0
  let tasks := s.listForPrincipal principal offset (pageSize + 1)
  let hasMore := pageSize < tasks.length
  let entries := (tasks.take pageSize).map fun task =>
    { taskId := task.id, status := .ofStatus task.status, createdAt := task.createdAt
      toolName := task.originalRequest.name : Sep1686TaskListEntry }
  { tasks := entries, nextCursor := if hasMore then some (toString (offset + pageSize)) else none }

/-! ### The caller and the task -/

/-- `task_error_to_thoughtgate`. -/
def taskErrorToThoughtgate : TaskError → ThoughtGateError
  | .notFound id => .taskNotFound id
  | .alreadyTerminal id status =>
    .invalidParams ("Cannot cancel task " ++ id ++ ": already in terminal status '" ++ status.display ++ "'")
  | .invalidTransition id source target =>
    .invalidRequest ("Invalid task transition for " ++ id ++ ": " ++ source.display ++ " -> " ++ target.display)
  | .concurrentModification id expected actual =>
    .invalidRequest ("Concurrent modification of task " ++ id ++ ": expected " ++ expected.display ++ ", found " ++
      actual.display)
  | .rateLimited _ retryAfter => .rateLimited (some (Duration.asSecs retryAfter))
  | .resultNotReady id => .taskResultNotReady id
  | .capacityExceeded => .serviceUnavailable "Task capacity exceeded"
  | .internal details => .serviceUnavailable ("Internal task error: " ++ details)

/-- `Principal::from_policy`. -/
def Principal.fromPolicy (appName nameSpace serviceAccount : String) (roles : List String) : Principal where
  appName := appName
  nameSpace := nameSpace
  serviceAccount := serviceAccount
  roles := roles

/-- `verify_task_principal`: what `tasks/get`, `tasks/result` and `tasks/cancel` ask first. A stranger hears that
the task does not exist, and so does a caller whose identity is unknown. -/
def verifyTaskPrincipal (s : TaskStore) (caller : Option Principal) (id : TaskId) : Except ThoughtGateError Unit :=
  match caller with
  | none => .error (.taskNotFound id)
  | some caller =>
    match s.get id with
    | .error e => .error (taskErrorToThoughtgate e)
    | .ok task => if task.principal ≠ caller then .error (.taskNotFound id) else .ok ()

/-- Whoever does not pass is told the same as about a task that does not exist. -/
theorem verifyTaskPrincipal_error {s : TaskStore} {caller : Option Principal} {id : TaskId} {e : ThoughtGateError}
    (h : verifyTaskPrincipal s caller id = .error e) : e = .taskNotFound id := by
  unfold verifyTaskPrincipal TaskStore.get at h
  cases caller with
  | none =>
    cases h
    rfl
  | some caller =>
    cases hid : s.tasks.lookup id with
    | none =>
      rw [hid] at h
      cases h
      rfl
    | some entry =>
      simp only [hid] at h
      split at h
      · cases h
        rfl
      · cases h

theorem verifyTaskPrincipal_ok_iff {s : TaskStore} {p : Principal} {id : TaskId} {e : TaskEntry}
    (he : s.tasks.lookup id = some e) :
    verifyTaskPrincipal s (some p) id = .ok () ↔ p = e.task.principal := by
  simp only [verifyTaskPrincipal, TaskStore.get, he]
  by_cases h : e.task.principal = p
  · rw [if_neg (not_not.mpr h)]
    exact iff_of_true rfl h.symm
  · rw [if_pos h]
    refine iff_of_false (fun hok => ?_) (fun heq => h heq.symm)
    cases hok

/-! ### What the key tells apart -/

/-- The fields that the key is made of, an absent user before a session being empty. -/
def Principal.keyParts (p : Principal) : List String :=
  match p.userId, p.sessionId with
  | some user, some session => [p.appName, user, session]
  | some user, none => [p.appName, user]
  | none, some session => [p.appName, "", session]
  | none, none => [p.appName]

/-- `app_name`, `user_id` and `session_id`, each cut at its colons. -/
def Principal.segments (p : Principal) : List (List Char) :=
  p.keyParts.flatMap fun part => part.toList.splitOn ':'

/-- `p` and `q` are one principal, or the three fields read segment by segment are not the same. -/
def Principal.ToldApart (p q : Principal) : Prop := p = q ∨ p.segments ≠ q.segments

instance (p q : Principal) : Decidable (p.ToldApart q) := inferInstanceAs (Decidable (_ ∨ _))

/-- Cutting the key at its colons gives the segments back. -/
theorem Principal.splitOn_rateLimitKey (p : Principal) : p.rateLimitKey.toList.splitOn ':' = p.segments := by
  obtain ⟨app, user, session, ns, sa, roles⟩ := p
  have hcut : ∀ a b : List Char, (a ++ ':' :: b).splitOn ':' = a.splitOn ':' ++ b.splitOn ':' :=
    fun a b => List.splitOn_append_cons_self a b
  cases user with
  | some user =>
    cases session with
    | some session =>
      have hkey : (app ++ ":" ++ user ++ ":" ++ session).toList =
          app.toList ++ ':' :: (user.toList ++ ':' :: session.toList) := by
        simp
      simp only [rateLimitKey, segments, keyParts, hkey, hcut, List.flatMap_cons, List.flatMap_nil, List.append_nil]
    | none =>
      have hkey : (app ++ ":" ++ user).toList = app.toList ++ ':' :: user.toList := by simp
      simp only [rateLimitKey, segments, keyParts, hkey, hcut, List.flatMap_cons, List.flatMap_nil, List.append_nil]
  | none =>
    cases session with
    | some session =>
      have hkey : (app ++ "::" ++ session).toList = app.toList ++ ':' :: ("".toList ++ ':' :: session.toList) := by
        simp
      simp only [rateLimitKey, segments, keyParts, hkey, hcut, List.flatMap_cons, List.flatMap_nil, List.append_nil]
    | none => simp only [rateLimitKey, segments, keyParts, List.flatMap_cons, List.flatMap_nil, List.append_nil]

theorem Principal.rateLimitKey_eq_iff (p q : Principal) :
    p.rateLimitKey = q.rateLimitKey ↔ p.segments = q.segments := by
  rw [← splitOn_rateLimitKey, ← splitOn_rateLimitKey]
  constructor
  · intro h
    rw [h]
  · intro h
    have hkeys := congrArg (List.intercalate [':']) h
    rw [List.intercalate_splitOn, List.intercalate_splitOn] at hkeys
    exact String.toList_inj.mp hkeys

/-- The key never identifies two principals exactly where they are told apart. -/
theorem Principal.toldApart_iff (p q : Principal) : p.ToldApart q ↔ (p.rateLimitKey = q.rateLimitKey → p = q) := by
  rw [rateLimitKey_eq_iff, ToldApart, or_comm]
  exact ⟨fun h hseg => h.resolve_left (not_not.mpr hseg), fun h => or_iff_not_imp_left.mpr fun hseg => h (not_not.mp hseg)⟩

/-- An application's name may spell another one's user. -/
example : (Principal.fromPolicy "shop:eve" "prod" "agent" []).rateLimitKey =
    { appName := "shop", userId := some "eve" : Principal }.rateLimitKey := by
  decide

/-! ### What a caller is shown -/

namespace TaskStore

/-- The ids are a `Vec` for each key, and the length of a `Vec` is a `usize`. -/
def Fits (s : TaskStore) : Prop := ∀ e ∈ s.byPrincipal.entries, e.2.length < 2 ^ 64

/-- Some `tasks/list` request of `p` returns the task. -/
def ListedFor (s : TaskStore) (p : Principal) (id : TaskId) : Prop :=
  ∃ cursor, id ∈ (handleTasksList s cursor p).tasks.map Sep1686TaskListEntry.taskId

/-- The tasks under the key of `p`, newest first. -/
def tasksOf (s : TaskStore) (p : Principal) : List Task :=
  ((Index.listed s.byPrincipal p.rateLimitKey).filterMap fun id => (s.tasks.lookup id).map TaskEntry.task).insertionSort
    fun a b => b.createdAt ≤ a.createdAt

theorem listForPrincipal_eq (s : TaskStore) (p : Principal) (offset limit : Nat) :
    s.listForPrincipal p offset limit = ((s.tasksOf p).drop offset).take limit := by
  unfold listForPrincipal tasksOf Index.listed
  cases s.byPrincipal.lookup p.rateLimitKey with
  | none => simp
  | some ids => rfl

/-- A page shows the tasks from its offset on. -/
theorem handleTasksList_ids (s : TaskStore) (cursor : Option String) (p : Principal) :
    (handleTasksList s cursor p).tasks.map Sep1686TaskListEntry.taskId =
      (((s.tasksOf p).drop ((cursor.bind Text.parseUsize).getD 0)).take pageSize).map Task.id := by
  simp only [handleTasksList, listForPrincipal_eq, List.map_map, List.take_take]
  rfl

theorem mem_tasksOf (s : TaskStore) (p : Principal) (task : Task) :
    task ∈ s.tasksOf p ↔
      ∃ id ∈ Index.listed s.byPrincipal p.rateLimitKey, ∃ e, s.tasks.lookup id = some e ∧ e.task = task := by
  rw [tasksOf, List.mem_insertionSort, List.mem_filterMap]
  simp only [Option.map_eq_some_iff]

theorem length_tasksOf (s : TaskStore) (p : Principal) :
    (s.tasksOf p).length ≤ (Index.listed s.byPrincipal p.rateLimitKey).length := by
  rw [tasksOf, List.length_insertionSort]
  exact List.length_filterMap_le _ _

/-- Following the pages of a list shorter than `2^64` reaches each of its tasks. -/
theorem listedFor_iff {s : TaskStore} {p : Principal} (hfits : (s.tasksOf p).length < 2 ^ 64) (id : TaskId) :
    s.ListedFor p id ↔ ∃ task ∈ s.tasksOf p, task.id = id := by
  unfold ListedFor
  simp only [handleTasksList_ids, List.mem_map]
  constructor
  · rintro ⟨cursor, task, htask, hid⟩
    exact ⟨task, List.mem_of_mem_drop (List.mem_of_mem_take htask), hid⟩
  · rintro ⟨task, htask, hid⟩
    obtain ⟨i, hi, hget⟩ := List.mem_iff_getElem.mp htask
    -- the page that starts at the multiple of twenty below `i`
    refine ⟨some (toString (pageSize * (i / pageSize))), task, ?_, hid⟩
    have hoffset : pageSize * (i / pageSize) ≤ i := Nat.mul_div_le i pageSize
    have hrest : i - pageSize * (i / pageSize) < pageSize := by
      have hdiv := Nat.div_add_mod i pageSize
      have hmod : i % pageSize < pageSize := Nat.mod_lt i (by decide)
      omega
    rw [Option.bind_some, Text.parseUsize_toString (by omega), Option.getD_some, List.mem_iff_getElem]
    refine ⟨i - pageSize * (i / pageSize), ?_, ?_⟩
    · rw [List.length_take, List.length_drop]
      omega
    · rw [List.getElem_take, List.getElem_drop, ← hget]
      congr 1
      omega

theorem Fits.length_tasksOf {s : TaskStore} (hfits : s.Fits) (p : Principal) : (s.tasksOf p).length < 2 ^ 64 := by
  have hle := s.length_tasksOf p
  unfold Index.listed at hle
  cases hids : s.byPrincipal.lookup p.rateLimitKey with
  | none =>
    rw [hids] at hle
    exact hle.trans_lt (by decide)
  | some ids =>
    rw [hids] at hle
    exact hle.trans_lt (hfits ⟨p.rateLimitKey, ids⟩ (Table.mem_entries_iff.mpr hids))

/-- A stored task is shown to whoever has its principal's key. -/
theorem listedFor_iff_key {s : TaskStore} (hix : s.Indexed) (hkeyed : WellKeyed s) (hfits : s.Fits) {p : Principal}
    {id : TaskId} {e : TaskEntry} (he : s.tasks.lookup id = some e) :
    s.ListedFor p id ↔ p.rateLimitKey = e.task.principal.rateLimitKey := by
  rw [listedFor_iff (hfits.length_tasksOf p)]
  constructor
  · rintro ⟨task, htask, hid⟩
    obtain ⟨j, hj, e', he', htask'⟩ := (s.mem_tasksOf p task).mp htask
    have hjid : j = id := by
      rw [← hid, ← htask']
      exact (hkeyed j e' he').1.symm
    subst hjid
    unfold Index.listed at hj
    cases hids : s.byPrincipal.lookup p.rateLimitKey with
    | none =>
      rw [hids] at hj
      cases hj
    | some ids =>
      rw [hids] at hj
      obtain ⟨e'', he'', hkey⟩ := hix.stored _ ids hids j hj
      rw [he] at he''
      cases he''
      exact hkey.symm
  · intro hkey
    refine ⟨e.task, (s.mem_tasksOf p e.task).mpr ⟨id, ?_, e, he, rfl⟩, (hkeyed id e he).1⟩
    rw [hkey]
    refine List.count_pos_iff.mp ?_
    have honce := hix.once id e he
    rw [TaskEntry.key] at honce
    omega

/-- `p` finds the task of `q` in its list exactly if it may get, await and cancel it, and then `p` is `q`. -/
def Isolated (s : TaskStore) (p q : Principal) (id : TaskId) : Prop :=
  (s.ListedFor p id ↔ verifyTaskPrincipal s (some p) id = .ok ()) ∧ (s.ListedFor p id → p = q)

end TaskStore

/-- In every reachable store a task is isolated from `p` exactly if its owner and `p` are told apart by the fields
that make the key. -/
theorem principal_isolation_iff [F64.Fmt] [Sha256] {config : TaskStoreConfig} {s : TaskStore}
    (h : (storeMachine config).Reachable s) (hfits : s.Fits) (p q : Principal) {id : TaskId} {e : TaskEntry}
    (he : s.tasks.lookup id = some e) (hq : e.task.principal = q) :
    (s.Isolated p q id ↔ p.ToldApart q) ∧ ((p.rateLimitKey = q.rateLimitKey → p = q) ↔ p.ToldApart q) := by
  subst hq
  have hkeyed : WellKeyed s := reachable_wellKeyed h
  have hlisted := TaskStore.listedFor_iff_key (TaskStore.indexed_of_reachable h) hkeyed hfits (p := p) he
  have hpass := verifyTaskPrincipal_ok_iff (p := p) he
  refine ⟨?_, (Principal.toldApart_iff p _).symm⟩
  rw [TaskStore.Isolated, hlisted, hpass, Principal.toldApart_iff]
  constructor
  · rintro ⟨-, honly⟩
    exact honly
  · intro honly
    refine ⟨⟨honly, ?_⟩, honly⟩
    intro hpq
    rw [hpq]

/-! ### Page by page -/

/-- What the list says of a task. -/
def Task.listEntry (task : Task) : Sep1686TaskListEntry where
  taskId := task.id
  status := .ofStatus task.status
  createdAt := task.createdAt
  toolName := task.originalRequest.name

namespace TaskStore

/-- The pages that a caller receives who starts at this cursor and follows `nextCursor` to the end. -/
inductive Pages (s : TaskStore) (p : Principal) : Option String → List TasksListResponse → Prop
  | last {cursor : Option String} : (handleTasksList s cursor p).nextCursor = none →
      Pages s p cursor [handleTasksList s cursor p]
  | more {cursor : Option String} {next : String} {pages : List TasksListResponse} :
      (handleTasksList s cursor p).nextCursor = some next → Pages s p (some next) pages →
      Pages s p cursor (handleTasksList s cursor p :: pages)

/-- The pages of a listing come to an end, and together they have every task under the key of `p` once, newest
first, but for the tasks whose creation has not listed them yet. -/
structure PagesExact (s : TaskStore) (p : Principal) (unlisted : TaskId → Prop) (pages : List TasksListResponse) :
    Prop where
  follows : s.Pages p none pages
  size : ∀ page ∈ pages, page.tasks.length ≤ 20
  once : ((pages.flatMap TasksListResponse.tasks).map Sep1686TaskListEntry.taskId).Nodup
  mem : ∀ entry, entry ∈ pages.flatMap TasksListResponse.tasks ↔
    ∃ e, s.tasks.lookup entry.taskId = some e ∧ e.key = p.rateLimitKey ∧ ¬ unlisted entry.taskId ∧
      entry = e.task.listEntry
  newestFirst : (pages.flatMap TasksListResponse.tasks).Pairwise fun a b => b.createdAt ≤ a.createdAt

/-- `offset` of `handle_tasks_list`. -/
def pageOffset (cursor : Option String) : Nat := (cursor.bind Text.parseUsize).getD 0

theorem handleTasksList_tasks (s : TaskStore) (cursor : Option String) (p : Principal) :
    (handleTasksList s cursor p).tasks = (((s.tasksOf p).drop (pageOffset cursor)).take pageSize).map Task.listEntry := by
  simp only [handleTasksList, listForPrincipal_eq, List.take_take]
  rfl

/-- There is a next page exactly if tasks are left, and it starts where this one ends. -/
theorem handleTasksList_nextCursor (s : TaskStore) (cursor : Option String) (p : Principal) :
    (handleTasksList s cursor p).nextCursor =
      if pageOffset cursor + pageSize < (s.tasksOf p).length then some (toString (pageOffset cursor + pageSize))
      else none := by
  simp only [handleTasksList, listForPrincipal_eq, List.length_take, List.length_drop]
  refine if_congr ?_ rfl rfl
  show pageSize < min (pageSize + 1) ((s.tasksOf p).length - pageOffset cursor) ↔ _
  omega

/-- From a cursor on, the pages are what is left of the tasks. -/
theorem exists_pages {s : TaskStore} {p : Principal} (hfits : (s.tasksOf p).length < 2 ^ 64) (cursor : Option String) :
    ∃ pages, s.Pages p cursor pages ∧ (∀ page ∈ pages, page.tasks.length ≤ pageSize) ∧
      pages.flatMap TasksListResponse.tasks = ((s.tasksOf p).drop (pageOffset cursor)).map Task.listEntry := by
  -- on the number of tasks that are left
  induction hleft : (s.tasksOf p).length - pageOffset cursor using Nat.strong_induction_on generalizing cursor with
  | _ left ih =>
    have hsize : (handleTasksList s cursor p).tasks.length ≤ pageSize := by
      rw [handleTasksList_tasks, List.length_map, List.length_take]
      exact Nat.min_le_left _ _
    have hnext := handleTasksList_nextCursor s cursor p
    by_cases hmore : pageOffset cursor + pageSize < (s.tasksOf p).length
    · rw [if_pos hmore] at hnext
      have hoffset : pageOffset (some (toString (pageOffset cursor + pageSize))) = pageOffset cursor + pageSize := by
        rw [pageOffset, Option.bind_some, Text.parseUsize_toString (hmore.trans hfits), Option.getD_some]
      obtain ⟨pages, hpages, hsizes, htasks⟩ := ih _ (by rw [hoffset, ← hleft]; unfold pageSize at *; omega) _ rfl
      refine ⟨_, .more hnext hpages, List.forall_mem_cons.mpr ⟨hsize, hsizes⟩, ?_⟩
      rw [List.flatMap_cons, htasks, handleTasksList_tasks, hoffset, ← List.map_append, ← List.drop_drop,
        List.take_append_drop]
    · rw [if_neg hmore] at hnext
      refine ⟨_, .last hnext, List.forall_mem_singleton.mpr hsize, ?_⟩
      rw [List.flatMap_singleton, handleTasksList_tasks, List.take_of_length_le]
      rw [List.length_drop]
      omega

theorem tasksOf_sorted (s : TaskStore) (p : Principal) :
    (s.tasksOf p).Pairwise fun a b => b.createdAt ≤ a.createdAt := by
  have : Std.Total fun a b : Task => b.createdAt ≤ a.createdAt := ⟨fun a b => le_total b.createdAt a.createdAt⟩
  have : IsTrans Task fun a b => b.createdAt ≤ a.createdAt := ⟨fun a b c hab hbc => le_trans hbc hab⟩
  exact List.pairwise_insertionSort _ _

theorem nodup_tasksOf {s : TaskStore} (hkeyed : WellKeyed s) {p : Principal}
    (hnodup : (Index.listed s.byPrincipal p.rateLimitKey).Nodup) : ((s.tasksOf p).map Task.id).Nodup := by
  have hid : ∀ id task, (s.tasks.lookup id).map TaskEntry.task = some task → task.id = id := by
    intro id task h
    obtain ⟨e, he, rfl⟩ := Option.map_eq_some_iff.mp h
    exact (hkeyed id e he).1
  unfold tasksOf
  rw [((List.perm_insertionSort _ _).map Task.id).nodup_iff, List.map_filterMap]
  refine hnodup.filterMap fun id id' i h h' => ?_
  obtain ⟨task, htask, rfl⟩ := Option.map_eq_some_iff.mp h
  obtain ⟨task', htask', heq⟩ := Option.map_eq_some_iff.mp h'
  rw [← hid id task htask, ← hid id' task' htask', heq]

/-- Where the index lists what is stored, up to some ids, so do the pages. -/
theorem exists_pagesExact {s : TaskStore} (hkeyed : WellKeyed s) (hfits : s.Fits) (p : Principal)
    {unlisted : TaskId → Prop} {stale : TaskId → String → Prop} {emptied : String → Prop}
    (hlist : Index.Listing s.owner s.byPrincipal unlisted stale emptied)
    (hstale : ∀ id k, stale id k → s.owner id = none) : ∃ pages, s.PagesExact p unlisted pages := by
  have hmem : ∀ id e, s.tasks.lookup id = some e →
      (id ∈ Index.listed s.byPrincipal p.rateLimitKey ↔ e.key = p.rateLimitKey ∧ ¬ unlisted id) := by
    intro id e he
    have hown : s.owner id = some e.key := by rw [owner, he]; rfl
    have hfresh : ¬ stale id p.rateLimitKey := fun h => by rw [hstale id _ h] at hown; cases hown
    rw [hlist.mem, hown, Option.some_inj, or_iff_left hfresh]
  obtain ⟨pages, hpages, hsize, htasks⟩ := exists_pages (hfits.length_tasksOf p) none
  have hall : pages.flatMap TasksListResponse.tasks = (s.tasksOf p).map Task.listEntry := htasks
  refine ⟨pages, hpages, hsize, ?_, fun entry => ?_, ?_⟩
  · rw [hall, List.map_map]
    exact nodup_tasksOf hkeyed (hlist.nodup p.rateLimitKey)
  · rw [hall, List.mem_map]
    constructor
    · rintro ⟨task, htask, rfl⟩
      obtain ⟨id, hlisted, e, he, rfl⟩ := (s.mem_tasksOf p task).mp htask
      obtain ⟨hkey, hunlisted⟩ := (hmem id e he).mp hlisted
      have hid : e.task.id = id := (hkeyed id e he).1
      exact ⟨e, by rw [Task.listEntry, hid]; exact he, hkey, by rw [Task.listEntry, hid]; exact hunlisted, rfl⟩
    · rintro ⟨e, he, hkey, hunlisted, hentry⟩
      exact ⟨e.task, (s.mem_tasksOf p e.task).mpr ⟨_, (hmem _ e he).mpr ⟨hkey, hunlisted⟩, e, he, rfl⟩, hentry.symm⟩
  · rw [hall, List.pairwise_map]
    exact s.tasksOf_sorted p

end TaskStore

/-- The pages of a listing are exact in every reachable store; where the calls run in steps, up to the tasks that a
`create` stands before listing. The next offset never overflows, whatever the cursor says. -/
theorem tasks_list_pages_exact [F64.Fmt] [Sha256] {σ : Sharding} {config : TaskStoreConfig} (p : Principal) :
    (∀ s, (storeMachine config).Reachable s → s.Fits → ∃ pages, s.PagesExact p (fun _ => False) pages) ∧
    (∀ s, (threadMachine σ config).Reachable s → s.shared.Fits →
      ∃ pages, s.shared.PagesExact p (Program.Marked Pc.indexing s.threads) pages) ∧
    ∀ s : TaskStore, s.Fits → ∀ cursor, (handleTasksList s cursor p).nextCursor.isSome →
      TaskStore.pageOffset cursor + pageSize < 2 ^ 64 := by
  refine ⟨fun s h hfits => ?_, fun s h hfits => ?_, fun s hfits cursor hnext => ?_⟩
  · exact TaskStore.exists_pagesExact (reachable_wellKeyed h) hfits p (TaskStore.exact_of_reachable h)
      fun _ _ hstale => hstale.elim
  · obtain ⟨hbut, -⟩ := reachable_indexedBut h
    exact TaskStore.exists_pagesExact (reachable_sound h).keyed hfits p hbut.listing hbut.removed
  · rw [TaskStore.handleTasksList_nextCursor] at hnext
    split at hnext
    · next hmore => exact hmore.trans (hfits.length_tasksOf p)
    · cases hnext

section

attribute [local instance] Sample.f64Fmt Sample.sha256

namespace Sample

/-- The shop's agent in production, and the one in staging. -/
def prodCaller : Principal := .fromPolicy "shop" "prod" "agent" ["buyer"]

def stagingCaller : Principal := .fromPolicy "shop" "staging" "agent" ["buyer"]

/-- The production agent owns one task. -/
def ownedTask : List StoreOp := [.create "tg_1" 0 request request prodCaller none .deny]

def ownedBy (s : TaskStore) (q : Principal) : Bool :=
  decide ((∀ e ∈ s.byPrincipal.entries, e.2.length < 2 ^ 64) ∧
    (s.tasks.lookup "tg_1").map (fun e => e.task.principal) = some q)

end Sample

theorem principal_isolation_iff_sample :
    ∃ s, (storeMachine {}).Reachable s ∧ s.Fits ∧ s.Isolated Sample.principal Sample.prodCaller "tg_1" := by
  have hrun : ((storeMachine {}).exec (storeMachine {}).init Sample.ownedTask).any
      (fun s => Sample.ownedBy s Sample.prodCaller) = true := by
    decide
  obtain ⟨s, hreach, htest⟩ := Machine.exists_reachable_of_exec hrun
  obtain ⟨hfits, howner⟩ := of_decide_eq_true htest
  obtain ⟨e, he, hq⟩ := Option.map_eq_some_iff.mp howner
  refine ⟨s, hreach, hfits, (principal_isolation_iff hreach hfits _ _ he hq).1.mpr (Or.inr ?_)⟩
  decide

theorem tasks_list_pages_exact_sample :
    (∃ s, (storeMachine {}).Reachable s ∧ s.Fits ∧ s.tasks.keys = ["tg_1"] ∧
      (∃ pages, s.PagesExact Sample.prodCaller (fun _ => False) pages) ∧
      ∀ cursor, (handleTasksList s cursor Sample.prodCaller).nextCursor.isSome →
        TaskStore.pageOffset cursor + pageSize < 2 ^ 64) ∧
    ∃ s, (threadMachine Sample.sharding Sample.graceConfig).Reachable s ∧ s.shared.Fits ∧
      s.shared.tasks.keys = ["tg_2"] ∧
      ∃ pages, s.shared.PagesExact Sample.principal (Program.Marked Pc.indexing s.threads) pages := by
  have hpages := @tasks_list_pages_exact _ _ Sample.sharding {} Sample.prodCaller
  constructor
  · have hrun : ((storeMachine {}).exec (storeMachine {}).init Sample.ownedTask).any (fun s =>
        Sample.ownedBy s Sample.prodCaller && decide (s.tasks.keys = ["tg_1"])) = true := by
      decide
    obtain ⟨s, hreach, htest⟩ := Machine.exists_reachable_of_exec hrun
    obtain ⟨howned, hkeys⟩ := (Bool.and_eq_true _ _).mp htest
    obtain ⟨hfits, -⟩ := of_decide_eq_true howned
    exact ⟨s, hreach, hfits, of_decide_eq_true hkeys, hpages.1 s hreach hfits, hpages.2.2 s hfits⟩
  · obtain ⟨s, hreach, htest⟩ := Sample.cleanupRun.exists_reachable
    obtain ⟨-, hkeys, hfits⟩ := of_decide_eq_true htest
    exact ⟨s, hreach, hfits, hkeys,
      (tasks_list_pages_exact Sample.principal).2.1 s hreach hfits⟩

/-- The staging agent is shown the production agent's task, which it may not get, await or cancel. -/
theorem staging_lists_prod :
    ∃ s, (storeMachine {}).Reachable s ∧ s.Fits ∧
      (∃ e, s.tasks.lookup "tg_1" = some e ∧ e.task.principal = Sample.prodCaller) ∧
      Sample.stagingCaller.rateLimitKey = Sample.prodCaller.rateLimitKey ∧
      s.ListedFor Sample.stagingCaller "tg_1" ∧
      verifyTaskPrincipal s (some Sample.stagingCaller) "tg_1" = .error (.taskNotFound "tg_1") ∧
      ¬ s.Isolated Sample.stagingCaller Sample.prodCaller "tg_1" := by
  have hrun : ((storeMachine {}).exec (storeMachine {}).init Sample.ownedTask).any (fun s =>
      Sample.ownedBy s Sample.prodCaller &&
        decide ("tg_1" ∈ (handleTasksList s none Sample.stagingCaller).tasks.map Sep1686TaskListEntry.taskId)) =
        true := by
    decide
  obtain ⟨s, hreach, htest⟩ := Machine.exists_reachable_of_exec hrun
  obtain ⟨howned, hpage⟩ := (Bool.and_eq_true _ _).mp htest
  obtain ⟨hfits, howner⟩ := of_decide_eq_true howned
  obtain ⟨e, he, hq⟩ := Option.map_eq_some_iff.mp howner
  have hlisted : s.ListedFor Sample.stagingCaller "tg_1" := ⟨none, of_decide_eq_true hpage⟩
  have hother : Sample.stagingCaller ≠ Sample.prodCaller := by decide
  have hrefused : verifyTaskPrincipal s (some Sample.stagingCaller) "tg_1" = .error (.taskNotFound "tg_1") := by
    simp only [verifyTaskPrincipal, TaskStore.get, he]
    rw [if_pos]
    rw [hq]
    exact hother.symm
  exact ⟨s, hreach, hfits, ⟨e, he, hq⟩, rfl, hlisted, hrefused, fun h => hother (h.2 hlisted)⟩

end

end ThoughtGate
