import ThoughtGate.Task.Index

/-!
# Waiting for a task to become terminal

`wait_for_terminal` of `governance/task/store.rs`, cut at its looks at the store and at the notify handle. A
`Notified` future remembers how many times `notify_waiters` had been called on its handle when it was created,
and it is ready once there have been more: so a call after the creation is delivered, whether the future has been
polled or not. The handle of a task outlives its entry (it is an `Arc`).

The waiters run beside a store that takes steps. What they rely on is stated once (`Notifying`) and holds of both
models of the store: the one whose operations are single steps, and the one whose operations are cut at their
map accesses, where the call that has made a task terminal holds the entry's guard until it has notified.
-/

namespace ThoughtGate

open Program (Marked settle)

/-! ### A waiter -/

/-- Where a `wait_for_terminal` stands; `seen` is what its future remembers. -/
inductive WaitPc where
  | getNotify (id : TaskId)
  | createFuture (id : TaskId)
  | checkStatus (id : TaskId) (seen : Nat)
  | checkDeadline (id : TaskId) (seen : Nat)
  | suspended (id : TaskId) (seen : Nat)
  | finalCheck (id : TaskId)
  | returned (answer : Except TaskError Task)

namespace WaitPc

/-- The task waited for. -/
def waitsFor : WaitPc → Option TaskId
  | .getNotify id | .createFuture id | .checkStatus id _ | .checkDeadline id _ | .suspended id _ | .finalCheck id =>
    some id
  | .returned _ => none

/-- The task whose handle the waiter has. -/
def handle : WaitPc → Option TaskId
  | .createFuture id | .checkStatus id _ | .checkDeadline id _ | .suspended id _ | .finalCheck id => some id
  | _ => none

/-- The future that the waiter has created. -/
def future : WaitPc → Option (TaskId × Nat)
  | .checkStatus id seen | .checkDeadline id seen | .suspended id seen => some (id, seen)
  | _ => none

/-- The future of a waiter that has found the task not terminal. -/
def relies : WaitPc → Option (TaskId × Nat)
  | .checkDeadline id seen | .suspended id seen => some (id, seen)
  | _ => none

/-- The entry that the next step looks up. -/
def reads : WaitPc → Option TaskId
  | .getNotify id | .checkStatus id _ | .finalCheck id => some id
  | _ => none

/-- One step. `handles` counts the `notify_waiters` calls on each handle, `late` says whether the deadline has
passed. A suspended waiter takes a step only when its future is ready or the timeout fires; `timeout` looks at
the future first. -/
def next (s : TaskStore) (handles : TaskId → Nat) (late : Bool) : WaitPc → Option WaitPc
  | .getNotify id =>
    match s.tasks.lookup id with
    | none => some (.returned (.error (.notFound id)))
    | some _ => some (.createFuture id)
  | .createFuture id => some (.checkStatus id (handles id))
  | .checkStatus id seen =>
    match s.tasks.lookup id with
    | none => some (.returned (.error (.notFound id)))
    | some e =>
      if e.task.status.isTerminal then some (.returned (.ok e.task)) else some (.checkDeadline id seen)
  | .checkDeadline id seen =>
    if late then some (.returned (.error (.resultNotReady id))) else some (.suspended id seen)
  | .suspended id seen =>
    if seen < handles id then some (.getNotify id) else if late then some (.finalCheck id) else none
  | .finalCheck id =>
    match s.tasks.lookup id with
    | none => some (.returned (.error (.notFound id)))
    | some e =>
      if e.task.status.isTerminal then some (.returned (.ok e.task))
      else some (.returned (.error (.resultNotReady id)))
  | .returned _ => none

end WaitPc

/-! ### Waiters beside a store -/

/-- A model of the store, as the waiters see it. -/
structure StoreModel (S L : Type) where
  machine : Machine S L
  view : S → TaskStore
  /-- The id that a step draws for a new task. -/
  newId : L → Option TaskId
  /-- No call holds the shard of the task for writing. -/
  readable : S → TaskId → Bool

/-- The store, the calls made on the handles, and the waiters. -/
structure WaitState (S : Type) where
  store : S
  handles : TaskId → Nat
  waiters : Table Nat WaitPc

inductive WaitAct (L : Type) where
  | store (l : L)
  | wait (w : Nat) (id : TaskId)
  | run (w : Nat) (late : Bool)

section

variable {S L : Type} (A : StoreModel S L)

/-- The handles after a step of the store: those of stored tasks are in their entries, the others stay. -/
def WaitState.ring (s : WaitState S) (store : S) : WaitState S where
  store := store
  handles id := (((A.view store).tasks.lookup id).map (·.notifications)).getD (s.handles id)
  waiters := s.waiters

/-- An id drawn at random is not one that somebody waits for. -/
def WaitState.unknown (s : WaitState S) (id : TaskId) : Bool :=
  s.waiters.entries.all fun e => decide (e.2.waitsFor ≠ some id)

def waitMachine : Machine (WaitState S) (WaitAct L) where
  init := ⟨A.machine.init, fun _ => 0, ∅⟩
  step s
    | .store l => if (A.newId l).all s.unknown then (A.machine.step s.store l).map (s.ring A) else none
    | .wait w id =>
      if s.waiters.lookup w = none then some { s with waiters := s.waiters.insert w (.getNotify id) } else none
    | .run w late =>
      match s.waiters.lookup w with
      | none => none
      | some p =>
        if p.reads.all (A.readable s.store) then
          (p.next (A.view s.store) s.handles late).map fun p' => { s with waiters := s.waiters.insert w p' }
        else none

/-- What the waiters rely on. `drawn s id`: a running call has drawn the id and not stored its task yet;
`closing s id`: the call that has made the task terminal has yet to notify. -/
structure Notifying (drawn closing : S → TaskId → Prop) : Prop where
  empty : (A.view A.machine.init).tasks = ∅
  draws : ∀ s l s' id, A.machine.step s l = some s' → drawn s' id → drawn s id ∨ A.newId l = some id
  away : ∀ s id, A.machine.Reachable s → drawn s id → (A.view s).tasks.lookup id = none
  appears : ∀ s l s' id e, A.machine.Reachable s → A.machine.step s l = some s' →
    (A.view s).tasks.lookup id = none → (A.view s').tasks.lookup id = some e → drawn s id ∨ A.newId l = some id
  rings : ∀ s l s' id e e', A.machine.Reachable s → A.machine.step s l = some s' →
    (A.view s).tasks.lookup id = some e → (A.view s').tasks.lookup id = some e' →
    e.notifications ≤ e'.notifications
  closes : ∀ s l s' id e e', A.machine.Reachable s → A.machine.step s l = some s' →
    (A.view s).tasks.lookup id = some e → (A.view s').tasks.lookup id = some e' →
    e'.task.status.isTerminal = true →
    (e.task.status.isTerminal = true ∧ ¬ closing s id) ∨ closing s' id ∨ e.notifications < e'.notifications

variable {A}

/-! ### Steps of a waiter -/

/-- Where a waiter goes, with what it has seen. -/
inductive WaitGoes (s : TaskStore) (handles : TaskId → Nat) : WaitPc → WaitPc → Prop
  | handle {id : TaskId} {e : TaskEntry} : s.tasks.lookup id = some e →
      WaitGoes s handles (.getNotify id) (.createFuture id)
  | create {id : TaskId} : WaitGoes s handles (.createFuture id) (.checkStatus id (handles id))
  | live {id : TaskId} {seen : Nat} {e : TaskEntry} : s.tasks.lookup id = some e →
      e.task.status.isTerminal = false → WaitGoes s handles (.checkStatus id seen) (.checkDeadline id seen)
  | suspend {id : TaskId} {seen : Nat} : WaitGoes s handles (.checkDeadline id seen) (.suspended id seen)
  | woken {id : TaskId} {seen : Nat} : seen < handles id → WaitGoes s handles (.suspended id seen) (.getNotify id)
  | timeout {id : TaskId} {seen : Nat} : WaitGoes s handles (.suspended id seen) (.finalCheck id)
  | done {p : WaitPc} {e : TaskEntry} : e.task.status.isTerminal = true →
      WaitGoes s handles p (.returned (.ok e.task))
  | failed {p : WaitPc} {err : TaskError} : WaitGoes s handles p (.returned (.error err))

theorem WaitPc.next_goes {s : TaskStore} {handles : TaskId → Nat} {late : Bool} {p p' : WaitPc}
    (h : p.next s handles late = some p') : WaitGoes s handles p p' := by
  cases p with
  | getNotify id =>
    simp only [next] at h
    split at h
    · cases h
      exact .failed
    · rename_i e he
      cases h
      exact .handle he
  | createFuture id =>
    cases h
    exact .create
  | checkStatus id seen =>
    simp only [next] at h
    split at h
    · cases h
      exact .failed
    · rename_i e he
      split at h
      · rename_i hterm
        cases h
        exact .done hterm
      · rename_i hlive
        cases h
        exact .live he (by simpa using hlive)
  | checkDeadline id seen =>
    simp only [next] at h
    split at h
    · cases h
      exact .failed
    · cases h
      exact .suspend
  | suspended id seen =>
    simp only [next] at h
    split at h
    · rename_i hready
      cases h
      exact .woken hready
    · split at h
      · cases h
        exact .timeout
      · cases h
  | finalCheck id =>
    simp only [next] at h
    split at h
    · cases h
      exact .failed
    · split at h
      · rename_i hterm
        cases h
        exact .done hterm
      · cases h
        exact .failed
  | returned answer => cases h

/-! ### The invariant -/

variable (A) in
/-- No waiter sleeps through the end of its task. -/
structure Awake (drawn closing : S → TaskId → Prop) (s : WaitState S) : Prop where
  counted : ∀ id e, (A.view s.store).tasks.lookup id = some e → s.handles id = e.notifications
  fresh : ∀ w p id, s.waiters.lookup w = some p → p.handle = some id → ¬ drawn s.store id
  seen : ∀ w p id n, s.waiters.lookup w = some p → p.future = some (id, n) → n ≤ s.handles id
  covered : ∀ w p id n e, s.waiters.lookup w = some p → p.relies = some (id, n) →
    (A.view s.store).tasks.lookup id = some e → e.task.status.isTerminal = true →
    n < s.handles id ∨ closing s.store id
  answered : ∀ w t, s.waiters.lookup w = some (.returned (.ok t)) → t.status.isTerminal = true

theorem WaitPc.handle_of_future {p : WaitPc} {id : TaskId} {n : Nat} (h : p.future = some (id, n)) :
    p.handle = some id := by
  cases p with
  | checkStatus | checkDeadline | suspended =>
    cases h
    rfl
  | _ => cases h

theorem WaitPc.future_of_relies {p : WaitPc} {id : TaskId} {n : Nat} (h : p.relies = some (id, n)) :
    p.future = some (id, n) := by
  cases p with
  | checkDeadline | suspended => exact h
  | _ => cases h

theorem WaitPc.waitsFor_of_handle {p : WaitPc} {id : TaskId} (h : p.handle = some id) : p.waitsFor = some id := by
  cases p with
  | getNotify | returned => cases h
  | _ => exact h

theorem WaitState.ring_handles {s : WaitState S} {store : S} {id : TaskId} {e : TaskEntry}
    (he : (A.view store).tasks.lookup id = some e) : (s.ring A store).handles id = e.notifications := by
  simp only [WaitState.ring, he, Option.map_some, Option.getD_some]

variable {drawn closing : S → TaskId → Prop}

/-- A step of the store. -/
theorem Awake.store (hA : Notifying A drawn closing) {s : WaitState S} (hs : Awake A drawn closing s)
    (hreach : A.machine.Reachable s.store) {l : L} {store : S} (hunknown : (A.newId l).all s.unknown = true)
    (hl : A.machine.step s.store l = some store) : Awake A drawn closing (s.ring A store) := by
  -- a waited-for id is not one that the step draws
  have hnew : ∀ w p id, s.waiters.lookup w = some p → p.handle = some id → A.newId l ≠ some id := by
    intro w p id hw hid hdraw
    rw [hdraw] at hunknown
    have hne := List.all_eq_true.mp hunknown _ (Table.mem_entries_iff (e := ⟨w, p⟩).mpr hw)
    exact of_decide_eq_true hne (WaitPc.waitsFor_of_handle hid)
  -- so its entry, if there is one now, was there before
  have hold : ∀ w p id e', s.waiters.lookup w = some p → p.handle = some id →
      (A.view store).tasks.lookup id = some e' → ∃ e, (A.view s.store).tasks.lookup id = some e := by
    intro w p id e' hw hid he'
    cases he : (A.view s.store).tasks.lookup id with
    | some e => exact ⟨e, rfl⟩
    | none =>
      rcases hA.appears _ _ _ _ _ hreach hl he he' with hdrawn | hdraw
      · exact absurd hdrawn (hs.fresh w p id hw hid)
      · exact absurd hdraw (hnew w p id hw hid)
  refine ⟨fun id e he => WaitState.ring_handles he, fun w p id hw hid hdrawn => ?_, fun w p id n hw hf => ?_,
    fun w p id n e' hw hr he' hterm => ?_, hs.answered⟩
  · rcases hA.draws _ _ _ _ hl hdrawn with hdrawn | hdraw
    · exact hs.fresh w p id hw hid hdrawn
    · exact hnew w p id hw hid hdraw
  · have hseen := hs.seen w p id n hw hf
    cases he' : (A.view store).tasks.lookup id with
    | none =>
      simp only [WaitState.ring, he', Option.map_none, Option.getD_none]
      exact hseen
    | some e' =>
      obtain ⟨e, he⟩ := hold w p id e' hw (WaitPc.handle_of_future hf) he'
      rw [WaitState.ring_handles he']
      rw [hs.counted id e he] at hseen
      exact Nat.le_trans hseen (hA.rings _ _ _ _ _ _ hreach hl he he')
  · have hf := WaitPc.future_of_relies hr
    have hseen := hs.seen w p id n hw hf
    obtain ⟨e, he⟩ := hold w p id e' hw (WaitPc.handle_of_future hf) he'
    have hcount := hs.counted id e he
    have hmono := hA.rings _ _ _ _ _ _ hreach hl he he'
    have hring : (s.ring A store).handles id = e'.notifications := WaitState.ring_handles he'
    rw [hring]
    rcases hA.closes _ _ _ _ _ _ hreach hl he he' hterm with ⟨hbefore, hquiet⟩ | hclosing | hrung
    · rcases hs.covered w p id n e hw hr he hbefore with hpending | hclosing
      · left
        omega
      · exact absurd hclosing hquiet
    · exact Or.inr hclosing
    · left
      omega

/-- The waiters after one of them has changed. -/
theorem waiters_insert {waiters : Table Nat WaitPc} {w u : Nat} {p q : WaitPc}
    (h : (waiters.insert w p).lookup u = some q) : (u = w ∧ q = p) ∨ waiters.lookup u = some q := by
  by_cases hu : u = w
  · subst hu
    rw [AList.lookup_insert] at h
    exact Or.inl ⟨rfl, (Option.some.inj h).symm⟩
  · rw [AList.lookup_insert_ne hu] at h
    exact Or.inr h

/-- A waiter arrives. -/
theorem Awake.wait {s : WaitState S} (hs : Awake A drawn closing s) (w : Nat) (id : TaskId) :
    Awake A drawn closing { s with waiters := s.waiters.insert w (.getNotify id) } := by
  refine ⟨hs.counted, fun u p j hu hj => ?_, fun u p j n hu hf => ?_, fun u p j n e hu hr he hterm => ?_,
    fun u t hu => ?_⟩
  · rcases waiters_insert hu with ⟨-, rfl⟩ | hold
    · cases hj
    · exact hs.fresh u p j hold hj
  · rcases waiters_insert hu with ⟨-, rfl⟩ | hold
    · cases hf
    · exact hs.seen u p j n hold hf
  · rcases waiters_insert hu with ⟨-, rfl⟩ | hold
    · cases hr
    · exact hs.covered u p j n e hold hr he hterm
  · rcases waiters_insert hu with ⟨-, hpc⟩ | hold
    · cases hpc
    · exact hs.answered u t hold

/-- A step of a waiter. -/
theorem Awake.run (hA : Notifying A drawn closing) {s : WaitState S} (hs : Awake A drawn closing s)
    (hreach : A.machine.Reachable s.store) {w : Nat} {p p' : WaitPc} (hw : s.waiters.lookup w = some p)
    (hgoes : WaitGoes (A.view s.store) s.handles p p') :
    Awake A drawn closing { s with waiters := s.waiters.insert w p' } := by
  refine ⟨hs.counted, fun u q j hu hj => ?_, fun u q j n hu hf => ?_, fun u q j n e hu hr he hterm => ?_,
    fun u t hu => ?_⟩
  · rcases waiters_insert hu with ⟨-, rfl⟩ | hold
    · cases hgoes with
      | handle he =>
        cases hj
        intro hdrawn
        rw [hA.away _ _ hreach hdrawn] at he
        cases he
      | woken | done | failed => cases hj
      | create | live | suspend | timeout => exact hs.fresh w _ j hw hj
    · exact hs.fresh u q j hold hj
  · rcases waiters_insert hu with ⟨-, rfl⟩ | hold
    · cases hgoes with
      | create =>
        cases hf
        exact Nat.le_refl _
      | live | suspend => exact hs.seen w _ j n hw hf
      | handle | woken | timeout | done | failed => cases hf
    · exact hs.seen u q j n hold hf
  · rcases waiters_insert hu with ⟨-, rfl⟩ | hold
    · cases hgoes with
      | live hlook hlive =>
        cases hr
        rw [hlook] at he
        cases he
        rw [hlive] at hterm
        cases hterm
      | suspend => exact hs.covered w _ j n e hw hr he hterm
      | create | handle | woken | timeout | done | failed => cases hr
    · exact hs.covered u q j n e hold hr he hterm
  · rcases waiters_insert hu with ⟨-, hpc⟩ | hold
    · rw [← hpc] at hgoes
      cases hgoes with
      | done hterm => exact hterm
    · exact hs.answered u t hold

theorem reachable_awake (hA : Notifying A drawn closing) {s : WaitState S} (h : (waitMachine A).Reachable s) :
    A.machine.Reachable s.store ∧ Awake A drawn closing s := by
  have hinit : A.machine.Reachable (waitMachine A).init.store := Machine.ReachableWhen.init
  refine Machine.Reachable.invariant (I := fun s => A.machine.Reachable s.store ∧ Awake A drawn closing s)
    ⟨hinit, ?_⟩ ?_ h
  · refine ⟨fun id e he => ?_, fun w p id hw => ?_, fun w p id n hw => ?_, fun w p id n e hw => ?_,
      fun w t hw => ?_⟩
    · have hnone : (A.view A.machine.init).tasks.lookup id = some e := he
      rw [hA.empty] at hnone
      cases hnone
    all_goals cases hw
  · intro s a s' hI ha
    obtain ⟨hreach, hs⟩ := hI
    cases a with
    | store l =>
      simp only [waitMachine] at ha
      split at ha
      · rename_i hunknown
        obtain ⟨store, hl, rfl⟩ := Option.map_eq_some_iff.mp ha
        exact ⟨hreach.step hl, hs.store hA hreach hunknown hl⟩
      · cases ha
    | wait w id =>
      simp only [waitMachine] at ha
      split at ha
      · cases ha
        exact ⟨hreach, hs.wait w id⟩
      · cases ha
    | run w late =>
      simp only [waitMachine] at ha
      split at ha
      · cases ha
      · rename_i p hp
        split at ha
        · obtain ⟨p', hp', rfl⟩ := Option.map_eq_some_iff.mp ha
          exact ⟨hreach, hs.run hA hreach hp (WaitPc.next_goes hp')⟩
        · cases ha

end

/-! ### The store with its operations as single steps -/

section

variable [F64.Fmt] [Sha256]

def storeModel (config : TaskStoreConfig) : StoreModel TaskStore StoreOp where
  machine := storeMachine config
  view s := s
  newId := StoreOp.newId
  readable _ _ := true

/-- What becomes of an entry: nothing rings its handle without closing its task, and nothing closes it without
ringing. -/
structure Rung (e e' : TaskEntry) : Prop where
  counts : e.notifications ≤ e'.notifications
  closes : e'.task.status.isTerminal = true →
    e.task.status.isTerminal = true ∨ e.notifications < e'.notifications

omit [F64.Fmt] [Sha256] in
/-- Over the effects of an operation that does not draw the id, an entry is rung when its task is closed. -/
theorem Effects.rung {new : TaskId → Prop} {auto : ApprovalRecord → Prop} {s s' : TaskStore}
    (h : Effects new auto s s') {id : TaskId} {e : TaskEntry} (hnew : ¬ new id) (he : s.tasks.lookup id = some e) :
    ∀ e', s'.tasks.lookup id = some e' → Rung e e' := by
  refine Effects.invariant (I := fun s' => ∀ e', s'.tasks.lookup id = some e' → Rung e e') ?_ ?_ h
  · intro s₁ s₂ hs₁ heff e' he'
    cases heff with
    | @touch id₁ e₁ t₁ he₁ _ hsame =>
      by_cases hid : id = id₁
      · subst hid
        rw [TaskStore.put, AList.lookup_insert] at he'
        cases he'
        obtain ⟨hcounts, hcloses⟩ := hs₁ e₁ he₁
        exact ⟨hcounts, fun hterm => hcloses (hsame.symm.trans hterm)⟩
      · rw [TaskStore.put, AList.lookup_insert_ne hid] at he'
        exact hs₁ e' he'
    | @finish now id₁ e₁ t₁ he₁ =>
      by_cases hid : id = id₁
      · subst hid
        rw [TaskStore.becomeTerminal_lookup] at he'
        cases he'
        obtain ⟨hcounts, -⟩ := hs₁ e₁ he₁
        have hlt : e.notifications < e₁.notifications + 1 := by omega
        exact ⟨Nat.le_of_lt hlt, fun _ => Or.inr hlt⟩
      · rw [TaskStore.becomeTerminal_lookup_ne _ _ _ hid] at he'
        exact hs₁ e' he'
    | @accept id₁ task n hdrawn =>
      have hid : id ≠ id₁ := by
        rintro rfl
        exact hnew hdrawn
      rw [TaskStore.admitted_tasks, AList.lookup_insert_ne hid] at he'
      exact hs₁ e' he'
    | bounce =>
      rw [TaskStore.bounced_tasks] at he'
      exact hs₁ e' he'
    | @drop id₁ e₁ he₁ =>
      obtain ⟨index, hframe⟩ := TaskStore.cleanupOne_frame he₁
      rw [hframe] at he'
      by_cases hid : id = id₁
      · rw [hid, AList.lookup_erase] at he'
        cases he'
      · rw [AList.lookup_erase_ne hid] at he'
        exact hs₁ e' he'
  · intro e' he'
    rw [he] at he'
    cases he'
    exact ⟨Nat.le_refl _, Or.inl⟩

omit [F64.Fmt] [Sha256] in
/-- An id that an operation does not draw does not come to be stored by it. -/
theorem Effects.stays_away {new : TaskId → Prop} {auto : ApprovalRecord → Prop} {s s' : TaskStore}
    (h : Effects new auto s s') {id : TaskId} (hnew : ¬ new id) (hid : s.tasks.lookup id = none) :
    s'.tasks.lookup id = none := by
  refine Effects.invariant (I := fun s' => s'.tasks.lookup id = none) ?_ hid h
  intro s₁ s₂ hs₁ heff
  rcases heff.lookup_cases id with hsame | ⟨e, e', he, -⟩ | ⟨hdrawn, -⟩ | hnone
  · exact hsame.trans hs₁
  · rw [hs₁] at he
    cases he
  · exact absurd hdrawn hnew
  · exact hnone

theorem storeModel_step {config : TaskStoreConfig} {s s' : TaskStore} {op : StoreOp}
    (hs : (storeMachine config).Reachable s) (h : (storeMachine config).step s op = some s') :
    (∀ id ∈ op.newId, s.tasks.lookup id = none) ∧
      Effects (fun id => op.newId = some id) (fun _ => True) s s' := by
  simp only [storeMachine] at h
  split at h
  · rename_i hfresh
    cases h
    have hkeyed : WellKeyed s := reachable_wellKeyed hs
    exact ⟨hfresh, StoreOp.apply_effects hkeyed hfresh fun _ _ => trivial⟩
  · cases h

theorem storeModel_rung {config : TaskStoreConfig} {s s' : TaskStore} {op : StoreOp}
    (hs : (storeMachine config).Reachable s) (h : (storeMachine config).step s op = some s') {id : TaskId}
    {e e' : TaskEntry} (he : s.tasks.lookup id = some e) (he' : s'.tasks.lookup id = some e') : Rung e e' := by
  obtain ⟨hfresh, heff⟩ := storeModel_step hs h
  refine heff.rung ?_ he e' he'
  intro hdrawn
  rw [hfresh id hdrawn] at he
  cases he

theorem storeModel_notifying (config : TaskStoreConfig) :
    Notifying (storeModel config) (fun _ _ => False) fun _ _ => False where
  empty := rfl
  draws _ _ _ _ _ h := h.elim
  away _ _ _ h := h.elim
  appears s op s' id e hs h hnone he := by
    obtain ⟨-, heff⟩ := storeModel_step hs h
    by_cases hnew : op.newId = some id
    · exact Or.inr hnew
    · have haway : s'.tasks.lookup id = none := heff.stays_away hnew hnone
      have hstored : s'.tasks.lookup id = some e := he
      rw [haway] at hstored
      cases hstored
  rings s op s' id e e' hs h he he' := (storeModel_rung hs h he he').counts
  closes s op s' id e e' hs h he he' hterm := by
    rcases (storeModel_rung hs h he he').closes hterm with hbefore | hrung
    · exact Or.inl ⟨hbefore, not_false⟩
    · exact Or.inr (Or.inr hrung)

/-! ### The store with its operations cut at their accesses -/

/-- The task whose entry a call has made terminal and still holds, the notification to come. -/
def Pc.notifying : Pc → Option TaskId
  | .entrySubCount u _ _ _ | .entrySubBytes u _ _ _ | .entryGetCounter u _ _ | .entrySubPrincipal u _ _
  | .entryRemove u _ _ | .entryNotify u _ => some u.id
  | _ => none

/-- The id that a call draws when it starts. -/
def ThreadAct.newId : ThreadAct Pc Unit → Option TaskId
  | .spawn _ (.createLoad c) => some c.id
  | _ => none

def threadModel (σ : Sharding) (config : TaskStoreConfig) :
    StoreModel (ThreadState TaskStore Pc) (ThreadAct Pc Unit) where
  machine := threadMachine σ config
  view s := s.shared
  newId := ThreadAct.newId
  readable s id := s.threads.entries.all fun e => decide ((Lock.tasks (σ.tasks id), WaitGraph.Mode.write) ∉ e.2.held σ)

variable {σ : Sharding} {config : TaskStoreConfig}

omit [F64.Fmt] [Sha256] in
theorem Pc.held_of_notifying {p : Pc} {id : TaskId} (h : p.notifying = some id) :
    (Lock.tasks (σ.tasks id), WaitGraph.Mode.write) ∈ p.held σ := by
  cases p with
  | entrySubCount | entrySubBytes | entryGetCounter | entrySubPrincipal | entryRemove | entryNotify =>
    cases h
    exact List.mem_cons_self
  | _ => cases h

omit [F64.Fmt] [Sha256] in
theorem Pc.notifying_of_closingFirst {p : Pc} {id : TaskId} {key : String} (h : p.closingFirst = some (id, key)) :
    p.notifying = some id := by
  cases p with
  | entrySubCount | entrySubBytes | entryGetCounter =>
    cases h
    rfl
  | _ => cases h

/-- A call that has closed a task goes on, holding its entry, until it has notified. -/
theorem Pc.next_notifying {s : TaskStore} {p : Pc} {id : TaskId} (hp : p.notifying = some id) {e e' : TaskEntry}
    (he : s.tasks.lookup id = some e) (he' : (p.next σ s).1.tasks.lookup id = some e') :
    (p.next σ s).2.bind Pc.notifying = some id ∨ e.notifications < e'.notifications := by
  cases p with
  | entrySubCount u rest key bytes => exact Or.inl hp
  | entrySubBytes u rest key bytes => exact Or.inl hp
  | entryGetCounter u rest key =>
    left
    simp only [Pc.next]
    split <;> exact hp
  | entrySubPrincipal u rest key =>
    left
    simp only [Pc.next]
    split <;> exact hp
  | entryRemove u rest key => exact Or.inl hp
  | entryNotify u rest =>
    have hid : u.id = id := Option.some.inj hp
    subst hid
    simp only [Pc.next, he, TaskStore.put, AList.lookup_insert] at he'
    cases he'
    exact Or.inr (Nat.lt_succ_self _)
  | _ => cases hp

/-- No step takes a notification back. -/
theorem Pc.next_notifications {s : TaskStore} {p : Pc} {id : TaskId} (hp : ∀ c task, p = .createInsert c task → c.id ≠ id)
    {e e' : TaskEntry} (he : s.tasks.lookup id = some e) (he' : (p.next σ s).1.tasks.lookup id = some e') :
    e.notifications ≤ e'.notifications := by
  have hsame : ∀ tasks : Table TaskId TaskEntry, tasks = s.tasks → tasks.lookup id = some e' →
      e.notifications ≤ e'.notifications := by
    rintro tasks rfl hlook
    rw [he] at hlook
    cases hlook
    exact Nat.le_refl _
  have hwrite : ∀ (id₀ : TaskId) (e₀ e₁ : TaskEntry), s.tasks.lookup id₀ = some e₀ →
      e₀.notifications ≤ e₁.notifications → (s.tasks.insert id₀ e₁).lookup id = some e' →
      e.notifications ≤ e'.notifications := by
    intro id₀ e₀ e₁ he₀ hle hlook
    by_cases hid : id = id₀
    · subst hid
      rw [AList.lookup_insert] at hlook
      cases hlook
      rw [he] at he₀
      cases he₀
      exact hle
    · rw [AList.lookup_insert_ne hid, he] at hlook
      cases hlook
      exact Nat.le_refl _
  cases p with
  | createInsert c task =>
    simp only [Pc.next, TaskStore.put, AList.lookup_insert_ne (hp c task rfl).symm] at he'
    exact hsame _ rfl he'
  | cleanupRemove id₀ rest =>
    simp only [Pc.next] at he'
    split at he'
    · exact hsame _ rfl he'
    · by_cases hid : id = id₀
      · rw [hid, AList.lookup_erase] at he'
        cases he'
      · rw [AList.lookup_erase_ne hid] at he'
        exact hsame _ rfl he'
  | entryNotify u rest =>
    simp only [Pc.next] at he'
    split at he'
    · exact hsame _ rfl he'
    · rename_i e₀ he₀
      exact hwrite u.id e₀ { e₀ with notifications := e₀.notifications + 1 } he₀ (Nat.le_succ _) he'
  | entryBody u rest =>
    rcases entryBody_cases σ s u rest with ⟨hnext, -⟩ | ⟨e₀, task, he₀, -, -, -, hnext, -⟩ |
      ⟨e₀, task, he₀, -, -, hnext, -⟩
    · rw [hnext] at he'
      exact hsame _ rfl he'
    · rw [hnext] at he'
      exact hwrite u.id e₀ { e₀ with task, terminalAt := some u.now } he₀ (Nat.le_refl _) he'
    · rw [hnext] at he'
      exact hwrite u.id e₀ { e₀ with task } he₀ (Nat.le_refl _) he'
  | _ => exact hsame _ (Pc.next_tasks rfl) he'

/-- A step of a call, as the waiters see it. -/
theorem threadModel_run_closes {s : ThreadState TaskStore Pc} (hsound : Sound config s) {t : Nat} {p : Pc}
    (hp : s.threads.lookup t = some p) {id : TaskId} {e e' : TaskEntry} (he : s.shared.tasks.lookup id = some e)
    (he' : (p.next σ s.shared).1.tasks.lookup id = some e') (hterm : e'.task.status.isTerminal = true) :
    (e.task.status.isTerminal = true ∧ ¬ Marked Pc.notifying s.threads id) ∨
      Marked Pc.notifying (settle s.threads t (p.next σ s.shared).2) id ∨ e.notifications < e'.notifications := by
  rcases next_terminal (hsound.coherent t p hp) he' hterm with ⟨e₀, he₀, hbefore⟩ | ⟨e₀, he₀, hclosed⟩
  · rw [he] at he₀
    cases he₀
    by_cases hclosing : Marked Pc.notifying s.threads id
    · rw [Program.marked_settle]
      rcases (Program.marked_split hp).mp hclosing with hself | hother
      · rcases Pc.next_notifying hself he he' with hnext | hrung
        · exact Or.inr (Or.inl (Or.inl hnext))
        · exact Or.inr (Or.inr hrung)
      · exact Or.inr (Or.inl (Or.inr hother))
    · exact Or.inl ⟨hbefore, hclosing⟩
  · right
    left
    rw [Program.marked_settle]
    obtain ⟨q, hq, hmark⟩ := Option.bind_eq_some_iff.mp hclosed
    rw [hq]
    exact Or.inl (Pc.notifying_of_closingFirst hmark)

theorem threadModel_notifying (σ : Sharding) (config : TaskStoreConfig) :
    Notifying (threadModel σ config) (fun s id => Marked Pc.inserts s.threads id)
      fun s id => Marked Pc.notifying s.threads id where
  empty := rfl
  draws s a s' id ha hdrawn := by
    rcases Program.step_cases ha with ⟨t, p, rfl, hnone, hstart, rfl⟩ | ⟨t, i, p, shared, p', rfl, hp, -, hnext, rfl⟩
    · have hinsert : s.threads.insert t p = settle s.threads t (some p) := rfl
      rw [hinsert, Program.marked_settle] at hdrawn
      rcases hdrawn with hself | ⟨u, q, -, hu, hq⟩
      · right
        cases p with
        | createLoad c => exact hself
        | createCas | createEntry | createAdd | createLoadBytes | createAddBytes | createInsert => cases hstart
        | _ => cases hself
      · exact Or.inl ⟨u, q, hu, hq⟩
    · obtain ⟨rfl, rfl⟩ := threadProgram_next hnext
      rw [Program.marked_settle] at hdrawn
      rcases hdrawn with hself | ⟨u, q, -, hu, hq⟩
      · obtain ⟨q, hq, hmark⟩ := Option.bind_eq_some_iff.mp hself
        exact Or.inl ⟨t, p, hp, ((next_goes hq).inserts hmark).1⟩
      · exact Or.inl ⟨u, q, hu, hq⟩
  away s id hs hdrawn := by
    obtain ⟨t, p, hp, hmark⟩ := hdrawn
    exact ((reachable_sound hs).fresh t p id hp hmark).1
  appears s a s' id e hs ha hnone he := by
    rcases Program.step_cases ha with ⟨t, p, rfl, -, -, rfl⟩ | ⟨t, i, p, shared, p', rfl, hp, -, hnext, rfl⟩
    · have hstored : s.shared.tasks.lookup id = some e := he
      have haway : s.shared.tasks.lookup id = none := hnone
      rw [haway] at hstored
      cases hstored
    · obtain ⟨rfl, rfl⟩ := threadProgram_next hnext
      by_cases hins : ∀ c task, p = .createInsert c task → c.id ≠ id
      · have haway := (next_taskMove σ s.shared p).lookup_none hnone hins
        have hstored : (p.next σ s.shared).1.tasks.lookup id = some e := he
        rw [haway] at hstored
        cases hstored
      · push Not at hins
        obtain ⟨c, task, rfl, rfl⟩ := hins
        exact Or.inl ⟨t, _, hp, rfl⟩
  rings s a s' id e e' hs ha he he' := by
    rcases Program.step_cases ha with ⟨t, p, rfl, -, -, rfl⟩ | ⟨t, i, p, shared, p', rfl, hp, -, hnext, rfl⟩
    · have hsame : some e = some e' := he.symm.trans he'
      cases hsame
      exact Nat.le_refl _
    · obtain ⟨rfl, rfl⟩ := threadProgram_next hnext
      refine Pc.next_notifications ?_ he he'
      rintro c task rfl rfl
      have hstored : s.shared.tasks.lookup c.id = some e := he
      rw [((reachable_sound hs).fresh t _ c.id hp rfl).1] at hstored
      cases hstored
  closes s a s' id e e' hs ha he he' hterm := by
    rcases Program.step_cases ha with ⟨t, p, rfl, hnone, -, rfl⟩ | ⟨t, i, p, shared, p', rfl, hp, -, hnext, rfl⟩
    · have hsame : some e = some e' := he.symm.trans he'
      cases hsame
      by_cases hclosing : Marked Pc.notifying s.threads id
      · right
        left
        obtain ⟨u, q, hu, hq⟩ := hclosing
        refine ⟨u, q, ?_, hq⟩
        rw [AList.lookup_insert_ne]
        · exact hu
        · rintro rfl
          rw [hnone] at hu
          cases hu
      · exact Or.inl ⟨hterm, hclosing⟩
    · obtain ⟨rfl, rfl⟩ := threadProgram_next hnext
      exact threadModel_run_closes (reachable_sound hs) hp he he' hterm

/-- No waiter is suspended over a terminal task without a notification on its way, and what a waiter returns is
terminal: beside the store whose operations are single steps, and beside the one whose operations are cut at
their accesses, where the notification may also be still to come from the call that holds the task's entry. -/
theorem no_lost_wakeup :
    (∀ s, (waitMachine (storeModel config)).Reachable s →
      (∀ w id seen e, s.waiters.lookup w = some (.suspended id seen) → s.store.tasks.lookup id = some e →
        e.task.status.isTerminal = true → seen < s.handles id) ∧
      ∀ w t, s.waiters.lookup w = some (.returned (.ok t)) → t.status.isTerminal = true) ∧
    ∀ s, (waitMachine (threadModel σ config)).Reachable s →
      (∀ w id seen e, s.waiters.lookup w = some (.suspended id seen) → s.store.shared.tasks.lookup id = some e →
        e.task.status.isTerminal = true →
        seen < s.handles id ∨
          ∃ t p, s.store.threads.lookup t = some p ∧ p.notifying = some id ∧
            (Lock.tasks (σ.tasks id), WaitGraph.Mode.write) ∈ p.held σ) ∧
      ∀ w t, s.waiters.lookup w = some (.returned (.ok t)) → t.status.isTerminal = true := by
  refine ⟨fun s h => ?_, fun s h => ?_⟩
  · obtain ⟨-, hawake⟩ := reachable_awake (storeModel_notifying config) h
    refine ⟨fun w id seen e hw he hterm => ?_, hawake.answered⟩
    rcases hawake.covered w _ id seen e hw rfl he hterm with hpending | hclosing
    · exact hpending
    · exact hclosing.elim
  · obtain ⟨-, hawake⟩ := reachable_awake (threadModel_notifying σ config) h
    refine ⟨fun w id seen e hw he hterm => ?_, hawake.answered⟩
    rcases hawake.covered w _ id seen e hw rfl he hterm with hpending | ⟨t, p, hp, hmark⟩
    · exact Or.inl hpending
    · exact Or.inr ⟨t, p, hp, hmark, Pc.held_of_notifying hmark⟩

end

/-! ### A waiter that is woken -/

section

attribute [local instance] Sample.f64Fmt Sample.sha256

/-- A waiter goes to sleep on a stored task, and the task fails. -/
def Sample.sleeper : List (WaitAct StoreOp) :=
  [WaitAct.store (StoreOp.create "tg_1" 0 request request principal none .deny), .wait 0 "tg_1"] ++
    List.replicate 4 (WaitAct.run 0 false) ++
    [WaitAct.store (StoreOp.fail 1 "tg_1" ⟨.upstreamError, "connection refused", true⟩)]

/-- What a sleeping waiter waits for. -/
def Sample.sleepsOn : WaitPc → Option (TaskId × Nat)
  | .suspended id seen => some (id, seen)
  | _ => none

theorem Sample.sleepsOn_eq {p : WaitPc} {id : TaskId} {seen : Nat} (h : sleepsOn p = some (id, seen)) :
    p = .suspended id seen := by
  cases p with
  | suspended =>
    cases h
    rfl
  | _ => cases h

theorem no_lost_wakeup_sample :
    ∃ s : WaitState TaskStore, (waitMachine (storeModel {})).Reachable s ∧
      s.waiters.lookup 0 = some (.suspended "tg_1" 0) ∧
      (s.store.tasks.lookup "tg_1").any (·.task.status.isTerminal) = true ∧ 0 < s.handles "tg_1" := by
  have hrun : ((waitMachine (storeModel {})).exec (waitMachine (storeModel {})).init Sample.sleeper).any (fun s =>
      decide ((s.waiters.lookup 0).bind Sample.sleepsOn = some ("tg_1", 0)) &&
        (s.store.tasks.lookup "tg_1").any (·.task.status.isTerminal)) = true := by
    decide
  obtain ⟨s, hreach, htest⟩ := Machine.exists_reachable_of_exec hrun
  obtain ⟨hsleeps, hterm⟩ := Bool.and_eq_true_iff.mp htest
  obtain ⟨p, hp, hseen⟩ := Option.bind_eq_some_iff.mp (of_decide_eq_true hsleeps)
  rw [Sample.sleepsOn_eq hseen] at hp
  obtain ⟨e, he, hclosed⟩ := (Option.any_eq_true ..).mp hterm
  obtain ⟨hatomic, -⟩ := @no_lost_wakeup _ _ Sample.sharding {}
  exact ⟨s, hreach, hp, hterm, (hatomic s hreach).1 0 "tg_1" 0 e hp he hclosed⟩

end

end ThoughtGate
