import ThoughtGate.Lib.Machine
import ThoughtGate.Lib.Table
import ThoughtGate.Lib.WaitGraph

/-!
# Threads over a shared state

A `Program` says what a thread does: where it may start, what its next atomic step makes of the shared state
and of itself, which locks it holds and which one it must get for the next step. Its `machine` interleaves any
number of such threads; a step that needs a lock happens only when no other thread holds it in a conflicting
mode, and it takes the lock by moving to a program counter that holds it.

Five rules: `step_cases` (a step is a start, or one thread's step that leaves the others alone),
`total_invariant` (a relation between the shared state and the threads' total weight is shown one thread at a
time), `each_invariant` (a relation between the shared state and each thread), `reachable_of_simulation` (a
program with finer steps) and `not_deadlocked` (ranks on the program counters).
-/

open WaitGraph (Mode WaitsFor Deadlocked)

/-- The shared state and the program counters of the running threads. -/
structure ThreadState (S P : Type) where
  shared : S
  threads : Table Nat P

/-- A thread starts, or takes its next step on an input from outside. -/
inductive ThreadAct (P I : Type) where
  | spawn (t : Nat) (p : P)
  | run (t : Nat) (i : I)

/-- What the threads do. `next` is `none` where the thread cannot take that input, and its second component is
`none` when the thread is finished. -/
structure Program (S P I Lock : Type) where
  init : S
  start : S → Table Nat P → P → Bool
  next : S → P → I → Option (S × Option P)
  held : P → List (Lock × Mode)
  wants : P → Option (Lock × Mode)

namespace Program

variable {S P I Lock : Type} [DecidableEq Lock] (A : Program S P I Lock)

/-- No other thread holds the lock in a conflicting mode. -/
def free (threads : Table Nat P) (t : Nat) (l : Lock) (m : Mode) : Bool :=
  threads.entries.all fun e => e.1 == t || (A.held e.2).all fun h => !(h.1 == l && m.conflicts h.2)

/-- The thread has what it needs for its next step. -/
def ready (threads : Table Nat P) (t : Nat) (p : P) : Bool :=
  match A.wants p with
  | none => true
  | some (l, m) => A.free threads t l m

/-- Write back a thread after its step. -/
def settle (threads : Table Nat P) (t : Nat) : Option P → Table Nat P
  | none => threads.erase t
  | some p => threads.insert t p

def machine : Machine (ThreadState S P) (ThreadAct P I) where
  init := ⟨A.init, ∅⟩
  step s
    | .spawn t p =>
      if s.threads.lookup t = none ∧ A.start s.shared s.threads p = true then
        some { s with threads := s.threads.insert t p }
      else none
    | .run t i =>
      match s.threads.lookup t with
      | none => none
      | some p =>
        if A.ready s.threads t p then
          match A.next s.shared p i with
          | none => none
          | some (shared, p') => some ⟨shared, settle s.threads t p'⟩
        else none

/-- The locks that the threads of a state hold. -/
def holds (s : ThreadState S P) (t : Nat) (l : Lock) (m : Mode) : Prop :=
  ∃ p, s.threads.lookup t = some p ∧ (l, m) ∈ A.held p

/-- The locks that the threads of a state need next. -/
def waits (s : ThreadState S P) (t : Nat) : Option (Lock × Mode) := (s.threads.lookup t).bind A.wants

variable {A}

theorem step_cases {s s' : ThreadState S P} {a : ThreadAct P I} (h : A.machine.step s a = some s') :
    (∃ t p, a = .spawn t p ∧ s.threads.lookup t = none ∧ A.start s.shared s.threads p = true ∧
      s' = { s with threads := s.threads.insert t p }) ∨
    (∃ t i p shared p', a = .run t i ∧ s.threads.lookup t = some p ∧ A.ready s.threads t p = true ∧
      A.next s.shared p i = some (shared, p') ∧ s' = ⟨shared, settle s.threads t p'⟩) := by
  cases a with
  | spawn t p =>
    simp only [machine] at h
    split at h
    · rename_i hok
      cases h
      exact Or.inl ⟨t, p, rfl, hok.1, hok.2, rfl⟩
    · cases h
  | run t i =>
    simp only [machine] at h
    split at h
    · cases h
    · rename_i p hp
      split at h
      · rename_i hready
        split at h
        · cases h
        · rename_i shared p' hnext
          cases h
          exact Or.inr ⟨t, i, p, shared, p', rfl, hp, hready, hnext, rfl⟩
      · cases h

/-- Nobody else holds, in a conflicting mode, the lock that a ready thread needs. -/
theorem not_conflicts_of_ready {threads : Table Nat P} {t u : Nat} {p q : P} {l : Lock} {m m' : Mode}
    (hready : A.ready threads t p = true) (hwants : A.wants p = some (l, m)) (hne : u ≠ t)
    (hq : threads.lookup u = some q) (hheld : (l, m') ∈ A.held q) : m.conflicts m' = false := by
  simp only [ready, hwants, free] at hready
  have hu := List.all_eq_true.mp hready _ (Table.mem_entries_iff (e := ⟨u, q⟩).mpr hq)
  rcases Bool.or_eq_true_iff.mp hu with heq | hall
  · exact absurd (eq_of_beq heq) hne
  · simpa using List.all_eq_true.mp hall _ hheld

theorem settle_lookup_ne (threads : Table Nat P) {t u : Nat} (h : u ≠ t) (p' : Option P) :
    (settle threads t p').lookup u = threads.lookup u := by
  cases p' with
  | none => exact AList.lookup_erase_ne h
  | some p => exact AList.lookup_insert_ne h

@[simp] theorem settle_lookup (threads : Table Nat P) (t : Nat) (p' : Option P) :
    (settle threads t p').lookup t = p' := by
  cases p' with
  | none => exact AList.lookup_erase t threads
  | some p => exact AList.lookup_insert threads

/-- The threads after a step: the one that moved, and the others as they were. -/
theorem settle_cases {threads : Table Nat P} {t : Nat} {p' : Option P} {u : Nat} {q : P}
    (h : (settle threads t p').lookup u = some q) :
    (u = t ∧ p' = some q) ∨ (u ≠ t ∧ threads.lookup u = some q) := by
  by_cases hu : u = t
  · subst hu
    rw [settle_lookup] at h
    exact Or.inl ⟨rfl, h⟩
  · rw [settle_lookup_ne threads hu] at h
    exact Or.inr ⟨hu, h⟩

/-! ### Marks

A mark is what a program counter says about its thread (the item it is working on, say). -/

/-- Some thread carries the mark. -/
def Marked {α : Type} (f : P → Option α) (threads : Table Nat P) (a : α) : Prop :=
  ∃ t p, threads.lookup t = some p ∧ f p = some a

/-- No two threads carry the same mark. -/
def MarkedOnce {α : Type} (f : P → Option α) (threads : Table Nat P) : Prop :=
  ∀ t u p q a, threads.lookup t = some p → threads.lookup u = some q → f p = some a → f q = some a → t = u

section Marks

variable {α : Type} {f : P → Option α} {threads : Table Nat P} {t : Nat} {p : P} {p' : Option P}

/-- The marks after a step are those of the other threads and the new one. -/
theorem marked_settle {a : α} :
    Marked f (settle threads t p') a ↔
      (p'.bind f = some a) ∨ ∃ u q, u ≠ t ∧ threads.lookup u = some q ∧ f q = some a := by
  constructor
  · rintro ⟨u, q, hu, hq⟩
    rcases settle_cases hu with ⟨rfl, rfl⟩ | ⟨hne, hold⟩
    · exact Or.inl hq
    · exact Or.inr ⟨u, q, hne, hold, hq⟩
  · rintro (hnew | ⟨u, q, hne, hold, hq⟩)
    · obtain ⟨q, rfl, hq⟩ := Option.bind_eq_some_iff.mp hnew
      exact ⟨t, q, settle_lookup threads t (some q), hq⟩
    · refine ⟨u, q, ?_, hq⟩
      rw [settle_lookup_ne threads hne, hold]

/-- The marks before a step are those of the other threads and the old one. -/
theorem marked_split (hp : threads.lookup t = some p) {a : α} :
    Marked f threads a ↔ (f p = some a) ∨ ∃ u q, u ≠ t ∧ threads.lookup u = some q ∧ f q = some a := by
  constructor
  · rintro ⟨u, q, hu, hq⟩
    by_cases hut : u = t
    · subst hut
      rw [hp] at hu
      cases hu
      exact Or.inl hq
    · exact Or.inr ⟨u, q, hut, hu, hq⟩
  · rintro (hold | ⟨u, q, -, hu, hq⟩)
    · exact ⟨t, p, hp, hold⟩
    · exact ⟨u, q, hu, hq⟩

/-- A step between unmarked program counters changes no mark. -/
theorem marked_settle_same (hp : threads.lookup t = some p) (hold : f p = none) (hnew : p'.bind f = none) {a : α} :
    Marked f (settle threads t p') a ↔ Marked f threads a := by
  rw [marked_settle, marked_split hp, hold, hnew]

/-- A step to a marked program counter adds its mark. -/
theorem marked_settle_new (hp : threads.lookup t = some p) (hold : f p = none) {b : α} (hnew : p'.bind f = some b)
    {a : α} : Marked f (settle threads t p') a ↔ a = b ∨ Marked f threads a := by
  rw [marked_settle, marked_split hp, hold, hnew]
  simp [eq_comm]

/-- A step from a marked program counter to an unmarked one takes its mark away. -/
theorem marked_settle_gone (hp : threads.lookup t = some p) (honce : MarkedOnce f threads) {b : α}
    (hold : f p = some b) (hnew : p'.bind f = none) {a : α} :
    Marked f (settle threads t p') a ↔ Marked f threads a ∧ a ≠ b := by
  rw [marked_settle, marked_split hp, hold, hnew]
  constructor
  · rintro (hcontra | ⟨u, q, hne, hu, hq⟩)
    · cases hcontra
    · refine ⟨Or.inr ⟨u, q, hne, hu, hq⟩, ?_⟩
      rintro rfl
      exact hne (honce u t q p a hu hp hq hold)
  · rintro ⟨hsame | hother, hne⟩
    · exact absurd (Option.some.inj hsame).symm hne
    · exact Or.inr hother

/-- The marks stay distinct when a step brings a new one or none. -/
theorem markedOnce_settle (honce : MarkedOnce f threads) (hnew : ∀ a, p'.bind f = some a → ¬ Marked f threads a) :
    MarkedOnce f (settle threads t p') := by
  intro u v q r a hu hv hq hr
  rcases settle_cases hu with ⟨rfl, rfl⟩ | ⟨-, hu'⟩
  · rcases settle_cases hv with ⟨rfl, -⟩ | ⟨-, hv'⟩
    · rfl
    · exact absurd ⟨v, r, hv', hr⟩ (hnew a hq)
  · rcases settle_cases hv with ⟨rfl, rfl⟩ | ⟨-, hv'⟩
    · exact absurd ⟨u, q, hu', hq⟩ (hnew a hr)
    · exact honce u v q r a hu' hv' hq hr

/-- A thread that starts unmarked changes no mark. -/
theorem marked_insert (hnone : threads.lookup t = none) (hp : f p = none) {a : α} :
    Marked f (threads.insert t p) a ↔ Marked f threads a := by
  have hsettle : threads.insert t p = settle threads t (some p) := rfl
  rw [hsettle, marked_settle]
  constructor
  · rintro (hcontra | ⟨u, q, -, hu, hq⟩)
    · rw [Option.bind_some, hp] at hcontra
      cases hcontra
    · exact ⟨u, q, hu, hq⟩
  · rintro ⟨u, q, hu, hq⟩
    refine Or.inr ⟨u, q, ?_, hu, hq⟩
    rintro rfl
    rw [hnone] at hu
    cases hu

end Marks

/-! ### A thread by itself -/

/-- Run one thread to its end on a list of inputs. -/
def solo (A : Program S P I Lock) : S → P → List I → Option S
  | _, _, [] => none
  | s, p, i :: is =>
    match A.next s p i with
    | none => none
    | some (s', none) => if is.isEmpty then some s' else none
    | some (s', some p') => solo A s' p' is

theorem settle_insert (threads : Table Nat P) (t : Nat) (p : P) (p' : Option P) :
    settle (threads.insert t p) t p' = settle threads t p' := by
  cases p' with
  | none =>
    apply AList.ext
    simp [settle, AList.erase, AList.insert, List.kinsert]
  | some q =>
    apply AList.ext
    simp [settle, AList.insert, List.kinsert]

theorem settle_none_of_new {threads : Table Nat P} {t : Nat} (h : threads.lookup t = none) :
    settle threads t none = threads := by
  apply AList.ext
  have hkeys : t ∉ threads.entries.keys := AList.lookup_eq_none.mp h
  simp [settle, AList.erase, List.kerase_of_notMem_keys hkeys]

/-- The only thread waits for no lock. -/
theorem step_alone {s s' : S} {t : Nat} {p : P} {p' : Option P} {i : I} (h : A.next s p i = some (s', p')) :
    A.machine.step ⟨s, settle ∅ t (some p)⟩ (.run t i) = some ⟨s', settle ∅ t p'⟩ := by
  have hready : A.ready (settle ∅ t (some p)) t p = true := by
    unfold ready
    split
    · rfl
    · simp [free, settle, AList.insert, List.kinsert]
  have hsettle : settle (settle ∅ t (some p)) t p' = settle ∅ t p' := settle_insert ∅ t p p'
  simp only [machine, settle_lookup, hready, if_true, h, hsettle]

/-- What one thread does by itself it can do among others, when it needs no lock. -/
theorem exec_of_solo (hfree : ∀ p, A.wants p = none) {s s' : S} {p : P} {is : List I} {threads : Table Nat P}
    {t : Nat} (hnone : threads.lookup t = none) (h : A.solo s p is = some s') :
    A.machine.exec ⟨s, threads.insert t p⟩ (is.map (.run t)) = some ⟨s', threads⟩ := by
  induction is generalizing s p with
  | nil => cases h
  | cons i is ih =>
    have hready : A.ready (threads.insert t p) t p = true := by rw [ready, hfree]
    rw [solo] at h
    split at h
    · cases h
    · rename_i s'' hnext
      split at h
      · rename_i hend
        cases h
        rw [List.isEmpty_iff.mp hend]
        simp only [List.map_cons, List.map_nil, Machine.exec, machine, AList.lookup_insert, hready, if_true, hnext,
          settle_insert, settle_none_of_new hnone, Option.bind_some]
      · cases h
    · rename_i s'' p'' hnext
      rw [← ih h]
      simp only [List.map_cons, Machine.exec, machine, AList.lookup_insert, hready, if_true, hnext, settle_insert,
        Option.bind_some]
      rfl

/-! ### Totals over the threads -/

/-- The weight of a thread after its step. -/
def weigh (f : P → Nat) (p' : Option P) : Nat := p'.elim 0 f

@[simp] theorem weigh_none (f : P → Nat) : weigh f none = 0 := rfl
@[simp] theorem weigh_some (f : P → Nat) (p : P) : weigh f (some p) = f p := rfl

theorem total_settle (f : P → Nat) {threads : Table Nat P} {t : Nat} {p : P} (h : threads.lookup t = some p)
    (p' : Option P) :
    Table.total (fun _ q => f q) (settle threads t p') + f p =
      Table.total (fun _ q => f q) threads + weigh f p' := by
  cases p' with
  | none =>
    rw [Table.total_erase (fun _ q => f q) h]
    simp only [settle, weigh_none]
    omega
  | some q => exact Table.total_insert_old (fun _ q => f q) q h

/-- A relation between the shared state and the total weight of the threads holds in every reached state when
starting adds no weight and each step keeps the relation, the other threads' weight being what it is. -/
theorem total_invariant {ok : ThreadState S P → ThreadAct P I → Prop} {R : S → Nat → Prop} (f : P → Nat)
    (hinit : R A.init 0)
    (hspawn : ∀ s threads p, A.start s threads p = true → f p = 0)
    (hstep : ∀ s t i p shared p', A.machine.ReachableWhen ok s → ok s (.run t i) →
      s.threads.lookup t = some p → A.next s.shared p i = some (shared, p') →
      R s.shared (f p + Table.total (fun _ q => f q) (s.threads.erase t)) →
      R shared (weigh f p' + Table.total (fun _ q => f q) (s.threads.erase t)))
    {s : ThreadState S P} (h : A.machine.ReachableWhen ok s) :
    R s.shared (Table.total (fun _ q => f q) s.threads) := by
  refine Machine.ReachableWhen.invariant
    (I := fun s => R s.shared (Table.total (fun _ q => f q) s.threads)) hinit ?_ h
  intro s a s' hs hI hok ha
  rcases step_cases ha with ⟨t, p, rfl, hnone, hstart, rfl⟩ | ⟨t, i, p, shared, p', rfl, hp, -, hnext, rfl⟩
  · rw [Table.total_insert_new _ _ hnone, hspawn _ _ _ hstart, Nat.zero_add]
    exact hI
  · have hold := Table.total_erase (fun _ q => f q) hp
    have hnew := total_settle f hp p'
    have hrest : Table.total (fun _ q => f q) (settle s.threads t p') =
        weigh f p' + Table.total (fun _ q => f q) (s.threads.erase t) := by omega
    rw [hold] at hI
    rw [hrest]
    exact hstep s t i p shared p' hs hok hp hnext hI

/-! ### Each thread by itself -/

/-- An invariant of the shared state and a relation of each thread to it: a thread starts related, and a step leaves its own
thread related and the others as well. -/
theorem each_invariant {J : S → Prop} {R : S → P → Prop} (hinit : J A.init)
    (hspawn : ∀ s threads p, A.start s threads p = true → R s p)
    (hstep : ∀ s p i shared p', J s → R s p → A.next s p i = some (shared, p') →
      J shared ∧ (∀ q ∈ p', R shared q) ∧ ∀ q, R s q → R shared q)
    {s : ThreadState S P} (h : A.machine.Reachable s) : J s.shared ∧ s.threads.All fun _ p => R s.shared p := by
  refine Machine.Reachable.invariant (I := fun s => J s.shared ∧ s.threads.All fun _ p => R s.shared p)
    ⟨hinit, Table.All.empty _⟩ ?_ h
  intro s a s' hs ha
  rcases step_cases ha with ⟨t, p, rfl, -, hstart, rfl⟩ | ⟨t, i, p, shared, p', rfl, hp, -, hnext, rfl⟩
  · exact ⟨hs.1, hs.2.insert (hspawn _ _ _ hstart)⟩
  · obtain ⟨hJ, hown, hothers⟩ := hstep _ _ _ _ _ hs.1 (hs.2 t p hp) hnext
    refine ⟨hJ, fun u q hq => ?_⟩
    rcases settle_cases hq with ⟨rfl, rfl⟩ | ⟨-, hold⟩
    · exact hown q rfl
    · exact hothers q (hs.2 u q hold)

/-! ### Programs that do the same -/

/-- A program whose steps are those of another or none at all, when its shared state and its threads are seen through two
functions: its runs are runs of the other, thread by thread. -/
theorem reachable_of_simulation {S' P' I' Lock' : Type} [DecidableEq Lock'] {B : Program S' P' I' Lock'} (f : S' → S)
    (g : P' → P) (hinit : f B.init = A.init) (hfree : ∀ p, A.wants p = none)
    (hstart : ∀ s threads threads' p, B.start s threads p = true → A.start (f s) threads' (g p) = true)
    (hstep : ∀ s p i shared p', B.next s p i = some (shared, p') →
      (f shared = f s ∧ p'.map g = some (g p)) ∨ ∃ j, A.next (f s) (g p) j = some (f shared, p'.map g))
    {s : ThreadState S' P'} (h : B.machine.Reachable s) :
    ∃ threads, A.machine.Reachable ⟨f s.shared, threads⟩ ∧ ∀ t, threads.lookup t = (s.threads.lookup t).map g := by
  refine Machine.Reachable.invariant (I := fun s => ∃ threads, A.machine.Reachable ⟨f s.shared, threads⟩ ∧
    ∀ t, threads.lookup t = (s.threads.lookup t).map g) ⟨∅, ?_, fun _ => rfl⟩ ?_ h
  · have hstate : (⟨f B.machine.init.shared, ∅⟩ : ThreadState S P) = A.machine.init := by
      simp only [machine, hinit]
    rw [hstate]
    exact .init
  · intro s a s' ⟨threads, hreach, hsame⟩ ha
    rcases step_cases ha with ⟨t, p, rfl, hnone, hstarts, rfl⟩ | ⟨t, i, p, shared, p', rfl, hp, -, hnext, rfl⟩
    · have hnone' : threads.lookup t = none := by rw [hsame, hnone, Option.map_none]
      refine ⟨threads.insert t (g p), hreach.step (l := .spawn t (g p)) (if_pos ⟨hnone', hstart _ _ _ _ hstarts⟩), ?_⟩
      intro u
      by_cases hu : u = t
      · rw [hu, AList.lookup_insert, AList.lookup_insert, Option.map_some]
      · rw [AList.lookup_insert_ne hu, AList.lookup_insert_ne hu, hsame]
    · have hp' : threads.lookup t = some (g p) := by rw [hsame, hp, Option.map_some]
      rcases hstep _ _ _ _ _ hnext with ⟨hstill, hpc⟩ | ⟨j, hmoved⟩
      · refine ⟨threads, ?_, ?_⟩
        · rw [hstill]
          exact hreach
        · intro u
          by_cases hu : u = t
          · rw [hu, settle_lookup, hp', hpc]
          · rw [settle_lookup_ne _ hu, hsame]
      · refine ⟨settle threads t (p'.map g), hreach.step (l := .run t j) ?_, ?_⟩
        · have hready : A.ready threads t (g p) = true := by simp only [ready, hfree]
          simp only [machine, hp', hready, if_true, hmoved]
        · intro u
          by_cases hu : u = t
          · rw [hu, settle_lookup, settle_lookup]
          · rw [settle_lookup_ne _ hu, settle_lookup_ne _ hu, hsame]

/-! ### Deadlocks -/

omit [DecidableEq Lock] in
/-- Program counters that carry ranks growing along every wait exclude a deadlock. -/
theorem not_deadlocked {s : ThreadState S P} (rank : P → Nat)
    (hrank : ∀ t u p q l m m', t ≠ u → s.threads.lookup t = some p → s.threads.lookup u = some q →
      A.wants p = some (l, m) → (l, m') ∈ A.held q → m.conflicts m' = true → (A.wants q).isSome →
      rank p < rank q)
    (T : Set Nat) : ¬ Deadlocked (A.holds s) (A.waits s) T := by
  intro hdead
  -- every deadlocked thread is one of the finitely many running ones
  have hfin : T.Finite := by
    refine Set.Finite.subset (List.finite_toSet s.threads.keys) ?_
    intro t ht
    obtain ⟨u, _, htu⟩ := hdead.2 t ht
    have hwait := htu.waiting
    unfold waits at hwait
    cases hp : s.threads.lookup t with
    | none => simp [hp] at hwait
    | some p =>
      have hmem : t ∈ s.threads := by
        rw [← AList.lookup_isSome, hp]
        rfl
      exact hmem
  refine WaitGraph.not_deadlocked_of_rank hfin (fun t => ((s.threads.lookup t).map rank).getD 0) ?_ hdead
  intro t u ⟨hne, l, m, m', hw, ⟨q, hq, hheld⟩, hconf⟩ hu
  unfold waits at hw hu
  obtain ⟨p, hp, hwp⟩ := Option.bind_eq_some_iff.mp hw
  rw [hq, Option.bind_some] at hu
  simp only [hp, hq, Option.map_some, Option.getD_some]
  exact hrank t u p q l m m' hne hp hq hwp hheld hconf hu

end Program
