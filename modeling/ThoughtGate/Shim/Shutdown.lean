import ThoughtGate.Lib.Machine
import ThoughtGate.Lib.Table
import Mathlib.Logic.Function.Basic

/-!
# How the shims learn of a shutdown

`wrap` sets a flag of the governance service (`governance/service.rs`), and the shims find it in the answers to their
requests: `heartbeat_loop` (`shim/proxy/heartbeat.rs`) asks every few seconds, `agent_to_server` asks about every message.
A shim has one signal for all its tasks; the two loops set it, and end when they see it.

`coordination` is the machine of the service, any number of shims and the requests between them, in any order, with
requests that fail and answers that do not decode. The flag is read at the end of `heartbeat_handler`, after it has swept
the table of shims, but at the beginning of `evaluate_handler`, before the gates. So an answer that is still on its way when
the flag is set may not show it, and it is the only one (`shutdown_reaches_shims`).
-/

namespace ThoughtGate

namespace Shim

/-- The loops of a shim that ask the service. -/
inductive Asking where
  | heartbeat
  | evaluate
deriving DecidableEq

/-- How far a request has come: the handler of a heartbeat reads the flag when it answers, that of an evaluation before it
evaluates. -/
inductive Stage where
  | sent
  | evaluating (shutdown : Bool)
  | answered (shutdown : Bool)
deriving DecidableEq

/-- A request to the service, and whether the flag was set when it was sent. -/
structure Inquiry where
  asking : Asking
  late : Bool
  stage : Stage
deriving DecidableEq

/-- Where a loop stands: at its `select!`, with a message or a tick in hand, waiting for the answer to a request, ended. -/
inductive LoopPc where
  | selecting
  | taken
  | waiting (request : Nat)
  | ended
deriving DecidableEq

/-- A loop of a shim. -/
abbrev Loop := Nat × Asking

/-- The flag of the service, the requests by their numbers, the loops and signals of the shims. For the record: whose
heartbeat has failed, and how many answers a loop has taken that did not show a flag that was set. -/
structure Coordination where
  shutdown : Bool := false
  requests : Table Nat Inquiry := ∅
  next : Nat := 0
  loops : Loop → LoopPc := fun _ => .selecting
  signal : Nat → Bool := fun _ => false
  failed : Nat → Bool := fun _ => false
  missed : Loop → Nat := fun _ => 0

inductive CoordinationAct where
  | trigger
  | take (l : Loop)
  | post (l : Loop)
  | serve (request : Nat)
  | receive (l : Loop)
  | garble (l : Loop)
  | fail (l : Loop)
  | observe (l : Loop)
  | quit (l : Loop)
deriving DecidableEq

namespace Coordination

def move (s : Coordination) (l : Loop) (pc : LoopPc) : Coordination := { s with loops := Function.update s.loops l pc }

/-- `shutdown_tx.send(true)`. -/
def alert (s : Coordination) (shim : Nat) : Coordination := { s with signal := Function.update s.signal shim true }

/-- A step of the handler of a request. -/
def served (shutdown : Bool) (r : Inquiry) : Option Inquiry :=
  match r.stage, r.asking with
  | .sent, .heartbeat => some { r with stage := .answered shutdown }
  | .sent, .evaluate => some { r with stage := .evaluating shutdown }
  | .evaluating b, _ => some { r with stage := .answered b }
  | .answered _, _ => none

/-- What a loop does with an answer that shows the flag: the loop of heartbeats ends at once. -/
def told (s : Coordination) (l : Loop) : Coordination :=
  match l.2 with
  | .heartbeat => (s.alert l.1).move l .ended
  | .evaluate => (s.alert l.1).move l .selecting

/-- What it does with one that does not. -/
def untold (s : Coordination) (l : Loop) : Coordination :=
  { s.move l .selecting with missed := if s.shutdown then Function.update s.missed l (s.missed l + 1) else s.missed }

/-- A handler keeps what a request is about. It reads the flag once, with its first step; the second step of an evaluation
answers with what the first one has read. -/
theorem served_cases {shutdown : Bool} {r r' : Inquiry} (h : served shutdown r = some r') : r'.late = r.late ∧
    (r.stage = .sent ∧ r'.stage = .answered shutdown ∨ r.stage = .sent ∧ r'.stage = .evaluating shutdown ∨
      ∃ b, r.stage = .evaluating b ∧ r'.stage = .answered b) := by
  unfold served at h
  split at h
  · rename_i hstage _
    cases h
    exact ⟨rfl, Or.inl ⟨hstage, rfl⟩⟩
  · rename_i hstage _
    cases h
    exact ⟨rfl, Or.inr (Or.inl ⟨hstage, rfl⟩)⟩
  · rename_i b hstage
    cases h
    exact ⟨rfl, Or.inr (Or.inr ⟨b, hstage, rfl⟩)⟩
  · cases h

def step (s : Coordination) : CoordinationAct → Option Coordination
  | .trigger => some { s with shutdown := true }
  | .take l => if s.loops l = .selecting ∧ s.signal l.1 = false then some (s.move l .taken) else none
  | .post l =>
    if s.loops l = .taken then
      some { s.move l (.waiting s.next) with
        requests := s.requests.insert s.next ⟨l.2, s.shutdown, .sent⟩, next := s.next + 1 }
    else none
  | .serve k =>
    match s.requests.lookup k with
    | none => none
    | some r => (served s.shutdown r).map fun r' => { s with requests := s.requests.insert k r' }
  | .receive l =>
    match s.loops l with
    | .waiting k =>
      match s.requests.lookup k with
      | some ⟨_, _, .answered true⟩ => some (s.told l)
      | some ⟨_, _, .answered false⟩ => some (s.untold l)
      | _ => none
    | _ => none
  | .garble l =>
    match s.loops l with
    | .waiting _ => some (s.move l .selecting)
    | _ => none
  | .fail l =>
    match s.loops l, l.2 with
    | .waiting _, .heartbeat =>
      some { (s.alert l.1).move l .ended with failed := Function.update s.failed l.1 true }
    | .waiting _, .evaluate => some (s.move l .selecting)
    | _, _ => none
  | .observe l => if s.loops l = .selecting ∧ s.signal l.1 = true then some (s.move l .ended) else none
  | .quit l => some (s.move l .ended)

end Coordination

/-- The service and its shims. -/
def coordination : Machine Coordination CoordinationAct where
  init := {}
  step s a := s.step a

/-! ### What holds in every run -/

/-- A signal has a cause; a request that was sent when the flag was set is never answered without it, and only such an
answer shows it; a loop that has missed the flag once waits for an answer that shows it. -/
structure Coordinated (s : Coordination) : Prop where
  signal : ∀ i, s.signal i = true → s.shutdown = true ∨ s.failed i = true
  fresh : ∀ k, s.next ≤ k → s.requests.lookup k = none
  late : ∀ k r, s.requests.lookup k = some r → r.late = true → r.stage ≠ .evaluating false ∧ r.stage ≠ .answered false
  shown : ∀ k r, s.requests.lookup k = some r → r.stage = .evaluating true ∨ r.stage = .answered true →
    s.shutdown = true
  early : s.shutdown = false → (∀ l, s.missed l = 0) ∧ ∀ k r, s.requests.lookup k = some r → r.late = false
  waits : ∀ l k, s.loops l = .waiting k → ∃ r, s.requests.lookup k = some r ∧ (0 < s.missed l → r.late = true)
  missed : ∀ l, s.missed l ≤ 1

namespace Coordinated

variable {s : Coordination} {l : Loop}

theorem init : Coordinated {} where
  signal _ h := by cases h
  fresh _ _ := rfl
  late _ _ h := by cases h
  shown _ _ h := by cases h
  early _ := ⟨fun _ => rfl, fun _ _ h => by cases h⟩
  waits _ _ h := by cases h
  missed _ := Nat.zero_le 1

/-- A loop that waits for nothing. -/
theorem move (h : Coordinated s) {pc : LoopPc} (hpc : ∀ k, pc ≠ .waiting k) : Coordinated (s.move l pc) where
  signal := h.signal
  fresh := h.fresh
  late := h.late
  shown := h.shown
  early := h.early
  waits l' k hl' := by
    by_cases heq : l' = l
    · subst heq
      simp only [Coordination.move, Function.update_self] at hl'
      exact absurd hl' (hpc k)
    · simp only [Coordination.move, Function.update_of_ne heq] at hl'
      exact h.waits l' k hl'
  missed := h.missed

theorem alert (h : Coordinated s) {shim : Nat} (hcause : s.shutdown = true ∨ s.failed shim = true) :
    Coordinated (s.alert shim) where
  signal i hi := by
    by_cases heq : i = shim
    · subst heq
      exact hcause
    · simp only [Coordination.alert, Function.update_of_ne heq] at hi
      exact h.signal i hi
  fresh := h.fresh
  late := h.late
  shown := h.shown
  early := h.early
  waits := h.waits
  missed := h.missed

theorem told (h : Coordinated s) (hshutdown : s.shutdown = true) : Coordinated (s.told l) := by
  have halert : Coordinated (s.alert l.1) := h.alert (Or.inl hshutdown)
  unfold Coordination.told
  split
  · exact halert.move nofun
  · exact halert.move nofun

/-- A heartbeat that fails is a cause by itself. -/
theorem failed (h : Coordinated s) : Coordinated { s with failed := Function.update s.failed l.1 true } where
  signal i hi := by
    by_cases heq : i = l.1
    · subst heq
      exact Or.inr (Function.update_self ..)
    · rcases h.signal i hi with hshutdown | hfailed
      · exact Or.inl hshutdown
      · exact Or.inr ((Function.update_of_ne heq ..).trans hfailed)
  fresh := h.fresh
  late := h.late
  shown := h.shown
  early := h.early
  waits := h.waits
  missed := h.missed

/-- An answer without the flag is one to an early request, so that it is the first that the loop misses. -/
theorem untold (h : Coordinated s) {k : Nat} {r : Inquiry} (hl : s.loops l = .waiting k) (hr : s.requests.lookup k = some r)
    (hstage : r.stage = .answered false) : Coordinated (s.untold l) := by
  have hearly : r.late ≠ true := fun hlate => (h.late k r hr hlate).2 hstage
  have hfirst : s.missed l = 0 := by
    obtain ⟨r', hr', hlate⟩ := h.waits l k hl
    rw [hr] at hr'
    cases hr'
    by_contra hne
    exact hearly (hlate (Nat.pos_of_ne_zero hne))
  have hmove : Coordinated (s.move l .selecting) := h.move nofun
  unfold Coordination.untold
  cases hshutdown : s.shutdown with
  | false => exact ⟨hmove.signal, hmove.fresh, hmove.late, hmove.shown, hmove.early, hmove.waits, hmove.missed⟩
  | true =>
    refine ⟨hmove.signal, hmove.fresh, hmove.late, hmove.shown, ?_, ?_, ?_⟩
    · intro hfalse
      exact absurd (hshutdown.symm.trans hfalse) (by decide)
    · intro l' k' hl'
      have hne : l' ≠ l := by
        rintro rfl
        simp [Coordination.move] at hl'
      obtain ⟨r', hr', hlate⟩ := hmove.waits l' k' hl'
      refine ⟨r', hr', ?_⟩
      simpa [Coordination.move, Function.update_of_ne hne] using hlate
    · intro l'
      by_cases heq : l' = l
      · subst heq
        simp [hfirst]
      · simpa [Function.update_of_ne heq] using h.missed l'

theorem trigger (h : Coordinated s) : Coordinated { s with shutdown := true } where
  signal _ _ := Or.inl rfl
  fresh := h.fresh
  late := h.late
  shown _ _ _ _ := rfl
  early hfalse := by cases hfalse
  waits := h.waits
  missed := h.missed

theorem post (h : Coordinated s) : Coordinated { s.move l (.waiting s.next) with
    requests := s.requests.insert s.next ⟨l.2, s.shutdown, .sent⟩, next := s.next + 1 } := by
  have hlookup : ∀ k, (s.requests.insert s.next ⟨l.2, s.shutdown, .sent⟩).lookup k =
      if k = s.next then some ⟨l.2, s.shutdown, .sent⟩ else s.requests.lookup k := by
    intro k
    split
    · rename_i hk
      rw [hk, AList.lookup_insert]
    · rename_i hk
      exact AList.lookup_insert_ne hk
  refine ⟨h.signal, ?_, ?_, ?_, ?_, ?_, h.missed⟩
  · intro k hk
    change s.next + 1 ≤ k at hk
    rw [hlookup, if_neg (by omega)]
    exact h.fresh k (by omega)
  · intro k r hr hlate
    rw [hlookup] at hr
    split at hr
    · cases hr
      exact ⟨nofun, nofun⟩
    · exact h.late k r hr hlate
  · intro k r hr hstage
    rw [hlookup] at hr
    split at hr
    · cases hr
      rcases hstage with hstage | hstage <;> cases hstage
    · exact h.shown k r hr hstage
  · intro hfalse
    refine ⟨(h.early hfalse).1, ?_⟩
    intro k r hr
    rw [hlookup] at hr
    split at hr
    · cases hr
      exact hfalse
    · exact (h.early hfalse).2 k r hr
  · intro l' k hl'
    by_cases heq : l' = l
    · subst heq
      simp only [Coordination.move, Function.update_self, LoopPc.waiting.injEq] at hl'
      refine ⟨_, (hlookup k).trans (if_pos hl'.symm), ?_⟩
      intro hmissed
      by_contra hfalse
      rw [Bool.not_eq_true] at hfalse
      exact absurd ((h.early hfalse).1 l') (Nat.pos_iff_ne_zero.mp hmissed)
    · simp only [Coordination.move, Function.update_of_ne heq] at hl'
      obtain ⟨r, hr, hlate⟩ := h.waits l' k hl'
      refine ⟨r, ?_, hlate⟩
      rw [hlookup, if_neg]
      · exact hr
      · rintro rfl
        rw [h.fresh _ (Nat.le_refl _)] at hr
        cases hr

theorem serve (h : Coordinated s) {k : Nat} {r r' : Inquiry} (hr : s.requests.lookup k = some r)
    (hserved : Coordination.served s.shutdown r = some r') :
    Coordinated { s with requests := s.requests.insert k r' } := by
  obtain ⟨hkept, hreads⟩ := Coordination.served_cases hserved
  have hlookup : ∀ k', (s.requests.insert k r').lookup k' = if k' = k then some r' else s.requests.lookup k' := by
    intro k'
    split
    · rename_i hk
      rw [hk, AList.lookup_insert]
    · rename_i hk
      exact AList.lookup_insert_ne hk
  refine ⟨h.signal, ?_, ?_, ?_, ?_, ?_, h.missed⟩
  · intro k' hk'
    rw [hlookup, if_neg]
    · exact h.fresh k' hk'
    · rintro rfl
      rw [h.fresh _ hk'] at hr
      cases hr
  · intro k' r₁ hr₁ hlate
    rw [hlookup] at hr₁
    split at hr₁
    · cases hr₁
      rw [hkept] at hlate
      have hold := h.late k r hr hlate
      have hshutdown : s.shutdown = true := by
        by_contra hfalse
        rw [Bool.not_eq_true] at hfalse
        exact absurd ((h.early hfalse).2 k r hr) (by rw [hlate]; decide)
      rcases hreads with ⟨_, hnow⟩ | ⟨_, hnow⟩ | ⟨b, hbefore, hnow⟩ <;> rw [hnow]
      · rw [hshutdown]
        exact ⟨nofun, nofun⟩
      · rw [hshutdown]
        exact ⟨nofun, nofun⟩
      · cases b with
        | false => exact absurd hbefore hold.1
        | true => exact ⟨nofun, nofun⟩
    · exact h.late k' r₁ hr₁ hlate
  · intro k' r₁ hr₁ hstage
    rw [hlookup] at hr₁
    split at hr₁
    · cases hr₁
      rcases hreads with ⟨_, hnow⟩ | ⟨_, hnow⟩ | ⟨b, hbefore, hnow⟩ <;> rw [hnow] at hstage
      · simpa using hstage
      · simpa using hstage
      · rcases hstage with hstage | hstage <;> cases hstage
        exact h.shown k r hr (Or.inl hbefore)
    · exact h.shown k' r₁ hr₁ hstage
  · intro hfalse
    refine ⟨(h.early hfalse).1, ?_⟩
    intro k' r₁ hr₁
    rw [hlookup] at hr₁
    split at hr₁
    · cases hr₁
      exact hkept.trans ((h.early hfalse).2 k r hr)
    · exact (h.early hfalse).2 k' r₁ hr₁
  · intro l k' hl
    obtain ⟨r₁, hr₁, hlate⟩ := h.waits l k' hl
    by_cases hk : k' = k
    · subst hk
      rw [hr] at hr₁
      cases hr₁
      exact ⟨r', (hlookup k').trans (if_pos rfl), fun hmissed => hkept.trans (hlate hmissed)⟩
    · exact ⟨r₁, (hlookup k').trans ((if_neg hk).trans hr₁), hlate⟩

theorem step (h : Coordinated s) {a : CoordinationAct} {s' : Coordination} (hstep : s.step a = some s') :
    Coordinated s' := by
  cases a with
  | trigger =>
    cases hstep
    exact h.trigger
  | take l =>
    simp only [Coordination.step] at hstep
    split at hstep
    · cases hstep
      exact h.move nofun
    · cases hstep
  | post l =>
    simp only [Coordination.step] at hstep
    split at hstep
    · cases hstep
      exact h.post
    · cases hstep
  | serve k =>
    simp only [Coordination.step] at hstep
    split at hstep
    · cases hstep
    · rename_i r hr
      obtain ⟨r', hserved, rfl⟩ := Option.map_eq_some_iff.mp hstep
      exact h.serve hr hserved
  | receive l =>
    simp only [Coordination.step] at hstep
    split at hstep
    · rename_i k hl
      split at hstep
      · rename_i hr
        cases hstep
        exact h.told (h.shown k _ hr (Or.inr rfl))
      · rename_i hr
        cases hstep
        exact h.untold hl hr rfl
      · cases hstep
    · cases hstep
  | garble l =>
    simp only [Coordination.step] at hstep
    split at hstep
    · cases hstep
      exact h.move nofun
    · cases hstep
  | fail l =>
    simp only [Coordination.step] at hstep
    split at hstep
    · cases hstep
      have hfailed : Coordinated { s with failed := Function.update s.failed l.1 true } := h.failed
      have halert : Coordinated ({ s with failed := Function.update s.failed l.1 true }.alert l.1) :=
        hfailed.alert (Or.inr (Function.update_self ..))
      exact halert.move nofun
    · cases hstep
      exact h.move nofun
    · cases hstep
  | observe l =>
    simp only [Coordination.step] at hstep
    split at hstep
    · cases hstep
      exact h.move nofun
    · cases hstep
  | quit l =>
    cases hstep
    exact h.move nofun

theorem reachable (h : coordination.Reachable s) : Coordinated s :=
  h.invariant init fun _ _ _ hs hstep => hs.step hstep

end Coordinated

end Shim

/-- A shim is told to end only when the service shuts down or when a heartbeat of its own has failed. Once the flag is set,
a loop takes at most one more answer that does not show it, since such an answer is never one to a request that was sent
after the flag was set, whichever handler serves it and whatever comes between. -/
theorem shutdown_reaches_shims {s : Shim.Coordination} (h : Shim.coordination.Reachable s) :
    (∀ shim, s.signal shim = true → s.shutdown = true ∨ s.failed shim = true) ∧
    (∀ l, s.missed l ≤ 1) ∧
    ∀ l k, s.loops l = .waiting k → ∃ r, s.requests.lookup k = some r ∧
      (r.stage = .answered true → s.shutdown = true) ∧
      (r.stage = .answered false → r.late = false ∧ s.missed l = 0) := by
  have hs := Shim.Coordinated.reachable h
  refine ⟨hs.signal, hs.missed, fun l k hl => ?_⟩
  obtain ⟨r, hr, hwaits⟩ := hs.waits l k hl
  refine ⟨r, hr, fun hanswer => hs.shown k r hr (Or.inr hanswer), fun hanswer => ?_⟩
  have hearly : r.late ≠ true := fun hlate => (hs.late k r hr hlate).2 hanswer
  refine ⟨Bool.not_eq_true _ ▸ hearly, ?_⟩
  by_contra hmissed
  exact hearly (hwaits (Nat.pos_of_ne_zero hmissed))

/-- The flag is set while the gates evaluate a message: that answer does not show it, the next one does. -/
def Sample.missedOnce : List Shim.CoordinationAct :=
  [.take (0, .evaluate), .post (0, .evaluate), .serve 0, .trigger, .serve 0, .receive (0, .evaluate),
    .take (0, .evaluate), .post (0, .evaluate), .serve 1, .serve 1, .receive (0, .evaluate), .observe (0, .evaluate)]

theorem shutdown_reaches_shims_sample :
    ∃ s, Shim.coordination.Reachable s ∧ s.missed (0, .evaluate) = 1 ∧ s.signal 0 = true ∧ s.failed 0 = false ∧
      s.shutdown = true := by
  have hrun : (Shim.coordination.exec Shim.coordination.init Sample.missedOnce).any (fun s =>
      s.missed (0, .evaluate) == 1 && s.signal 0 && !s.failed 0) = true := by
    decide
  obtain ⟨s, hs, htest⟩ := Machine.exists_reachable_of_exec hrun
  simp only [Bool.and_eq_true, beq_iff_eq, Bool.not_eq_true'] at htest
  obtain ⟨⟨hmissed, hsignal⟩, hfailed⟩ := htest
  refine ⟨s, hs, hmissed, hsignal, hfailed, ?_⟩
  rcases (shutdown_reaches_shims hs).1 0 hsignal with hshutdown | hfailed'
  · exact hshutdown
  · exact absurd (hfailed'.symm.trans hfailed) (by decide)

end ThoughtGate
