import ThoughtGate.Lifecycle.Process

/-!
# The probes of readiness

A probe of `/ready` loads the cells of the lifecycle manager one after the other (`readiness_handler` of
`lifecycle/health.rs`), while `main`, the signals and the checker of the upstream store to them. What it answers is true all
the same (`readiness_truthful`): each of the checks in it was so at a moment of the probe, `200` is answered only at a moment
at which the process is ready and has been since `mark_ready`, and with `503` there was a moment of the probe at which
something was missing.

Two answers are only there because of the separate loads: `503` without a reason, and `503` with the state `ready` as its
reason.
-/

namespace ThoughtGate

/-- At some moment from the first to the last it was so. -/
def SeenIn (moments : List Health) (since last : Nat) (P : Health → Prop) : Prop :=
  ∃ i h, since ≤ i ∧ i ≤ last ∧ moments[i]? = some h ∧ P h

/-- Each of the checks was so at some moment. -/
structure ReadinessChecks.Seen (moments : List Health) (since last : Nat) (checks : ReadinessChecks) : Prop where
  config : SeenIn moments since last fun h => h.configLoaded = checks.configLoaded
  upstream : SeenIn moments since last fun h => h.upstreamHealthy = checks.upstreamReachable
  store : SeenIn moments since last fun h => h.approvalStoreInitialized = checks.approvalStoreInitialized

/-- The process is ready for traffic. -/
def Health.Serving (h : Health) : Prop :=
  h.state = .ready ∧ h.configLoaded = true ∧ h.upstreamHealthy = true ∧ h.approvalStoreInitialized = true

/-- An answer is true of the moments of its probe; `readyAt` is the moment of `mark_ready`. -/
structure ReadinessAnswer.Truthful (moments : List Health) (readyAt : Option Nat) (a : ReadinessAnswer) : Prop where
  checks : a.checks.Seen moments a.since a.last
  ready : a.code = 200 → a.checks.allPass = true ∧ ∃ r h, readyAt = some r ∧ r ≤ a.last ∧ moments[a.last]? = some h ∧
    h.configLoaded = true ∧ h.approvalStoreInitialized = true ∧
    ∀ j h, r ≤ j → j ≤ a.last → moments[j]? = some h → h.state = .ready
  notReady : a.code ≠ 200 → a.code = 503 ∧ SeenIn moments a.since a.last (fun h => ¬ h.Serving) ∧
    ((a.reason = some "shutting_down" ∧ SeenIn moments a.since a.last fun h => h.isShuttingDown = true) ∨
      (a.checks.allPass = false ∧ a.reason = a.checks.firstFailure) ∨
      (a.checks.allPass = true ∧ a.reason = none) ∨
      ∃ state, a.checks.allPass = true ∧ a.reason = some ("lifecycle_state: " ++ state.display) ∧
        SeenIn moments a.since a.last fun h => h.state = state)

theorem getElem?_of_prefix {moments moments' : List Health} (hpast : moments <+: moments') {i : Nat} {h : Health}
    (hget : moments[i]? = some h) : moments'[i]? = some h := by
  obtain ⟨rest, rfl⟩ := hpast
  obtain ⟨hlt, -⟩ := List.getElem?_eq_some_iff.mp hget
  rw [List.getElem?_append_left hlt, hget]

theorem SeenIn.mono {moments moments' : List Health} {since last last' : Nat} {P : Health → Prop}
    (h : SeenIn moments since last P) (hpast : moments <+: moments') (hle : last ≤ last') :
    SeenIn moments' since last' P := by
  obtain ⟨i, health, hsince, hlast, hget, hP⟩ := h
  exact ⟨i, health, hsince, hlast.trans hle, getElem?_of_prefix hpast hget, hP⟩

theorem SeenIn.weaken {moments : List Health} {since last : Nat} {P Q : Health → Prop} (h : SeenIn moments since last P)
    (hPQ : ∀ h, P h → Q h) : SeenIn moments since last Q := by
  obtain ⟨i, health, hsince, hlast, hget, hP⟩ := h
  exact ⟨i, health, hsince, hlast, hget, hPQ health hP⟩

theorem ReadinessChecks.Seen.mono {moments moments' : List Health} {since last last' : Nat} {checks : ReadinessChecks}
    (h : checks.Seen moments since last) (hpast : moments <+: moments') (hle : last ≤ last') :
    checks.Seen moments' since last' :=
  ⟨h.config.mono hpast hle, h.upstream.mono hpast hle, h.store.mono hpast hle⟩

/-- A check that does not pass was missing at its moment. -/
theorem ReadinessChecks.Seen.missing {moments : List Health} {since last : Nat} {checks : ReadinessChecks}
    (h : checks.Seen moments since last) (hfail : checks.allPass = false) :
    SeenIn moments since last fun h => ¬ h.Serving := by
  rw [ReadinessChecks.allPass, Bool.and_eq_false_iff, Bool.and_eq_false_iff] at hfail
  rcases hfail with (hfalse | hfalse) | hfalse
  · refine h.config.weaken fun health hsame hserving => ?_
    rw [hserving.2.1, hfalse] at hsame
    cases hsame
  · refine h.upstream.weaken fun health hsame hserving => ?_
    rw [hserving.2.2.1, hfalse] at hsame
    cases hsame
  · refine h.store.weaken fun health hsame hserving => ?_
    rw [hserving.2.2.2, hfalse] at hsame
    cases hsame

/-- What was true of the moments so far stays true. -/
theorem ReadinessAnswer.Truthful.mono {moments moments' : List Health} {readyAt readyAt' : Option Nat} {a : ReadinessAnswer}
    (h : a.Truthful moments readyAt) (hpast : moments <+: moments') (hready : ∀ r, readyAt = some r → readyAt' = some r) :
    a.Truthful moments' readyAt' where
  checks := h.checks.mono hpast (Nat.le_refl _)
  ready hcode := by
    obtain ⟨hpass, r, health, hr, hle, hget, hconfig, hstore, hall⟩ := h.ready hcode
    refine ⟨hpass, r, health, hready r hr, hle, getElem?_of_prefix hpast hget, hconfig, hstore, ?_⟩
    intro j health' hrj hj hget'
    obtain ⟨hlt, -⟩ := List.getElem?_eq_some_iff.mp hget
    obtain ⟨rest, rfl⟩ := hpast
    rw [List.getElem?_append_left (Nat.lt_of_le_of_lt hj hlt)] at hget'
    exact hall j health' hrj hj hget'
  notReady hcode := by
    obtain ⟨h503, hmissing, hreason⟩ := h.notReady hcode
    refine ⟨h503, hmissing.mono hpast (Nat.le_refl _), ?_⟩
    rcases hreason with ⟨hreason, hdown⟩ | hcheck | hnone | ⟨state, hpass, hreason, hstate⟩
    · exact Or.inl ⟨hreason, hdown.mono hpast (Nat.le_refl _)⟩
    · exact Or.inr (Or.inl hcheck)
    · exact Or.inr (Or.inr (Or.inl hnone))
    · exact Or.inr (Or.inr (Or.inr ⟨state, hpass, hreason, hstate.mono hpast (Nat.le_refl _)⟩))

/-! ### The order of the stores -/

/-- How far `main` has come in its startup. -/
def ProxyPc.stage : ProxyPc → Nat
  | .connecting | .failed _ => 0
  | .deadline => 1
  | .markConfigLoaded => 2
  | .markApprovalStoreInitialized => 3
  | .markReady => 4
  | _ => 5

/-- The flags of the startup are set before `mark_ready`, which is called once; and after it a state other than `Ready` is
never followed by `Ready`. -/
structure Startup (stage : Nat) (health : Health) (past : List Health) (readyAt : Option Nat) : Prop where
  config : 3 ≤ stage → health.configLoaded = true
  store : 4 ≤ stage → health.approvalStoreInitialized = true
  checked : health.state = .ready → health.configLoaded = true ∧ health.approvalStoreInitialized = true
  announced : readyAt.isSome = true → stage = 5
  first : ∀ j h, (past ++ [health])[j]? = some h → h.state = .ready → ∃ r, readyAt = some r ∧ r ≤ j
  settled : ∀ r, readyAt = some r → ∀ j k h h', r ≤ j → j ≤ k → (past ++ [health])[j]? = some h →
    (past ++ [health])[k]? = some h' → h'.state = .ready → h.state = .ready

theorem getElem?_concat {past : List Health} {health h : Health} {i : Nat} (hget : (past ++ [health])[i]? = some h) :
    past[i]? = some h ∨ (i = past.length ∧ h = health) := by
  rcases Nat.lt_trichotomy i past.length with hlt | heq | hgt
  · rw [List.getElem?_append_left hlt] at hget
    exact Or.inl hget
  · rw [heq, List.getElem?_concat_length] at hget
    exact Or.inr ⟨heq, (Option.some.inj hget).symm⟩
  · rw [List.getElem?_eq_none (by simp; omega)] at hget
    cases hget

theorem Startup.init : Startup 0 {} [] none where
  config h := absurd h (by decide)
  store h := absurd h (by decide)
  checked h := by cases h
  announced h := by cases h
  first j h hget hready := by
    rcases getElem?_concat hget with hnone | ⟨-, rfl⟩
    · cases hnone
    · cases hready
  settled r hr := by cases hr

namespace Startup

variable {stage stage' : Nat} {health health' : Health} {past : List Health} {readyAt : Option Nat}

/-- A store that takes back no flag and does not make anything ready that is not. -/
theorem store_other (hm : Startup stage health past readyAt) (hstate : health'.state = .ready → health.state = .ready)
    (hflags : health.configLoaded = true → health'.configLoaded = true)
    (hflags' : health.approvalStoreInitialized = true → health'.approvalStoreInitialized = true)
    (hconfig : 3 ≤ stage' → health'.configLoaded = true) (hstore : 4 ≤ stage' → health'.approvalStoreInitialized = true)
    (hannounced : readyAt.isSome = true → stage' = 5) : Startup stage' health' (past ++ [health]) readyAt where
  config := hconfig
  store := hstore
  checked hready := ⟨hflags (hm.checked (hstate hready)).1, hflags' (hm.checked (hstate hready)).2⟩
  announced := hannounced
  first j h hget hready := by
    rcases getElem?_concat hget with hold | ⟨rfl, rfl⟩
    · exact hm.first j h hold hready
    · obtain ⟨r, hr, hle⟩ := hm.first past.length health (List.getElem?_concat_length ..) (hstate hready)
      exact ⟨r, hr, by simp; omega⟩
  settled r hr j k h h' hrj hjk hget hget' hready := by
    rcases getElem?_concat hget' with hold' | ⟨rfl, rfl⟩
    · obtain ⟨hlt, -⟩ := List.getElem?_eq_some_iff.mp hold'
      rw [List.getElem?_append_left (by omega)] at hget
      exact hm.settled r hr j k h h' hrj hjk hget hold' hready
    · rcases getElem?_concat hget with hold | ⟨-, rfl⟩
      · obtain ⟨hlt, -⟩ := List.getElem?_eq_some_iff.mp hold
        rw [List.length_append, List.length_singleton] at hlt
        exact hm.settled r hr j past.length h health hrj (by omega) hold (List.getElem?_concat_length ..) (hstate hready)
      · exact hready

/-- The same without a change of the stage. -/
theorem store_same (hm : Startup stage health past readyAt) (hstate : health'.state = .ready → health.state = .ready)
    (hconfig : health'.configLoaded = health.configLoaded)
    (hstore : health'.approvalStoreInitialized = health.approvalStoreInitialized) :
    Startup stage health' (past ++ [health]) readyAt :=
  hm.store_other hstate (fun h => hconfig.trans h) (fun h => hstore.trans h) (fun h => hconfig.trans (hm.config h))
    (fun h => hstore.trans (hm.store h)) hm.announced

/-- `mark_ready` stores. -/
theorem ready (hm : Startup 4 health past readyAt) :
    Startup 5 { health with state := .ready } (past ++ [health]) (some (past.length + 1)) := by
  have hnone : readyAt = none := by
    cases hr : readyAt with
    | none => rfl
    | some r => exact absurd (hm.announced (by rw [hr]; rfl)) (by decide)
  refine ⟨fun _ => hm.config (by decide), fun _ => hm.store (by decide),
    fun _ => ⟨hm.config (by decide), hm.store (by decide)⟩, fun _ => rfl, ?_, ?_⟩
  · intro j h hget hready
    rcases getElem?_concat hget with hold | ⟨rfl, -⟩
    · obtain ⟨r, hr, -⟩ := hm.first j h hold hready
      rw [hnone] at hr
      cases hr
    · exact ⟨_, rfl, by simp⟩
  · intro r hr j k h h' hrj hjk hget hget' _
    cases hr
    rcases getElem?_concat hget with hold | ⟨-, rfl⟩
    · obtain ⟨hlt, -⟩ := List.getElem?_eq_some_iff.mp hold
      rw [List.length_append, List.length_singleton] at hlt
      omega
    · rfl

/-- The startup goes on to a stage at which nothing is set yet. -/
theorem move (hm : Startup stage health past readyAt) (hstage : stage < 5) (hstage' : stage' < 3) :
    Startup stage' health past readyAt where
  config hle := by omega
  store hle := by omega
  checked := hm.checked
  announced hsome := by
    have hannounced := hm.announced hsome
    omega
  first := hm.first
  settled := hm.settled

/-- The moment of a probe's last load, if the process is ready then. -/
theorem ready_since (hm : Startup stage health past readyAt) (hready : health.state = .ready) :
    ∃ r, readyAt = some r ∧ r ≤ past.length ∧
      ∀ j h, r ≤ j → j ≤ past.length → (past ++ [health])[j]? = some h → h.state = .ready := by
  obtain ⟨r, hr, hle⟩ := hm.first past.length health (List.getElem?_concat_length ..) hready
  refine ⟨r, hr, hle, fun j h hrj hj hget => ?_⟩
  exact hm.settled r hr j past.length h health hrj hj hget (List.getElem?_concat_length ..) hready

end Startup

/-! ### The steps -/

/-- The invariant of the stores, of a process. -/
def Process.Ordered (m : Process) : Prop := Startup m.main.stage m.health m.past m.readyAt

/-- No moment is lost, and the moment of `mark_ready` stays. -/
structure Process.Extends (m m' : Process) : Prop where
  moments : m.moments <+: m'.moments
  readyAt : ∀ r, m.readyAt = some r → m'.readyAt = some r

theorem Process.Extends.past {m m' : Process} (h : m.Extends m') : m.past.length ≤ m'.past.length := by
  have hle := h.moments.length_le
  simp only [Process.moments, List.length_append, List.length_singleton] at hle
  omega

theorem extends_same {m m' : Process} (hhealth : m'.health = m.health) (hpast : m'.past = m.past)
    (hready : m'.readyAt = m.readyAt) : m.Extends m' where
  moments := by rw [Process.moments, Process.moments, hhealth, hpast]
  readyAt r hr := hready.trans hr

theorem extends_store {m m' : Process} (hpast : m'.past = m.past ++ [m.health])
    (hready : ∀ r, m.readyAt = some r → m'.readyAt = some r) : m.Extends m' where
  moments := by
    rw [Process.moments, Process.moments, hpast]
    exact List.prefix_append _ _
  readyAt := hready

theorem ProxyPc.Moves.stage {p q : ProxyPc} (h : p.Moves q) : q.stage = p.stage := by
  cases h <;> rfl

section

variable {m m' : Process}

/-- What an access of `main` makes of the cells. -/
theorem ProxyPc.Step.ordered (h : ProxyPc.Step m m.main m') (hm : m.Ordered) :
    m'.Ordered ∧ m.Extends m' ∧ m'.answers = m.answers := by
  unfold Process.Ordered at hm
  generalize hmain : m.main = p at h hm
  cases h with
  | failed hp e =>
    refine ⟨?_, extends_same rfl rfl rfl, rfl⟩
    change Startup 0 _ _ _
    rcases hp with rfl | rfl <;> exact hm.move (by decide) (by decide)
  | reached =>
    refine ⟨?_, extends_store rfl fun r hr => hr, rfl⟩
    change Startup 1 _ _ _
    exact hm.store_other id id id (fun hle => absurd hle (by decide)) (fun hle => absurd hle (by decide))
      fun hsome => absurd (hm.announced hsome) (by decide)
  | inTime =>
    refine ⟨?_, extends_same rfl rfl rfl, rfl⟩
    change Startup 2 _ _ _
    exact hm.move (by decide) (by decide)
  | markConfigLoaded =>
    refine ⟨?_, extends_store rfl fun r hr => hr, rfl⟩
    change Startup 3 _ _ _
    exact hm.store_other id (fun _ => rfl) id (fun _ => rfl) (fun hle => absurd hle (by decide))
      fun hsome => absurd (hm.announced hsome) (by decide)
  | markApprovalStoreInitialized =>
    refine ⟨?_, extends_store rfl fun r hr => hr, rfl⟩
    change Startup 4 _ _ _
    exact hm.store_other id id (fun _ => rfl) (fun _ => hm.config (by decide)) (fun _ => rfl)
      fun hsome => absurd (hm.announced hsome) (by decide)
  | markReady =>
    refine ⟨hm.ready, extends_store rfl fun r hr => ?_, rfl⟩
    exact absurd (hm.announced (by rw [hr]; rfl)) (by decide)
  | waits hp =>
    refine ⟨?_, extends_same rfl rfl rfl, rfl⟩
    rw [Process.Ordered, hmain]
    exact hm
  | moves hmoves =>
    refine ⟨?_, extends_same rfl rfl rfl, rfl⟩
    rw [← hmoves.stage] at hm
    exact hm
  | trackAdd | acquiring havailable | refusing | countConnection | countRequest | spawning | drained hresult =>
    exact ⟨hm, extends_same rfl rfl rfl, rfl⟩
  | stopped | stoppedLate remaining e =>
    have hstopped : ({ m.health with state := .stopped } : Health).state = .ready → m.health.state = .ready := by
      intro hready
      cases hready
    exact ⟨hm.store_same hstopped rfl rfl, extends_store rfl fun r hr => hr, rfl⟩

/-- A task other than a probe keeps the order of the stores. -/
theorem TaskPc.Step.ordered {p : TaskPc} {p' : Option TaskPc} (h : TaskPc.Step m p m' p') (hm : m.Ordered) :
    m'.Ordered ∧ m.Extends m' := by
  have hsame : m'.main = m.main → m'.health = m.health → m'.past = m.past → m'.readyAt = m.readyAt →
      m'.Ordered ∧ m.Extends m' := by
    intro hmain hhealth hpast hready
    refine ⟨?_, extends_same hhealth hpast hready⟩
    rw [Process.Ordered, hmain, hhealth, hpast, hready]
    exact hm
  cases h with
  | main hstep => exact ⟨(hstep.ordered hm).1, (hstep.ordered hm).2.1⟩
  | beginShutdown | quit =>
    refine ⟨Startup.store_same hm ?_ rfl rfl, extends_store rfl fun r hr => hr⟩
    intro hready
    cases hready
  | checked healthy => exact ⟨Startup.store_same hm id rfl rfl, extends_store rfl fun r hr => hr⟩
  | _ => exact hsame rfl rfl rfl rfl

/-- A task that is no probe answers none, and becomes none. -/
theorem TaskPc.Step.unasked {p : TaskPc} {p' : Option TaskPc} (h : TaskPc.Step m p m' p') (hm : m.Ordered)
    (hp : p.probing = false) : m'.answers = m.answers ∧ ∀ q ∈ p', q.probing = false := by
  cases h with
  | main hstep =>
    refine ⟨(hstep.ordered hm).2.2, ?_⟩
    rintro q ⟨⟩
    rfl
  | probes hprobe | answers hprobe =>
    rw [hp] at hprobe
    cases hprobe
  | _ =>
    refine ⟨rfl, ?_⟩
    rintro q ⟨⟩
    all_goals rfl

end

/-! ### The loads of a probe -/

/-- It was so at a moment of the probe that has begun at this moment. -/
def Process.Saw (m : Process) (since : Nat) (P : Health → Prop) : Prop := SeenIn m.moments since m.past.length P

/-- What a probe has loaded was so. -/
def TaskPc.Loaded (m : Process) : TaskPc → Prop
  | .probeUpstream since down => since ≤ m.past.length ∧ (down = true → m.Saw since fun h => h.isShuttingDown = true)
  | .probeConfig since down upstream =>
    since ≤ m.past.length ∧ (down = true → m.Saw since fun h => h.isShuttingDown = true) ∧
      m.Saw since fun h => h.upstreamHealthy = upstream
  | .probeStore since down upstream config =>
    since ≤ m.past.length ∧ (down = true → m.Saw since fun h => h.isShuttingDown = true) ∧
      (m.Saw since fun h => h.upstreamHealthy = upstream) ∧ m.Saw since fun h => h.configLoaded = config
  | .probeReady since checks =>
    since ≤ m.past.length ∧ checks.Seen m.moments since m.past.length ∧ checks.allPass = true
  | .probeAgain since checks | .probeState since checks =>
    since ≤ m.past.length ∧ checks.Seen m.moments since m.past.length ∧ checks.allPass = true ∧
      m.Saw since fun h => ¬ h.Serving
  | _ => True

section

variable {m m' : Process} {since : Nat} {P : Health → Prop}

theorem Process.Saw.mono (h : m.Saw since P) (hm : m.Extends m') : m'.Saw since P := SeenIn.mono h hm.moments hm.past

theorem Process.saw_now (hsince : since ≤ m.past.length) (h : P m.health) : m.Saw since P :=
  ⟨m.past.length, m.health, hsince, Nat.le_refl _, List.getElem?_concat_length .., h⟩

theorem TaskPc.Loaded.mono {p : TaskPc} (h : p.Loaded m) (hm : m.Extends m') : p.Loaded m' := by
  cases p with
  | probeUpstream since down => exact ⟨h.1.trans hm.past, fun hdown => (h.2 hdown).mono hm⟩
  | probeConfig since down upstream =>
    exact ⟨h.1.trans hm.past, fun hdown => (h.2.1 hdown).mono hm, h.2.2.mono hm⟩
  | probeStore since down upstream config =>
    exact ⟨h.1.trans hm.past, fun hdown => (h.2.1 hdown).mono hm, h.2.2.1.mono hm, h.2.2.2.mono hm⟩
  | probeReady since checks => exact ⟨h.1.trans hm.past, h.2.1.mono hm.moments hm.past, h.2.2⟩
  | probeAgain since checks | probeState since checks =>
    exact ⟨h.1.trans hm.past, h.2.1.mono hm.moments hm.past, h.2.2.1, h.2.2.2.mono hm⟩
  | _ => trivial

/-- `503` with the checks that were loaded. -/
theorem truthful_notReady {status : String} {checks : ReadinessChecks} {reason : Option String}
    (hchecks : checks.Seen m.moments since m.past.length) (hmissing : m.Saw since fun h => ¬ h.Serving)
    (hreason : (reason = some "shutting_down" ∧ m.Saw since fun h => h.isShuttingDown = true) ∨
      (checks.allPass = false ∧ reason = checks.firstFailure) ∨ (checks.allPass = true ∧ reason = none) ∨
      ∃ state, checks.allPass = true ∧ reason = some ("lifecycle_state: " ++ state.display) ∧
        m.Saw since fun h => h.state = state) :
    ReadinessAnswer.Truthful m.moments m.readyAt ⟨since, m.past.length, 503, status, checks, reason⟩ where
  checks := hchecks
  ready hcode := absurd hcode (by simp)
  notReady _ := ⟨rfl, hmissing, hreason⟩

end

/-- Every answer so far is true. -/
def Process.Answered (m : Process) : Prop := ∀ a ∈ m.answers, a.Truthful m.moments m.readyAt

theorem Process.Answered.answer {m : Process} (h : m.Answered) {since code : Nat} {status : String}
    {checks : ReadinessChecks} {reason : Option String}
    (hnew : ReadinessAnswer.Truthful m.moments m.readyAt ⟨since, m.past.length, code, status, checks, reason⟩) :
    (m.answer since code status checks reason).Answered := by
  intro a ha
  rcases List.mem_append.mp ha with hold | hlast
  · exact h a hold
  · rw [List.mem_singleton.mp hlast]
    exact hnew

section

variable [HttpText] {c : ProcessConfig} {m m' : Process}

omit [HttpText] in
theorem TaskPc.loaded_of_not_probing {p : TaskPc} (h : p.probing = false) : p.Loaded m := by
  cases p with
  | probeUpstream | probeConfig | probeStore | probeReady | probeAgain | probeState => cases h
  | _ => trivial

/-- A task adds true answers only, and what it has loaded stays backed. -/
theorem TaskPc.next_answered {p : TaskPc} {i : ProcessInput} {p' : Option TaskPc} (h : p.next c m i = some (m', p'))
    (hm : m.Ordered) (hanswered : m.Answered) (hp : p.Loaded m) : m'.Answered ∧ ∀ q ∈ p', q.Loaded m' := by
  have hstep := next_step h
  obtain ⟨-, hext⟩ := hstep.ordered hm
  have hkeep : m'.answers = m.answers → m'.Answered := by
    intro hsame a ha
    rw [hsame] at ha
    exact (hanswered a ha).mono hext.moments hext.readyAt
  cases hprobing : p.probing with
  | false =>
    obtain ⟨hsame, hnone⟩ := hstep.unasked hm hprobing
    exact ⟨hkeep hsame, fun q hq => loaded_of_not_probing (hnone q hq)⟩
  | true =>
    cases p with
    | probe =>
      cases i with
      | go =>
        cases h
        refine ⟨hkeep rfl, ?_⟩
        rintro q ⟨⟩
        exact ⟨Nat.le_refl _, fun hdown => Process.saw_now (Nat.le_refl _) hdown⟩
      | _ => cases h
    | probeUpstream since down =>
      cases i with
      | go =>
        cases h
        refine ⟨hkeep rfl, ?_⟩
        rintro q ⟨⟩
        exact ⟨hp.1, hp.2, Process.saw_now hp.1 rfl⟩
      | _ => cases h
    | probeConfig since down upstream =>
      cases i with
      | go =>
        cases h
        refine ⟨hkeep rfl, ?_⟩
        rintro q ⟨⟩
        exact ⟨hp.1, hp.2.1, hp.2.2, Process.saw_now hp.1 rfl⟩
      | _ => cases h
    | probeStore since down upstream config =>
      cases i with
      | go =>
        obtain ⟨hsince, hdown, hupstream, hconfig⟩ := hp
        have hchecks : ReadinessChecks.Seen m.moments since m.past.length
            ⟨config, upstream, m.health.approvalStoreInitialized⟩ := ⟨hconfig, hupstream, Process.saw_now hsince rfl⟩
        simp only [next] at h
        split at h
        · rename_i hshutting
          cases h
          have hmissing : m.Saw since fun h => ¬ h.Serving := (hdown hshutting).weaken fun health hdown hserving => by
            rw [Health.isShuttingDown, hserving.1] at hdown
            cases hdown
          refine ⟨hanswered.answer (truthful_notReady hchecks hmissing (Or.inl ⟨rfl, hdown hshutting⟩)), ?_⟩
          rintro q ⟨⟩
        · split at h
          · rename_i hpass
            cases h
            refine ⟨hkeep rfl, ?_⟩
            rintro q ⟨⟩
            exact ⟨hsince, hchecks, hpass⟩
          · rename_i hfail
            cases h
            have hfail' := Bool.eq_false_of_not_eq_true hfail
            refine ⟨hanswered.answer (truthful_notReady hchecks (hchecks.missing hfail') (Or.inr (Or.inl ?_))), ?_⟩
            · exact ⟨hfail', rfl⟩
            · rintro q ⟨⟩
      | _ => cases h
    | probeReady since checks =>
      cases i with
      | go =>
        obtain ⟨hsince, hchecks, hpass⟩ := hp
        simp only [next] at h
        split at h
        · rename_i hready
          cases h
          refine ⟨hanswered.answer ⟨hchecks, fun _ => ⟨hpass, ?_⟩, fun hcode => absurd rfl hcode⟩, ?_⟩
          · obtain ⟨r, hr, hle, hall⟩ := hm.ready_since hready
            exact ⟨r, m.health, hr, hle, List.getElem?_concat_length .., (hm.checked hready).1, (hm.checked hready).2, hall⟩
          · rintro q ⟨⟩
        · rename_i hready
          cases h
          refine ⟨hkeep rfl, ?_⟩
          rintro q ⟨⟩
          exact ⟨hsince, hchecks, hpass, Process.saw_now hsince fun hserving => hready hserving.1⟩
      | _ => cases h
    | probeAgain since checks =>
      cases i with
      | go =>
        obtain ⟨hsince, hchecks, hpass, hmissing⟩ := hp
        simp only [next] at h
        split at h
        · cases h
          refine ⟨hanswered.answer (truthful_notReady hchecks hmissing (Or.inr (Or.inr (Or.inl ⟨hpass, rfl⟩)))), ?_⟩
          rintro q ⟨⟩
        · cases h
          refine ⟨hkeep rfl, ?_⟩
          rintro q ⟨⟩
          exact ⟨hsince, hchecks, hpass, hmissing⟩
      | _ => cases h
    | probeState since checks =>
      cases i with
      | go =>
        obtain ⟨hsince, hchecks, hpass, hmissing⟩ := hp
        cases h
        refine ⟨hanswered.answer (truthful_notReady hchecks hmissing (Or.inr (Or.inr (Or.inr ?_)))), ?_⟩
        · exact ⟨m.health.state, hpass, rfl, Process.saw_now hsince rfl⟩
        · rintro q ⟨⟩
      | _ => cases h
    | _ => cases hprobing

/-- What holds in every state of the process. -/
theorem process_answered {s : ThreadState Process TaskPc} (h : (process c).machine.Reachable s) :
    (s.shared.Ordered ∧ s.shared.Answered) ∧ s.threads.All fun _ p => p.Loaded s.shared := by
  refine Program.each_invariant (J := fun m => m.Ordered ∧ m.Answered) (R := fun m p => p.Loaded m) ⟨Startup.init, nofun⟩
    ?_ ?_ h
  · intro m threads p hstart
    rw [process, Bool.and_eq_true] at hstart
    cases p with
    | main | beginShutdown | quit | checkUpstream | connection | probe => trivial
    | _ => cases hstart.1
  · rintro m p i m' p' ⟨hm, hanswered⟩ hp hnext
    have hstep := process_next hnext
    obtain ⟨hordered, hext⟩ := (TaskPc.next_step hstep).ordered hm
    obtain ⟨hnew, hown⟩ := TaskPc.next_answered hstep hm hanswered hp
    exact ⟨⟨hordered, hnew⟩, hown, fun q hq => hq.mono hext⟩

/-- In every run of the process every answer of a probe of readiness is true of the moments at which it was made up. -/
theorem readiness_truthful {s : ThreadState Process TaskPc} (h : (process c).machine.Reachable s) {a : ReadinessAnswer}
    (ha : a ∈ s.shared.answers) : a.Truthful s.shared.moments s.shared.readyAt :=
  (process_answered h).1.2 a ha

end

section

attribute [local instance] Sample.httpText

namespace Sample

/-- A probe runs while the process becomes ready, and another one when it is told to shut down. -/
def probedRun : List (ThreadAct TaskPc ProcessInput) :=
  [.spawn 0 .main, .run 0 (.upstream (.ok 200)), .run 0 (.clock false), .spawn 1 .probe, .run 1 .go, .run 1 .go, .run 0 .go,
    .run 1 .go, .run 0 .go, .run 1 .go, .run 0 .go, .run 1 .go, .spawn 2 .probe, .run 2 .go, .spawn 3 .beginShutdown,
    .run 3 .go, .run 2 .go, .run 2 .go, .run 2 .go, .run 2 .go, .run 2 .go, .run 2 .go]

def ready : ReadinessAnswer := ⟨1, 4, 200, "ready", ⟨true, true, true⟩, none⟩

def overtaken : ReadinessAnswer := ⟨4, 5, 503, "not_ready", ⟨true, true, true⟩, some "lifecycle_state: shutting_down"⟩

end Sample

theorem readiness_truthful_sample :
    ∃ s, (process Sample.twoStreams).machine.Reachable s ∧ s.shared.answers = [Sample.ready, Sample.overtaken] ∧
      Sample.ready.Truthful s.shared.moments s.shared.readyAt ∧
      Sample.overtaken.Truthful s.shared.moments s.shared.readyAt := by
  have hrun : ((process Sample.twoStreams).machine.exec (process Sample.twoStreams).machine.init Sample.probedRun).any
      (fun s => s.shared.answers == [Sample.ready, Sample.overtaken]) = true := by
    decide
  obtain ⟨s, hs, htest⟩ := Machine.exists_reachable_of_exec hrun
  have hanswers := eq_of_beq htest
  refine ⟨s, hs, hanswers, readiness_truthful hs ?_, readiness_truthful hs ?_⟩
  · rw [hanswers]
    exact List.mem_cons_self
  · rw [hanswers]
    exact List.mem_cons_of_mem _ List.mem_cons_self

end

end ThoughtGate
