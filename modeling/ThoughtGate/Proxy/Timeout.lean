import ThoughtGate.Base.Time
import Mathlib.Data.List.Infix

/-!
# Timeouts of a stream

`TimeoutBody` of `timeout.rs` wraps the body of an upstream's response with two timers: one for the whole stream, and one
for each frame that is set again when a frame is delivered. Both are asked before the body is. A consumer that comes late
is told of a timeout although the upstream was in time (`late_consumer_blamed`); what a report of a timeout does say is in
`timeouts_reported`.

The body is given by what it will yield and when; the timers of the runtime are known to be no earlier than their
deadlines.
-/

namespace ThoughtGate

namespace Duration

/-- The digits of a fraction after the point, without zeros at the end. -/
def fraction : Nat → Nat → String
  | 0, _ => ""
  | width + 1, rest => if rest = 0 then "" else toString (rest / 10 ^ width) ++ fraction width (rest % 10 ^ width)

def decimal (whole width rest : Nat) (postfixText : String) : String :=
  toString whole ++ (if rest = 0 then "" else "." ++ fraction width rest) ++ postfixText

/-- `Debug` of a `Duration`. -/
def debug (d : Duration) : String :=
  if 1000000000 ≤ d then decimal (d / 1000000000) 9 (d % 1000000000) "s"
  else if 1000000 ≤ d then decimal (d / 1000000) 6 (d % 1000000) "ms"
  else if 1000 ≤ d then decimal (d / 1000) 3 (d % 1000) "µs"
  else decimal d 0 0 "ns"

example : debug (fromSecs 300) = "300s" ∧ debug 1500000 = "1.5ms" := by decide

end Duration

/-- What a body gives when it is ready: a frame, an error or its end. -/
inductive FrameResult (F E : Type) where
  | frame (f : F)
  | error (e : E)
  | done
deriving DecidableEq

namespace FrameResult

variable {F E E' : Type}

def mapError (g : E → E') : FrameResult F E → FrameResult F E'
  | .frame f => .frame f
  | .error e => .error (g e)
  | .done => .done

def frame? : FrameResult F E → Option F
  | .frame f => some f
  | _ => none

end FrameResult

/-- A body: what it will give, and from when on it is ready to. -/
abbrev InnerBody (F E : Type) := List (Instant × FrameResult F E)

/-- `Body::poll_frame` of the body inside; `none` is pending. -/
def InnerBody.pollFrame {F E : Type} (now : Instant) : InnerBody F E → Option (FrameResult F E) × InnerBody F E
  | [] => (none, [])
  | (readyAt, result) :: rest => if readyAt ≤ now then (some result, rest) else (none, (readyAt, result) :: rest)

structure TimeoutConfig where
  chunkTimeout : Duration
  totalTimeout : Duration

/-- The errors of the wrapped body: those of the body inside and two of its own. -/
inductive StreamError (E : Type) where
  | inner (e : E)
  | totalTimeout (timeoutDuration : Duration)
  | chunkTimeout (timeoutDuration : Duration)
deriving DecidableEq

/-- The texts of the errors, from those of the body inside. -/
def StreamError.display {E : Type} (text : E → String) : StreamError E → String
  | .inner e => text e
  | .totalTimeout timeoutDuration => "Total stream timeout exceeded (" ++ timeoutDuration.debug ++ ")"
  | .chunkTimeout timeoutDuration => "Chunk timeout exceeded (" ++ timeoutDuration.debug ++ ")"

/-- A poll at an instant: whether a timer with a given deadline is found to have elapsed. `tokio::time::Sleep` is not
ready before its deadline. -/
structure Poll where
  now : Instant
  elapsed : Instant → Bool
  sound : ∀ deadline, elapsed deadline = true → deadline ≤ now

/-- `TimeoutBody`; the timers are given by their deadlines. -/
structure TimeoutBody (F E : Type) where
  inner : InnerBody F E
  config : TimeoutConfig
  chunkTimeout : Instant
  totalTimeout : Instant
  started : Bool

/-- What a poll of the wrapped body says. -/
inductive Polled (F E : Type) where
  | pending
  | ready (result : FrameResult F (StreamError E))
deriving DecidableEq

namespace TimeoutBody

variable {F E : Type}

/-- The deadline of `tokio::time::sleep`, thirty years ahead where the clock does not reach. -/
def sleepDeadline (now : Instant) (d : Duration) : Instant :=
  (now.checkedAdd d).getD (now + Duration.fromSecs (86400 * 365 * 30))

/-- `TimeoutBody::new`. -/
def new (inner : InnerBody F E) (config : TimeoutConfig) (now : Instant) : TimeoutBody F E where
  inner
  config
  chunkTimeout := sleepDeadline now config.chunkTimeout
  totalTimeout := sleepDeadline now config.totalTimeout
  started := false

/-- Set both timers. -/
def start (b : TimeoutBody F E) (now : Instant) : Option (TimeoutBody F E) := do
  let totalDeadline ← now.checkedAdd b.config.totalTimeout
  let chunkDeadline ← now.checkedAdd b.config.chunkTimeout
  some { b with chunkTimeout := chunkDeadline, totalTimeout := totalDeadline, started := true }

/-- `poll_frame` once the timers are set. -/
def pollStarted (b : TimeoutBody F E) (p : Poll) : Option (Polled F E × TimeoutBody F E) :=
  if p.elapsed b.totalTimeout then some (.ready (.error (.totalTimeout b.config.totalTimeout)), b)
  else if p.elapsed b.chunkTimeout then some (.ready (.error (.chunkTimeout b.config.chunkTimeout)), b)
  else
    match b.inner.pollFrame p.now with
    | (some result, inner) => do
      let chunkDeadline ← p.now.checkedAdd b.config.chunkTimeout
      some (.ready (result.mapError .inner), { b with inner, chunkTimeout := chunkDeadline })
    | (none, _) => some (.pending, b)

/-- `poll_frame`; `none` is a panic. -/
def pollFrame (b : TimeoutBody F E) (p : Poll) : Option (Polled F E × TimeoutBody F E) := do
  let b ← if b.started then some b else b.start p.now
  b.pollStarted p

/-- What is said at each poll, up to a panic. -/
def run (b : TimeoutBody F E) : List Poll → List (Instant × Polled F E)
  | [] => []
  | p :: ps =>
    match b.pollFrame p with
    | none => []
    | some (polled, b') => (p.now, polled) :: run b' ps

end TimeoutBody

namespace Polled

variable {F E : Type}

/-- What the body inside gave, if the poll says so. -/
def delivered : Polled F E → Option (FrameResult F E)
  | .ready (.frame f) => some (.frame f)
  | .ready (.error (.inner e)) => some (.error e)
  | .ready .done => some .done
  | _ => none

def frame? : Polled F E → Option F
  | .ready result => result.frame?
  | .pending => none

/-- A poll that found a timer elapsed. -/
def isTimeout : Polled F E → Bool
  | .ready (.error (.totalTimeout _)) => true
  | .ready (.error (.chunkTimeout _)) => true
  | _ => false

@[simp] theorem delivered_mapError (r : FrameResult F E) : (Polled.ready (r.mapError .inner)).delivered = some r := by
  cases r <;> rfl

@[simp] theorem frame?_mapError (r : FrameResult F E) : (Polled.ready (r.mapError .inner)).frame? = r.frame? := by
  cases r <;> rfl

theorem frame?_eq_bind (o : Polled F E) : o.frame? = o.delivered.bind FrameResult.frame? := by
  cases o with
  | pending => rfl
  | ready r =>
    cases r with
    | frame f => rfl
    | error e => cases e <;> rfl
    | done => rfl

end Polled

namespace TimeoutBody

variable {F E : Type}

def delivered (log : List (Instant × Polled F E)) : List (FrameResult F E) := log.filterMap fun entry => entry.2.delivered

def frames (log : List (Instant × Polled F E)) : List F := log.filterMap fun entry => entry.2.frame?

theorem delivered_cons (entry : Instant × Polled F E) (log : List (Instant × Polled F E)) :
    delivered (entry :: log) = entry.2.delivered.toList ++ delivered log := by
  unfold delivered
  rw [List.filterMap_cons]
  cases entry.2.delivered <;> rfl

theorem frames_eq_delivered (log : List (Instant × Polled F E)) : frames log = (delivered log).filterMap FrameResult.frame? := by
  unfold frames delivered
  rw [List.filterMap_filterMap]
  simp only [Polled.frame?_eq_bind]

/-! ### One poll -/

/-- What a poll does once the timers are set. -/
theorem pollStarted_cases {b b' : TimeoutBody F E} {p : Poll} {polled : Polled F E}
    (h : b.pollStarted p = some (polled, b')) :
    (polled = .ready (.error (.totalTimeout b.config.totalTimeout)) ∧ b' = b ∧ b.totalTimeout ≤ p.now) ∨
    (polled = .ready (.error (.chunkTimeout b.config.chunkTimeout)) ∧ b' = b ∧ b.chunkTimeout ≤ p.now) ∨
    (polled = .pending ∧ b' = b ∧ ∀ item ∈ b.inner.head?, p.now < item.1) ∨
    (∃ item rest, b.inner = item :: rest ∧ polled = .ready (item.2.mapError .inner) ∧
      b' = { b with inner := rest, chunkTimeout := p.now + b.config.chunkTimeout }) := by
  unfold pollStarted at h
  split at h
  · rename_i htotal
    cases h
    exact .inl ⟨rfl, rfl, p.sound _ htotal⟩
  · split at h
    · rename_i hchunk
      cases h
      exact .inr (.inl ⟨rfl, rfl, p.sound _ hchunk⟩)
    · cases hinner : b.inner with
      | nil =>
        rw [hinner] at h
        cases h
        exact .inr (.inr (.inl ⟨rfl, rfl, by simp⟩))
      | cons item rest =>
        rw [hinner, InnerBody.pollFrame] at h
        by_cases hready : item.1 ≤ p.now
        · rw [if_pos hready] at h
          obtain ⟨deadline, hdeadline, heq⟩ := Option.bind_eq_some_iff.mp h
          cases heq
          rw [Instant.checkedAdd_eq_some hdeadline]
          exact .inr (.inr (.inr ⟨item, rest, rfl, rfl, rfl⟩))
        · rw [if_neg hready] at h
          cases h
          refine .inr (.inr (.inl ⟨rfl, rfl, ?_⟩))
          rintro _ ⟨⟩
          exact lt_of_not_ge hready

/-! ### All polls -/

theorem run_cons_of_some {b b' : TimeoutBody F E} {p : Poll} {polled : Polled F E} (h : b.pollFrame p = some (polled, b'))
    (ps : List Poll) : b.run (p :: ps) = (p.now, polled) :: b'.run ps := by
  rw [run, h]

theorem run_cons_of_none {b : TimeoutBody F E} {p : Poll} (h : b.pollFrame p = none) (ps : List Poll) :
    b.run (p :: ps) = [] := by
  rw [run, h]

theorem pollFrame_of_started {b : TimeoutBody F E} (h : b.started = true) (p : Poll) : b.pollFrame p = b.pollStarted p := by
  rw [pollFrame, if_pos h]
  rfl

/-- The first poll sets the timers, or panics. -/
theorem run_of_start {b : TimeoutBody F E} (h : b.started = false) (p : Poll) (ps : List Poll) :
    b.run (p :: ps) = [] ∨ b.run (p :: ps) = run { b with
      chunkTimeout := p.now + b.config.chunkTimeout, totalTimeout := p.now + b.config.totalTimeout, started := true } (p :: ps) := by
  have hpoll : b.pollFrame p = (b.start p.now).bind fun b => b.pollStarted p := by
    rw [pollFrame, h]
    rfl
  cases hstart : b.start p.now with
  | none => exact .inl (run_cons_of_none (by rw [hpoll, hstart]; rfl) ps)
  | some b₁ =>
    obtain ⟨totalDeadline, htotal, hrest⟩ := Option.bind_eq_some_iff.mp hstart
    obtain ⟨chunkDeadline, hchunk, heq⟩ := Option.bind_eq_some_iff.mp hrest
    rw [Instant.checkedAdd_eq_some htotal, Instant.checkedAdd_eq_some hchunk] at heq
    cases heq
    refine .inr ?_
    rw [hstart] at hpoll
    rw [run, run, hpoll, pollFrame_of_started rfl]
    rfl

/-- A property of the body and its timers that a poll keeps, along all polls. -/
theorem run_induction {motive : TimeoutBody F E → List Poll → List (Instant × Polled F E) → Prop}
    (stop : ∀ b ps, motive b ps [])
    (step : ∀ b p ps polled b' log, b.started = true → b.pollStarted p = some (polled, b') → motive b' ps log →
      motive b (p :: ps) ((p.now, polled) :: log))
    {b : TimeoutBody F E} (h : b.started = true) (ps : List Poll) : motive b ps (b.run ps) := by
  induction ps generalizing b with
  | nil => exact stop b []
  | cons p ps ih =>
    cases hpoll : b.pollFrame p with
    | none =>
      rw [run_cons_of_none hpoll]
      exact stop b (p :: ps)
    | some next =>
      obtain ⟨polled, b'⟩ := next
      rw [run_cons_of_some hpoll]
      rw [pollFrame_of_started h] at hpoll
      have hstarted : b'.started = true := by
        rcases pollStarted_cases hpoll with ⟨-, rfl, -⟩ | ⟨-, rfl, -⟩ | ⟨-, rfl, -⟩ | ⟨_, _, -, -, rfl⟩ <;> exact h
      exact step b p ps polled b' _ h hpoll (ih hstarted)

/-- The results of the body inside are delivered as they are, in their order. -/
theorem delivered_run {b : TimeoutBody F E} (h : b.started = true) (ps : List Poll) :
    delivered (b.run ps) <+: b.inner.map Prod.snd := by
  refine run_induction (motive := fun b _ log => delivered log <+: b.inner.map Prod.snd)
    (fun b _ => List.nil_prefix) ?_ h ps
  intro b p ps polled b' log _ hpoll hlog
  rcases pollStarted_cases hpoll with ⟨rfl, rfl, -⟩ | ⟨rfl, rfl, -⟩ | ⟨rfl, rfl, -⟩ | ⟨item, rest, hinner, rfl, rfl⟩
  · exact hlog
  · exact hlog
  · exact hlog
  · rw [hinner, List.map_cons, delivered_cons, Polled.delivered_mapError]
    exact List.cons_prefix_cons.mpr ⟨rfl, hlog⟩

/-- The timer of the whole stream is not set again. -/
theorem totalTimeout_run {b : TimeoutBody F E} (h : b.started = true) (ps : List Poll) :
    ∀ now d, (now, .ready (.error (.totalTimeout d))) ∈ b.run ps → b.totalTimeout ≤ now := by
  refine run_induction (motive := fun b _ log =>
    ∀ now d, (now, .ready (.error (.totalTimeout d))) ∈ log → b.totalTimeout ≤ now) (fun _ _ _ _ hmem => by cases hmem) ?_ h ps
  intro b p ps polled b' log _ hpoll hlog now d hmem
  have htotal : b'.totalTimeout = b.totalTimeout := by
    rcases pollStarted_cases hpoll with ⟨-, rfl, -⟩ | ⟨-, rfl, -⟩ | ⟨-, rfl, -⟩ | ⟨_, _, -, -, rfl⟩ <;> rfl
  rcases List.mem_cons.mp hmem with heq | hlater
  · cases heq
    rcases pollStarted_cases hpoll with ⟨-, -, hle⟩ | ⟨hpolled, -⟩ | ⟨hpolled, -⟩ | ⟨item, rest, -, hpolled, -⟩
    · exact hle
    · cases hpolled
    · cases hpolled
    · cases hresult : item.2 <;> rw [hresult] at hpolled <;> cases hpolled
  · rw [← htotal]
    exact hlog now d hlater

/-- No timer of a frame is set back: at a report of its timeout it is at least the time of a frame since the last frame. -/
theorem chunkTimeout_run {b : TimeoutBody F E} (h : b.started = true) {ps : List Poll}
    (hps : ps.Pairwise fun p q => p.now ≤ q.now) (hdeadline : ∀ p ∈ ps, b.chunkTimeout ≤ p.now + b.config.chunkTimeout) :
    ∀ before now d after, b.run ps = before ++ (now, .ready (.error (.chunkTimeout d))) :: after →
      b.chunkTimeout ≤ now ∧ ∀ t f, (t, .ready (.frame f)) ∈ before → t + b.config.chunkTimeout ≤ now := by
  revert hps hdeadline
  refine run_induction (motive := fun b ps log => (ps.Pairwise fun p q => p.now ≤ q.now) →
    (∀ p ∈ ps, b.chunkTimeout ≤ p.now + b.config.chunkTimeout) →
    ∀ before now d after, log = before ++ (now, .ready (.error (.chunkTimeout d))) :: after →
      b.chunkTimeout ≤ now ∧ ∀ t f, (t, .ready (.frame f)) ∈ before → t + b.config.chunkTimeout ≤ now) ?_ ?_ h ps
  · intro b ps _ _ before now d after hlog
    simp at hlog
  intro b p ps polled b' log _ hpoll ih hps hdeadline before now d after hlog
  rw [List.forall_mem_cons] at hdeadline
  obtain ⟨hfirst, hrest⟩ := List.pairwise_cons.mp hps
  have hconfig : b'.config = b.config := by
    rcases pollStarted_cases hpoll with ⟨-, rfl, -⟩ | ⟨-, rfl, -⟩ | ⟨-, rfl, -⟩ | ⟨_, _, -, -, rfl⟩ <;> rfl
  cases before with
  | nil =>
    obtain ⟨⟨rfl, rfl⟩, rfl⟩ : (p.now = now ∧ polled = _) ∧ log = after := by simpa using hlog
    refine ⟨?_, by simp⟩
    rcases pollStarted_cases hpoll with ⟨hpolled, -⟩ | ⟨-, -, hle⟩ | ⟨hpolled, -⟩ | ⟨item, rest, -, hpolled, -⟩
    · cases hpolled
    · exact hle
    · cases hpolled
    · cases hresult : item.2 <;> rw [hresult] at hpolled <;> cases hpolled
  | cons entry before =>
    obtain ⟨rfl, hlater⟩ := List.cons.inj hlog
    -- a delivery sets the timer no earlier than it was
    have hmono : b.chunkTimeout ≤ b'.chunkTimeout ∧ (∀ q ∈ ps, b'.chunkTimeout ≤ q.now + b.config.chunkTimeout) ∧
        ∀ f, polled = .ready (.frame f) → p.now + b.config.chunkTimeout ≤ b'.chunkTimeout := by
      rcases pollStarted_cases hpoll with ⟨rfl, rfl, -⟩ | ⟨rfl, rfl, -⟩ | ⟨rfl, rfl, -⟩ | ⟨item, rest, -, rfl, rfl⟩
      · exact ⟨le_refl _, hdeadline.2, fun f hf => by cases hf⟩
      · exact ⟨le_refl _, hdeadline.2, fun f hf => by cases hf⟩
      · exact ⟨le_refl _, hdeadline.2, fun f hf => by cases hf⟩
      · exact ⟨hdeadline.1, fun q hq => Int.add_le_add_right (hfirst q hq) _, fun f _ => le_refl _⟩
    obtain ⟨hle, hframes⟩ := ih hrest (by rw [hconfig]; exact hmono.2.1) before now d after hlater
    rw [hconfig] at hframes
    refine ⟨le_trans hmono.1 hle, fun t f hmem => ?_⟩
    rcases List.mem_cons.mp hmem with heq | hold
    · cases heq
      exact le_trans (hmono.2.2 f rfl) hle
    · exact hframes t f hold

/-- After the polls of a log the body inside had no frame ready. -/
def NoFrameReady (inner : InnerBody F E) (log : List (Instant × Polled F E)) (now : Instant) : Prop :=
  ∀ readyAt f, (inner.drop (delivered log).length).head? = some (readyAt, .frame f) → now < readyAt

/-- A poll that gives no frame and reports no timeout found none ready. -/
theorem noFrameReady_run {b : TimeoutBody F E} (h : b.started = true) (ps : List Poll) :
    ∀ before t o after, b.run ps = before ++ (t, o) :: after → o.isTimeout = false → o.frame? = none →
      NoFrameReady b.inner before t := by
  refine run_induction (motive := fun b _ log => ∀ before t o after, log = before ++ (t, o) :: after →
    o.isTimeout = false → o.frame? = none → NoFrameReady b.inner before t) ?_ ?_ h ps
  · intro b _ before t o after hlog
    simp at hlog
  intro b p ps polled b' log _ hpoll ih before t o after hlog htimeout hframe readyAt f hhead
  cases before with
  | nil =>
    obtain ⟨heq, -⟩ := List.cons.inj hlog
    cases heq
    rcases pollStarted_cases hpoll with ⟨rfl, -⟩ | ⟨rfl, -⟩ | ⟨-, -, hlt⟩ | ⟨item, rest, hinner, rfl, -⟩
    · cases htimeout
    · cases htimeout
    · exact hlt _ hhead
    · rw [hinner] at hhead
      cases hhead
      cases hframe
  | cons entry before =>
    obtain ⟨rfl, hlater⟩ := List.cons.inj hlog
    refine ih before t o after hlater htimeout hframe readyAt f ?_
    rw [delivered_cons] at hhead
    rcases pollStarted_cases hpoll with ⟨rfl, rfl, -⟩ | ⟨rfl, rfl, -⟩ | ⟨rfl, rfl, -⟩ | ⟨item, rest, hinner, rfl, rfl⟩
    · exact hhead
    · exact hhead
    · exact hhead
    · rw [Polled.delivered_mapError, hinner, Option.toList_some, List.singleton_append, List.length_cons,
        List.drop_succ_cons] at hhead
      exact hhead

end TimeoutBody

/-- The frames of a wrapped body are a beginning of those of the body inside. A timeout of the stream is reported no sooner
than that after the first poll; a timeout of a frame no sooner than that after the first poll and after each frame, and
polls without a frame since the last one found none ready, unless they reported a timeout. -/
theorem TimeoutBody.timeouts_reported {F E : Type} (inner : InnerBody F E) (config : TimeoutConfig) (created : Instant)
    (first : Poll) {ps : List Poll} (hps : (first :: ps).Pairwise fun p q => p.now ≤ q.now) :
    (frames ((new inner config created).run (first :: ps)) <+: inner.filterMap fun item => item.2.frame?) ∧
    (∀ now d, (now, .ready (.error (.totalTimeout d))) ∈ (new inner config created).run (first :: ps) →
      first.now + config.totalTimeout ≤ now) ∧
    ∀ before now d after,
      (new inner config created).run (first :: ps) = before ++ (now, .ready (.error (.chunkTimeout d))) :: after →
      first.now + config.chunkTimeout ≤ now ∧
      (∀ t f, (t, .ready (.frame f)) ∈ before → t + config.chunkTimeout ≤ now) ∧
      ∀ front t o back, before = front ++ (t, o) :: back → frames ((t, o) :: back) = [] → o.isTimeout = false →
        NoFrameReady inner front t := by
  rcases run_of_start (b := new inner config created) rfl first ps with hnil | hrun
  · rw [hnil]
    refine ⟨List.nil_prefix, ?_, fun before now d after hlog => ?_⟩
    · intro now d hmem
      cases hmem
    · simp at hlog
  · rw [hrun]
    refine ⟨?_, totalTimeout_run rfl _, fun before now d after hlog => ?_⟩
    · have hprefix := (delivered_run (b := { new inner config created with
        chunkTimeout := first.now + config.chunkTimeout, totalTimeout := first.now + config.totalTimeout, started := true })
        rfl (first :: ps)).filterMap FrameResult.frame?
      rw [List.filterMap_map] at hprefix
      rw [frames_eq_delivered]
      exact hprefix
    · have hdeadline : ∀ p ∈ first :: ps, first.now + config.chunkTimeout ≤ p.now + config.chunkTimeout := by
        rw [List.forall_mem_cons]
        exact ⟨le_refl _, fun p hp => Int.add_le_add_right ((List.pairwise_cons.mp hps).1 p hp) _⟩
      obtain ⟨hfirst, hframes⟩ := chunkTimeout_run rfl hps hdeadline before now d after hlog
      refine ⟨hfirst, hframes, fun front t o back hbefore hnone htimeout => ?_⟩
      rw [hbefore, List.append_assoc] at hlog
      refine noFrameReady_run rfl _ front t o _ hlog htimeout ?_
      unfold frames at hnone
      rw [List.filterMap_cons] at hnone
      cases hframe : o.frame? with
      | none => rfl
      | some f => simp [hframe] at hnone

namespace Sample

/-- A poll with timers that elapse on time. -/
def timelyPoll (now : Instant) : Poll where
  now
  elapsed deadline := decide (deadline ≤ now)
  sound _ h := of_decide_eq_true h

def timeoutConfig : TimeoutConfig := ⟨Duration.fromSecs 10, Duration.fromSecs 100⟩

/-- Its one frame is ready a second after the first poll. -/
def oneFrame : InnerBody Nat Nat := [(1000000000, .frame 7)]

/-- The second poll comes when the ten seconds are over. -/
def lateRun : List (Instant × Polled Nat Nat) :=
  (TimeoutBody.new oneFrame timeoutConfig 0).run [timelyPoll 0, timelyPoll 10000000000]

end Sample

theorem timeouts_reported_sample : TimeoutBody.frames Sample.lateRun <+: [7] ∧ ∀ before now d after,
    Sample.lateRun = before ++ (now, .ready (.error (.chunkTimeout d))) :: after → (10000000000 : Int) ≤ now := by
  have hsorted : [Sample.timelyPoll 0, Sample.timelyPoll 10000000000].Pairwise fun p q => p.now ≤ q.now := by
    simp [Sample.timelyPoll]
  have h := TimeoutBody.timeouts_reported Sample.oneFrame Sample.timeoutConfig 0 (Sample.timelyPoll 0) hsorted
  exact ⟨h.1, fun before now d after hlog => (h.2.2 before now d after hlog).1⟩

/-- The consumer that polls after ten seconds is told of a timeout of the frame that was ready after one. -/
theorem late_consumer_blamed : ¬ ∀ (inner : InnerBody Nat Nat) (config : TimeoutConfig) (created : Instant) (first : Poll)
    (ps : List Poll), ((first :: ps).Pairwise fun p q => p.now ≤ q.now) → ∀ before now d after,
    (TimeoutBody.new inner config created).run (first :: ps) =
      before ++ (now, .ready (.error (.chunkTimeout d))) :: after →
    TimeoutBody.frames before = [] → ∀ readyAt f,
    (inner.drop (TimeoutBody.delivered before).length).head? = some (readyAt, .frame f) →
    first.now + config.chunkTimeout ≤ readyAt := by
  intro h
  have hsorted : [Sample.timelyPoll 0, Sample.timelyPoll 10000000000].Pairwise fun p q => p.now ≤ q.now := by
    simp [Sample.timelyPoll]
  have hrun : Sample.lateRun =
      [(0, .pending)] ++ (10000000000, .ready (.error (.chunkTimeout (Duration.fromSecs 10)))) :: [] := by decide
  have hready := h _ _ _ _ _ hsorted _ _ _ _ hrun rfl 1000000000 7 rfl
  exact absurd hready (by decide)

end ThoughtGate
