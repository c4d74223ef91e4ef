import ThoughtGate.Base.Text
import ThoughtGate.Base.Time
import ThoughtGate.Lib.Gcra
import ThoughtGate.Lib.Threads

/-!
# The rate of requests from an address

`rate_limiter.rs`: a map with a limiter for each address, checked by the requests and swept now and then. A check holds the
lock of its shard of the map from the look-up of its entry until its limiter has been asked; a sweep reads the clock, the
length of the map, removes from one shard after the other what is stale, and reads the length again.

A sweep forgets what a limiter has let through. That is harmless where the limiter would have made up for it
(`Steady`), which the configuration ensures exactly if the burst is not more than what the rate allows for while an entry
becomes stale; and the second length is below the first unless an entry has come in between (`rate_bound_survives_cleanup`).

The direct limiter of `governor` is `Gcra`.
-/

namespace ThoughtGate

/-- `IpAddr`. -/
abbrev IpAddr := BitVec 32 ⊕ BitVec 128

/-! ### Configuration -/

/-- `RateLimiterConfig`. -/
structure RateLimiterConfig where
  rps : Nat
  burst : Nat
  staleAfter : Duration
deriving DecidableEq

namespace RateLimiterConfig

/-- `RateLimiterConfig::default`. -/
def default : RateLimiterConfig where
  rps := 100
  burst := 200
  staleAfter := Duration.fromSecs 300

/-- `parse::<u32>().ok()`, of a number above zero. -/
def parsePositive (value : String) : Option Nat := (Text.parseUsize value).filter fun n => 0 < n && n < 2 ^ 32

/-- `from_env`. -/
def fromEnv (env : String → Option String) : RateLimiterConfig where
  rps := ((env "THOUGHTGATE_RATE_LIMIT_RPS").bind parsePositive).getD default.rps
  burst := ((env "THOUGHTGATE_RATE_LIMIT_BURST").bind parsePositive).getD default.burst
  staleAfter := default.staleAfter

/-- The quota that `PerIpRateLimiter::new` makes; a second is a thousand million nanoseconds. -/
def quota (config : RateLimiterConfig) : Gcra where
  rate := if config.rps = 0 then 100 else config.rps
  unit := 1000000000
  burst := if config.burst = 0 then 200 else config.burst

theorem positive_of_parse {value : Option String} {n : Nat} (h : value.bind parsePositive = some n) : 0 < n := by
  obtain ⟨text, -, hparse⟩ := Option.bind_eq_some_iff.mp h
  have htest := (Option.filter_eq_some_iff.mp hparse).2
  simp only [Bool.and_eq_true, decide_eq_true_eq] at htest
  exact htest.1

theorem getD_parse_pos (value : Option String) {d : Nat} (hd : 0 < d) : 0 < (value.bind parsePositive).getD d := by
  cases h : value.bind parsePositive with
  | none => exact hd
  | some n => exact positive_of_parse h

/-- From the environment the quota has the configured numbers. -/
theorem quota_fromEnv (env : String → Option String) :
    (fromEnv env).quota = ⟨(fromEnv env).rps, 1000000000, (fromEnv env).burst⟩ := by
  have hrps : (fromEnv env).rps ≠ 0 := Nat.ne_of_gt (getD_parse_pos _ (by decide))
  have hburst : (fromEnv env).burst ≠ 0 := Nat.ne_of_gt (getD_parse_pos _ (by decide))
  rw [quota, if_neg hrps, if_neg hburst]

theorem one_le_burst (config : RateLimiterConfig) : 1 ≤ config.quota.burst := by
  show 1 ≤ if config.burst = 0 then 200 else config.burst
  split
  · omega
  · omega

end RateLimiterConfig

/-! ### The limiter -/

/-- `RateLimitEntry`; of the limiter its arrival time. -/
structure RateLimitEntry where
  tat : Option Int
  lastSeen : Instant

/-- The shards of the map, and the earliest instant that the platform can represent. -/
structure Platform where
  earliest : Instant
  shards : Nat
  shard : IpAddr → Nat
  shard_lt : ∀ ip, shard ip < shards

/-- `PerIpRateLimiter`, the clock, the requests that it has let through, and whether a subtraction has gone below what its
type can hold. -/
structure PerIpRateLimiter where
  clock : Instant
  limiters : Table IpAddr RateLimitEntry
  admitted : List (IpAddr × Instant)
  underflowed : Bool

/-- Where a `check` or a `cleanup_stale` is. -/
inductive LimiterPc where
  | arriving (ip : IpAddr)
  | touched (ip : IpAddr)
  | cleaning
  | measuring (cutoff : Instant)
  | sweeping (cutoff : Instant) (before : Nat) (shard : Nat)

/-- The instant up to which what has been seen is stale. -/
def LimiterPc.cutoff : LimiterPc → Option Instant
  | .measuring cutoff => some cutoff
  | .sweeping cutoff _ _ => some cutoff
  | _ => none

namespace PerIpRateLimiter

/-- The arrival time that the map has for an address. -/
def tat (s : PerIpRateLimiter) (ip : IpAddr) : Option Int := (s.limiters.lookup ip).bind (·.tat)

/-- The times at which requests of the address have been let through. -/
def times (s : PerIpRateLimiter) (ip : IpAddr) : List Instant := (s.admitted.filter (·.1 = ip)).map (·.2)

/-- The entry is not removed from this shard. -/
def retained (pf : Platform) (cutoff : Instant) (shard : Nat) (ip : IpAddr) (entry : RateLimitEntry) : Bool :=
  pf.shard ip != shard || decide (cutoff < entry.lastSeen)

/-- The next step of `check` or `cleanup_stale`, at a reading of the clock. -/
def perform (config : RateLimiterConfig) (pf : Platform) (s : PerIpRateLimiter) (now : Instant) :
    LimiterPc → Option (PerIpRateLimiter × Option LimiterPc)
  | .arriving ip => some ({ s with limiters := s.limiters.insert ip ⟨s.tat ip, now⟩ }, some (.touched ip))
  | .touched ip =>
    (s.limiters.lookup ip).map fun entry =>
      if config.quota.Admits entry.tat now then
        ({ s with
          limiters := s.limiters.insert ip { entry with tat := some (config.quota.advance entry.tat now) }
          admitted := s.admitted ++ [(ip, now)] }, none)
      else (s, none)
  | .cleaning =>
    if now - config.staleAfter < pf.earliest then some ({ s with underflowed := true }, none)
    else some (s, some (.measuring (now - config.staleAfter)))
  | .measuring cutoff => some (s, some (.sweeping cutoff s.limiters.entries.length 0))
  | .sweeping cutoff before shard =>
    if shard < pf.shards then
      some ({ s with limiters := s.limiters.retain (retained pf cutoff shard) }, some (.sweeping cutoff before (shard + 1)))
    else some ({ s with underflowed := s.underflowed || decide (before < s.limiters.entries.length) }, none)

/-- The clock does not go back. -/
def next (config : RateLimiterConfig) (pf : Platform) (s : PerIpRateLimiter) (p : LimiterPc) (now : Instant) :
    Option (PerIpRateLimiter × Option LimiterPc) :=
  if s.clock ≤ now then perform config pf { s with clock := now } now p else none

/-- Checks and sweeps over an empty map. -/
def program (config : RateLimiterConfig) (pf : Platform) : Program PerIpRateLimiter LimiterPc Instant Nat where
  init := ⟨pf.earliest, ∅, [], false⟩
  start _ _
    | .arriving _ => true
    | .cleaning => true
    | _ => false
  next := next config pf
  held
    | .touched ip => [(pf.shard ip, .write)]
    | _ => []
  wants
    | .arriving ip => some (pf.shard ip, .write)
    | .sweeping _ _ shard => if shard < pf.shards then some (shard, .write) else none
    | _ => none

/-! ### What is asked of it -/

/-- In any window at most the burst and what the rate allows for are let through. -/
def Bounded (config : RateLimiterConfig) (s : PerIpRateLimiter) : Prop :=
  ∀ ip (start : Instant) (width : Duration),
    Gcra.count (s.times ip) start width * 1000000000 ≤ config.burst * 1000000000 + config.rps * width

/-- The step adds an entry only where the sweeps that are under way have made room for it, and a sweep begins when the clock
can be set back so far. -/
def Orderly (config : RateLimiterConfig) (pf : Platform) (s : ThreadState PerIpRateLimiter LimiterPc) :
    ThreadAct LimiterPc Instant → Prop
  | .spawn _ _ => True
  | .run t now => match s.threads.lookup t with
    | some (.arriving ip) => s.shared.limiters.lookup ip = none → ∀ u cutoff before shard,
        s.threads.lookup u = some (.sweeping cutoff before shard) → s.shared.limiters.entries.length < before
    | some .cleaning => pf.earliest ≤ now - config.staleAfter
    | _ => True

/-- Besides, the step removes no entry whose arrival time is still to come. -/
def Steady (config : RateLimiterConfig) (pf : Platform) (s : ThreadState PerIpRateLimiter LimiterPc)
    (a : ThreadAct LimiterPc Instant) : Prop :=
  Orderly config pf s a ∧ ∀ t now cutoff before shard, a = .run t now →
    s.threads.lookup t = some (.sweeping cutoff before shard) → ∀ ip entry, s.shared.limiters.lookup ip = some entry →
    retained pf cutoff shard ip entry = false → ∀ x ∈ entry.tat, x ≤ config.quota.rate * now

/-- Besides, a limiter is asked at the instant that its entry was looked up. -/
def Prompt (config : RateLimiterConfig) (pf : Platform) (s : ThreadState PerIpRateLimiter LimiterPc)
    (a : ThreadAct LimiterPc Instant) : Prop :=
  Orderly config pf s a ∧ ∀ t now ip entry, a = .run t now → s.threads.lookup t = some (.touched ip) →
    s.shared.limiters.lookup ip = some entry → entry.lastSeen = now

/-! ### The map and what has been let through -/

variable {config : RateLimiterConfig} {pf : Platform} {s : PerIpRateLimiter}

theorem tat_insert (ip : IpAddr) (entry : RateLimitEntry) (j : IpAddr) :
    tat { s with limiters := s.limiters.insert ip entry } j = if j = ip then entry.tat else s.tat j := by
  unfold tat
  split
  · rename_i h
    rw [h, AList.lookup_insert]
    rfl
  · rename_i h
    rw [AList.lookup_insert_ne h]

/-- A new time of looking up does not change the arrival time. -/
theorem tat_touch (ip : IpAddr) (now : Instant) (j : IpAddr) :
    tat { s with limiters := s.limiters.insert ip ⟨s.tat ip, now⟩ } j = s.tat j := by
  rw [tat_insert]
  split
  · rename_i h
    rw [h]
  · rfl

theorem times_append (ip : IpAddr) (now : Instant) (j : IpAddr) :
    times { s with admitted := s.admitted ++ [(ip, now)] } j = if j = ip then s.times j ++ [now] else s.times j := by
  unfold times
  rw [List.filter_append, List.map_append]
  split
  · rename_i h
    rw [List.filter_cons_of_pos (by simp [h])]
    rfl
  · rename_i h
    rw [List.filter_cons_of_neg (by simpa using Ne.symm h), List.filter_nil, List.map_nil, List.append_nil]

/-- What the map remembers is enough: of each address the arrival time after what has been let through, or nothing where this
has passed. -/
structure Remembers (config : RateLimiterConfig) (s : PerIpRateLimiter) : Prop where
  conforms : ∀ ip, config.quota.Conforms (s.times ip)
  arrival : ∀ ip, s.tat ip = config.quota.after (s.times ip) ∨
    s.tat ip = none ∧ ∀ x ∈ config.quota.after (s.times ip), x ≤ config.quota.rate * s.clock

namespace Remembers

theorem tick (h : Remembers config s) {now : Instant} (hnow : s.clock ≤ now) : Remembers config { s with clock := now } where
  conforms := h.conforms
  arrival ip := (h.arrival ip).imp_right fun ⟨hnone, hpassed⟩ =>
    ⟨hnone, fun x hx => (hpassed x hx).trans (Int.mul_le_mul_of_nonneg_left hnow (by omega))⟩

/-- Of the arrival times only those matter that are not yet passed. -/
theorem of_tat (h : Remembers config s) {limiters : Table IpAddr RateLimitEntry}
    (htat : ∀ ip, tat { s with limiters := limiters } ip = s.tat ip ∨
      tat { s with limiters := limiters } ip = none ∧ ∀ x ∈ s.tat ip, x ≤ config.quota.rate * s.clock) :
    Remembers config { s with limiters := limiters } where
  conforms := h.conforms
  arrival ip := by
    rcases htat ip with hsame | ⟨hnone, hpassed⟩
    · rw [hsame]
      exact h.arrival ip
    · refine Or.inr ⟨hnone, ?_⟩
      rcases h.arrival ip with heq | ⟨-, hold⟩
      · rw [heq] at hpassed
        exact hpassed
      · exact hold

/-- A limiter lets a request through only where its cell conforms to all that have been let through. -/
theorem allow (h : Remembers config s) {ip : IpAddr} (hadmits : config.quota.Admits (s.tat ip) s.clock)
    {limiters : Table IpAddr RateLimitEntry}
    (htat : ∀ j, tat { s with limiters := limiters } j =
      if j = ip then some (config.quota.advance (s.tat ip) s.clock) else s.tat j) :
    Remembers config { s with limiters := limiters, admitted := s.admitted ++ [(ip, s.clock)] } := by
  -- a limiter that has been forgotten does as it would with the arrival time that has passed
  have hagree : config.quota.advance (s.tat ip) s.clock = config.quota.advance (config.quota.after (s.times ip)) s.clock ∧
      config.quota.Admits (config.quota.after (s.times ip)) s.clock := by
    rcases h.arrival ip with heq | ⟨hnone, hpassed⟩
    · rw [← heq]
      exact ⟨rfl, hadmits⟩
    · rw [hnone, Gcra.advance_passed hpassed]
      exact ⟨rfl, Gcra.admits_passed config.one_le_burst hpassed⟩
  have htimes (j : IpAddr) := times_append (s := { s with limiters := limiters }) ip s.clock j
  refine ⟨fun j => ?_, fun j => ?_⟩
  · rw [htimes]
    split
    · rename_i hj
      subst hj
      exact (h.conforms j).snoc hagree.2
    · exact h.conforms j
  · rw [htimes]
    have htat' := htat j
    split
    · rename_i hj
      subst hj
      rw [if_pos rfl, hagree.1, ← Gcra.after_snoc] at htat'
      exact Or.inl htat'
    · rename_i hj
      rw [if_neg hj] at htat'
      exact (h.arrival j).imp (htat'.trans ·) (And.imp_left (htat'.trans ·))

theorem bounded (env : String → Option String) {s : PerIpRateLimiter} (h : Remembers (RateLimiterConfig.fromEnv env) s) :
    Bounded (RateLimiterConfig.fromEnv env) s := by
  intro ip start width
  have hcount := (h.conforms ip).count_le (RateLimiterConfig.one_le_burst _) start width
  rw [RateLimiterConfig.quota_fromEnv] at hcount
  exact hcount

end Remembers

/-! ### Steps -/

/-- What a step can do. -/
inductive Performs (config : RateLimiterConfig) (pf : Platform) (now : Instant) (s : PerIpRateLimiter) :
    LimiterPc → PerIpRateLimiter → Option LimiterPc → Prop
  | arrive (ip : IpAddr) :
    Performs config pf now s (.arriving ip) { s with limiters := s.limiters.insert ip ⟨s.tat ip, now⟩ } (some (.touched ip))
  | allow (ip : IpAddr) (entry : RateLimitEntry) (hentry : s.limiters.lookup ip = some entry)
    (hadmits : config.quota.Admits entry.tat now) : Performs config pf now s (.touched ip)
      { s with
        limiters := s.limiters.insert ip { entry with tat := some (config.quota.advance entry.tat now) }
        admitted := s.admitted ++ [(ip, now)] } none
  | refuse (ip : IpAddr) : Performs config pf now s (.touched ip) s none
  | overflow (hearly : now - config.staleAfter < pf.earliest) :
    Performs config pf now s .cleaning { s with underflowed := true } none
  | start (hlate : pf.earliest ≤ now - config.staleAfter) :
    Performs config pf now s .cleaning s (some (.measuring (now - config.staleAfter)))
  | measure (cutoff : Instant) :
    Performs config pf now s (.measuring cutoff) s (some (.sweeping cutoff s.limiters.entries.length 0))
  | sweep (cutoff : Instant) (before shard : Nat) (hshard : shard < pf.shards) :
    Performs config pf now s (.sweeping cutoff before shard)
      { s with limiters := s.limiters.retain (retained pf cutoff shard) } (some (.sweeping cutoff before (shard + 1)))
  | finish (cutoff : Instant) (before shard : Nat) : Performs config pf now s (.sweeping cutoff before shard)
      { s with underflowed := s.underflowed || decide (before < s.limiters.entries.length) } none

variable {now : Instant} {p : LimiterPc} {s' : PerIpRateLimiter} {p' : Option LimiterPc}

theorem Performs.of_perform (h : perform config pf s now p = some (s', p')) : Performs config pf now s p s' p' := by
  cases p with
  | arriving ip =>
    cases h
    exact .arrive ip
  | touched ip =>
    obtain ⟨entry, hentry, h⟩ := Option.map_eq_some_iff.mp h
    split at h
    · rename_i hadmits
      cases h
      exact .allow ip entry hentry hadmits
    · cases h
      exact .refuse ip
  | cleaning =>
    simp only [perform] at h
    split at h
    · rename_i hearly
      cases h
      exact .overflow hearly
    · rename_i hnot
      cases h
      exact .start (Int.not_lt.mp hnot)
  | measuring cutoff =>
    cases h
    exact .measure cutoff
  | sweeping cutoff before shard =>
    simp only [perform] at h
    split at h
    · rename_i hshard
      cases h
      exact .sweep cutoff before shard hshard
    · cases h
      exact .finish cutoff before shard

theorem Performs.of_next (h : next config pf s p now = some (s', p')) :
    s.clock ≤ now ∧ Performs config pf now { s with clock := now } p s' p' := by
  unfold next at h
  split at h
  · rename_i hnow
    exact ⟨hnow, .of_perform h⟩
  · cases h

/-- The arrival times that are left after a shard has been swept. -/
theorem tat_retain (cutoff : Instant) (shard : Nat) (ip : IpAddr) :
    tat { s with limiters := s.limiters.retain (retained pf cutoff shard) } ip = s.tat ip ∨
      tat { s with limiters := s.limiters.retain (retained pf cutoff shard) } ip = none ∧
        ∀ x ∈ s.tat ip, ∃ entry, s.limiters.lookup ip = some entry ∧ retained pf cutoff shard ip entry = false ∧
          x ∈ entry.tat := by
  unfold tat
  rw [Table.lookup_retain]
  cases hentry : s.limiters.lookup ip with
  | none => exact Or.inl rfl
  | some entry =>
    rw [Option.filter_some]
    cases hkeep : retained pf cutoff shard ip entry with
    | true => exact Or.inl rfl
    | false => exact Or.inr ⟨rfl, fun x hx => ⟨entry, rfl, hkeep, hx⟩⟩

namespace Performs

theorem remembers (h : Performs config pf s.clock s p s' p') (hold : Remembers config s)
    (hpassed : ∀ cutoff before shard, p = .sweeping cutoff before shard → ∀ ip entry,
      s.limiters.lookup ip = some entry → retained pf cutoff shard ip entry = false →
      ∀ x ∈ entry.tat, x ≤ config.quota.rate * s.clock) : Remembers config s' := by
  cases h with
  | arrive ip => exact hold.of_tat fun j => Or.inl (tat_touch ip s.clock j)
  | allow ip entry hentry hadmits =>
    have htat : s.tat ip = entry.tat := by rw [tat, hentry, Option.bind_some]
    refine hold.allow (htat ▸ hadmits) fun j => ?_
    rw [tat_insert, htat]
  | refuse | start | measure => exact hold
  | overflow | finish => exact ⟨hold.conforms, hold.arrival⟩
  | sweep cutoff before shard =>
    refine hold.of_tat fun ip => (tat_retain cutoff shard ip).imp_right fun ⟨hnone, hall⟩ => ⟨hnone, fun x hx => ?_⟩
    obtain ⟨entry, hentry, hgone, hmem⟩ := hall x hx
    exact hpassed cutoff before shard rfl ip entry hentry hgone x hmem

/-- The map grows only by an address that it has not had. -/
theorem length (h : Performs config pf now s p s' p') :
    s'.limiters.entries.length ≤ s.limiters.entries.length ∨
      ∃ ip, p = .arriving ip ∧ s.limiters.lookup ip = none ∧
        s'.limiters.entries.length = s.limiters.entries.length + 1 := by
  cases h with
  | arrive ip =>
    cases hentry : s.limiters.lookup ip with
    | none => exact Or.inr ⟨ip, rfl, hentry, Table.length_insert_new hentry _⟩
    | some entry => exact Or.inl (Table.length_insert hentry _).le
  | allow ip entry hentry => exact Or.inl (Table.length_insert hentry _).le
  | sweep => exact Or.inl (Table.length_retain_le _ _)
  | refuse | overflow | start | measure | finish => exact Or.inl le_rfl

/-- A sweep has read the length just now, or goes on with what it has read. -/
theorem sweeping {cutoff : Instant} {before shard : Nat}
    (h : Performs config pf now s p s' (some (.sweeping cutoff before shard))) :
    (s' = s ∧ s.limiters.entries.length = before) ∨ ∃ k, p = .sweeping cutoff before k := by
  cases h with
  | measure => exact Or.inl ⟨rfl, rfl⟩
  | sweep _ _ k => exact Or.inr ⟨k, rfl⟩

/-- Neither subtraction underflows when the clock can be set back and the second length is not above the first. -/
theorem underflowed (h : Performs config pf now s p s' p') (hclean : p = .cleaning → pf.earliest ≤ now - config.staleAfter)
    (hsweep : ∀ cutoff before shard, p = .sweeping cutoff before shard → s.limiters.entries.length ≤ before) :
    s'.underflowed = s.underflowed := by
  cases h with
  | arrive | allow | refuse | start | measure | sweep => rfl
  | overflow hearly => exact absurd hearly (Int.not_lt.mpr (hclean rfl))
  | finish cutoff before shard =>
    have hnot : decide (before < s.limiters.entries.length) = false :=
      decide_eq_false (Nat.not_lt.mpr (hsweep cutoff before shard rfl))
    show (s.underflowed || decide (before < s.limiters.entries.length)) = s.underflowed
    rw [hnot, Bool.or_false]

theorem clock (h : Performs config pf now s p s' p') : s'.clock = s.clock := by
  cases h with
  | _ => rfl

/-- The cutoff of a sweep is taken once. -/
theorem cutoff {q : LimiterPc} {c : Instant} (h : Performs config pf now s p s' (some q)) (hq : q.cutoff = some c) :
    c = now - config.staleAfter ∨ p.cutoff = some c := by
  cases h with
  | arrive => cases hq
  | start =>
    cases hq
    exact Or.inl rfl
  | measure | sweep => exact Or.inr hq

end Performs

/-! ### Every run -/

/-- What the states have in common that steady steps reach. A sweep has read a length that is at least the present one. -/
structure Kept (config : RateLimiterConfig) (s : ThreadState PerIpRateLimiter LimiterPc) : Prop where
  remembers : Remembers config s.shared
  covered : ∀ u cutoff before shard, s.threads.lookup u = some (.sweeping cutoff before shard) →
    s.shared.limiters.entries.length ≤ before
  underflowed : s.shared.underflowed = false

theorem Kept.step {s s' : ThreadState PerIpRateLimiter LimiterPc} {a : ThreadAct LimiterPc Instant} (h : Kept config s)
    (hok : Steady config pf s a) (hstep : (program config pf).machine.step s a = some s') : Kept config s' := by
  rcases Program.step_cases hstep with ⟨t, p, rfl, -, hstart, rfl⟩ | ⟨t, now, p, shared, p', rfl, hp, -, hnext, rfl⟩
  · refine ⟨h.remembers, fun u cutoff before shard hu => ?_, h.underflowed⟩
    have hsettle : (Program.settle s.threads t (some p)).lookup u = some (.sweeping cutoff before shard) := hu
    rcases Program.settle_cases hsettle with ⟨-, hnew⟩ | ⟨-, hold⟩
    · cases hnew
      cases hstart
    · exact h.covered u cutoff before shard hold
  · obtain ⟨hnow, hperforms⟩ := Performs.of_next hnext
    have horder := hok.1
    simp only [Orderly, hp] at horder
    refine ⟨hperforms.remembers (h.remembers.tick hnow) ?_, fun u cutoff before shard hu => ?_, ?_⟩
    · rintro cutoff before shard rfl
      exact hok.2 t now cutoff before shard rfl hp
    · -- no thread but one that arrives makes the map longer, and it has found room
      have hkept : ∀ v k, s.threads.lookup v = some (.sweeping cutoff before k) → shared.limiters.entries.length ≤ before := by
        intro v k hv
        rcases hperforms.length with hle | ⟨ip, rfl, hnone, hmore⟩
        · exact hle.trans (h.covered v cutoff before k hv)
        · have hroom := horder hnone v cutoff before k hv
          exact hmore.trans_le hroom
      rcases Program.settle_cases hu with ⟨rfl, rfl⟩ | ⟨-, hold⟩
      · rcases hperforms.sweeping with ⟨rfl, rfl⟩ | ⟨k, rfl⟩
        · exact le_rfl
        · exact hkept u k hp
      · exact hkept u shard hold
    · rw [hperforms.underflowed ?_ ?_]
      · exact h.underflowed
      · rintro rfl
        exact horder
      · rintro cutoff before shard rfl
        exact h.covered t cutoff before shard hp

theorem Kept.of_reachable {s : ThreadState PerIpRateLimiter LimiterPc}
    (h : (program config pf).machine.ReachableWhen (Steady config pf) s) : Kept config s := by
  refine Machine.ReachableWhen.invariant ?_ (fun _ _ _ _ hs hok hstep => hs.step hok hstep) h
  refine ⟨⟨fun _ => .nil, fun _ => Or.inl rfl⟩, fun u cutoff before shard hu => ?_, rfl⟩
  cases hu

/-- While a limiter is asked, nobody removes its entry: a sweep waits for the shard. -/
theorem touched_found {s : ThreadState PerIpRateLimiter LimiterPc} (h : (program config pf).machine.Reachable s) {t : Nat}
    {ip : IpAddr} (ht : s.threads.lookup t = some (.touched ip)) : ip ∈ s.shared.limiters := by
  revert t ip
  refine Machine.Reachable.invariant (I := fun s => ∀ {t : Nat} {ip : IpAddr},
    s.threads.lookup t = some (.touched ip) → ip ∈ s.shared.limiters) ?_ ?_ h
  · intro t ip ht
    cases ht
  intro s a s' hfound hstep u ip hu
  rcases Program.step_cases hstep with ⟨t, p, rfl, -, hstart, rfl⟩ | ⟨t, now, p, shared, p', rfl, hp, hready, hnext, rfl⟩
  · have hsettle : (Program.settle s.threads t (some p)).lookup u = some (.touched ip) := hu
    rcases Program.settle_cases hsettle with ⟨-, hnew⟩ | ⟨-, hold⟩
    · cases hnew
      cases hstart
    · exact hfound hold
  · have hperforms := (Performs.of_next hnext).2
    rcases Program.settle_cases hu with ⟨rfl, rfl⟩ | ⟨hne, hold⟩
    · cases hperforms with
      | arrive => exact AList.mem_insert _ |>.mpr (Or.inl rfl)
    · have hmem : ip ∈ s.shared.limiters := hfound hold
      cases hperforms with
      | arrive | allow => exact (AList.mem_insert _).mpr (Or.inr hmem)
      | refuse | overflow | start | measure | finish => exact hmem
      | sweep cutoff before shard hshard =>
        have hother : shard ≠ pf.shard ip := by
          rintro rfl
          have hfree := Program.not_conflicts_of_ready hready (if_pos hshard) hne hold (List.mem_singleton_self _)
          cases hfree
        rw [← AList.lookup_isSome, Table.lookup_retain]
        obtain ⟨entry, hentry⟩ := Option.isSome_iff_exists.mp (AList.lookup_isSome.mpr hmem)
        simp [hentry, retained, hother.symm]

/-! ### Prompt checks -/

/-- An arrival time is passed before the entry becomes stale. -/
def Fresh (config : RateLimiterConfig) (s : PerIpRateLimiter) : Prop :=
  ∀ ip entry, s.limiters.lookup ip = some entry →
    entry.lastSeen ≤ s.clock ∧ ∀ x ∈ entry.tat, x ≤ config.quota.rate * (entry.lastSeen + config.staleAfter)

namespace Fresh

theorem tick (h : Fresh config s) (hnow : s.clock ≤ now) : Fresh config { s with clock := now } := by
  intro ip entry hentry
  exact ⟨(h ip entry hentry).1.trans hnow, (h ip entry hentry).2⟩

theorem insert (h : Fresh config s) {ip : IpAddr} {entry : RateLimitEntry} {admitted : List (IpAddr × Instant)}
    (hseen : entry.lastSeen ≤ s.clock) (htat : ∀ x ∈ entry.tat, x ≤ config.quota.rate * (entry.lastSeen + config.staleAfter)) :
    Fresh config { s with limiters := s.limiters.insert ip entry, admitted := admitted } := by
  intro j e he
  by_cases hj : j = ip
  · subst hj
    rw [AList.lookup_insert] at he
    cases he
    exact ⟨hseen, htat⟩
  · rw [AList.lookup_insert_ne hj] at he
    exact h j e he

end Fresh

theorem Performs.fresh (h : Performs config pf s.clock s p s' p') (hold : Fresh config s)
    (hroom : (config.quota.burst : Int) * config.quota.unit ≤ config.quota.rate * config.staleAfter)
    (hprompt : ∀ ip entry, p = .touched ip → s.limiters.lookup ip = some entry → entry.lastSeen = s.clock) :
    Fresh config s' := by
  cases h with
  | arrive ip =>
    refine hold.insert le_rfl fun x hx => ?_
    -- the arrival time is the old one, and the address has been seen later than before
    obtain ⟨entry, hentry, hmem⟩ := Option.bind_eq_some_iff.mp hx
    obtain ⟨hseen, hle⟩ := hold ip entry hentry
    exact (hle x hmem).trans (Int.mul_le_mul_of_nonneg_left (Int.add_le_add_right hseen _) (by omega))
  | allow ip entry hentry hadmits =>
    have hseen : entry.lastSeen = s.clock := hprompt ip entry rfl hentry
    refine hold.insert hseen.le fun x hx => ?_
    cases hx
    rw [hseen, Int.mul_add]
    exact (Gcra.advance_le config.one_le_burst hadmits).trans (Int.add_le_add_left hroom _)
  | refuse | overflow | start | measure | finish => exact hold
  | sweep =>
    intro ip entry hentry
    rw [Table.lookup_retain] at hentry
    exact hold ip entry (Option.filter_eq_some_iff.mp hentry).1

/-- What the states have in common that prompt steps reach, when the rate makes up for the burst while an entry becomes
stale. -/
structure Timely (config : RateLimiterConfig) (s : ThreadState PerIpRateLimiter LimiterPc) : Prop where
  fresh : Fresh config s.shared
  cutoffs : ∀ u p c, s.threads.lookup u = some p → p.cutoff = some c → c + config.staleAfter ≤ s.shared.clock

namespace Timely

variable {s s' : ThreadState PerIpRateLimiter LimiterPc} {a : ThreadAct LimiterPc Instant}

theorem step (hroom : (config.quota.burst : Int) * config.quota.unit ≤ config.quota.rate * config.staleAfter)
    (h : Timely config s) (hok : Prompt config pf s a) (hstep : (program config pf).machine.step s a = some s') :
    Timely config s' := by
  rcases Program.step_cases hstep with ⟨t, p, rfl, -, hstart, rfl⟩ | ⟨t, now, p, shared, p', rfl, hp, -, hnext, rfl⟩
  · refine ⟨h.fresh, fun u q c hu hq => ?_⟩
    have hsettle : (Program.settle s.threads t (some p)).lookup u = some q := hu
    rcases Program.settle_cases hsettle with ⟨-, hnew⟩ | ⟨-, hold⟩
    · cases hnew
      cases p with
      | arriving | cleaning => cases hq
      | touched | measuring | sweeping => cases hstart
    · exact h.cutoffs u q c hold hq
  · obtain ⟨hnow, hperforms⟩ := Performs.of_next hnext
    have hclock : shared.clock = now := hperforms.clock
    refine ⟨hperforms.fresh (h.fresh.tick hnow) hroom ?_, fun u q c hu hq => ?_⟩
    · rintro ip entry rfl hentry
      exact hok.2 t now ip entry rfl hp hentry
    · rw [hclock]
      rcases Program.settle_cases hu with ⟨rfl, rfl⟩ | ⟨-, hold⟩
      · rcases hperforms.cutoff hq with rfl | hpc
        · exact (Int.sub_add_cancel now config.staleAfter).le
        · exact (h.cutoffs u p c hp hpc).trans hnow
      · exact (h.cutoffs u q c hold hq).trans hnow

/-- A stale entry's arrival time is passed. -/
theorem steady (h : Timely config s) (hok : Prompt config pf s a) (hstep : (program config pf).machine.step s a = some s') :
    Steady config pf s a := by
  refine ⟨hok.1, ?_⟩
  rintro t now cutoff before shard rfl ht ip entry hentry hgone x hx
  rcases Program.step_cases hstep with ⟨_, _, hcontra, -⟩ | ⟨_, _, p, _, _, hact, hp, -, hnext, -⟩
  · cases hcontra
  · cases hact
    have hnow : s.shared.clock ≤ now := (Performs.of_next hnext).1
    have hseen : entry.lastSeen ≤ cutoff := by
      rw [retained, Bool.or_eq_false_iff, decide_eq_false_iff_not] at hgone
      exact Int.not_lt.mp hgone.2
    have hstale : entry.lastSeen + config.staleAfter ≤ now :=
      (Int.add_le_add_right hseen _).trans ((h.cutoffs t _ cutoff ht rfl).trans hnow)
    exact ((h.fresh ip entry hentry).2 x hx).trans (Int.mul_le_mul_of_nonneg_left hstale (by omega))

theorem of_reachable (hroom : (config.quota.burst : Int) * config.quota.unit ≤ config.quota.rate * config.staleAfter)
    (h : (program config pf).machine.ReachableWhen (Prompt config pf) s) :
    Timely config s ∧ (program config pf).machine.ReachableWhen (Steady config pf) s := by
  induction h with
  | init =>
    refine ⟨⟨fun ip entry hentry => ?_, fun u p c hu => ?_⟩, .init⟩
    · cases hentry
    · cases hu
  | step _ hok hstep ih => exact ⟨ih.1.step hroom hok hstep, .step ih.2 (ih.1.steady hok hstep) hstep⟩

end Timely

/-! ### A burst before a sweep and one after it -/

/-- Prompt steps of a single thread reach this. -/
def ReachedAlone (config : RateLimiterConfig) (pf : Platform) (s : PerIpRateLimiter) (p' : Option LimiterPc) : Prop :=
  (program config pf).machine.ReachableWhen (Prompt config pf) ⟨s, Program.settle ∅ 0 p'⟩

namespace ReachedAlone

theorem start (h : ReachedAlone config pf s none) (hstart : (program config pf).start s ∅ p = true) :
    ReachedAlone config pf s (some p) := by
  refine Machine.ReachableWhen.step (l := .spawn 0 p) h ⟨trivial, ?_⟩ ?_
  · rintro t now ip entry hcontra
    cases hcontra
  · exact if_pos ⟨rfl, hstart⟩

theorem step (h : ReachedAlone config pf s (some p)) (hclean : p = .cleaning → pf.earliest ≤ now - config.staleAfter)
    (htouched : ∀ ip entry, p = .touched ip → s.limiters.lookup ip = some entry → entry.lastSeen = now)
    (hnow : s.clock ≤ now) (hstep : perform config pf { s with clock := now } now p = some (s', p')) :
    ReachedAlone config pf s' p' := by
  have hnext : (program config pf).next s p now = some (s', p') := (if_pos hnow).trans hstep
  refine Machine.ReachableWhen.step (l := .run 0 now) h ⟨?_, ?_⟩ (Program.step_alone hnext)
  · simp only [Orderly, Program.settle_lookup]
    cases p with
    | arriving ip =>
      intro _ u cutoff before shard hu
      rcases Program.settle_cases hu with ⟨-, hcontra⟩ | ⟨-, hcontra⟩
      · cases hcontra
      · cases hcontra
    | cleaning => exact hclean rfl
    | touched | measuring | sweeping => trivial
  · rintro t instant ip entry hact ht hentry
    cases hact
    rw [Program.settle_lookup] at ht
    exact htouched ip entry (Option.some.inj ht) hentry

end ReachedAlone

/-- After `ts` there have been `n` requests of the address at this instant, the limiter being as good as new before. -/
structure Burst (config : RateLimiterConfig) (pf : Platform) (ip : IpAddr) (now : Instant) (ts : List Instant) (n : Nat)
    (s : PerIpRateLimiter) : Prop where
  alone : ReachedAlone config pf s none
  clock : s.clock ≤ now
  seen : ∀ entry, s.limiters.lookup ip = some entry → entry.lastSeen ≤ now
  tat : ∀ x ∈ s.tat ip, x ≤ config.quota.rate * now + n * config.quota.unit
  times : s.times ip = ts ++ List.replicate n now

namespace Burst

variable {ip : IpAddr} {ts : List Instant} {n : Nat}

theorem check (h : Burst config pf ip now ts n s) (hn : n < config.quota.burst) :
    ∃ s', Burst config pf ip now ts (n + 1) s' := by
  have hadmits : config.quota.Admits (s.tat ip) now := by
    intro x hx
    have hcells : (n : Int) * config.quota.unit ≤ (config.quota.burst - 1) * config.quota.unit :=
      Int.mul_le_mul_of_nonneg_right (by omega) (by omega)
    exact (h.tat x hx).trans (Int.add_le_add_left hcells _)
  have harrived := (h.alone.start (p := .arriving ip) rfl).step nofun nofun h.clock rfl
  have hentry : (s.limiters.insert ip ⟨s.tat ip, now⟩).lookup ip = some ⟨s.tat ip, now⟩ := AList.lookup_insert _
  have hasked : perform config pf { s with clock := now, limiters := s.limiters.insert ip ⟨s.tat ip, now⟩ } now (.touched ip) =
      some ({
        clock := now
        limiters := (s.limiters.insert ip ⟨s.tat ip, now⟩).insert ip ⟨some (config.quota.advance (s.tat ip) now), now⟩
        admitted := s.admitted ++ [(ip, now)]
        underflowed := s.underflowed }, none) := by
    simp only [perform, hentry, Option.map_some, if_pos hadmits]
  refine ⟨_, harrived.step nofun ?_ le_rfl hasked, le_rfl, ?_, ?_, ?_⟩
  · intro j entry hj hlookup
    cases hj
    cases hentry.symm.trans hlookup
    rfl
  · intro entry hlookup
    rw [AList.lookup_insert] at hlookup
    cases hlookup
    exact le_rfl
  · intro x hx
    simp only [PerIpRateLimiter.tat, AList.lookup_insert, Option.bind_some] at hx
    cases hx
    have hroom : (0 : Int) ≤ n * config.quota.unit := Int.mul_nonneg (by omega) (by omega)
    have hahead := Gcra.advance_le_add (Int.le_add_of_nonneg_right hroom) h.tat
    have hcell : ((n + 1 : Nat) : Int) * config.quota.unit = n * config.quota.unit + config.quota.unit := by
      push_cast
      ring
    rw [hcell, ← Int.add_assoc]
    exact hahead
  · have htimes := times_append (s := s) ip now ip
    rw [if_pos rfl, h.times, List.append_assoc, ← List.replicate_succ'] at htimes
    exact htimes

theorem checks (h : Burst config pf ip now ts 0 s) (hn : n ≤ config.quota.burst) : ∃ s', Burst config pf ip now ts n s' := by
  induction n with
  | zero => exact ⟨s, h⟩
  | succ n ih =>
    obtain ⟨s', h'⟩ := ih (Nat.le_of_succ_le hn)
    exact h'.check hn

end Burst

/-- A sweep has come to this shard, and what it has passed of the address is gone. -/
structure Swept (config : RateLimiterConfig) (pf : Platform) (ip : IpAddr) (now : Instant) (ts : List Instant) (before : Nat)
    (shard : Nat) (s : PerIpRateLimiter) : Prop where
  alone : ReachedAlone config pf s (some (.sweeping now before shard))
  clock : s.clock ≤ now + config.staleAfter
  seen : ∀ entry, s.limiters.lookup ip = some entry → entry.lastSeen ≤ now
  gone : pf.shard ip < shard → s.limiters.lookup ip = none
  times : s.times ip = ts

namespace Swept

variable {ip : IpAddr} {ts : List Instant} {before shard : Nat}

theorem step (h : Swept config pf ip now ts before shard s) (hshard : shard < pf.shards) :
    ∃ s', Swept config pf ip now ts before (shard + 1) s' := by
  have hswept : perform config pf { s with clock := now + config.staleAfter } (now + config.staleAfter)
      (.sweeping now before shard) = some ({ s with
        clock := now + config.staleAfter
        limiters := s.limiters.retain (retained pf now shard) }, some (.sweeping now before (shard + 1))) :=
    if_pos hshard
  refine ⟨_, h.alone.step nofun nofun h.clock hswept, le_rfl, ?_, ?_, h.times⟩
  · intro entry hentry
    rw [Table.lookup_retain] at hentry
    exact h.seen entry (Option.filter_eq_some_iff.mp hentry).1
  · intro hlt
    show (s.limiters.retain (retained pf now shard)).lookup ip = none
    rw [Table.lookup_retain, Option.filter_eq_none_iff]
    intro entry hentry
    have hnot : ¬ pf.shard ip < shard := fun hbelow => by
      rw [h.gone hbelow] at hentry
      cases hentry
    have hhere : pf.shard ip = shard := by omega
    simp [retained, hhere, h.seen entry hentry]

theorem steps (h : Swept config pf ip now ts before 0 s) (hshard : shard ≤ pf.shards) :
    ∃ s', Swept config pf ip now ts before shard s' := by
  induction shard with
  | zero => exact ⟨s, h⟩
  | succ shard ih =>
    obtain ⟨s', h'⟩ := ih (Nat.le_of_succ_le hshard)
    exact h'.step hshard

end Swept

/-- A sweep that comes as soon as the entry of the address is stale. -/
theorem Burst.sweep {ip : IpAddr} {ts : List Instant} {n : Nat} (h : Burst config pf ip now ts n s)
    (hearly : pf.earliest ≤ now) : ∃ s', Burst config pf ip (now + config.staleAfter) (s.times ip) 0 s' := by
  have hback : now + config.staleAfter - config.staleAfter = now := Int.add_sub_cancel now config.staleAfter
  have hlater : s.clock ≤ now + config.staleAfter := h.clock.trans (Int.le_add_of_nonneg_right (Int.natCast_nonneg _))
  have hstarted : perform config pf { s with clock := now + config.staleAfter } (now + config.staleAfter) .cleaning =
      some ({ s with clock := now + config.staleAfter }, some (.measuring now)) := by
    rw [perform, hback, if_neg (Int.not_lt.mpr hearly)]
  have hmeasuring := (h.alone.start (p := .cleaning) rfl).step (fun _ => hearly.trans hback.ge) nofun hlater hstarted
  have hmeasured : perform config pf { s with clock := now + config.staleAfter } (now + config.staleAfter) (.measuring now) =
      some ({ s with clock := now + config.staleAfter }, some (.sweeping now s.limiters.entries.length 0)) := rfl
  have hsweeping : Swept config pf ip now (s.times ip) s.limiters.entries.length 0
      { s with clock := now + config.staleAfter } :=
    ⟨hmeasuring.step nofun nofun le_rfl hmeasured, le_rfl, h.seen, nofun, rfl⟩
  obtain ⟨s', h'⟩ := hsweeping.steps (le_refl pf.shards)
  have hfinished : perform config pf { s' with clock := now + config.staleAfter } (now + config.staleAfter)
      (.sweeping now s.limiters.entries.length pf.shards) = some ({ s' with
        clock := now + config.staleAfter
        underflowed := s'.underflowed || decide (s.limiters.entries.length < s'.limiters.entries.length) }, none) :=
    if_neg (lt_irrefl _)
  have hnone := h'.gone (pf.shard_lt ip)
  refine ⟨_, h'.alone.step nofun nofun h'.clock hfinished, le_rfl, ?_, ?_, ?_⟩
  · intro entry hentry
    cases hnone.symm.trans hentry
  · intro x hx
    simp only [PerIpRateLimiter.tat, hnone, Option.bind_none] at hx
    cases hx
  · exact h'.times.trans (List.append_nil _).symm

/-- The burst twice, so far apart as a sweep needs to forget the first. -/
theorem burst_twice (config : RateLimiterConfig) (pf : Platform) (ip : IpAddr) :
    ∃ s, (program config pf).machine.ReachableWhen (Prompt config pf) s ∧
      s.shared.times ip = List.replicate config.quota.burst pf.earliest ++
        List.replicate config.quota.burst (pf.earliest + config.staleAfter) := by
  have hfirst : Burst config pf ip pf.earliest [] 0 (program config pf).init :=
    ⟨.init, le_rfl, nofun, nofun, rfl⟩
  obtain ⟨s₁, h₁⟩ := hfirst.checks (le_refl config.quota.burst)
  obtain ⟨s₂, h₂⟩ := h₁.sweep le_rfl
  obtain ⟨s₃, h₃⟩ := h₂.checks (le_refl config.quota.burst)
  refine ⟨_, h₃.alone, ?_⟩
  rw [h₁.times] at h₃
  exact h₃.times

/-- Both of them are in one window. -/
theorem burst_le_of_bounded {config : RateLimiterConfig} (hburst : config.quota.burst = config.burst)
    {s : PerIpRateLimiter} {ip : IpAddr} {first : Instant} (h : Bounded config s)
    (htimes : s.times ip = List.replicate config.quota.burst first ++
      List.replicate config.quota.burst (first + config.staleAfter)) :
    config.burst * 1000000000 ≤ config.rps * config.staleAfter := by
  have hcount : Gcra.count (s.times ip) first config.staleAfter = config.burst + config.burst := by
    have hall : ∀ t ∈ s.times ip, decide (first ≤ t ∧ t ≤ first + config.staleAfter) = true := by
      intro t ht
      rw [decide_eq_true_eq]
      rw [htimes, List.mem_append] at ht
      have hstale : (0 : Int) ≤ config.staleAfter := Int.natCast_nonneg _
      rcases ht with ht | ht
      · rw [List.eq_of_mem_replicate ht]
        exact ⟨le_rfl, Int.le_add_of_nonneg_right hstale⟩
      · rw [List.eq_of_mem_replicate ht]
        exact ⟨Int.le_add_of_nonneg_right hstale, le_rfl⟩
    rw [Gcra.count, List.filter_eq_self.mpr hall, htimes, List.length_append, List.length_replicate, List.length_replicate,
      hburst]
  have hle := h ip first config.staleAfter
  rw [hcount, Nat.add_mul] at hle
  exact Nat.le_of_add_le_add_left hle

/-- The bound survives the sweeps in every run in which they remove no entry whose arrival time is still to come and find no
more entries than they have counted. Of what the configuration can do about it, a burst of at most what the rate allows for
in 300 seconds is what is needed. -/
theorem rate_bound_survives_cleanup (env : String → Option String) (pf : Platform) :
    (∀ s, (program (RateLimiterConfig.fromEnv env) pf).machine.ReachableWhen (Steady (RateLimiterConfig.fromEnv env) pf) s →
      Bounded (RateLimiterConfig.fromEnv env) s.shared ∧ s.shared.underflowed = false) ∧
    ((∀ s, (program (RateLimiterConfig.fromEnv env) pf).machine.ReachableWhen (Prompt (RateLimiterConfig.fromEnv env) pf) s →
      Bounded (RateLimiterConfig.fromEnv env) s.shared ∧ s.shared.underflowed = false) ↔
        (RateLimiterConfig.fromEnv env).burst ≤ 300 * (RateLimiterConfig.fromEnv env).rps) := by
  have hsteady (s : ThreadState PerIpRateLimiter LimiterPc)
      (hs : (program (RateLimiterConfig.fromEnv env) pf).machine.ReachableWhen (Steady (RateLimiterConfig.fromEnv env) pf) s) :
      Bounded (RateLimiterConfig.fromEnv env) s.shared ∧ s.shared.underflowed = false :=
    ⟨(Kept.of_reachable hs).remembers.bounded env, (Kept.of_reachable hs).underflowed⟩
  have hquota := RateLimiterConfig.quota_fromEnv env
  have hstale : (RateLimiterConfig.fromEnv env).staleAfter = 300000000000 := rfl
  refine ⟨hsteady, fun h => ?_, fun hburst s hs => ?_⟩
  · obtain ⟨s, hs, htimes⟩ := burst_twice (RateLimiterConfig.fromEnv env) pf (Sum.inl 0)
    have hle := burst_le_of_bounded (by rw [hquota]) (h s hs).1 htimes
    rw [hstale] at hle
    omega
  · refine hsteady s (Timely.of_reachable ?_ hs).2
    have hroom : (RateLimiterConfig.fromEnv env).burst * 1000000000 ≤ (RateLimiterConfig.fromEnv env).rps * 300000000000 := by
      omega
    rw [hquota, hstale]
    exact_mod_cast hroom

/-- A burst of 301 at a request per second. -/
def wideEnv (name : String) : Option String := if name = "THOUGHTGATE_RATE_LIMIT_RPS" then some "1" else some "301"

def onePlatform : Platform where
  earliest := 0
  shards := 1
  shard _ := 0
  shard_lt _ := Nat.one_pos

/-- After 300 idle seconds and a sweep the whole burst is let through again; and an address that comes while the shards are
swept makes the second length more than the first. -/
theorem rate_bound_lost_in_cleanup :
    (∃ s, (program (RateLimiterConfig.fromEnv wideEnv) onePlatform).machine.Reachable s ∧
      ¬ Bounded (RateLimiterConfig.fromEnv wideEnv) s.shared) ∧
    ∃ s, (program (RateLimiterConfig.fromEnv wideEnv) onePlatform).machine.Reachable s ∧ s.shared.underflowed = true := by
  have hconfig : RateLimiterConfig.fromEnv wideEnv = ⟨1, 301, Duration.fromSecs 300⟩ := by decide
  constructor
  · obtain ⟨s, hs, htimes⟩ := burst_twice (RateLimiterConfig.fromEnv wideEnv) onePlatform (Sum.inl 0)
    refine ⟨s, hs.reachable, fun h => ?_⟩
    have hle := burst_le_of_bounded (by rw [RateLimiterConfig.quota_fromEnv]) h htimes
    rw [hconfig] at hle
    exact absurd hle (by decide)
  · have hrun : ((program (RateLimiterConfig.fromEnv wideEnv) onePlatform).machine.exec
        (program (RateLimiterConfig.fromEnv wideEnv) onePlatform).machine.init
        [.spawn 0 .cleaning, .run 0 300000000000, .run 0 300000000000, .spawn 1 (.arriving (.inl 0)), .run 1 300000000000,
          .run 1 300000000000, .run 0 300000000000, .run 0 300000000000]).any
        (fun s => s.shared.underflowed) = true := by
      decide
    exact Machine.exists_reachable_of_exec hrun

end PerIpRateLimiter

end ThoughtGate
