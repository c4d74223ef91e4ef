import Mathlib.Tactic.Common
import ThoughtGate.Base.Text
import ThoughtGate.Base.Time

/-!
# The timeouts of a shutdown

`LifecycleConfig::from_env`. The drain timeout is brought below the shutdown timeout in four branches. They keep what
they promise where the shutdown timeout leaves room for a drain and a cleanup of a second each, and where its four fifths
can be computed (`timeouts_consistent_iff`); elsewhere the two minimums are in conflict, or `as_secs() * 4` overflows.
-/

namespace ThoughtGate

/-- `LifecycleConfig`. -/
structure LifecycleConfig where
  shutdownTimeout : Duration
  drainTimeout : Duration
  startupTimeout : Duration
  requireUpstreamAtStartup : Bool
  upstreamHealthInterval : Duration
deriving DecidableEq

namespace LifecycleConfig

/-- `LifecycleConfig::default`. -/
def default : LifecycleConfig where
  shutdownTimeout := Duration.fromSecs 30
  drainTimeout := Duration.fromSecs 25
  startupTimeout := Duration.fromSecs 15
  requireUpstreamAtStartup := false
  upstreamHealthInterval := Duration.fromSecs 30

/-- `MIN_DRAIN_TIMEOUT`. -/
def minDrainTimeout : Duration := Duration.fromSecs 1

/-- `MIN_POST_DRAIN_BUFFER`. -/
def minPostDrainBuffer : Duration := Duration.fromSecs 1

/-- `parse_duration_env`. -/
def parseDurationEnv (env : String → Option String) (varName : String) (default : Duration) : Duration :=
  match env varName with
  | some value =>
    match Text.parseUsize value with
    | some secs => Duration.fromSecs secs
    | none => default
  | none => default

/-- A product of two `u64`, unless it overflows. -/
def mulU64 (a b : Nat) : Option Nat := if a * b < 2 ^ 64 then some (a * b) else none

/-- The drain timeout that is put in the place of the configured one. -/
def adjustDrain (drainTimeout shutdownTimeout : Duration) : Option Duration :=
  let maxDrain := Duration.fromSecs (shutdownTimeout.asSecs - minPostDrainBuffer.asSecs)
  if shutdownTimeout ≤ drainTimeout then
    (mulU64 shutdownTimeout.asSecs 4).map fun product =>
      max (min (Duration.fromSecs (product / 5)) maxDrain) minDrainTimeout
  else if maxDrain < drainTimeout then some (max maxDrain minDrainTimeout)
  else if drainTimeout < minDrainTimeout then some minDrainTimeout
  else some drainTimeout

/-- `str::eq_ignore_ascii_case`. -/
def eqIgnoreAsciiCase (s t : String) : Bool := s.toList.map Char.toLower = t.toList.map Char.toLower

/-- `THOUGHTGATE_SHUTDOWN_TIMEOUT_SECS`. -/
def configuredShutdown (env : String → Option String) : Duration :=
  parseDurationEnv env "THOUGHTGATE_SHUTDOWN_TIMEOUT_SECS" default.shutdownTimeout

/-- `THOUGHTGATE_DRAIN_TIMEOUT_SECS`. -/
def configuredDrain (env : String → Option String) : Duration :=
  parseDurationEnv env "THOUGHTGATE_DRAIN_TIMEOUT_SECS" default.drainTimeout

/-- `LifecycleConfig::from_env`; `none` is an arithmetic overflow. -/
def fromEnv (env : String → Option String) : Option LifecycleConfig :=
  let shutdownTimeout := configuredShutdown env
  let startupTimeout := parseDurationEnv env "THOUGHTGATE_STARTUP_TIMEOUT_SECS" default.startupTimeout
  let requireUpstreamAtStartup :=
    ((env "THOUGHTGATE_REQUIRE_UPSTREAM_AT_STARTUP").map fun s => eqIgnoreAsciiCase s "true" || s == "1").getD
      default.requireUpstreamAtStartup
  let upstreamHealthInterval :=
    parseDurationEnv env "THOUGHTGATE_UPSTREAM_HEALTH_INTERVAL_SECS" default.upstreamHealthInterval
  (adjustDrain (configuredDrain env) shutdownTimeout).map fun drainTimeout =>
    { shutdownTimeout, drainTimeout, startupTimeout, requireUpstreamAtStartup, upstreamHealthInterval }

/-! ### Whole seconds -/

@[simp] theorem asSecs_fromSecs (secs : Nat) : Duration.asSecs (Duration.fromSecs secs) = secs :=
  Nat.mul_div_cancel secs (by decide)

@[simp] theorem fromSecs_le {a b : Nat} : Duration.fromSecs a ≤ Duration.fromSecs b ↔ a ≤ b := by
  show a * 1000000000 ≤ b * 1000000000 ↔ a ≤ b
  omega

@[simp] theorem fromSecs_lt {a b : Nat} : Duration.fromSecs a < Duration.fromSecs b ↔ a < b := by
  show a * 1000000000 < b * 1000000000 ↔ a < b
  omega

@[simp] theorem fromSecs_inj {a b : Nat} : Duration.fromSecs a = Duration.fromSecs b ↔ a = b := by
  show a * 1000000000 = b * 1000000000 ↔ a = b
  omega

theorem fromSecs_add (a b : Nat) : Duration.fromSecs a + Duration.fromSecs b = Duration.fromSecs (a + b) :=
  (Nat.add_mul a b _).symm

theorem fromSecs_max (a b : Nat) : max (Duration.fromSecs a) (Duration.fromSecs b) = Duration.fromSecs (max a b) := by
  show max (a * 1000000000) (b * 1000000000) = max a b * 1000000000
  omega

theorem fromSecs_min (a b : Nat) : min (Duration.fromSecs a) (Duration.fromSecs b) = Duration.fromSecs (min a b) := by
  show min (a * 1000000000) (b * 1000000000) = min a b * 1000000000
  omega

/-- What is read from the environment is a number of seconds that fits into 64 bits. -/
theorem parseDurationEnv_secs (env : String → Option String) (varName : String) {default : Nat} (h : default < 2 ^ 64) :
    ∃ secs < 2 ^ 64, parseDurationEnv env varName (Duration.fromSecs default) = Duration.fromSecs secs := by
  unfold parseDurationEnv
  cases env varName with
  | none => exact ⟨default, h, rfl⟩
  | some value =>
    cases hparse : Text.parseUsize value with
    | none => exact ⟨default, h, by simp [hparse]⟩
    | some secs => exact ⟨secs, Text.parseUsize_lt hparse, by simp [hparse]⟩

/-! ### The drain timeout -/

/-- The drain timeout is at least a second and below the shutdown timeout, and a configured one that leaves a second on
both sides is kept. -/
structure Fits (configured shutdown drain : Duration) : Prop where
  least : Duration.fromSecs 1 ≤ drain
  below : drain < shutdown
  kept : Duration.fromSecs 1 ≤ configured → configured + Duration.fromSecs 1 ≤ shutdown → drain = configured

theorem adjustDrain_overdue {drain shutdown : Nat} (h : shutdown ≤ drain) :
    adjustDrain (Duration.fromSecs drain) (Duration.fromSecs shutdown) =
      (mulU64 shutdown 4).map fun product => Duration.fromSecs (max (min (product / 5) (shutdown - 1)) 1) := by
  unfold adjustDrain minDrainTimeout minPostDrainBuffer
  rw [if_pos (fromSecs_le.mpr h), asSecs_fromSecs, asSecs_fromSecs]
  simp only [fromSecs_min, fromSecs_max]

theorem adjustDrain_early {drain shutdown : Nat} (h : drain < shutdown) :
    adjustDrain (Duration.fromSecs drain) (Duration.fromSecs shutdown) = some (Duration.fromSecs (max drain 1)) := by
  unfold adjustDrain minDrainTimeout minPostDrainBuffer
  simp only [asSecs_fromSecs, fromSecs_le, fromSecs_lt]
  rw [if_neg (Nat.not_le.mpr h), if_neg (by omega)]
  split
  · rw [Nat.max_eq_right (by omega)]
  · rw [Nat.max_eq_left (by omega)]

theorem fits_secs_iff {configured shutdown drain : Nat} :
    Fits (Duration.fromSecs configured) (Duration.fromSecs shutdown) (Duration.fromSecs drain) ↔
      1 ≤ drain ∧ drain < shutdown ∧ (1 ≤ configured → configured + 1 ≤ shutdown → drain = configured) := by
  constructor
  · rintro ⟨hleast, hbelow, hkept⟩
    rw [fromSecs_add] at hkept
    simp only [fromSecs_le, fromSecs_lt, fromSecs_inj] at hleast hbelow hkept
    exact ⟨hleast, hbelow, hkept⟩
  · rintro ⟨hleast, hbelow, hkept⟩
    refine ⟨fromSecs_le.mpr hleast, fromSecs_lt.mpr hbelow, ?_⟩
    rw [fromSecs_add]
    simpa only [fromSecs_le, fromSecs_inj] using hkept

/-- The branches hold what they promise exactly where there are two seconds and no overflow. -/
theorem adjustDrain_fits_iff (drain shutdown : Nat) :
    (∃ t, adjustDrain (Duration.fromSecs drain) (Duration.fromSecs shutdown) = some t ∧
      Fits (Duration.fromSecs drain) (Duration.fromSecs shutdown) t) ↔
      2 ≤ shutdown ∧ (drain < shutdown ∨ shutdown < 2 ^ 62) := by
  rcases Nat.lt_or_ge drain shutdown with hlt | hge
  · rw [adjustDrain_early hlt]
    constructor
    · rintro ⟨t, ht, hfits⟩
      cases ht
      obtain ⟨hleast, hbelow, -⟩ := fits_secs_iff.mp hfits
      exact ⟨by omega, Or.inl hlt⟩
    · rintro ⟨htwo, -⟩
      refine ⟨_, rfl, fits_secs_iff.mpr ⟨by omega, by omega, ?_⟩⟩
      intro hone _
      omega
  · rw [adjustDrain_overdue hge]
    constructor
    · rintro ⟨t, ht, hfits⟩
      obtain ⟨product, hproduct, rfl⟩ := Option.map_eq_some_iff.mp ht
      obtain ⟨hleast, hbelow, -⟩ := fits_secs_iff.mp hfits
      unfold mulU64 at hproduct
      split at hproduct
      · rename_i hfour
        refine ⟨by omega, Or.inr ?_⟩
        omega
      · cases hproduct
    · rintro ⟨htwo, hsmall⟩
      have hfour : mulU64 shutdown 4 = some (shutdown * 4) := if_pos (by omega)
      rw [hfour]
      refine ⟨_, rfl, fits_secs_iff.mpr ⟨by omega, by omega, ?_⟩⟩
      intro _ hroom
      omega

/-! ### The configuration -/

/-- The configuration is computed, and its drain timeout fits. -/
def Consistent (env : String → Option String) : Prop :=
  ∃ config, fromEnv env = some config ∧ Fits (configuredDrain env) config.shutdownTimeout config.drainTimeout

/-- The timeouts are consistent exactly where the shutdown timeout is at least two seconds, and below `2^62` seconds unless
the drain timeout is below it. -/
theorem timeouts_consistent_iff (env : String → Option String) :
    Consistent env ↔ Duration.fromSecs 2 ≤ configuredShutdown env ∧
      (configuredDrain env < configuredShutdown env ∨ configuredShutdown env < Duration.fromSecs (2 ^ 62)) := by
  obtain ⟨shutdown, -, hshutdown⟩ : ∃ secs < 2 ^ 64, configuredShutdown env = Duration.fromSecs secs :=
    parseDurationEnv_secs env _ (by decide)
  obtain ⟨drain, -, hdrain⟩ : ∃ secs < 2 ^ 64, configuredDrain env = Duration.fromSecs secs :=
    parseDurationEnv_secs env _ (by decide)
  have hfits : Consistent env ↔ ∃ t, adjustDrain (Duration.fromSecs drain) (Duration.fromSecs shutdown) = some t ∧
      Fits (Duration.fromSecs drain) (Duration.fromSecs shutdown) t := by
    unfold Consistent fromEnv
    rw [← hshutdown, ← hdrain]
    constructor
    · rintro ⟨config, hconfig, hfits⟩
      obtain ⟨t, ht, rfl⟩ := Option.map_eq_some_iff.mp hconfig
      exact ⟨t, ht, hfits⟩
    · rintro ⟨t, ht, hfits⟩
      exact ⟨_, Option.map_eq_some_iff.mpr ⟨t, ht, rfl⟩, hfits⟩
  rw [hfits, adjustDrain_fits_iff, hshutdown, hdrain, fromSecs_le, fromSecs_lt, fromSecs_lt]

namespace Sample

def shutdownAfterOne : String → Option String
  | "THOUGHTGATE_SHUTDOWN_TIMEOUT_SECS" => some "1"
  | _ => none

/-- `2^62` seconds for both. -/
def shutdownNever : String → Option String
  | "THOUGHTGATE_SHUTDOWN_TIMEOUT_SECS" | "THOUGHTGATE_DRAIN_TIMEOUT_SECS" => some "4611686018427387904"
  | _ => none

end Sample

/-- A shutdown timeout of one second is used up by the drain, and four times `2^62` is no `u64`. -/
theorem timeouts_inconsistent : ¬ Consistent Sample.shutdownAfterOne ∧ ¬ Consistent Sample.shutdownNever := by
  constructor
  · rintro ⟨config, hconfig, hfits⟩
    have hmade : fromEnv Sample.shutdownAfterOne = some { default with
        shutdownTimeout := Duration.fromSecs 1, drainTimeout := Duration.fromSecs 1 } := by decide +kernel
    cases hmade.symm.trans hconfig
    exact Nat.lt_irrefl _ hfits.below
  · rintro ⟨config, hconfig, -⟩
    have hnone : fromEnv Sample.shutdownNever = none := by decide
    cases hnone.symm.trans hconfig

end LifecycleConfig

end ThoughtGate
