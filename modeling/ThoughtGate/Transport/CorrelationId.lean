import Mathlib.Data.BitVec
import Mathlib.Data.List.Nodup

/-!
# Correlation ids

`fast_correlation_id` of `transport/jsonrpc.rs`: a prefix that is drawn once and a counter, with six bits overwritten so
that the result reads as a random UUID. Two of the six are the counter's highest, the other four are the prefix's: an id
gives away the counter modulo `2 ^ 62` (`fastCorrelationId_mod`), and nothing else tells the ids of a process apart.
-/

namespace ThoughtGate

/-- `uuid::Uuid`, as `Uuid::from_u128` takes it. -/
abbrev Uuid := BitVec 128

namespace Uuid

/-- `uuid::Variant`. -/
inductive Variant where
  | ncs
  | rfc4122
  | microsoft
  | future
deriving DecidableEq

/-- A byte of `as_bytes`, the highest first. -/
def byte (id : Uuid) (i : Nat) : BitVec 8 := id.extractLsb' (8 * (15 - i)) 8

/-- `get_version_num`. -/
def versionNum (id : Uuid) : Nat := (id.byte 6 >>> 4).toNat

/-- `get_variant`. -/
def variant (id : Uuid) : Variant :=
  if id.byte 8 &&& 0x80 = 0x00 then .ncs
  else if id.byte 8 &&& 0xC0 = 0x80 then .rfc4122
  else if id.byte 8 &&& 0xE0 = 0xC0 then .microsoft
  else .future

end Uuid

namespace CorrelationId

/-- What `fast_correlation_id` makes of the prefix and the count. -/
def fastCorrelationId (startup counter : BitVec 64) : Uuid :=
  let combined : BitVec 128 := (startup.setWidth 128 <<< 64) ||| counter.setWidth 128
  -- version 4
  let combined := (combined &&& ~~~(0xF#128 <<< 76)) ||| (0x4#128 <<< 76)
  -- RFC 4122
  (combined &&& ~~~(0x3#128 <<< 62)) ||| (0x2#128 <<< 62)

/-- A call: `fetch_add` takes the count and leaves the next one, which wraps around. -/
def next (startup counter : BitVec 64) : Uuid × BitVec 64 := (fastCorrelationId startup counter, counter + 1)

/-- The ids of so many calls, in the order in which they count. -/
def ids (startup : BitVec 64) : Nat → BitVec 64 → List Uuid
  | 0, _ => []
  | n + 1, counter => (next startup counter).1 :: ids startup n (next startup counter).2

/-! ### Bits -/

/-- Masking `k` bits out and writing `v` in their place changes these bits and no others. -/
theorem getLsbD_overwrite (x : BitVec 128) {k pos v i : Nat} (hv : v < 2 ^ k) (hi : i < 128) :
    ((x &&& ~~~(BitVec.ofNat 128 (2 ^ k - 1) <<< pos)) ||| (BitVec.ofNat 128 v <<< pos)).getLsbD i =
      if pos ≤ i ∧ i < pos + k then v.testBit (i - pos) else x.getLsbD i := by
  simp only [BitVec.getLsbD_or, BitVec.getLsbD_and, BitVec.getLsbD_not, BitVec.getLsbD_shiftLeft, BitVec.getLsbD_ofNat,
    Nat.testBit_two_pow_sub_one, hi, show i - pos < 128 by omega, decide_true, Bool.true_and]
  by_cases hbelow : i < pos
  · simp [hbelow, show ¬ pos ≤ i by omega]
  · by_cases hfield : i < pos + k
    · have hin : i - pos < k := by omega
      simp [hbelow, hfield, hin, show pos ≤ i by omega]
    · have hout : ¬ i - pos < k := by omega
      have hzero : v.testBit (i - pos) = false :=
        Nat.testBit_lt_two_pow (Nat.lt_of_lt_of_le hv (Nat.pow_le_pow_right (by decide) (by omega)))
      simp [hbelow, hfield, hout, hzero]

/-- The bits of an id. -/
theorem getLsbD_fastCorrelationId (startup counter : BitVec 64) {i : Nat} (hi : i < 128) :
    (fastCorrelationId startup counter).getLsbD i =
      if 62 ≤ i ∧ i < 64 then decide (i = 63)
      else if 76 ≤ i ∧ i < 80 then decide (i = 78)
      else if i < 64 then counter.getLsbD i else startup.getLsbD (i - 64) := by
  have hversion : ∀ x : BitVec 128, ((x &&& ~~~(0xF#128 <<< 76)) ||| (0x4#128 <<< 76)).getLsbD i =
      if 76 ≤ i ∧ i < 80 then Nat.testBit (2 ^ 2) (i - 76) else x.getLsbD i :=
    fun x => getLsbD_overwrite x (k := 4) (by decide) hi
  have hvariant : ∀ x : BitVec 128, ((x &&& ~~~(0x3#128 <<< 62)) ||| (0x2#128 <<< 62)).getLsbD i =
      if 62 ≤ i ∧ i < 64 then Nat.testBit (2 ^ 1) (i - 62) else x.getLsbD i :=
    fun x => getLsbD_overwrite x (k := 2) (by decide) hi
  unfold fastCorrelationId
  rw [hvariant, hversion, Nat.testBit_two_pow, Nat.testBit_two_pow]
  simp only [BitVec.getLsbD_or, BitVec.getLsbD_shiftLeft, BitVec.getLsbD_setWidth, hi, decide_true, Bool.true_and]
  have hhigh : 64 ≤ i → counter.getLsbD i = false := fun h => BitVec.getLsbD_of_ge _ _ h
  split_ifs with hvar hver hcounter
  · exact decide_eq_decide.mpr (by omega)
  · exact decide_eq_decide.mpr (by omega)
  · simp [hcounter]
  · simp [hcounter, hhigh (by omega), show i - 64 < 128 by omega]

/-- A bit of a byte. -/
theorem getLsbD_byte (id : Uuid) {i j : Nat} (hj : j < 8) : (id.byte i).getLsbD j = id.getLsbD (8 * (15 - i) + j) := by
  simp [Uuid.byte, hj]

theorem versionNum_fastCorrelationId (startup counter : BitVec 64) : (fastCorrelationId startup counter).versionNum = 4 := by
  have hbyte : (fastCorrelationId startup counter).byte 6 >>> 4 = 4#8 := by
    refine BitVec.eq_of_getLsbD_eq fun j hj => ?_
    rw [BitVec.getLsbD_ushiftRight]
    by_cases hfield : j < 4
    · rw [getLsbD_byte _ (by omega), getLsbD_fastCorrelationId _ _ (by omega), if_neg (by omega), if_pos (by omega)]
      obtain rfl | rfl | rfl | rfl : j = 0 ∨ j = 1 ∨ j = 2 ∨ j = 3 := by omega
      all_goals rfl
    · rw [BitVec.getLsbD_of_ge _ _ (by omega)]
      obtain rfl | rfl | rfl | rfl : j = 4 ∨ j = 5 ∨ j = 6 ∨ j = 7 := by omega
      all_goals rfl
  rw [Uuid.versionNum, hbyte]
  rfl

theorem variant_fastCorrelationId (startup counter : BitVec 64) :
    (fastCorrelationId startup counter).variant = .rfc4122 := by
  have hlow : ((fastCorrelationId startup counter).byte 8).getLsbD 6 = false := by
    rw [getLsbD_byte _ (by decide), getLsbD_fastCorrelationId _ _ (by decide)]
    rfl
  have hhigh : ((fastCorrelationId startup counter).byte 8).getLsbD 7 = true := by
    rw [getLsbD_byte _ (by decide), getLsbD_fastCorrelationId _ _ (by decide)]
    rfl
  have hncs : (fastCorrelationId startup counter).byte 8 &&& 0x80 ≠ 0x00 := by
    intro h
    have hbit : ((fastCorrelationId startup counter).byte 8 &&& 0x80).getLsbD 7 = false := by
      rw [h]
      rfl
    rw [BitVec.getLsbD_and, hhigh] at hbit
    cases hbit
  have hrfc : (fastCorrelationId startup counter).byte 8 &&& 0xC0 = 0x80 := by
    refine BitVec.eq_of_getLsbD_eq fun j hj => ?_
    rw [BitVec.getLsbD_and]
    obtain h | rfl | rfl : j < 6 ∨ j = 6 ∨ j = 7 := by omega
    · obtain rfl | rfl | rfl | rfl | rfl | rfl : j = 0 ∨ j = 1 ∨ j = 2 ∨ j = 3 ∨ j = 4 ∨ j = 5 := by omega
      all_goals simp
    · rw [hlow]
      rfl
    · rw [hhigh]
      rfl
  rw [Uuid.variant, if_neg hncs, if_pos hrfc]

/-- An id gives away the counter modulo `2 ^ 62`. -/
theorem fastCorrelationId_mod (startup counter : BitVec 64) :
    (fastCorrelationId startup counter).toNat % 2 ^ 62 = counter.toNat % 2 ^ 62 := by
  refine Nat.eq_of_testBit_eq fun i => ?_
  rw [Nat.testBit_mod_two_pow, Nat.testBit_mod_two_pow]
  by_cases hi : i < 62
  · have hbit := getLsbD_fastCorrelationId startup counter (i := i) (by omega)
    rw [if_neg (by omega), if_neg (by omega), if_pos (by omega)] at hbit
    rw [← BitVec.getLsbD, ← BitVec.getLsbD, hbit]
  · simp [hi]

/-- The rest of the counter is not in the id. -/
theorem fastCorrelationId_eq_iff (startup counter counter' : BitVec 64) :
    fastCorrelationId startup counter = fastCorrelationId startup counter' ↔
      counter.toNat % 2 ^ 62 = counter'.toNat % 2 ^ 62 := by
  constructor
  · intro h
    rw [← fastCorrelationId_mod startup counter, h, fastCorrelationId_mod]
  · intro h
    refine BitVec.eq_of_getLsbD_eq fun i hi => ?_
    rw [getLsbD_fastCorrelationId _ _ hi, getLsbD_fastCorrelationId _ _ hi]
    by_cases hlow : i < 62
    · have hbit : (counter.toNat % 2 ^ 62).testBit i = (counter'.toNat % 2 ^ 62).testBit i := by rw [h]
      rw [Nat.testBit_mod_two_pow, Nat.testBit_mod_two_pow, decide_eq_true hlow, Bool.true_and, Bool.true_and] at hbit
      have hsame : counter.getLsbD i = counter'.getLsbD i := hbit
      rw [hsame]
    · by_cases hhigh : i < 64
      · rw [if_pos (by omega), if_pos (by omega)]
      · simp only [hhigh, if_false]

/-! ### Calls -/

/-- An id of a run has counted some number of calls since its beginning. -/
theorem mem_ids {startup : BitVec 64} {n : Nat} {counter : BitVec 64} {id : Uuid} (h : id ∈ ids startup n counter) :
    ∃ k < n, id = fastCorrelationId startup (counter + BitVec.ofNat 64 k) := by
  induction n generalizing counter with
  | zero => cases h
  | succ n ih =>
    rcases List.mem_cons.mp h with rfl | hrest
    · exact ⟨0, Nat.succ_pos n, by simp [next]⟩
    · obtain ⟨k, hk, rfl⟩ := ih hrest
      refine ⟨k + 1, Nat.succ_lt_succ hk, congrArg _ ?_⟩
      apply BitVec.eq_of_toNat_eq
      simp [next, BitVec.toNat_add]
      omega

/-- No more than `2 ^ 62` calls in a row have distinct ids, from whatever count on. -/
theorem nodup_ids (startup : BitVec 64) {n : Nat} (hn : n ≤ 2 ^ 62) (counter : BitVec 64) :
    (ids startup n counter).Nodup := by
  induction n generalizing counter with
  | zero => exact List.nodup_nil
  | succ n ih =>
    refine List.nodup_cons.mpr ⟨fun hmem => ?_, ih (by omega) _⟩
    obtain ⟨k, hk, heq⟩ := mem_ids hmem
    have hmod := (fastCorrelationId_eq_iff _ _ _).mp heq
    have hone : (1 : BitVec 64).toNat = 1 := rfl
    simp only [next, BitVec.toNat_add, BitVec.toNat_ofNat, hone] at hmod
    omega

/-- Ids are told apart by their counters modulo `2 ^ 62`, each reads as a random UUID, and the first `2 ^ 62` of a process
are distinct. -/
theorem correlation_ids_distinct (startup : BitVec 64) :
    (∀ counter counter', fastCorrelationId startup counter = fastCorrelationId startup counter' ↔
      counter.toNat % 2 ^ 62 = counter'.toNat % 2 ^ 62) ∧
    (∀ counter, (fastCorrelationId startup counter).versionNum = 4 ∧
      (fastCorrelationId startup counter).variant = .rfc4122) ∧
    (ids startup (2 ^ 62) 0).Nodup :=
  ⟨fastCorrelationId_eq_iff startup,
    fun counter => ⟨versionNum_fastCorrelationId startup counter, variant_fastCorrelationId startup counter⟩,
    nodup_ids startup (Nat.le_refl _) 0⟩

end CorrelationId

end ThoughtGate
