import Mathlib.Tactic.Common
import ThoughtGate.Base.Text

/-!
# Bytes in hexadecimal digits

`u8::from_str_radix(_, 16)` and slices of a `str` by byte offsets. The parser takes a plus sign, so that a pair of
characters is read as a byte where both are digits or the first is the sign (`fromStrRadix_pair`); a slice that begins or
ends within a character is a panic.
-/

namespace ThoughtGate.Text

/-! ### Digits -/

/-- `char::to_digit(16)`. -/
def hexDigit (c : Char) : Option Nat :=
  if '0'.toNat ≤ c.toNat ∧ c.toNat ≤ '9'.toNat then some (c.toNat - '0'.toNat)
  else if 'a'.toNat ≤ c.toNat ∧ c.toNat ≤ 'f'.toNat then some (c.toNat - 'a'.toNat + 10)
  else if 'A'.toNat ≤ c.toNat ∧ c.toNat ≤ 'F'.toNat then some (c.toNat - 'A'.toNat + 10)
  else none

def IsHex (c : Char) : Prop := (hexDigit c).isSome = true

instance (c : Char) : Decidable (IsHex c) := inferInstanceAs (Decidable (_ = _))

/-- `u8::from_str_radix(_, 16).ok()`: digits after at most one plus sign. -/
def fromStrRadix (s : List Char) : Option UInt8 :=
  let digits := unsigned s
  if digits = [] then none
  else
    (digits.foldlM (fun n c => (hexDigit c).bind fun d => if 16 * n + d < 256 then some (16 * n + d) else none) 0).map
      UInt8.ofNat

/-- `format!("{:02x}", _)`. -/
def hexPair (b : UInt8) : List Char := [Nat.digitChar (b.toNat / 16), Nat.digitChar (b.toNat % 16)]

theorem hexDigit_lt {c : Char} {d : Nat} (h : hexDigit c = some d) : d < 16 := by
  unfold hexDigit at h
  simp only [Char.reduceToNat] at h
  split at h
  · cases h
    omega
  · split at h
    · cases h
      omega
    · split at h
      · cases h
        omega
      · cases h

theorem hexDigit_ascii {c : Char} (h : IsHex c) : c.toNat < 128 := by
  unfold IsHex hexDigit at h
  simp only [Char.reduceToNat] at h
  split at h
  · omega
  · split at h
    · omega
    · split at h
      · omega
      · cases h

theorem hexDigit_digitChar : ∀ n < 16, hexDigit (Nat.digitChar n) = some n := by decide

theorem digitChar_ne_plus : ∀ n < 16, Nat.digitChar n ≠ '+' := by decide

/-- A digit is zero where it is the character. -/
theorem hexDigit_zero {c : Char} (h : hexDigit c = some 0) : c = '0' := by
  unfold hexDigit at h
  simp only [Char.reduceToNat] at h
  split at h
  · have hnat : c.toNat = 48 := by
      have hsub := Option.some.inj h
      omega
    rw [← Char.ofNat_toNat c, hnat]
  · split at h
    · cases h
    · split at h
      · cases h
      · cases h

/-- Two characters are a byte where the second is a digit, and the first is a digit or the sign. -/
theorem fromStrRadix_pair (c d : Char) :
    fromStrRadix [c, d] = (hexDigit d).bind fun low =>
      if c = '+' then some (UInt8.ofNat low) else (hexDigit c).map fun high => UInt8.ofNat (16 * high + low) := by
  unfold fromStrRadix
  by_cases hc : c = '+'
  · subst hc
    cases hd : hexDigit d with
    | none => simp [unsigned, hd]
    | some low =>
      have hlow := hexDigit_lt hd
      have hfits : low < 256 := by omega
      simp [unsigned, hd, hfits]
  · have hplain : unsigned [c, d] = [c, d] := by
      unfold unsigned
      split
      · rename_i rest heq
        cases heq
        exact absurd rfl hc
      · rfl
    cases hhigh : hexDigit c with
    | none => simp [hplain, hhigh, hc]
    | some high =>
      have hlt := hexDigit_lt hhigh
      have hfits : high < 256 := by omega
      cases hlow : hexDigit d with
      | none => simp [hplain, hhigh, hfits, hlow]
      | some low =>
        have hlt' := hexDigit_lt hlow
        have hfits' : 16 * high + low < 256 := by omega
        simp [hplain, hhigh, hfits, hlow, hfits', hc]

theorem fromStrRadix_hexPair (b : UInt8) : fromStrRadix (hexPair b) = some b := by
  have hb := b.toNat_lt
  have hhigh : b.toNat / 16 < 16 := by omega
  have hlow : b.toNat % 16 < 16 := by omega
  have hsum : 16 * (b.toNat / 16) + b.toNat % 16 = b.toNat := by omega
  rw [hexPair, fromStrRadix_pair, hexDigit_digitChar _ hlow, Option.bind_some, if_neg (digitChar_ne_plus _ hhigh),
    hexDigit_digitChar _ hhigh, Option.map_some, hsum, UInt8.ofNat_toNat]

/-! ### Slices by bytes -/

/-- `str::len`. -/
def byteLen (s : List Char) : Nat := (s.map Char.utf8Size).sum

/-- The text before and after a byte offset, unless that is within a character. -/
def splitBytes : List Char → Nat → Option (List Char × List Char)
  | s, 0 => some ([], s)
  | [], _ + 1 => none
  | c :: s, n + 1 =>
    if c.utf8Size ≤ n + 1 then (splitBytes s (n + 1 - c.utf8Size)).map fun p => (c :: p.1, p.2) else none

/-- `&s[i..j]`; `none` is the panic. -/
def slice (s : List Char) (i j : Nat) : Option (List Char) :=
  (splitBytes s i).bind fun p => (splitBytes p.2 (j - i)).map (·.1)

theorem splitBytes_zero (s : List Char) : splitBytes s 0 = some ([], s) := by
  cases s <;> rfl

theorem byteLen_cons (c : Char) (s : List Char) : byteLen (c :: s) = c.utf8Size + byteLen s := List.sum_cons

theorem byteLen_append (s t : List Char) : byteLen (s ++ t) = byteLen s + byteLen t := by
  simp [byteLen]

/-- A text is cut behind the bytes of its beginning. -/
theorem splitBytes_append (s t : List Char) : splitBytes (s ++ t) (byteLen s) = some (s, t) := by
  induction s with
  | nil => exact splitBytes_zero t
  | cons c s ih =>
    obtain ⟨n, hn⟩ : ∃ n, byteLen (c :: s) = n + 1 := by
      refine ⟨byteLen (c :: s) - 1, ?_⟩
      have hpos := c.utf8Size_pos
      rw [byteLen_cons]
      omega
    have hrest : n + 1 - c.utf8Size = byteLen s := by
      rw [byteLen_cons] at hn
      omega
    have hle : c.utf8Size ≤ n + 1 := by
      rw [byteLen_cons] at hn
      omega
    rw [hn, List.cons_append, splitBytes, if_pos hle, hrest, ih]
    rfl

/-- Behind the beginning of a text the slice goes on. -/
theorem slice_append (s t : List Char) (n : Nat) :
    slice (s ++ t) (byteLen s) (byteLen s + n) = (splitBytes t n).map (·.1) := by
  rw [slice, splitBytes_append, Option.bind_some, Nat.add_sub_cancel_left]

end ThoughtGate.Text
