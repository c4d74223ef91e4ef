import Mathlib.Algebra.Ring.Nat
import Mathlib.Data.List.Basic

/-!
# Texts

The functions on texts of Rust's standard library that the modelled code uses and that differ from Lean's own.
-/

namespace ThoughtGate.Text

/-- `char::is_whitespace`. -/
def isWhitespace (c : Char) : Bool :=
  (9 ≤ c.toNat && c.toNat ≤ 13) || c.toNat == 0x20 || c.toNat == 0x85 || c.toNat == 0xA0 || c.toNat == 0x1680 ||
    (0x2000 ≤ c.toNat && c.toNat ≤ 0x200A) || c.toNat == 0x2028 || c.toNat == 0x2029 || c.toNat == 0x202F ||
    c.toNat == 0x205F || c.toNat == 0x3000

/-- `str::trim`. -/
def trim (s : String) : String :=
  String.ofList ((s.toList.dropWhile isWhitespace).reverse.dropWhile isWhitespace).reverse

/-- A text that neither begins nor ends with white space. -/
structure Trimmed (s : String) : Prop where
  first : ∃ c rest, s.toList = c :: rest ∧ isWhitespace c = false
  last : ∃ front d, s.toList = front ++ [d] ∧ isWhitespace d = false

theorem Trimmed.reverse_line {s : String} (h : Trimmed s) :
    ∃ d back, (s ++ "\n").toList.reverse = '\n' :: d :: back ∧ s.toList.reverse = d :: back ∧ isWhitespace d = false := by
  obtain ⟨front, d, hlast, hd⟩ := h.last
  have hback : s.toList.reverse = d :: front.reverse := by
    rw [hlast, List.reverse_append]
    rfl
  refine ⟨d, front.reverse, ?_, hback, hd⟩
  rw [String.toList_append, List.reverse_append, hback]
  rfl

theorem Trimmed.trim_eq {s : String} (h : Trimmed s) : trim s = s := by
  obtain ⟨c, rest, hfirst, hc⟩ := h.first
  obtain ⟨d, back, -, hback, hd⟩ := h.reverse_line
  have hfront : s.toList.dropWhile isWhitespace = s.toList := by
    rw [hfirst, List.dropWhile_cons_of_neg (by simp [hc])]
  rw [trim, hfront, hback, List.dropWhile_cons_of_neg (by simp [hd]), ← hback, List.reverse_reverse, String.ofList_toList]

/-- Of a line only the newline is taken off. -/
theorem Trimmed.trim_line {s : String} (h : Trimmed s) : trim (s ++ "\n") = s := by
  obtain ⟨c, rest, hfirst, hc⟩ := h.first
  obtain ⟨d, back, hline, hback, hd⟩ := h.reverse_line
  have hfront : (s ++ "\n").toList.dropWhile isWhitespace = (s ++ "\n").toList := by
    rw [String.toList_append, hfirst, List.cons_append, List.dropWhile_cons_of_neg (by simp [hc])]
  rw [trim, hfront, hline, List.dropWhile_cons_of_pos (by rfl), List.dropWhile_cons_of_neg (by simp [hd]), ← hback,
    List.reverse_reverse, String.ofList_toList]

/-- A text is read back from its bytes. -/
theorem decode_toUTF8 (s : String) : String.fromUTF8? s.toUTF8 = some s := dif_pos s.isValidUTF8

/-! ### Numbers -/

/-- The text after at most one plus sign. -/
def unsigned : List Char → List Char
  | '+' :: rest => rest
  | chars => chars

/-- `str::parse::<usize>().ok()`, and of `u64`: decimal digits after at most one plus sign, below `2^64`. -/
def parseUsize (s : String) : Option Nat :=
  let digits := unsigned s.toList
  if digits ≠ [] ∧ digits.all Char.isDigit ∧ Nat.ofDigitChars 10 digits 0 < 2 ^ 64 then
    some (Nat.ofDigitChars 10 digits 0)
  else none

theorem parseUsize_lt {s : String} {n : Nat} (h : parseUsize s = some n) : n < 2 ^ 64 := by
  unfold parseUsize at h
  dsimp only at h
  split at h
  · rename_i hdigits
    cases h
    exact hdigits.2.2
  · cases h

theorem unsigned_of_digits {chars : List Char} (h : ∀ c ∈ chars, c.isDigit = true) : unsigned chars = chars := by
  unfold unsigned
  split
  · have hsign : Char.isDigit '+' = true := h '+' List.mem_cons_self
    cases hsign
  · rfl

theorem parseUsize_toString {n : Nat} (h : n < 2 ^ 64) : parseUsize (toString n) = some n := by
  have hdigit : ∀ c ∈ Nat.toDigits 10 n, c.isDigit = true :=
    fun c hc => Nat.isDigit_of_mem_toDigits (by decide) (by decide) hc
  unfold parseUsize
  rw [Nat.toString_eq_repr, Nat.toList_repr, unsigned_of_digits hdigit]
  show (if _ then _ else _) = _
  rw [Nat.ofDigitChars_ten_toDigits, if_pos ⟨Nat.toDigits_ne_nil, List.all_eq_true.mpr hdigit, h⟩]

/-! ### Bytes -/

theorem toList_loop (bs : ByteArray) (i : Nat) (r : List UInt8) :
    ByteArray.toList.loop bs i r = r.reverse ++ bs.data.toList.drop i := by
  induction i, r using ByteArray.toList.loop.induct bs with
  | case1 i r hlt ih =>
    rw [ByteArray.toList.loop, if_pos hlt, ih]
    have hdrop : bs.data.toList.drop i = bs.get! i :: bs.data.toList.drop (i + 1) := by
      have hlen : i < bs.data.toList.length := by simpa using hlt
      rw [List.drop_eq_getElem_cons hlen]
      congr 1
      show bs.data.toList[i] = bs.data[i]!
      have hlt' : i < bs.data.size := hlt
      rw [getElem!_pos bs.data i hlt']
      simp
    rw [hdrop]
    simp
  | case2 i r hge =>
    rw [ByteArray.toList.loop, if_neg hge, List.drop_eq_nil_of_le]
    · simp
    · simpa using Nat.not_lt.mp hge

theorem toList_eq_data (bs : ByteArray) : bs.toList = bs.data.toList := by
  rw [ByteArray.toList, toList_loop]
  simp

end ThoughtGate.Text
