import ThoughtGate.Base.Hex

/-!
# Stored trace contexts

`telemetry/trace_context.rs`: a span context is written into a `traceparent` and a `tracestate`, and read back when the
approval comes in. The reader cuts the identifiers into pairs of bytes and converts each leniently. So it panics where a
pair ends within a character, and takes a plus sign for the first digit of a pair (`Troubled`); and it trims the members of
the trace state. Apart from these it does what it should (`storage_is_robust_iff`).

`opentelemetry` says which keys and values a trace state may have (`OpenTelemetry`); the identifiers of a new trace are
arguments. A panic is `none`.
-/

namespace ThoughtGate

/-- The checks of `TraceState`. -/
class OpenTelemetry where
  validKey : String → Bool
  validValue : String → Bool

/-- `TraceId` with 16 bytes, `SpanId` with 8. -/
abbrev IdBytes (n : Nat) := { bytes : List UInt8 // bytes.length = n }

/-- `TraceId::INVALID`, `SpanId::INVALID`. -/
def IdBytes.isInvalid {n : Nat} (id : IdBytes n) : Bool := id.1.all (· == 0)

/-- `TraceState`: its members are valid. -/
structure TraceState [OpenTelemetry] where
  entries : List (String × String)
  valid : ∀ e ∈ entries, (OpenTelemetry.validKey e.1 && OpenTelemetry.validValue e.2) = true

namespace TraceState

variable [OpenTelemetry]

/-- `TraceState::default`. -/
def default : TraceState where
  entries := []
  valid := by simp

/-- `TraceState::from_key_value(_).ok()`. -/
def fromKeyValue (entries : List (String × String)) : Option TraceState :=
  if h : ∀ e ∈ entries, (OpenTelemetry.validKey e.1 && OpenTelemetry.validValue e.2) = true then some ⟨entries, h⟩
  else none

/-- A list-member. -/
def entryText (e : String × String) : List Char := e.1.toList ++ '=' :: e.2.toList

/-- `TraceState::header`. -/
def header (state : TraceState) : String := String.ofList (List.intercalate [','] (state.entries.map entryText))

end TraceState

/-- `SpanContext`. -/
structure SpanContext [OpenTelemetry] where
  traceId : IdBytes 16
  spanId : IdBytes 8
  traceFlags : UInt8
  traceState : TraceState

/-- `SpanContext::is_valid`. -/
def SpanContext.isValid [OpenTelemetry] (ctx : SpanContext) : Bool :=
  !ctx.traceId.isInvalid && !ctx.spanId.isInvalid

/-- `SerializedTraceContext`. -/
structure SerializedTraceContext where
  traceparent : String
  tracestate : Option String

/-- `DeserializedContext`. -/
structure DeserializedContext [OpenTelemetry] where
  traceId : IdBytes 16
  spanId : IdBytes 8
  traceFlags : UInt8
  traceState : TraceState
  recovered : Bool

namespace Trace

/-! ### Writing -/

/-- The digits of an identifier. -/
def idText {n : Nat} (id : IdBytes n) : List Char := id.1.flatMap Text.hexPair

/-- `serialize_span_context`. -/
def serializeSpanContext [OpenTelemetry] (ctx : SpanContext) : SerializedTraceContext where
  traceparent := String.ofList
    (['0', '0'] ++ '-' :: (idText ctx.traceId ++ '-' :: (idText ctx.spanId ++ '-' :: Text.hexPair ctx.traceFlags)))
  tracestate := if ctx.traceState.header = "" then none else some ctx.traceState.header

/-! ### Reading -/

/-- The bytes until one is missing or the slice panics. -/
def collect : List (Option (Option UInt8)) → Option (Option (List UInt8))
  | [] => some (some [])
  | none :: _ => none
  | some none :: _ => some none
  | some (some b) :: rest => (collect rest).map fun bytes => bytes.map (b :: ·)

/-- `hex_to_bytes`. -/
def hexToBytes (hex : List Char) : Option (Option (List UInt8)) :=
  if Text.byteLen hex % 2 ≠ 0 then some none
  else collect ((List.range' 0 (Text.byteLen hex / 2)).map fun k =>
    (Text.slice hex (2 * k) (2 * k + 2)).map Text.fromStrRadix)

/-- An identifier of `n` bytes in `parse_traceparent`. -/
def parseIdBytes (n : Nat) (text : List Char) : Option (Option (IdBytes n)) :=
  if Text.byteLen text ≠ 2 * n then some none
  else
    match hexToBytes text with
    | none => none
    | some none => some none
    | some (some bytes) =>
      if h : bytes.length = n then
        let id : IdBytes n := ⟨bytes, h⟩
        if id.isInvalid then some none else some (some id)
      else some none

/-- `parse_traceparent`. -/
def parseTraceparent (traceparent : String) : Option (Option (IdBytes 16 × IdBytes 8 × UInt8)) :=
  match traceparent.toList.splitOn '-' with
  | [version, traceId, spanId, traceFlags] =>
    if version ≠ ['0', '0'] then some none
    else
      match parseIdBytes 16 traceId with
      | none => none
      | some none => some none
      | some (some traceId) =>
        match parseIdBytes 8 spanId with
        | none => none
        | some none => some none
        | some (some spanId) =>
          if Text.byteLen traceFlags ≠ 2 then some none
          else some ((Text.fromStrRadix traceFlags).map fun flags => (traceId, spanId, flags))
  | _ => some none

/-- A pair at its first `=`. -/
def splitPair : List Char → Option (List Char × List Char)
  | [] => none
  | c :: rest => if c = '=' then some ([], rest) else (splitPair rest).map fun p => (c :: p.1, p.2)

/-- `parse_tracestate`. -/
def parseTracestate (tracestate : String) : List (String × String) :=
  (tracestate.toList.splitOn ',').filterMap fun pair =>
    (splitPair pair).bind fun p =>
      let key := Text.trim (String.ofList p.1)
      let value := Text.trim (String.ofList p.2)
      if key = "" then none else some (key, value)

/-- `deserialize_span_context`, with the identifiers of a new trace. -/
def deserializeSpanContext [OpenTelemetry] (newTraceId : IdBytes 16) (newSpanId : IdBytes 8)
    (serialized : SerializedTraceContext) : Option DeserializedContext :=
  match parseTraceparent serialized.traceparent with
  | none => none
  | some (some (traceId, spanId, traceFlags)) =>
    let traceState :=
      (serialized.tracestate.bind fun ts => TraceState.fromKeyValue (parseTracestate ts)).getD TraceState.default
    some { traceId, spanId, traceFlags, traceState, recovered := true }
  | some none =>
    some {
      traceId := newTraceId
      spanId := newSpanId
      traceFlags := 1
      traceState := TraceState.default
      recovered := false }

/-! ### Texts of identifiers -/

/-- Pairs of digits; the first of a pair may be a plus sign. -/
inductive Pairs : List Char → Prop
  | nil : Pairs []
  | cons {c d : Char} {rest : List Char} : Text.IsHex c ∨ c = '+' → Text.IsHex d → Pairs rest → Pairs (c :: d :: rest)

/-- After some pairs, the next two bytes end within a character. -/
def CutsCharacter (text : List Char) : Prop :=
  ∃ pre c rest, text = pre ++ c :: rest ∧ Pairs pre ∧
    (2 < c.utf8Size ∨ c.utf8Size = 1 ∧ ∃ d rest', rest = d :: rest' ∧ 1 < d.utf8Size)

/-- The text is read as a valid identifier of `n` bytes. -/
structure ReadsAs (n : Nat) (text : List Char) : Prop where
  length : Text.byteLen text = 2 * n
  pairs : Pairs text
  nonzero : ∃ c ∈ text, c ≠ '0' ∧ c ≠ '+'

/-- The text is a valid identifier of `n` bytes. -/
structure IsIdText (n : Nat) (text : List Char) : Prop where
  length : text.length = 2 * n
  digits : ∀ c ∈ text, Text.IsHex c
  nonzero : ∃ c ∈ text, c ≠ '0'

/-- The pairs of a text, read from its beginning. -/
def readPairs : List Char → Option (Option (List UInt8))
  | [] => some (some [])
  | [c] => if c.utf8Size = 1 ∨ c.utf8Size = 2 then some none else none
  | c :: d :: rest =>
    if c.utf8Size = 1 then
      if d.utf8Size = 1 then
        match Text.fromStrRadix [c, d] with
        | none => some none
        | some b => (readPairs rest).map fun bytes => bytes.map (b :: ·)
      else none
    else if c.utf8Size = 2 then some none
    else none

theorem utf8Size_of_isHex {c : Char} (h : Text.IsHex c) : c.utf8Size = 1 := by
  have hascii := Text.hexDigit_ascii h
  rw [Char.utf8Size_eq_one_iff, UInt32.le_iff_toNat_le]
  show c.toNat ≤ 127
  omega

theorem utf8Size_sign : Char.utf8Size '+' = 1 := by decide

theorem utf8Size_first {c : Char} (h : Text.IsHex c ∨ c = '+') : c.utf8Size = 1 := by
  rcases h with h | rfl
  · exact utf8Size_of_isHex h
  · exact utf8Size_sign

/-- A pair is read as a byte exactly where it should be. -/
theorem fromStrRadix_isSome (c d : Char) :
    (∃ b, Text.fromStrRadix [c, d] = some b) ↔ (Text.IsHex c ∨ c = '+') ∧ Text.IsHex d := by
  rw [Text.fromStrRadix_pair, Text.IsHex, Text.IsHex]
  cases hd : Text.hexDigit d with
  | none => simp
  | some low =>
    by_cases hc : c = '+'
    · simp [hc]
    · cases Text.hexDigit c with
      | none => simp [hc]
      | some high => simp [hc]

/-- The byte of a pair is zero where the pair has no other character than zeros and the sign. -/
theorem fromStrRadix_zero {c d : Char} {b : UInt8} (h : Text.fromStrRadix [c, d] = some b) :
    b = 0 ↔ (c = '0' ∨ c = '+') ∧ (d = '0' ∨ d = '+') := by
  rw [Text.fromStrRadix_pair] at h
  obtain ⟨low, hlow, h⟩ := Option.bind_eq_some_iff.mp h
  have hlt := Text.hexDigit_lt hlow
  have hzero : low = 0 ↔ d = '0' := by
    constructor
    · rintro rfl
      exact Text.hexDigit_zero hlow
    · rintro rfl
      have hdigit : Text.hexDigit '0' = some 0 := by decide
      exact (Option.some.inj (hlow.symm.trans hdigit))
  have hsign : d ≠ '+' := by
    rintro rfl
    have hnone : Text.hexDigit '+' = none := by decide
    cases hnone.symm.trans hlow
  split at h
  · rename_i hc
    cases h
    have hb : UInt8.ofNat low = 0 ↔ low = 0 := by
      rw [UInt8.ofNat_eq_iff_mod_eq_toNat]
      show low % 256 = 0 ↔ _
      omega
    rw [hb, hzero]
    simp [hc, hsign]
  · rename_i hc
    obtain ⟨high, hhigh, rfl⟩ := Option.map_eq_some_iff.mp h
    have hlt' := Text.hexDigit_lt hhigh
    have hzero' : high = 0 ↔ c = '0' := by
      constructor
      · rintro rfl
        exact Text.hexDigit_zero hhigh
      · rintro rfl
        have hdigit : Text.hexDigit '0' = some 0 := by decide
        exact (Option.some.inj (hhigh.symm.trans hdigit))
    have hb : UInt8.ofNat (16 * high + low) = 0 ↔ high = 0 ∧ low = 0 := by
      rw [UInt8.ofNat_eq_iff_mod_eq_toNat]
      show (16 * high + low) % 256 = 0 ↔ _
      omega
    rw [hb, hzero, hzero']
    simp [hc, hsign]

/-- What is read from pairs: a byte for each, all of them zero where the text shows it. -/
theorem readPairs_of_pairs {text : List Char} (h : Pairs text) :
    ∃ bytes, readPairs text = some (some bytes) ∧ Text.byteLen text = 2 * bytes.length ∧
      ((∀ b ∈ bytes, b = 0) ↔ ∀ c ∈ text, c = '0' ∨ c = '+') := by
  induction h with
  | nil => exact ⟨[], rfl, rfl, by simp⟩
  | @cons c d rest hc hd _ ih =>
    obtain ⟨bytes, hread, hlength, hzero⟩ := ih
    obtain ⟨b, hb⟩ := (fromStrRadix_isSome c d).mpr ⟨hc, hd⟩
    have hcsize := utf8Size_first hc
    have hdsize := utf8Size_of_isHex hd
    refine ⟨b :: bytes, ?_, ?_, ?_⟩
    · rw [readPairs, if_pos hcsize, if_pos hdsize, hb, hread]
      rfl
    · rw [Text.byteLen_cons, Text.byteLen_cons, hcsize, hdsize, hlength, List.length_cons]
      omega
    · simp only [List.forall_mem_cons, hzero, fromStrRadix_zero hb]
      grind

theorem pairs_of_readPairs {text : List Char} {bytes : List UInt8} (h : readPairs text = some (some bytes)) :
    Pairs text := by
  induction text using readPairs.induct generalizing bytes with
  | case1 => exact .nil
  | case2 c hc =>
    rw [readPairs, if_pos hc] at h
    cases h
  | case3 c hc =>
    rw [readPairs, if_neg hc] at h
    cases h
  | case4 c d rest hc hd hnone =>
    rw [readPairs, if_pos hc, if_pos hd, hnone] at h
    cases h
  | case5 c d rest hc hd b hb ih =>
    rw [readPairs, if_pos hc, if_pos hd, hb] at h
    obtain ⟨read, hread, hmap⟩ := Option.map_eq_some_iff.mp h
    obtain ⟨tail, rfl, -⟩ := Option.map_eq_some_iff.mp hmap
    obtain ⟨hfirst, hsecond⟩ := (fromStrRadix_isSome c d).mp ⟨b, hb⟩
    exact .cons hfirst hsecond (ih hread)
  | case6 c d rest hc hd =>
    rw [readPairs, if_pos hc, if_neg hd] at h
    cases h
  | case7 c d rest hc hc' =>
    rw [readPairs, if_neg hc, if_pos hc'] at h
    cases h
  | case8 c d rest hc hc' =>
    rw [readPairs, if_neg hc, if_neg hc'] at h
    cases h

/-- Behind a pair the cut is one of the rest. -/
theorem cutsCharacter_cons {c d : Char} (hc : Text.IsHex c ∨ c = '+') (hd : Text.IsHex d) {rest : List Char} :
    CutsCharacter (c :: d :: rest) ↔ CutsCharacter rest := by
  have hcsize := utf8Size_first hc
  have hdsize := utf8Size_of_isHex hd
  constructor
  · rintro ⟨pre, x, tail, heq, hpre, hcut⟩
    cases hpre with
    | nil =>
      rw [List.nil_append] at heq
      obtain ⟨rfl, htail⟩ := List.cons.inj heq
      rcases hcut with hlarge | ⟨-, e, tail', rfl, hlarge⟩
      · omega
      · obtain ⟨rfl, -⟩ := List.cons.inj htail
        omega
    | cons _ _ hpre' =>
      obtain ⟨-, htail⟩ := List.cons.inj heq
      obtain ⟨-, htail'⟩ := List.cons.inj htail
      exact ⟨_, x, tail, htail', hpre', hcut⟩
  · rintro ⟨pre, x, tail, rfl, hpre, hcut⟩
    exact ⟨c :: d :: pre, x, tail, rfl, .cons hc hd hpre, hcut⟩

/-- The cut at the beginning. -/
theorem cutsCharacter_head {c : Char} {rest : List Char}
    (h : 2 < c.utf8Size ∨ c.utf8Size = 1 ∧ ∃ d rest', rest = d :: rest' ∧ 1 < d.utf8Size) : CutsCharacter (c :: rest) :=
  ⟨[], c, rest, rfl, .nil, h⟩

/-- A text that does not begin with a pair is cut at its beginning or not at all. -/
theorem head_of_cutsCharacter {c : Char} {rest : List Char} (h : CutsCharacter (c :: rest))
    (hno : ∀ d rest', rest = d :: rest' → ¬ ((Text.IsHex c ∨ c = '+') ∧ Text.IsHex d)) :
    2 < c.utf8Size ∨ c.utf8Size = 1 ∧ ∃ d rest', rest = d :: rest' ∧ 1 < d.utf8Size := by
  obtain ⟨pre, x, tail, heq, hpre, hcut⟩ := h
  cases hpre with
  | nil =>
    obtain ⟨rfl, rfl⟩ := List.cons.inj heq
    exact hcut
  | cons hc hd _ =>
    obtain ⟨rfl, hrest⟩ := List.cons.inj heq
    exact absurd ⟨hc, hd⟩ (hno _ _ hrest)

/-- Reading pairs panics exactly at a cut. -/
theorem readPairs_panics_iff (text : List Char) : readPairs text = none ↔ CutsCharacter text := by
  induction text using readPairs.induct with
  | case1 =>
    constructor
    · intro h
      cases h
    · rintro ⟨pre, c, rest, heq, -⟩
      simp at heq
  | case2 c hc =>
    rw [readPairs, if_pos hc]
    constructor
    · intro h
      cases h
    · intro h
      rcases head_of_cutsCharacter h (by simp) with hlarge | ⟨-, d, rest', heq, -⟩
      · omega
      · cases heq
  | case3 c hc =>
    rw [readPairs, if_neg hc]
    have hpos := c.utf8Size_pos
    simp only [true_iff]
    exact cutsCharacter_head (Or.inl (by omega))
  | case4 c d rest hc hd hnone =>
    rw [readPairs, if_pos hc, if_pos hd, hnone]
    constructor
    · intro h
      cases h
    · intro h
      have hno : ¬ ((Text.IsHex c ∨ c = '+') ∧ Text.IsHex d) := by
        rw [← fromStrRadix_isSome]
        simp [hnone]
      rcases head_of_cutsCharacter h (by
          rintro _ _ heq
          cases heq
          exact hno) with hlarge | ⟨-, e, rest', heq, hlarge⟩
      · omega
      · cases heq
        omega
  | case5 c d rest hc hd b hb ih =>
    obtain ⟨hfirst, hsecond⟩ := (fromStrRadix_isSome c d).mp ⟨b, hb⟩
    rw [readPairs, if_pos hc, if_pos hd, hb, cutsCharacter_cons hfirst hsecond, ← ih]
    simp
  | case6 c d rest hc hd =>
    rw [readPairs, if_pos hc, if_neg hd]
    have hpos := d.utf8Size_pos
    simp only [true_iff]
    exact cutsCharacter_head (Or.inr ⟨hc, d, rest, rfl, by omega⟩)
  | case7 c d rest hc hc' =>
    rw [readPairs, if_neg hc, if_pos hc']
    constructor
    · intro h
      cases h
    · intro h
      rcases head_of_cutsCharacter h (by
          rintro _ _ _ ⟨hfirst, -⟩
          exact hc (utf8Size_first hfirst)) with hlarge | ⟨hone, -⟩
      · omega
      · exact absurd hone hc
  | case8 c d rest hc hc' =>
    rw [readPairs, if_neg hc, if_neg hc']
    have hpos := c.utf8Size_pos
    simp only [true_iff]
    exact cutsCharacter_head (Or.inl (by omega))

/-! ### The slices of the code -/

/-- The first two bytes of a text. -/
theorem splitBytes_two (c d : Char) (rest : List Char) (hc : c.utf8Size = 1) :
    (Text.splitBytes (c :: d :: rest) 2).map (·.1) = if d.utf8Size = 1 then some [c, d] else none := by
  have hpos := d.utf8Size_pos
  have hle : c.utf8Size ≤ 1 + 1 := by omega
  rw [Text.splitBytes, if_pos hle, hc]
  show ((Text.splitBytes (d :: rest) (0 + 1)).map _).map _ = _
  rw [Text.splitBytes]
  by_cases hd : d.utf8Size = 1
  · rw [if_pos (by omega), if_pos hd, hd, Text.splitBytes_zero]
    rfl
  · rw [if_neg (by omega), if_neg hd]
    rfl

theorem splitBytes_wide {c : Char} (hc : c.utf8Size = 2) (rest : List Char) :
    (Text.splitBytes (c :: rest) 2).map (·.1) = some [c] := by
  have hle : c.utf8Size ≤ 1 + 1 := by omega
  rw [Text.splitBytes, if_pos hle, hc, Text.splitBytes_zero]
  rfl

theorem splitBytes_wider {c : Char} (hc : 2 < c.utf8Size) (rest : List Char) :
    (Text.splitBytes (c :: rest) 2).map (·.1) = none := by
  have hlt : ¬ c.utf8Size ≤ 1 + 1 := by omega
  rw [Text.splitBytes, if_neg hlt]
  rfl

/-- A character of more than one byte is no number. -/
theorem fromStrRadix_wide {c : Char} (hc : c.utf8Size ≠ 1) : Text.fromStrRadix [c] = none := by
  have hsign : c ≠ '+' := by
    rintro rfl
    exact hc utf8Size_sign
  have hplain : Text.unsigned [c] = [c] := by
    unfold Text.unsigned
    split
    · rename_i heq
      exact absurd (List.cons.inj heq).1 hsign
    · rfl
  have hdigit : Text.hexDigit c = none := by
    by_contra hsome
    exact hc (utf8Size_of_isHex (Option.isSome_iff_ne_none.mpr hsome))
  rw [Text.fromStrRadix, hplain]
  simp [hdigit]

/-- The slices of the bytes from `2 * k` on. -/
def slices (text : List Char) (k m : Nat) : List (Option (Option UInt8)) :=
  (List.range' k m).map fun j => (Text.slice text (2 * j) (2 * j + 2)).map Text.fromStrRadix

/-- The first slice behind the beginning of a text. -/
theorem slices_cons {pre : List Char} {k : Nat} (hpre : Text.byteLen pre = 2 * k) {c : Char} {rest : List Char} {m : Nat}
    (htext : Text.byteLen (c :: rest) = 2 * m) :
    ∃ m', m = m' + 1 ∧ slices (pre ++ c :: rest) k m =
      ((Text.splitBytes (c :: rest) 2).map (·.1)).map Text.fromStrRadix :: slices (pre ++ c :: rest) (k + 1) m' := by
  have hpos := c.utf8Size_pos
  rw [Text.byteLen_cons] at htext
  refine ⟨m - 1, by omega, ?_⟩
  obtain ⟨m', rfl⟩ : ∃ m', m = m' + 1 := ⟨m - 1, by omega⟩
  rw [slices, List.range'_succ, List.map_cons, ← hpre, Text.slice_append]
  rfl

/-- The slices behind the beginning of a text are its pairs. -/
theorem collect_slices {pre text : List Char} {k m : Nat} (hpre : Text.byteLen pre = 2 * k)
    (htext : Text.byteLen text = 2 * m) : collect (slices (pre ++ text) k m) = readPairs text := by
  induction text using readPairs.induct generalizing pre k m with
  | case1 =>
    obtain rfl : m = 0 := by
      have hzero : 0 = 2 * m := htext
      omega
    rfl
  | case2 c hc =>
    obtain ⟨m', rfl, hcons⟩ := slices_cons hpre htext
    have hwide : c.utf8Size = 2 := by
      have hlength : c.utf8Size + 0 = 2 * (m' + 1) := htext
      omega
    rw [hcons, splitBytes_wide hwide, readPairs, if_pos hc, Option.map_some, fromStrRadix_wide (by omega)]
    rfl
  | case3 c hc =>
    obtain ⟨m', rfl, hcons⟩ := slices_cons hpre htext
    have hpos := c.utf8Size_pos
    rw [hcons, splitBytes_wider (by omega), readPairs, if_neg hc]
    rfl
  | case4 c d rest hc hd hnone =>
    obtain ⟨m', rfl, hcons⟩ := slices_cons hpre htext
    rw [hcons, splitBytes_two c d rest hc, if_pos hd, readPairs, if_pos hc, if_pos hd, Option.map_some, hnone]
    rfl
  | case5 c d rest hc hd b hb ih =>
    obtain ⟨m', rfl, hcons⟩ := slices_cons hpre htext
    rw [Text.byteLen_cons, Text.byteLen_cons, hc, hd] at htext
    have hpair : Text.byteLen (pre ++ [c, d]) = 2 * (k + 1) := by
      rw [Text.byteLen_append, hpre, Text.byteLen_cons, Text.byteLen_cons, hc, hd]
      rfl
    have hrest := ih hpair (m := m') (by omega)
    rw [List.append_assoc] at hrest
    rw [hcons, splitBytes_two c d rest hc, if_pos hd, readPairs, if_pos hc, if_pos hd, Option.map_some, hb, ← hrest]
    rfl
  | case6 c d rest hc hd =>
    obtain ⟨m', rfl, hcons⟩ := slices_cons hpre htext
    rw [hcons, splitBytes_two c d rest hc, if_neg hd, readPairs, if_pos hc, if_neg hd]
    rfl
  | case7 c d rest hc hc' =>
    obtain ⟨m', rfl, hcons⟩ := slices_cons hpre htext
    rw [hcons, splitBytes_wide hc', readPairs, if_neg hc, if_pos hc', Option.map_some, fromStrRadix_wide hc]
    rfl
  | case8 c d rest hc hc' =>
    obtain ⟨m', rfl, hcons⟩ := slices_cons hpre htext
    have hpos := c.utf8Size_pos
    rw [hcons, splitBytes_wider (by omega), readPairs, if_neg hc, if_neg hc']
    rfl

theorem hexToBytes_eq {text : List Char} {n : Nat} (h : Text.byteLen text = 2 * n) : hexToBytes text = readPairs text := by
  have heven : ¬ Text.byteLen text % 2 ≠ 0 := by omega
  have hhalf : Text.byteLen text / 2 = n := by omega
  rw [hexToBytes, if_neg heven, hhalf]
  exact @collect_slices [] text 0 n rfl h

/-! ### What is read as an identifier -/

theorem parseIdBytes_panics_iff (n : Nat) (text : List Char) :
    parseIdBytes n text = none ↔ Text.byteLen text = 2 * n ∧ CutsCharacter text := by
  unfold parseIdBytes
  by_cases hlength : Text.byteLen text = 2 * n
  · rw [if_neg (not_not.mpr hlength), hexToBytes_eq hlength, ← readPairs_panics_iff]
    cases readPairs text with
    | none => simp [hlength]
    | some read =>
      cases read with
      | none => simp
      | some bytes =>
        dsimp only
        split
        · split
          · simp
          · simp
        · simp
  · rw [if_pos hlength]
    simp [hlength]

theorem isInvalid_iff {n : Nat} (id : IdBytes n) : id.isInvalid = true ↔ ∀ b ∈ id.1, b = 0 := by
  simp [IdBytes.isInvalid]

/-- From a text of the right length: the bytes that are read. -/
theorem parseIdBytes_some {n : Nat} {text : List Char} {id : IdBytes n} (hlength : Text.byteLen text = 2 * n)
    (hread : readPairs text = some (some id.1)) (hvalid : id.isInvalid = false) :
    parseIdBytes n text = some (some id) := by
  rw [parseIdBytes, if_neg (not_not.mpr hlength), hexToBytes_eq hlength, hread]
  dsimp only
  rw [dif_pos id.2]
  simp [hvalid]

theorem parseIdBytes_isSome_iff (n : Nat) (text : List Char) :
    (∃ id, parseIdBytes n text = some (some id)) ↔ ReadsAs n text := by
  constructor
  · rintro ⟨id, hid⟩
    unfold parseIdBytes at hid
    split at hid
    · cases hid
    · rename_i hlength
      rw [not_not] at hlength
      rw [hexToBytes_eq hlength] at hid
      split at hid
      · cases hid
      · cases hid
      · rename_i bytes hread
        split at hid
        · rename_i hbytes
          dsimp only at hid
          split at hid
          · cases hid
          · rename_i hvalid
            have hpairs := pairs_of_readPairs hread
            refine ⟨hlength, hpairs, ?_⟩
            obtain ⟨read, hread', -, hzero⟩ := readPairs_of_pairs hpairs
            cases hread.symm.trans hread'
            by_contra hall
            push Not at hall
            refine hvalid ((isInvalid_iff _).mpr (hzero.mpr ?_))
            intro c hc
            exact or_iff_not_imp_left.mpr (hall c hc)
        · cases hid
  · rintro ⟨hlength, hpairs, c, hc, hne⟩
    obtain ⟨bytes, hread, hbytes, hzero⟩ := readPairs_of_pairs hpairs
    refine ⟨⟨bytes, by omega⟩, parseIdBytes_some hlength hread ?_⟩
    by_contra hinvalid
    rw [Bool.not_eq_false, isInvalid_iff] at hinvalid
    rcases hzero.mp hinvalid c hc with h | h
    · exact hne.1 h
    · exact hne.2 h

/-- Without a sign, pairs are digits. -/
theorem pairs_iff_digits {text : List Char} (hsign : '+' ∉ text) :
    Pairs text ↔ text.length % 2 = 0 ∧ ∀ c ∈ text, Text.IsHex c := by
  constructor
  · intro h
    induction h with
    | nil => simp
    | @cons c d rest hc hd _ ih =>
      simp only [List.mem_cons, not_or] at hsign
      obtain ⟨hlength, hdigits⟩ := ih hsign.2.2
      refine ⟨by simp only [List.length_cons]; omega, ?_⟩
      simp only [List.forall_mem_cons]
      exact ⟨hc.resolve_right (Ne.symm hsign.1), hd, hdigits⟩
  · rintro ⟨hlength, hdigits⟩
    induction text using readPairs.induct with
    | case1 => exact .nil
    | case2 | case3 => simp at hlength
    | case5 c d rest _ _ _ _ ih =>
      simp only [List.mem_cons, not_or] at hsign
      simp only [List.forall_mem_cons] at hdigits
      simp only [List.length_cons] at hlength
      exact .cons (Or.inl hdigits.1) hdigits.2.1 (ih hsign.2.2 (by omega) hdigits.2.2)
    | case4 c d rest hc hd hnone =>
      simp only [List.forall_mem_cons] at hdigits
      obtain ⟨b, hb⟩ := (fromStrRadix_isSome c d).mpr ⟨Or.inl hdigits.1, hdigits.2.1⟩
      cases hnone.symm.trans hb
    | case6 c d rest _ hd =>
      simp only [List.forall_mem_cons] at hdigits
      exact absurd (utf8Size_of_isHex hdigits.2.1) hd
    | case7 c d rest hc | case8 c d rest hc =>
      simp only [List.forall_mem_cons] at hdigits
      exact absurd (utf8Size_of_isHex hdigits.1) hc

theorem byteLen_of_digits {text : List Char} (h : ∀ c ∈ text, Text.IsHex c) : Text.byteLen text = text.length := by
  induction text with
  | nil => rfl
  | cons c text ih =>
    obtain ⟨hc, hrest⟩ := List.forall_mem_cons.mp h
    rw [Text.byteLen_cons, utf8Size_of_isHex hc, ih hrest, List.length_cons]
    omega

theorem sign_of_digits {text : List Char} (h : ∀ c ∈ text, Text.IsHex c) : '+' ∉ text := by
  intro hmem
  have hsign : ¬ Text.IsHex '+' := by decide
  exact hsign (h '+' hmem)

/-- A valid identifier is what is read as one and has no sign. -/
theorem isIdText_iff (n : Nat) (text : List Char) : IsIdText n text ↔ ReadsAs n text ∧ '+' ∉ text := by
  constructor
  · rintro ⟨hlength, hdigits, c, hc, hne⟩
    have hsign := sign_of_digits hdigits
    refine ⟨⟨?_, (pairs_iff_digits hsign).mpr ⟨by omega, hdigits⟩, c, hc, hne, ?_⟩, hsign⟩
    · rw [byteLen_of_digits hdigits, hlength]
    · rintro rfl
      exact hsign hc
  · rintro ⟨⟨hlength, hpairs, c, hc, hne⟩, hsign⟩
    obtain ⟨-, hdigits⟩ := (pairs_iff_digits hsign).mp hpairs
    rw [byteLen_of_digits hdigits] at hlength
    exact ⟨hlength, hdigits, c, hc, hne.1⟩

/-! ### The parts of a `traceparent` -/

/-- `00`, an identifier of 16 bytes, one of 8 bytes and two digits. -/
def IsTraceparent (text : String) : Prop :=
  ∃ traceId spanId flags : List Char,
    text.toList = ['0', '0'] ++ '-' :: (traceId ++ '-' :: (spanId ++ '-' :: flags)) ∧
      IsIdText 16 traceId ∧ IsIdText 8 spanId ∧ flags.length = 2 ∧ ∀ c ∈ flags, Text.IsHex c

/-- The text makes the reader panic, or has a sign in what is read: four parts of which the first is `00`, the second has 32
bytes and is cut within a character, or the second is read as an identifier, and the third has 16 bytes and is cut, or is
read as well, and the flags are a pair, with a plus sign in one of the three. -/
def Troubled (text : String) : Prop :=
  ∃ traceId spanId flags : List Char, text.toList.splitOn '-' = [['0', '0'], traceId, spanId, flags] ∧
    (Text.byteLen traceId = 2 * 16 ∧ CutsCharacter traceId ∨
      ReadsAs 16 traceId ∧ (Text.byteLen spanId = 2 * 8 ∧ CutsCharacter spanId ∨
        ReadsAs 8 spanId ∧ Text.byteLen flags = 2 ∧ Pairs flags ∧ ('+' ∈ traceId ∨ '+' ∈ spanId ∨ '+' ∈ flags)))

theorem two_bytes {text : List Char} (h : Text.byteLen text = 2) :
    (∃ c d, text = [c, d] ∧ c.utf8Size = 1 ∧ d.utf8Size = 1) ∨ ∃ c, text = [c] ∧ c.utf8Size = 2 := by
  rcases text with _ | ⟨c, _ | ⟨d, _ | ⟨e, rest⟩⟩⟩
  · cases h
  · rw [Text.byteLen_cons] at h
    exact Or.inr ⟨c, rfl, h⟩
  · rw [Text.byteLen_cons, Text.byteLen_cons] at h
    have hc := c.utf8Size_pos
    have hd := d.utf8Size_pos
    have hsum : c.utf8Size + (d.utf8Size + 0) = 2 := h
    exact Or.inl ⟨c, d, rfl, by omega, by omega⟩
  · rw [Text.byteLen_cons, Text.byteLen_cons, Text.byteLen_cons] at h
    have hc := c.utf8Size_pos
    have hd := d.utf8Size_pos
    have he := e.utf8Size_pos
    omega

/-- The flags are read where they are a pair. -/
theorem flags_iff {flags : List Char} (h : Text.byteLen flags = 2) :
    (∃ b, Text.fromStrRadix flags = some b) ↔ Pairs flags := by
  rcases two_bytes h with ⟨c, d, rfl, -, -⟩ | ⟨c, rfl, hc⟩
  · rw [fromStrRadix_isSome]
    constructor
    · rintro ⟨hfirst, hsecond⟩
      exact .cons hfirst hsecond .nil
    · intro hpairs
      cases hpairs with
      | cons hfirst hsecond _ => exact ⟨hfirst, hsecond⟩
  · constructor
    · rintro ⟨b, hb⟩
      rw [fromStrRadix_wide (by omega)] at hb
      cases hb
    · intro hpairs
      cases hpairs

/-- Only four parts of which the first is `00` can come to more than a failure. -/
theorem parts_of_parse {text : String} (h : parseTraceparent text ≠ some none) :
    ∃ traceId spanId flags, text.toList.splitOn '-' = [['0', '0'], traceId, spanId, flags] := by
  unfold parseTraceparent at h
  split at h
  · rename_i version traceId spanId flags hparts
    split at h
    · exact absurd rfl h
    · rename_i hversion
      rw [not_not] at hversion
      exact ⟨traceId, spanId, flags, by rw [hparts, hversion]⟩
  · exact absurd rfl h

/-- A proper text has the four parts. -/
theorem parts_of_traceparent {text : String} (h : IsTraceparent text) :
    ∃ traceId spanId flags, text.toList.splitOn '-' = [['0', '0'], traceId, spanId, flags] ∧
      IsIdText 16 traceId ∧ IsIdText 8 spanId ∧ flags.length = 2 ∧ ∀ c ∈ flags, Text.IsHex c := by
  obtain ⟨traceId, spanId, flags, htext, ht, hp, hf, hdigits⟩ := h
  refine ⟨traceId, spanId, flags, ?_, ht, hp, hf, hdigits⟩
  have hplain : ∀ l : List Char, (∀ c ∈ l, Text.IsHex c) → '-' ∉ l := by
    intro l hl hmem
    have hdash : ¬ Text.IsHex '-' := by decide
    exact hdash (hl '-' hmem)
  have hjoined : text.toList = ['-'].intercalate [['0', '0'], traceId, spanId, flags] := by
    rw [htext]
    simp [List.intercalate]
  rw [hjoined]
  apply List.splitOn_intercalate
  · simp only [List.forall_mem_cons]
    exact ⟨by decide, hplain traceId ht.digits, hplain spanId hp.digits, hplain flags hdigits, by simp⟩
  · simp

section

variable {text : String} {traceId spanId flags : List Char}

theorem parse_parts (h : text.toList.splitOn '-' = [['0', '0'], traceId, spanId, flags]) :
    parseTraceparent text =
      match parseIdBytes 16 traceId with
      | none => none
      | some none => some none
      | some (some traceId) =>
        match parseIdBytes 8 spanId with
        | none => none
        | some none => some none
        | some (some spanId) =>
          if Text.byteLen flags ≠ 2 then some none
          else some ((Text.fromStrRadix flags).map fun flags => (traceId, spanId, flags)) := by
  rw [parseTraceparent, h]
  rfl

theorem parse_panics_iff (h : text.toList.splitOn '-' = [['0', '0'], traceId, spanId, flags]) :
    parseTraceparent text = none ↔ Text.byteLen traceId = 2 * 16 ∧ CutsCharacter traceId ∨
      ReadsAs 16 traceId ∧ Text.byteLen spanId = 2 * 8 ∧ CutsCharacter spanId := by
  rw [parse_parts h, ← parseIdBytes_panics_iff, ← parseIdBytes_panics_iff, ← parseIdBytes_isSome_iff]
  cases parseIdBytes 16 traceId with
  | none => simp
  | some first =>
    cases first with
    | none => simp
    | some first =>
      cases parseIdBytes 8 spanId with
      | none => simp
      | some second =>
        cases second with
        | none => simp
        | some second =>
          dsimp only
          split
          · simp
          · simp

theorem parse_recovers_iff (h : text.toList.splitOn '-' = [['0', '0'], traceId, spanId, flags]) :
    (∃ ids, parseTraceparent text = some (some ids)) ↔
      ReadsAs 16 traceId ∧ ReadsAs 8 spanId ∧ Text.byteLen flags = 2 ∧ Pairs flags := by
  rw [parse_parts h, ← parseIdBytes_isSome_iff, ← parseIdBytes_isSome_iff]
  cases parseIdBytes 16 traceId with
  | none => simp
  | some first =>
    cases first with
    | none => simp
    | some first =>
      cases parseIdBytes 8 spanId with
      | none => simp
      | some second =>
        cases second with
        | none => simp
        | some second =>
          dsimp only
          by_cases hflags : Text.byteLen flags = 2
          · rw [if_neg (not_not.mpr hflags), ← flags_iff hflags]
            cases Text.fromStrRadix flags with
            | none => simp
            | some b => simp [hflags]
          · rw [if_pos hflags]
            simp [hflags]

theorem isTraceparent_iff (h : text.toList.splitOn '-' = [['0', '0'], traceId, spanId, flags]) :
    IsTraceparent text ↔ IsIdText 16 traceId ∧ IsIdText 8 spanId ∧ flags.length = 2 ∧ ∀ c ∈ flags, Text.IsHex c := by
  constructor
  · intro htext
    obtain ⟨t, p, f, hparts, hids⟩ := parts_of_traceparent htext
    rw [h] at hparts
    simp only [List.cons.injEq, true_and, and_true] at hparts
    obtain ⟨rfl, rfl, rfl⟩ := hparts
    exact hids
  · rintro ⟨ht, hp, hf, hdigits⟩
    refine ⟨traceId, spanId, flags, ?_, ht, hp, hf, hdigits⟩
    have hjoined : ['-'].intercalate (text.toList.splitOn '-') = text.toList := List.intercalate_splitOn '-'
    rw [h] at hjoined
    rw [← hjoined]
    simp [List.intercalate]

/-- Of what is recovered, the texts without a sign are those that should be. -/
theorem isTraceparent_iff_recovered (h : text.toList.splitOn '-' = [['0', '0'], traceId, spanId, flags]) :
    IsTraceparent text ↔ (ReadsAs 16 traceId ∧ ReadsAs 8 spanId ∧ Text.byteLen flags = 2 ∧ Pairs flags) ∧
      ¬ ('+' ∈ traceId ∨ '+' ∈ spanId ∨ '+' ∈ flags) := by
  rw [isTraceparent_iff h, isIdText_iff, isIdText_iff]
  constructor
  · rintro ⟨⟨ht, htsign⟩, ⟨hp, hpsign⟩, hf, hdigits⟩
    have hfsign := sign_of_digits hdigits
    refine ⟨⟨ht, hp, ?_, (pairs_iff_digits hfsign).mpr ⟨by omega, hdigits⟩⟩, by simp [htsign, hpsign, hfsign]⟩
    rw [byteLen_of_digits hdigits, hf]
  · rintro ⟨⟨ht, hp, hf, hpairs⟩, hsign⟩
    simp only [not_or] at hsign
    obtain ⟨-, hdigits⟩ := (pairs_iff_digits hsign.2.2).mp hpairs
    rw [byteLen_of_digits hdigits] at hf
    exact ⟨⟨ht, hsign.1⟩, ⟨hp, hsign.2.1⟩, hf, hdigits⟩

end

/-- The parser does not panic, and recovers what should be recovered. -/
theorem parse_robust_iff (text : String) :
    (parseTraceparent text ≠ none ∧ ((∃ ids, parseTraceparent text = some (some ids)) ↔ IsTraceparent text)) ↔
      ¬ Troubled text := by
  by_cases hparts : ∃ traceId spanId flags, text.toList.splitOn '-' = [['0', '0'], traceId, spanId, flags]
  · obtain ⟨traceId, spanId, flags, h⟩ := hparts
    have htroubled : Troubled text ↔ (Text.byteLen traceId = 2 * 16 ∧ CutsCharacter traceId ∨
        ReadsAs 16 traceId ∧ (Text.byteLen spanId = 2 * 8 ∧ CutsCharacter spanId ∨
          ReadsAs 8 spanId ∧ Text.byteLen flags = 2 ∧ Pairs flags ∧
            ('+' ∈ traceId ∨ '+' ∈ spanId ∨ '+' ∈ flags))) := by
      constructor
      · rintro ⟨t, p, f, h', htrouble⟩
        rw [h] at h'
        simp only [List.cons.injEq, true_and, and_true] at h'
        obtain ⟨rfl, rfl, rfl⟩ := h'
        exact htrouble
      · exact fun htrouble => ⟨traceId, spanId, flags, h, htrouble⟩
    rw [htroubled, Ne, parse_panics_iff h, isTraceparent_iff_recovered h, parse_recovers_iff h]
    generalize (Text.byteLen traceId = 2 * 16 ∧ CutsCharacter traceId) = cutFirst
    generalize ReadsAs 16 traceId = readsFirst
    generalize (Text.byteLen spanId = 2 * 8 ∧ CutsCharacter spanId) = cutSecond
    generalize ReadsAs 8 spanId = readsSecond
    generalize (Text.byteLen flags = 2) = two
    generalize Pairs flags = pair
    generalize ('+' ∈ traceId ∨ '+' ∈ spanId ∨ '+' ∈ flags) = sign
    grind
  · have hnone : parseTraceparent text = some none := by
      by_contra hne
      exact hparts (parts_of_parse hne)
    constructor
    · rintro - ⟨traceId, spanId, flags, h, -⟩
      exact hparts ⟨traceId, spanId, flags, h⟩
    · intro _
      rw [hnone]
      refine ⟨by simp, ?_⟩
      constructor
      · rintro ⟨ids, hids⟩
        cases hids
      · intro htext
        obtain ⟨traceId, spanId, flags, h, -⟩ := parts_of_traceparent htext
        exact absurd ⟨traceId, spanId, flags, h⟩ hparts

/-! ### What is written is read -/

theorem hexPair_isHex (b : UInt8) : ∀ c ∈ Text.hexPair b, Text.IsHex c := by
  have hb := b.toNat_lt
  have hdigit : ∀ n < 16, Text.IsHex (Nat.digitChar n) := by
    intro n hn
    rw [Text.IsHex, Text.hexDigit_digitChar n hn]
    rfl
  intro c hc
  simp only [Text.hexPair, List.mem_cons, List.not_mem_nil, or_false] at hc
  rcases hc with rfl | rfl
  · exact hdigit _ (by omega)
  · exact hdigit _ (by omega)

theorem idText_isHex {n : Nat} (id : IdBytes n) : ∀ c ∈ idText id, Text.IsHex c := by
  intro c hc
  obtain ⟨b, -, hb⟩ := List.mem_flatMap.mp hc
  exact hexPair_isHex b c hb

theorem readPairs_hexPairs (bytes : List UInt8) : readPairs (bytes.flatMap Text.hexPair) = some (some bytes) := by
  induction bytes with
  | nil => rfl
  | cons b bytes ih =>
    obtain ⟨c, d, hpair⟩ : ∃ c d, Text.hexPair b = [c, d] := ⟨_, _, rfl⟩
    have hdigits := hexPair_isHex b
    have hread := Text.fromStrRadix_hexPair b
    rw [hpair] at hdigits hread
    obtain ⟨hc, hd, -⟩ : Text.IsHex c ∧ Text.IsHex d ∧ True := by simpa using hdigits
    rw [List.flatMap_cons, hpair]
    show readPairs (c :: d :: bytes.flatMap Text.hexPair) = _
    rw [readPairs, if_pos (utf8Size_of_isHex hc), if_pos (utf8Size_of_isHex hd), hread, ih]
    rfl

theorem length_idText {n : Nat} (id : IdBytes n) : Text.byteLen (idText id) = 2 * n := by
  rw [byteLen_of_digits (idText_isHex id), idText, List.length_flatMap]
  have htwo : (id.1.map fun b => (Text.hexPair b).length) = id.1.map fun _ => 2 := by simp [Text.hexPair]
  rw [htwo, List.map_const', List.sum_replicate_nat, id.2]
  omega

theorem parseIdBytes_idText {n : Nat} {id : IdBytes n} (h : id.isInvalid = false) :
    parseIdBytes n (idText id) = some (some id) :=
  parseIdBytes_some (length_idText id) (readPairs_hexPairs id.1) h

section

variable [OpenTelemetry] {ctx : SpanContext}

theorem parts_of_serialized (ctx : SpanContext) :
    (serializeSpanContext ctx).traceparent.toList.splitOn '-' =
      [['0', '0'], idText ctx.traceId, idText ctx.spanId, Text.hexPair ctx.traceFlags] := by
  have hplain : ∀ l : List Char, (∀ c ∈ l, Text.IsHex c) → '-' ∉ l := by
    intro l hl hmem
    have hdash : ¬ Text.IsHex '-' := by decide
    exact hdash (hl '-' hmem)
  have hjoined : (serializeSpanContext ctx).traceparent.toList =
      ['-'].intercalate [['0', '0'], idText ctx.traceId, idText ctx.spanId, Text.hexPair ctx.traceFlags] := by
    simp [serializeSpanContext, List.intercalate]
  rw [hjoined]
  apply List.splitOn_intercalate
  · simp only [List.forall_mem_cons]
    exact ⟨by decide, hplain _ (idText_isHex _), hplain _ (idText_isHex _), hplain _ (hexPair_isHex _), by simp⟩
  · simp

/-- The identifiers and the flags come back. -/
theorem parse_serialized (h : ctx.isValid = true) :
    parseTraceparent (serializeSpanContext ctx).traceparent = some (some (ctx.traceId, ctx.spanId, ctx.traceFlags)) := by
  simp only [SpanContext.isValid, Bool.and_eq_true, Bool.not_eq_true'] at h
  have hflags : Text.byteLen (Text.hexPair ctx.traceFlags) = 2 := by
    rw [byteLen_of_digits (hexPair_isHex _)]
    rfl
  rw [parse_parts (parts_of_serialized ctx), parseIdBytes_idText h.1, parseIdBytes_idText h.2]
  dsimp only
  rw [if_neg (not_not.mpr hflags), Text.fromStrRadix_hexPair]
  rfl

/-! ### The trace state -/

/-- What a valid trace state does not have in its members: the characters that separate them. -/
structure Separators : Prop where
  key : ∀ key, OpenTelemetry.validKey key = true → ',' ∉ key.toList ∧ '=' ∉ key.toList
  value : ∀ value, OpenTelemetry.validValue value = true → ',' ∉ value.toList

/-- No member has white space around its key or value, or an empty key. -/
def Tidy (state : TraceState) : Prop :=
  ∀ e ∈ state.entries, Text.trim e.1 = e.1 ∧ Text.trim e.2 = e.2 ∧ e.1 ≠ ""

/-- What becomes of a member. -/
def trimEntry (e : String × String) : Option (String × String) :=
  if Text.trim e.1 = "" then none else some (Text.trim e.1, Text.trim e.2)

omit [OpenTelemetry] in
theorem splitPair_eq {key value : List Char} (h : '=' ∉ key) : splitPair (key ++ '=' :: value) = some (key, value) := by
  induction key with
  | nil => rfl
  | cons c key ih =>
    simp only [List.mem_cons, not_or] at h
    rw [List.cons_append, splitPair, if_neg (Ne.symm h.1), ih h.2]
    rfl

/-- Of a written trace state every member is read, trimmed. -/
theorem parseTracestate_header (hsep : Separators) {state : TraceState} (hne : state.entries ≠ []) :
    parseTracestate state.header = state.entries.filterMap trimEntry := by
  have hvalid : ∀ e ∈ state.entries, (',' ∉ e.1.toList ∧ '=' ∉ e.1.toList) ∧ ',' ∉ e.2.toList := by
    intro e he
    obtain ⟨hkey, hvalue⟩ := Bool.and_eq_true_iff.mp (state.valid e he)
    exact ⟨hsep.key _ hkey, hsep.value _ hvalue⟩
  have hsplit : state.header.toList.splitOn ',' = state.entries.map TraceState.entryText := by
    rw [TraceState.header, String.toList_ofList]
    apply List.splitOn_intercalate
    · intro l hl
      obtain ⟨e, he, rfl⟩ := List.mem_map.mp hl
      obtain ⟨⟨hkey, -⟩, hvalue⟩ := hvalid e he
      simp [TraceState.entryText, hkey, hvalue]
    · simpa using hne
  rw [parseTracestate, hsplit, List.filterMap_map]
  apply List.filterMap_congr
  intro e he
  obtain ⟨⟨-, hkey⟩, -⟩ := hvalid e he
  show (splitPair (TraceState.entryText e)).bind _ = _
  rw [TraceState.entryText, splitPair_eq hkey, Option.bind_some]
  simp only [String.ofList_toList]
  rfl

omit [OpenTelemetry] in
theorem filterMap_eq_self_iff {α : Type} {f : α → Option α} {xs : List α} :
    xs.filterMap f = xs ↔ ∀ x ∈ xs, f x = some x := by
  constructor
  · intro h
    induction xs with
    | nil => simp
    | cons x xs ih =>
      cases hx : f x with
      | none =>
        rw [List.filterMap_cons_none hx] at h
        have hle := List.length_filterMap_le f xs
        rw [h, List.length_cons] at hle
        omega
      | some y =>
        rw [List.filterMap_cons_some hx] at h
        obtain ⟨rfl, hrest⟩ := List.cons.inj h
        exact List.forall_mem_cons.mpr ⟨hx, ih hrest⟩
  · intro h
    rw [List.filterMap_congr h, List.filterMap_some]

omit [OpenTelemetry] in
theorem trimEntry_eq_self {e : String × String} :
    trimEntry e = some e ↔ Text.trim e.1 = e.1 ∧ Text.trim e.2 = e.2 ∧ e.1 ≠ "" := by
  obtain ⟨key, value⟩ := e
  unfold trimEntry
  dsimp only
  constructor
  · intro h
    split at h
    · cases h
    · rename_i hkey
      obtain ⟨htrim, hvalue⟩ := Prod.mk.inj (Option.some.inj h)
      rw [htrim] at hkey
      exact ⟨htrim, hvalue, hkey⟩
  · rintro ⟨hkey, hvalue, hne⟩
    rw [hkey, hvalue, if_neg hne]

/-- The trace state that is read. -/
def readState (tracestate : Option String) : TraceState :=
  (tracestate.bind fun ts => TraceState.fromKeyValue (parseTracestate ts)).getD TraceState.default

theorem header_ne {state : TraceState} (hne : state.entries ≠ []) : state.header ≠ "" := by
  intro hempty
  have hlist := congrArg String.toList hempty
  rw [TraceState.header, String.toList_ofList] at hlist
  cases hentries : state.entries with
  | nil => exact hne hentries
  | cons e rest =>
    rw [hentries] at hlist
    cases rest with
    | nil => simp [List.intercalate, TraceState.entryText] at hlist
    | cons e' rest => simp [List.intercalate, TraceState.entryText] at hlist

theorem traceState_ext {s t : TraceState} (h : s.entries = t.entries) : s = t := by
  obtain ⟨entries, valid⟩ := s
  obtain ⟨entries', valid'⟩ := t
  subst h
  rfl

/-- The trace state comes back exactly where it is tidy. -/
theorem readState_iff (hsep : Separators) (ctx : SpanContext) :
    readState (serializeSpanContext ctx).tracestate = ctx.traceState ↔ Tidy ctx.traceState := by
  by_cases hne : ctx.traceState.entries = []
  · have hheader : ctx.traceState.header = "" := by
      rw [TraceState.header, hne]
      rfl
    have htidy : Tidy ctx.traceState := by
      intro e he
      rw [hne] at he
      cases he
    simp only [htidy, iff_true, serializeSpanContext, if_pos hheader]
    exact traceState_ext hne.symm
  · have hread : readState (serializeSpanContext ctx).tracestate =
        (TraceState.fromKeyValue (ctx.traceState.entries.filterMap trimEntry)).getD TraceState.default := by
      simp only [serializeSpanContext, if_neg (header_ne hne), readState, Option.bind_some,
        parseTracestate_header hsep hne]
    have htidy : Tidy ctx.traceState ↔ ctx.traceState.entries.filterMap trimEntry = ctx.traceState.entries := by
      rw [filterMap_eq_self_iff]
      simp only [Tidy, trimEntry_eq_self]
    rw [hread, htidy, TraceState.fromKeyValue]
    split
    · constructor
      · intro heq
        exact congrArg TraceState.entries heq
      · intro heq
        exact traceState_ext heq
    · rename_i hinvalid
      constructor
      · intro heq
        exact absurd (congrArg TraceState.entries heq).symm hne
      · intro heq
        rw [heq] at hinvalid
        exact absurd ctx.traceState.valid hinvalid

/-! ### The whole -/

/-- The context comes back. -/
def RoundTrips (newTraceId : IdBytes 16) (newSpanId : IdBytes 8) (ctx : SpanContext) : Prop :=
  deserializeSpanContext newTraceId newSpanId (serializeSpanContext ctx) = some {
    traceId := ctx.traceId
    spanId := ctx.spanId
    traceFlags := ctx.traceFlags
    traceState := ctx.traceState
    recovered := true }

/-- No panic, and recovered exactly where the text is proper. -/
def Robust (newTraceId : IdBytes 16) (newSpanId : IdBytes 8) (serialized : SerializedTraceContext) : Prop :=
  ∃ d, deserializeSpanContext newTraceId newSpanId serialized = some d ∧
    (d.recovered = true ↔ IsTraceparent serialized.traceparent)

theorem robust_iff (newTraceId : IdBytes 16) (newSpanId : IdBytes 8) (serialized : SerializedTraceContext) :
    Robust newTraceId newSpanId serialized ↔ ¬ Troubled serialized.traceparent := by
  rw [← parse_robust_iff, Robust, deserializeSpanContext]
  cases parseTraceparent serialized.traceparent with
  | none => simp
  | some parsed =>
    cases parsed with
    | none => simp
    | some ids => simp

theorem roundTrips_iff (hsep : Separators) (newTraceId : IdBytes 16) (newSpanId : IdBytes 8) (h : ctx.isValid = true) :
    RoundTrips newTraceId newSpanId ctx ↔ Tidy ctx.traceState := by
  rw [← readState_iff hsep, RoundTrips, deserializeSpanContext, parse_serialized h]
  simp [readState]

/-- A valid context comes back exactly where its trace state is tidy, and a text is handled as it should be exactly where it
is not troubled. -/
theorem storage_is_robust_iff (hsep : Separators) (newTraceId : IdBytes 16) (newSpanId : IdBytes 8) (ctx : SpanContext)
    (h : ctx.isValid = true) (serialized : SerializedTraceContext) :
    (RoundTrips newTraceId newSpanId ctx ↔ Tidy ctx.traceState) ∧
      (Robust newTraceId newSpanId serialized ↔ ¬ Troubled serialized.traceparent) :=
  ⟨roundTrips_iff hsep newTraceId newSpanId h, robust_iff newTraceId newSpanId serialized⟩

end

end Trace

namespace Sample

/-- The characters of keys, and values without the separators. -/
@[reducible] def openTelemetry : OpenTelemetry where
  validKey key := key.toList.all fun c => c.isLower || c.isDigit || ['_', '-', '*', '/', '@'].contains c
  validValue value := value.toList.all fun c => c != ',' && c != '='

attribute [local instance] openTelemetry

theorem separators : Trace.Separators where
  key := by
    intro key h
    have hall := List.all_eq_true.mp h
    refine ⟨fun hmem => ?_, fun hmem => ?_⟩
    · exact absurd (hall _ hmem) (by decide)
    · exact absurd (hall _ hmem) (by decide)
  value := by
    intro value h hmem
    exact absurd (List.all_eq_true.mp h _ hmem) (by decide)

/-- An identifier with one byte repeated. -/
def repeated (n : Nat) (b : UInt8) : IdBytes n := ⟨List.replicate n b, List.length_replicate⟩

/-- A sampled context of one member. -/
def spanContext (value : String) (h : OpenTelemetry.validValue value = true) : SpanContext where
  traceId := repeated 16 0x4b
  spanId := repeated 8 0xf0
  traceFlags := 1
  traceState := ⟨[("vendor", value)], by
    intro e he
    obtain rfl := List.mem_singleton.mp he
    have hkey : OpenTelemetry.validKey "vendor" = true := by decide
    exact Bool.and_eq_true_iff.mpr ⟨hkey, h⟩⟩

/-- A text of four parts. -/
def traceparent (traceId spanId flags : List Char) : SerializedTraceContext where
  traceparent := String.ofList (['-'].intercalate [['0', '0'], traceId, spanId, flags])
  tracestate := none

/-- An identifier that begins with a character of three bytes. -/
def cut : SerializedTraceContext :=
  traceparent ('€' :: List.replicate 29 'a') (List.replicate 16 'b') ['0', '1']

/-- An identifier that begins with a sign. -/
def signed : SerializedTraceContext :=
  traceparent ('+' :: List.replicate 31 'a') (List.replicate 16 'b') ['0', '1']

end Sample

namespace Trace

attribute [local instance] Sample.openTelemetry

/-- The blank before a value is lost, a character of three bytes is a panic, and a sign passes for a digit. -/
theorem storage_is_not_robust :
    (Sample.spanContext " a" (by decide)).isValid = true ∧
      ¬ RoundTrips (Sample.repeated 16 1) (Sample.repeated 8 1) (Sample.spanContext " a" (by decide)) ∧
      ¬ Robust (Sample.repeated 16 1) (Sample.repeated 8 1) Sample.cut ∧
      ¬ Robust (Sample.repeated 16 1) (Sample.repeated 8 1) Sample.signed := by
  have hvalid : (Sample.spanContext " a" (by decide)).isValid = true := by decide
  refine ⟨hvalid, ?_, ?_, ?_⟩
  · rw [roundTrips_iff Sample.separators _ _ hvalid]
    intro htidy
    obtain ⟨-, hvalue, -⟩ := htidy _ (List.mem_singleton.mpr rfl)
    exact absurd hvalue (by decide)
  · rintro ⟨d, hd, -⟩
    have hpanic : deserializeSpanContext (Sample.repeated 16 1) (Sample.repeated 8 1) Sample.cut = none := by rfl
    cases hpanic.symm.trans hd
  · rintro ⟨d, hd, hrobust⟩
    have hread : (deserializeSpanContext (Sample.repeated 16 1) (Sample.repeated 8 1) Sample.signed).map
        (·.recovered) = some true := by rfl
    rw [hd] at hread
    obtain ⟨hid, -⟩ := (isTraceparent_iff (by rfl)).mp (hrobust.mp (Option.some.inj hread))
    exact absurd (hid.digits '+' List.mem_cons_self) (by decide)

/-- A context whose trace state has no blanks, and a text with one part. -/
theorem storage_is_robust_iff_sample :
    (RoundTrips (Sample.repeated 16 1) (Sample.repeated 8 1) (Sample.spanContext "a" (by decide)) ↔
        Tidy (Sample.spanContext "a" (by decide)).traceState) ∧
      (Robust (Sample.repeated 16 1) (Sample.repeated 8 1) ⟨"invalid", none⟩ ↔ ¬ Troubled "invalid") :=
  storage_is_robust_iff Sample.separators _ _ (Sample.spanContext "a" (by decide)) (by decide) ⟨"invalid", none⟩

end Trace

end ThoughtGate
