import ThoughtGate.Lib.Lines
import ThoughtGate.Shim.Message

/-!
# Reading lines of bounded length

`bounded_read_line` and `drain_until_newline` (`shim/proxy/helpers.rs`). A reader hands out its stream in chunks of any
size; errors of the pipe and the timeout of the drain are left out. What is read depends on the bytes of the stream and
not on the cuts between the chunks: after any number of calls it is one line after the other, in place of those that are
too long the error, and then the end (`readings_eq`).
-/

namespace ThoughtGate.Shim

/-! ### The reader -/

/-- What `fill_buf` may return before the end of the stream. -/
abbrev Chunk := { bytes : List UInt8 // bytes ≠ [] }

/-- An `AsyncBufRead`: what is in its buffer, and the chunks that are still to come. -/
abbrev Reader := List Chunk

namespace Reader

/-- The bytes that have not been consumed. -/
def bytes (r : Reader) : List UInt8 := (r.map (·.1)).flatten

/-- `consume`, of a part of the chunk that `fill_buf` has returned. -/
def consume (n : Nat) : Reader → Reader
  | [] => []
  | chunk :: rest => if h : chunk.1.drop n = [] then rest else ⟨chunk.1.drop n, h⟩ :: rest

end Reader

/-- `b'\n'`. -/
def isNewline (b : UInt8) : Bool := b == 10

/-- `drain_until_newline`. -/
def drainUntilNewline : Reader → Reader
  | [] => []
  | chunk :: rest =>
    match chunk.1.findIdx? isNewline with
    | some pos => Reader.consume (pos + 1) (chunk :: rest)
    | none => drainUntilNewline rest

/-- `bounded_read_line`: what it returns, its buffer and the reader afterwards. Without a newline the whole chunk is
consumed. -/
def boundedReadLine (maxBytes : Nat) : Reader → List UInt8 → Nat → Except FramingError Nat × List UInt8 × Reader
  | [], buf, total => (.ok total, buf, [])
  | chunk :: rest, buf, total =>
    match chunk.1.findIdx? isNewline with
    | some pos =>
      let toConsume := pos + 1
      let reader := Reader.consume toConsume (chunk :: rest)
      if total + toConsume > maxBytes then (.error (.messageTooLarge maxBytes), buf, reader)
      else (.ok (total + toConsume), buf ++ chunk.1.take toConsume, reader)
    | none =>
      let len := chunk.1.length
      if total + len > maxBytes then (.error (.messageTooLarge maxBytes), buf, drainUntilNewline rest)
      else boundedReadLine maxBytes rest (buf ++ chunk.1) (total + len)

/-- What a call with a cleared buffer comes to: the number of bytes and the bytes, or the error. -/
abbrev Reading := Except FramingError (Nat × List UInt8)

def Reading.of (result : Except FramingError Nat) (buf : List UInt8) : Reading := result.map fun n => (n, buf)

/-- The first `n` calls, each with a cleared buffer. -/
def readings (maxBytes : Nat) : Nat → Reader → List Reading
  | 0, _ => []
  | n + 1, reader =>
    let (result, buf, reader) := boundedReadLine maxBytes reader [] 0
    Reading.of result buf :: readings maxBytes n reader

/-! ### What should be read -/

/-- A line is read whole, or refused. -/
def lineReading (maxBytes : Nat) (line : List UInt8) : Reading :=
  if line.length ≤ maxBytes then .ok (line.length, line) else .error (.messageTooLarge maxBytes)

/-- The end of the stream. -/
def endReading : Reading := .ok (0, [])

/-- The lines with their newlines, and an unterminated rest. -/
def lines (stream : List UInt8) : List (List UInt8) := Lines.pieces isNewline stream

/-! ### The chunks make no difference -/

theorem bytes_cons (chunk : Chunk) (rest : Reader) : Reader.bytes (chunk :: rest) = chunk.1 ++ Reader.bytes rest := by
  simp [Reader.bytes]

/-- A chunk with a newline, cut behind the first one. -/
theorem newline_found {chunk : List UInt8} {pos : Nat} (h : chunk.findIdx? isNewline = some pos) :
    (∀ b ∈ chunk.take pos, isNewline b = false) ∧ (chunk.take pos).length = pos ∧
      chunk.take (pos + 1) = chunk.take pos ++ [10] ∧ chunk = chunk.take pos ++ 10 :: chunk.drop (pos + 1) := by
  obtain ⟨hlt, hat, hbefore⟩ := List.findIdx?_eq_some_iff_getElem.mp h
  have hten : chunk[pos] = 10 := by simpa [isNewline] using hat
  have hcut : chunk.take (pos + 1) = chunk.take pos ++ [10] := by rw [List.take_succ_eq_append_getElem hlt, hten]
  refine ⟨?_, ?_, hcut, ?_⟩
  · intro b hb
    obtain ⟨i, hi, rfl⟩ := List.mem_take_iff_getElem.mp hb
    have hi' : i < pos := by omega
    simpa using hbefore i hi'
  · rw [List.length_take]
    omega
  · rw [← hten, ← List.drop_eq_getElem_cons hlt, List.take_append_drop]

theorem newline_absent {chunk : List UInt8} (h : chunk.findIdx? isNewline = none) : ∀ b ∈ chunk, isNewline b = false := by
  intro b hb
  simpa using List.findIdx?_eq_none_iff.mp h b hb

theorem bytes_consume (n : Nat) (chunk : Chunk) (rest : Reader) :
    Reader.bytes (Reader.consume n (chunk :: rest)) = chunk.1.drop n ++ Reader.bytes rest := by
  rw [Reader.consume]
  split
  · rename_i hnil
    rw [hnil, List.nil_append]
  · rw [bytes_cons]

/-- Where a chunk has a newline, it ends the line that was begun before. -/
theorem lines_found {pre : List UInt8} (hpre : ∀ b ∈ pre, isNewline b = false) {chunk : Chunk} {pos : Nat}
    (h : chunk.1.findIdx? isNewline = some pos) (rest : Reader) :
    lines (pre ++ Reader.bytes (chunk :: rest)) =
      (pre ++ chunk.1.take (pos + 1)) :: lines (Reader.bytes (Reader.consume (pos + 1) (chunk :: rest))) := by
  obtain ⟨hbody, -, hcut, hchunk⟩ := newline_found h
  have hopen : ∀ b ∈ pre ++ chunk.1.take pos, isNewline b = false := by
    intro b hb
    rcases List.mem_append.mp hb with hb | hb
    · exact hpre b hb
    · exact hbody b hb
  have hstream : pre ++ Reader.bytes (chunk :: rest) =
      (pre ++ chunk.1.take pos) ++ 10 :: (chunk.1.drop (pos + 1) ++ Reader.bytes rest) := by
    rw [bytes_cons]
    conv => lhs; rw [hchunk]
    simp
  rw [hstream, bytes_consume, hcut, ← List.append_assoc]
  exact Lines.pieces_closed hopen rfl _

/-- Draining goes to the end of the line that was begun. -/
theorem drain_lines (reader : Reader) {pre : List UInt8} (hpre : ∀ b ∈ pre, isNewline b = false) (hne : pre ≠ []) :
    ∃ line, lines (pre ++ reader.bytes) = line :: lines (drainUntilNewline reader).bytes ∧ pre.length ≤ line.length := by
  induction reader generalizing pre with
  | nil =>
    refine ⟨pre, ?_, le_refl _⟩
    have hpieces := Lines.pieces_open hpre hne
    simpa [Reader.bytes, drainUntilNewline, lines] using hpieces
  | cons chunk rest ih =>
    rw [drainUntilNewline]
    cases hfind : chunk.1.findIdx? isNewline with
    | some pos =>
      refine ⟨_, lines_found hpre hfind rest, ?_⟩
      rw [List.length_append]
      omega
    | none =>
      have hopen : ∀ b ∈ pre ++ chunk.1, isNewline b = false := by
        intro b hb
        rcases List.mem_append.mp hb with hb | hb
        · exact hpre b hb
        · exact newline_absent hfind b hb
      obtain ⟨line, hline, hlength⟩ := ih hopen (by simp [hne])
      refine ⟨line, ?_, ?_⟩
      · rw [bytes_cons, ← List.append_assoc]
        exact hline
      · rw [List.length_append] at hlength
        omega

/-- A call that has read `pre` reads the line that begins with it. -/
theorem read_line (maxBytes : Nat) (reader : Reader) {pre : List UInt8} (hpre : ∀ b ∈ pre, isNewline b = false)
    (hfits : pre.length ≤ maxBytes) (hmore : pre ++ reader.bytes ≠ []) :
    ∃ line result buf reader', boundedReadLine maxBytes reader pre pre.length = (result, buf, reader') ∧
      lines (pre ++ reader.bytes) = line :: lines reader'.bytes ∧ Reading.of result buf = lineReading maxBytes line := by
  induction reader generalizing pre with
  | nil =>
    have hne : pre ≠ [] := by simpa [Reader.bytes] using hmore
    refine ⟨pre, _, _, _, rfl, ?_, ?_⟩
    · have hpieces := Lines.pieces_open hpre hne
      simpa [Reader.bytes, lines] using hpieces
    · rw [lineReading, if_pos hfits]
      rfl
  | cons chunk rest ih =>
    cases hfind : chunk.1.findIdx? isNewline with
    | some pos =>
      obtain ⟨-, hlength, hcut, -⟩ := newline_found hfind
      have hline : (pre ++ chunk.1.take (pos + 1)).length = pre.length + (pos + 1) := by
        rw [hcut, List.length_append, List.length_append, hlength]
        rfl
      rw [boundedReadLine, hfind]
      dsimp only
      split
      · rename_i hlong
        refine ⟨_, _, _, _, rfl, lines_found hpre hfind rest, ?_⟩
        rw [lineReading, if_neg (by omega)]
        rfl
      · rename_i hshort
        refine ⟨_, _, _, _, rfl, lines_found hpre hfind rest, ?_⟩
        rw [lineReading, if_pos (by omega), hline]
        rfl
    | none =>
      have hopen : ∀ b ∈ pre ++ chunk.1, isNewline b = false := by
        intro b hb
        rcases List.mem_append.mp hb with hb | hb
        · exact hpre b hb
        · exact newline_absent hfind b hb
      have hne : pre ++ chunk.1 ≠ [] := by simp [chunk.2]
      have hlength : (pre ++ chunk.1).length = pre.length + chunk.1.length := List.length_append
      rw [boundedReadLine, hfind, bytes_cons, ← List.append_assoc]
      dsimp only
      split
      · rename_i hlong
        obtain ⟨line, hline, hle⟩ := drain_lines rest hopen hne
        refine ⟨line, _, _, _, rfl, hline, ?_⟩
        rw [lineReading, if_neg (by omega)]
        rfl
      · rename_i hshort
        rw [← hlength]
        exact ih hopen (by omega) fun hnil => hne (List.append_eq_nil_iff.mp hnil).1

/-- Whatever the chunks are, the calls return one line after the other, and then the end. -/
theorem readings_eq (maxBytes n : Nat) (reader : Reader) :
    readings maxBytes n reader =
      ((lines reader.bytes).map (lineReading maxBytes) ++ List.replicate n endReading).take n := by
  induction n generalizing reader with
  | zero => rfl
  | succ n ih =>
    by_cases hend : reader.bytes = []
    · have hnil : reader = [] := by
        cases reader with
        | nil => rfl
        | cons chunk rest => simp [bytes_cons, chunk.2] at hend
      subst hnil
      have hrest := ih []
      rw [readings, boundedReadLine]
      simp only [hrest]
      simp [Reader.bytes, lines, Reading.of, endReading, Except.map, List.replicate_succ]
    · have hopen : ∀ b ∈ ([] : List UInt8), isNewline b = false := by simp
      obtain ⟨line, result, buf, reader', hread, hlines, hreading⟩ :=
        read_line maxBytes reader hopen (Nat.zero_le _) hend
      rw [List.nil_append] at hlines
      rw [List.length_nil] at hread
      rw [readings, hread]
      dsimp only
      rw [hreading, ih, hlines, List.map_cons, List.cons_append, List.take_succ_cons]
      congr 1
      simp only [List.take_append, List.take_replicate, List.length_map]
      congr 2
      omega

/-! ### A line that is read hides no other -/

theorem segments_open {body : List UInt8} (h : ∀ b ∈ body, isNewline b = false) : segments body = [body] := by
  induction body with
  | nil => rfl
  | cons b body ih =>
    have hb : b ≠ 10 := by simpa [isNewline] using h b List.mem_cons_self
    rw [segments, if_neg hb, ih fun c hc => h c (List.mem_cons_of_mem b hc)]

theorem segments_closed {body : List UInt8} (h : ∀ b ∈ body, isNewline b = false) : segments (body ++ [10]) = [body, []] := by
  induction body with
  | nil => rfl
  | cons b body ih =>
    have hb : b ≠ 10 := by simpa [isNewline] using h b List.mem_cons_self
    rw [List.cons_append, segments, if_neg hb, ih fun c hc => h c (List.mem_cons_of_mem b hc)]

theorem segments_line {stream line : List UInt8} (h : line ∈ lines stream) : ∀ s ∈ (segments line).tail, s = [] := by
  obtain ⟨body, hbody, rfl | ⟨e, he, rfl⟩⟩ := Lines.mem_pieces h
  · rw [segments_open hbody]
    simp
  · obtain rfl : e = 10 := by simpa [isNewline] using he
    rw [segments_closed hbody]
    simp

theorem not_smuggling [JsonText] {line : List UInt8} (h : ∀ s ∈ (segments line).tail, s = []) :
    detectSmuggling ⟨line.toArray⟩ = false := by
  unfold detectSmuggling
  rw [Text.toList_eq_data, List.any_eq_false]
  intro s hs
  rw [h s hs]
  simp

/-- The line of a reading is a line of the stream, or there is none any more. -/
theorem mem_readings {maxBytes n k : Nat} {reader : Reader} {line : List UInt8}
    (h : .ok (k, line) ∈ readings maxBytes n reader) : line ∈ lines reader.bytes ∨ line = [] := by
  rw [readings_eq] at h
  rcases List.mem_append.mp (List.mem_of_mem_take h) with hline | hend
  · obtain ⟨l, hl, hread⟩ := List.mem_map.mp hline
    unfold lineReading at hread
    split at hread
    · cases hread
      exact Or.inl hl
    · cases hread
  · cases List.eq_of_mem_replicate hend
    exact Or.inr rfl

/-- However the stream is cut into chunks, repeated calls return its lines one after the other, whole or refused, and then
the end; the lines are the stream; and in what is returned there is no message behind a newline. -/
theorem lines_are_read [JsonText] (maxBytes : Nat) (reader : Reader) :
    (∀ n, readings maxBytes n reader =
      ((lines reader.bytes).map (lineReading maxBytes) ++ List.replicate n endReading).take n) ∧
    (lines reader.bytes).flatten = reader.bytes ∧
    ∀ n k line, .ok (k, line) ∈ readings maxBytes n reader → detectSmuggling ⟨line.toArray⟩ = false := by
  refine ⟨fun n => readings_eq maxBytes n reader, Lines.flatten_pieces _, ?_⟩
  intro n k line hline
  apply not_smuggling
  rcases mem_readings hline with hin | rfl
  · exact segments_line hin
  · intro s hs
    cases hs

end ThoughtGate.Shim
