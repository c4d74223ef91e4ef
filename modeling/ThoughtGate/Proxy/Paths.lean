import ThoughtGate.Base.Text
import ThoughtGate.Lib.Runs
import ThoughtGate.Proxy.Traffic

/-!
# Normal forms of paths

What `normalize_path` of `traffic.rs` is for: every run of slashes is one slash, and there is none at the end but that of
the root (`normalForm`). The function looks at windows of two bytes first, and gives the path back as it is if none is
`//` and the last is not a slash (`isBorrowed`); those are the paths that its loop would not change
(`normalizePath_spec`).
-/

namespace ThoughtGate.Traffic

open Runs

/-! ### The text and its bytes -/

/-- The test of the fast path. -/
def isBorrowed (path : String) : Bool :=
  let hasDoubleSlash := (windows 2 path.toUTF8.toList).any fun w => w == "//".toUTF8.toList
  let hasTrailingSlash := decide (1 < path.toUTF8.size) && path.toList.getLast? == some '/'
  !hasDoubleSlash && !hasTrailingSlash

/-- The slow path. -/
def slowPath (path : String) : String :=
  let result := collapse false path.toList
  String.ofList (if hasTrailingSlash result then result.dropLast else result)

/-- Each longest run of slashes replaced by one slash, and then the last slash removed, unless it is all there is. -/
def normalForm (path : String) : String :=
  let squeezed := squeeze (· == '/') path.toList
  String.ofList (if squeezed ≠ ['/'] ∧ squeezed.getLast? = some '/' then squeezed.dropLast else squeezed)

theorem toList_toUTF8 (s : String) : s.toUTF8.toList = s.toList.flatMap String.utf8EncodeChar := by
  have hbytes : s.toUTF8 = (s.toList.flatMap String.utf8EncodeChar).toByteArray := by
    conv_lhs => rw [← String.ofList_toList (s := s)]
    rfl
  rw [hbytes, Text.toList_eq_data, List.data_toByteArray]

theorem utf8EncodeChar_slash : String.utf8EncodeChar '/' = [47] := by decide

/-- The byte of a slash is in no other character. -/
theorem notMem_utf8EncodeChar {c : Char} (h : c ≠ '/') : 47 ∉ String.utf8EncodeChar c := by
  have hval : c.val.toNat ≠ 47 := fun heq => h (Char.ext (UInt32.toNat_inj.mp heq))
  have hbyte : ∀ n < 256, n ≠ 47 → (47 : UInt8) ≠ UInt8.ofNat n := by
    intro n hn hne heq
    have hnat := congrArg UInt8.toNat heq
    rw [UInt8.toNat_ofNat'] at hnat
    have h47 : (47 : UInt8).toNat = 47 := rfl
    omega
  unfold String.utf8EncodeChar
  dsimp only
  split_ifs
  all_goals
    simp only [List.mem_cons, List.not_mem_nil, or_false, not_or]
  · exact hbyte _ (by omega) hval
  · exact ⟨hbyte _ (by omega) (by omega), hbyte _ (by omega) (by omega)⟩
  · exact ⟨hbyte _ (by omega) (by omega), hbyte _ (by omega) (by omega), hbyte _ (by omega) (by omega)⟩
  · exact ⟨hbyte _ (by omega) (by omega), hbyte _ (by omega) (by omega), hbyte _ (by omega) (by omega),
      hbyte _ (by omega) (by omega)⟩

/-- Two bytes of slashes in a row are two slashes in a row. -/
theorem sparse_bytes_iff (cs : List Char) :
    Sparse (· == 47) (cs.flatMap String.utf8EncodeChar) ↔ Sparse (· == '/') cs := by
  have hchar : ∀ c : Char, (String.utf8EncodeChar c).IsChain fun a b : UInt8 => ¬ ((a == 47) = true ∧ (b == 47) = true) := by
    intro c
    by_cases hc : c = '/'
    · rw [hc, utf8EncodeChar_slash]
      exact List.isChain_singleton _
    · refine List.isChain_iff_forall_rel_of_append_cons_cons.mpr fun a b before after heq hboth => ?_
      refine notMem_utf8EncodeChar hc ?_
      rw [heq, ← beq_iff_eq.mp hboth.1]
      simp
  have hlast : ∀ c : Char, (47 ∈ (String.utf8EncodeChar c).getLast? ↔ c = '/') ∧
      (47 ∈ (String.utf8EncodeChar c).head? ↔ c = '/') := by
    intro c
    by_cases hc : c = '/'
    · rw [hc, utf8EncodeChar_slash]
      simp
    · have hnot := notMem_utf8EncodeChar hc
      simp only [hc, iff_false]
      exact ⟨fun h => hnot (List.mem_of_mem_getLast? h), fun h => hnot (List.mem_of_mem_head? h)⟩
  rw [Sparse, List.flatMap, List.isChain_flatten (by simp), List.isChain_map, Sparse]
  have hpair : ∀ c d : Char, (∀ x ∈ (String.utf8EncodeChar c).getLast?, ∀ y ∈ (String.utf8EncodeChar d).head?,
      ¬ ((x == 47) = true ∧ (y == 47) = true)) ↔ ¬ ((c == '/') = true ∧ (d == '/') = true) := by
    intro c d
    simp only [beq_iff_eq]
    constructor
    · rintro h ⟨hc, hd⟩
      exact h 47 ((hlast c).1.mpr hc) 47 ((hlast d).2.mpr hd) ⟨rfl, rfl⟩
    · rintro h x hx y hy ⟨rfl, rfl⟩
      exact h ⟨(hlast c).1.mp hx, (hlast d).2.mp hy⟩
  simp only [hpair, and_iff_right_iff_imp]
  intro _ bytes hbytes
  obtain ⟨c, -, rfl⟩ := List.mem_map.mp hbytes
  exact hchar c

/-- No window of two is twice `a`. -/
theorem windows_any_iff {α : Type} [BEq α] [LawfulBEq α] (a : α) (xs : List α) :
    ((windows 2 xs).any fun w => w == [a, a]) = false ↔ Sparse (· == a) xs := by
  rw [Sparse, List.isChain_iff_forall_rel_of_append_cons_cons, List.any_eq_false]
  constructor
  · rintro h x y before after rfl ⟨hx, hy⟩
    have hx : x = a := by simpa using hx
    have hy : y = a := by simpa using hy
    refine h [x, y] ((mem_windows (by decide)).mpr ⟨rfl, before, after, by simp⟩) ?_
    rw [hx, hy]
    exact beq_self_eq_true _
  · rintro h w hw hpair
    obtain ⟨-, before, after, rfl⟩ := (mem_windows (by decide)).mp hw
    have hw : w = [a, a] := by simpa using hpair
    refine h (by rw [hw, List.append_assoc]; rfl) ⟨beq_self_eq_true a, beq_self_eq_true a⟩

theorem hasDoubleSlash_iff (cs : List Char) : hasDoubleSlash cs = false ↔ Sparse (· == '/') cs := by
  induction cs with
  | nil => simp [hasDoubleSlash, Sparse]
  | cons c cs ih =>
    cases cs with
    | nil => simp [hasDoubleSlash, Sparse]
    | cons d cs =>
      rw [Sparse] at ih ⊢
      rw [hasDoubleSlash, Bool.or_eq_false_iff, ih, List.isChain_cons_cons]
      simp

/-- A text that ends with a slash is longer than one byte if and only if it is longer than one character. -/
theorem one_lt_size_iff {s : String} (h : s.toList.getLast? = some '/') : 1 < s.toUTF8.size ↔ 1 < s.toList.length := by
  have hsize : s.toUTF8.size = (s.toList.flatMap String.utf8EncodeChar).length := by
    rw [← toList_toUTF8, Text.toList_eq_data]
    rfl
  obtain ⟨before, hbefore⟩ := List.getLast?_eq_some_iff.mp h
  rw [hsize, hbefore, List.flatMap_append, List.length_append, List.length_append, List.flatMap_singleton,
    utf8EncodeChar_slash]
  cases before with
  | nil => rfl
  | cons c before =>
    have hpos : 0 < (String.utf8EncodeChar c).length := List.length_pos_iff.mpr String.utf8EncodeChar_ne_nil
    rw [List.flatMap_cons, List.length_append]
    simp only [List.length_cons, List.length_nil]
    omega

/-- The windows of bytes are the pairs of characters. -/
theorem isBorrowed_iff (path : String) :
    isBorrowed path = true ↔ Sparse (· == '/') path.toList ∧ hasTrailingSlash path.toList = false := by
  have hslashes : "//".toUTF8.toList = [47, 47] := by
    rw [Text.toList_eq_data]
    rfl
  have hlength : (decide (1 < path.toUTF8.size) && path.toList.getLast? == some '/') = hasTrailingSlash path.toList := by
    unfold hasTrailingSlash
    by_cases hlast : path.toList.getLast? = some '/'
    · rw [decide_eq_decide.mpr (one_lt_size_iff hlast)]
    · rw [beq_eq_false_iff_ne.mpr hlast, Bool.and_false, Bool.and_false]
  unfold isBorrowed
  simp only [hslashes, hlength, Bool.and_eq_true, Bool.not_eq_true', windows_any_iff, toList_toUTF8, sparse_bytes_iff]

/-! ### The loop -/

/-- The loop squeezes; after a slash it goes on as the rest of a run. -/
theorem collapse_eq_squeeze (cs : List Char) : collapse false cs = squeeze (· == '/') cs := by
  have hboth : ∀ cs : List Char, collapse false cs = squeeze (· == '/') cs ∧
      '/' :: collapse true cs = squeeze (· == '/') ('/' :: cs) := by
    intro cs
    induction cs with
    | nil => exact ⟨rfl, rfl⟩
    | cons c cs ih =>
      by_cases hc : c = '/'
      · subst hc
        have hrun : squeeze (· == '/') ('/' :: '/' :: cs) = '/' :: (squeeze (· == '/') ('/' :: cs)).tail :=
          squeeze_cons_of_run rfl rfl cs
        refine ⟨ih.2, ?_⟩
        rw [hrun, ← ih.2]
        rfl
      · have hstep : ∀ b, collapse b (c :: cs) = c :: collapse false cs := fun b => by rw [collapse, if_neg hc]
        have hself : c :: collapse false cs = squeeze (· == '/') (c :: cs) := by
          cases cs with
          | nil => rfl
          | cons d cs =>
            rw [squeeze_cons_of_not (by simp [hc]), ih.1]
        refine ⟨(hstep false).trans hself, ?_⟩
        rw [hstep true, squeeze_cons_of_not (by simp [hc]), hself]
  exact (hboth cs).1

theorem normalizePath_eq_cases (path : String) :
    normalizePath path = if isBorrowed path then path else slowPath path := by
  have hsame : isBorrowed path = (!hasDoubleSlash path.toList && !hasTrailingSlash path.toList) := by
    rw [Bool.eq_iff_iff, isBorrowed_iff, ← hasDoubleSlash_iff]
    simp
  rw [hsame]
  rfl

theorem hasTrailingSlash_iff (cs : List Char) : hasTrailingSlash cs = true ↔ cs ≠ ['/'] ∧ cs.getLast? = some '/' := by
  unfold hasTrailingSlash
  rw [Bool.and_eq_true, decide_eq_true_iff, beq_iff_eq]
  refine and_congr_left fun hlast => ?_
  obtain ⟨before, rfl⟩ := List.getLast?_eq_some_iff.mp hlast
  cases before with
  | nil => simp
  | cons c before => simp

/-- The slow path gives the normal form. -/
theorem slowPath_eq (path : String) : slowPath path = normalForm path := by
  unfold slowPath normalForm
  simp only [collapse_eq_squeeze, hasTrailingSlash_iff]

/-- A normal form has no two slashes in a row, and no slash at its end but that of the root. -/
theorem isBorrowed_normalForm (path : String) : isBorrowed (normalForm path) = true := by
  have hsparse := sparse_squeeze (p := (· == '/')) path.toList
  rw [isBorrowed_iff, normalForm, String.toList_ofList, ← Bool.not_eq_true]
  split
  · rename_i hslash
    obtain ⟨before, hbefore⟩ := List.getLast?_eq_some_iff.mp hslash.2
    rw [hbefore] at hsparse ⊢
    rw [List.dropLast_concat]
    obtain ⟨hchain, -, hends⟩ := List.isChain_append.mp hsparse
    refine ⟨hchain, fun htrailing => ?_⟩
    exact hends '/' ((hasTrailingSlash_iff _).mp htrailing).2 '/' rfl ⟨rfl, rfl⟩
  · rename_i hslash
    exact ⟨hsparse, fun htrailing => hslash ((hasTrailingSlash_iff _).mp htrailing)⟩

/-- The fast path is for the paths that the slow path would not change. -/
theorem isBorrowed_iff_slowPath (path : String) : isBorrowed path = true ↔ slowPath path = path := by
  constructor
  · intro h
    obtain ⟨hsparse, htrailing⟩ := (isBorrowed_iff path).mp h
    have hloop : collapse false path.toList = path.toList := (collapse_eq_squeeze _).trans (squeeze_of_sparse hsparse)
    simp [slowPath, hloop, htrailing]
  · intro h
    rw [← h, slowPath_eq]
    exact isBorrowed_normalForm path

theorem normalizePath_eq_normalForm (path : String) : normalizePath path = normalForm path := by
  rw [normalizePath_eq_cases, ← slowPath_eq]
  split
  · rename_i hborrowed
    exact ((isBorrowed_iff_slowPath path).mp hborrowed).symm
  · rfl

/-- `normalize_path` gives the normal form of a path, the fast path is taken for the paths that are their own normal form,
and a second time changes nothing. -/
theorem normalizePath_spec (path : String) :
    normalizePath path = normalForm path ∧ (isBorrowed path = true ↔ slowPath path = path) ∧
      normalizePath (normalizePath path) = normalizePath path := by
  refine ⟨normalizePath_eq_normalForm path, isBorrowed_iff_slowPath path, ?_⟩
  rw [normalizePath_eq_normalForm path, normalizePath_eq_cases, if_pos (isBorrowed_normalForm path)]

end ThoughtGate.Traffic
