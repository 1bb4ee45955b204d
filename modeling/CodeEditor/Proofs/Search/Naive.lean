import CodeEditor.Proofs.Pattern.Size
import CodeEditor.Proofs.Search.Plain
/-!
Plain search is naive search.

A plain text where case matters stands where it is the start of what is left of the text. So a search goes on character
by character until it comes to such a place, takes it and goes on behind it (`occurrencesFrom_eq`), and all that the
search finds is what naive search lists (`findAll_eq_occurrences`). The replacement is put in the place of each of
these stretches as it is.

An engine that works on UTF-8 gives bytes. Characters start at growing bytes, so each byte that a match starts or ends
at is looked up as the character it belongs to (`charOfByte_byteLength`), and the stretches are the same
(`findAll_eq_of_bytes`).
-/

namespace CodeEditor

/-! ## Naive search -/

/-- **Naive search** for a text that is not empty, in a text that starts at `x`: an occurrence where it
stands, and on behind it -/
def Text.occurrencesFrom (u : Text) (x : Nat) (t : Text) : List Occurrence :=
  match t with
  | [] => []
  | c :: t =>
    if u.isPrefixOf (c :: t) then ⟨x, x + u.length⟩ :: occurrencesFrom u (x + u.length) (t.drop (u.length - 1))
    else occurrencesFrom u (x + 1) t
termination_by t.length
decreasing_by
  · simp only [List.length_cons, List.length_drop]
    omega
  · simp

/-- where nothing matches, a search goes on one character behind -/
theorem Regex.find?_succ {r : Regex} {t : Text} {x : Nat} (hx : x < t.length) (h : r.matchIn? t x = none) :
    r.find? t x = r.find? t (x + 1) := by
  have hsearch := r.searchFrom?_eq t x
  rw [h] at hsearch
  simp only [if_pos hx] at hsearch
  have hhere : r.find? t x = r.searchFrom? x (before? t x) (t.drop x) := if_neg (by omega)
  have hnext : r.find? t (x + 1) = r.searchFrom? (x + 1) (before? t (x + 1)) (t.drop (x + 1)) := if_neg (by omega)
  rw [hhere, hnext, hsearch]

namespace Query

section

variable {q : Query} {u t : Text} {options : SearchOptions} (hmake : make u options = .ok q)
  (hplain : options.isPattern = false) (hcase : options.caseSensitive = true)
include hmake hplain hcase

/-- **One occurrence**: what naive search lists from an offset on is what a search finds, and
what is listed behind it. -/
theorem occurrencesFrom_eq (t : Text) (x : Nat) :
    u.occurrencesFrom x (t.drop x) =
      match q.regex.find? t x with
      | none => []
      | some m => m.occurrence :: u.occurrencesFrom m.stop (t.drop m.stop) := by
  have hpos := length_pos_of_make hmake hplain
  induction hleft : t.length - x using Nat.strong_induction_on generalizing x with
  | _ left ih =>
    by_cases hx : x < t.length
    · have hdrop : t.drop x = t[x] :: t.drop (x + 1) := List.drop_eq_getElem_cons hx
      cases hreads : options.reads u (t.drop x) with
      | true =>
        have hstands : u.isPrefixOf (t[x] :: t.drop (x + 1)) = true := by
          rw [← hdrop, List.isPrefixOf_iff_prefix]
          exact (SearchOptions.reads_of_caseSensitive hcase).1 hreads
        have hrest : (t.drop (x + 1)).drop (u.length - 1) = t.drop (x + u.length) := by
          rw [List.drop_drop]
          congr 1
          omega
        have hfind := find?_of_first hmake hplain le_rfl hreads fun y hle hlt => absurd hlt (by omega)
        rw [hdrop, Text.occurrencesFrom, if_pos hstands, hrest, hfind]
        rfl
      | false =>
        have hstands : ¬ u.isPrefixOf (t[x] :: t.drop (x + 1)) = true := by
          rw [← hdrop, List.isPrefixOf_iff_prefix, ← SearchOptions.reads_of_caseSensitive hcase, hreads]
          exact Bool.false_ne_true
        have hnone : q.regex.matchIn? t x = none := by
          rw [matchIn?_of_make hmake hplain, hreads, if_neg Bool.false_ne_true]
        rw [hdrop, Text.occurrencesFrom, if_neg hstands, Regex.find?_succ hx hnone]
        exact ih _ (by omega) (x + 1) rfl
    · have hend (y : Nat) (hy : x ≤ y) : options.reads u (t.drop y) = false := by
        rw [← Bool.not_eq_true]
        intro hreads
        have hlen := SearchOptions.length_le_of_reads hreads
        rw [List.length_drop] at hlen
        omega
      rw [List.drop_eq_nil_of_le (by omega), find?_of_none hmake hplain hend, Text.occurrencesFrom]

/-- **All matches** behind one that ended at `last` are what naive search lists from there. -/
theorem matchesAfter_eq_occurrences (last : Option Nat) {most : Nat} (hmost : t.length < last.getD 0 + most) :
    (q.regex.matchesAfter t last most).map Match.occurrence = u.occurrencesFrom (last.getD 0)
    (t.drop (last.getD 0)) := by
  have hreads := reads_of_make hmake hplain
  induction most generalizing last with
  | zero =>
    rw [List.drop_eq_nil_of_le (by omega), Text.occurrencesFrom]
    rfl
  | succ most ih =>
    rw [Regex.matchesAfter, Regex.next?_of_reads hreads, occurrencesFrom_eq hmake hplain hcase]
    cases hfind : q.regex.find? t (last.getD 0) with
    | none => rfl
    | some m =>
      obtain ⟨hle, -, hin⟩ := Regex.find?_eq_some hfind
      have hlt := (Regex.matchIn?_reads hreads hin).2
      have hrest := ih (some m.stop) (by rw [Option.getD_some]; omega)
      rw [Option.getD_some] at hrest
      simp only [List.map_cons, hrest]

/-- **Plain search is naive search.** -/
theorem findAll_eq_occurrences (t : Text) : q.findAll t = u.occurrencesFrom 0 t := by
  rw [findAll_of_make hmake hplain]
  exact matchesAfter_eq_occurrences hmake hplain hcase none (by rw [Option.getD_none]; omega)

/-- the replacement takes the place of every stretch listed, as it is -/
theorem replaceAll_eq_occurrences (t replacement : Text) :
    q.replaceAll t replacement =
      (t.replaceEach (fun _ => replacement) (u.occurrencesFrom 0 t), (u.occurrencesFrom 0 t).length) := by
  rw [← findAll_eq_occurrences hmake hplain hcase t]
  have htext : (q.replaceAll t replacement).1 = t.replaceEach (fun _ => replacement) (q.findAll t) := by
    have hpass := (Regex.inOrder_allMatches q.regex t).drop_replaceEach (f := fun _ => replacement)
      (fun _ => replacement)
      fun _ _ => rfl
    rw [replaceAll_of_make hmake hplain, ← hpass, List.drop_zero, findAll_of_make hmake hplain]
  exact Prod.ext htext (q.replaceAll_count t replacement)

end

end Query

/-! ## Bytes -/

namespace Text

variable {t : Text} {i j : Nat}

/-- the byte of a text in UTF-8 at which a character starts -/
def byteOf (t : Text) (offset : Nat) : Nat :=
  byteLength (t.take offset)

/-- the bytes at which the characters start, and at which the text ends -/
def byteTable (t : Text) : List Nat :=
  (List.range (t.length + 1)).map t.byteOf

/-- the character that starts at a byte, or else the next one; the end of the text behind it -/
def charOfByte (t : Text) (byte : Nat) : Nat :=
  t.byteTable.findIdx (min byte t.byteLength ≤ ·)

theorem byteLength_append (t u : Text) : byteLength (t ++ u) = t.byteLength + u.byteLength := by
  rw [byteLength, List.map_append, List.sum_append]
  rfl

/-- a character takes a byte at least -/
theorem length_le_byteLength (t : Text) : t.length ≤ t.byteLength := by
  induction t with
  | nil => exact le_rfl
  | cons c t ih =>
    have hpos := Char.utf8Size_pos c
    rw [byteLength, List.map_cons, List.sum_cons, List.length_cons]
    rw [byteLength] at ih
    omega

theorem byteOf_lt (hij : i < j) (hj : j ≤ t.length) : t.byteOf i < t.byteOf j := by
  have hcut : t.take j = t.take i ++ t.slice i j := by
    have happend := slice_append t (Nat.zero_le i) hij.le
    simpa [slice] using happend.symm
  have hlen := length_le_byteLength (t.slice i j)
  rw [length_slice t hj] at hlen
  rw [byteOf, byteOf, hcut, byteLength_append]
  omega

theorem byteOf_le_byteLength (t : Text) (i : Nat) : t.byteOf i ≤ t.byteLength := by
  have happend := byteLength_append (t.take i) (t.drop i)
  rw [List.take_append_drop] at happend
  rw [byteOf]
  omega

/-- **A character is found by its byte.** -/
theorem charOfByte_byteOf (hi : i ≤ t.length) : t.charOfByte (t.byteOf i) = i := by
  have hlen : i < t.byteTable.length := by rw [byteTable, List.length_map, List.length_range]; omega
  have hentry {j : Nat} (hj : j < t.byteTable.length) : t.byteTable[j] = t.byteOf j := by simp [byteTable]
  rw [charOfByte, min_eq_left (t.byteOf_le_byteLength i), List.findIdx_eq hlen]
  constructor
  · rw [hentry, decide_eq_true_eq]
  · intro j hj
    have hlt := byteOf_lt hj hi
    rw [hentry, decide_eq_false_iff_not]
    omega

end Text

namespace Query

/-- the matches of a text in bytes -/
def byteMatches (q : Query) (t : Text) : List (Nat × Nat) :=
  (q.regex.allMatches t).map fun m => (t.byteOf m.start, t.byteOf m.stop)

/-- **Looked up by their bytes**, the matches that are not empty are the same. -/
theorem findAll_eq_of_bytes (q : Query) (t : Text) :
    q.findAll t = ((q.byteMatches t).map fun m => ⟨t.charOfByte m.1, t.charOfByte m.2⟩).filter (!·.isEmpty) := by
  have hsame : (q.byteMatches t).map (fun m => (⟨t.charOfByte m.1, t.charOfByte m.2⟩ : Occurrence)) =
      (q.regex.allMatches t).map Match.occurrence := by
    rw [byteMatches, List.map_map]
    refine List.map_congr_left fun m hm => ?_
    obtain ⟨-, hspan, hstop⟩ :=
      Regex.matchIn?_within (Regex.find?_eq_some (Regex.find?_start hm)).2.2 (Regex.start_le_length hm)
    rw [Function.comp_apply, Text.charOfByte_byteOf (hspan.trans hstop), Text.charOfByte_byteOf hstop]
    rfl
  rw [hsame, List.filter_map]
  rfl

/-- **A plain text is found as it stands.** A text that is not empty is compiled if it is not too large: six states and
one for each of its bytes in UTF-8. Where case matters, what is then found in any text is what naive search lists, in
characters as in bytes; and replacing all puts the replacement in the place of each of these stretches, as it is. -/
theorem plain_text_is_found_as_it_stands (u : Text) (hu : u ≠ []) :
    ((u.byteLength + 6) * Machine.stateSize + 16 ≤ Machine.maxSize →
      ∃ q, make u .default = .ok q ∧ ∀ t : Text,
        q.findAll t = u.occurrencesFrom 0 t ∧
        ((q.byteMatches t).map fun m => ⟨t.charOfByte m.1, t.charOfByte m.2⟩).filter (!·.isEmpty) =
          u.occurrencesFrom 0 t ∧
        ∀ replacement : Text,
          q.replaceAll t replacement =
            (t.replaceEach (fun _ => replacement) (u.occurrencesFrom 0 t), (u.occurrencesFrom 0 t).length)) ∧
    (Machine.maxSize < (u.byteLength + 6) * Machine.stateSize + 16 →
      make u .default = .error (.invalidSearchPattern (Pattern.Escape.quote u))) := by
  have hliteral : Pattern.ofFactors (u.map (Pattern.Reader.literal (flags .default))) = Pattern.ofText u := rfl
  have hcompiled := make_of_plain u (show SearchOptions.default.isPattern = false from rfl)
  rw [if_neg hu, hliteral] at hcompiled
  dsimp only at hcompiled
  constructor
  · intro hsize
    rw [if_pos ((Pattern.fits_ofText_iff hu).2 hsize)] at hcompiled
    refine ⟨_, hcompiled, fun t => ⟨?_, ?_, ?_⟩⟩
    · exact findAll_eq_occurrences hcompiled rfl rfl t
    · rw [← findAll_eq_of_bytes]
      exact findAll_eq_occurrences hcompiled rfl rfl t
    · exact fun replacement => replaceAll_eq_occurrences hcompiled rfl rfl t replacement
  · intro hsize
    have hfits : ¬ (Pattern.ofText u).fits = true := by
      rw [Pattern.fits_ofText_iff hu]
      omega
    rw [if_neg hfits] at hcompiled
    exact hcompiled

/-- a text with a dot that overlaps itself, in letters of two bytes -/
theorem overlapping_text_is_found :
    let u : Text := ['ü', '.', 'ü']
    let t : Text := ['a', 'ü', '.', 'ü', '.', 'ü', '$', 'ü', '.', 'ü']
    u ≠ [] ∧ (u.byteLength + 6) * Machine.stateSize + 16 ≤ Machine.maxSize ∧
      u.occurrencesFrom 0 t = [⟨1, 4⟩, ⟨7, 10⟩] ∧
      ∃ q, make u .default = .ok q ∧ q.findAll t = [⟨1, 4⟩, ⟨7, 10⟩] ∧
        q.replaceAll t "$0".toList = ("a$0.ü$$0".toList, 2) := by
  intro u t
  have hu : u ≠ [] := by decide
  have hbytes : u.byteLength = 5 := by decide
  have hsize : (u.byteLength + 6) * Machine.stateSize + 16 ≤ Machine.maxSize := by
    rw [hbytes, Machine.stateSize, Machine.maxSize]
    omega
  have hlisted : u.occurrencesFrom 0 t = [⟨1, 4⟩, ⟨7, 10⟩] := by simp [u, t, Text.occurrencesFrom]
  obtain ⟨hcompiled, -⟩ := plain_text_is_found_as_it_stands u hu
  obtain ⟨q, hmake, hfound⟩ := hcompiled hsize
  obtain ⟨hall, -, hreplaced⟩ := hfound t
  rw [hlisted] at hall hreplaced
  exact ⟨hu, hsize, hlisted, q, hmake, hall, hreplaced _⟩

end Query

end CodeEditor
