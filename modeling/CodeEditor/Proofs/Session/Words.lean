import Mathlib.Tactic
import CodeEditor.Proofs.Session.Run
import CodeEditor.Proofs.Text.Runs
/-!
Identifiers, and selecting whole ones.

The identifier at an offset is found by two walks, one to each side. Together they find the longest stretch of letters,
digits and underscores around the offset: behind it (`charAt_identifierEnd`) and before it
(`charAt_before_identifierStart`) stands some other character or nothing, and any other such stretch would have to run
across one of these (`IsRun.within`).

Selecting words moves the two ends of the selection outward to the ends of the identifiers that they are in. An end that
has been moved is at the end of its identifier, so moving it again changes nothing (`words_are_longest_runs`).
-/

namespace CodeEditor

/-- one of `A` to `Z`, `a` to `z`, `0` to `9` and `_` -/
def IsIdentifierLetter (c : Char) : Prop :=
  ('A' ≤ c ∧ c ≤ 'Z') ∨ ('a' ≤ c ∧ c ≤ 'z') ∨ ('0' ≤ c ∧ c ≤ '9') ∨ c = '_'

instance (c : Char) : Decidable (IsIdentifierLetter c) :=
  inferInstanceAs (Decidable (_ ∨ _))

/-- the characters in `[start, stop)` are of identifiers -/
def IsRun (t : Text) (start stop : Nat) : Prop :=
  ∀ i, start ≤ i → i < stop → IsIdentifierLetter (t.charAt i)

theorem isIdentifierChar_iff {c : Char} : isIdentifierChar c = true ↔ IsIdentifierLetter c := by
  have hupper : c.isUpper = true ↔ 'A' ≤ c ∧ c ≤ 'Z' := decide_eq_true_iff
  have hlower : c.isLower = true ↔ 'a' ≤ c ∧ c ≤ 'z' :=
    Bool.and_eq_true_iff.trans (and_congr decide_eq_true_iff decide_eq_true_iff)
  have hdigit : c.isDigit = true ↔ '0' ≤ c ∧ c ≤ '9' :=
    Bool.and_eq_true_iff.trans (and_congr decide_eq_true_iff decide_eq_true_iff)
  change (c.isUpper || c.isLower || c.isDigit || c == '_') = true ↔ _
  simp only [Bool.or_eq_true, hupper, hlower, hdigit, beq_iff_eq, or_assoc, IsIdentifierLetter]

theorem isIdentifierChar_eq_false_iff {c : Char} : isIdentifierChar c = false ↔ ¬ IsIdentifierLetter c := by
  rw [← isIdentifierChar_iff, Bool.not_eq_true]

variable {t : Text} {offset i j : Nat}

/-- what is read at the end of a text is no letter -/
theorem IsIdentifierLetter.lt_length (h : IsIdentifierLetter (t.charAt offset)) : offset < t.length := by
  refine Text.lt_length_of_charAt fun hnul => ?_
  rw [hnul] at h
  exact absurd h (by decide)

/-! ## Behind an offset -/

theorem le_identifierEnd (t : Text) (offset : Nat) : offset ≤ identifierEnd t offset :=
  Nat.le_add_right _ _

theorem isRun_identifierEnd (t : Text) (offset : Nat) : IsRun t offset (identifierEnd t offset) := by
  intro i hi hlt
  obtain ⟨n, rfl⟩ := Nat.exists_eq_add_of_le hi
  rw [← t.charAt_drop, ← isIdentifierChar_iff]
  exact (Text.charAt_takeWhile_class rfl (t.drop offset)).1 n (Nat.lt_of_add_lt_add_left hlt)

/-- behind an identifier stands some other character, or the text ends -/
theorem charAt_identifierEnd (t : Text) (offset : Nat) : ¬ IsIdentifierLetter (t.charAt (identifierEnd t offset)) := by
  rw [← isIdentifierChar_eq_false_iff, identifierEnd, ← t.charAt_drop]
  exact (Text.charAt_takeWhile_class rfl (t.drop offset)).2

theorem identifierEnd_le_length (h : offset ≤ t.length) : identifierEnd t offset ≤ t.length := by
  have hle : ((t.drop offset).takeWhile isIdentifierChar).length ≤ (t.drop offset).length :=
    (List.takeWhile_prefix _).length_le
  rw [List.length_drop] at hle
  rw [identifierEnd]
  omega

theorem identifierEnd_of_not (h : ¬ IsIdentifierLetter (t.charAt offset)) : identifierEnd t offset = offset := by
  by_contra hne
  have hle := le_identifierEnd t offset
  exact h (isRun_identifierEnd t offset offset le_rfl (by omega))

/-! ## Before an offset -/

theorem identifierStart_of_not (h : ¬ IsIdentifierLetter (t.charAt offset)) : identifierStart t offset = offset := by
  rw [identifierStart, if_neg (by rwa [isIdentifierChar_iff])]

theorem identifierStart_le (t : Text) (offset : Nat) : identifierStart t offset ≤ offset := by
  rw [identifierStart]
  split_ifs
  · exact Nat.sub_le _ _
  · exact le_rfl

/-- the walk back ends where the text up to the offset does without the letters at its end -/
theorem identifierStart_eq (h : IsIdentifierLetter (t.charAt offset)) :
    identifierStart t offset = (Text.dropEndWhile isIdentifierChar (t.take offset)).length := by
  have hlt := h.lt_length
  have hsum := congrArg List.length
    (List.takeWhile_append_dropWhile (p := isIdentifierChar) (l := (t.take offset).reverse))
  rw [List.length_append, List.length_reverse, List.length_take, min_eq_left hlt.le] at hsum
  rw [identifierStart, if_pos (isIdentifierChar_iff.2 h), Text.dropEndWhile, List.length_reverse]
  omega

theorem isRun_identifierStart (t : Text) (offset : Nat) : IsRun t (identifierStart t offset) offset := by
  intro i hi hlt
  by_cases h : IsIdentifierLetter (t.charAt offset)
  · rw [identifierStart_eq h] at hi
    have hlen : i < (t.take offset).length := by
      rw [List.length_take, min_eq_left h.lt_length.le]
      exact hlt
    rw [← t.charAt_take hlt, ← isIdentifierChar_iff]
    exact (Text.charAt_dropEndWhile isIdentifierChar (t.take offset)).1 i hi hlen
  · rw [identifierStart_of_not h] at hi
    exact absurd hlt (Nat.not_lt.2 hi)

/-- before an identifier stands some other character, or the text starts -/
theorem charAt_before_identifierStart (h : IsIdentifierLetter (t.charAt offset)) (hpos : 0 < identifierStart t offset) :
    ¬ IsIdentifierLetter (t.charAt (identifierStart t offset - 1)) := by
  have hle := identifierStart_le t offset
  rw [← isIdentifierChar_eq_false_iff, ← t.charAt_take (show identifierStart t offset - 1 < offset by omega),
    identifierStart_eq h]
  exact (Text.charAt_dropEndWhile isIdentifierChar (t.take offset)).2 (by rwa [← identifierStart_eq h])

/-! ## The longest run -/

/-- **No run around an offset** reaches further to either side. -/
theorem IsRun.within (h : IsRun t i j) (hi : i ≤ offset) (hj : offset < j) :
    identifierStart t offset ≤ i ∧ j ≤ identifierEnd t offset := by
  have hletter := h offset hi hj
  have hstart := identifierStart_le t offset
  have hend := le_identifierEnd t offset
  constructor
  · by_contra hlt
    exact charAt_before_identifierStart hletter (by omega) (h _ (by omega) (by omega))
  · by_contra hlt
    exact charAt_identifierEnd t offset (h _ (by omega) (by omega))

/-- the start of an identifier is its own start -/
theorem identifierStart_identifierStart (t : Text) (offset : Nat) :
    identifierStart t (identifierStart t offset) = identifierStart t offset := by
  by_cases h : IsIdentifierLetter (t.charAt offset)
  · have hle := identifierStart_le t (identifierStart t offset)
    by_contra hne
    exact charAt_before_identifierStart h (by omega)
      (isRun_identifierStart t (identifierStart t offset) _ (by omega) (by omega))
  · rw [identifierStart_of_not h, identifierStart_of_not h]

theorem identifierEnd_identifierEnd (t : Text) (offset : Nat) :
    identifierEnd t (identifierEnd t offset) = identifierEnd t offset :=
  identifierEnd_of_not (charAt_identifierEnd t offset)

/-- so is the start of the text behind it, as no letter is read there -/
theorem identifierStart_min (t : Text) (offset : Nat) :
    identifierStart t (min (identifierStart t offset) t.length) = min (identifierStart t offset) t.length := by
  rcases Nat.le_total (identifierStart t offset) t.length with hle | hge
  · rw [min_eq_left hle, identifierStart_identifierStart]
  · rw [min_eq_right hge]
    exact identifierStart_of_not fun h => Nat.lt_irrefl _ h.lt_length

theorem identifierEnd_min (t : Text) (offset : Nat) :
    identifierEnd t (min (identifierEnd t offset) t.length) = min (identifierEnd t offset) t.length := by
  rcases Nat.le_total (identifierEnd t offset) t.length with hle | hge
  · rw [min_eq_left hle, identifierEnd_identifierEnd]
  · rw [min_eq_right hge]
    exact identifierEnd_of_not fun h => Nat.lt_irrefl _ h.lt_length

/-! ## Selecting words -/

namespace Session

/-- the marks go to the outer ends, and nothing else changes -/
theorem selectWord_eq (s : Session) : s.selectWord =
    { s with buffer := { s.buffer with marks :=
      ⟨min (identifierEnd s.text s.buffer.selectionEnd) s.text.length,
        min (identifierStart s.text s.buffer.selectionStart) s.text.length⟩ } } :=
  rfl

theorem selectWord_selection (s : Session) :
    s.selectWord.buffer.selectionStart = min (identifierStart s.text s.buffer.selectionStart) s.text.length ∧
      s.selectWord.buffer.selectionEnd = min (identifierEnd s.text s.buffer.selectionEnd) s.text.length := by
  have hle : identifierStart s.text s.buffer.selectionStart ≤ identifierEnd s.text s.buffer.selectionEnd :=
    calc identifierStart s.text s.buffer.selectionStart
        ≤ s.buffer.selectionStart := identifierStart_le _ _
      _ ≤ s.buffer.selectionEnd := min_le_max
      _ ≤ identifierEnd s.text s.buffer.selectionEnd := le_identifierEnd _ _
  have hclamp := min_le_min_right s.text.length hle
  exact ⟨min_eq_right hclamp, max_eq_left hclamp⟩

/-- selecting words again changes nothing -/
theorem selectWord_selectWord (s : Session) : s.selectWord.selectWord = s.selectWord := by
  obtain ⟨hstart, hend⟩ := s.selectWord_selection
  have htext : s.selectWord.text = s.text := rfl
  have hagain := s.selectWord.selectWord_eq
  rw [htext, hstart, hend, identifierStart_min, identifierEnd_min, min_eq_left (min_le_right _ _),
    min_eq_left (min_le_right _ _)] at hagain
  exact hagain

/-- what was selected is in what is selected now -/
theorem selectWord_extends {s : Session} (hs : s.buffer.Within) :
    s.selectWord.buffer.selectionStart ≤ s.buffer.selectionStart ∧
    s.buffer.selectionEnd ≤ s.selectWord.buffer.selectionEnd := by
  obtain ⟨hstart, hend⟩ := s.selectWord_selection
  have hlength : s.buffer.selectionEnd ≤ s.text.length := max_le hs.1 hs.2
  rw [hstart, hend]
  exact ⟨(min_le_left _ _).trans (identifierStart_le _ _), le_min (le_identifierEnd _ _) hlength⟩

/-- **Identifiers are the longest runs** of letters, digits and underscores. If the character at an offset is one of
these, the identifier there holds the offset, is such a run in the text, and holds every such run around the offset.
Otherwise, and at the end of the text, it is empty and at the offset. Selecting words twice is selecting them once, and
what was selected is within the selection afterwards. -/
theorem words_are_longest_runs (s : Session) (hs : s.buffer.Within) (offset : Nat) :
    let t := s.text
    let start := identifierStart t offset
    let stop := identifierEnd t offset
    (IsIdentifierLetter (t.charAt offset) →
      (start ≤ offset ∧ offset < stop ∧ stop ≤ t.length ∧ IsRun t start stop) ∧
      ∀ i j, i ≤ offset → offset < j → IsRun t i j → start ≤ i ∧ j ≤ stop) ∧
    (t.length ≤ offset ∨ ¬ IsIdentifierLetter (t.charAt offset) → start = offset ∧ stop = offset) ∧
    s.selectWord.selectWord = s.selectWord ∧
    s.selectWord.buffer.selectionStart ≤ s.buffer.selectionStart ∧
    s.buffer.selectionEnd ≤ s.selectWord.buffer.selectionEnd := by
  intro t start stop
  refine ⟨fun h => ⟨⟨identifierStart_le t offset, ?_, identifierEnd_le_length h.lt_length.le, ?_⟩, ?_⟩, fun h =>
    ?_, ?_, ?_⟩
  · -- the run behind the offset ends at some other character, and the one at the offset is a letter
    refine (le_identifierEnd t offset).lt_of_ne fun heq => charAt_identifierEnd t offset ?_
    rwa [← heq]
  · intro i hi hlt
    rcases Nat.lt_or_ge i offset with hbefore | hbehind
    · exact isRun_identifierStart t offset i hi hbefore
    · exact isRun_identifierEnd t offset i hbehind hlt
  · exact fun i j hi hj hrun => hrun.within hi hj
  · have hno : ¬ IsIdentifierLetter (t.charAt offset) := by
      rcases h with hend | hno
      · exact fun hletter => absurd hletter.lt_length (Nat.not_lt.2 hend)
      · exact hno
    exact ⟨identifierStart_of_not hno, identifierEnd_of_not hno⟩
  · exact s.selectWord_selectWord
  · exact selectWord_extends hs

/-- between two words with an accent between them: the second one goes up to the end of the text, and a selection that
begins in the first and ends in the second is extended to both -/
theorem words_around_accent :
    let s := (ofText "ab é_1".toList (.ofId none) .default).run [.buffer (.select 5 1)]
    (s.buffer.Within ∧ IsIdentifierLetter (s.text.charAt 5) ∧ ¬ IsIdentifierLetter (s.text.charAt 3)) ∧
      IsRun s.text 4 6 ∧ (∀ i j, i ≤ 5 → 5 < j → IsRun s.text i j → 4 ≤ i ∧ j ≤ 6) ∧
      (identifierStart s.text 3 = 3 ∧ identifierEnd s.text 3 = 3) ∧
      (identifierStart s.text 6 = 6 ∧ identifierEnd s.text 6 = 6) ∧
      s.selectWord.selectWord = s.selectWord ∧ s.selectWord.buffer.marks = ⟨6, 0⟩ := by
  intro s
  have hwithin : s.buffer.Within := ⟨by decide, by decide⟩
  have hletter : IsIdentifierLetter (s.text.charAt 5) := by decide
  have haccent : ¬ IsIdentifierLetter (s.text.charAt 3) := by decide
  have hstart : identifierStart s.text 5 = 4 := by decide
  have hend : identifierEnd s.text 5 = 6 := by decide
  obtain ⟨hrun, -, hagain, -⟩ := words_are_longest_runs s hwithin 5
  obtain ⟨⟨-, -, -, hletters⟩, hlongest⟩ := hrun hletter
  rw [hstart, hend] at hletters hlongest
  have hnone := (words_are_longest_runs s hwithin 3).2.1 (.inr haccent)
  have hbehind := (words_are_longest_runs s hwithin 6).2.1 (.inl (by decide))
  exact ⟨⟨hwithin, hletter, haccent⟩, hletters, hlongest, hnone, hbehind, hagain, by decide⟩

end Session

end CodeEditor
