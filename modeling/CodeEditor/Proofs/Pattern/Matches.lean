import CodeEditor.Pattern.Regex
import CodeEditor.Proofs.Pattern.Matcher
/-!
The matches of a text, in order.

A search gives the preferred match of the first start that has one, and that match depends on the text and the start
only: a search from the start of a match finds the same match (`find?_start_of_find?`). Each match starts where the one
before it ended or later, so the matches of a text follow one another without overlap (`inOrder_allMatches`). Where a
pattern that cannot match nothing has a match, one of them covers its start (`covered_matchesAfter`).
-/

namespace CodeEditor

namespace Regex

variable {r : Regex} {t : Text}

/-- the character before an offset, if there is one -/
def before? (t : Text) (offset : Nat) : Option Char :=
  if offset = 0 then none else t[offset - 1]?

/-- the preferred match of a text that starts at an offset -/
def matchIn? (r : Regex) (t : Text) (offset : Nat) : Option Match :=
  r.matchAt? offset (before? t offset) (t.drop offset)

/-- a match starts where it was tried, and ends behind that in the text -/
theorem matchIn?_within {offset : Nat} {m : Match} (h : r.matchIn? t offset = some m) (ho : offset ≤ t.length) :
    m.start = offset ∧ m.start ≤ m.stop ∧ m.stop ≤ t.length := by
  obtain ⟨found, hfound, rfl⟩ := Option.map_eq_some_iff.1 h
  obtain ⟨hle, hlen⟩ := Pattern.matchAt?_within (r.pattern.reads_matcher 0) hfound
  rw [List.length_drop] at hlen
  exact ⟨rfl, by simpa using hle, by simp only at hlen ⊢; omega⟩

/-- a search tries its start, and then goes on behind it -/
theorem searchFrom?_eq (r : Regex) (t : Text) (offset : Nat) :
    r.searchFrom? offset (before? t offset) (t.drop offset) =
      match r.matchIn? t offset with
      | some m => some m
      | none =>
        if offset < t.length then r.searchFrom? (offset + 1) (before? t (offset + 1)) (t.drop (offset + 1))
          else none := by
  rw [searchFrom?.eq_def, matchIn?]
  cases r.matchAt? offset (before? t offset) (t.drop offset) with
  | some m => rfl
  | none =>
    by_cases hlt : offset < t.length
    · rw [if_pos hlt, List.drop_eq_getElem_cons hlt, before?, if_neg (Nat.succ_ne_zero _), Nat.add_sub_cancel,
        List.getElem?_eq_getElem hlt]
    · rw [if_neg hlt, List.drop_eq_nil_of_le (Nat.le_of_not_lt hlt)]

/-- a search gives the first preferred match from its start on -/
theorem searchFrom?_eq_some {offset : Nat} (ho : offset ≤ t.length) {m : Match}
    (h : r.searchFrom? offset (before? t offset) (t.drop offset) = some m) :
    offset ≤ m.start ∧ m.start ≤ t.length ∧ r.matchIn? t m.start = some m := by
  induction hleft : t.length - offset using Nat.strong_induction_on generalizing offset with
  | _ left ih =>
    rw [searchFrom?_eq] at h
    cases hin : r.matchIn? t offset with
    | some m' =>
      simp only [hin, Option.some.injEq] at h
      subst h
      obtain ⟨hstart, -, -⟩ := matchIn?_within hin ho
      exact ⟨hstart.ge, hstart.trans_le ho, by rw [hstart]; exact hin⟩
    | none =>
      simp only [hin] at h
      split_ifs at h with hlt
      obtain ⟨hle, hfound⟩ := ih _ (by omega) hlt h rfl
      exact ⟨by omega, hfound⟩

theorem find?_eq_some {offset : Nat} {m : Match} (h : r.find? t offset = some m) :
    offset ≤ m.start ∧ m.start ≤ t.length ∧ r.matchIn? t m.start = some m := by
  unfold find? at h
  split_ifs at h with hlen h0
  · exact searchFrom?_eq_some (Nat.le_of_not_lt hlen) (by rw [before?, if_pos h0]; exact h)
  · exact searchFrom?_eq_some (Nat.le_of_not_lt hlen) (by rw [before?, if_neg h0]; exact h)

/-- **A search gives the leftmost match**: at no offset before the one it gives is there a match. -/
theorem searchFrom?_leftmost {offset x : Nat} (hx : offset ≤ x) (hlen : x ≤ t.length)
    (h : ∀ m, r.searchFrom? offset (before? t offset) (t.drop offset) = some m → x < m.start) :
    r.matchIn? t x = none := by
  induction hleft : t.length - offset using Nat.strong_induction_on generalizing offset with
  | _ left ih =>
    rw [searchFrom?_eq] at h
    cases hin : r.matchIn? t offset with
    | some m =>
      have hlt := h m (by rw [hin])
      have hstart := (matchIn?_within hin (hx.trans hlen)).1
      omega
    | none =>
      simp only [hin] at h
      rcases hx.eq_or_lt with rfl | hlt
      · exact hin
      · rw [if_pos (by omega)] at h
        exact ih _ (by omega) hlt h rfl

theorem find?_leftmost {offset x : Nat} (hx : offset ≤ x) (hlen : x ≤ t.length)
    (h : ∀ m, r.find? t offset = some m → x < m.start) :
    r.matchIn? t x = none := by
  refine searchFrom?_leftmost hx hlen fun m hm => h m ?_
  rw [find?, if_neg (by omega)]
  exact hm

/-- **A match is found again from its start.** -/
theorem find?_start_of_find? {offset : Nat} {m : Match} (h : r.find? t offset = some m) :
    r.find? t m.start = some m := by
  obtain ⟨-, hlen, hin⟩ := find?_eq_some h
  rw [find?, if_neg (by omega), searchFrom?.eq_def]
  rw [matchIn?, before?] at hin
  rw [hin]

/-! ## All matches -/

/-- the matches lie behind `start` in the text, one after the other -/
def InOrder (t : Text) (start : Nat) : List Match → Prop
  | [] => start ≤ t.length
  | m :: rest => start ≤ m.start ∧ m.start ≤ m.stop ∧ InOrder t m.stop rest

theorem next?_eq_some {last : Option Nat} {m : Match} (h : r.next? t last = some m) :
    last.getD 0 ≤ m.start ∧ ∃ offset, r.find? t offset = some m := by
  unfold next? at h
  dsimp only at h
  split at h
  · cases h
  · rename_i m' hm'
    split_ifs at h
    · exact ⟨(Nat.le_succ _).trans (find?_eq_some h).1, _, h⟩
    · obtain rfl := Option.some.inj h
      exact ⟨(find?_eq_some hm').1, _, hm'⟩

theorem inOrder_matchesAfter (r : Regex) (t : Text) (last : Option Nat) (hlast : last.getD 0 ≤ t.length) (most : Nat) :
    InOrder t (last.getD 0) (r.matchesAfter t last most) := by
  induction most generalizing last with
  | zero => exact hlast
  | succ most ih =>
    rw [matchesAfter]
    cases hnext : r.next? t last with
    | none => exact hlast
    | some m =>
      obtain ⟨hle, offset, hfind⟩ := next?_eq_some hnext
      obtain ⟨-, hlen, hin⟩ := find?_eq_some hfind
      obtain ⟨-, hspan, hstop⟩ := matchIn?_within hin hlen
      exact ⟨hle, hspan, ih (some m.stop) hstop⟩

/-- **The matches of a text follow one another** without overlap. -/
theorem inOrder_allMatches (r : Regex) (t : Text) : InOrder t 0 (r.allMatches t) :=
  inOrder_matchesAfter r t none (Nat.zero_le _) _

/-- every match comes from a search -/
theorem exists_find?_of_mem_matchesAfter {last : Option Nat} {most : Nat} {m : Match}
    (h : m ∈ r.matchesAfter t last most) :
    ∃ offset, r.find? t offset = some m := by
  induction most generalizing last with
  | zero => cases h
  | succ most ih =>
    rw [matchesAfter] at h
    cases hnext : r.next? t last with
    | none => simp [hnext] at h
    | some m' =>
      simp only [hnext, List.mem_cons] at h
      rcases h with rfl | h
      · exact (next?_eq_some hnext).2
      · exact ih h

theorem find?_start {m : Match} (h : m ∈ r.allMatches t) : r.find? t m.start = some m := by
  obtain ⟨offset, hfind⟩ := exists_find?_of_mem_matchesAfter h
  exact find?_start_of_find? hfind

theorem start_le_length {m : Match} (h : m ∈ r.allMatches t) : m.start ≤ t.length :=
  (find?_eq_some (find?_start h)).2.1

section

variable (hreads : Matching.Reads 1 (r.pattern.matcher 0))
include hreads

/-- a pattern that reads a character matches at none but the offsets within the text, and ends behind its start -/
theorem matchIn?_reads {x : Nat} {m : Match} (h : r.matchIn? t x = some m) : x < t.length ∧ m.start < m.stop := by
  obtain ⟨found, hfound, rfl⟩ := Option.map_eq_some_iff.1 h
  obtain ⟨hle, hlen⟩ := Pattern.matchAt?_within hreads hfound
  rw [List.length_drop] at hlen
  dsimp only at hle hlen ⊢
  omega

/-- the next match of such a pattern is the one found from the end of the last -/
theorem next?_of_reads (t : Text) (last : Option Nat) : r.next? t last = r.find? t (last.getD 0) := by
  rw [next?]
  cases hfind : r.find? t (last.getD 0) with
  | none => rfl
  | some m =>
    have hlt := (matchIn?_reads hreads (find?_eq_some hfind).2.2).2
    have hempty : m.isEmpty = false := decide_eq_false (by omega)
    simp only [hempty, Bool.false_and, Bool.false_eq_true, if_false]

/-- **Where there is a match, one is listed** that covers its start. -/
theorem covered_matchesAfter (last : Option Nat) {most : Nat} (hmost : t.length < last.getD 0 + most) {x : Nat}
    (hx : last.getD 0 ≤ x) (h : (r.matchIn? t x).isSome = true) :
    ∃ m ∈ r.matchesAfter t last most, m.start ≤ x ∧ x < m.stop := by
  obtain ⟨m', hm'⟩ := Option.isSome_iff_exists.1 h
  have hlen := (matchIn?_reads hreads hm').1
  induction most generalizing last with
  | zero => omega
  | succ most ih =>
    rw [matchesAfter, next?_of_reads hreads]
    cases hfind : r.find? t (last.getD 0) with
    | none =>
      rw [find?_leftmost hx hlen.le fun m hm => by rw [hfind] at hm; cases hm] at hm'
      cases hm'
    | some m =>
      obtain ⟨hle, -, hin⟩ := find?_eq_some hfind
      have hlt := (matchIn?_reads hreads hin).2
      have hstart : m.start ≤ x := by
        by_contra hno
        rw [find?_leftmost hx hlen.le fun m'' hm'' => by rw [hfind] at hm''; cases hm''; omega] at hm'
        cases hm'
      rcases Nat.lt_or_ge x m.stop with hcovered | hbehind
      · exact ⟨m, List.mem_cons_self, hstart, hcovered⟩
      · obtain ⟨m₁, hm₁, hcovers⟩ := ih (some m.stop) (by simp only [Option.getD_some]; omega) hbehind
        exact ⟨m₁, List.mem_cons_of_mem _ hm₁, hcovers⟩

/-- such a pattern has no empty match -/
theorem isEmpty_eq_false {m : Match} (h : m ∈ r.allMatches t) : m.isEmpty = false := by
  obtain ⟨-, -, hin⟩ := find?_eq_some (find?_start h)
  have hlt := (matchIn?_reads hreads hin).2
  exact decide_eq_false (by omega)

end

end Regex

end CodeEditor
