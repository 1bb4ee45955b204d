import CodeEditor.Proofs.Search.Navigation
/-!
Where a plain text is found.

A plain search text is compiled to one set of characters for each of its own. So it stands at an offset exactly if the
characters there are in these sets, one after the other (`matchIn?_of_make`); whether it is found does not depend on
what is around. Each occurrence is as long as the search text, and wherever the search text stands, an occurrence covers
that offset (`covered_of_make`). Hence a search forward finds the first offset at which it stands, unless an occurrence
reaches over that offset from before the start of the search (`findForward?_of_first`).
-/

namespace CodeEditor

namespace SearchOptions

/-- the characters that a character of the search text stands for -/
def standsFor (options : SearchOptions) (c : Char) : CharSet :=
  if options.caseSensitive then .char c else .anyCase c

/-- a text starts with the search text, up to case if case does not matter -/
def reads (options : SearchOptions) : Text → Text → Bool
  | [], _ => true
  | _ :: _, [] => false
  | c :: u, d :: t => (options.standsFor c).contains d && options.reads u t

variable {options : SearchOptions} {u t : Text}

/-- where case matters, a character stands for itself -/
theorem standsFor_of_caseSensitive (h : options.caseSensitive = true) {c d : Char} :
    (options.standsFor c).contains d = true ↔ c = d := by
  rw [standsFor, if_pos h, CharSet.contains, beq_iff_eq]

/-- character by character -/
theorem reads_iff : options.reads u t = true ↔
    ∀ (k : Nat) c, u[k]? = some c → ∃ d, t[k]? = some d ∧ (options.standsFor c).contains d = true := by
  induction u generalizing t with
  | nil => simp [reads]
  | cons c u ih =>
    cases t with
    | nil =>
      refine iff_of_false (by simp [reads]) fun h => ?_
      obtain ⟨d, hd, -⟩ := h 0 c rfl
      cases hd
    | cons d t =>
      rw [reads, Bool.and_eq_true, ih]
      constructor
      · rintro ⟨hd, hrest⟩ k e he
        cases k with
        | zero =>
          obtain rfl : c = e := by simpa using he
          exact ⟨d, rfl, hd⟩
        | succ k => exact hrest k e he
      · intro h
        refine ⟨?_, fun k e he => h (k + 1) e he⟩
        obtain ⟨e, he, hcontains⟩ := h 0 c rfl
        obtain rfl : d = e := by simpa using he
        exact hcontains

theorem length_le_of_reads (h : options.reads u t = true) : u.length ≤ t.length := by
  by_contra hlt
  obtain ⟨d, hd, -⟩ := reads_iff.1 h t.length _ (List.getElem?_eq_getElem (by omega))
  rw [List.getElem?_eq_none le_rfl] at hd
  cases hd

theorem reads_of_caseSensitive (hcase : options.caseSensitive = true) : options.reads u t = true ↔ u <+: t := by
  rw [reads_iff, List.prefix_iff_getElem?]
  constructor
  · intro h i hi
    obtain ⟨d, hd, hcd⟩ := h i u[i] (List.getElem?_eq_getElem hi)
    rw [hd, (standsFor_of_caseSensitive hcase).1 hcd]
  · intro h k c hc
    obtain ⟨hk, rfl⟩ := List.getElem?_eq_some_iff.1 hc
    exact ⟨u[k], h k hk, (standsFor_of_caseSensitive hcase).2 rfl⟩

end SearchOptions

namespace Pattern

open Matching

theorem matcher_ofFactors_cons (s : CharSet) (ps : List Pattern) (choice : Nat) :
    (ofFactors (.set s :: ps)).matcher choice = andThen (Matching.char s) ((ofFactors ps).matcher choice) := by
  cases ps <;> rfl

/-- **One set after the other** reads the search text, or fails. -/
theorem matcher_of_reads (options : SearchOptions) (u : Text) (choice : Nat) (pt : Point) (k : Point → Attempt) :
    ∃ before, (ofFactors (u.map fun c => .set (options.standsFor c))).matcher choice pt k =
      if options.reads u pt.rest then k ⟨pt.pos + u.length, before, pt.rest.drop u.length, pt.captures⟩ else fail := by
  induction u generalizing pt with
  | nil => exact ⟨pt.before, rfl⟩
  | cons c u ih =>
    rw [List.map_cons, matcher_ofFactors_cons]
    cases hrest : pt.rest with
    | nil => exact ⟨none, by simp [andThen, Matching.char, hrest, SearchOptions.reads]⟩
    | cons d rest =>
      obtain ⟨before, hbefore⟩ := ih { pt with pos := pt.pos + 1, before := some d, rest }
      refine ⟨before, ?_⟩
      simp only [andThen, Matching.char, hrest]
      cases hd : (options.standsFor c).contains d with
      | true =>
        have hreads : options.reads (c :: u) (d :: rest) = options.reads u rest := by
          rw [SearchOptions.reads, hd, Bool.true_and]
        rw [if_pos rfl, hbefore, hreads, List.length_cons, List.drop_succ_cons, Nat.add_assoc, Nat.add_comm 1]
      | false =>
        have hreads : options.reads (c :: u) (d :: rest) = false := by rw [SearchOptions.reads, hd, Bool.false_and]
        rw [hreads]
        rfl

theorem literal_flags (options : SearchOptions) (c : Char) :
    Reader.literal (Query.flags options) c = .set (options.standsFor c) := by
  cases h : options.caseSensitive <;> simp [Reader.literal, Query.flags, Flags.default, SearchOptions.standsFor, h]

end Pattern

/-- in a list of occurrences, the first one from an offset on is found -/
theorem Occurrence.Spaced.find?_start {found : List Occurrence} (h : Spaced found) {o : Occurrence} (ho : o ∈ found)
    {offset : Nat} (hoffset : offset ≤ o.start) (hfirst : ∀ o' ∈ found, offset ≤ o'.start → o.start ≤ o'.start) :
    found.find? (offset ≤ ·.start) = some o := by
  cases hfound : found.find? (offset ≤ ·.start) with
  | none =>
    have hno := List.find?_eq_none.1 hfound o ho
    exact absurd (decide_eq_true hoffset) hno
  | some o' =>
    obtain ⟨hqualifies, before, behind, rfl, hbefore⟩ := List.find?_eq_some_iff_append.1 hfound
    rcases List.mem_append.1 ho with hmem | hmem
    · have hno := hbefore o hmem
      simp only [Bool.not_eq_true', decide_eq_false_iff_not] at hno
      exact absurd hoffset hno
    · rcases List.mem_cons.1 hmem with heq | hmem
      · rw [heq]
      · -- `o` starts behind the end of `o'`, which starts no earlier than `o` and is not empty
        have hmem' : o' ∈ before ++ o' :: behind := by simp
        have hapart := (List.pairwise_cons.1 (List.pairwise_append.1 h.apart).2.1).1 o hmem
        have hpos := h.start_lt_stop o' hmem'
        have hle := hfirst o' hmem' (by simpa using hqualifies)
        omega

namespace Query

variable {q : Query} {u t : Text} {options : SearchOptions} (hmake : make u options = .ok q)
  (hplain : options.isPattern = false)
include hmake hplain

/-- **A plain text is found where it stands.** -/
theorem matchIn?_of_make (t : Text) (x : Nat) :
    q.regex.matchIn? t x = if options.reads u (t.drop x) then some ⟨x, x + u.length, []⟩ else none := by
  obtain ⟨-, -, hpattern⟩ := pattern_of_make hmake hplain
  have hsets : u.map (Pattern.Reader.literal (flags options)) = u.map fun c => .set (options.standsFor c) :=
    List.map_congr_left fun c _ => Pattern.literal_flags options c
  obtain ⟨before, hmatcher⟩ := Pattern.matcher_of_reads options u 0 ⟨x, Regex.before? t x, t.drop x, []⟩
    fun pt marks => (some ⟨pt.pos, pt.captures⟩, marks)
  rw [Regex.matchIn?, Regex.matchAt?, Pattern.matchAt?, hpattern, hsets, hmatcher]
  split_ifs <;> rfl

theorem matchIn?_eq_some {x : Nat} {m : Match} (h : q.regex.matchIn? t x = some m) :
    options.reads u (t.drop x) = true ∧ m = ⟨x, x + u.length, []⟩ := by
  rw [matchIn?_of_make hmake hplain] at h
  split_ifs at h with hreads
  exact ⟨hreads, (Option.some.inj h).symm⟩

theorem length_pos_of_make : 0 < u.length :=
  List.length_pos_of_ne_nil (pattern_of_make hmake hplain).1

theorem isPattern_of_make : q.options.isPattern = false := by
  rw [(pattern_of_make hmake hplain).2.1, hplain]

/-- the first offset at which the search text stands is the one found -/
theorem find?_of_first {offset y : Nat} (hy : offset ≤ y) (hreads : options.reads u (t.drop y) = true)
    (hfirst : ∀ x, offset ≤ x → x < y → options.reads u (t.drop x) = false) :
    q.regex.find? t offset = some ⟨y, y + u.length, []⟩ := by
  have hin : q.regex.matchIn? t y = some ⟨y, y + u.length, []⟩ := by
    rw [matchIn?_of_make hmake hplain, if_pos hreads]
  have hlen := (Regex.matchIn?_reads (reads_of_make hmake hplain) hin).1
  cases hfind : q.regex.find? t offset with
  | none =>
    rw [Regex.find?_leftmost hy hlen.le fun m hm => by rw [hfind] at hm; cases hm] at hin
    cases hin
  | some m =>
    obtain ⟨hle, -, hm⟩ := Regex.find?_eq_some hfind
    obtain ⟨hstands, heq⟩ := matchIn?_eq_some hmake hplain hm
    have hstart : m.start = y := by
      rcases Nat.lt_trichotomy m.start y with hlt | heq | hgt
      · rw [hfirst _ hle hlt] at hstands
        cases hstands
      · exact heq
      · rw [Regex.find?_leftmost hy hlen.le fun m' hm' => by rw [hfind] at hm'; cases hm'; exact hgt] at hin
        cases hin
    rw [heq, hstart]

/-- where the search text stands nowhere, nothing is found -/
theorem find?_of_none {offset : Nat} (hnone : ∀ x, offset ≤ x → options.reads u (t.drop x) = false) :
    q.regex.find? t offset = none := by
  cases hfind : q.regex.find? t offset with
  | none => rfl
  | some m =>
    obtain ⟨hle, -, hm⟩ := Regex.find?_eq_some hfind
    have hstands := (matchIn?_eq_some hmake hplain hm).1
    rw [hnone _ hle] at hstands
    cases hstands

/-! ## Occurrences -/

/-- all matches are listed -/
theorem findAll_of_make (t : Text) : q.findAll t = (q.regex.allMatches t).map Match.occurrence := by
  have hall : (q.regex.allMatches t).filter (!·.isEmpty) = q.regex.allMatches t :=
    List.filter_eq_self.2 fun m hm => by rw [Regex.isEmpty_eq_false (reads_of_make hmake hplain) hm, Bool.not_false]
  rw [findAll, hall]
  rfl

/-- the search text stands where it is found, and an occurrence is as long as it -/
theorem stands_of_mem_findAll {o : Occurrence} (ho : o ∈ q.findAll t) :
    options.reads u (t.drop o.start) = true ∧ o.stop = o.start + u.length := by
  rw [findAll_of_make hmake hplain] at ho
  obtain ⟨m, hm, rfl⟩ := List.mem_map.1 ho
  obtain ⟨hstands, heq⟩ := matchIn?_eq_some hmake hplain (Regex.find?_eq_some (Regex.find?_start hm)).2.2
  exact ⟨hstands, congrArg Match.stop heq⟩

/-- **Where the search text stands, an occurrence covers it.** -/
theorem covered_of_make {x : Nat} (hreads : options.reads u (t.drop x) = true) :
    ∃ o ∈ q.findAll t, o.start ≤ x ∧ x < o.stop := by
  have hin : (q.regex.matchIn? t x).isSome = true := by
    rw [matchIn?_of_make hmake hplain, if_pos hreads]
    rfl
  obtain ⟨m, hm, hcovers⟩ := Regex.covered_matchesAfter (reads_of_make hmake hplain) none
    (show t.length < 0 + (t.length + 1) by omega) (Nat.zero_le x) hin
  rw [findAll_of_make hmake hplain]
  exact ⟨m.occurrence, List.mem_map_of_mem hm, hcovers⟩

/-- **A search forward finds the first offset at which the search text stands**, if no occurrence that starts before the
search does reaches over that offset. -/
theorem findForward?_of_first {offset y : Nat} (hreads : options.reads u (t.drop y) = true)
    (hfirst : ∀ x, offset ≤ x → x < y → options.reads u (t.drop x) = false)
    (hfree : ∀ o ∈ q.findAll t, o.start < offset → o.stop ≤ y) : q.findForward? t offset = some ⟨y, y + u.length⟩ := by
  obtain ⟨o, ho, hle, hlt⟩ := covered_of_make hmake hplain hreads
  have hstart : ∀ o' ∈ q.findAll t, offset ≤ o'.start → y ≤ o'.start := by
    intro o' ho' hoffset
    by_contra hbefore
    have hstands := (stands_of_mem_findAll hmake hplain ho').1
    rw [hfirst _ hoffset (by omega)] at hstands
    cases hstands
  have hoffset : offset ≤ o.start := by
    by_contra hbefore
    have hstop := hfree o ho (by omega)
    omega
  have hsame : o.start = y := le_antisymm hle (hstart o ho hoffset)
  have hstop := (stands_of_mem_findAll hmake hplain ho).2
  rw [hsame] at hstop
  have hfind := (q.spaced_findAll t).find?_start ho hoffset fun o' ho' hoffset' => hle.trans (hstart o' ho' hoffset')
  rw [findForward?, hfind, ← hstop, ← hsame]
  rfl

/-- replacing all puts the replacement in place of every match -/
theorem replaceAll_of_make (t replacement : Text) :
    (q.replaceAll t replacement).1 = spliceFrom t (fun _ => replacement) 0 (q.regex.allMatches t) := by
  simp only [replaceAll, findAll_of_make hmake hplain, List.length_map, List.length_eq_zero_iff,
    isPattern_of_make hmake hplain, Bool.false_eq_true, if_false]
  split_ifs with hnone
  · rw [hnone]
    rfl
  · rfl

end Query

end CodeEditor
