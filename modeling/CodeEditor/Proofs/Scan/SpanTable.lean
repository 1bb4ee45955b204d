import CodeEditor.Spans
import Mathlib.Tactic
/-!
Span tables from ranges.

Ranges that share an offset are merged, and so are those that share one with them: an offset has with it a whole group
of ranges (`InGroup`), or none. The table is built from the ranges in the order of their starts, one group after the
other, and each span is that of a group (`Block`, kept by one range more in `Block.absorb`). Groups share no offset, so
the spans of a table follow one another (`Grouped.apart`), and an offset is in a span exactly if it is in a range. Their
ends are in order too, so that a search by the ends finds the only span that can hold an offset (`kindAt_of_cuts`).

The kind of a span is that of the first range of its group. The sort puts the range that starts first in front, and
keeps the order of those that start together (`filter_mergeSort`). So it is the range that leads the group in the list
of ranges as it was given (`Leads`, `table_covers_its_ranges`).
-/

namespace CodeEditor

namespace Span

theorem contains_iff {s : Span} {o : Nat} : s.contains o = true ↔ s.start ≤ o ∧ o < s.stop := by
  rw [contains, Bool.and_eq_true, decide_eq_true_eq, decide_eq_true_eq]

/-- some offset is in both -/
def Meets (r q : Span) : Prop :=
  ∃ o, r.contains o = true ∧ q.contains o = true

/-- the offsets that a span takes up -/
def place (s : Span) : Nat × Nat :=
  (s.start, s.stop)

end Span

namespace Spans

/-! ## Spans in order -/

/-- the spans follow one another without overlap, and none of them is empty -/
structure Apart (spans : List Span) : Prop where
  nonempty : ∀ s ∈ spans, s.start < s.stop
  pairwise : spans.Pairwise fun s s' => s.stop ≤ s'.start

/-- it depends on the places only -/
theorem Apart.of_sublist {spans spans' : List Span} (h : Apart spans')
    (hsub : (spans.map Span.place).Sublist (spans'.map Span.place)) :
    Apart spans := by
  have hnonempty : ∀ place ∈ spans'.map Span.place, place.1 < place.2 := List.forall_mem_map.2 h.nonempty
  have hpairwise : (spans'.map Span.place).Pairwise fun place place' => place.2 ≤ place'.1 :=
    List.pairwise_map.2 h.pairwise
  exact ⟨List.forall_mem_map.1 fun place hplace => hnonempty place (hsub.subset hplace),
    List.pairwise_map.1 (hpairwise.sublist hsub)⟩

theorem mergeFrom_of_apart {first : Span} {spans : List Span} (h : Apart (first :: spans)) :
    mergeFrom first spans = first :: spans := by
  induction spans generalizing first with
  | nil => rfl
  | cons next spans ih =>
    obtain ⟨hnonempty, hpairwise⟩ := h
    obtain ⟨hfirst, hrest⟩ := List.pairwise_cons.1 hpairwise
    have hle := hfirst next List.mem_cons_self
    rw [mergeFrom, if_neg (by omega), ih ⟨fun s hs => hnonempty s (List.mem_cons_of_mem first hs), hrest⟩]

/-- a table of spans that are in order is made of just these -/
theorem ofRanges_of_apart {spans : List Span} (h : Apart spans) : ofRanges spans = ⟨spans⟩ := by
  have hfilter : spans.filter (fun s => s.start < s.stop) = spans :=
    List.filter_eq_self.2 fun s hs => decide_eq_true (h.nonempty s hs)
  have hsorted : spans.Pairwise fun s s' => decide (s.start ≤ s'.start) = true := by
    refine h.pairwise.imp_of_mem fun hs _ hle => decide_eq_true ?_
    exact (h.nonempty _ hs).le.trans hle
  rw [ofRanges, hfilter, List.mergeSort_of_pairwise hsorted]
  cases spans with
  | nil => rfl
  | cons first spans => exact congrArg Spans.mk (mergeFrom_of_apart h)

/-- empty ranges do not count -/
theorem ofRanges_filter (ranges : List Span) :
    ofRanges (ranges.filter fun s => s.start < s.stop) = ofRanges ranges := by
  rw [ofRanges, List.filter_filter, ofRanges]
  simp only [Bool.and_self]

/-! ## Lookup -/

/-- a place among the spans for an offset: those in front of it end at the offset or before it, and the
others behind the offset -/
def Cuts (spans : List Span) (offset i : Nat) : Prop :=
  (∀ s ∈ spans.take i, s.stop ≤ offset) ∧ ∀ s ∈ spans.drop i, offset < s.stop

/-- a lookup only has to see the span at the place of the offset -/
theorem kindAt_of_cuts {spans : List Span} {o i : Nat} (h : Cuts spans o i) :
    (Spans.mk spans).kindAt o = ((spans[i]?).filter (·.contains o)).map Span.kind := by
  obtain ⟨hbefore, hbehind⟩ := h
  have htake : (spans.take i).find? (fun s => o < s.stop) = none :=
    List.find?_eq_none.2 fun s hs => by simpa using hbefore s hs
  have hdrop : (spans.drop i).find? (fun s => o < s.stop) = spans[i]? := by
    rw [← List.head?_drop]
    cases hcut : spans.drop i with
    | nil => rfl
    | cons s behind => exact List.find?_cons_of_pos (by simpa using hbehind s (by rw [hcut]; simp))
  have hfind : spans.find? (fun s => o < s.stop) = spans[i]? := by
    rw [← List.take_append_drop i spans, List.find?_append, htake, Option.none_or, hdrop, List.take_append_drop]
  rw [kindAt, hfind]
  cases spans[i]? with
  | none => rfl
  | some s => by_cases hs : s.contains o = true <;> simp [hs]

/-- in a table in order each offset has a place -/
theorem Apart.exists_cuts {spans : List Span} (h : Apart spans) (o : Nat) : ∃ i, Cuts spans o i := by
  induction spans with
  | nil => exact ⟨0, by simp [Cuts]⟩
  | cons first spans ih =>
    obtain ⟨hfirst, hpairwise⟩ := List.pairwise_cons.1 h.pairwise
    by_cases hle : first.stop ≤ o
    · obtain ⟨i, hbefore, hbehind⟩ := ih ⟨fun s hs => h.nonempty s (List.mem_cons_of_mem first hs), hpairwise⟩
      exact ⟨i + 1, List.forall_mem_cons.2 ⟨hle, hbefore⟩, hbehind⟩
    · refine ⟨0, by simp, List.forall_mem_cons.2 ⟨Nat.lt_of_not_le hle, fun s hs => ?_⟩⟩
      have hnonempty := h.nonempty s (List.mem_cons_of_mem first hs)
      have hnext := hfirst s hs
      omega

/-- in a table in order it is the span that holds the offset -/
theorem Apart.kindAt_eq_some_iff {spans : List Span} (h : Apart spans) {o : Nat} {kind : SpanKind} :
    (Spans.mk spans).kindAt o = some kind ↔ ∃ s ∈ spans, s.contains o = true ∧ s.kind = kind := by
  constructor
  · intro hkind
    obtain ⟨i, hcut⟩ := h.exists_cuts o
    rw [kindAt_of_cuts hcut, Option.map_eq_some_iff] at hkind
    obtain ⟨s, hs, rfl⟩ := hkind
    obtain ⟨hget, hcontains⟩ := Option.filter_eq_some_iff.1 hs
    exact ⟨s, List.mem_of_getElem? hget, hcontains, rfl⟩
  · rintro ⟨s, hs, hcontains, rfl⟩
    obtain ⟨before, behind, rfl⟩ := List.append_of_mem hs
    have ho := Span.contains_iff.1 hcontains
    have hfind : (before ++ s :: behind).find? (fun s => o < s.stop) = some s := by
      refine List.find?_eq_some_iff_append.2 ⟨by simpa using ho.2, before, behind, rfl, fun q hq => ?_⟩
      have hle := (List.pairwise_append.1 h.pairwise).2.2 q hq s List.mem_cons_self
      simp only [Bool.not_eq_true', decide_eq_false_iff_not]
      omega
    rw [kindAt, hfind]
    exact if_pos hcontains

/-! ## Groups of ranges -/

/-- the ranges that are merged over an offset: those that hold it, and those that share some offset with one of these -/
inductive InGroup (ranges : List Span) (offset : Nat) : Span → Prop
  | holds {r : Span} (hr : r ∈ ranges) (h : r.contains offset = true) : InGroup ranges offset r
  | meets {r q : Span} (hr : InGroup ranges offset r) (hq : q ∈ ranges) (h : r.Meets q) : InGroup ranges offset q

/-- among the ranges that are merged over an offset, the range is the first in the list of those that start first -/
def Leads (ranges : List Span) (offset : Nat) (r : Span) : Prop :=
  ∃ before behind, ranges = before ++ r :: behind ∧ InGroup ranges offset r ∧
    (∀ q ∈ before, InGroup ranges offset q → r.start < q.start) ∧ ∀ q ∈ behind, InGroup ranges offset q →
    r.start ≤ q.start

variable {ranges group spans before behind : List Span} {s r q next : Span} {o i : Nat} {kind : SpanKind}

namespace InGroup

theorem of_subset {ranges' : List Span} (h : InGroup ranges o q) (hsub : ∀ r ∈ ranges, r.start < r.stop → r ∈ ranges') :
    InGroup ranges' o q := by
  have hlt : ∀ {r : Span} {i : Nat}, r.contains i = true → r.start < r.stop := fun h =>
    (Span.contains_iff.1 h).1.trans_lt (Span.contains_iff.1 h).2
  induction h with
  | holds hr h => exact .holds (hsub _ hr (hlt h)) h
  | meets _ hq h ih =>
    obtain ⟨i, hi, hi'⟩ := h
    exact .meets ih (hsub _ hq (hlt hi')) ⟨i, hi, hi'⟩

/-- an offset with a group is in a range -/
theorem exists_holds (h : InGroup ranges o q) : ∃ r ∈ ranges, r.contains o = true := by
  induction h with
  | holds hr h => exact ⟨_, hr, h⟩
  | meets _ _ _ ih => exact ih

/-- the group of an offset in a range of the group -/
theorem trans (h : InGroup ranges o r) (hi : r.contains i = true) (hq : InGroup ranges i q) : InGroup ranges o q := by
  induction hq with
  | holds hq hi' => exact .meets h hq ⟨i, hi, hi'⟩
  | meets _ hq hmeets ih => exact .meets ih hq hmeets

end InGroup

theorem Leads.unique (h : Leads ranges o r) (h' : Leads ranges o q) : r = q := by
  obtain ⟨a, b, hcut, hr, hbefore, hbehind⟩ := h
  obtain ⟨a', b', hcut', hq, hbefore', hbehind'⟩ := h'
  rw [hcut] at hcut'
  rcases List.append_eq_append_iff.1 hcut' with ⟨x, ha', hx⟩ | ⟨x, ha, hx⟩
  · cases x with
    | nil => exact (List.cons.inj hx).1
    | cons d x =>
      -- `r` comes before `q`
      obtain ⟨rfl, hb⟩ := List.cons.inj hx
      have hlt := hbefore' r (by rw [ha']; simp) hr
      have hle := hbehind q (by rw [hb]; simp) hq
      omega
  · cases x with
    | nil => exact (List.cons.inj hx).1.symm
    | cons d x =>
      obtain ⟨rfl, hb⟩ := List.cons.inj hx
      have hlt := hbefore q (by rw [ha]; simp) hq
      have hle := hbehind' r (by rw [hb]; simp) hr
      omega

/-! ## One span -/

/-- the span is that of a group of ranges: it has the start and the kind of the first one, they lie in it, and they are
the group of each of its offsets -/
structure Block (s : Span) (group : List Span) : Prop where
  head : ∃ r rest, group = r :: rest ∧ r.start = s.start ∧ r.kind = s.kind
  within : ∀ q ∈ group, s.start ≤ q.start ∧ q.start < q.stop ∧ q.stop ≤ s.stop
  linked : ∀ o, s.contains o = true → ∀ q ∈ group, InGroup group o q

theorem block_singleton (h : r.start < r.stop) : Block r [r] where
  head := ⟨r, [], rfl, rfl, rfl⟩
  within := by
    intro q hq
    rw [List.mem_singleton.1 hq]
    exact ⟨le_rfl, h, le_rfl⟩
  linked := by
    intro o ho q hq
    rw [List.mem_singleton.1 hq]
    exact .holds (List.mem_singleton.2 rfl) ho

theorem Block.start_lt_stop (h : Block s group) : s.start < s.stop := by
  obtain ⟨r, rest, hgroup, -⟩ := h.head
  obtain ⟨hstart, hlt, hstop⟩ := h.within r (by rw [hgroup]; simp)
  omega

/-- **One range more**, which starts in the span -/
theorem Block.absorb (h : Block s group) (hstart : s.start ≤ next.start) (hover : next.start < s.stop)
    (hnext : next.start < next.stop) :
    Block (s.absorb next) (group ++ [next]) := by
  have hnext_mem : next ∈ group ++ [next] := List.mem_append_right _ (List.mem_singleton.2 rfl)
  have hmono : ∀ {o : Nat} {q : Span}, InGroup group o q → InGroup (group ++ [next]) o q :=
    fun hq => hq.of_subset fun r hr _ => List.mem_append_left _ hr
  have hseam : s.contains next.start = true := Span.contains_iff.2 ⟨hstart, hover⟩
  -- some range of the group holds the start of the new one, so that it is in the group of each of the others
  obtain ⟨r, hr, hr_seam⟩ : ∃ r ∈ group, r.contains next.start = true := by
    obtain ⟨r, rest, hgroup, -⟩ := h.head
    exact (h.linked _ hseam r (by rw [hgroup]; simp)).exists_holds
  have hnext_seam : next.contains next.start = true := Span.contains_iff.2 ⟨le_rfl, hnext⟩
  refine ⟨?_, fun q hq => ?_, fun o ho q hq => ?_⟩
  · obtain ⟨first, rest, rfl, hfirst⟩ := h.head
    exact ⟨first, rest ++ [next], rfl, hfirst⟩
  · rw [Span.absorb]
    rcases List.mem_append.1 hq with hq | hq
    · obtain ⟨hle, hlt, hstop⟩ := h.within q hq
      exact ⟨hle, hlt, hstop.trans (le_max_left _ _)⟩
    · rw [List.mem_singleton.1 hq]
      exact ⟨hstart, hnext, le_max_right _ _⟩
  · by_cases hin : s.contains o = true
    · have hold : ∀ q ∈ group, InGroup (group ++ [next]) o q := fun q hq => hmono (h.linked o hin q hq)
      rcases List.mem_append.1 hq with hq | hq
      · exact hold q hq
      · rw [List.mem_singleton.1 hq]
        exact .meets (hold r hr) hnext_mem ⟨_, hr_seam, hnext_seam⟩
    · -- the offset is behind the old span, so it is the new range that holds it
      have ho_next : InGroup (group ++ [next]) o next := by
        refine .holds hnext_mem (Span.contains_iff.2 ?_)
        have hbounds := Span.contains_iff.1 ho
        simp only [Span.absorb] at hbounds
        rw [Span.contains_iff] at hin
        omega
      rcases List.mem_append.1 hq with hq | hq
      · exact ho_next.trans hnext_seam (hmono (h.linked _ hseam q hq))
      · rwa [List.mem_singleton.1 hq]

/-! ## All spans -/

/-- the spans are those of the groups of the ranges, which follow one another -/
inductive Grouped : List Span → List Span → Prop
  | nil : Grouped [] []
  | cons {s : Span} {group spans ranges : List Span} (hblock : Block s group) (hgrouped : Grouped spans ranges)
      (hbehind : ∀ q ∈ ranges, s.stop ≤ q.start) : Grouped (s :: spans) (group ++ ranges)

/-- **Merging**, with a span in the making -/
theorem grouped_mergeFrom (h : Block s group) (hsorted : (s :: ranges).Pairwise fun r q => r.start ≤ q.start)
    (hranges : ∀ q ∈ ranges, q.start < q.stop) : Grouped (mergeFrom s ranges) (group ++ ranges) := by
  induction ranges generalizing s group with
  | nil => exact .cons h .nil fun q hq => absurd hq List.not_mem_nil
  | cons next ranges ih =>
    obtain ⟨hfirst, hrest⟩ := List.pairwise_cons.1 hsorted
    obtain ⟨hnext, hpairwise⟩ := List.pairwise_cons.1 hrest
    have hlt := hranges next List.mem_cons_self
    have hlater := fun q hq => hranges q (List.mem_cons_of_mem next hq)
    rw [mergeFrom]
    split_ifs with hover
    · have hblock := h.absorb (hfirst next List.mem_cons_self) hover hlt
      have hstart : ∀ q ∈ ranges, (s.absorb next).start ≤ q.start := fun q hq => hfirst q (List.mem_cons_of_mem next hq)
      have hgrouped := ih hblock (List.pairwise_cons.2 ⟨hstart, hpairwise⟩) hlater
      rwa [List.append_assoc, List.singleton_append] at hgrouped
    · refine .cons h (ih (block_singleton hlt) hrest hlater) fun q hq => (Nat.not_lt.1 hover).trans ?_
      rcases List.mem_cons.1 hq with rfl | hq
      · exact le_rfl
      · exact hnext q hq

theorem grouped_merge (hsorted : ranges.Pairwise fun r q => r.start ≤ q.start)
    (hranges : ∀ q ∈ ranges, q.start < q.stop) :
    Grouped (merge ranges) ranges := by
  cases ranges with
  | nil => exact .nil
  | cons first ranges =>
    have hfirst : Block first [first] := block_singleton (hranges first List.mem_cons_self)
    exact grouped_mergeFrom hfirst hsorted fun q hq => hranges q (List.mem_cons_of_mem first hq)

namespace Grouped

/-- the ranges of a span, those before and those behind -/
theorem exists_block (h : Grouped spans ranges) (hs : s ∈ spans) :
    ∃ before group behind, ranges = before ++ (group ++ behind) ∧ Block s group ∧
      (∀ q ∈ before, q.stop ≤ s.start) ∧ ∀ q ∈ behind, s.stop ≤ q.start := by
  induction h with
  | nil => cases hs
  | @cons s' group' spans' ranges' hblock hgrouped hbehind ih =>
    rcases List.mem_cons.1 hs with rfl | hs
    · exact ⟨[], group', ranges', rfl, hblock, fun q hq => absurd hq List.not_mem_nil, hbehind⟩
    · obtain ⟨before, group, behind, rfl, hgroup, hbefore, hafter⟩ := ih hs
      refine ⟨group' ++ before, group, behind, by simp, hgroup, fun q hq => ?_, hafter⟩
      rcases List.mem_append.1 hq with hq | hq
      · obtain ⟨r, rest, rfl, hstart, -⟩ := hgroup.head
        have hle := hbehind r (by simp)
        have hstop := (hblock.within q hq).2.2
        omega
      · exact hbefore q hq

theorem exists_span (h : Grouped spans ranges) (hq : q ∈ ranges) :
    ∃ s ∈ spans, s.start ≤ q.start ∧ q.stop ≤ s.stop := by
  induction h with
  | nil => cases hq
  | @cons s' group' spans' ranges' hblock hgrouped hbehind ih =>
    rcases List.mem_append.1 hq with hq | hq
    · obtain ⟨hstart, -, hstop⟩ := hblock.within q hq
      exact ⟨s', List.mem_cons_self, hstart, hstop⟩
    · obtain ⟨s, hs, hbounds⟩ := ih hq
      exact ⟨s, List.mem_cons_of_mem s' hs, hbounds⟩

/-- **The spans follow one another.** -/
theorem apart (h : Grouped spans ranges) : Apart spans := by
  refine ⟨fun s hs => ?_, ?_⟩
  · obtain ⟨before, group, behind, -, hblock, -⟩ := h.exists_block hs
    exact hblock.start_lt_stop
  · induction h with
    | nil => exact List.Pairwise.nil
    | @cons s' group' spans' ranges' hblock hgrouped hbehind ih =>
      refine List.pairwise_cons.2 ⟨fun s hs => ?_, ih⟩
      obtain ⟨before, group, behind, rfl, hgroup, -⟩ := hgrouped.exists_block hs
      obtain ⟨r, rest, rfl, hstart, -⟩ := hgroup.head
      rw [← hstart]
      exact hbehind r (by simp)

end Grouped

/-- a range that shares an offset with a span is one of the span's own -/
theorem mem_group_of_contains (hs : s.contains i = true) (hi : q.contains i = true)
    (hbefore : ∀ q ∈ before, q.stop ≤ s.start) (hbehind : ∀ q ∈ behind, s.stop ≤ q.start)
    (hq : q ∈ before ++ (group ++ behind)) : q ∈ group := by
  obtain ⟨hstart, hstop⟩ := Span.contains_iff.1 hs
  obtain ⟨hstart', hstop'⟩ := Span.contains_iff.1 hi
  rw [List.mem_append, List.mem_append] at hq
  rcases hq with hq | hq | hq
  · have hle := hbefore q hq
    omega
  · exact hq
  · have hle := hbehind q hq
    omega

/-- **The ranges of a span are the group of each of its offsets.** -/
theorem Block.mem_of_inGroup (h : Block s group) (ho : s.contains o = true) (hbefore : ∀ q ∈ before, q.stop ≤ s.start)
    (hbehind : ∀ q ∈ behind, s.stop ≤ q.start) (hq : InGroup (before ++ (group ++ behind)) o q) : q ∈ group := by
  induction hq with
  | holds hq hi => exact mem_group_of_contains ho hi hbefore hbehind hq
  | meets _ hq hmeets ih =>
    obtain ⟨i, hi, hi'⟩ := hmeets
    obtain ⟨hstart, -, hstop⟩ := h.within _ ih
    have hin := Span.contains_iff.1 hi
    exact mem_group_of_contains (Span.contains_iff.2 ⟨by omega, by omega⟩) hi' hbefore hbehind hq

/-! ## Tables from ranges -/

/-- the ranges that are merged, in the order of their starts -/
def inOrder (ranges : List Span) : List Span :=
  (ranges.filter fun s => s.start < s.stop).mergeSort fun s t => s.start ≤ t.start

theorem mem_inOrder : q ∈ inOrder ranges ↔ q ∈ ranges ∧ q.start < q.stop := by
  rw [inOrder, List.mem_mergeSort, List.mem_filter, decide_eq_true_eq]

theorem start_trans (a b c : Span) (hab : decide (a.start ≤ b.start) = true) (hbc : decide (b.start ≤ c.start) = true) :
    decide (a.start ≤ c.start) = true :=
  decide_eq_true ((of_decide_eq_true hab).trans (of_decide_eq_true hbc))

theorem start_total (a b : Span) : (decide (a.start ≤ b.start) || decide (b.start ≤ a.start)) = true := by
  simpa using Nat.le_total a.start b.start

theorem pairwise_inOrder (ranges : List Span) : (inOrder ranges).Pairwise fun r q => r.start ≤ q.start :=
  (List.pairwise_mergeSort start_trans start_total _).imp of_decide_eq_true

/-- a sort keeps the order of those that start together -/
theorem filter_mergeSort (ranges : List Span) (n : Nat) :
    (ranges.mergeSort fun s t => s.start ≤ t.start).filter (·.start == n) = ranges.filter (·.start == n) := by
  have hequal : (ranges.filter (·.start == n)).Pairwise fun s t => decide (s.start ≤ t.start) = true := by
    refine List.pairwise_of_forall_mem_list fun s hs t ht => decide_eq_true ?_
    rw [beq_iff_eq.1 (List.mem_filter.1 hs).2, beq_iff_eq.1 (List.mem_filter.1 ht).2]
  have hsub := (List.sublist_mergeSort start_trans start_total hequal List.filter_sublist).filter (·.start == n)
  simp only [List.filter_filter, Bool.and_self] at hsub
  exact (hsub.eq_of_length ((List.mergeSort_perm ranges _).symm.filter _).length_eq).symm

theorem filter_inOrder (ranges : List Span) (n : Nat) :
    (inOrder ranges).filter (·.start == n) = ranges.filter fun s => s.start == n && decide (s.start < s.stop) := by
  rw [inOrder, filter_mergeSort, List.filter_filter]

theorem grouped_ofRanges (ranges : List Span) : Grouped (ofRanges ranges).toList (inOrder ranges) :=
  grouped_merge (pairwise_inOrder ranges) fun _ hq => (mem_inOrder.1 hq).2

theorem apart_ofRanges (ranges : List Span) : Apart (ofRanges ranges).toList :=
  (grouped_ofRanges ranges).apart

/-- an offset is in a span exactly if it is in a range -/
theorem exists_contains_iff :
    (∃ s ∈ (ofRanges ranges).toList, s.contains o = true) ↔ ∃ r ∈ ranges, r.contains o = true := by
  constructor
  · rintro ⟨s, hs, ho⟩
    obtain ⟨before, group, behind, hcut, hblock, -⟩ := (grouped_ofRanges ranges).exists_block hs
    obtain ⟨r, rest, hgroup, -⟩ := hblock.head
    obtain ⟨q, hq, hcontains⟩ := (hblock.linked o ho r (by rw [hgroup]; simp)).exists_holds
    exact ⟨q, (mem_inOrder.1 (by rw [hcut]; simp [hq])).1, hcontains⟩
  · rintro ⟨r, hr, ho⟩
    obtain ⟨hstart, hstop⟩ := Span.contains_iff.1 ho
    obtain ⟨s, hs, hle, hle'⟩ := (grouped_ofRanges ranges).exists_span (mem_inOrder.2 ⟨hr, by omega⟩)
    exact ⟨s, hs, Span.contains_iff.2 ⟨by omega, by omega⟩⟩

/-- the first range of a span is the one that leads the group of each of its offsets -/
theorem exists_leads (hs : s ∈ (ofRanges ranges).toList) (ho : s.contains o = true) :
    ∃ r, Leads ranges o r ∧ r.kind = s.kind := by
  obtain ⟨before, group, behind, hcut, hblock, hbefore, hbehind⟩ := (grouped_ofRanges ranges).exists_block hs
  obtain ⟨r, rest, rfl, hstart, hkind⟩ := hblock.head
  have hgroup : ∀ q, InGroup ranges o q → q ∈ r :: rest := fun q hq =>
    hblock.mem_of_inGroup ho hbefore hbehind (hcut ▸ hq.of_subset fun q hq hlt => mem_inOrder.2 ⟨hq, hlt⟩)
  have hr : InGroup ranges o r := by
    refine (hblock.linked o ho r List.mem_cons_self).of_subset fun q hq _ => (mem_inOrder.1 ?_).1
    rw [hcut]
    exact List.mem_append_right _ (List.mem_append_left _ hq)
  -- of the ranges that start where the span does it is the first in the sorted list, and so it is in the list as given
  have hfirst : (inOrder ranges).filter (·.start == s.start) = r :: (rest ++ behind).filter (·.start == s.start) := by
    have hnone : before.filter (·.start == s.start) = [] := by
      refine List.filter_eq_nil_iff.2 fun q hq heq => ?_
      have hlt := (mem_inOrder.1 (show q ∈ inOrder ranges by rw [hcut]; simp [hq])).2
      have hle := hbefore q hq
      rw [beq_iff_eq] at heq
      omega
    rw [hcut, List.filter_append, hnone, List.nil_append, List.cons_append, List.filter_cons_of_pos (by simp [hstart])]
  rw [filter_inOrder, List.filter_eq_cons_iff] at hfirst
  obtain ⟨front, back, hranges, hfront, -⟩ := hfirst
  refine ⟨r, ⟨front, back, hranges, hr, fun q hq hin => ?_, fun q _ hin => ?_⟩, hkind⟩
  · obtain ⟨hle, hlt, -⟩ := hblock.within q (hgroup q hin)
    have hne : q.start ≠ s.start := fun heq => hfront q hq (by simp [heq ▸ hlt, heq])
    omega
  · have hle := (hblock.within q (hgroup q hin)).1
    omega

/-- **An offset is covered** exactly if it is in a range. -/
theorem isSome_kindAt_iff : ((ofRanges ranges).kindAt o).isSome = true ↔ ∃ r ∈ ranges, r.contains o = true := by
  rw [← exists_contains_iff, Option.isSome_iff_exists]
  constructor
  · rintro ⟨kind, hkind⟩
    obtain ⟨s, hs, hcontains, -⟩ := (apart_ofRanges ranges).kindAt_eq_some_iff.1 hkind
    exact ⟨s, hs, hcontains⟩
  · rintro ⟨s, hs, hcontains⟩
    exact ⟨s.kind, (apart_ofRanges ranges).kindAt_eq_some_iff.2 ⟨s, hs, hcontains, rfl⟩⟩

/-- **The kind at an offset** is that of the range that leads its group. -/
theorem kindAt_eq_some_iff_leads : (ofRanges ranges).kindAt o = some kind ↔ ∃ r, Leads ranges o r ∧ r.kind = kind := by
  have hleads : ∀ {kind}, (ofRanges ranges).kindAt o = some kind → ∃ r, Leads ranges o r ∧ r.kind = kind := by
    intro kind hkind
    obtain ⟨s, hs, hcontains, rfl⟩ := (apart_ofRanges ranges).kindAt_eq_some_iff.1 hkind
    exact exists_leads hs hcontains
  refine ⟨hleads, ?_⟩
  rintro ⟨r, hr, rfl⟩
  -- the offset is covered, and only one range leads its group
  have hin : InGroup ranges o r := by
    obtain ⟨before, behind, -, hin, -⟩ := hr
    exact hin
  obtain ⟨kind, hkind⟩ := Option.isSome_iff_exists.1 (isSome_kindAt_iff.2 hin.exists_holds)
  obtain ⟨q, hq, rfl⟩ := hleads hkind
  rw [hkind, hr.unique hq]

theorem Apart.not_meets {spans : List Span} (h : Apart spans) :
    spans.Pairwise fun s s' => s.start < s'.start ∧ ¬ s.Meets s' := by
  refine h.pairwise.imp_of_mem fun hs _ hle => ⟨(h.nonempty _ hs).trans_le hle, ?_⟩
  rintro ⟨i, hi, hi'⟩
  have hstop := (Span.contains_iff.1 hi).2
  have hstart := (Span.contains_iff.1 hi').1
  omega

/-- **The table covers its ranges.** Its spans are not empty, in the order of their starts, and no two of them share an
offset. An offset is in one exactly if it is in a range, of the kind of the range that leads its group. The lookup finds
it at the place of the offset. -/
theorem table_covers_its_ranges (ranges : List Span) :
    let table := ofRanges ranges
    (∀ s ∈ table.toList, s.start < s.stop) ∧
      table.toList.Pairwise (fun s s' => s.start < s'.start ∧ ¬ s.Meets s') ∧
      ∀ offset,
        ((table.kindAt offset).isSome = true ↔ ∃ r ∈ ranges, r.contains offset = true) ∧
        (∀ kind, table.kindAt offset = some kind ↔ ∃ r, Leads ranges offset r ∧ r.kind = kind) ∧
        (∃ i, Cuts table.toList offset i) ∧
        ∀ i, Cuts table.toList offset i →
        table.kindAt offset = ((table.toList[i]?).filter (·.contains offset)).map Span.kind := by
  intro table
  have happart : Apart table.toList := apart_ofRanges ranges
  refine ⟨happart.nonempty, happart.not_meets, fun offset =>
    ⟨isSome_kindAt_iff, fun kind => kindAt_eq_some_iff_leads, ?_, ?_⟩⟩
  · exact happart.exists_cuts offset
  · intro i hcut
    exact kindAt_of_cuts hcut

/-- two ranges that share no offset are one span through a third one -/
example : (ofRanges [⟨6, 9, .string⟩, ⟨2, 5, .comment⟩, ⟨4, 7, .string⟩, ⟨3, 3, .string⟩]).toList =
    [⟨2, 9, .comment⟩] := by
  cbv

end Spans

end CodeEditor
