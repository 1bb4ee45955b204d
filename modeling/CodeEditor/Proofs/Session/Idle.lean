import CodeEditor.Proofs.Session.Run
import Mathlib.Data.List.DropRight
/-!
The idle timer of a session.

A poll that sees another cursor or revision than the poll before it arms the timer; a poll that sees the same ones lets
it fire if it is due, and then the timer stays disarmed. No other operation touches the timer or what the last poll saw
(`step_sameWatch`). So at every poll of a run the timer is told by the polls since the state last changed, its *stretch*
(`Watched`): it is armed for the first of them, or it has fired. A poll fires exactly if it is the first of its stretch
to come as late as the delay behind the first one (`Watched.fires_iff`), and what a poll that fires returns is the pair
of braces at the cursor, while others return nothing.

The clock counts in any unit, as long as the delay is given in the same one.
-/

namespace CodeEditor

namespace Timer

variable {t : Timer} {now : Nat}

theorem fireIfDue_eq_true_iff :
    (t.fireIfDue now).1 = true ↔ ∃ deadline, t.deadline = some deadline ∧ deadline ≤ now := by
  unfold fireIfDue
  cases t.deadline with
  | none => simp
  | some deadline =>
    dsimp only
    split_ifs with hdue <;> simp [hdue]

/-- a timer that fires is disarmed, and else it stays as it was -/
theorem fireIfDue_snd (t : Timer) (now : Nat) : (t.fireIfDue now).2 = if (t.fireIfDue now).1 then t.cancel else t := by
  unfold fireIfDue
  cases t.deadline with
  | none => rfl
  | some deadline =>
    by_cases hdue : deadline ≤ now
    · simp only [if_pos hdue, if_true]
    · simp only [if_neg hdue, Bool.false_eq_true, if_false]

end Timer

namespace Session

/-! ## Polls of a run -/

/-- a poll: the reading of the clock, and the session that is polled -/
structure Poll where
  now : Nat
  session : Session

namespace Poll

/-- the cursor and the revision that the poll sees -/
def seen (p : Poll) : Nat × Nat :=
  (p.session.buffer.cursor, p.session.buffer.revision)

/-- what the poll returns -/
def found (p : Poll) : Option (Nat × Nat) :=
  (p.session.poll p.now).1

/-- the poll finds the timer armed and leaves it disarmed -/
def fires (p : Poll) : Bool :=
  p.session.idle.isPending && !(p.session.poll p.now).2.idle.isPending

end Poll

/-- the polls of a run, in order -/
def polls (s : Session) : List Op → List Poll
  | [] => []
  | op :: ops => (op.pollAt?.map (⟨·, s⟩)).toList ++ polls (s.step op) ops

/-- the polls at the end that all saw one state: those since the state last changed -/
def stretch (ps : List Poll) (state : Nat × Nat) : List Poll :=
  ps.rtakeWhile (·.seen = state)

variable {ps : List Poll} {p : Poll} {state : Nat × Nat}

theorem stretch_concat_of_seen (h : p.seen = state) : stretch (ps ++ [p]) state = stretch ps state ++ [p] :=
  List.rtakeWhile_concat_pos _ _ _ (decide_eq_true h)

/-- a stretch is empty if the last poll saw another state -/
theorem stretch_of_ne (h : ps.getLast?.map Poll.seen ≠ some state) : stretch ps state = [] := by
  rw [stretch, List.rtakeWhile_eq_nil_iff]
  intro hne hlast
  rw [List.getLast?_eq_some_getLast hne, Option.map_some, ne_eq, Option.some.injEq] at h
  exact h (of_decide_eq_true hlast)

/-- a stretch is not empty if the last poll saw the state -/
theorem stretch_ne_nil (h : ps.getLast?.map Poll.seen = some state) : stretch ps state ≠ [] := by
  obtain ⟨p, hp, hseen⟩ := Option.map_eq_some_iff.1 h
  obtain ⟨older, rfl⟩ := List.getLast?_eq_some_iff.1 hp
  rw [stretch_concat_of_seen hseen]
  exact List.concat_ne_nil p _

/-- the polls of a stretch are the last ones, and saw the state -/
theorem stretch_eq_cons {q : Poll} {since : List Poll} (h : stretch ps state = q :: since) :
    (∃ older, ps = older ++ q :: since) ∧ ∀ r ∈ q :: since, r.seen = state := by
  obtain ⟨older, hsplit⟩ : stretch ps state <:+ ps := List.rtakeWhile_suffix _ _
  rw [h] at hsplit
  refine ⟨⟨older, hsplit.symm⟩, fun r hr => ?_⟩
  rw [← h] at hr
  have hseen := List.mem_rtakeWhile_imp hr
  exact of_decide_eq_true hseen

/-! ## What a poll does -/

/-- the timer, and what the last poll saw, are the same -/
structure SameWatch (s s' : Session) : Prop where
  idle : s'.idle = s.idle
  polled : s'.polled = s.polled

section

variable {s s' : Session}

theorem SameFrame.watch (h : s.SameFrame s') : s.SameWatch s' :=
  ⟨h.idle, h.polled⟩

/-- **Only polls** touch the timer and what the last poll saw. -/
theorem step_sameWatch (hs : s.Sound) {op : Op} (hop : op.pollAt? = none) : s.SameWatch (s.step op) := by
  cases hkeeps : op.keepsClassifier with
  | true => exact (step_frame hs hkeeps hop).watch
  | false =>
    cases op with
    | attach classify => exact ⟨rfl, rfl⟩
    | _ => cases hkeeps

end

/-- the timer plays no part in finding the pair of braces -/
theorem matchingBracket_withIdle (s : Session) (idle : Timer) :
    matchingBracket { s with idle } = (s.matchingBracket.1, { s.sync with idle }) := by
  have hsync : sync { s with idle } = { s.sync with idle } := by
    unfold sync
    dsimp only
    split
    · rfl
    · split_ifs <;> rfl
  rw [matchingBracket, hsync]
  rfl

namespace Poll

/-- a poll that sees another state than the last one arms the timer -/
theorem poll_of_ne (h : p.session.polled ≠ some p.seen) :
    p.session.poll p.now =
      (none, { p.session with polled := some p.seen, idle := p.session.idle.schedule p.now }) := by
  unfold poll
  exact if_pos (bne_iff_ne.2 h)

/-- a poll that sees the same state as the last one lets the timer fire if it is due -/
theorem poll_of_eq (h : p.session.polled = some p.seen) :
    let fired := p.session.idle.fireIfDue p.now
    p.found = (if fired.1 then p.session.matchingBracket.1 else none) ∧
      (p.session.poll p.now).2.idle = fired.2 ∧ (p.session.poll p.now).2.polled = p.session.polled := by
  intro fired
  have hpoll : p.session.poll p.now =
      if fired.1 then matchingBracket { p.session with idle := fired.2 }
        else (none, { p.session with idle := fired.2 }) := by
    unfold poll
    exact if_neg (by rw [bne_iff_ne, not_not]; exact h)
  rw [found, hpoll, matchingBracket_withIdle]
  split_ifs
  · exact ⟨rfl, rfl, p.session.sync_frame.polled⟩
  · exact ⟨rfl, rfl, rfl⟩

theorem fires_of_ne (h : p.session.polled ≠ some p.seen) : p.fires = false := by
  rw [fires, poll_of_ne h]
  exact Bool.and_false _

theorem fires_of_eq (h : p.session.polled = some p.seen) : p.fires = (p.session.idle.fireIfDue p.now).1 := by
  rw [fires, (poll_of_eq h).2.1, Timer.fireIfDue_snd]
  cases hdue : (p.session.idle.fireIfDue p.now).1 with
  | false => simp
  | true =>
    obtain ⟨deadline, harmed, -⟩ := Timer.fireIfDue_eq_true_iff.1 hdue
    simp [Timer.isPending, Timer.cancel, harmed]

theorem deadline_of_fires (h : p.fires = true) : (p.session.poll p.now).2.idle.deadline = none := by
  rw [fires, Bool.and_eq_true, Bool.not_eq_true'] at h
  exact Option.isSome_eq_false_iff.1 h.2 |> Option.isNone_iff_eq_none.1

/-- **A poll that fires** returns the pair of braces at the cursor, any other returns nothing. -/
theorem found_eq (p : Poll) : p.found = if p.fires then p.session.matchingBracket.1 else none := by
  by_cases h : p.session.polled = some p.seen
  · rw [fires_of_eq h]
    exact (poll_of_eq h).1
  · rw [fires_of_ne h, found, poll_of_ne h]
    rfl

end Poll

/-! ## The timer, told by the polls -/

/-- the timer behind polls that all saw one state: armed for the first of them, until one comes late enough -/
def timerBehind (delay : Nat) : List Poll → Timer
  | [] => .ofDelay delay
  | q :: since => ⟨delay, if ∀ r ∈ since, r.now < q.now + delay then some (q.now + delay) else none⟩

theorem timerBehind_fires_iff {delay now : Nat} : ((timerBehind delay ps).fireIfDue now).1 = true ↔
    ∃ q since, ps = q :: since ∧ q.now + delay ≤ now ∧ ∀ r ∈ since, r.now < q.now + delay := by
  rw [Timer.fireIfDue_eq_true_iff]
  cases ps with
  | nil => simp [timerBehind, Timer.ofDelay]
  | cons q since =>
    constructor
    · rintro ⟨deadline, hdeadline, hdue⟩
      rw [timerBehind] at hdeadline
      split_ifs at hdeadline with hearly
      cases hdeadline
      exact ⟨q, since, rfl, hdue, hearly⟩
    · rintro ⟨q, since, ⟨⟩, hdue, hearly⟩
      exact ⟨_, if_pos hearly, hdue⟩

/-- one more poll lets the timer fire if it is due -/
theorem timerBehind_concat (delay : Nat) (q : Poll) (since : List Poll) (p : Poll) :
    ((timerBehind delay (q :: since)).fireIfDue p.now).2 = timerBehind delay (q :: since ++ [p]) := by
  rw [Timer.fireIfDue_snd]
  by_cases hearly : ∀ r ∈ since, r.now < q.now + delay
  · by_cases hdue : q.now + delay ≤ p.now
    · have hboth : ¬ ∀ r ∈ since ++ [p], r.now < q.now + delay := fun h =>
        Nat.not_lt.2 hdue (h p (List.mem_append_right since (List.mem_singleton_self p)))
      rw [if_pos (timerBehind_fires_iff.2 ⟨q, since, rfl, hdue, hearly⟩), List.cons_append, timerBehind, timerBehind,
        if_neg hboth]
      rfl
    · have hfires : ((timerBehind delay (q :: since)).fireIfDue p.now).1 ≠ true := by
        rw [ne_eq, timerBehind_fires_iff]
        rintro ⟨q, since, ⟨⟩, hdue', -⟩
        exact hdue hdue'
      have hboth : ∀ r ∈ since ++ [p], r.now < q.now + delay :=
        List.forall_mem_append.2 ⟨hearly, List.forall_mem_singleton.2 (Nat.not_le.1 hdue)⟩
      rw [if_neg hfires, List.cons_append, timerBehind, timerBehind, if_pos hearly, if_pos hboth]
  · have hfires : ((timerBehind delay (q :: since)).fireIfDue p.now).1 ≠ true := by
      rw [ne_eq, timerBehind_fires_iff]
      rintro ⟨q, since, ⟨⟩, -, hearly'⟩
      exact hearly hearly'
    have hboth : ¬ ∀ r ∈ since ++ [p], r.now < q.now + delay := fun h => hearly (List.forall_mem_append.1 h).1
    rw [if_neg hfires, List.cons_append, timerBehind, timerBehind, if_neg hearly, if_neg hboth]

/-- **The invariant** of a session behind some polls -/
structure Watched (delay : Nat) (ps : List Poll) (s : Session) : Prop where
  delay_eq : s.idle.delay = delay
  polled : s.polled = ps.getLast?.map Poll.seen
  idle : ∀ state, s.polled = some state → s.idle = timerBehind delay (stretch ps state)
  /-- once a poll of the stretch has fired the timer is disarmed -/
  fired : ∀ state, s.polled = some state → ∀ r ∈ stretch ps state, r.fires = true → s.idle.deadline = none

theorem watched_ofText (t : Text) (l : Language) (c : Config) : Watched c.idleDelay [] (ofText t l c) where
  delay_eq := rfl
  polled := rfl
  idle := fun _ h => nomatch h
  fired := fun _ h => nomatch h

section

variable {delay : Nat} {s s' : Session}

theorem Watched.of_sameWatch (h : Watched delay ps s) (hs : s.SameWatch s') : Watched delay ps s' := by
  obtain ⟨hidle, hpolled⟩ := hs
  constructor <;> simp only [hidle, hpolled]
  · exact h.delay_eq
  · exact h.polled
  · exact h.idle
  · exact h.fired

/-- **A poll fires** exactly if it is the first one of its stretch to come as late as the delay
behind the first of them. -/
theorem Watched.fires_iff (h : Watched delay ps p.session) : p.fires = true ↔
    ∃ q since, stretch ps p.seen = q :: since ∧ q.now + delay ≤ p.now ∧ ∀ r ∈ since, r.now < q.now + delay := by
  by_cases hseen : p.session.polled = some p.seen
  · rw [Poll.fires_of_eq hseen, h.idle _ hseen, timerBehind_fires_iff]
  · rw [Poll.fires_of_ne hseen, stretch_of_ne (h.polled ▸ hseen)]
    simp

/-- a poll that sees the state that the last one saw keeps the invariant -/
theorem Watched.poll_of_eq (h : Watched delay ps p.session) (hseen : p.session.polled = some p.seen) :
    Watched delay (ps ++ [p]) (p.session.poll p.now).2 := by
  obtain ⟨-, hidle, hpolled⟩ := Poll.poll_of_eq hseen
  have hlast : (ps ++ [p]).getLast? = some p := List.getLast?_concat
  have hstretch : stretch (ps ++ [p]) p.seen = stretch ps p.seen ++ [p] := stretch_concat_of_seen rfl
  obtain ⟨q, since, hbefore⟩ := List.exists_cons_of_ne_nil (stretch_ne_nil (h.polled.symm.trans hseen))
  have htimer : (p.session.poll p.now).2.idle = timerBehind delay (stretch (ps ++ [p]) p.seen) := by
    rw [hidle, h.idle _ hseen, hstretch, hbefore, timerBehind_concat]
  refine ⟨?_, ?_, ?_, ?_⟩
  · rw [hidle, Timer.fireIfDue_snd]
    split_ifs <;> exact h.delay_eq
  · rw [hpolled, hseen, hlast, Option.map_some]
  · intro state hstate
    obtain rfl := Option.some.inj (hseen.symm.trans (hpolled.symm.trans hstate))
    exact htimer
  · intro state hstate r hr hfires
    obtain rfl := Option.some.inj (hseen.symm.trans (hpolled.symm.trans hstate))
    rw [hstretch] at hr
    rcases List.mem_append.1 hr with hr | hr
    · -- a timer that is disarmed stays so
      have hnone := h.fired _ hseen r hr hfires
      rw [hidle, Timer.fireIfDue_snd]
      split_ifs
      · rfl
      · exact hnone
    · rw [List.mem_singleton.1 hr] at hfires
      exact Poll.deadline_of_fires hfires

/-- a poll that sees another state starts a stretch -/
theorem Watched.poll_of_ne (h : Watched delay ps p.session) (hseen : p.session.polled ≠ some p.seen) :
    Watched delay (ps ++ [p]) (p.session.poll p.now).2 := by
  have hlast : (ps ++ [p]).getLast? = some p := List.getLast?_concat
  have hstretch : stretch (ps ++ [p]) p.seen = [p] := by
    rw [stretch_concat_of_seen rfl, stretch_of_ne (h.polled ▸ hseen), List.nil_append]
  rw [Poll.poll_of_ne hseen]
  refine ⟨h.delay_eq, ?_, ?_, ?_⟩
  · rw [hlast, Option.map_some]
  · rintro _ ⟨⟩
    rw [hstretch, ← h.delay_eq]
    rfl
  · rintro _ ⟨⟩ r hr hfires
    rw [hstretch, List.mem_singleton] at hr
    rw [hr, Poll.fires_of_ne hseen] at hfires
    cases hfires

/-- **A poll** keeps the invariant. -/
theorem Watched.poll (h : Watched delay ps p.session) : Watched delay (ps ++ [p]) (p.session.poll p.now).2 := by
  by_cases hseen : p.session.polled = some p.seen
  · exact h.poll_of_eq hseen
  · exact h.poll_of_ne hseen

/-- **Every poll of a run** finds the session as its polls before say. -/
theorem Watched.polls (h : Watched delay ps s) (hs : s.Sound) {ops : List Op} {before behind : List Poll}
    (hpolls : s.polls ops = before ++ p :: behind) : Watched delay (ps ++ before) p.session := by
  induction ops generalizing s ps before with
  | nil =>
    rw [Session.polls] at hpolls
    cases before <;> cases hpolls
  | cons op ops ih =>
    rw [Session.polls] at hpolls
    have hstep : (s.step op).Sound := step_sound hs op
    cases hop : op.pollAt? with
    | none =>
      rw [hop] at hpolls
      exact ih (h.of_sameWatch (step_sameWatch hs hop)) hstep hpolls
    | some now =>
      obtain rfl : op = .poll now := by
        cases op <;> cases hop
        rfl
      rw [hop] at hpolls
      cases before with
      | nil =>
        obtain ⟨rfl, -⟩ := List.cons.inj hpolls
        rw [List.append_nil]
        exact h
      | cons q before =>
        obtain ⟨rfl, hrest⟩ := List.cons.inj hpolls
        have hnext := ih (h.poll (p := ⟨now, s⟩)) hstep hrest
        rwa [List.append_assoc] at hnext

end

/-- **A settled state is reported once.** A text is opened and anything is done to the session, with polls in between at
any readings of the clock. A poll returns a pair only if some earlier poll came by at least the delay sooner and every
poll from that one on saw the cursor and the revision of this one, and no poll since these last changed has fired. And
the first poll that comes by at least the delay later than the one that saw the present state first, every poll in
between having seen it too, fires and returns just what the session reports as the pair of braces at the cursor. -/
theorem settled_state_is_reported_once (t : Text) (l : Language) (c : Config) (ops : List Op)
    {before behind : List Poll} {p : Poll} (hpolls : (ofText t l c).polls ops = before ++ p :: behind) :
    (p.found.isSome = true →
      (∃ older q since, before = older ++ q :: since ∧ q.now + c.idleDelay ≤ p.now ∧ ∀ r ∈ q :: since,
        r.seen = p.seen) ∧
        ∀ r ∈ stretch before p.seen, r.fires = false) ∧
      ∀ q since, stretch before p.seen = q :: since → q.now + c.idleDelay ≤ p.now →
      (∀ r ∈ since, r.now < q.now + c.idleDelay) →
        p.fires = true ∧ p.found = p.session.matchingBracket.1 := by
  have hwatched : Watched c.idleDelay before p.session := (watched_ofText t l c).polls (sound_ofText t l c) hpolls
  refine ⟨fun hfound => ?_, fun q since hstretch hdue hearly => ?_⟩
  · have hfires : p.fires = true := by
      by_contra hno
      rw [p.found_eq, if_neg hno] at hfound
      cases hfound
    obtain ⟨q, since, hstretch, hdue, -⟩ := hwatched.fires_iff.1 hfires
    obtain ⟨⟨older, hbefore⟩, hsaw⟩ := stretch_eq_cons hstretch
    refine ⟨⟨older, q, since, hbefore, hdue, hsaw⟩, fun r hr => ?_⟩
    -- one that had fired would have disarmed the timer
    by_contra hfired
    have hseen : p.session.polled = some p.seen := by
      by_contra hne
      rw [Poll.fires_of_ne hne] at hfires
      cases hfires
    have hnone := hwatched.fired _ hseen r hr (Bool.not_eq_false _ ▸ hfired)
    rw [Poll.fires_of_eq hseen, Timer.fireIfDue_eq_true_iff, hnone] at hfires
    obtain ⟨_, ⟨⟩, -⟩ := hfires
  · have hfires : p.fires = true := hwatched.fires_iff.2 ⟨q, since, hstretch, hdue, hearly⟩
    rw [p.found_eq, if_pos hfires]
    exact ⟨hfires, rfl⟩

/-- the cursor behind the brace of a block, and a delay of 100: polls at 0 and 50 return nothing, the one at 150 returns
the brace and its partner, and the one at 300 nothing again -/
theorem partner_is_reported_after_delay :
    let opened := ofText "f() \x7b\n  g();\n\x7d".toList (.ofId (some "cpp")) .default
    let placed := opened.step (.buffer (.placeCursor 5))
    let waiting := (placed.step (.poll 0)).step (.poll 50)
    let before : List Poll := [⟨0, placed⟩, ⟨50, placed.step (.poll 0)⟩]
    let p : Poll := ⟨150, waiting⟩
    let last : Poll := ⟨300, waiting.step (.poll 150)⟩
    opened.polls [.buffer (.placeCursor 5), .poll 0, .poll 50, .poll 150, .poll 300] = before ++ p :: [last] ∧
      p.found = some (4, 13) ∧ p.fires = true ∧ (∀ r ∈ before, r.fires = false) ∧ last.found = none := by
  intro opened placed waiting before p last
  have hpolls : opened.polls [.buffer (.placeCursor 5), .poll 0, .poll 50, .poll 150, .poll 300] =
    before ++ p :: [last] := rfl
  have hstretch : stretch before p.seen = before := rfl
  obtain ⟨hreports, hfires⟩ := settled_state_is_reported_once _ _ _ _ hpolls
  obtain ⟨hfired, hpair⟩ := hfires _ _ hstretch (by decide) (by decide)
  have hfound : p.found = some (4, 13) := hpair.trans (by decide)
  have hsilent := (hreports (by rw [hfound]; rfl)).2
  exact ⟨hpolls, hfound, hfired, hstretch ▸ hsilent, by decide⟩

end Session

end CodeEditor
