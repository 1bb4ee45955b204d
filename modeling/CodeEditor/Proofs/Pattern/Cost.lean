import CodeEditor.Proofs.Pattern.Size
/-!
Patterns that are small enough.

How many states the machine of a pattern has depends on which of them the tables of shared states happen to find again.
But sharing only saves states. A state that is still a draft is paid for before it is built (`Draft.price`), and then
every byte range of a sequence is worth one state and one way on at most. So a set of characters has a price
(`Machine.setPrice`) that can be told without any table, and a pattern fits if the price of its blueprints is within the
limit (`Pattern.fits_of_price`).
-/

namespace CodeEditor

namespace Machine

variable {m : Machine} {Key : Type}

theorem size_add (m : Machine) (states extra : Nat) :
    (m.add states extra).size = m.size + (states * stateSize + extra) := by
  simp only [size, add, Nat.add_mul]
  omega

theorem checked?_of_size_le (h : m.size ≤ maxSize) : m.checked? = some m :=
  if_pos h

/-! ## Sharing saves states -/

theorem Shared.size_add (b : Shared Key) (slot : UInt64) (key : Key) (extra : Nat) :
    (b.add slot key extra).2.machine.size = b.machine.size + (stateSize + extra) := by
  rw [Shared.add, Machine.size_add, Nat.one_mul]

/-- a state that is shared is one state at most -/
theorem Shared.size_state [DecidableEq Key] (b : Shared Key) (places : UInt64) (numbers : List Nat) (key : Key)
    (extra : Nat) :
    (b.state places numbers key extra).2.machine.size ≤ b.machine.size + (stateSize + extra) := by
  unfold Shared.state
  dsimp only
  split
  · split_ifs
    · exact Nat.le_add_right _ _
    · rw [Shared.size_add]
  · rw [Shared.size_add]

/-- number of byte ranges of all sequences -/
def rangeCount (sequences : List ByteSequence) : Nat :=
  (sequences.map List.length).sum

/-! ### Forward -/

/-- the ways on of a draft, the pending one included -/
def Draft.waysOn (d : Draft) : Nat :=
  d.finished.length + d.pending.toList.length

/-- what a draft takes once it is finished, at most -/
def Draft.price (d : Draft) : Nat :=
  stateSize + d.waysOn * transitionSize

/-- what some drafts take once they are finished, at most -/
def prices (ds : List Draft) : Nat :=
  (ds.map Draft.price).sum

/-- what a byte range of a sequence takes, at most -/
def rangePrice : Nat :=
  stateSize + transitionSize

theorem Draft.length_close (d : Draft) (target : Nat) : (d.close target).length = d.waysOn := by
  unfold Draft.close Draft.waysOn
  cases d.pending <;> rfl

theorem size_stateOf (b : Shared (List Transition)) (ts : List Transition) :
    (stateOf b ts).2.machine.size ≤ b.machine.size + (stateSize + ts.length * transitionSize) :=
  b.size_state _ _ _ _

/-- drafts are finished for what was paid for them -/
theorem size_finish (target : Nat) (b : Shared (List Transition)) (ds : List Draft) :
    (finish target b ds).2.machine.size ≤ b.machine.size + prices ds := by
  induction ds with
  | nil => exact le_rfl
  | cons d ds ih =>
    have hstate := size_stateOf (finish target b ds).2 (d.close (finish target b ds).1).reverse
    rw [List.length_reverse, d.length_close] at hstate
    have hprices : prices (d :: ds) = d.price + prices ds := rfl
    calc (finish target b (d :: ds)).2.machine.size
        ≤ (finish target b ds).2.machine.size + d.price := hstate
      _ ≤ b.machine.size + prices (d :: ds) := by omega

theorem prices_fresh (rest : ByteSequence) : prices (rest.map (⟨[], some ·⟩)) = rest.length * rangePrice := by
  have hfresh : Draft.price ∘ (fun bytes => ⟨[], some bytes⟩) = fun _ : ByteRange => rangePrice := rfl
  rw [prices, List.map_map, hfresh, List.map_const', List.sum_replicate_nat]

/-- **A sequence** pays for the drafts that it leaves behind, one price for each of its ranges. -/
theorem size_follow (target : Nat) (b : Shared (List Transition)) (ds : List Draft) (s : ByteSequence) :
    (follow target b ds s).2.machine.size + prices (follow target b ds s).1 ≤
      b.machine.size + prices ds + s.length * rangePrice := by
  induction ds generalizing s with
  | nil => exact Nat.le_add_right _ _
  | cons d ds ih =>
    cases s with
    | nil => exact Nat.le_add_right _ _
    | cons bytes rest =>
      have hprices : ∀ (d : Draft) ds, prices (d :: ds) = d.price + prices ds := fun _ _ => rfl
      have hlength : (bytes :: rest).length * rangePrice = rest.length * rangePrice + rangePrice := by
        rw [List.length_cons, Nat.succ_mul]
      rw [follow]
      split_ifs
      · -- the sequence goes on as the last one did
        have hrest := ih rest
        dsimp only
        rw [hprices, hprices, hlength]
        omega
      · -- it leaves the way of the last one: what is behind is finished, and the rest of the sequence is a new way
        have hfinish := size_finish target b ds
        have hdraft : Draft.price ⟨d.close (finish target b ds).1, some bytes⟩ = d.price + transitionSize := by
          rw [Draft.price, Draft.waysOn, d.length_close, Draft.price, Nat.add_assoc]
          exact congrArg (stateSize + ·) (Nat.succ_mul _ _)
        dsimp only
        rw [hprices, hprices, prices_fresh, hdraft, hlength, rangePrice]
        omega

theorem size_foldl_follow (target : Nat) (sequences : List ByteSequence) (x : List Draft × Shared (List Transition)) :
    let y := sequences.foldl (fun x s => follow target x.2 x.1 s) x
    y.2.machine.size + prices y.1 ≤ x.2.machine.size + prices x.1 + rangeCount sequences * rangePrice := by
  induction sequences generalizing x with
  | nil => exact Nat.le_add_right _ _
  | cons s sequences ih =>
    have hfirst := size_follow target x.2 x.1 s
    have hrest := ih (follow target x.2 x.1 s)
    have hcount : rangeCount (s :: sequences) = s.length + rangeCount sequences := rfl
    rw [List.foldl_cons, hcount, Nat.add_mul]
    dsimp only at hrest ⊢
    omega

theorem size_addForward (m : Machine) (sequences : List ByteSequence) :
    (m.addForward sequences).size ≤ m.size + (2 * stateSize + rangeCount sequences * rangePrice) := by
  let start : List Draft × Shared (List Transition) := ([⟨[], none⟩], ⟨m.add 1 0, ∅⟩)
  let y := sequences.foldl (fun x s => follow m.states x.2 x.1 s) start
  have hfollow : y.2.machine.size + prices y.1 ≤ (m.add 1 0).size + stateSize + rangeCount sequences * rangePrice :=
    size_foldl_follow m.states sequences start
  rw [size_add] at hfollow
  calc (m.addForward sequences).size
      ≤ y.2.machine.size + prices y.1 := size_finish m.states y.2 y.1
    _ ≤ m.size + (2 * stateSize + rangeCount sequences * rangePrice) := by omega

/-! ### Backward -/

theorem size_wayOf (b : Shared (Nat × ByteRange)) (target : Nat) (s : ByteSequence) :
    (wayOf b target s).2.machine.size ≤ b.machine.size + s.length * rangePrice := by
  induction s generalizing b target with
  | nil => exact Nat.le_add_right _ _
  | cons bytes rest ih =>
    have hfirst := b.size_state wayPlaces [target, bytes.1, bytes.2] (target, bytes) 0
    have hrest := ih (b.state wayPlaces [target, bytes.1, bytes.2] (target, bytes) 0).2
      (b.state wayPlaces [target, bytes.1, bytes.2] (target, bytes) 0).1
    rw [wayOf, List.length_cons, Nat.succ_mul]
    refine hrest.trans ?_
    rw [rangePrice] at *
    omega

theorem size_foldl_wayOf (target : Nat) (sequences : List ByteSequence) (b : Shared (Nat × ByteRange)) :
    (sequences.foldl (fun b s => (wayOf b target s).2) b).machine.size ≤
      b.machine.size + rangeCount sequences * rangePrice := by
  induction sequences generalizing b with
  | nil => exact Nat.le_add_right _ _
  | cons s sequences ih =>
    have hfirst := size_wayOf b target s
    have hrest := ih (wayOf b target s).2
    have hcount : rangeCount (s :: sequences) = s.length + rangeCount sequences := rfl
    rw [List.foldl_cons, hcount, Nat.add_mul]
    omega

theorem size_addBackward (m : Machine) (sequences : List ByteSequence) :
    (m.addBackward sequences).size ≤
      m.size + (2 * stateSize + sequences.length * choiceSize + rangeCount sequences * rangePrice) := by
  have hways := size_foldl_wayOf ((m.add 2 (sequences.length * choiceSize)).states - 1) sequences
    ⟨m.add 2 (sequences.length * choiceSize), ∅⟩
  rw [size_add] at hways
  rw [addBackward]
  omega

/-! ### Sets -/

/-- what reading a character of a set takes, at most -/
def setPrice (ranges : Ranges) (sequences : List ByteSequence) : Nat :=
  2 * stateSize + ranges.length * transitionSize + sequences.length * choiceSize + rangeCount sequences * rangePrice

theorem size_addSet (m : Machine) (direction : Direction) (ranges : Ranges) (sequences : List ByteSequence) :
    (m.addSet direction ranges sequences).size ≤ m.size + setPrice ranges sequences := by
  have hforward := m.size_addForward sequences
  have hbackward := m.size_addBackward sequences
  unfold setPrice addSet
  split_ifs
  · rw [size_add]
    omega
  · cases direction <;> dsimp only <;> omega

end Machine

/-! ## Blueprints and patterns -/

namespace Blueprint

/-- what building takes, at most -/
def price : Blueprint → Nat
  | part states extra => states * Machine.stateSize + extra
  | set ranges sequences => Machine.setPrice ranges sequences
  | both p q => p.price + q.price
  | copies count p => count * p.price

variable {direction : Direction} {m : Machine}

/-- what stays within the limit is built, for its price at most -/
theorem exists_buildCopies? {build? : Machine → Option Machine} {price : Nat}
    (hbuild : ∀ m : Machine, m.size + price ≤ Machine.maxSize → ∃ n, build? m = some n ∧ n.size ≤ m.size + price)
    (count : Nat) (h : m.size + count * price ≤ Machine.maxSize) :
    ∃ n, buildCopies? build? count m = some n ∧ n.size ≤ m.size + count * price := by
  induction count generalizing m with
  | zero => exact ⟨m, rfl, Nat.le_add_right _ _⟩
  | succ count ih =>
    rw [Nat.succ_mul] at h ⊢
    obtain ⟨n, hn, hsize⟩ := hbuild m (by omega)
    obtain ⟨n', hn', hsize'⟩ := ih (m := n) (by omega)
    refine ⟨n', ?_, by omega⟩
    rw [buildCopies?, hn]
    exact hn'

/-- **What can be paid for is built.** -/
theorem exists_build? (p : Blueprint) (h : m.size + p.price ≤ Machine.maxSize) :
    ∃ n, p.build? direction m = some n ∧ n.size ≤ m.size + p.price := by
  induction p generalizing m with
  | part states extra =>
    rw [price, ← Machine.size_add] at h ⊢
    exact ⟨_, Machine.checked?_of_size_le h, le_rfl⟩
  | set ranges sequences =>
    have hsize := m.size_addSet direction ranges sequences
    exact ⟨_, Machine.checked?_of_size_le (hsize.trans h), hsize⟩
  | both p q hp hq =>
    rw [price] at h ⊢
    obtain ⟨n, hn, hsize⟩ := hp (m := m) (by omega)
    obtain ⟨n', hn', hsize'⟩ := hq (m := n) (by omega)
    exact ⟨n', by rw [build?, hn, Option.bind_some, hn'], by omega⟩
  | copies count p ih => exact exists_buildCopies? (fun _ hm => ih hm) count h

end Blueprint

/-- **A pattern fits** if both of its machines can be paid for. -/
theorem Pattern.fits_of_price {p : Pattern} (h : ∀ direction, (p.blueprint direction).price ≤ Machine.maxSize) :
    p.fits = true := by
  have hbuilt : ∀ direction, ((p.blueprint direction).build? direction .empty).isSome = true := by
    intro direction
    have hpaid : Machine.empty.size + (p.blueprint direction).price ≤ Machine.maxSize := by
      rw [show Machine.empty.size = 0 from rfl, Nat.zero_add]
      exact h direction
    obtain ⟨n, hn, -⟩ := (p.blueprint direction).exists_build? hpaid
    rw [hn]
    rfl
  rw [fits, hbuilt .forward, hbuilt .backward]
  rfl

end CodeEditor
