import ManagementBus.Queue

/-!
# What goes into a queue comes out of it

Beside a queue we keep two histories of the operations on it: the items that it has *taken in*, and
those that it has *given up*, because they were asked for or discarded. Both are read off the
answers that the operations give. One operation leaves the items given up, followed by those that
wait, what they were, followed by those taken in; so does a run of operations, and nothing is lost,
doubled or put in another place.

An item goes in only where the queue is open and has room. This keeps the bound, and once the queue
is closed nothing goes in any more.

## Main results

* `givesUp_append_items`: what one operation does to the items.
* `givenUp_append_items`: what a run does to them.
* `queue_contract`: the state of a queue after any operations.
-/

namespace ManagementBus.Queue

variable {α : Type} {q : Queue α} {x : α}

/-! ### Offers -/

/-- What is put into a queue is in it, or the queue is as it was. -/
theorem put_cases (q : Queue α) (x : α) :
    ((q.put x).2 = .accepted ∧ (q.put x).1 = { q with items := q.items ++ [x] }) ∨
      ((q.put x).2 ≠ .accepted ∧ (q.put x).1 = q) := by
  rw [put]
  split
  · exact .inr ⟨by simp, rfl⟩
  · split
    · exact .inr ⟨by simp, rfl⟩
    · exact .inl ⟨rfl, rfl⟩

/-- A queue takes what it is offered without being closed or opened. -/
theorem closed_put (q : Queue α) (x : α) : (q.put x).1.closed = q.closed := by
  rcases q.put_cases x with ⟨-, h⟩ | ⟨-, h⟩
  · rw [h]
  · rw [h]

/-- An item goes in just if the queue is open and has room. -/
theorem put_accepted_iff :
    (q.put x).2 = .accepted ↔ q.closed = false ∧ q.items.length < q.capacity := by
  rw [put]
  split
  · next hclosed => simp [hclosed]
  · next hopen =>
      split
      · next hfull =>
          have hle : q.capacity ≤ q.items.length := by simpa [isFull] using hfull
          simp [Nat.not_lt.mpr hle]
      · next hroom =>
          have hlt : q.items.length < q.capacity := by simpa [isFull] using hroom
          simp [hlt, hopen]

/-- A closed queue says so to whom puts an item. -/
theorem put_of_closed (h : q.closed = true) : q.put x = (q, .closed) := by
  rw [put, if_pos h]

/-- The two ways to offer an item differ in what they hand back. -/
theorem tryPut_eq (q : Queue α) (x : α) :
    q.tryPut x = ((q.put x).1, if (q.put x).2 = .accepted then none else some x) := by
  rw [tryPut]
  generalize q.put x = r
  obtain ⟨p, outcome⟩ := r
  cases outcome <;> rfl

/-- An item is not handed back just when the queue is open and has room. -/
theorem tryPut_accepted_iff :
    (q.tryPut x).2 = none ↔ q.closed = false ∧ q.items.length < q.capacity := by
  rw [tryPut_eq, ← put_accepted_iff (x := x)]
  split
  · next h => simp [h]
  · next h => simp [h]

/-! ### Operations -/

/-- An operation on a queue. -/
inductive Operation (α : Type) where
  | put (x : α)
  | tryPut (x : α)
  | get
  | purge
  | close
deriving DecidableEq

/-- The queue after an operation. -/
def apply (q : Queue α) : Operation α → Queue α
  | .put x => (q.put x).1
  | .tryPut x => (q.tryPut x).1
  | .get => q.get.1
  | .purge => q.purge.1
  | .close => q.close

/-- The item that an operation says has gone in. -/
def takesIn (q : Queue α) : Operation α → List α
  | .put x => if (q.put x).2 = .accepted then [x] else []
  | .tryPut x => if (q.tryPut x).2.isNone then [x] else []
  | .get | .purge | .close => []

/-- The items that an operation returns or discards. -/
def givesUp (q : Queue α) : Operation α → List α
  | .get => q.get.2.toList
  | .purge => q.items
  | .put _ | .tryPut _ | .close => []

/-- The queue after some operations. -/
def run (q : Queue α) (ops : List (Operation α)) : Queue α :=
  ops.foldl apply q

/-- The items that have gone in during some operations, in the order in which they did. -/
def takenIn : Queue α → List (Operation α) → List α
  | _, [] => []
  | q, op :: ops => q.takesIn op ++ (q.apply op).takenIn ops

/-- The items returned or discarded during some operations, in the order in which they were. -/
def givenUp : Queue α → List (Operation α) → List α
  | _, [] => []
  | q, op :: ops => q.givesUp op ++ (q.apply op).givenUp ops

/-! ### What one operation does -/

section Step

variable (q : Queue α) (op : Operation α)

/-- **What one operation does to the items.** -/
theorem givesUp_append_items : q.givesUp op ++ (q.apply op).items = q.items ++ q.takesIn op := by
  cases op with
  | put x =>
      have hitems := q.items_put x
      by_cases haccepted : (q.put x).2 = .accepted
      · rw [if_pos haccepted] at hitems
        simp [givesUp, apply, takesIn, haccepted, hitems]
      · rw [if_neg haccepted] at hitems
        simp [givesUp, apply, takesIn, haccepted, hitems]
  | tryPut x =>
      have hitems := q.items_tryPut x
      by_cases haccepted : (q.tryPut x).2.isNone
      · rw [if_pos haccepted] at hitems
        simp [givesUp, apply, takesIn, haccepted, hitems]
      · rw [if_neg haccepted] at hitems
        simp [givesUp, apply, takesIn, haccepted, hitems]
  | get =>
      rw [takesIn, List.append_nil]
      show q.items.head?.toList ++ q.items.tail = q.items
      cases q.items <;> rfl
  | purge => rfl
  | close => simp [givesUp, apply, takesIn]

/-- No operation changes how much a queue holds. -/
theorem capacity_apply : (q.apply op).capacity = q.capacity := by
  cases op with
  | put x =>
      rcases q.put_cases x with ⟨-, h⟩ | ⟨-, h⟩
      · rw [apply, h]
      · rw [apply, h]
  | tryPut x =>
      rw [apply, tryPut_eq]
      rcases q.put_cases x with ⟨-, h⟩ | ⟨-, h⟩
      · rw [h]
      · rw [h]
  | get | purge | close => rfl

/-- Only closing closes a queue, and a closed queue stays so. -/
theorem closed_apply_iff : (q.apply op).closed = true ↔ q.closed = true ∨ op = .close := by
  cases op with
  | put x => simp [apply, closed_put]
  | tryPut x => simp [apply, tryPut_eq, closed_put]
  | get | purge => simp [apply, get, purge]
  | close => simp [apply, close]

/-- An operation takes nothing in, or one item into an open queue that has room. -/
theorem takesIn_cases : q.takesIn op = [] ∨
    q.closed = false ∧ q.items.length < q.capacity ∧ ∃ x, q.takesIn op = [x] := by
  cases op with
  | put x =>
      rw [takesIn]
      split
      · next haccepted =>
          obtain ⟨hopen, hroom⟩ := put_accepted_iff.mp haccepted
          exact .inr ⟨hopen, hroom, x, rfl⟩
      · exact .inl rfl
  | tryPut x =>
      rw [takesIn]
      split
      · next haccepted =>
          obtain ⟨hopen, hroom⟩ := tryPut_accepted_iff.mp (Option.isNone_iff_eq_none.mp haccepted)
          exact .inr ⟨hopen, hroom, x, rfl⟩
      · exact .inl rfl
  | get | purge | close => exact .inl rfl

/-- An operation keeps a queue within its bound. -/
theorem length_apply_le (h : q.items.length ≤ q.capacity) :
    (q.apply op).items.length ≤ q.capacity := by
  have hlengths := congrArg List.length (q.givesUp_append_items op)
  rw [List.length_append, List.length_append] at hlengths
  rcases q.takesIn_cases op with hnone | ⟨-, hroom, x, hone⟩
  · rw [hnone, List.length_nil] at hlengths
    omega
  · rw [hone, List.length_singleton] at hlengths
    omega

end Step

/-! ### What a run does -/

section Run

variable {ops : List (Operation α)}

/-- **What a run does to the items.** -/
theorem givenUp_append_items (q : Queue α) (ops : List (Operation α)) :
    q.givenUp ops ++ (q.run ops).items = q.items ++ q.takenIn ops := by
  induction ops generalizing q with
  | nil => simp [givenUp, takenIn, run]
  | cons op ops ih =>
      have hrun : q.run (op :: ops) = (q.apply op).run ops := rfl
      calc q.givenUp (op :: ops) ++ (q.run (op :: ops)).items
          = q.givesUp op ++ ((q.apply op).givenUp ops ++ ((q.apply op).run ops).items) := by
            rw [givenUp, hrun, List.append_assoc]
        _ = q.givesUp op ++ (q.apply op).items ++ (q.apply op).takenIn ops := by
            rw [ih, List.append_assoc]
        _ = q.items ++ q.takenIn (op :: ops) := by
            rw [givesUp_append_items, takenIn, List.append_assoc]

/-- No sequence of operations changes how much a queue holds. -/
theorem capacity_run (q : Queue α) (ops : List (Operation α)) :
    (q.run ops).capacity = q.capacity := by
  induction ops generalizing q with
  | nil => rfl
  | cons op ops ih => exact (ih (q.apply op)).trans (q.capacity_apply op)

/-- In every sequence of operations a queue stays within its bound. -/
theorem length_run_le (h : q.items.length ≤ q.capacity) :
    (q.run ops).items.length ≤ q.capacity := by
  induction ops generalizing q with
  | nil => exact h
  | cons op ops ih =>
      have hcapacity := q.capacity_apply op
      have hlength := q.length_apply_le op h
      rw [← hcapacity] at hlength ⊢
      exact ih hlength

/-- A queue is closed by being closed, and not opened again. -/
theorem closed_run (q : Queue α) (ops : List (Operation α)) :
    (q.run ops).closed = true ↔ q.closed = true ∨ .close ∈ ops := by
  induction ops generalizing q with
  | nil => simp [run]
  | cons op ops ih =>
      have hrun : q.run (op :: ops) = (q.apply op).run ops := rfl
      rw [hrun, ih, closed_apply_iff, List.mem_cons, or_assoc, eq_comm (b := op)]

/-- **Nothing goes into a closed queue.** -/
theorem takenIn_of_closed (h : q.closed = true) : q.takenIn ops = [] := by
  induction ops generalizing q with
  | nil => rfl
  | cons op ops ih =>
      have hnone : q.takesIn op = [] := by
        rcases q.takesIn_cases op with hnone | ⟨hopen, -⟩
        · exact hnone
        · rw [h] at hopen
          cases hopen
      have hstill : (q.apply op).closed = true := (q.closed_apply_iff op).mpr (.inl h)
      rw [takenIn, hnone, ih hstill, List.append_nil]

end Run

/-- **What a queue guarantees after any operations.** It holds no more items than its capacity. The
items that have gone in, in the order in which they did, are those returned or discarded, in that
order, followed by those that still wait. An item that is offered goes in just if the queue is open
and has room; otherwise nothing changes, and who cannot wait has the item back. Who asks for an item
gets the oldest, and a purge reports how many items it has discarded. The queue is closed once it
has been told so; from then on it takes nothing in, says this to whom puts an item, and gives up in
their order the items that were there. -/
theorem queue_contract (capacity : Nat) (ops : List (Operation α)) :
    let q : Queue α := (new capacity).run ops
    q.items.length ≤ max capacity 1 ∧
      (new capacity).takenIn ops = (new capacity).givenUp ops ++ q.items ∧
      (∀ x, ((q.put x).2 = .accepted ↔ q.closed = false ∧ q.items.length < max capacity 1) ∧
        ((q.put x).2 ≠ .accepted → (q.put x).1 = q)) ∧
      (∀ x, ((q.tryPut x).2 = none ↔ q.closed = false ∧ q.items.length < max capacity 1) ∧
        ((q.tryPut x).2 ≠ none → q.tryPut x = (q, some x))) ∧
      q.get.2 = q.items.head? ∧
      q.purge.2 = (q.givesUp .purge).length ∧
      (q.closed = true ↔ .close ∈ ops) ∧
      (q.closed = true → (∀ x, q.put x = (q, .closed)) ∧
        ∀ later, q.takenIn later = [] ∧ q.givenUp later ++ (q.run later).items = q.items) := by
  intro q
  have hcapacity : q.capacity = max capacity 1 := (new capacity).capacity_run ops
  refine ⟨?bound, ?history, fun x => ⟨?puts, ?refuses⟩, fun x => ⟨?tries, ?back⟩, rfl, rfl, ?closes,
    fun hclosed => ⟨fun x => put_of_closed hclosed, fun later => ?remains⟩⟩
  case bound =>
    exact length_run_le (Nat.zero_le _)
  case history =>
    exact ((new capacity).givenUp_append_items ops).symm
  case puts =>
    rw [put_accepted_iff, hcapacity]
  case refuses =>
    intro hrefused
    rcases q.put_cases x with ⟨haccepted, -⟩ | ⟨-, hsame⟩
    · exact absurd haccepted hrefused
    · exact hsame
  case tries =>
    rw [tryPut_accepted_iff, hcapacity]
  case back =>
    intro hback
    rw [tryPut_eq] at hback ⊢
    rcases q.put_cases x with ⟨haccepted, -⟩ | ⟨hrefused, hsame⟩
    · rw [if_pos haccepted] at hback
      exact absurd rfl hback
    · rw [if_neg hrefused, hsame]
  case closes =>
    have hopen : (new capacity : Queue α).closed = false := rfl
    rw [closed_run, hopen, Bool.false_eq_true, false_or]
  case remains =>
    refine ⟨takenIn_of_closed hclosed, ?_⟩
    rw [givenUp_append_items, takenIn_of_closed hclosed, List.append_nil]

/-- Two of four items go in, and come out although the queue has been closed in the meantime. -/
example :
    let q : Queue Nat := new 2
    let ops : List (Operation Nat) :=
      [.put 1, .tryPut 2, .put 3, .get, .close, .tryPut 4, .get, .get]
    q.takenIn ops = [1, 2] ∧ q.givenUp ops = [1, 2] ∧ (q.run ops).items = [] := by
  decide

end ManagementBus.Queue
