/-!
# Bounded queues

A first-in, first-out queue that holds a bounded number of items until it is closed. A closed queue
takes nothing any more and still gives what it holds.

An item is offered in two ways. `put` is for those who can wait: it says whether the item went in,
and otherwise why not. `tryPut` is for those who cannot: it hands the item back.

## Main statements

* `items_put`, `items_tryPut`, `items_get`: the effect of each operation on the items.
-/

namespace ManagementBus

/-- A bounded queue, with its oldest item first. -/
structure Queue (α : Type) where
  items : List α
  capacity : Nat
  closed : Bool := false
deriving DecidableEq

/-- What becomes of an item that is put into a queue. -/
inductive Put where
  | accepted
  /-- There is no room now; who put the item has to wait. -/
  | full
  | closed
deriving DecidableEq

namespace Queue

variable {α : Type}

/-- An empty open queue for at least one item. -/
def new (capacity : Nat) : Queue α :=
  { items := [], capacity := max capacity 1 }

/-- The number of items waiting. -/
def length (q : Queue α) : Nat := q.items.length

/-- Whether there is no room for another item. -/
def isFull (q : Queue α) : Bool := q.capacity ≤ q.items.length

/-- Puts an item behind the others, unless the queue is closed or full. -/
def put (q : Queue α) (x : α) : Queue α × Put :=
  if q.closed then (q, .closed)
  else if q.isFull then (q, .full)
  else ({ q with items := q.items ++ [x] }, .accepted)

/-- Puts an item behind the others, or hands it back. -/
def tryPut (q : Queue α) (x : α) : Queue α × Option α :=
  match q.put x with
  | (q, .accepted) => (q, none)
  | (q, _) => (q, some x)

/-- Takes the oldest item. -/
def get (q : Queue α) : Queue α × Option α :=
  ({ q with items := q.items.tail }, q.items.head?)

/-- Discards all items, and says how many there were. -/
def purge (q : Queue α) : Queue α × Nat :=
  ({ q with items := [] }, q.items.length)

/-- Closes the queue for good. -/
def close (q : Queue α) : Queue α :=
  { q with closed := true }

/-! ### The effect on the items -/

/-- A new queue is empty. -/
@[simp] theorem items_new (capacity : Nat) : (new capacity : Queue α).items = [] := rfl

/-- A queue that is closed still holds what it held. -/
@[simp] theorem items_close (q : Queue α) : q.close.items = q.items := rfl

/-- Nothing is left in a queue that has been purged. -/
@[simp] theorem items_purge (q : Queue α) : q.purge.1.items = [] := rfl

/-- What is taken is the oldest item. -/
@[simp] theorem items_get (q : Queue α) : q.get.1.items = q.items.tail := rfl

/-- An item goes behind the others if it is accepted, and otherwise the queue is unchanged. -/
theorem items_put (q : Queue α) (x : α) :
    (q.put x).1.items = if (q.put x).2 = .accepted then q.items ++ [x] else q.items := by
  unfold put
  split
  · rfl
  · split <;> rfl

/-- An item that is handed back when there is no place for it is at the end of the queue otherwise.
-/
theorem items_tryPut (q : Queue α) (x : α) :
    (q.tryPut x).1.items = if (q.tryPut x).2.isNone then q.items ++ [x] else q.items := by
  have h := items_put q x
  unfold tryPut
  generalize q.put x = r at h ⊢
  obtain ⟨p, outcome⟩ := r
  cases outcome <;> simpa using h

/-- An open queue with room takes the item. -/
theorem put_of_room {q : Queue α} (x : α) (hopen : q.closed = false)
    (hroom : q.items.length < q.capacity) :
    q.put x = ({ q with items := q.items ++ [x] }, .accepted) := by
  simp [put, hopen, isFull, Nat.not_le.2 hroom]

end Queue

end ManagementBus
