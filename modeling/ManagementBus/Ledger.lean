import ManagementBus.Message
import ManagementBus.SequenceTable

/-!
# Ledgers of pending requests

A bus keeps the requests that it has put on the wire, oldest first, until the response arrives, a
newer request pushes them out, or they grow too old. A request is *staged* before its write, so
that the ledger may for a while hold one entry too many; the write then *commits* it, at the cost
of the oldest entries, or fails and *withdraws* it.

The sequence number of an entry is in flight while the entry is there. Operations that drop
entries return them, oldest first.

A ledger is shared, and guards its entries and numbers with a lock of its own, which an operation
holds from its beginning to its end. So each operation is one step here. That an operation gives up
waiting for this lock, and fails with a lock timeout, is left out.

## Main statements

* `entries_stage`, `entries_commit`, `entries_withdraw`, `entries_expire`: the effect of each
  operation on the list of entries.
-/

namespace ManagementBus

/-- How a query names the pending request that it is about. -/
inductive Correlation where
  /-- As its response: the function before the query's, the command, and the sequence number under
  which the request is pending. -/
  | response
  /-- As its originator does: function, command, and the originator's sequence number. -/
  | bridgeSource
deriving DecidableEq

namespace Correlation

/-- Whether an entry is one that the query names. -/
def names (how : Correlation) (query entry : Message) : Bool :=
  match how with
  | response =>
    entry.netFn == query.netFn - 1 && entry.cmd == query.cmd && entry.seqTarget == query.seqTarget
  | bridgeSource =>
    entry.netFn == query.netFn && entry.cmd == query.cmd && entry.seqSource == query.seqSource

/-- The query with the routing data of the entry that it names: the two channels, and the sequence
number that the query does not know. -/
def complete (how : Correlation) (query entry : Message) : Message :=
  let routed := { query with infSource := entry.infSource, infTarget := entry.infTarget }
  match how with
  | response => { routed with seqSource := entry.seqSource }
  | bridgeSource => { routed with seqTarget := entry.seqTarget }

end Correlation

/-- The requests pending on a bus, as they are while nobody holds the lock of the ledger. No
operation here fails to get that lock. -/
structure Ledger where
  /-- The pending requests, oldest first. -/
  entries : List Message
  numbers : SequenceTable
  /-- The number of requests that stay pending together. -/
  capacity : Nat
deriving DecidableEq

namespace Ledger

/-- The default number of requests pending together. -/
def defaultCapacity : Nat := 15

/-- An empty ledger for at least one request. -/
def new (capacity : Nat) : Ledger :=
  { entries := [], numbers := .empty, capacity := max capacity 1 }

/-- The sequence number under which an entry is in flight. -/
def slot (entry : Message) : SequenceNumber :=
  SequenceNumber.ofByte entry.seqTarget

/-- Draws a sequence number for a request. -/
def nextSequence (l : Ledger) : Ledger × SequenceNumber :=
  let (numbers, n) := l.numbers.next
  ({ l with numbers }, n)

/-- Makes the numbers of some entries free. -/
def releaseAll (numbers : SequenceTable) (dropped : List Message) : SequenceTable :=
  dropped.foldl (fun t entry => t.release (slot entry)) numbers

/-- Records a request at a tick, ahead of its write. -/
def stage (l : Ledger) (m : Message) (now : UInt32) : Ledger :=
  let entry := { m with timestamp := now }
  { l with entries := l.entries ++ [entry], numbers := l.numbers.register (slot entry) }

/-- The number of entries over capacity. -/
def excess (l : Ledger) : Nat :=
  l.entries.length - l.capacity

/-- Confirms the write of a staged request: entries over capacity are dropped. -/
def commit (l : Ledger) : Ledger × List Message :=
  let dropped := l.entries.take l.excess
  ({ l with entries := l.entries.drop l.excess, numbers := releaseAll l.numbers dropped }, dropped)

/-- Records a request and makes room for it at once. -/
def insert (l : Ledger) (m : Message) (now : UInt32) : Ledger × List Message :=
  (l.stage m now).commit

/-- Removes the oldest entry with a property and returns it. -/
def extract (l : Ledger) (p : Message → Bool) : Ledger × Option Message :=
  match l.entries.find? p with
  | some entry =>
    ({ l with entries := l.entries.eraseP p, numbers := l.numbers.release (slot entry) },
      some entry)
  | none => (l, none)

/-- Removes the oldest request that the query names, and completes the query from it. -/
def findAndRemove (l : Ledger) (query : Message) (how : Correlation) : Ledger × Option Message :=
  let (l, found) := l.extract (how.names query)
  (l, found.map (how.complete query))

/-- Whether an entry is the request with a given function, command and pending number. -/
def isRequest (m entry : Message) : Bool :=
  entry.netFn == m.netFn && entry.cmd == m.cmd && entry.seqTarget == m.seqTarget

/-- Withdraws a request, and says whether it was pending. -/
def withdraw (l : Ledger) (m : Message) : Ledger × Bool :=
  let (l, found) := l.extract (isRequest m)
  (l, found.isSome)

/-- Whether an entry is older than the timeout. Ages are differences of ticks, which wrap around;
an age with the top bit set is that of a tick still to come, and counts as too old. -/
def isStale (now timeout : UInt32) (entry : Message) : Bool :=
  let age := now - entry.timestamp
  timeout < age || 0x80000000 ≤ age

/-- Drops the entries older than a timeout. -/
def expire (l : Ledger) (now timeout : UInt32) : Ledger × List Message :=
  let dropped := l.entries.filter (isStale now timeout)
  ({ l with
      entries := l.entries.filter fun entry => !isStale now timeout entry
      numbers := releaseAll l.numbers dropped },
    dropped)

/-! ### The effect on the entries -/

/-- A new ledger has nothing pending. -/
@[simp] theorem entries_new (capacity : Nat) : (new capacity).entries = [] := rfl

/-- Drawing a number records nothing. -/
@[simp] theorem entries_nextSequence (l : Ledger) : l.nextSequence.1.entries = l.entries := rfl

/-- A request that is staged is the newest entry, stamped with the tick. -/
@[simp] theorem entries_stage (l : Ledger) (m : Message) (now : UInt32) :
    (l.stage m now).entries = l.entries ++ [{ m with timestamp := now }] := rfl

/-- A write that succeeds drops the oldest entries over capacity. -/
@[simp] theorem entries_commit (l : Ledger) :
    l.commit.1.entries = l.entries.drop (l.entries.length - l.capacity) := rfl

/-- What is extracted is the oldest entry with the property. -/
theorem entries_extract (l : Ledger) (p : Message → Bool) :
    (l.extract p).1.entries = l.entries.eraseP p := by
  unfold extract
  split
  · rfl
  · next h => exact (List.eraseP_of_forall_not (by simpa using List.find?_eq_none.1 h)).symm

/-- What is returned is that entry. -/
@[simp] theorem extract_snd (l : Ledger) (p : Message → Bool) :
    (l.extract p).2 = l.entries.find? p := by
  unfold extract
  split
  · next h => exact h.symm
  · next h => exact h.symm

/-- A withdrawn request is the oldest entry with its function, command and number. -/
@[simp] theorem entries_withdraw (l : Ledger) (m : Message) :
    (l.withdraw m).1.entries = l.entries.eraseP (isRequest m) :=
  entries_extract l _

/-- A query removes the oldest entry that it names. -/
@[simp] theorem entries_findAndRemove (l : Ledger) (query : Message) (how : Correlation) :
    (l.findAndRemove query how).1.entries = l.entries.eraseP (how.names query) :=
  entries_extract l _

/-- What remains after a sweep is what is not stale. -/
@[simp] theorem entries_expire (l : Ledger) (now timeout : UInt32) :
    (l.expire now timeout).1.entries =
      l.entries.filter fun entry => !isStale now timeout entry := rfl

end Ledger

end ManagementBus
