/-!
# Sequence numbers

A bus has sixty-four sequence numbers. The table knows which of them are in flight and hands out
the free ones in turn: the cursor rests on the number that was given last, and the next one given
is the first free number after it, counting around. When every number is in flight the cursor's
own number is given again.

## Main statements

* `isBusy_register`, `isBusy_release`: the effect of an operation on each number.
-/

namespace ManagementBus

/-- A sequence number, as it fits into the six bits that a frame has for it. -/
abbrev SequenceNumber := Fin 64

namespace SequenceNumber

/-- The low six bits of a byte. -/
def ofByte (b : UInt8) : SequenceNumber := Fin.ofNat 64 b.toNat

/-- The number as a byte. -/
def toByte (n : SequenceNumber) : UInt8 := UInt8.ofNat n.val

end SequenceNumber

/-- Which sequence numbers are in flight, and the one given last. -/
structure SequenceTable where
  busy : BitVec 64 := 0#64
  cursor : SequenceNumber := 0
deriving DecidableEq

namespace SequenceTable

/-- The table with every number free. -/
def empty : SequenceTable := {}

/-- Whether a number is in flight. -/
def isBusy (t : SequenceTable) (n : SequenceNumber) : Bool :=
  t.busy.getLsbD n

/-- Puts a number in flight. -/
def register (t : SequenceTable) (n : SequenceNumber) : SequenceTable :=
  { t with busy := t.busy ||| BitVec.twoPow 64 n }

/-- Makes a number free. -/
def release (t : SequenceTable) (n : SequenceNumber) : SequenceTable :=
  { t with busy := t.busy &&& ~~~BitVec.twoPow 64 n }

/-- The numbers in flight, in order. -/
def inFlight (t : SequenceTable) : List SequenceNumber :=
  (List.finRange 64).filter t.isBusy

/-- All numbers in the order in which they are tried: from the one after the cursor around to the
cursor itself. -/
def turn (t : SequenceTable) : List SequenceNumber :=
  (List.range 64).map fun k => t.cursor + Fin.ofNat 64 (k + 1)

/-- The first free number after the cursor, if any is free. -/
def nextFree? (t : SequenceTable) : Option SequenceNumber :=
  t.turn.find? fun n => !t.isBusy n

/-- Whether all numbers are in flight. -/
def exhausted (t : SequenceTable) : Bool :=
  t.nextFree?.isNone

/-- Gives out a number and moves the cursor to it. -/
def next (t : SequenceTable) : SequenceTable × SequenceNumber :=
  let n := t.nextFree?.getD t.cursor
  ({ t with cursor := n }, n)

/-! ### The effect on each number -/

/-- Registering makes one number busy and leaves the others alone. -/
@[simp] theorem isBusy_register (t : SequenceTable) (n k : SequenceNumber) :
    (t.register n).isBusy k = (t.isBusy k || decide (k = n)) := by
  simp [isBusy, register, Fin.ext_iff, eq_comm]

/-- Releasing makes one number free and leaves the others alone. -/
@[simp] theorem isBusy_release (t : SequenceTable) (n k : SequenceNumber) :
    (t.release n).isBusy k = (t.isBusy k && !decide (k = n)) := by
  simp [isBusy, release, Fin.ext_iff, eq_comm]

/-- Drawing a number moves the cursor only; the number becomes busy when it is registered. -/
@[simp] theorem isBusy_next (t : SequenceTable) (k : SequenceNumber) :
    t.next.1.isBusy k = t.isBusy k := rfl

/-- In an empty table every number is free. -/
@[simp] theorem isBusy_empty (k : SequenceNumber) : empty.isBusy k = false := by
  simp [isBusy, empty]

end SequenceTable

end ManagementBus
