import ManagementBus.Fault

/-!
# Links

A link joins two endpoints. What one of them writes to the address of the other appears in the
other's inbox, with that address in front, moved to its place on the wire. Writes can be made to
fail, for a number of times or until the link is healed, and so can the next read.
-/

namespace ManagementBus

/-- The writes that are still to fail. -/
inductive Failures where
  /-- Every write, until the link is healed. -/
  | all
  /-- So many of the next writes. -/
  | next (count : Nat)
deriving DecidableEq

namespace Failures

/-- Takes a failure from those still to come; `none` says that the write does not fail. -/
def take? : Failures → Option Failures
  | all => some all
  | next 0 => none
  | next (n + 1) => some (next n)

end Failures

/-- One end of a link. -/
structure Endpoint where
  /-- Seven-bit address of this end. -/
  addr : UInt8
  /-- Frames that have arrived and wait to be read, oldest first. -/
  inbox : List (List UInt8) := []
  /-- Frames that this end has delivered, oldest first. -/
  sent : List (List UInt8) := []
  /-- Number of writes tried. -/
  writes : Nat := 0
  failures : Failures := .next 0
  /-- Whether the next read fails. -/
  readFails : Bool := false
deriving DecidableEq

/-- Two endpoints, each the peer of the other. -/
structure Link where
  near : Endpoint
  far : Endpoint
deriving DecidableEq

namespace Link

/-- A link between two addresses. -/
def pair (near far : UInt8) : Link :=
  { near := { addr := near }, far := { addr := far } }

/-- The link seen from its other end. -/
def swap (l : Link) : Link := ⟨l.far, l.near⟩

/-- The near end writes a payload to an address. -/
def write (l : Link) (addr : UInt8) (payload : List UInt8) : Link × Except Fault Unit :=
  let near := { l.near with writes := l.near.writes + 1 }
  match near.failures.take? with
  | some failures => ({ l with near := { near with failures } }, .error .injected)
  | none =>
    if addr ≠ l.far.addr then ({ l with near }, .error .notAcknowledged)
    else
      let frame := addr <<< 1 :: payload
      ({ near := { near with sent := near.sent ++ [frame] }
         far := { l.far with inbox := l.far.inbox ++ [frame] } }, .ok ())

/-- The near end reads the oldest frame in its inbox, if there is one. -/
def read (l : Link) : Link × Except Fault (Option (List UInt8)) :=
  if l.near.readFails then ({ l with near.readFails := false }, .error .readFailed)
  else ({ l with near.inbox := l.near.inbox.tail }, .ok l.near.inbox.head?)

/-- Puts a frame into the near inbox without a write. -/
def inject (l : Link) (frame : List UInt8) : Link :=
  { l with near.inbox := l.near.inbox ++ [frame] }

/-- Decides which writes of the near end are to fail. -/
def fail (l : Link) (failures : Failures) : Link :=
  { l with near.failures := failures }

/-- Lets the writes of the near end succeed again. -/
def heal (l : Link) : Link :=
  l.fail (.next 0)

/-- Makes the next read of the near end fail. -/
def failRead (l : Link) : Link :=
  { l with near.readFails := true }

/-- The other end of the other end is the near one. -/
@[simp] theorem swap_swap (l : Link) : l.swap.swap = l := rfl

end Link

end ManagementBus
