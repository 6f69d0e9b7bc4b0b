import ManagementBus.BusConfig
import ManagementBus.Event
import ManagementBus.Link
import ManagementBus.Queue
import ManagementBus.Timing

/-!
# Buses

A bus of the running stack: its row of the table, its link, the requests pending on it, the queue
of envelopes to transmit, the envelope that the transmit worker has in hand, and the responses for
readers of this bus.

Three locks admit one sender of requests, one sender of responses and one reader at a time. A lock
is listed while somebody waits with it for room or for a response.
-/

namespace ManagementBus

/-- A message to be transmitted, with the number of writes that have failed. -/
structure Envelope where
  msg : Message
  retries : UInt32 := 0
deriving DecidableEq

/-- A bus of the running stack. -/
structure Bus where
  config : BusConfig
  link : Link
  ledger : Ledger
  /-- Envelopes that wait for the transmit worker. -/
  outbound : Queue Envelope
  /-- The envelope whose write has begun. -/
  inHand : Option Envelope := none
  /-- Responses that wait for a reader. -/
  responses : Queue Message
  /-- The locks that are taken. -/
  locks : List Lock := []
deriving DecidableEq

namespace Bus

/-- A bus at rest, as a row of the table describes it. -/
def new (config : BusConfig) (link : Link) (timing : Timing) : Bus :=
  { config, link
    ledger := Ledger.new timing.ledgerCapacity
    outbound := Queue.new timing.transmitLength
    responses := Queue.new timing.responseLength }

/-- Whether a lock is taken. -/
def isLocked (b : Bus) (lock : Lock) : Bool := b.locks.contains lock

/-- Takes a lock. -/
def take (b : Bus) (lock : Lock) : Bus := { b with locks := lock :: b.locks }

/-- Gives a lock back. -/
def release (b : Bus) (lock : Lock) : Bus := { b with locks := b.locks.erase lock }

/-- The request that goes out on the bus for a message: function, command, data and routing come
from the message, the addresses from the bus, and the sequence number is fresh. -/
def requestFor (b : Bus) (m : Message) (n : SequenceNumber) : Message :=
  { netFn := m.netFn
    cmd := m.cmd
    data := m.data
    completionCode := m.completionCode
    seqSource := m.seqSource
    infSource := m.infSource
    infTarget := m.infTarget
    destAddr := b.config.targetAddr
    srcAddr := b.config.selfAddr <<< 1
    seq := n.toByte }

/-- The response that goes out on the bus for a request that has been served: the next function,
the logical units exchanged, and the sequence number of the request. -/
def responseFor (b : Bus) (m : Message) : Message :=
  { m with
    netFn := m.netFn + 1
    destLun := m.srcLun
    srcLun := m.destLun
    seqSource := m.seq
    destAddr := b.config.targetAddr
    srcAddr := b.config.selfAddr <<< 1 }

/-- Closes the queues of the bus. -/
def close (b : Bus) : Bus :=
  { b with outbound := b.outbound.close, responses := b.responses.close }

end Bus

end ManagementBus
