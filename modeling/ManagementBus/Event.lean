import ManagementBus.Frame
import ManagementBus.SequenceTable

/-!
# Events

What the stack reports about its work. The log and the counters are both functions of the events:
the line of an event is `Event.line`, and what it adds to the counters is `Event.counts`.
-/

namespace ManagementBus

/-- Why a frame, an envelope or a response goes nowhere. -/
inductive DropReason where
  | oversizeFrame
  | malformedFrame
  | responseQueueFull
  | noKcsSink
  | kcsWriteFailed
  | noMeBus
  | meResponseNotQueued
  | noBridgeSource
  | bridgedTooLong
  | bridgedNotQueued
  | meRequestNotBridged
  | meTimeoutNotQueued
  | requestQueueClosed
  | responseRetryLimit
  | transmitFull
  | transmitFullOnRetry
deriving DecidableEq

/-- Why a pending request leaves the ledger without a response. -/
inductive EvictionReason where
  | capacity
  | timeout
deriving DecidableEq

/-- A queue that can be purged. -/
inductive PurgedQueue where
  | request
  | response
deriving DecidableEq

/-- A lock of a bus: one sender of requests, one sender of responses and one reader at a time. -/
inductive Lock where
  | sendRequest
  | sendResponse
  | read
deriving DecidableEq

/-- A response that could not be delivered, by what it was. -/
inductive ResponseKind where
  /-- Anything written to the host. -/
  | kcs
  /-- The report that a request could not be delivered. -/
  | nodeBusy
  /-- The refusal of a request to bridge. -/
  | messageOut
  /-- The response to a dispatched request. -/
  | bus
deriving DecidableEq

/-- Something that the stack reports. -/
inductive Event where
  /-- A read was answered with a completion code. -/
  | readDone (bus : Nat) (netFn cmd code : UInt8)
  | readFailed (bus : Nat) (netFn cmd : UInt8) (fault : Fault)
  | frameSent (bus : Nat) (m : Message)
  | frameReceived (bus : Nat) (m : Message)
  | frameDropped (bus : Nat) (reason : DropReason)
  /-- A frame with a wrong checksum, or too short to have both. -/
  | frameRejected (bus : Nat) (fault : Fault)
  | writeFailed (bus : Nat) (m : Message) (retries : UInt32) (fault : Fault)
  /-- A request is given up after its last write. -/
  | requestFailed (bus : Nat) (m : Message)
  | requestEvicted (bus : Nat) (reason : EvictionReason) (m : Message)
  | responseUnmatched (bus : Nat) (m : Message)
  | queuePurged (queue : PurgedQueue) (dropped : Nat)
  | lockTimedOut (bus : Nat) (lock : Lock)
  | linkReadFailed (bus : Nat) (fault : Fault)
  | responseFailed (target : Channel) (kind : ResponseKind) (fault : Fault)
  | bridgeFailed (target : Channel) (fault : Fault)
  /-- A request to bridge names a channel that no bus serves. -/
  | bridgeTargetUnknown (target : Channel)
  /-- A sequence number is given again while it is in flight. -/
  | numbersExhausted (seq : UInt8)
  | undeliverableReserved (m : Message)
  | undeliverableSelf (m : Message)
  | undeliverableHost
  | undeliverableSource (source : Channel)
  /-- A request of the host could not be bridged. -/
  | hostNotBridged (m : Message) (fault : Fault)
  /-- A response to the host has nowhere to go. -/
  | hostUnreachable (m : Message)
  | dispatching (m : Message)
  | frameDumped (bus : Nat) (direction : String) (frame : List UInt8)
deriving DecidableEq

namespace Event

/-- The dump of a frame, where dumps are asked for. -/
def dump (enabled : Bool) (bus : Nat) (direction : String) (frame : List UInt8) : List Event :=
  if enabled then [frameDumped bus direction frame] else []

/-- The draw of a number from a table; it is an event only where every number is in flight. -/
def draw (t : SequenceTable) : List Event :=
  if t.exhausted then [numbersExhausted t.cursor.toByte] else []

/-- The pending requests that a ledger has dropped. -/
def evictions (bus : Nat) (reason : EvictionReason) (dropped : List Message) : List Event :=
  dropped.map fun m => requestEvicted bus reason m

/-- The purge of a queue; one that discards nothing is no event. -/
def purge (queue : PurgedQueue) (dropped : Nat) : List Event :=
  if dropped = 0 then [] else [queuePurged queue dropped]

end Event

end ManagementBus
