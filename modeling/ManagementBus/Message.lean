import ManagementBus.Channel
import ManagementBus.Fault
import ManagementBus.Payload

/-!
# Messages

A message is what a frame carries, together with the routing data that stay inside the stack: the
two sequence numbers, the channels between which it travels, and the tick at which a pending
request was recorded. `Message.isResponse` reads the direction off the network function.
-/

namespace ManagementBus

/-- A request or a response. -/
structure Message where
  /-- Seven-bit address of the receiver. -/
  destAddr : UInt8 := 0
  /-- Network function: even in a request, odd in a response. -/
  netFn : UInt8 := 0
  destLun : UInt8 := 0
  headerChecksum : UInt8 := 0
  /-- Address of the sender, with the direction bit: twice its seven-bit address. -/
  srcAddr : UInt8 := 0
  /-- Sequence number on the wire. -/
  seq : UInt8 := 0
  srcLun : UInt8 := 0
  cmd : UInt8 := 0
  /-- Outcome of a response. -/
  completionCode : UInt8 := 0
  data : Payload := Payload.empty
  messageChecksum : UInt8 := 0
  /-- Sequence number by which the originator knows the request. -/
  seqSource : UInt8 := 0
  /-- Sequence number under which the request is pending. -/
  seqTarget : UInt8 := 0
  /-- Channel of the originator. -/
  infSource : Channel := Channel.self
  /-- Channel of the addressee. -/
  infTarget : Channel := Channel.self
  /-- Tick at which a pending request was recorded. -/
  timestamp : UInt32 := 0
deriving DecidableEq, Inhabited

namespace Message

/-- A message with an odd network function is a response. -/
def isResponse (m : Message) : Bool :=
  m.netFn &&& 1 != 0

/-- Replaces the data of a message; data that do not fit leave it without data. -/
def setData (m : Message) (bytes : List UInt8) : Message × Except Fault Unit :=
  match Payload.ofBytes? bytes with
  | some data => ({ m with data }, .ok ())
  | none => ({ m with data := Payload.empty }, .error .payloadTooLong)

/-- A message with the given function, command and data, and nothing else set. -/
def request (netFn cmd : UInt8) (bytes : List UInt8) : Except Fault Message :=
  match Payload.ofBytes? bytes with
  | some data => .ok { netFn, cmd, data }
  | none => .error .payloadTooLong

/-- The message without its data. -/
def clearData (m : Message) : Message :=
  { m with data := Payload.empty }

end Message

end ManagementBus
