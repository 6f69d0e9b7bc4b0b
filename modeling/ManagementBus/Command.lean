import ManagementBus.Code
import ManagementBus.Message

/-!
# Typed commands

A command knows its function and number, the data of its request, and how the data of a response
are read. Two commands are provided: asking a device for its identity, and appending an entry to
the system event log.
-/

namespace ManagementBus

/-- A command whose successful response is an `α`. -/
structure Command (α : Type) where
  netFn : UInt8
  cmd : UInt8
  requestData : List UInt8
  parse : List UInt8 → Except Fault α

namespace Command

variable {α : Type}

/-- The request that issues the command. -/
def request (c : Command α) : Except Fault Message :=
  Message.request c.netFn c.cmd c.requestData

/-- What a response says: its data are read only if it reports success. -/
def parseResponse (c : Command α) (response : Message) : Except Fault α :=
  if response.completionCode ≠ CompletionCode.success then
    .error (.completionCode response.completionCode)
  else c.parse response.data.bytes

end Command

/-- Two bytes as a number, low byte first. -/
def littleEndian (low high : UInt8) : UInt16 :=
  low.toUInt16 ||| (high.toUInt16 <<< 8)

/-! ### The identity of a device -/

/-- What a device says about itself. -/
structure DeviceId where
  deviceId : UInt8
  deviceRevision : UInt8
  firmwareMajor : UInt8
  firmwareMinor : UInt8
  ipmiVersion : UInt8
  manufacturerId : UInt32
  productId : UInt16
deriving DecidableEq

namespace DeviceId

/-- Reads the eleven bytes of an identity, and ignores those behind them. The revision has four
bits and the major version seven; the manufacturer has three bytes, low byte first. -/
def parse : List UInt8 → Except Fault DeviceId
  | deviceId :: revision :: major :: minor :: version :: _ :: m0 :: m1 :: m2 :: p0 :: p1 :: _ =>
    .ok
      { deviceId
        deviceRevision := revision &&& 0x0F
        firmwareMajor := major &&& 0x7F
        firmwareMinor := minor
        ipmiVersion := version
        manufacturerId := m0.toUInt32 ||| (m1.toUInt32 <<< 8) ||| (m2.toUInt32 <<< 16)
        productId := littleEndian p0 p1 }
  | _ => .error .deviceIdTooShort

end DeviceId

/-- Asks a device for its identity. -/
def Command.getDeviceId : Command DeviceId where
  netFn := NetFn.application
  cmd := Cmd.getDeviceId
  requestData := []
  parse := DeviceId.parse

/-! ### Entries of the system event log -/

/-- An event of a sensor. -/
structure SelEvent where
  sensorType : UInt8
  sensorNumber : UInt8
  eventType : UInt8
  data0 : UInt8
  data1 : UInt8
  data2 : UInt8
deriving DecidableEq

/-- An entry of the system event log, with the record number that is proposed for it. -/
structure SelEntry where
  recordId : UInt16
  /-- Seven-bit address of the controller that reports the event. -/
  generatorAddr : UInt8
  event : SelEvent
deriving DecidableEq

namespace SelEntry

/-- The kind of record: a system event. -/
def systemEvent : UInt8 := 0x02

/-- The format of the event in the record. -/
def formatVersion : UInt8 := 0x04

/-- The record: number, kind, a timestamp of zero, the generator, the format, and the event. -/
def record (e : SelEntry) : List UInt8 :=
  [e.recordId.toUInt8, (e.recordId >>> 8).toUInt8, systemEvent, 0, 0, 0, 0,
    e.generatorAddr <<< 1, 0, formatVersion, e.event.sensorType, e.event.sensorNumber,
    e.event.eventType, e.event.data0, e.event.data1, e.event.data2]

/-- Reads the record number that the log has assigned, and ignores what follows. -/
def parseAssigned : List UInt8 → Except Fault UInt16
  | low :: high :: _ => .ok (littleEndian low high)
  | _ => .error .recordIdTooShort

/-- The entries that one controller reports in turn: record numbers count up from a first one, and
start again at zero after the highest. -/
def series (first : UInt16) (generatorAddr : UInt8) (event : SelEvent) (count : Nat) :
    List SelEntry :=
  (List.range count).map fun k => { recordId := first + UInt16.ofNat k, generatorAddr, event }

end SelEntry

/-- Appends an entry to the system event log. -/
def Command.addSelEntry (e : SelEntry) : Command UInt16 where
  netFn := NetFn.storage
  cmd := Cmd.addSelEntry
  requestData := e.record
  parse := SelEntry.parseAssigned

end ManagementBus
