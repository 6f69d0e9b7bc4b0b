import ManagementBus.Event

/-!
# Log lines

The line that an event leaves in the log: a level, a text, and fields with their values.
-/

namespace ManagementBus

namespace DropReason

def text : DropReason → String
  | oversizeFrame => "oversize frame"
  | malformedFrame => "malformed frame"
  | responseQueueFull => "response queue full"
  | noKcsSink => "no KCS sink"
  | kcsWriteFailed => "KCS write failed"
  | noMeBus => "no ME bus"
  | meResponseNotQueued => "ME response not queued"
  | noBridgeSource => "no bus for bridge source"
  | bridgedTooLong => "bridged response too long"
  | bridgedNotQueued => "bridged response not queued"
  | meRequestNotBridged => "ME request not bridged to BMC"
  | meTimeoutNotQueued => "ME timeout response not queued"
  | requestQueueClosed => "request queue closed"
  | responseRetryLimit => "response retry limit"
  | transmitFull => "tx queue full"
  | transmitFullOnRetry => "tx queue full on retry"

end DropReason

namespace EvictionReason

def text : EvictionReason → String
  | capacity => "capacity"
  | timeout => "timeout"

end EvictionReason

namespace PurgedQueue

def text : PurgedQueue → String
  | request => "request"
  | response => "response"

end PurgedQueue

namespace Lock

def text : Lock → String
  | sendRequest => "send_req"
  | sendResponse => "send_res"
  | read => "read"

end Lock

namespace ResponseKind

def text : ResponseKind → String
  | kcs => "kcs"
  | nodeBusy => "node_busy"
  | messageOut => "msg_out"
  | bus => "ipmb"

end ResponseKind

/-- How much an event matters. -/
inductive Level where
  | trace
  | debug
  | warn
deriving DecidableEq

/-- The level as it opens a line. -/
def Level.text : Level → String
  | trace => "TRACE"
  | debug => "DEBUG"
  | warn => "WARN"

/-- A line of the log. -/
structure LogLine where
  level : Level
  text : String
  fields : List (String × String) := []
deriving DecidableEq

namespace LogLine

/-- The line as text: level, text, and each field as name and value. -/
def render (l : LogLine) : String :=
  " ".intercalate <|
    l.level.text :: l.text :: l.fields.map fun (name, value) => name ++ "=" ++ value

end LogLine

namespace Event

private def byteField (name : String) (b : UInt8) : String × String :=
  (name, toString b.toNat)

private def busField (bus : Nat) : String × String :=
  ("bus", toString bus)

private def faultField (fault : Fault) : String × String :=
  ("error", fault.message)

/-- Function and command, as most lines about a message show them. -/
private def codeFields (netFn cmd : UInt8) : List (String × String) :=
  [byteField "netfn" netFn, byteField "cmd" cmd]

/-- The line that an event leaves in the log. -/
def line : Event → LogLine
  | readDone bus netFn cmd code =>
    ⟨.debug, "ipmb read ok",
      busField bus :: codeFields netFn cmd ++ [byteField "completion_code" code]⟩
  | readFailed bus netFn cmd fault =>
    ⟨.warn, "ipmb read failed", busField bus :: codeFields netFn cmd ++ [faultField fault]⟩
  | frameSent bus m =>
    ⟨.debug, "ipmb frame sent", busField bus :: codeFields m.netFn m.cmd ++ [byteField "seq" m.seq]⟩
  | frameReceived bus m =>
    ⟨.debug, "ipmb frame received",
      busField bus :: codeFields m.netFn m.cmd ++ [byteField "seq" m.seq]⟩
  | frameDropped bus reason =>
    ⟨.warn, "ipmb frame dropped", [busField bus, ("reason", reason.text)]⟩
  | frameRejected bus fault =>
    ⟨.debug, "ipmb frame rejected", [busField bus, faultField fault]⟩
  | writeFailed bus m retries fault =>
    ⟨.debug, "ipmb write failed, retrying",
      busField bus :: codeFields m.netFn m.cmd ++
        [("retries", toString retries.toNat), faultField fault]⟩
  | requestFailed bus m =>
    ⟨.warn, "ipmb request exceeded retry limit",
      busField bus :: codeFields m.netFn m.cmd ++ [("source", m.infSource.text)]⟩
  | requestEvicted bus reason m =>
    ⟨.debug, "ipmb pending request evicted",
      busField bus :: ("reason", reason.text) :: codeFields m.netFn m.cmd ++
        [byteField "seq" m.seqTarget]⟩
  | responseUnmatched bus m =>
    ⟨.warn, "no request matches response",
      busField bus :: codeFields m.netFn m.cmd ++ [byteField "seq" m.seq]⟩
  | queuePurged queue dropped =>
    ⟨.warn, "ipmb queue purged", [("queue", queue.text), ("dropped", toString dropped)]⟩
  | lockTimedOut bus lock =>
    ⟨.warn, "failed to lock mutex in time", [busField bus, ("lock", lock.text)]⟩
  | linkReadFailed bus fault =>
    ⟨.debug, "ipmb link read failed", [busField bus, faultField fault]⟩
  | responseFailed target kind fault =>
    ⟨.warn, "response not delivered",
      [("target", target.text), ("what", kind.text), faultField fault]⟩
  | bridgeFailed target fault =>
    ⟨.warn, "OEM_MSG_OUT send IPMB request failed", [("target", target.text), faultField fault]⟩
  | bridgeTargetUnknown target =>
    ⟨.warn, "OEM_MSG_OUT: invalid bridge interface", [("target", target.text)]⟩
  | numbersExhausted seq =>
    ⟨.warn, "all IPMB sequence numbers in flight; reusing cursor", [byteField "seq" seq]⟩
  | undeliverableReserved m =>
    ⟨.warn, "undeliverable request from reserved interface", codeFields m.netFn m.cmd⟩
  | undeliverableSelf m =>
    ⟨.warn, "undeliverable self-originated request", codeFields m.netFn m.cmd⟩
  | undeliverableHost => ⟨.warn, "no KCS sink for undeliverable host request", []⟩
  | undeliverableSource source =>
    ⟨.warn, "no bus for undeliverable request source", [("source", source.text)]⟩
  | hostNotBridged m fault =>
    ⟨.warn, "failed to bridge KCS request", codeFields m.netFn m.cmd ++ [faultField fault]⟩
  | hostUnreachable m => ⟨.warn, "no KCS sink for response", codeFields m.netFn m.cmd⟩
  | dispatching m =>
    ⟨.trace, "dispatching request",
      codeFields m.netFn m.cmd ++
        [("data_len", toString m.data.length), ("source", m.infSource.text)]⟩
  | frameDumped bus direction frame => ⟨.trace, Frame.dumpText bus direction frame, []⟩

/-- The line of an event as text. -/
def text (e : Event) : String := e.line.render

end Event

end ManagementBus
