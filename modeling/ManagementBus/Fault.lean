import ManagementBus.Hex

/-!
# Faults

Why an operation of the stack fails. Each cause is a constructor; its wording is `Fault.message`
and the short word under which it is counted is `Fault.label`. The causes that the stack itself
raises with a text have a name of their own below.
-/

namespace ManagementBus

/-- The cause of a failure. -/
inductive Fault where
  /-- A link or the host interface failed. -/
  | io (cause : String)
  /-- No response arrived in time. -/
  | timeout
  /-- The checksum over the address and the network function is wrong. -/
  | headerChecksum
  /-- The checksum over the whole frame is wrong. -/
  | messageChecksum
  /-- The bytes are not a message. -/
  | protocol (flaw : String)
  /-- A value that the caller gave is not admissible. -/
  | invalidArgument (reason : String)
  /-- A lock stayed taken for too long. -/
  | lockTimeout
  /-- There is no usable bus at this index. -/
  | unknownBus (index : Nat)
  /-- The queue does not take anything any more. -/
  | queueClosed
  /-- Nothing serves what was asked for. -/
  | unsupported (what : String)
  /-- The responder answered with a completion code other than success. -/
  | completionCode (code : UInt8)
deriving DecidableEq

namespace Fault

/-- What a fault says. -/
def message : Fault → String
  | io cause => "io error: " ++ cause
  | timeout => "no response before the read deadline"
  | headerChecksum => "invalid IPMB header checksum"
  | messageChecksum => "invalid IPMB message checksum"
  | protocol flaw => "malformed IPMB message: " ++ flaw
  | invalidArgument reason => "invalid argument: " ++ reason
  | lockTimeout => "failed to lock mutex in time"
  | unknownBus index => "unknown or disabled IPMB bus index " ++ toString index
  | queueClosed => "queue closed"
  | unsupported what => "unsupported: " ++ what
  | completionCode code => "responder returned completion code " ++ hexLiteral code

/-- The word under which faults of this kind are counted. -/
def label : Fault → String
  | io _ => "io"
  | timeout => "timeout"
  | headerChecksum => "header_checksum"
  | messageChecksum => "message_checksum"
  | protocol _ => "protocol"
  | invalidArgument _ => "invalid_argument"
  | lockTimeout => "mutex_lock"
  | unknownBus _ => "unknown_bus"
  | queueClosed => "queue_closed"
  | unsupported _ => "unsupported"
  | completionCode _ => "completion_code"

/-! ### Malformed messages -/

def frameTooShort : Fault := protocol "IPMB frame too short"

def responseTooShort : Fault := protocol "IPMB response frame too short"

def dataTooLong : Fault := protocol "IPMB payload exceeds IPMI_DATA_MAX_LENGTH"

def inboundTooLong : Fault := protocol "inbound IPMB frame too long"

def deviceIdTooShort : Fault := protocol "Get Device ID response too short"

def recordIdTooShort : Fault := protocol "Add SEL Entry response too short"

/-! ### Inadmissible arguments -/

def payloadTooLong : Fault := invalidArgument "payload exceeds IPMI_MSG_MAX_LENGTH"

def frameOverflow : Fault := invalidArgument "payload does not fit in an IPMB frame"

def noBuses : Fault := invalidArgument "at least one bus is required"

def indexGap : Fault := invalidArgument "bus indices must be unique and contiguous from 0"

def wideAddress : Fault := invalidArgument "bus addresses must be 7-bit"

/-! ### Failing links and queues -/

def injected : Fault := io "injected write failure"

def notAcknowledged : Fault := io "no device acknowledged the address"

def transmitFull : Fault := io "transmit queue full"

def readFailed : Fault := io "read failed"

/-! ### Channels that nothing serves -/

def noBmcBus : Fault := unsupported "no bus serves BMC_IPMB"

def noBridgeSource : Fault := unsupported "no bus serves the bridge source"

def noRequestSource : Fault := unsupported "no bus serves the request source"

def noLogTarget : Fault := unsupported "no bus serves the SEL target"

end Fault

end ManagementBus
