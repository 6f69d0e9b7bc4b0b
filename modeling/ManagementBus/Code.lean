/-!
# Function, command and completion codes

The numbers of the message format that the stack itself reads or writes. A network function is
even in a request, and the response to it carries the next odd number.
-/

namespace ManagementBus

namespace NetFn

/-- Application commands, such as asking a device for its identity. -/
def application : UInt8 := 0x06

/-- Storage commands, such as those on the system event log. -/
def storage : UInt8 := 0x0A

/-- Vendor commands without an enterprise number. -/
def vendor : UInt8 := 0x30

/-- Vendor commands whose data open with the enterprise number. -/
def enterprise : UInt8 := 0x38

end NetFn

namespace Cmd

/-- Application: report the identity of the device. -/
def getDeviceId : UInt8 := 0x01

/-- Storage: append an entry to the system event log. -/
def addSelEntry : UInt8 := 0x44

/-- Vendor: read a sensor on behalf of the management engine. -/
def nodeSensorRead : UInt8 := 0xE2

/-- Enterprise: a message from another interface. -/
def messageIn : UInt8 := 0x01

/-- Enterprise: forward a message to another interface. -/
def messageOut : UInt8 := 0x02

/-- Enterprise: firmware update. -/
def firmwareUpdate : UInt8 := 0x09

/-- Enterprise: reset the baseboard management controller. -/
def resetBmc : UInt8 := 0x16

/-- Enterprise: report the status of the bridge controller. -/
def bridgeStatus : UInt8 := 0x31

/-- Enterprise: reset the bridge controller. -/
def resetBridge : UInt8 := 0x32

end Cmd

namespace CompletionCode

def success : UInt8 := 0x00

/-- A bridged request could not be sent. -/
def bridgeError : UInt8 := 0x82

/-- Enterprise data that do not open with the enterprise number. -/
def invalidIana : UInt8 := 0x84

def nodeBusy : UInt8 := 0xC0

def invalidCommand : UInt8 := 0xC1

def timeout : UInt8 := 0xC3

def invalidLength : UInt8 := 0xC7

def cannotRespond : UInt8 := 0xCE

def notSupportedInState : UInt8 := 0xD5

def unspecified : UInt8 := 0xFF

end CompletionCode

/-- The enterprise number that opens the data of enterprise commands, low byte first. -/
def ianaBytes : List UInt8 := [0x15, 0xA0, 0x00]

end ManagementBus
