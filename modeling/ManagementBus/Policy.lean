import ManagementBus.Code

/-!
# Routing policy of the board

Which requests the controller serves itself, of those that could also be bridged, and which
commands answer their originator on their own.
-/

namespace ManagementBus

/-- The routing decisions of a board, by network function and command. -/
structure Policy where
  /-- Whether a request of the management engine is served here. -/
  servesMe : UInt8 → UInt8 → Bool
  /-- Whether a request of the host is served here. -/
  servesHost : UInt8 → UInt8 → Bool
  /-- Whether a command is left without a response of its dispatcher. -/
  answersItself : UInt8 → UInt8 → Bool

namespace Policy

/-- The usual decisions: sensor readings for the management engine, maintenance of this controller
for the host, and bridging, whose answers come from the other side. -/
def default : Policy where
  servesMe netFn cmd := netFn = NetFn.vendor && cmd = Cmd.nodeSensorRead
  servesHost netFn cmd :=
    netFn = NetFn.enterprise &&
      [Cmd.firmwareUpdate, Cmd.resetBmc, Cmd.bridgeStatus, Cmd.resetBridge].contains cmd
  answersItself netFn cmd :=
    netFn = NetFn.enterprise && [Cmd.messageOut, Cmd.messageIn].contains cmd

instance : Inhabited Policy := ⟨default⟩

/-- The decision that is yes for exactly the listed functions and commands. -/
def listed (pairs : List (UInt8 × UInt8)) (netFn cmd : UInt8) : Bool :=
  pairs.contains (netFn, cmd)

end Policy

end ManagementBus
