import ManagementBus.Channel

/-!
# Bus configuration

A row of the bus table: which channel a bus serves, over which interface, and at which addresses
the two ends of its link sit.
-/

namespace ManagementBus

/-- The physical interface of a bus. -/
inductive Interface where
  | i2c
  | i3c
  /-- No interface; such a bus carries nothing. -/
  | reserved
deriving DecidableEq

/-- A row of the bus table. -/
structure BusConfig where
  /-- Position in the table. -/
  index : Nat
  interface : Interface
  channel : Channel
  /-- Number of the physical bus. -/
  bus : UInt8
  /-- Seven-bit address of the other end. -/
  targetAddr : UInt8
  enabled : Bool
  /-- Seven-bit address of this end. -/
  selfAddr : UInt8
  /-- Name of the transmit worker. -/
  transmitName : String
  /-- Name of the receive worker. -/
  receiveName : String
deriving DecidableEq

namespace BusConfig

/-- An enabled bus whose workers are named after its physical bus. -/
def new (index : Nat) (channel : Channel) (bus selfAddr targetAddr : UInt8) : BusConfig :=
  { index, interface := .i2c, channel, bus, targetAddr, enabled := true, selfAddr
    transmitName := "ipmb_tx_bus" ++ toString bus.toNat
    receiveName := "ipmb_rx_bus" ++ toString bus.toNat }

/-- Whether the bus carries traffic. -/
def isUsable (c : BusConfig) : Bool :=
  c.enabled && c.interface ≠ .reserved

/-- Whether the bus carries the traffic of a channel. -/
def serves (c : BusConfig) (channel : Channel) : Bool :=
  c.isUsable && c.channel = channel

end BusConfig

end ManagementBus
