import ManagementBus.Hex

/-!
# Channels

A channel number names an interface of the management controller: one of its buses, the host
interface, or the controller itself. A message records the channel that it came from and the
channel that it is meant for, and a bus table says which bus serves which channel.

Every byte is a channel number; the numbers with a meaning of their own have a name.
-/

namespace ManagementBus

/-- The number of an interface. -/
structure Channel where
  number : UInt8
deriving DecidableEq, Inhabited

namespace Channel

/-- The controller itself: requests that its own callers make. -/
def self : Channel := ⟨0x00⟩

/-- The management engine of the host chipset. -/
def meIpmb : Channel := ⟨0x01⟩

/-- The baseboard management controller. -/
def bmcIpmb : Channel := ⟨0x02⟩

/-- The host's keyboard-controller-style interface. -/
def hostKcs : Channel := ⟨0x03⟩

/-- A number that no interface has. -/
def reserved : Channel := ⟨0x41⟩

/-- The channel numbers with a name, and their names. -/
def names : List (Channel × String) :=
  [(self, "SELF"), (meIpmb, "ME_IPMB"), (bmcIpmb, "BMC_IPMB"), (hostKcs, "HOST_KCS"),
   (⟨0x04⟩, "SERVER_IPMB"), (⟨0x05⟩, "EXP1_IPMB"), (⟨0x07⟩, "SLOT1_BIC"), (⟨0x08⟩, "SLOT3_BIC"),
   (⟨0x10⟩, "BB_IPMB"), (⟨0x15⟩, "EXP2_IPMB"), (⟨0x16⟩, "CL_BIC_IPMB"),
   (⟨0x1A⟩, "PEER_BMC_IPMB"), (⟨0x20⟩, "BMC_USB"), (⟨0x40⟩, "PLDM"), (reserved, "RESERVED")]

/-- The name of a channel, and its number in hexadecimal where it has no name. -/
def text (c : Channel) : String :=
  (names.lookup c).getD ("Channel(" ++ hexLiteral c.number ++ ")")

/-- Channels are ordered by number. -/
instance : LT Channel := ⟨fun a b => a.number < b.number⟩

instance (a b : Channel) : Decidable (a < b) :=
  inferInstanceAs (Decidable (a.number < b.number))

end Channel

end ManagementBus
