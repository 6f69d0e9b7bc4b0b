/-!
# Clock

Ticks of one millisecond, counted in thirty-two bits and from the highest of them back to zero.
-/

namespace ManagementBus

/-- A clock that moves only when it is told to. -/
structure Clock where
  now : UInt32
deriving DecidableEq

namespace Clock

/-- Lets some milliseconds pass. -/
def advance (c : Clock) (ms : UInt32) : Clock := ⟨c.now + ms⟩

/-- Sets the clock to a tick. -/
def set (_ : Clock) (tick : UInt32) : Clock := ⟨tick⟩

end Clock

end ManagementBus
