import ManagementBus.Fault

/-!
# The host's sink

Where responses to the host go: a recorder of the buffers written, an interface that is down, or
nothing at all.
-/

namespace ManagementBus

/-- The way to the host. -/
inductive KcsSink where
  /-- There is none. -/
  | absent
  /-- Keeps the buffers written, oldest first. -/
  | recorder (written : List (List UInt8))
  /-- Fails at every write. -/
  | down (fault : Fault)
deriving DecidableEq

namespace KcsSink

/-- A recorder that has recorded nothing yet. -/
def memory : KcsSink := recorder []

/-- A host interface that is down. -/
def broken : KcsSink := down (.io "kcs down")

/-- Whether there is a way to the host. -/
def isPresent : KcsSink → Bool
  | absent => false
  | recorder _ | down _ => true

/-- The buffers that a recorder holds. -/
def written : KcsSink → List (List UInt8)
  | recorder buffers => buffers
  | absent | down _ => []

/-- Writes a buffer. With no way to the host there is nothing that could fail. -/
def write (k : KcsSink) (buffer : List UInt8) : KcsSink × Except Fault Unit :=
  match k with
  | absent => (absent, .ok ())
  | recorder buffers => (recorder (buffers ++ [buffer]), .ok ())
  | down fault => (k, .error fault)

end KcsSink

end ManagementBus
