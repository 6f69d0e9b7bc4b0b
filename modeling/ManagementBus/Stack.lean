import ManagementBus.Bus
import ManagementBus.Clock
import ManagementBus.KcsSink
import ManagementBus.Policy

/-!
# The stack

The whole state of a management controller's message stack: its buses, the requests that wait for
the dispatcher, the way to the host, the clock, and how it is set up. Operations are functions on
this state. What they report is appended to the journal, and the time that a caller loses to a lock
is added to the time waited.

## Main statements

* `buses_emit`, `buses_onBus`: reporting changes no bus, and an operation on one bus no other.
-/

namespace ManagementBus

/-- The state of a message stack. -/
structure Stack where
  buses : List Bus
  /-- Requests that wait for the dispatcher. -/
  requests : Queue Message
  kcs : KcsSink
  clock : Clock
  timing : Timing
  policy : Policy
  /-- Whether frames are dumped into the log. -/
  dumping : Bool
  /-- Whether the stack has been shut down. -/
  stopped : Bool := false
  /-- Milliseconds that callers have waited. -/
  waited : Nat := 0
  /-- The number of the next record for a system event log. -/
  nextRecord : UInt16 := 1
  /-- What has been reported, oldest first. -/
  journal : List Event := []

namespace Stack

/-! ### Reporting -/

/-- Reports some events. -/
def report (s : Stack) (events : List Event) : Stack :=
  { s with journal := s.journal ++ events }

/-- Reports an event. -/
def emit (s : Stack) (e : Event) : Stack :=
  s.report [e]

/-! ### Buses -/

/-- Changes one bus. -/
def onBus (s : Stack) (i : Nat) (f : Bus → Bus) : Stack :=
  { s with buses := s.buses.modify i f }

/-- The bus at an index, if it carries traffic. -/
def usableBus (s : Stack) (i : Nat) : Except Fault Bus :=
  match s.buses[i]? with
  | none => .error (.unknownBus i)
  | some bus => if bus.config.isUsable then .ok bus else .error (.unknownBus i)

/-- The bus at an index, if its workers run. -/
def workerBus (s : Stack) (i : Nat) : Option Bus :=
  if s.stopped then none else (s.usableBus i).toOption

/-- The bus that serves a channel: the first usable one of the table. -/
def busFor (s : Stack) (channel : Channel) : Option Nat :=
  s.buses.findIdx? fun bus => bus.config.serves channel

/-- The configuration of a bus. -/
def busConfig (s : Stack) (i : Nat) : Option BusConfig :=
  s.buses[i]?.map Bus.config

/-- The ledger of a bus. -/
def ledger (s : Stack) (i : Nat) : Option Ledger :=
  s.buses[i]?.map Bus.ledger

/-! ### The host -/

/-- Writes a buffer to the host. -/
def writeHost (s : Stack) (buffer : List UInt8) : Stack × Except Fault Unit :=
  let (kcs, outcome) := s.kcs.write buffer
  ({ s with kcs }, outcome)

/-! ### The clock -/

/-- Lets time pass on the clock of the stack. -/
def advance (s : Stack) (ms : UInt32) : Stack :=
  { s with clock := s.clock.advance ms }

/-- Sets the clock of the stack. -/
def setClock (s : Stack) (tick : UInt32) : Stack :=
  { s with clock := s.clock.set tick }

/-! ### What reporting and local changes leave alone -/

/-- A report does not concern the buses. -/
@[simp] theorem buses_emit (s : Stack) (e : Event) : (s.emit e).buses = s.buses := rfl

/-- Several reports do not concern the buses. -/
@[simp] theorem buses_report (s : Stack) (es : List Event) : (s.report es).buses = s.buses := rfl

/-- A report does not concern what waits for the dispatcher. -/
@[simp] theorem requests_emit (s : Stack) (e : Event) : (s.emit e).requests = s.requests := rfl

/-- A report is not written to the host. -/
@[simp] theorem kcs_emit (s : Stack) (e : Event) : (s.emit e).kcs = s.kcs := rfl

/-- A change of one bus leaves the others as they are. -/
theorem buses_onBus (s : Stack) {i j : Nat} (f : Bus → Bus) (h : i ≠ j) :
    (s.onBus i f).buses[j]? = s.buses[j]? := by
  simp [onBus, h]

/-- The bus that is changed, as it is afterwards. -/
theorem buses_onBus_self (s : Stack) (i : Nat) (f : Bus → Bus) :
    (s.onBus i f).buses[i]? = s.buses[i]?.map f := by
  simp [onBus]

end Stack

end ManagementBus
