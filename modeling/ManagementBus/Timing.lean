import ManagementBus.Ledger

/-!
# Timing and sizes

How long the stack waits for what, how often it tries, and how much it holds.
-/

namespace ManagementBus

/-- A length of time, to the microsecond. -/
structure Duration where
  micros : Nat
deriving DecidableEq

namespace Duration

def ofMillis (ms : Nat) : Duration := ⟨ms * 1000⟩

/-- The whole milliseconds of a length of time. -/
def millis (d : Duration) : Nat := d.micros / 1000

instance : Add Duration := ⟨fun a b => ⟨a.micros + b.micros⟩⟩

end Duration

/-- Delays, limits and sizes of a stack. -/
structure Timing where
  /-- Pause after a failed write. -/
  retryDelay : Duration := .ofMillis 500
  /-- Pause between two writes. -/
  transmitPace : Duration := .ofMillis 10
  /-- Pause between two looks at an idle link. -/
  pollInterval : Duration := .ofMillis 1
  /-- Age at which a pending request is dropped. -/
  requestTimeout : Duration := .ofMillis 1000
  /-- Pause between two sweeps for such requests. -/
  sweepInterval : Duration := .ofMillis 1000
  /-- How long a reader waits for its response. -/
  readTimeout : Duration := .ofMillis 1000
  /-- How long a sender waits for another sender. -/
  lockTimeout : Duration := .ofMillis 1000
  /-- Number of times that a failed write is tried again. -/
  maxRetries : UInt32 := 5
  ledgerCapacity : Nat := Ledger.defaultCapacity
  transmitLength : Nat := 10
  responseLength : Nat := 2
  requestLength : Nat := 5
deriving DecidableEq

namespace Timing

/-- Short delays, for links without latency. -/
def fast : Timing :=
  { retryDelay := .ofMillis 1
    transmitPace := .ofMillis 0
    requestTimeout := .ofMillis 500
    sweepInterval := .ofMillis 50
    readTimeout := .ofMillis 500
    lockTimeout := .ofMillis 500 }

/-- The age limit of pending requests in ticks; a longer one is the longest that a tick counter
tells. -/
def requestTimeoutTicks (t : Timing) : UInt32 :=
  UInt32.ofNat (min t.requestTimeout.millis 0xFFFFFFFF)

/-- How long a reader waits for another reader: a little longer than that one waits for its
response. -/
def readLockTimeout (t : Timing) : Duration :=
  t.readTimeout + .ofMillis 10

end Timing

end ManagementBus
