import ManagementBus.Stack

/-!
# Sweeping

A sweep drops the pending requests of all usable buses that are older than the timeout. It reads the
clock once, at its beginning, and then passes the ledgers bus by bus.

Here a sweep is one step. That another thread records or settles a request on a bus between the
reading of the clock and the turn of that bus is left out, and so is a ledger whose lock the sweep
does not get.
-/

namespace ManagementBus.Stack

/-- Drops the pending requests of one bus that are too old, and says how many there were. -/
def sweepBus (s : Stack) (i : Nat) : Stack × Nat :=
  match s.usableBus i with
  | .error _ => (s, 0)
  | .ok bus =>
    let (ledger, dropped) := bus.ledger.expire s.clock.now s.timing.requestTimeoutTicks
    ((s.onBus i fun b => { b with ledger }).report (Event.evictions i .timeout dropped),
      dropped.length)

/-- Drops the pending requests that are too old, bus by bus and all by one reading of the clock, and
says how many there were. Nothing happens between the buses. -/
def sweep (s : Stack) : Stack × Nat :=
  (List.range s.buses.length).foldl
    (fun (s, n) i =>
      let (s, k) := s.sweepBus i
      (s, n + k))
    (s, 0)

end ManagementBus.Stack
