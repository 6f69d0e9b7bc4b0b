import ManagementBus.Scheduler
import ManagementBus.Stack.Dispatch
import ManagementBus.Stack.Sweep

/-!
# Calling the stack

The operations of a stack with callers: calls in the foreground, which end at once, calls in the
background, which may wait, and joining those.
-/

namespace ManagementBus.Scheduler

/-! ### Calls in the background -/

/-- Begins a call, and gives its number. -/
def begin (s : Scheduler) (kind : CallKind) (bus : Nat) (m : Message) : Scheduler × Nat :=
  let (stack, c) := s.stack.aside fun stack => stack.beginCall (Call.new kind bus m) s.tickets
  let s := { s with stack, calls := s.calls ++ [c], tickets := s.tickets + 1 }
  (s.settle, s.calls.length - 1)

/-- Begins a read on a bus, after room has been made. -/
def read (s : Scheduler) (bus : Nat) (m : Message) : Scheduler × Nat :=
  s.makeRoom.begin .read bus m

/-- Adds a call that has ended before it began. -/
def ended (s : Scheduler) (kind : CallKind) (bus : Nat) (result : CallResult) : Scheduler × Nat :=
  ({ s with calls := s.calls ++ [(Call.new kind bus {}).finish result] }, s.calls.length)

/-- Begins to ask the device on a bus for its identity. -/
def getDeviceId (s : Scheduler) (bus : Nat) : Scheduler × Nat :=
  let s := s.makeRoom
  match Command.getDeviceId.request with
  | .error fault => s.ended .getDeviceId bus (.device (.error fault))
  | .ok m => s.begin .getDeviceId bus m

/-- Begins to append an event to the system event log that a channel leads to. The entry has the
next record number and the address of this end of the bus. -/
def addSelEvent (s : Scheduler) (target : Channel) (event : SelEvent) : Scheduler × Nat :=
  let s := s.makeRoom
  let recordId := s.stack.nextRecord
  match s.stack.busFor target with
  | none =>
    s.ended (.addSelEntry { recordId, generatorAddr := 0, event }) 0
      (.assigned (.error .noLogTarget))
  | some bus =>
    let generatorAddr := ((s.stack.busConfig bus).map BusConfig.selfAddr).getD 0
    let entry : SelEntry := { recordId, generatorAddr, event }
    let s := { s with stack := { s.stack with nextRecord := recordId + 1 } }
    match (Command.addSelEntry entry).request with
    | .error fault => s.ended (.addSelEntry entry) bus (.assigned (.error fault))
    | .ok m => s.begin (.addSelEntry entry) bus m

/-! ### Waiting for a call -/

/-- Lets time pass until a call has ended, for a number of deadlines at most. -/
def awaitWithin (k : Nat) : Nat → Scheduler → Scheduler
  | 0, s => s
  | n + 1, s =>
    match s.calls[k]? with
    | none => s
    | some c => if c.isWaiting then awaitWithin k n s.passDeadline else s

/-- What joining a call comes to. -/
inductive Joined where
  | noCall
  /-- The call still waits. -/
  | pending
  /-- The call has ended with a result, and has reported some events on its way. -/
  | ended (result : CallResult) (events : List Event)

/-- Asks for the result of a call. One that reads is waited for, and ends by its deadline. -/
def join (s : Scheduler) (k : Nat) : Scheduler × Joined :=
  match s.calls[k]? with
  | none => (s, .noCall)
  | some c =>
    let s := if c.kind.reads then awaitWithin k s.remaining s else s
    match s.calls[k]? with
    | none => (s, .noCall)
    | some c =>
      match c.result? with
      | none => (s, .pending)
      | some result => (s, .ended result c.events)

/-! ### Calls in the foreground -/

/-- Queues a request on a bus. -/
def sendRequest (s : Scheduler) (bus : Nat) (m : Message) : Scheduler × Except Fault Unit :=
  s.actWithRoom (·.sendRequest m bus)

/-- Queues a response on a bus. -/
def sendResponse (s : Scheduler) (bus : Nat) (m : Message) : Scheduler × Except Fault Unit :=
  s.actWithRoom (·.sendResponse m bus)

/-- Queues a response on a bus, if there is room at once. -/
def trySendResponse (s : Scheduler) (bus : Nat) (m : Message) : Scheduler × Except Fault Unit :=
  s.act (·.trySendResponse m bus)

/-- Accepts a request of the host. -/
def submitFromHost (s : Scheduler) (m : Message) : Scheduler × Except Fault Unit :=
  s.actWithRoom (·.submitFromHost m)

/-- Hands a request to the dispatcher. -/
def notify (s : Scheduler) (m : Message) : Scheduler × Except Fault Unit :=
  s.act (·.notify m)

/-- Takes the oldest request that waits for the dispatcher. -/
def takeRequest (s : Scheduler) : Scheduler × Option Message :=
  s.act (·.takeRequest)

/-- Takes the oldest request that waits for the dispatcher, or waits some milliseconds for one. -/
def awaitRequest (s : Scheduler) (ms : Nat) : Scheduler × Except Fault Message :=
  s.act fun stack =>
    match stack.takeRequest with
    | (stack, some m) => (stack, .ok m)
    | (stack, none) =>
      if stack.requests.closed then (stack, .error .queueClosed)
      else ({ stack with waited := stack.waited + ms }, .error .timeout)

/-- Dispatches a message. The list holds what the handler has seen. -/
def dispatch (s : Scheduler) (handler : Handler) (m : Message) : Scheduler × List Message :=
  s.actWithRoom (·.dispatch handler m)

/-- Dispatches the oldest request that waits, if there is one. -/
def dispatchNext (s : Scheduler) (handler : Handler) : Scheduler × Option (List Message) :=
  s.actWithRoom fun stack =>
    match stack.takeRequest with
    | (stack, none) => (stack, none)
    | (stack, some m) =>
      let (stack, seen) := stack.dispatch handler m
      (stack, some seen)

/-- Dispatches the requests that are left after a shutdown; before it there is no end to them. -/
def dispatchLeft (s : Scheduler) (handler : Handler) : Scheduler × Option (List Message) :=
  if s.stack.stopped then
    s.act fun stack =>
      let (stack, seen) := stack.dispatchAll handler
      (stack, some seen)
  else (s, none)

/-- Serves a request to bridge. -/
def messageOut (s : Scheduler) (m : Message) : Scheduler × Message :=
  s.actWithRoom (·.messageOut m)

/-- Handles bytes as if the link of a bus had delivered them, whether or not its worker runs.
Nothing happens, and no room is made, where there is no such bus. -/
def handleFrame (s : Scheduler) (i : Nat) (raw : List UInt8) : Scheduler × Option Unit :=
  if i < s.stack.buses.length then
    s.actWithRoom fun stack =>
      match stack.buses[i]? with
      | none => (stack, none)
      | some bus => (stack.handleFrame i bus raw, some ())
  else (s, none)

/-- Drops the pending requests that are too old. -/
def sweep (s : Scheduler) : Scheduler × Nat :=
  s.act (·.sweep)

/-- Looks for the pending request of a bus that a query names, and removes it. -/
def findAndRemove (s : Scheduler) (i : Nat) (query : Message) (how : Correlation) :
    Scheduler × Option Message :=
  s.act fun stack =>
    match stack.buses[i]? with
    | none => (stack, none)
    | some bus =>
      let (ledger, found) := bus.ledger.findAndRemove query how
      (stack.onBus i fun b => { b with ledger }, found)

end ManagementBus.Scheduler
