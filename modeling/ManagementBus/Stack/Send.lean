import ManagementBus.Stack

/-!
# Queueing messages

Requests and responses enter the transmit queue of a usable bus, one sender at a time. A request
draws a fresh sequence number; a response keeps that of its request. Requests for the controller
itself enter the request queue, which forgets its backlog rather than refuse the newest request.

These sends are the foreground ones: of the workers, of the dispatcher, and of the host. One that
finds its lock taken waits for the lock and gives up. One that finds an open queue full would wait
until there is room, with its lock in hand and for as long as that takes. Here it fails with a
timeout at once, so the runs in which it waits and then goes on are left out. Callers that wait for
room, step by step, are in `ManagementBus.Call`.
-/

namespace ManagementBus

/-- What becomes of a foreground send whose item was offered to a queue. A full queue is a timeout
at once, where the sender of a real stack waits for room instead. -/
def Put.outcome : Put → Except Fault Unit
  | accepted => .ok ()
  | full => .error .timeout
  | closed => .error .queueClosed

namespace Stack

/-! ### Steps of a send -/

/-- Gives up waiting for a lock, after the time that a caller waits for one. -/
def denyLock (s : Stack) (i : Nat) (lock : Lock) : Stack × Except Fault Unit :=
  ({ s.emit (.lockTimedOut i lock) with waited := s.waited + s.timing.lockTimeout.millis },
    .error .lockTimeout)

/-- Draws a sequence number on a bus, and reports when it is in flight already. -/
def drawSequence (s : Stack) (i : Nat) (bus : Bus) : Stack × SequenceNumber :=
  let (ledger, n) := bus.ledger.nextSequence
  ((s.onBus i fun b => { b with ledger }).report (Event.draw bus.ledger.numbers), n)

/-- Makes a request out of a message, with a fresh sequence number. -/
def drawRequest (s : Stack) (i : Nat) (bus : Bus) (m : Message) : Stack × Envelope :=
  let (s, n) := s.drawSequence i bus
  (s, { msg := bus.requestFor m n })

/-- Puts an envelope into the transmit queue of a bus. -/
def enqueue (s : Stack) (i : Nat) (bus : Bus) (e : Envelope) : Stack × Put :=
  let (outbound, put) := bus.outbound.put e
  (s.onBus i fun b => { b with outbound }, put)

/-! ### Sending -/

/-- Queues a request on a bus. -/
def sendRequest (s : Stack) (m : Message) (i : Nat) : Stack × Except Fault Unit :=
  match s.usableBus i with
  | .error fault => (s, .error fault)
  | .ok bus =>
    if bus.isLocked .sendRequest then s.denyLock i .sendRequest
    else
      let (s, envelope) := s.drawRequest i bus m
      let (s, put) := s.enqueue i bus envelope
      (s, put.outcome)

/-- Queues the response to a request on a bus. -/
def sendResponse (s : Stack) (m : Message) (i : Nat) : Stack × Except Fault Unit :=
  match s.usableBus i with
  | .error fault => (s, .error fault)
  | .ok bus =>
    if bus.isLocked .sendResponse then s.denyLock i .sendResponse
    else
      let (s, put) := s.enqueue i bus { msg := bus.responseFor m }
      (s, put.outcome)

/-- Queues the response to a request on a bus, and never waits for room. -/
def trySendResponse (s : Stack) (m : Message) (i : Nat) : Stack × Except Fault Unit :=
  match s.usableBus i with
  | .error fault => (s, .error fault)
  | .ok bus =>
    if bus.isLocked .sendResponse then s.denyLock i .sendResponse
    else match s.enqueue i bus { msg := bus.responseFor m } with
      | (s, .accepted) => (s, .ok ())
      | (s, _) => (s.emit (.frameDropped i .transmitFull), .error .transmitFull)

/-! ### Requests for the controller -/

/-- Hands a request to the dispatcher. A full queue is purged for it. -/
def notify (s : Stack) (m : Message) : Stack × Except Fault Unit :=
  match s.requests.put m with
  | (requests, .accepted) => ({ s with requests }, .ok ())
  | (_, .closed) => (s, .error .queueClosed)
  | (_, .full) =>
    let (requests, dropped) := s.requests.purge
    let (requests, put) := requests.put m
    (({ s with requests }).report (Event.purge .request dropped), put.outcome)

/-- Takes the oldest request that waits for the dispatcher. -/
def takeRequest (s : Stack) : Stack × Option Message :=
  let (requests, m) := s.requests.get
  ({ s with requests }, m)

/-- The refusal of a request of the host: the response function, the command, and a code. -/
def hostRefusal (m : Message) : List UInt8 :=
  [(m.netFn ||| 1) <<< 2, m.cmd, CompletionCode.cannotRespond]

/-- Accepts a request of the host. What the board does not serve is bridged to the baseboard
management controller; where that fails the host is told at once. -/
def submitFromHost (s : Stack) (m : Message) : Stack × Except Fault Unit :=
  let m := { m with infSource := .hostKcs }
  if s.policy.servesHost m.netFn m.cmd then s.notify m
  else
    let m := { m with infTarget := .bmcIpmb }
    let (s, sent) : Stack × Except Fault Unit :=
      match s.busFor .bmcIpmb with
      | none => (s, .error .noBmcBus)
      | some bmc => s.sendRequest m bmc
    match sent with
    | .ok _ => (s, .ok ())
    | .error fault =>
      match (s.emit (.hostNotBridged m fault)).writeHost (hostRefusal m) with
      | (s, .ok _) => (s, .error fault)
      | (s, .error hostFault) => (s, .error hostFault)

end Stack

end ManagementBus
