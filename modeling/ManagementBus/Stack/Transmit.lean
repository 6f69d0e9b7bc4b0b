import ManagementBus.Stack.Send

/-!
# Transmitting

The transmit worker of a bus takes the oldest envelope in hand and writes its frame. A request is
staged in the ledger before its write, so that no response can come too early; the write then
commits it or withdraws it. After a failed write the envelope goes back behind the others, until it
has used up its retries: a request is then given up and its originator told, and a response is
dropped when its turn comes again.

A write has two halves, between which other callers and workers may act: `transmitBegin` ends just
before the link is written, and `transmitEnd` does the rest.
-/

namespace ManagementBus

/-- What the first half of a write comes to. -/
inductive TransmitBegin where
  /-- The bus has no worker that runs. -/
  | noWorker
  /-- An envelope is in hand already. -/
  | busy
  /-- No envelope waits. -/
  | idle
  /-- The envelope had used up its retries. -/
  | dropped
  /-- The envelope is in hand, and its frame about to be written. -/
  | writing
deriving DecidableEq

/-- What the second half of a write comes to. -/
inductive TransmitEnd where
  | noWorker
  /-- No envelope is in hand. -/
  | idle
  | done
deriving DecidableEq

namespace Envelope

/-- The envelope after a failed write. -/
def failed (e : Envelope) : Envelope := { e with retries := e.retries + 1 }

end Envelope

namespace Stack

/-! ### Requests that cannot be delivered -/

/-- The report to another bus that a bridged request could not be delivered. -/
def nodeBusyReport (m : Message) : Message :=
  { netFn := NetFn.enterprise
    cmd := Cmd.messageOut
    completionCode := CompletionCode.nodeBusy
    seq := m.seqSource }

/-- Tells the originator of a request that it could not be delivered. A reader of the controller
itself is left to its timeout. -/
def reportFailure (s : Stack) (m : Message) : Stack :=
  let source := m.infSource
  if source = .reserved then s.emit (.undeliverableReserved m)
  else if source = .self then s.emit (.undeliverableSelf m)
  else if source = .hostKcs then
    if s.kcs.isPresent then
      match s.writeHost (hostRefusal m) with
      | (s, .ok _) => s
      | (s, .error fault) => s.emit (.responseFailed .hostKcs .kcs fault)
    else s.emit .undeliverableHost
  else match s.busFor source with
    | none => s.emit (.undeliverableSource source)
    | some target =>
      match s.trySendResponse (nodeBusyReport m) target with
      | (s, .ok _) => s
      | (s, .error fault) => s.emit (.responseFailed source .nodeBusy fault)

/-! ### The first half -/

/-- Takes an envelope in hand. -/
def takeInHand (s : Stack) (i : Nat) (e : Envelope) : Stack :=
  let s := s.onBus i fun b => { b with inHand := some e }
  match Frame.encode e.msg with
  | .ok frame => s.report (Event.dump s.dumping i "tx" frame)
  | .error _ => s

/-- Begins the write of a response, unless it has used up its retries. -/
def beginResponse (s : Stack) (i : Nat) (bus : Bus) (e : Envelope) : Stack × TransmitBegin :=
  if s.timing.maxRetries < e.retries then
    (s.emit (.frameDropped i .responseRetryLimit), .dropped)
  else
    (s.takeInHand i { e with msg.destAddr := bus.config.targetAddr }, .writing)

/-- Begins the write of a request: it is staged under its own sequence number. -/
def beginRequest (s : Stack) (i : Nat) (e : Envelope) : Stack × TransmitBegin :=
  let e := { e with msg.seqTarget := e.msg.seq }
  let s := s.onBus i fun b => { b with ledger := b.ledger.stage e.msg s.clock.now }
  (s.takeInHand i e, .writing)

/-- The first half of a write. -/
def transmitBegin (s : Stack) (i : Nat) : Stack × TransmitBegin :=
  match s.workerBus i with
  | none => (s, .noWorker)
  | some bus =>
    if bus.inHand.isSome then (s, .busy)
    else match bus.outbound.get with
      | (_, none) => (s, .idle)
      | (outbound, some e) =>
        let s := s.onBus i fun b => { b with outbound }
        if e.msg.isResponse then s.beginResponse i bus e else s.beginRequest i e

/-! ### The second half -/

/-- Writes the frame of a message to the link of a bus. -/
def writeFrame (s : Stack) (i : Nat) (bus : Bus) (m : Message) : Stack × Except Fault Unit :=
  match Frame.encode m with
  | .error fault => (s, .error fault)
  | .ok frame =>
    let (link, outcome) := bus.link.write m.destAddr (Frame.wirePayload frame)
    (s.onBus i fun b => { b with link }, outcome)

/-- Confirms a staged request whose write has succeeded. -/
def commitRequest (s : Stack) (i : Nat) (bus : Bus) : Stack :=
  let (ledger, dropped) := bus.ledger.commit
  (s.onBus i fun b => { b with ledger }).report (Event.evictions i .capacity dropped)

/-- Puts an envelope back behind the others after a failed write. -/
def requeue (s : Stack) (i : Nat) (bus : Bus) (e : Envelope) : Stack :=
  match s.enqueue i bus e with
  | (s, .accepted) => s
  | (s, _) => s.emit (.frameDropped i .transmitFullOnRetry)

/-- Writes the envelope that was in hand, and does what follows from the outcome. -/
def finishWrite (s : Stack) (i : Nat) (bus : Bus) (e : Envelope) : Stack :=
  let s := s.onBus i fun b => { b with inHand := none }
  match s.writeFrame i bus e.msg with
  | (s, .ok _) =>
    (if e.msg.isResponse then s else s.commitRequest i bus).emit (.frameSent i e.msg)
  | (s, .error fault) =>
    let failed := e.failed
    if e.msg.isResponse then
      (s.emit (.writeFailed i failed.msg failed.retries fault)).requeue i bus failed
    else
      let s := s.onBus i fun b => { b with ledger := (b.ledger.withdraw e.msg).1 }
      let s := s.emit (.writeFailed i failed.msg failed.retries fault)
      if s.timing.maxRetries < failed.retries then
        (s.emit (.requestFailed i failed.msg)).reportFailure failed.msg
      else s.requeue i bus failed

/-- Finishes the write that has begun on a bus, if one has. -/
def finishInHand (s : Stack) (i : Nat) : Stack :=
  match s.buses[i]? with
  | none => s
  | some bus =>
    match bus.inHand with
    | none => s
    | some e => s.finishWrite i bus e

/-- The second half of a write. -/
def transmitEnd (s : Stack) (i : Nat) : Stack × TransmitEnd :=
  match s.workerBus i with
  | none => (s, .noWorker)
  | some bus =>
    match bus.inHand with
    | none => (s, .idle)
    | some e => (s.finishWrite i bus e, .done)

/-! ### The end -/

/-- Stops the workers and closes every queue: nothing is queued any more, and what the queues hold
stays there. -/
def stop (s : Stack) : Stack :=
  { s with stopped := true, buses := s.buses.map Bus.close, requests := s.requests.close }

end Stack

end ManagementBus
