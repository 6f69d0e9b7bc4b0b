import ManagementBus.Stack.Send

/-!
# Receiving

The receive worker of a bus reads its link. A frame with a wrong checksum or of no known form goes
no further. A response is matched with the oldest pending request that it answers, and goes where
that request came from. A request goes to the dispatcher; one of the management engine that the
board does not serve is bridged to the baseboard management controller.
-/

namespace ManagementBus

/-- What a look at a link comes to. -/
inductive Received where
  /-- The bus has no worker that runs. -/
  | noWorker
  /-- The link failed. -/
  | error
  /-- Nothing was there. -/
  | empty
  | frame
deriving DecidableEq

namespace Stack

/-! ### Responses -/

/-- Hands a response to the readers of its bus. -/
def answerReader (s : Stack) (i : Nat) (m : Message) : Stack :=
  match s.buses[i]? with
  | none => s
  | some bus =>
    match bus.responses.put m with
    | (responses, .accepted) => s.onBus i fun b => { b with responses }
    | (_, _) => s.emit (.frameDropped i .responseQueueFull)

/-- Writes a response to the host. -/
def answerHost (s : Stack) (i : Nat) (m : Message) : Stack :=
  if s.kcs.isPresent then
    match s.writeHost (m.netFn <<< 2 :: m.cmd :: m.completionCode :: m.data.bytes) with
    | (s, .ok _) => s
    | (s, .error _) => s.emit (.frameDropped i .kcsWriteFailed)
  else s.emit (.frameDropped i .noKcsSink)

/-- Relays a response to the management engine, under the number by which it knows its request. -/
def answerMe (s : Stack) (i : Nat) (m : Message) : Stack :=
  match s.busFor .meIpmb with
  | none => s.emit (.frameDropped i .noMeBus)
  | some me =>
    match s.sendResponse { m with netFn := m.netFn - 1, seq := m.seqSource } me with
    | (s, .ok _) => s
    | (s, .error _) => s.emit (.frameDropped i .meResponseNotQueued)

/-- The data in which a response to a bridged request comes back: the enterprise number, the
channel, function, command and completion code of the response, and its data. -/
def bridgedData (channel : Channel) (m : Message) : List UInt8 :=
  ianaBytes ++ [channel.number, m.netFn, m.cmd, m.completionCode] ++ m.data.bytes

/-- Wraps a response to a bridged request for the bus that asked for the bridge. -/
def answerBridge (s : Stack) (i : Nat) (channel : Channel) (m : Message) : Stack :=
  match s.busFor m.infSource with
  | none => s.emit (.frameDropped i .noBridgeSource)
  | some target =>
    match Payload.ofBytes? (bridgedData channel m) with
    | none => s.emit (.frameDropped i .bridgedTooLong)
    | some data =>
      let reply : Message :=
        { netFn := NetFn.enterprise, cmd := Cmd.messageOut
          completionCode := CompletionCode.success, seq := m.seqSource, data }
      match s.sendResponse reply target with
      | (s, .ok _) => s
      | (s, .error _) => s.emit (.frameDropped i .bridgedNotQueued)

/-- Delivers a response, completed by the request that it answers, where that came from. -/
def deliverResponse (s : Stack) (i : Nat) (channel : Channel) (m : Message) : Stack :=
  if m.infSource = .self then s.answerReader i m
  else if m.infSource = .hostKcs then s.answerHost i m
  else if m.infSource = .meIpmb then s.answerMe i m
  else s.answerBridge i channel m

/-- Matches a response with the request that it answers. -/
def routeResponse (s : Stack) (i : Nat) (bus : Bus) (m : Message) : Stack :=
  match bus.ledger.findAndRemove { m with seqTarget := m.seq } .response with
  | (_, none) => s.emit (.responseUnmatched i m)
  | (ledger, some m) =>
    (s.onBus i fun b => { b with ledger }).deliverResponse i bus.config.channel m

/-! ### Requests -/

/-- Bridges a request of the management engine; where that fails the engine is told at once. -/
def bridgeMeRequest (s : Stack) (i : Nat) (m : Message) : Stack :=
  let bridged := { m with seqSource := m.seq, infSource := .meIpmb, infTarget := .bmcIpmb }
  let (s, sent) :=
    match s.busFor .bmcIpmb with
    | none => (s, false)
    | some bmc =>
      let (s, outcome) := s.sendRequest bridged bmc
      (s, outcome.isOk)
  if sent then s
  else
    let reply := { m.clearData with completionCode := CompletionCode.timeout }
    match (s.emit (.frameDropped i .meRequestNotBridged)).sendResponse reply i with
    | (s, .ok _) => s
    | (s, .error _) => s.emit (.frameDropped i .meTimeoutNotQueued)

/-- Sends a request on its way. -/
def routeRequest (s : Stack) (i : Nat) (bus : Bus) (m : Message) : Stack :=
  let channel := bus.config.channel
  if channel = .meIpmb && !s.policy.servesMe m.netFn m.cmd then s.bridgeMeRequest i m
  else
    match s.notify { m with seqSource := m.seq, infSource := channel } with
    | (s, .ok _) => s
    | (s, .error _) => s.emit (.frameDropped i .requestQueueClosed)

/-! ### Frames -/

/-- Handles what a link has delivered to a bus. -/
def handleFrame (s : Stack) (i : Nat) (bus : Bus) (raw : List UInt8) : Stack :=
  match Frame.normalizeInbound raw with
  | .error _ => s.emit (.frameDropped i .oversizeFrame)
  | .ok frame =>
    let s := s.report (Event.dump s.dumping i "rx" frame)
    match Frame.validate frame with
    | .error fault => s.emit (.frameRejected i fault)
    | .ok _ =>
      match Frame.decode frame with
      | .error _ => s.emit (.frameDropped i .malformedFrame)
      | .ok m =>
        let s := s.emit (.frameReceived i m)
        if m.isResponse then s.routeResponse i bus m else s.routeRequest i bus m

/-- One look at the link of a bus. -/
def receive (s : Stack) (i : Nat) : Stack × Received :=
  match s.workerBus i with
  | none => (s, .noWorker)
  | some bus =>
    let (link, outcome) := bus.link.read
    let s := s.onBus i fun b => { b with link }
    match outcome with
    | .error fault => (s.emit (.linkReadFailed i fault), .error)
    | .ok none => (s, .empty)
    | .ok (some raw) => (s.handleFrame i { bus with link } raw, .frame)

end Stack

end ManagementBus
