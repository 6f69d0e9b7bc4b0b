import ManagementBus.Stack.Bridge

/-!
# Dispatching

The dispatcher serves a request by a handler and sends the response back to where the request came
from. The data of enterprise commands open with the enterprise number, which the handler does not
see: it is taken off the request and put in front of a successful response. Commands that answer
themselves get no response from the dispatcher.
-/

namespace ManagementBus

/-- What executes commands: the response that it makes of a request. It sets the completion code
and replaces the data. -/
abbrev Handler := Message → Message

namespace Stack

/-- Writes the response to a request to the host, or queues it on the bus of its channel. -/
def respond (s : Stack) (m : Message) : Stack :=
  if m.infSource = .hostKcs then
    if s.kcs.isPresent then
      match s.writeHost ((m.netFn + 1) <<< 2 :: m.cmd :: m.completionCode :: m.data.bytes) with
      | (s, .ok _) => s
      | (s, .error fault) => s.emit (.responseFailed .hostKcs .kcs fault)
    else s.emit (.hostUnreachable m)
  else
    let (s, outcome) : Stack × Except Fault Unit :=
      match s.busFor m.infSource with
      | none => (s, .error .noRequestSource)
      | some i => s.sendResponse m i
    match outcome with
    | .ok _ => s
    | .error fault => s.emit (.responseFailed m.infSource .bus fault)

/-- Puts the enterprise number in front of the data; data that leave no room for it give an
unspecified error. -/
def openWithIana (m : Message) : Message :=
  match Payload.ofBytes? (ianaBytes ++ m.data.bytes) with
  | some data => { m with data }
  | none => { m.clearData with completionCode := CompletionCode.unspecified }

/-- What is sent back of a served message: no data beside a code other than success, and the
enterprise number where it belongs. -/
def finalResponse (m : Message) : Message :=
  if m.completionCode ≠ CompletionCode.success then m.clearData
  else if m.netFn = NetFn.enterprise then openWithIana m
  else m

/-- Serves an enterprise command: bridging here, and everything else by the handler. The list holds
what the handler has seen. -/
def serveEnterprise (s : Stack) (handler : Handler) (m : Message) :
    Stack × Message × List Message :=
  if m.cmd = Cmd.messageOut then
    let (s, m) := s.messageOut m
    (s, m, [])
  else (s, handler m, [m])

/-- Serves a request, without the response. Enterprise data that do not open with the enterprise
number reach only commands that answer themselves, with the code that says so. -/
def serve (s : Stack) (handler : Handler) (m : Message) : Stack × Message × List Message :=
  let m := { m with completionCode := CompletionCode.invalidCommand }
  if m.netFn = NetFn.enterprise then
    if ianaBytes.isPrefixOf m.data.bytes then
      s.serveEnterprise handler { m with data := m.data.drop ianaBytes.length }
    else
      let m := { m with completionCode := CompletionCode.invalidIana }
      if s.policy.answersItself m.netFn m.cmd then s.serveEnterprise handler m
      else (s, m.clearData, [])
  else (s, handler m, [m])

/-- Serves a request and sends its response. The list holds what the handler has seen. -/
def dispatch (s : Stack) (handler : Handler) (m : Message) : Stack × List Message :=
  let s := if s.dumping then s.emit (.dispatching m) else s
  let (s, served, seen) := s.serve handler m
  if s.policy.answersItself served.netFn served.cmd then (s, seen)
  else (s.respond (finalResponse served), seen)

/-- Dispatches the requests that wait, oldest first, up to a number of them. -/
def dispatchUpTo (handler : Handler) : Nat → Stack → Stack × List Message
  | 0, s => (s, [])
  | n + 1, s =>
    match s.takeRequest with
    | (s, none) => (s, [])
    | (s, some m) =>
      let (s, seen) := s.dispatch handler m
      let (s, later) := dispatchUpTo handler n s
      (s, seen ++ later)

/-- Dispatches every request that waits; meant for a closed queue, which takes no new ones. -/
def dispatchAll (s : Stack) (handler : Handler) : Stack × List Message :=
  dispatchUpTo handler s.requests.length s

end Stack

end ManagementBus
