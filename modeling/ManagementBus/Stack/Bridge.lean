import ManagementBus.Stack.Send

/-!
# Bridging on request

A request to bridge carries the channel to bridge to, a network function in the upper six bits of a
byte, a command, and the data of the request that is to go out there. What goes out keeps the
number and the channel by which the caller knows it, so that the response finds its way back. A
request that cannot be bridged is answered at once, with a code and without data.
-/

namespace ManagementBus.Stack

/-- Forwards the request inside a request to bridge. The code is that of the first check that
fails: length, target, sending. -/
def forward (s : Stack) (m : Message) : Stack × UInt8 :=
  match m.data.bytes with
  | target :: function :: cmd :: _ =>
    let target : Channel := ⟨target⟩
    match s.busFor target with
    | none => (s.emit (.bridgeTargetUnknown target), CompletionCode.notSupportedInState)
    | some i =>
      let bridged : Message :=
        { netFn := function >>> 2, cmd, data := m.data.drop 3, seqSource := m.seqSource
          infSource := m.infSource, infTarget := target }
      match s.sendRequest bridged i with
      | (s, .ok _) => (s, CompletionCode.success)
      | (s, .error fault) => (s.emit (.bridgeFailed target fault), CompletionCode.bridgeError)
  | _ => (s, CompletionCode.invalidLength)

/-- Answers a request to bridge that is refused. -/
def refuseBridge (s : Stack) (m : Message) : Stack :=
  let (s, outcome) : Stack × Except Fault Unit :=
    match s.busFor m.infSource with
    | none => (s, .error .noBridgeSource)
    | some i => s.sendResponse m i
  match outcome with
  | .ok _ => s
  | .error fault => s.emit (.responseFailed m.infSource .messageOut fault)

/-- Serves a request to bridge, unless it comes with the code for a wrong enterprise number; any
code but success is sent back. -/
def messageOut (s : Stack) (m : Message) : Stack × Message :=
  let (s, code) :=
    if m.completionCode = CompletionCode.invalidIana then (s, m.completionCode) else s.forward m
  if code = CompletionCode.success then (s, { m with completionCode := code })
  else
    let refused := { m.clearData with completionCode := code }
    (s.refuseBridge refused, refused)

end ManagementBus.Stack
