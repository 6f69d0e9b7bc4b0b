import ManagementBus.Stack

/-!
# The other end of a link

What the peer of a bus does: it writes messages and bytes to the link, reads what has arrived
there, and answers requests.
-/

namespace ManagementBus.Stack

/-- Changes the link of a bus. -/
def onLink (s : Stack) (i : Nat) (f : Link → Link) : Stack :=
  s.onBus i fun b => { b with link := f b.link }

/-- The far end writes the frame of a message to its receiver. -/
def peerWrite (l : Link) (m : Message) : Link × Except Fault (List UInt8) :=
  match Frame.encode m with
  | .error fault => (l, .error fault)
  | .ok frame =>
    let (swapped, outcome) := l.swap.write m.destAddr (Frame.wirePayload frame)
    (swapped.swap, outcome.map fun _ => frame)

/-- The peer of a bus sends a message. -/
def peerSend (s : Stack) (i : Nat) (bus : Bus) (m : Message) :
    Stack × Except Fault (List UInt8) :=
  let (link, outcome) := peerWrite bus.link m
  (s.onLink i fun _ => link, outcome)

/-- The peer of a bus takes its oldest frame. -/
def peerRead (s : Stack) (i : Nat) (bus : Bus) : Stack × Option (List UInt8) :=
  (s.onLink i fun l => { l with far.inbox := l.far.inbox.tail }, bus.link.far.inbox.head?)

/-- The response of an endpoint to a request, if the data are not too long. -/
def peerResponse (addr : UInt8) (request : Message) (code : UInt8) (bytes : List UInt8) :
    Except Fault Message :=
  match Payload.ofBytes? bytes with
  | none => .error .payloadTooLong
  | some data =>
    .ok
      { destAddr := request.srcAddr >>> 1
        netFn := request.netFn + 1
        srcAddr := addr <<< 1
        seq := request.seq
        cmd := request.cmd
        completionCode := code
        data }

/-- The peer of a bus takes its oldest frame and answers it, with a code and data; its answer is the
frame that it writes. The frame is gone even if there is no answer to it. -/
def peerAnswer (s : Stack) (i : Nat) (bus : Bus) (code : UInt8) (bytes : List UInt8) :
    Stack × Option (Except Fault (List UInt8)) :=
  match s.peerRead i bus with
  | (s, none) => (s, none)
  | (s, some raw) =>
    match Frame.normalizeInbound raw >>= Frame.decode >>=
        fun request => peerResponse bus.link.far.addr request code bytes with
    | .error fault => (s, some (.error fault))
    | .ok response =>
      let link := { bus.link with far.inbox := bus.link.far.inbox.tail }
      let (link, outcome) := peerWrite link response
      (s.onLink i fun _ => link, some outcome)

end ManagementBus.Stack
