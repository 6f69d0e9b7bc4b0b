import ManagementBus.Command
import ManagementBus.Stack.Send

/-!
# Calls that wait

A caller that sends or reads may have to wait: for a lock, for room in a transmit queue, or for its
response. A call is such a caller with what it waits for. It goes through its obstacles in order,
and each step of it takes the call at least one obstacle further:

* a read waits for the read lock of its bus, so that there is one reader at a time;
* whoever sends waits for the lock of the requests or of the responses;
* with that lock in hand it waits for room;
* a read then waits for its response.

Waits for a lock and for a response have a deadline, counted in the time that callers of the stack
have waited. What a call reports goes to the call and not to the journal of the stack.

## Main statements

* `rank_resumeCall_lt`, `rank_abandonCall_lt`: a call that goes on, and one that gives up, has fewer
  obstacles before it than it had.
-/

namespace ManagementBus

/-- What a caller has asked for. -/
inductive CallKind where
  | sendRequest
  | sendResponse
  /-- To send a request and to hand over its response. -/
  | read
  /-- To read the identity of a device. -/
  | getDeviceId
  /-- To append an entry to the system event log. -/
  | addSelEntry (entry : SelEntry)
deriving DecidableEq

namespace CallKind

/-- Whether the caller wants a response. -/
def reads : CallKind → Bool
  | sendRequest | sendResponse => false
  | read | getDeviceId | addSelEntry _ => true

/-- The lock under which the caller sends. -/
def lock : CallKind → Lock
  | sendResponse => .sendResponse
  | sendRequest | read | getDeviceId | addSelEntry _ => .sendRequest

end CallKind

/-- What a call hands to its caller. -/
inductive CallResult where
  | sent (outcome : Except Fault Unit)
  /-- The outcome of a read, and the response or what has become of the request. -/
  | read (outcome : Except Fault Unit) (m : Message)
  | device (outcome : Except Fault DeviceId)
  /-- The record number that the log has assigned. -/
  | assigned (outcome : Except Fault UInt16)

/-- What a call waits for. -/
inductive Obstacle where
  | readLock
  | sendLock
  /-- Room for the envelope, while the lock is held. -/
  | room (e : Envelope)
  | response
deriving DecidableEq

/-- A wait: its number in the order of waits, and the end of the caller's patience. -/
structure Wait where
  obstacle : Obstacle
  ticket : Nat
  deadline : Option Nat
deriving DecidableEq

/-- Where a call stands. -/
inductive CallState where
  /-- The call has not begun. -/
  | fresh
  | waiting (w : Wait)
  | finished (result : CallResult)

/-- A caller of the stack. -/
structure Call where
  kind : CallKind
  bus : Nat
  /-- The message of the caller. -/
  msg : Message
  state : CallState
  /-- What the call has reported, oldest first. -/
  events : List Event := []

namespace Call

/-- A call that has not begun. -/
def new (kind : CallKind) (bus : Nat) (msg : Message) : Call :=
  { kind, bus, msg, state := .fresh }

/-- The wait of a call that waits. -/
def wait? (c : Call) : Option Wait :=
  match c.state with
  | .waiting w => some w
  | .fresh | .finished _ => none

/-- The result of a call that is finished. -/
def result? (c : Call) : Option CallResult :=
  match c.state with
  | .fresh | .waiting _ => none
  | .finished r => some r

/-- Whether the call has begun and not finished. -/
def isWaiting (c : Call) : Bool := c.wait?.isSome

/-- The number of the wait of a call, in the order of waits. -/
def ticket (c : Call) : Nat := (c.wait?.map Wait.ticket).getD 0

/-- The end of the patience of a call. -/
def deadline? (c : Call) : Option Nat := c.wait?.bind Wait.deadline

/-- The call with something to wait for. -/
def waitFor (c : Call) (obstacle : Obstacle) (ticket : Nat) (deadline : Option Nat) : Call :=
  { c with state := .waiting { obstacle, ticket, deadline } }

/-- The call with its result. -/
def finish (c : Call) (result : CallResult) : Call :=
  { c with state := .finished result }

/-- The result of a call that has ended with a response or a fault. -/
def resultOf (c : Call) (outcome : Except Fault Message) : CallResult :=
  match c.kind with
  | .sendRequest | .sendResponse => .sent (outcome.map fun _ => ())
  | .read =>
    match outcome with
    | .ok response => .read (.ok ()) response
    | .error fault => .read (.error fault) c.msg
  | .getDeviceId => .device (outcome >>= Command.getDeviceId.parseResponse)
  | .addSelEntry entry => .assigned (outcome >>= (Command.addSelEntry entry).parseResponse)

end Call

/-- The number of obstacles from one on to the end of a call. -/
def Obstacle.rank : Obstacle → Nat
  | readLock => 4
  | sendLock => 3
  | room _ => 2
  | response => 1

/-- The number of obstacles that a call may still meet. -/
def Call.rank (c : Call) : Nat :=
  match c.wait? with
  | some w => w.obstacle.rank
  | none => 0

namespace Stack

/-! ### The end of a call -/

/-- Ends a call; the end of a read is reported. -/
def endCall (s : Stack) (c : Call) (outcome : Except Fault Message) : Stack × Call :=
  let s :=
    if c.kind.reads then
      match outcome with
      | .ok response =>
        s.emit (.readDone c.bus c.msg.netFn c.msg.cmd response.completionCode)
      | .error fault => s.emit (.readFailed c.bus c.msg.netFn c.msg.cmd fault)
    else s
  (s, c.finish (c.resultOf outcome))

/-- Ends a call that holds the read lock, if it reads. -/
def leaveCall (s : Stack) (c : Call) (outcome : Except Fault Message) : Stack × Call :=
  let s := if c.kind.reads then s.onBus c.bus fun b => b.release .read else s
  s.endCall c outcome

/-! ### The obstacles, last to first -/

/-- A call whose message has been queued: a reader waits for the response. -/
def callSent (s : Stack) (c : Call) (ticket : Nat) : Stack × Call :=
  if c.kind.reads then
    (s, c.waitFor .response ticket (some (s.waited + s.timing.readTimeout.millis)))
  else s.leaveCall c (.ok c.msg)

/-- The envelope of a call: a request draws its number now. -/
def callEnvelope (s : Stack) (c : Call) (bus : Bus) : Stack × Envelope :=
  match c.kind with
  | .sendResponse => (s, { msg := bus.responseFor c.msg })
  | _ => s.drawRequest c.bus bus c.msg

/-- A call with its send lock free queues its envelope, or waits for room with the lock taken. -/
def callQueue (s : Stack) (c : Call) (bus : Bus) (e : Envelope) (ticket : Nat) : Stack × Call :=
  match s.enqueue c.bus bus e with
  | (s, .accepted) => s.callSent c ticket
  | (s, .closed) => s.leaveCall c (.error .queueClosed)
  | (s, .full) =>
    (s.onBus c.bus fun b => b.take c.kind.lock, c.waitFor (.room e) ticket none)

/-- A call tries to take its send lock. -/
def callSend (s : Stack) (c : Call) (ticket : Nat) : Stack × Call :=
  match s.buses[c.bus]? with
  | none => s.leaveCall c (.error (.unknownBus c.bus))
  | some bus =>
    if bus.isLocked c.kind.lock then
      (s, c.waitFor .sendLock ticket (some (s.waited + s.timing.lockTimeout.millis)))
    else
      let (s, e) := s.callEnvelope c bus
      s.callQueue c bus e ticket

/-- A call that holds its send lock tries to queue its envelope. -/
def callRoom (s : Stack) (c : Call) (e : Envelope) (ticket : Nat) : Stack × Call :=
  match s.buses[c.bus]? with
  | none => (s, c)
  | some bus =>
    match s.enqueue c.bus bus e with
    | (s, .accepted) => (s.onBus c.bus fun b => b.release c.kind.lock).callSent c ticket
    | (s, .closed) =>
      (s.onBus c.bus fun b => b.release c.kind.lock).leaveCall c (.error .queueClosed)
    | (s, .full) => (s, c)

/-- A reader that may read: it takes the lock, forgets responses that nobody has waited for, and
sends its request as one of the controller itself. -/
def callRead (s : Stack) (c : Call) (ticket : Nat) : Stack × Call :=
  match s.buses[c.bus]? with
  | none => (s, c)
  | some bus =>
    let (responses, dropped) := bus.responses.purge
    let s := s.onBus c.bus fun b => { b.take .read with responses }
    let s := s.report (Event.purge .response dropped)
    let c :=
      { c with msg := { c.msg with infSource := .self, infTarget := bus.config.channel } }
    s.callSend c ticket

/-- A reader looks for its response. -/
def callResponse (s : Stack) (c : Call) : Stack × Call :=
  match s.buses[c.bus]? with
  | none => (s, c)
  | some bus =>
    match bus.responses.get with
    | (responses, some response) =>
      (s.onBus c.bus fun b => { b with responses }).leaveCall c (.ok response)
    | (_, none) =>
      if bus.responses.closed then s.leaveCall c (.error .queueClosed) else (s, c)

/-! ### Steps of a call -/

/-- Lets a call begin. -/
def beginCall (s : Stack) (c : Call) (ticket : Nat) : Stack × Call :=
  match s.usableBus c.bus with
  | .error fault => s.endCall c (.error fault)
  | .ok bus =>
    if !c.kind.reads then s.callSend c ticket
    else if bus.isLocked .read then
      (s, c.waitFor .readLock ticket (some (s.waited + s.timing.readLockTimeout.millis)))
    else s.callRead c ticket

/-- Whether the obstacle of a call is out of the way. -/
def isReady (s : Stack) (c : Call) : Bool :=
  match c.wait?, s.buses[c.bus]? with
  | some w, some bus =>
    match w.obstacle with
    | .readLock => !bus.isLocked .read
    | .sendLock => !bus.isLocked c.kind.lock
    | .room _ => bus.outbound.closed || !bus.outbound.isFull
    | .response => bus.responses.closed || !bus.responses.items.isEmpty
  | _, _ => false

/-- Takes a call past its obstacle. -/
def resumeCall (s : Stack) (c : Call) (ticket : Nat) : Stack × Call :=
  match c.wait? with
  | none => (s, c)
  | some w =>
    match w.obstacle with
    | .readLock => s.callRead c ticket
    | .sendLock => s.callSend c ticket
    | .room e => s.callRoom c e ticket
    | .response => s.callResponse c

/-- Ends a call that has lost its patience. -/
def abandonCall (s : Stack) (c : Call) : Stack × Call :=
  match c.wait? with
  | none => (s, c)
  | some w =>
    match w.obstacle with
    | .readLock => (s.emit (.lockTimedOut c.bus .read)).endCall c (.error .lockTimeout)
    | .sendLock => (s.emit (.lockTimedOut c.bus c.kind.lock)).leaveCall c (.error .lockTimeout)
    | .room _ =>
      (s.onBus c.bus fun b => b.release c.kind.lock).leaveCall c (.error .timeout)
    | .response => s.leaveCall c (.error .timeout)

/-- Runs a step of a call with a journal of its own, and gives what is in it to the call. -/
def aside (s : Stack) (step : Stack → Stack × Call) : Stack × Call :=
  let (after, c) := step { s with journal := [] }
  ({ after with journal := s.journal }, { c with events := c.events ++ after.journal })

/-- What a call reports stays out of the journal of the stack. -/
@[simp] theorem journal_aside (s : Stack) (step : Stack → Stack × Call) :
    (s.aside step).1.journal = s.journal := rfl

/-! ### Fewer obstacles -/

/-- A step aside takes the call as far as the same step with an empty journal. -/
@[simp] theorem rank_aside (s : Stack) (step : Stack → Stack × Call) :
    (s.aside step).2.rank = (step { s with journal := [] }).2.rank := rfl

/-- A call that has ended has no obstacle before it. -/
@[simp] theorem rank_endCall (s : Stack) (c : Call) (outcome : Except Fault Message) :
    (s.endCall c outcome).2.rank = 0 := rfl

/-- A call that leaves its locks behind has ended. -/
@[simp] theorem rank_leaveCall (s : Stack) (c : Call) (outcome : Except Fault Message) :
    (s.leaveCall c outcome).2.rank = 0 := rfl

/-- After its envelope is queued a call can at most wait for its response. -/
theorem rank_callSent_le (s : Stack) (c : Call) (ticket : Nat) :
    (s.callSent c ticket).2.rank ≤ 1 := by
  unfold callSent
  split
  · exact Nat.le_refl 1
  · simp

/-- A call that offers an envelope can at most wait for room. -/
theorem rank_callQueue_le (s : Stack) (c : Call) (bus : Bus) (e : Envelope) (ticket : Nat) :
    (s.callQueue c bus e ticket).2.rank ≤ 2 := by
  unfold callQueue
  split
  · exact Nat.le_succ_of_le (rank_callSent_le ..)
  · simp
  · exact Nat.le_refl 2

/-- A call that is about to send can at most wait for the lock of the senders. -/
theorem rank_callSend_le (s : Stack) (c : Call) (ticket : Nat) :
    (s.callSend c ticket).2.rank ≤ 3 := by
  unfold callSend
  split
  · simp
  · split
    · exact Nat.le_refl 3
    · exact Nat.le_succ_of_le (rank_callQueue_le ..)

/-- With its send lock free a call gets past it. -/
theorem rank_callSend_le_of_free {s : Stack} {c : Call} {bus : Bus} (ticket : Nat)
    (hbus : s.buses[c.bus]? = some bus) (hfree : bus.isLocked c.kind.lock = false) :
    (s.callSend c ticket).2.rank ≤ 2 := by
  unfold callSend
  simp only [hbus, hfree]
  exact rank_callQueue_le ..

/-- A reader that has its lock can at most wait for the lock of the senders, like any sender. -/
theorem rank_callRead_le {s : Stack} {c : Call} {bus : Bus} (ticket : Nat)
    (hbus : s.buses[c.bus]? = some bus) : (s.callRead c ticket).2.rank ≤ 3 := by
  unfold callRead
  simp only [hbus]
  exact rank_callSend_le ..

/-- With room or a closed queue a call gets past the queue. -/
theorem rank_callRoom_le {s : Stack} {c : Call} {bus : Bus} (e : Envelope) (ticket : Nat)
    (hbus : s.buses[c.bus]? = some bus)
    (hroom : (bus.outbound.closed || !bus.outbound.isFull) = true) :
    (s.callRoom c e ticket).2.rank ≤ 1 := by
  unfold callRoom
  simp only [hbus]
  split
  · exact rank_callSent_le ..
  · simp
  · next h =>
    have hput := congrArg Prod.snd h
    simp only [enqueue, Queue.put] at hput
    cases hc : bus.outbound.closed <;> cases hf : bus.outbound.isFull <;> simp_all

/-- With a response or a closed queue a reader is done. -/
theorem rank_callResponse {s : Stack} {c : Call} {bus : Bus}
    (hbus : s.buses[c.bus]? = some bus)
    (hready : (bus.responses.closed || !bus.responses.items.isEmpty) = true) :
    (s.callResponse c).2.rank = 0 := by
  unfold callResponse
  simp only [hbus]
  split
  · simp
  · next h =>
    have hnone := congrArg Prod.snd h
    simp only [Queue.get, List.head?_eq_none_iff] at hnone
    simp only [hnone, List.isEmpty_nil, Bool.not_true, Bool.or_false] at hready
    simp [hready]

/-- **A call whose obstacle is out of the way gets past it.** -/
theorem rank_resumeCall_lt {s : Stack} {c : Call} (ticket : Nat) (h : s.isReady c = true) :
    (s.resumeCall c ticket).2.rank < c.rank := by
  unfold isReady at h
  split at h
  · next w bus hw hbus =>
    simp only [resumeCall, Call.rank, hw]
    cases ho : w.obstacle with
    | readLock => exact Nat.lt_succ_of_le (rank_callRead_le ticket hbus)
    | sendLock =>
      refine Nat.lt_succ_of_le (rank_callSend_le_of_free ticket hbus ?_)
      simpa [ho] using h
    | room e =>
      refine Nat.lt_succ_of_le (rank_callRoom_le e ticket hbus ?_)
      simpa [ho] using h
    | response =>
      refine Nat.lt_succ_of_le (Nat.le_of_eq (rank_callResponse hbus ?_))
      simpa [ho] using h
  · simp at h

/-- **A call that gives up has ended.** -/
theorem rank_abandonCall_lt {s : Stack} {c : Call} (h : c.isWaiting = true) :
    (s.abandonCall c).2.rank < c.rank := by
  obtain ⟨w, hw⟩ := Option.isSome_iff_exists.1 h
  simp only [abandonCall, Call.rank, hw]
  cases w.obstacle <;> exact Nat.succ_pos _

end Stack

end ManagementBus
