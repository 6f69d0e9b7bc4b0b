import ManagementBus.Proofs.Pending
import ManagementBus.Proofs.Returning

/-!
# A stack with one bus

A stack of which only one bus is usable has little to tell: what has arrived at either end of the
link, what waits to be transmitted or is in hand, what is pending, what waits for a reader or for
the dispatcher, and which locks are taken. These are its `Contents`. This module follows them
through the steps of workers, callers and dispatcher, one lemma a step, as long as no write fails.

## Main results

* `contains_of_build`: a stack that has been built with one usable bus is empty.
* `contains_begin`, `contains_resume`: a reader queues its request, and takes its response.
* `contains_transmitBegin`, `contains_transmitEnd`: the worker takes an envelope, and writes it.
* `contains_receive_request`, `contains_receive_response`: what it hears.
* `contains_dispatch`: a request is served.
-/

namespace ManagementBus

open EnvelopeProperty

/-! ### Links that work -/

namespace Link

/-- A link works between two addresses, and these frames wait at its ends. -/
structure Works (l : Link) (near far : UInt8) (atNear atFar : List (List UInt8)) : Prop where
  nearAddr : l.near.addr = near
  farAddr : l.far.addr = far
  nearInbox : l.near.inbox = atNear
  farInbox : l.far.inbox = atFar
  nearWrites : l.near.failures = .next 0
  farWrites : l.far.failures = .next 0
  nearReads : l.near.readFails = false
  farReads : l.far.readFails = false

variable {l : Link} {near far : UInt8} {atNear atFar : List (List UInt8)}

/-- A new link works, with nothing on its way. -/
theorem works_pair (near far : UInt8) : (pair near far).Works near far [] [] :=
  ⟨rfl, rfl, rfl, rfl, rfl, rfl, rfl, rfl⟩

/-- A link that works does so seen from its other end. -/
theorem Works.swap (h : l.Works near far atNear atFar) : l.swap.Works far near atFar atNear :=
  ⟨h.farAddr, h.nearAddr, h.farInbox, h.nearInbox, h.farWrites, h.nearWrites, h.farReads,
    h.nearReads⟩

/-- A read takes the oldest frame. -/
theorem Works.read {raw : List UInt8} (h : l.Works near far (raw :: atNear) atFar) :
    l.read.2 = .ok (some raw) ∧ l.read.1.Works near far atNear atFar := by
  have hread : l.read = ({ l with near.inbox := l.near.inbox.tail }, .ok l.near.inbox.head?) := by
    rw [Link.read, h.nearReads]
    rfl
  rw [hread, h.nearInbox]
  exact ⟨rfl, { h with nearInbox := rfl }⟩

/-- A write to the other end arrives there. -/
theorem Works.write (h : l.Works near far atNear atFar) (payload : List UInt8) :
    (l.write far payload).2 = .ok () ∧
      (l.write far payload).1.Works near far atNear (atFar ++ [far <<< 1 :: payload]) := by
  have hwrite : l.write far payload =
      (⟨{ l.near with
            writes := l.near.writes + 1
            sent := l.near.sent ++ [far <<< 1 :: payload] },
          { l.far with inbox := l.far.inbox ++ [far <<< 1 :: payload] }⟩, .ok ()) := by
    rw [Link.write]
    simp only [h.nearWrites, h.farAddr, Failures.take?, ne_eq, not_true_eq_false, if_false]
  rw [hwrite]
  exact ⟨rfl, { h with farInbox := by rw [h.farInbox] }⟩

end Link

/-- What a link delivers of a message. -/
def Frame.sent (m : Message) : List UInt8 :=
  Frame.delivered m.destAddr (Frame.layout m (Frame.headerSum m) (Frame.messageSum m))

/-- The message that the other end has when it has received it. -/
def Frame.got (m : Message) : Message :=
  Frame.reading (Frame.wired m) (Frame.headerSum m) (Frame.messageSum m)

/-- What a link delivers of a message is received. -/
theorem Frame.message?_sent {m : Message} (h : m.data.length ≤ Frame.dataMax) :
    Frame.message? (Frame.sent m) = some (Frame.got m) := by
  have hlayout := normalizeInbound_delivered m (headerSum m) (messageSum m)
  have hdecode := decode_layout (wired m) (headerSum m) (messageSum m)
  rw [if_pos (show (wired m).data.length ≤ dataMax from h)] at hdecode
  rw [message?, sent, hlayout]
  simp only [Except.toOption, Option.bind_some, validate_wired, hdecode]
  rfl

/-! ### What a stack with one bus contains -/

/-- What a stack contains. -/
structure Contents where
  /-- Requests that wait for the dispatcher. -/
  requests : List Message := []
  /-- Frames that have arrived here. -/
  inbox : List (List UInt8) := []
  /-- Frames that have arrived at the peer. -/
  outbox : List (List UInt8) := []
  pending : List Message := []
  /-- Envelopes that wait for the worker. -/
  waiting : List Envelope := []
  inHand : Option Envelope := none
  /-- Responses that wait for a reader. -/
  answers : List Message := []
  locks : List Lock := []

/-- A bus of a row has these contents, its queues are open and its link works. -/
structure Bus.Holds (b : Bus) (config : BusConfig) (x : Contents) : Prop where
  row : b.config = config
  link : b.link.Works config.selfAddr config.targetAddr x.inbox x.outbox
  pending : b.ledger.entries = x.pending
  tidy : b.ledger.Tidy
  records : 0 < b.ledger.capacity
  waiting : b.outbound.items = x.waiting
  waitingOpen : b.outbound.closed = false
  waitingRoom : 0 < b.outbound.capacity
  inHand : b.inHand = x.inHand
  answers : b.responses.items = x.answers
  answersOpen : b.responses.closed = false
  answersRoom : 0 < b.responses.capacity
  locks : b.locks = x.locks

/-- A bus that a reader has entered. -/
def Bus.entered (b : Bus) : Bus :=
  { b.take .read with responses := b.responses.purge.1 }

/-- A bus that a reader has left with the oldest response. -/
def Bus.left (b : Bus) : Bus := { b with responses := b.responses.get.1 }.release .read

/-- A reader waits for its response on a bus. -/
structure Call.Expects (call : Call) (i : Nat) : Prop where
  kind : call.kind = .read
  bus : call.bus = i
  waits : ∃ w, call.wait? = some w ∧ w.obstacle = .response

namespace Stack

/-- A stack that runs has only one usable bus, of a row at an index, and these contents. -/
structure Contains (s : Stack) (policy : Policy) (i : Nat) (config : BusConfig) (x : Contents) :
    Prop where
  running : s.stopped = false
  policy : s.policy = policy
  usable : config.isUsable = true
  only : ∀ k row, s.busConfig k = some row → row.isUsable = true → k = i
  requests : s.requests.items = x.requests
  requestsOpen : s.requests.closed = false
  requestsRoom : 0 < s.requests.capacity
  bus : ∃ b, s.buses[i]? = some b ∧ b.Holds config x

/-- One bus of a stack is usable, and no other: the one of a row at an index. -/
def OnlyUsable (s : Stack) (i : Nat) (config : BusConfig) : Prop :=
  s.busConfig i = some config ∧ config.isUsable = true ∧
    ∀ k row, s.busConfig k = some row → row.isUsable = true → k = i

/-- The link of a bus. -/
def link? (s : Stack) (i : Nat) : Option Link := s.buses[i]?.map Bus.link

variable {s t : Stack} {policy : Policy} {i : Nat} {config : BusConfig} {x y : Contents}
  {b c : Bus} {e : Envelope} {m : Message}

/-- **A stack that has been built with one usable bus is empty**, if the link of the bus is new. -/
theorem contains_of_build {setup : Setup} (hbuild : setup.build = .ok s)
    (honly : s.OnlyUsable i config)
    (hlink : ∀ l, s.link? i = some l → l.Works config.selfAddr config.targetAddr [] []) :
    s.Contains setup.policy i config {} := by
  obtain ⟨hrow, husable, hothers⟩ := honly
  obtain ⟨b, hb, rfl⟩ := Option.map_eq_some_iff.mp hrow
  obtain ⟨row, link, rfl⟩ := Setup.exists_new_of_build hbuild hb
  have hworks : link.Works row.selfAddr row.targetAddr [] [] := by
    refine hlink link ?_
    rw [link?, hb]
    rfl
  have hcapacity : ∀ n, 0 < max n 1 := fun n => Nat.lt_of_lt_of_le Nat.zero_lt_one
    (Nat.le_max_right n 1)
  have hstack := Setup.eq_of_build hbuild
  refine ⟨?_, ?_, husable, hothers, ?_, ?_, ?_, _, hb, ?_⟩
  · rw [hstack]
  · rw [hstack]
  · rw [hstack]
    rfl
  · rw [hstack]
    rfl
  · rw [hstack]
    exact hcapacity _
  · exact ⟨rfl, hworks, rfl, Ledger.Tidy.new _, hcapacity _, rfl, rfl, hcapacity _, rfl, rfl, rfl,
      hcapacity _, rfl⟩

namespace Contains

/-- The one bus is found, by senders and by its worker. -/
theorem usableBus (h : s.Contains policy i config x) :
    ∃ b, s.usableBus i = .ok b ∧ s.workerBus i = some b ∧ s.buses[i]? = some b ∧
      b.Holds config x := by
  obtain ⟨b, hb, hholds⟩ := h.bus
  have husable : b.config.isUsable = true := hholds.row ▸ h.usable
  exact ⟨b, usableBus_eq hb husable, workerBus_eq_some_iff.mpr ⟨h.running, hb, husable⟩, hb, hholds⟩

/-- The only usable bus is the one that is found for its channel. -/
theorem busFor (h : s.Contains policy i config x) : s.busFor config.channel = some i := by
  obtain ⟨b, hb, hholds⟩ := h.bus
  have hrow : s.busConfig i = some config := by rw [busConfig_eq hb, hholds.row]
  refine ServedOnlyBy.busFor ⟨config, hrow, ?_, ?_⟩
  · rw [BusConfig.serves, h.usable, decide_eq_true rfl]
    rfl
  · intro k row hk hserves
    rw [BusConfig.serves, Bool.and_eq_true] at hserves
    exact h.only k row hk hserves.1

/-- Only the bus has changed. -/
theorem replaces (h : s.Contains policy i config x) (hreplaces : Replaces i c s t)
    (hrequests : y.requests = x.requests) (hc : c.Holds config y) :
    t.Contains policy i config y := by
  obtain ⟨b, hb, hholds⟩ := h.bus
  have hsame := hreplaces.busConfig hb (hc.row.trans hholds.row.symm)
  refine ⟨hreplaces.stopped.trans h.running, hreplaces.policy.trans h.policy, h.usable, ?_, ?_, ?_,
    ?_, c, hreplaces.getElem?_self hb, hc⟩
  · intro k row hk
    exact h.only k row ((hsame k).symm.trans hk)
  · rw [hreplaces.requests, hrequests]
    exact h.requests
  · rw [hreplaces.requests]
    exact h.requestsOpen
  · rw [hreplaces.requests]
    exact h.requestsRoom

/-- A report does not change the contents. -/
theorem report (h : s.Contains policy i config x) (es : List Event) :
    (s.report es).Contains policy i config x :=
  ⟨h.running, h.policy, h.usable, h.only, h.requests, h.requestsOpen, h.requestsRoom, h.bus⟩

/-- Only the requests that wait for the dispatcher have changed. -/
theorem withRequests (h : s.Contains policy i config x) (items : List Message) :
    (s.withRequests items).Contains policy i config { x with requests := items } := by
  obtain ⟨b, hb, hholds⟩ := h.bus
  exact ⟨h.running, h.policy, h.usable, h.only, rfl, h.requestsOpen, h.requestsRoom, b, hb,
    { hholds with }⟩

end Contains

/-! ### Queueing a request -/

/-- The request that a reader on the bus of a row sends. -/
def asked (config : BusConfig) (m : Message) (n : SequenceNumber) : Message where
  netFn := m.netFn
  cmd := m.cmd
  data := m.data
  completionCode := m.completionCode
  seqSource := m.seqSource
  infSource := .self
  infTarget := config.channel
  destAddr := config.targetAddr
  srcAddr := config.selfAddr <<< 1
  seq := n.toByte

/-- A caller whose lock is free and whose queue has room queues its request under the next number,
and waits for the response. -/
theorem callSend_of_admits (call : Call) (hkind : call.kind = .read)
    (hb : s.buses[call.bus]? = some b) (h : b.Admits .sendRequest) (ticket : Nat) :
    ∃ t deadline, s.callSend call ticket = (t, call.waitFor .response ticket deadline) ∧
      Replaces call.bus (b.queued b.ledger.nextSequence.2
        [{ msg := b.requestFor call.msg b.ledger.nextSequence.2 }]) s t := by
  have hdrawn : Replaces call.bus { b with ledger := b.ledger.nextSequence.1 } s
      (s.drawRequest call.bus b call.msg).1 :=
    (Replaces.of_onBus (f := fun c => { c with ledger := b.ledger.nextSequence.1 }) hb).report _
  have hput := Queue.put_of_room (q := b.outbound)
    ({ msg := b.requestFor call.msg b.ledger.nextSequence.2 } : Envelope) h.2.1 h.2.2
  have hqueued := hdrawn.then_onBus hb fun c =>
    { c with
      outbound := { b.outbound with
        items := b.outbound.items ++
          [{ msg := b.requestFor call.msg b.ledger.nextSequence.2 }] } }
  refine ⟨_, some (s.waited + s.timing.readTimeout.millis), ?_, hqueued⟩
  have henvelope : s.callEnvelope call b = s.drawRequest call.bus b call.msg := by
    rw [callEnvelope, hkind]
  have hfree : b.isLocked CallKind.read.lock = false := h.1
  have hsecond : (s.drawRequest call.bus b call.msg).2 =
      { msg := b.requestFor call.msg b.ledger.nextSequence.2 } := rfl
  simp only [callSend, hb, hfree, Bool.false_eq_true, if_false, henvelope, callQueue, enqueue,
    hsecond, hput, callSent, hkind, CallKind.reads, if_true]
  rfl

/-- A reader on a bus with free locks and room for its request. -/
theorem beginCall_of_free (hb : s.buses[i]? = some b) (husable : b.config.isUsable = true)
    (hlocks : b.locks = []) (hopen : b.outbound.closed = false)
    (hroom : b.outbound.items.length < b.outbound.capacity) (m : Message) (ticket : Nat) :
    ∃ t deadline,
      s.beginCall (Call.new .read i m) ticket =
        (t, ((Call.new .read i m).asReader b.config.channel).waitFor .response ticket deadline) ∧
      Replaces i (b.entered.queued b.ledger.nextSequence.2
        [{ msg := asked b.config m b.ledger.nextSequence.2 }]) s t := by
  have hentered : Replaces i b.entered s
      ((s.onBus i fun c => { c.take .read with responses := b.responses.purge.1 }).report
        (Event.purge .response b.responses.purge.2)) :=
    (Replaces.of_onBus (f := fun c => { c.take .read with responses := b.responses.purge.1 })
      hb).report _
  have hadmits : b.entered.Admits .sendRequest := by
    refine ⟨?_, hopen, hroom⟩
    rw [Bus.isLocked, Bus.entered, Bus.take, hlocks]
    rfl
  have hfree : b.isLocked .read = false := by
    rw [Bus.isLocked, hlocks]
    rfl
  obtain ⟨t, deadline, hsend, hqueued⟩ := callSend_of_admits
    ((Call.new .read i m).asReader b.config.channel) rfl (hentered.getElem?_self hb) hadmits ticket
  refine ⟨t, deadline, ?_, hentered.trans hqueued⟩
  rw [← hsend]
  simp only [beginCall, Call.new, usableBus_eq hb husable, CallKind.reads, Bool.not_true,
    Bool.false_eq_true, if_false, hfree, callRead, hb]
  rfl

/-- A reader that finds a response takes it and leaves. -/
theorem callResponse_of_answer {call : Call} {response : Message} {rest : List Message}
    (hkind : call.kind = .read) (hb : s.buses[call.bus]? = some b)
    (hanswer : b.responses.items = response :: rest) :
    ∃ t, s.callResponse call = (t, call.finish (.read (.ok ()) response)) ∧
      Replaces call.bus b.left s t := by
  have hget : b.responses.get = (b.responses.get.1, some response) := by
    rw [Queue.get, hanswer]
    rfl
  have htaken : Replaces call.bus b.left s _ := (Replaces.of_onBus
    (f := fun c => { c with responses := b.responses.get.1 }) hb).then_onBus hb
      fun c => c.release .read
  obtain ⟨es, hend⟩ := endCall_eq
    ((s.onBus call.bus fun c => { c with responses := b.responses.get.1 }).onBus
      call.bus fun c => c.release .read) call (.ok response)
  have hresult : call.resultOf (.ok response) = .read (.ok ()) response := by
    rw [Call.resultOf, hkind]
  rw [hresult] at hend
  refine ⟨_, ?_, htaken.report es⟩
  rw [← hend]
  rw [callResponse, hb]
  simp only
  rw [hget]
  simp only [leaveCall, hkind, CallKind.reads, if_true]

/-- A step of a call that has a journal of its own changes the stack as it would without. -/
theorem Replaces.aside {step : Stack → Stack × Call}
    (h : Replaces i c { s with journal := [] } (step { s with journal := [] }).1) :
    Replaces i c s (s.aside step).1 := by
  have haside : (s.aside step).1 =
      { (step { s with journal := [] }).1 with journal := s.journal } := rfl
  rw [Replaces] at h
  rw [haside, h]
  rfl

end Stack

namespace Scheduler

open Stack

variable {s : Scheduler} {policy : Policy} {i k : Nat} {config : BusConfig} {x : Contents}
  {e : Envelope} {es : List Envelope} {m p : Message} {raw : List UInt8} {raws : List (List UInt8)}

/-- **A reader queues its request** on an empty stack, under some number, and waits. -/
theorem contains_begin (h : s.stack.Contains policy i config {}) (m : Message) :
    ∃ (n : SequenceNumber) (call : Call),
      (s.perform (.begin .read i m)).stack.Contains policy i config
          { waiting := [{ msg := asked config m n }], locks := [.read] } ∧
        (s.perform (.begin .read i m)).calls = s.calls ++ [call] ∧ call.Expects i := by
  obtain ⟨b, -, -, hb, hholds⟩ := h.usableBus
  obtain rfl := hholds.row
  have hroom : b.outbound.items.length < b.outbound.capacity := by
    rw [hholds.waiting]
    exact hholds.waitingRoom
  obtain ⟨t, deadline, hbegin, hqueued⟩ := beginCall_of_free (s := { s.stack with journal := [] })
    hb h.usable hholds.locks hholds.waitingOpen hroom m s.tickets
  have hstack : Replaces i (b.entered.queued b.ledger.nextSequence.2
      [{ msg := asked b.config m b.ledger.nextSequence.2 }]) s.stack (s.newCall .read i m).1 := by
    refine Replaces.aside ?_
    rw [hbegin]
    exact hqueued
  refine ⟨b.ledger.nextSequence.2, _, h.replaces hstack rfl ?_, rfl, ?_⟩
  · exact {
      row := rfl
      link := hholds.link
      pending := hholds.pending
      tidy := hholds.tidy.draw _
      records := hholds.records
      waiting := by
        show b.outbound.items ++ _ = _
        rw [hholds.waiting]
        rfl
      waitingOpen := hholds.waitingOpen
      waitingRoom := hholds.waitingRoom
      inHand := hholds.inHand
      answers := rfl
      answersOpen := hholds.answersOpen
      answersRoom := hholds.answersRoom
      locks := by
        show Lock.read :: b.locks = _
        rw [hholds.locks] }
  · have hcall : (s.newCall .read i m).2 =
        { ((Call.new .read i m).asReader b.config.channel).waitFor .response s.tickets deadline with
          events := [] ++ t.journal } := by
      rw [newCall, Stack.aside, hbegin]
      rfl
    rw [hcall]
    exact ⟨rfl, rfl, _, rfl, rfl⟩

/-! ### The worker -/

/-- **The worker takes a request** and records it. -/
theorem contains_transmitBegin_request (h : s.stack.Contains policy i config x)
    (hwaiting : x.waiting = e :: es) (hidle : x.inHand = none) (hrequest : e.msg.isResponse = false)
    (hsmall : e.msg.seq.toNat < 64)
    (hfree : ∀ p ∈ x.pending, Ledger.slot p ≠ SequenceNumber.ofByte e.msg.seq) :
    ∃ now, (s.perform (.transmitBegin i)).stack.Contains policy i config
      { x with
        waiting := es
        inHand := some e.staged
        pending := x.pending ++ [{ e.staged.msg with timestamp := now }] } := by
  obtain ⟨b, -, hworker, hb, hholds⟩ := h.usableBus
  have htakes : s.stack.takes? i (.transmitBegin i) = some e := by
    simp [takes?, hworker, hholds.inHand, hidle, hholds.waiting, hwaiting]
  obtain ⟨b', rest, hb', -, hitems, hcases⟩ := takes_cases htakes
  obtain rfl : b = b' := Option.some.inj (hb.symm.trans hb')
  rw [hholds.waiting, hwaiting, List.cons.injEq] at hitems
  obtain ⟨-, rfl⟩ := hitems
  simp only [hrequest, Bool.false_eq_true, false_and, false_or, true_and] at hcases
  have hslot : b.ledger.numbers.isBusy (Ledger.slot e.staged.msg) = false := by
    rw [← Bool.not_eq_true, hholds.tidy.busy, hholds.pending]
    rintro ⟨p, hp, hslot⟩
    exact hfree p hp hslot
  refine ⟨s.stack.clock.now, h.replaces hcases rfl ?_⟩
  exact { hholds with
    pending := by
      show b.ledger.entries ++ _ = _
      rw [hholds.pending]
    tidy := hholds.tidy.stage hsmall hslot _
    waiting := rfl
    inHand := rfl }

/-- **The worker takes a response.** -/
theorem contains_transmitBegin_response (h : s.stack.Contains policy i config x)
    (hwaiting : x.waiting = e :: es) (hidle : x.inHand = none) (hresponse : e.msg.isResponse = true)
    (hretries : e.retries = 0) (haddr : e.msg.destAddr = config.targetAddr) :
    (s.perform (.transmitBegin i)).stack.Contains policy i config
      { x with waiting := es, inHand := some e } := by
  obtain ⟨b, -, hworker, hb, hholds⟩ := h.usableBus
  obtain rfl := hholds.row
  have htakes : s.stack.takes? i (.transmitBegin i) = some e := by
    simp [takes?, hworker, hholds.inHand, hidle, hholds.waiting, hwaiting]
  obtain ⟨b', rest, hb', -, hitems, hcases⟩ := takes_cases htakes
  obtain rfl : b = b' := Option.some.inj (hb.symm.trans hb')
  rw [hholds.waiting, hwaiting, List.cons.injEq] at hitems
  obtain ⟨-, rfl⟩ := hitems
  have hfresh : ¬s.stack.timing.maxRetries < e.retries := by
    rw [hretries]
    exact Nat.not_lt_zero _
  have hsame : e.addressed b = e := by rw [Envelope.addressed, ← haddr]
  simp only [hresponse, hfresh, Bool.true_eq_false, false_and, and_false, false_or, or_false,
    not_false_eq_true, true_and, hsame] at hcases
  refine h.replaces hcases rfl ?_
  exact { hholds with
    waiting := rfl
    inHand := rfl }

/-- **The worker writes what it has in hand.** -/
theorem contains_transmitEnd (h : s.stack.Contains policy i config x) (hhand : x.inHand = some e)
    (haddr : e.msg.destAddr = config.targetAddr) (hpending : x.pending.length ≤ 1) :
    (s.perform (.transmitEnd i)).stack.Contains policy i config
      { x with inHand := none, outbox := x.outbox ++ [Frame.sent e.msg] } := by
  obtain ⟨b, -, hworker, hb, hholds⟩ := h.usableBus
  have hends : s.stack.ends? i (.transmitEnd i) = some e := by
    simp [ends?, hworker, hholds.inHand, hhand]
  obtain ⟨hok, hworks⟩ := hholds.link.write (Frame.wirePayload
    (Frame.layout e.msg (Frame.headerSum e.msg) (Frame.messageSum e.msg)))
  rw [← haddr] at hok hworks
  have hattempt : b.attempt e.msg = b.link.write e.msg.destAddr (Frame.wirePayload
      (Frame.layout e.msg (Frame.headerSum e.msg) (Frame.messageSum e.msg))) := by
    rw [Bus.attempt, Frame.encode_eq]
  have hdelivers : b.delivers e = true := by
    rw [Bus.delivers, hattempt, hok]
    rfl
  have hwritten := perform_of_delivers hends hb hdelivers
  have hnone : b.ledger.entries.length - b.ledger.capacity = 0 := by
    have hcapacity := hholds.records
    rw [hholds.pending]
    omega
  refine h.replaces hwritten rfl ?_
  exact { hholds with
    link := by
      show (b.attempt e.msg).1.Works _ _ _ _
      rw [hattempt, ← haddr]
      exact hworks
    pending := by
      show (if e.msg.isResponse then b.ledger else b.ledger.commit.1).entries = _
      split
      · exact hholds.pending
      · rw [Ledger.entries_commit, hnone, List.drop_zero]
        exact hholds.pending
    tidy := by
      show (if e.msg.isResponse then b.ledger else b.ledger.commit.1).Tidy
      split
      · exact hholds.tidy
      · exact hholds.tidy.commit
    records := by
      show 0 < (if e.msg.isResponse then b.ledger else b.ledger.commit.1).capacity
      split
      · exact hholds.records
      · exact hholds.records
    inHand := rfl }

/-- What a worker hears is the message of the oldest frame that has arrived. -/
theorem heard?_of_contains (h : s.stack.Contains policy i config x) (hinbox : x.inbox = raw :: raws)
    (hmessage : Frame.message? raw = some m) :
    s.stack.heard? i = some m ∧
      ∃ b, s.stack.workerBus i = some b ∧ s.stack.buses[i]? = some b ∧
        ({ b with link := b.link.read.1 } : Bus).Holds config { x with inbox := raws } := by
  obtain ⟨b, -, hworker, hb, hholds⟩ := h.usableBus
  have hlink := hholds.link
  rw [hinbox] at hlink
  obtain ⟨hread, hworks⟩ := hlink.read
  refine ⟨?_, b, hworker, hb, { hholds with link := hworks }⟩
  rw [heard?, hworker, Option.bind_some, Bus.arrived?, hread]
  exact hmessage

/-- **A request that has arrived** waits for the dispatcher. -/
theorem contains_receive_request (h : s.stack.Contains policy i config x)
    (hinbox : x.inbox = raw :: raws) (hmessage : Frame.message? raw = some m)
    (hrequest : m.isResponse = false) (hengine : config.channel ≠ .meIpmb)
    (hrequests : x.requests = []) :
    (s.perform (.receive i)).stack.Contains policy i config
      { x with inbox := raws, requests := [arrivedOn m config.channel] } := by
  obtain ⟨hheard, b, hworker, hb, hholds⟩ := heard?_of_contains h hinbox hmessage
  obtain rfl : b.config = config := hholds.row
  obtain ⟨u, hread, hroute⟩ := receive_of_worker_heard hworker hheard
  have hu := h.replaces (y := { x with inbox := raws }) hread rfl hholds
  obtain ⟨es, hqueued⟩ := routeRequest_of_open (i := i) (b := { b with link := b.link.read.1 })
    (m := m) hengine hu.requestsOpen hu.requestsRoom
  have hreceive : (s.perform (.receive i)).stack = (s.stack.receive i).1 := rfl
  have hitems : (if u.requests.isFull then [] else u.requests.items) = [] := by
    rw [hu.requests, hrequests, ite_self]
  rw [hrequest, if_neg Bool.false_ne_true, hqueued, hitems] at hroute
  rw [hreceive, hroute]
  exact (hu.withRequests _).report es

/-- **The response to the pending request of a reader** waits for that reader. -/
theorem contains_receive_response (h : s.stack.Contains policy i config x)
    (hinbox : x.inbox = raw :: raws) (hmessage : Frame.message? raw = some m)
    (hresponse : m.isResponse = true) (hpending : x.pending = [p]) (hp : m.answers p = true)
    (hself : p.infSource = .self) (hanswers : x.answers = []) :
    (s.perform (.receive i)).stack.Contains policy i config
      { x with inbox := raws, pending := [], answers := [m.answering p] } := by
  obtain ⟨hheard, b, hworker, hb, hholds⟩ := heard?_of_contains h hinbox hmessage
  obtain ⟨u, hread, hroute⟩ := receive_of_worker_heard hworker hheard
  rw [if_pos hresponse] at hroute
  have hfound : ({ b with link := b.link.read.1 } : Bus).pendingFor? m = some p := by
    rw [Bus.pendingFor?, hholds.pending]
    simp [hpending, hp]
  rcases routeResponse_cases (hread.getElem?_self hb) m with ⟨hnone, -⟩ |
    ⟨entry, v, hentry, hsettled, hdeliver⟩
  · rw [hfound] at hnone
    cases hnone
  obtain rfl : p = entry := Option.some.inj (hfound.symm.trans hentry)
  have hput := Queue.put_of_room (q := b.responses) (m.answering p) hholds.answersOpen (by
    rw [hholds.answers]
    simp [hanswers, hholds.answersRoom])
  have hreader : v.deliverResponse i b.config.channel (m.answering p) =
      v.answerReader i (m.answering p) := if_pos hself
  rcases answerReader_cases ((hread.trans hsettled).getElem?_self hb) (m.answering p) with
    ⟨-, hanswered⟩ | ⟨hrefused, -⟩
  · have hstack : (s.perform (.receive i)).stack = v.answerReader i (m.answering p) :=
      (hroute.trans hdeliver).trans hreader
    rw [← hstack] at hanswered
    refine h.replaces ((hread.trans hsettled).trans hanswered) rfl ?_
    exact { hholds with
      pending := by
        show (b.ledger.extract m.answers).1.entries = _
        have hentries : b.ledger.entries = x.pending := hholds.pending
        rw [Ledger.entries_extract, hentries, hpending]
        simp [hp]
      tidy := hholds.tidy.extract _
      records := by
        show 0 < (b.ledger.extract m.answers).1.capacity
        rw [Ledger.extract]
        split
        · exact hholds.records
        · exact hholds.records
      answers := by
        show (b.responses.put (m.answering p)).1.items = _
        have hitems : b.responses.items = x.answers := hholds.answers
        rw [hput, hitems, hanswers]
        rfl
      answersOpen := by
        show (b.responses.put (m.answering p)).1.closed = false
        rw [Queue.closed_put]
        exact hholds.answersOpen
      answersRoom := by
        show 0 < (b.responses.put (m.answering p)).1.capacity
        rw [hput]
        exact hholds.answersRoom }
  · refine absurd ?_ hrefused
    show (b.responses.put (m.answering p)).2 = .accepted
    rw [hput]

/-! ### The dispatcher and the reader -/

/-- The response that goes out on the bus of a row for a request that has been served. -/
def answered (config : BusConfig) (r : Message) : Message :=
  { r with
    netFn := r.netFn + 1
    destLun := r.srcLun
    srcLun := r.destLun
    seqSource := r.seq
    destAddr := config.targetAddr
    srcAddr := config.selfAddr <<< 1 }

/-- **The dispatcher serves the request that waits**, and its response is queued. -/
theorem contains_dispatch {handler : Handler} {rest : List Message} (hhandler : handler.Answers)
    (h : s.stack.Contains policy i config x) (hrequests : x.requests = m :: rest)
    (hbridge : ¬m.IsBridge) (hitself : policy.answersItself m.netFn m.cmd = false)
    (hhost : config.channel ≠ .hostKcs) (hsource : m.infSource = config.channel)
    (hwaiting : x.waiting = []) (hlocks : x.locks = []) :
    ∃ r, AnswersWith m (handler.answer m) r ∧
      (s.perform (.dispatch handler)).stack.Contains policy i config
        { x with requests := rest, waiting := [{ msg := answered config r }] } := by
  obtain ⟨b, -, -, hb, hholds⟩ := h.usableBus
  obtain rfl := hholds.row
  have hperform := perform_dispatch_of_head handler (h.requests.trans hrequests)
  have hadmits : b.Admits .sendResponse := by
    refine ⟨?_, hholds.waitingOpen, ?_⟩
    · rw [Bus.isLocked, hholds.locks, hlocks]
      rfl
    · rw [hholds.waiting, hwaiting]
      exact hholds.waitingRoom
  have hrest := h.withRequests rest
  obtain ⟨r, hanswers, hqueued⟩ := dispatch_queues (s := s.stack.withRequests rest) (m := m)
    hhandler hbridge (by rw [hrest.policy]; exact hitself) (hsource ▸ hhost)
    (by rw [hsource]; exact hrest.busFor) hb h.usable hadmits
  refine ⟨r, hanswers, ?_⟩
  rw [hperform]
  refine hrest.replaces hqueued rfl ?_
  exact { hholds with
    waiting := by
      show b.outbound.items ++ _ = _
      rw [hholds.waiting, hwaiting]
      rfl
    tidy := hholds.tidy.draw _ }

/-- **A reader takes its response**, and leaves. -/
theorem contains_resume {call : Call} {response : Message} {rest : List Message}
    (h : s.stack.Contains policy i config x) (hcall : s.calls[k]? = some call)
    (hexpects : call.Expects i) (hanswers : x.answers = response :: rest) :
    ∃ call', (s.perform (.resume k)).stack.Contains policy i config
        { x with answers := rest, locks := x.locks.erase .read } ∧
      (s.perform (.resume k)).calls = s.calls.set k call' ∧
        call'.result? = some (.read (.ok ()) response) := by
  obtain ⟨b, -, -, hb, hholds⟩ := h.usableBus
  obtain ⟨hkind, rfl, w, hwait, hobstacle⟩ := hexpects
  have hitems : b.responses.items = response :: rest := hholds.answers.trans hanswers
  have hready : s.stack.isReady call = true := by
    simp [isReady, hwait, hb, hobstacle, hitems]
  have hperform : s.perform (.resume k) =
      s.stepCall k fun stack c => stack.resumeCall c s.tickets := by
    rw [perform, hcall]
    exact if_pos hready
  obtain ⟨t, hresponse, htaken⟩ := callResponse_of_answer (s := { s.stack with journal := [] })
    hkind hb hitems
  have hresume : Stack.resumeCall { s.stack with journal := [] } call s.tickets =
      (t, call.finish (.read (.ok ()) response)) := by
    simp only [resumeCall, hwait, hobstacle]
    exact hresponse
  have hstack : Replaces call.bus b.left s.stack
      (s.stack.aside fun stack => stack.resumeCall call s.tickets).1 := by
    refine Replaces.aside ?_
    rw [hresume]
    exact htaken
  rcases stepCall_cases s k fun stack c => stack.resumeCall c s.tickets with ⟨hnone, -⟩ |
    ⟨c, hc, hstep⟩
  · rw [hcall] at hnone
    cases hnone
  obtain rfl : call = c := Option.some.inj (hcall.symm.trans hc)
  rw [hperform, hstep]
  refine ⟨_, h.replaces hstack rfl ?_, rfl, ?_⟩
  · exact { hholds with
      answers := by
        show b.responses.items.tail = rest
        rw [hitems]
        rfl
      locks := by
        show b.locks.erase .read = _
        rw [hholds.locks] }
  · have hresult : (s.stack.aside fun stack => stack.resumeCall call s.tickets).2.state =
        .finished (.read (.ok ()) response) := by
      rw [Stack.aside, hresume]
      rfl
    rw [Call.result?, hresult]

/-- **What happens to the link** is there. -/
theorem contains_relink {link : Link} {inbox outbox : List (List UInt8)}
    (h : s.stack.Contains policy i config x)
    (hlink : link.Works config.selfAddr config.targetAddr inbox outbox) :
    (s.perform (.relink i link)).stack.Contains policy i config { x with inbox, outbox } := by
  obtain ⟨b, -, -, hb, hholds⟩ := h.usableBus
  exact h.replaces (Replaces.of_onBus (f := fun c => { c with link }) hb) rfl
    { hholds with link := hlink }

end Scheduler

end ManagementBus
