import ManagementBus.Proofs.Routing

/-!
# Requests to bridge: forwarded or refused

A request to bridge passes four checks in turn: it has come with the right enterprise number, it is
long enough, a usable bus serves the channel that it names, and that bus takes what it carries. If
it passes them all, what it carries waits on that bus and its source hears nothing yet. Otherwise it
is answered at once, with the code of the first check that fails and without data; and then nothing
that it carries is queued anywhere.

A sequence number is drawn before a queue turns out to be closed, so a refusal may leave a cursor
that has moved. That is the only trace: `Sends Nothing` says so.

## Main results

* `sendRequest_of_open`, `sendRequest_of_closed`: what becomes of a request on a bus where nobody
  waits.
* `forward_cases`: the checks of a request to bridge, in their order.
* `refuses_refuseBridge`: what the source hears of a refusal.
* `bridge_forwards_or_refuses`: one of the two, and never both.
-/

namespace ManagementBus

open EnvelopeProperty

/-- Nobody waits on a bus in order to send: the locks of the senders are free, and the queue is
closed or has room. In a run the second implies the first wherever no call can go on
(`Scheduler.isSettled_of_progress`). -/
def Bus.IsSettled (b : Bus) : Prop :=
  b.isLocked .sendRequest = false ∧ b.isLocked .sendResponse = false ∧
    (b.outbound.closed = true ∨ b.outbound.items.length < b.outbound.capacity)

instance (b : Bus) : Decidable b.IsSettled := inferInstanceAs (Decidable (_ ∧ _ ∧ _))

/-- The channel to which a request to bridge is to go. -/
def Message.bridgeTarget? (m : Message) : Option Channel := m.data.bytes.head?.map Channel.mk

/-- An envelope carries what is inside a request to bridge, from a bus to its other end, and has not
been tried yet. -/
structure Envelope.IsForwarded (e : Envelope) (config : BusConfig) (m : Message) (target : Channel)
    (function cmd : UInt8) (payload : List UInt8) : Prop where
  netFn : e.msg.netFn = function >>> 2
  cmd : e.msg.cmd = cmd
  data : e.msg.data.bytes = payload
  seqSource : e.msg.seqSource = m.seqSource
  infSource : e.msg.infSource = m.infSource
  infTarget : e.msg.infTarget = target
  destAddr : e.msg.destAddr = config.targetAddr
  srcAddr : e.msg.srcAddr = config.selfAddr <<< 1
  retries : e.retries = 0

namespace Stack

variable {s t u : Stack} {i j k : Nat} {b : Bus} {m : Message} {code : UInt8} {channel : Channel}

/-- Nobody waits on any bus in order to send. -/
def IsSettled (s : Stack) : Prop := ∀ b ∈ s.buses, b.IsSettled

instance (s : Stack) : Decidable s.IsSettled := inferInstanceAs (Decidable (∀ _ ∈ _, _))

/-- Whether the bus at an index still takes envelopes. -/
def isOpen (s : Stack) (i : Nat) : Bool := s.buses[i]?.any fun b => !b.outbound.closed

/-- The code with which a request to bridge is refused, if it is: that of the first check that
fails. -/
def refusal? (s : Stack) (m : Message) : Option UInt8 :=
  if m.completionCode = CompletionCode.invalidIana then some CompletionCode.invalidIana
  else if m.data.length < 3 then some CompletionCode.invalidLength
  else match m.bridgeTarget?.bind s.busFor with
    | none => some CompletionCode.notSupportedInState
    | some j => if s.isOpen j then none else some CompletionCode.bridgeError

/-- What is inside a request to bridge waits on the bus of its target, at the end of the queue, and
nothing else has happened but that a number has been drawn there and something reported. -/
def Forwards (m : Message) (s t : Stack) : Prop :=
  ∃ target function cmd payload j d cursor e,
    m.data.bytes = [target.number, function, cmd] ++ payload ∧
    s.busFor target = some j ∧ s.buses[j]? = some d ∧
    e.IsForwarded d.config m target function cmd payload ∧
    Replaces j (d.queued cursor [e]) s t

/-- A refusal waits on the bus of the source of a request to bridge, if it has one and that is open.
Nothing else has happened but that a number may have been drawn and something reported. -/
def Refuses (m : Message) (code : UInt8) (s t : Stack) : Prop :=
  ∃ u, Sends Nothing s u ∧
    match (s.busFor m.infSource).filter s.isOpen with
    | some k => QueuesReply k (m.netFn + 1) m.cmd code m.seq [] u t
    | none => ∃ es, t = u.report es

/-! ### Buses where nobody waits -/

/-- Whether a bus that there is takes envelopes. -/
theorem isOpen_eq (hb : s.buses[i]? = some b) : s.isOpen i = !b.outbound.closed := by
  rw [isOpen, hb]
  rfl

/-- Where nobody waits, an open bus admits requests and responses at once. -/
theorem IsSettled.admits (hs : s.IsSettled) (hb : s.buses[i]? = some b)
    (hopen : b.outbound.closed = false) : b.Admits .sendRequest ∧ b.Admits .sendResponse := by
  obtain ⟨hrequest, hresponse, hclosed | hroom⟩ := hs b (List.mem_of_getElem? hb)
  · rw [hopen] at hclosed
    cases hclosed
  · exact ⟨⟨hrequest, hopen, hroom⟩, hresponse, hopen, hroom⟩

/-- What a request comes to on a bus whose lock is free: a number is drawn, and the queue decides.
-/
theorem sendRequest_of_unlocked (m : Message) (hb : s.buses[i]? = some b)
    (husable : b.config.isUsable = true) (hfree : b.isLocked .sendRequest = false) :
    (s.sendRequest m i).2 =
        (b.outbound.put { msg := b.requestFor m b.ledger.nextSequence.2 }).2.outcome ∧
      Replaces i
        { b with
          ledger := b.ledger.nextSequence.1
          outbound := (b.outbound.put { msg := b.requestFor m b.ledger.nextSequence.2 }).1 }
        s (s.sendRequest m i).1 := by
  have hdrawn : Replaces i { b with ledger := b.ledger.nextSequence.1 } s
      (s.drawRequest i b m).1 :=
    (Replaces.of_onBus hb).report _
  rw [sendRequest]
  simp only [usableBus_eq hb husable, hfree, Bool.false_eq_true, if_false]
  exact ⟨rfl, hdrawn.then_onBus hb _⟩

/-- **An open bus takes a request.** -/
theorem sendRequest_of_open (m : Message) (hb : s.buses[i]? = some b)
    (husable : b.config.isUsable = true) (h : b.Admits .sendRequest) :
    (s.sendRequest m i).2 = .ok () ∧
      Replaces i
        (b.queued b.ledger.nextSequence.2 [{ msg := b.requestFor m b.ledger.nextSequence.2 }])
        s (s.sendRequest m i).1 := by
  obtain ⟨hput, hreplaces⟩ := sendRequest_of_unlocked m hb husable h.1
  rw [Queue.put_of_room _ h.2.1 h.2.2] at hput hreplaces
  exact ⟨hput, hreplaces⟩

/-- **A closed bus takes no request**, but a number has been drawn for it. -/
theorem sendRequest_of_closed (m : Message) (hb : s.buses[i]? = some b)
    (husable : b.config.isUsable = true) (hfree : b.isLocked .sendRequest = false)
    (hclosed : b.outbound.closed = true) :
    (s.sendRequest m i).2 = .error .queueClosed ∧ Sends Nothing s (s.sendRequest m i).1 := by
  obtain ⟨hput, -⟩ := sendRequest_of_unlocked m hb husable hfree
  rw [Queue.put_of_closed hclosed] at hput
  rcases sendRequest_outcome s m i with ⟨hok, -⟩ | ⟨-, hnothing⟩
  · rw [hok] at hput
    cases hput
  · exact ⟨hput, hnothing⟩

/-- A response for a bus that is closed is refused, and nothing changes. -/
theorem sendResponse_of_closed (m : Message) (hb : s.buses[i]? = some b)
    (husable : b.config.isUsable = true) (hfree : b.isLocked .sendResponse = false)
    (hclosed : b.outbound.closed = true) : s.sendResponse m i = (s, .error .queueClosed) := by
  have hput : (s.enqueue i b { msg := b.responseFor m }).2 = .closed := by
    have hanswer : (s.enqueue i b { msg := b.responseFor m }).2 =
        (b.outbound.put { msg := b.responseFor m }).2 := rfl
    rw [hanswer, Queue.put_of_closed hclosed]
  rcases enqueue_cases hb { msg := b.responseFor m } with ⟨haccepted, -⟩ | ⟨-, hsame⟩
  · rw [hput] at haccepted
    cases haccepted
  · have hrefused : s.enqueue i b { msg := b.responseFor m } = (s, .closed) := Prod.ext hsame hput
    simp only [sendResponse, usableBus_eq hb husable, hfree, Bool.false_eq_true, if_false,
      hrefused]
    rfl

/-! ### The checks -/

/-- Without a target, a function and a command a request to bridge is refused for its length. -/
theorem refusal?_of_short (hiana : m.completionCode ≠ CompletionCode.invalidIana)
    (h : m.data.length < 3) : s.refusal? m = some CompletionCode.invalidLength := by
  rw [refusal?, if_neg hiana, if_pos h]

/-- What is left to check is whether a bus serves the target, and takes envelopes. -/
theorem refusal?_of_target {function cmd : UInt8} {payload : List UInt8}
    (hiana : m.completionCode ≠ CompletionCode.invalidIana)
    (hdata : m.data.bytes = [channel.number, function, cmd] ++ payload) :
    s.refusal? m = match s.busFor channel with
      | none => some CompletionCode.notSupportedInState
      | some j => if s.isOpen j then none else some CompletionCode.bridgeError := by
  have hlong : ¬m.data.length < 3 := by
    rw [Payload.length, hdata]
    simp
  have htarget : m.bridgeTarget? = some channel := by
    rw [Message.bridgeTarget?, hdata]
    rfl
  rw [refusal?, if_neg hiana, if_neg hlong, htarget]
  rfl

/-- **The checks of a request to bridge**, once the enterprise number is right: what it carries is
queued, or nothing is and the code is that of the first check that fails. -/
theorem forward_cases (hs : s.IsSettled) (hiana : m.completionCode ≠ CompletionCode.invalidIana) :
    (s.refusal? m = none ∧ (s.forward m).2 = CompletionCode.success ∧
        Forwards m s (s.forward m).1) ∨
      ∃ code, s.refusal? m = some code ∧ (s.forward m).2 = code ∧
        code ≠ CompletionCode.success ∧ Sends Nothing s (s.forward m).1 := by
  by_cases hlength : m.data.length < 3
  · refine .inr ⟨_, refusal?_of_short hiana hlength, ?_⟩
    rw [forward_of_short hlength]
    exact ⟨rfl, by decide, .refl _ s⟩
  · obtain ⟨target, function, cmd, payload, hdata⟩ := exists_bridgeHeader hlength
    have hrefusal := refusal?_of_target (s := s) hiana hdata
    cases hj : s.busFor target with
    | none =>
        rw [hj] at hrefusal
        refine .inr ⟨_, hrefusal, ?_⟩
        rw [forward_of_unserved hdata hj]
        exact ⟨rfl, by decide, (Sends.refl _ s).emit _⟩
    | some j =>
        obtain ⟨d, hd, husable⟩ := exists_bus_of_busFor hj
        simp only [hj, isOpen_eq hd] at hrefusal
        cases hclosed : d.outbound.closed with
        | false =>
            rw [hclosed] at hrefusal
            obtain ⟨hok, hsent⟩ := sendRequest_of_open
              (carried m target function cmd (m.data.drop 3)) hd husable (hs.admits hd hclosed).1
            have hpayload : (m.data.drop 3).bytes = payload := by
              rw [Payload.bytes_drop, hdata]
              rfl
            rw [forward_of_sent hdata hj hok]
            exact .inl ⟨hrefusal, rfl, target, function, cmd, payload, j, d, _, _, hdata, hj, hd,
              ⟨rfl, rfl, hpayload, rfl, rfl, rfl, rfl, rfl, rfl⟩, hsent⟩
        | true =>
            rw [hclosed] at hrefusal
            obtain ⟨hfree, -, -⟩ := hs d (List.mem_of_getElem? hd)
            obtain ⟨hfault, hnothing⟩ := sendRequest_of_closed
              (carried m target function cmd (m.data.drop 3)) hd husable hfree hclosed
            refine .inr ⟨_, hrefusal, ?_⟩
            rw [forward_of_unsent hdata hj hfault]
            exact ⟨rfl, by decide, hnothing.emit _⟩

/-! ### The refusal -/

/-- Sending leaves the rows of the table alone. -/
theorem Sends.busFor {P : EnvelopeProperty} (h : Sends P s t) (channel : Channel) :
    t.busFor channel = s.busFor channel := by
  refine busFor_congr (List.ext_getElem? fun k => ?_) channel
  rw [List.getElem?_map, List.getElem?_map]
  cases hb : s.buses[k]? with
  | none =>
      have hnone : t.buses[k]? = none := by
        rw [List.getElem?_eq_none_iff] at hb ⊢
        rwa [← h.buses.length_eq]
      rw [hnone]
  | some b =>
      obtain ⟨cursor, added, hc, -⟩ := h.exists_queued hb
      rw [hc]
      rfl

/-- A request to bridge as it is refused. -/
def refused (m : Message) (code : UInt8) : Message := { m.clearData with completionCode := code }

/-- **The source hears of a refusal**, if it has an open bus. -/
theorem refuses_refuseBridge (hs : s.IsSettled) (hu : Sends Nothing s u) (m : Message)
    (code : UInt8) : Refuses m code s (u.refuseBridge (refused m code)) := by
  have hbus := hu.busFor m.infSource
  refine ⟨u, hu, ?_⟩
  cases hk : s.busFor m.infSource with
  | none =>
      have hk' : u.busFor (refused m code).infSource = none := hbus.trans hk
      simp only [refuseBridge, hk']
      exact ⟨_, rfl⟩
  | some k =>
      have hk' : u.busFor (refused m code).infSource = some k := hbus.trans hk
      obtain ⟨d, hd, husable⟩ := exists_bus_of_busFor hk
      obtain ⟨cursor, added, hd', hadded⟩ := hu.exists_queued hd
      obtain rfl : added = [] := List.eq_nil_iff_forall_not_mem.mpr hadded
      simp only [refuseBridge, hk', Option.filter, isOpen_eq hd]
      cases hclosed : d.outbound.closed with
      | false =>
          have hadmits : (d.queued cursor []).Admits .sendResponse := by
            obtain ⟨hfree, hopen, hroom⟩ := (hs.admits hd hclosed).2
            refine ⟨hfree, hopen, ?_⟩
            rwa [Bus.queued, List.append_nil]
          rw [sendResponse_eq (refused m code) hd' husable hadmits]
          exact queuesReply_onBus (m := refused m code) hd'
      | true =>
          obtain ⟨-, hfree, -⟩ := hs d (List.mem_of_getElem? hd)
          rw [sendResponse_of_closed (refused m code) hd' husable hfree hclosed]
          exact ⟨_, rfl⟩

/-- **What bridging comes to**, in one equation: what is forwarded is not answered, and for what is
not forwarded the source is told. -/
theorem messageOut_cases (hs : s.IsSettled) (m : Message) :
    (s.refusal? m = none ∧
        s.messageOut m = ((s.forward m).1, { m with completionCode := CompletionCode.success }) ∧
        Forwards m s (s.forward m).1) ∨
      ∃ code u, s.refusal? m = some code ∧ code ≠ CompletionCode.success ∧ Sends Nothing s u ∧
        s.messageOut m = (u.refuseBridge (refused m code), refused m code) := by
  by_cases hiana : m.completionCode = CompletionCode.invalidIana
  · refine .inr ⟨CompletionCode.invalidIana, s, if_pos hiana, by decide, .refl _ s, ?_⟩
    simp only [messageOut, hiana, if_true]
    rw [if_neg (by decide)]
    rfl
  · rcases forward_cases hs hiana with ⟨hrefusal, hcode, hforwards⟩ |
      ⟨code, hrefusal, hcode, hfails, hnothing⟩
    · exact .inl ⟨hrefusal, messageOut_of_success hiana hcode, hforwards⟩
    · refine .inr ⟨code, (s.forward m).1, hrefusal, hfails, hnothing, ?_⟩
      simp only [messageOut, hiana, if_false, hcode, hfails]
      rfl

/-- **A request to bridge is forwarded or refused, and never both.** Where every queue is closed or
has room, it ends with success, unchanged but for that code, and what it carries is the one envelope
that is queued; or with the code of the first check that fails and without data, and then nothing is
queued but the refusal, for a source whose bus is open. -/
theorem bridge_forwards_or_refuses (hs : s.IsSettled) (m : Message) :
    (s.refusal? m = none ∧
        (s.messageOut m).2 = { m with completionCode := CompletionCode.success } ∧
        Forwards m s (s.messageOut m).1) ∨
      ∃ code, s.refusal? m = some code ∧ code ≠ CompletionCode.success ∧
        (s.messageOut m).2 = { m with completionCode := code, data := Payload.empty } ∧
        Refuses m code s (s.messageOut m).1 := by
  rcases messageOut_cases hs m with ⟨hrefusal, hmessage, hforwards⟩ |
    ⟨code, u, hrefusal, hfails, hnothing, hmessage⟩
  · rw [hmessage]
    exact .inl ⟨hrefusal, rfl, hforwards⟩
  · rw [hmessage]
    exact .inr ⟨code, hrefusal, hfails, rfl, refuses_refuseBridge hs hnothing m code⟩

/-- A request to bridge to the expansion board, as the bridge sees it. -/
def expansionRequest : Message where
  netFn := NetFn.enterprise
  cmd := Cmd.messageOut
  seq := 9
  data := ⟨[0x05, 0x18, 0x01, 0xAB], by decide⟩
  seqSource := 9
  infSource := .bmcIpmb

/-- The same request when both buses are open, and when that of the board is closed. -/
theorem bridge_forwards_or_refuses_board :
    let stack := pairStack bmcRow expanderRow {}
    let halved := stack.onBus 1 Bus.close
    stack.IsSettled ∧ halved.IsSettled ∧
      Forwards expansionRequest stack (stack.messageOut expansionRequest).1 ∧
      Refuses expansionRequest CompletionCode.bridgeError halved
        (halved.messageOut expansionRequest).1 := by
  intro stack halved
  have hstack : stack.IsSettled := by decide
  have hhalved : halved.IsSettled := by decide
  have hforwarded : stack.refusal? expansionRequest = none := by decide
  have hrefused : halved.refusal? expansionRequest = some CompletionCode.bridgeError := by decide
  refine ⟨hstack, hhalved, ?_, ?_⟩
  · rcases bridge_forwards_or_refuses hstack expansionRequest with ⟨-, -, h⟩ | ⟨code, hcode, -⟩
    · exact h
    · rw [hforwarded] at hcode
      cases hcode
  · rcases bridge_forwards_or_refuses hhalved expansionRequest with
      ⟨hcode, -⟩ | ⟨code, hcode, -, -, h⟩
    · rw [hrefused] at hcode
      cases hcode
    · rw [hrefused] at hcode
      obtain rfl := Option.some.inj hcode
      exact h

end Stack

end ManagementBus
