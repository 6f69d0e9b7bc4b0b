import ManagementBus.Proofs.Building
import ManagementBus.Proofs.Following
import ManagementBus.Proofs.Framing

/-!
# The round trip of a bridged request

A request to bridge that comes in on one bus carries another request, which goes out on a second
bus under a number of its own; the response to it comes back wrapped, under the number of the
request to bridge. Each stage of that way is a lemma about one action: the request is heard, it is
dispatched, an envelope made of it is written, and a response to it is heard. The trail of the
request that went out joins them over a run in which anything else may happen in between.

## Main results

* `sendRequest_of_admits`, `sendResponse_eq`: a bus that admits an envelope takes it.
* `perform_dispatch_of_bridge`: what goes out is the request that was carried.
* `arrived_of_ends`: what the peer of a bus receives.
* `perform_receive_of_bridged`: what comes back.
* `bridge_round_trip`: the whole way, in every run.
-/

namespace ManagementBus

open EnvelopeProperty

/-- A bus takes an envelope at once: nobody waits with the lock, and the queue is open and has
room. -/
def Bus.Admits (b : Bus) (lock : Lock) : Prop :=
  b.isLocked lock = false ∧ b.outbound.closed = false ∧
    b.outbound.items.length < b.outbound.capacity

instance (b : Bus) (lock : Lock) : Decidable (b.Admits lock) :=
  inferInstanceAs (Decidable (_ ∧ _))

/-- An open queue takes an envelope of the bus. -/
theorem Bus.Admits.put {b : Bus} {lock : Lock} (h : b.Admits lock) (e : Envelope) :
    (b.outbound.put e).2 = .accepted := by
  rw [Queue.put_of_room e h.2.1 h.2.2]

namespace Stack

variable {s t u : Stack} {i j : Nat} {b : Bus} {m : Message} {channel : Channel}

/-- The bus at an index takes an envelope at once. -/
def Admits (s : Stack) (i : Nat) (lock : Lock) : Prop :=
  ∃ b, s.buses[i]? = some b ∧ b.Admits lock

/-- One envelope has come to the end of the queue of a bus, and none to any other queue. -/
def QueuesJust (i : Nat) (e : Envelope) (s t : Stack) : Prop :=
  t.waitingOn i = s.waitingOn i ++ [e] ∧ ∀ k, k ≠ i → t.waitingOn k = s.waitingOn k

/-- What has arrived at the peer of a bus and waits there. -/
def arrivedAt (s : Stack) (i : Nat) : List (List UInt8) :=
  (s.buses[i]?.map fun b => b.link.far.inbox).getD []

/-- A bus that is there and usable is found. -/
theorem usableBus_eq (hb : s.buses[i]? = some b) (husable : b.config.isUsable = true) :
    s.usableBus i = .ok b := by
  simp [usableBus, hb, husable]

/-! ### Sending -/

/-- **A bus that admits an envelope takes a request**, under a fresh number. -/
theorem sendRequest_of_admits (m : Message) (hb : s.buses[i]? = some b)
    (husable : b.config.isUsable = true) (h : b.Admits .sendRequest) :
    (s.sendRequest m i).2 = .ok () ∧ SendsOne i (requestOf m) s (s.sendRequest m i).1 := by
  have hok : (s.sendRequest m i).2 = .ok () := by
    rw [sendRequest]
    simp only [usableBus_eq hb husable, h.1, Bool.false_eq_true, if_false]
    exact (outcome_eq_ok_iff _).mpr (h.put _)
  rcases sendRequest_outcome s m i with hsent | ⟨⟨fault, hfault⟩, -⟩
  · exact hsent
  · rw [hok] at hfault
    cases hfault

/-- **A bus that admits an envelope takes the response to a message** at its end. -/
theorem sendResponse_eq (m : Message) (hb : s.buses[i]? = some b)
    (husable : b.config.isUsable = true) (h : b.Admits .sendResponse) :
    s.sendResponse m i =
      (s.onBus i (·.queued b.ledger.numbers.cursor [{ msg := b.responseFor m }]), .ok ()) := by
  rcases enqueue_cases hb { msg := b.responseFor m } with ⟨hput, ht⟩ | ⟨hput, -⟩
  · rw [sendResponse]
    simp only [usableBus_eq hb husable, h.1, Bool.false_eq_true, if_false, hput, ht]
    rfl
  · exact absurd (h.put _) hput

/-! ### The request to bridge comes in -/

/-- A request of a bus that is not that of the management engine waits for the dispatcher, with its
number and its channel. -/
theorem routeRequest_of_room (hengine : b.config.channel ≠ .meIpmb)
    (hopen : s.requests.closed = false)
    (hroom : s.requests.items.length < s.requests.capacity) :
    s.routeRequest i b m =
      { s with
        requests := { s.requests with
          items := s.requests.items ++
            [{ m with seqSource := m.seq, infSource := b.config.channel }] } } := by
  simp only [routeRequest, hengine, decide_false, Bool.false_and, Bool.false_eq_true, if_false,
    notify, Queue.put_of_room _ hopen hroom]

/-! ### It is dispatched -/

/-- The request that a request to bridge carries. -/
def carried (m : Message) (target : Channel) (function cmd : UInt8) (data : Payload) : Message :=
  { netFn := function >>> 2, cmd, data, seqSource := m.seqSource, infSource := m.infSource
    infTarget := target }

/-- What a request to bridge that is long enough says first. -/
theorem exists_bridgeHeader (h : ¬m.data.length < 3) :
    ∃ (target : Channel) (function cmd : UInt8) (payload : List UInt8),
      m.data.bytes = [target.number, function, cmd] ++ payload := by
  rw [Payload.length] at h
  rcases hbytes : m.data.bytes with _ | ⟨target, _ | ⟨function, _ | ⟨cmd, payload⟩⟩⟩
  · simp [hbytes] at h
  · simp [hbytes] at h
  · simp [hbytes] at h
  · exact ⟨⟨target⟩, function, cmd, payload, rfl⟩

/-- A request to bridge that is too short is refused for its length. -/
theorem forward_of_short (h : m.data.length < 3) :
    s.forward m = (s, CompletionCode.invalidLength) := by
  rw [forward]
  split
  · next heq =>
      rw [Payload.length, heq, List.length_cons, List.length_cons, List.length_cons] at h
      omega
  · rfl

/-- A request to bridge to a channel without a bus is not forwarded. -/
theorem forward_of_unserved {function cmd : UInt8} {payload : List UInt8}
    (hdata : m.data.bytes = [channel.number, function, cmd] ++ payload)
    (htarget : s.busFor channel = none) :
    s.forward m = (s.emit (.bridgeTargetUnknown channel), CompletionCode.notSupportedInState) := by
  simp only [forward, hdata, List.cons_append, List.nil_append, htarget]

/-- A request to bridge whose target does not take it fails as a bridge error. -/
theorem forward_of_unsent {function cmd : UInt8} {payload : List UInt8} {fault : Fault}
    (hdata : m.data.bytes = [channel.number, function, cmd] ++ payload)
    (htarget : s.busFor channel = some j)
    (hfault : (s.sendRequest (carried m channel function cmd (m.data.drop 3)) j).2 =
      .error fault) :
    s.forward m = ((s.sendRequest (carried m channel function cmd (m.data.drop 3)) j).1.emit
      (.bridgeFailed channel fault), CompletionCode.bridgeError) := by
  have hsend : s.sendRequest (carried m channel function cmd (m.data.drop 3)) j =
      ((s.sendRequest (carried m channel function cmd (m.data.drop 3)) j).1, .error fault) :=
    Prod.ext rfl hfault
  rw [carried] at hsend
  simp only [forward, hdata, List.cons_append, List.nil_append, htarget]
  rw [hsend]
  rfl

/-- A request to bridge that its target takes is a success. -/
theorem forward_of_sent {function cmd : UInt8} {payload : List UInt8}
    (hdata : m.data.bytes = [channel.number, function, cmd] ++ payload)
    (htarget : s.busFor channel = some j)
    (hok : (s.sendRequest (carried m channel function cmd (m.data.drop 3)) j).2 = .ok ()) :
    s.forward m = ((s.sendRequest (carried m channel function cmd (m.data.drop 3)) j).1,
      CompletionCode.success) := by
  have hsend : s.sendRequest (carried m channel function cmd (m.data.drop 3)) j =
      ((s.sendRequest (carried m channel function cmd (m.data.drop 3)) j).1, .ok ()) :=
    Prod.ext rfl hok
  rw [carried] at hsend
  simp only [forward, hdata, List.cons_append, List.nil_append, htarget]
  rw [hsend]
  rfl

/-- A target that admits an envelope takes the request that is carried, under a fresh number. -/
theorem forward_of_admits {function cmd : UInt8} {payload : List UInt8}
    (hdata : m.data.bytes = [channel.number, function, cmd] ++ payload)
    (htarget : s.busFor channel = some j) (hb : s.buses[j]? = some b)
    (husable : b.config.isUsable = true) (h : b.Admits .sendRequest) :
    (s.forward m).2 = CompletionCode.success ∧
      SendsOne j (requestOf (carried m channel function cmd (m.data.drop 3))) s
        (s.forward m).1 := by
  obtain ⟨hok, hone⟩ :=
    sendRequest_of_admits (carried m channel function cmd (m.data.drop 3)) hb husable h
  rw [forward_of_sent hdata htarget hok]
  exact ⟨rfl, hone⟩

/-- A request to bridge that could be forwarded is not answered here. -/
theorem messageOut_of_success (hiana : m.completionCode ≠ CompletionCode.invalidIana)
    (h : (s.forward m).2 = CompletionCode.success) :
    s.messageOut m = ((s.forward m).1, { m with completionCode := CompletionCode.success }) := by
  simp only [messageOut, if_neg hiana, h, if_true]

/-- A request to bridge as the bridge sees it, without the enterprise number. -/
def opened (m : Message) : Message :=
  { m with completionCode := CompletionCode.invalidCommand, data := m.data.drop 3 }

/-- A request to bridge goes to the bridge without its enterprise number; the handler does not see
it. -/
theorem serve_of_bridge {rest : List UInt8} (handler : Handler)
    (hnetFn : m.netFn = NetFn.enterprise) (hcmd : m.cmd = Cmd.messageOut)
    (hdata : m.data.bytes = ianaBytes ++ rest) :
    s.serve handler m = ((s.messageOut (opened m)).1, (s.messageOut (opened m)).2, []) := by
  have hprefix : ianaBytes.isPrefixOf m.data.bytes = true := by
    rw [hdata, List.isPrefixOf_iff_prefix]
    exact List.prefix_append ..
  simp only [serve, if_pos hnetFn, if_pos hprefix, serveEnterprise, if_pos hcmd]
  rfl

/-- **A request to bridge that is dispatched** is sent on, and its originator is told nothing yet.
-/
theorem dispatch_of_bridge {function cmd : UInt8} {payload : List UInt8} (handler : Handler)
    (hpolicy : s.policy = .default) (hnetFn : m.netFn = NetFn.enterprise)
    (hcmd : m.cmd = Cmd.messageOut)
    (hdata : m.data.bytes = ianaBytes ++ ([channel.number, function, cmd] ++ payload))
    (htarget : s.busFor channel = some j) (hb : s.buses[j]? = some b)
    (husable : b.config.isUsable = true) (h : b.Admits .sendRequest) :
    ∃ w, w.buses = s.buses ∧
      SendsOne j (requestOf (carried m channel function cmd ((m.data.drop 3).drop 3))) w
        (s.dispatch handler m).1 := by
  obtain ⟨es, hdispatch⟩ := dispatch_eq s handler m
  have hserve := serve_of_bridge (s := s.report es) handler hnetFn hcmd hdata
  have hinner : (opened m).data.bytes = [channel.number, function, cmd] ++ payload := by
    rw [opened, Payload.bytes_drop, hdata]
    rfl
  obtain ⟨hok, hone⟩ := forward_of_admits (s := s.report es) hinner htarget hb husable h
  have hiana : (opened m).completionCode ≠ CompletionCode.invalidIana :=
    show CompletionCode.invalidCommand ≠ CompletionCode.invalidIana by decide
  have hsame : (s.report es).policy = .default := hpolicy
  have hitself :
      ((s.report es).forward (opened m)).1.policy.answersItself m.netFn m.cmd = true := by
    rw [hone.sends.policy, hsame, hnetFn, hcmd]
    decide
  have hconclude : conclude (((s.report es).forward (opened m)).1,
      { opened m with completionCode := CompletionCode.success }, []) =
        ((s.report es).forward (opened m)).1 := if_pos hitself
  rw [messageOut_of_success hiana hok] at hserve
  rw [hdispatch, hserve, hconclude]
  exact ⟨s.report es, rfl, hone⟩

/-! ### It is written -/

/-- A link that does not fail delivers the frame of the envelope. -/
theorem inbox_delivered {e : Envelope} (h : b.delivers e = true) :
    (b.delivered e).link.far.inbox = b.link.far.inbox ++
      [Frame.delivered e.msg.destAddr
        (Frame.layout e.msg (Frame.headerSum e.msg) (Frame.messageSum e.msg))] := by
  have hattempt : b.attempt e.msg = b.link.write e.msg.destAddr (Frame.wirePayload
      (Frame.layout e.msg (Frame.headerSum e.msg) (Frame.messageSum e.msg))) := by
    rw [Bus.attempt, Frame.encode_eq]
  have hlink : (b.delivered e).link = (b.attempt e.msg).1 := rfl
  rw [Bus.delivers, hattempt] at h
  rw [hlink, hattempt]
  refine Frame.write_delivers _ ?_
  cases hwrite : (b.link.write e.msg.destAddr (Frame.wirePayload
      (Frame.layout e.msg (Frame.headerSum e.msg) (Frame.messageSum e.msg)))).2 with
  | ok _ => rfl
  | error fault =>
      rw [hwrite] at h
      cases h

/-- What is heard on a bus has no more data than may be received. -/
theorem length_data_of_heard (h : s.heard? i = some m) : m.data.length ≤ Frame.dataMax := by
  obtain ⟨raw, -, hmessage⟩ := Option.bind_eq_some_iff.mp h
  obtain ⟨frame, -, hframe⟩ := Option.bind_eq_some_iff.mp hmessage
  obtain ⟨-, -, hdecode⟩ := Option.bind_eq_some_iff.mp hframe
  cases hm : Frame.decode frame with
  | error fault =>
      rw [hm] at hdecode
      cases hdecode
  | ok n =>
      rw [hm] at hdecode
      obtain rfl : n = m := Option.some.inj hdecode
      exact (Frame.eq_layout_of_decode hm).2

/-! ### The response comes back -/

/-- The answer to a request to bridge. -/
def wrapped (number : UInt8) (data : Payload) : Message :=
  { netFn := NetFn.enterprise, cmd := Cmd.messageOut, completionCode := CompletionCode.success
    seq := number, data }

/-- A bridge puts seven bytes in front of the data of a response. -/
theorem length_bridgedData (channel : Channel) (m : Message) :
    (bridgedData channel m).length = 7 + m.data.length := by
  simp only [bridgedData, ianaBytes, List.length_append, List.length_cons, List.length_nil,
    Payload.length]

/-- The data of a response that has been received fit behind them. -/
theorem exists_bridgedData (channel : Channel) (h : m.data.length ≤ Frame.dataMax) :
    ∃ data, Payload.ofBytes? (bridgedData channel m) = some data := by
  have hfits : (bridgedData channel m).length ≤ Payload.maxLength := by
    rw [length_bridgedData]
    exact Nat.add_le_add_left h 7
  exact ⟨⟨bridgedData channel m, hfits⟩, Payload.ofBytes?_eq_some_iff.mpr rfl⟩

/-- The bus of the originator gets the response, wrapped, with the number by which the originator
knows its request. -/
theorem answerBridge_of_admits (k : Nat) (channel : Channel)
    (hlength : m.data.length ≤ Frame.dataMax) (hsource : s.busFor m.infSource = some i)
    (hb : s.buses[i]? = some b) (husable : b.config.isUsable = true) (h : b.Admits .sendResponse) :
    ∃ data, data.bytes = bridgedData channel m ∧
      s.answerBridge k channel m =
        s.onBus i (·.queued b.ledger.numbers.cursor
          [{ msg := b.responseFor (wrapped m.seqSource data) }]) := by
  obtain ⟨data, hdata⟩ := exists_bridgedData channel hlength
  have hsend := sendResponse_eq (wrapped m.seqSource data) hb husable h
  refine ⟨data, (Payload.ofBytes?_eq_some_iff.mp hdata).symm, ?_⟩
  rw [wrapped] at hsend ⊢
  simp only [answerBridge, hsource, hdata]
  rw [hsend]

/-- A response to any other originator is wrapped. -/
theorem deliverResponse_of_bridge (hself : m.infSource ≠ .self) (hhost : m.infSource ≠ .hostKcs)
    (hengine : m.infSource ≠ .meIpmb) :
    s.deliverResponse i channel m = s.answerBridge i channel m := by
  rw [deliverResponse, if_neg hself, if_neg hhost, if_neg hengine]

/-- A bus that has been replaced by one with the same queue and locks. -/
theorem Replaces.admits {c : Bus} {lock : Lock} (h : Replaces j c s t) (hb : s.buses[j]? = some b)
    (houtbound : c.outbound = b.outbound) (hlocks : c.locks = b.locks)
    (hadmits : s.Admits i lock) : t.Admits i lock := by
  obtain ⟨d, hd, hfree, hopen, hroom⟩ := hadmits
  by_cases hij : j = i
  · obtain rfl := hij
    obtain rfl : b = d := Option.some.inj (hb.symm.trans hd)
    refine ⟨c, h.getElem?_self hb, ?_, ?_, ?_⟩
    · rw [Bus.isLocked, hlocks]
      exact hfree
    · rw [houtbound]
      exact hopen
    · rw [houtbound]
      exact hroom
  · exact ⟨d, (h.getElem?_ne hij).trans hd, hfree, hopen, hroom⟩

end Stack

namespace Scheduler

open Stack

variable {s : Scheduler} {i j : Nat} {b : Bus} {m : Message} {channel : Channel}
  {function cmd : UInt8} {payload : List UInt8}

/-- **A request to bridge waits for the dispatcher**, with its number and its channel, and nothing
else is queued. -/
theorem perform_receive_of_bridge (hsource : s.stack.ServedOnlyBy channel i)
    (hengine : channel ≠ .meIpmb) (hheard : s.stack.heard? i = some m)
    (hrequest : m.isResponse = false) (hopen : s.stack.requests.closed = false)
    (hroom : s.stack.requests.items.length < s.stack.requests.capacity) :
    (s.perform (.receive i)).stack.requests.items =
        s.stack.requests.items ++ [{ m with seqSource := m.seq, infSource := channel }] ∧
      ∀ k, (s.perform (.receive i)).stack.waitingOn k = s.stack.waitingOn k := by
  obtain ⟨b, link, u, hb, hread, hroute⟩ := receive_of_heard hheard
  obtain ⟨-, rfl⟩ := hsource.config hb
  have hreceive : (s.perform (.receive i)).stack = (s.stack.receive i).1 := rfl
  rw [← hread.requests] at hopen hroom ⊢
  rw [hrequest, if_neg Bool.false_ne_true,
    routeRequest_of_room (b := { b with link }) hengine hopen hroom] at hroute
  rw [hreceive, hroute]
  exact ⟨rfl, hread.waitingOn_of_eq hb rfl⟩

/-- **What goes out is the request that was carried.** The dispatcher queues it on the bus of its
channel, under a number of that bus, and nothing else anywhere. -/
theorem perform_dispatch_of_bridge {rest : List Message} (handler : Handler)
    (hpolicy : s.stack.policy = .default) (hhead : s.stack.requests.items = m :: rest)
    (hnetFn : m.netFn = NetFn.enterprise) (hcmd : m.cmd = Cmd.messageOut)
    (hdata : m.data.bytes = ianaBytes ++ ([channel.number, function, cmd] ++ payload))
    (htarget : s.stack.ServedOnlyBy channel j) (h : s.stack.Admits j .sendRequest) :
    ∃ (b : Bus) (n : SequenceNumber),
      QueuesJust j
        { msg := b.requestFor (carried m channel function cmd ((m.data.drop 3).drop 3)) n }
        s.stack (s.perform (.dispatch handler)).stack := by
  obtain ⟨b, hb, hadmits⟩ := h
  obtain ⟨husable, -⟩ := htarget.config hb
  have hperform := perform_dispatch_of_head handler hhead
  obtain ⟨w, hw, hone⟩ := dispatch_of_bridge (s := s.stack.withRequests rest) handler hpolicy
    hnetFn hcmd hdata htarget.busFor hb husable hadmits
  obtain ⟨e, busy, ⟨c, n, rfl, -⟩, hqueued, hothers⟩ := hone.waitingOn
  have hsame : ∀ k, w.waitingOn k = s.stack.waitingOn k :=
    fun k => waitingOn_congr (congrArg (·[k]?) hw)
  rw [← hperform, hsame] at hqueued
  refine ⟨c, n, hqueued, fun k hk => ?_⟩
  rw [hperform, hothers k hk, hsame]

/-- **The peer of a bus receives the request** whose write succeeds, with its function, its command,
its number and its data. -/
theorem arrived_of_ends {a : Action} {e : Envelope} (h : s.stack.ends? j a = some e)
    (hb : s.stack.buses[j]? = some b) (hdelivers : b.delivers e = true)
    (hlength : e.msg.data.length ≤ Frame.dataMax) :
    ∃ raw, (s.perform a).stack.arrivedAt j = s.stack.arrivedAt j ++ [raw] ∧
      Frame.receive raw = .ok (Frame.reading (Frame.wired e.msg) (Frame.headerSum e.msg)
        (Frame.messageSum e.msg)) := by
  have hwritten := perform_of_delivers h hb hdelivers
  refine ⟨_, ?_, (Frame.receive_delivered e.msg).trans (if_pos hlength)⟩
  rw [arrivedAt, arrivedAt, hwritten.getElem?_self hb, hb]
  exact inbox_delivered hdelivers

/-- **The response comes back wrapped**, on the bus of the request to bridge and under the number of
that request, and nothing else is queued. -/
theorem perform_receive_of_bridged {r entry : Message} (hheard : s.stack.heard? j = some r)
    (hresponse : r.isResponse = true) (hb : s.stack.buses[j]? = some b)
    (hentry : b.pendingFor? r = some entry) (hsource : s.stack.ServedOnlyBy entry.infSource i)
    (hself : entry.infSource ≠ .self) (hhost : entry.infSource ≠ .hostKcs)
    (hengine : entry.infSource ≠ .meIpmb) (h : s.stack.Admits i .sendResponse) :
    ∃ (c : Bus) (data : Payload), data.bytes = bridgedData b.config.channel r ∧
      QueuesJust i { msg := c.responseFor (wrapped entry.seqSource data) } s.stack
        (s.perform (.receive j)).stack := by
  obtain @⟨b', d', r', u, hb', hr', -, -, hreplaces, hconfig, houtbound, hlocks, hdeliver⟩ :=
    relays_receive hb hheard hresponse hentry
  obtain rfl : b = b' := Option.some.inj (hb.symm.trans hb')
  obtain rfl : r = r' := Option.some.inj (hheard.symm.trans hr')
  obtain ⟨d, hd, hadmits⟩ := hreplaces.admits hb houtbound hlocks h
  have hserved := hsource.congr (hreplaces.busConfig hb hconfig)
  obtain ⟨husable, -⟩ := hserved.config hd
  have hlength : r.data.length ≤ Frame.dataMax := length_data_of_heard hheard
  obtain ⟨data, hdata, hanswer⟩ := answerBridge_of_admits (m := r.answering entry) j
    b.config.channel hlength hserved.busFor hd husable hadmits
  have hreceive : (s.perform (.receive j)).stack =
      u.onBus i (·.queued d.ledger.numbers.cursor
        [{ msg := d.responseFor (wrapped entry.seqSource data) }]) :=
    (hdeliver.trans (deliverResponse_of_bridge hself hhost hengine)).trans hanswer
  have hqueued := (hreceive ▸ Replaces.of_onBus hd).waitingOn hd rfl
  have hsame := hreplaces.waitingOn_of_eq hb houtbound
  refine ⟨d, data, hdata, ?_, fun k hk => ?_⟩
  · rw [hqueued, hsame, if_pos rfl]
  · rw [hqueued, hsame, if_neg hk, List.append_nil]

/-! ### The whole way -/

/-- A request is the one that has come from a channel under a number, with a function, a command and
data, and it goes out under a number of its own. -/
structure Carries (source : Channel) (number function cmd : UInt8) (payload : List UInt8)
    (own : SequenceNumber) (m : Message) : Prop where
  netFn : m.netFn = function >>> 2
  cmd : m.cmd = cmd
  data : m.data.bytes = payload
  seq : m.seq = own.toByte
  number : m.seqSource = number
  source : m.infSource = source

/-- That a request carries what was bridged does not depend on when and under which number it is
recorded. -/
theorem enduring_carries {source : Channel} {number : UInt8} {own : SequenceNumber}
    (heven : function >>> 2 % 2 = 0) (hhost : source ≠ .hostKcs) :
    Trail.Enduring (Carries source number function cmd payload own) where
  request := by
    intro m hm
    have hdirection : ((function >>> 2) &&& (1 : UInt8) != 0) = false :=
      Frame.forall_byte (p := fun b => b % 2 = 0 → (b &&& 1 != 0) = false) (by decide) _ heven
    rw [Message.isResponse, hm.netFn, hdirection]
  source := by
    intro m hm
    rw [hm.source]
    exact hhost
  recorded := fun m number' tick hm => ⟨hm.netFn, hm.cmd, hm.data, hm.seq, hm.number, hm.source⟩

/-- What the peer of a bus reads of a request. -/
theorem reading_of_carries {source : Channel} {number hc mc : UInt8} {own : SequenceNumber}
    (h : Carries source number function cmd payload own m) :
    let r := Frame.reading (Frame.wired m) hc mc
    r.netFn = function >>> 2 ∧ r.cmd = cmd ∧ r.data.bytes = payload ∧ r.seq = own.toByte := by
  have hfunction : (function >>> 2) &&& (0x3F : UInt8) = function >>> 2 :=
    Frame.forall_byte (p := fun b => (b >>> 2) &&& (0x3F : UInt8) = b >>> 2) (by decide) function
  have hown : ∀ n : SequenceNumber, n.toByte &&& (0x3F : UInt8) = n.toByte := by decide
  have hnetFn : m.netFn &&& (0x3F : UInt8) = function >>> 2 := by rw [h.netFn, hfunction]
  have hseq : m.seq &&& (0x3F : UInt8) = own.toByte := by rw [h.seq, hown]
  exact ⟨hnetFn, h.cmd, h.data, hseq⟩

/-- An action ends the write of an envelope on a trail, and the link does not fail. -/
def WritesFrom (s : Scheduler) (j : Nat) (x : Trail) (a : Action) : Prop :=
  ∃ b e, s.stack.ends? j a = some e ∧ e ∈ x.envelopes ∧ s.stack.buses[j]? = some b ∧
    b.delivers e = true

/-- A record on a trail is pending on a bus, and nothing else is pending there under its number. -/
def Awaits (s : Scheduler) (j : Nat) (x : Trail) (number : UInt8) : Prop :=
  (∃ p ∈ s.stack.pendingOn j, p ∈ x.records) ∧
    ∀ p ∈ s.stack.pendingOn j, p.seqTarget = number → p ∈ x.records

instance (s : Scheduler) (j : Nat) (x : Trail) (number : UInt8) : Decidable (s.Awaits j x number) :=
  inferInstanceAs (Decidable (_ ∧ _))

/-- **Whenever an envelope of the trail is written, the peer receives the request that was
carried.** -/
theorem arrived_of_writesFrom {source : Channel} {number : UInt8} {own : SequenceNumber} {x : Trail}
    {a : Action} (hx : x.Keeps (Carries source number function cmd payload own))
    (hlength : payload.length ≤ Frame.dataMax) (h : s.WritesFrom j x a) :
    ∃ raw r, (s.perform a).stack.arrivedAt j = s.stack.arrivedAt j ++ [raw] ∧
      Frame.receive raw = .ok r ∧ r.netFn = function >>> 2 ∧ r.cmd = cmd ∧
        r.data.bytes = payload ∧ r.seq = own.toByte := by
  obtain ⟨b, e, hends, he, hb, hdelivers⟩ := h
  have hcarries := hx.envelopes e he
  have hdata : e.msg.data.length ≤ Frame.dataMax := by
    rw [Payload.length, hcarries.data]
    exact hlength
  obtain ⟨raw, harrived, hreceive⟩ := arrived_of_ends hends hb hdelivers hdata
  exact ⟨raw, _, harrived, hreceive, reading_of_carries hcarries⟩

/-- The oldest pending request that a response answers is on the trail. -/
theorem pendingFor?_of_awaits {source : Channel} {number : UInt8} {own : SequenceNumber} {x : Trail}
    {r : Message} (hx : x.Keeps (Carries source number function cmd payload own))
    (h : s.Awaits j x own.toByte) (hnetFn : r.netFn = function >>> 2 + 1) (hcmd : r.cmd = cmd)
    (hseq : r.seq = own.toByte) :
    ∃ b p, s.stack.buses[j]? = some b ∧ b.pendingFor? r = some p ∧
      Carries source number function cmd payload own p := by
  obtain ⟨⟨p, hp, hrecord⟩, honly⟩ := h
  cases hb : s.stack.buses[j]? with
  | none =>
      rw [pendingOn, hb] at hp
      cases hp
  | some b =>
      rw [pendingOn_eq hb] at hp honly
      obtain ⟨hcarries, hnumber⟩ := hx.records p hrecord
      have hanswers : r.answers p = true := by
        refine Message.answers_iff.mpr ⟨?_, hcarries.cmd.trans hcmd.symm, ?_⟩
        · rw [hcarries.netFn, hnetFn, UInt8.add_sub_cancel]
        · rw [hnumber, hcarries.seq, hseq]
      have hfound := List.find?_isSome.mpr ⟨p, hp, hanswers⟩
      obtain ⟨q, hq⟩ := Option.isSome_iff_exists.mp hfound
      have hanswered := Message.answers_iff.mp (List.find?_some hq)
      have hmem := honly q (List.mem_of_find?_eq_some hq) (hanswered.2.2.trans hseq)
      exact ⟨b, q, rfl, hq, (hx.records q hmem).1⟩

/-- The reply to a request to bridge. -/
theorem reply_of_awaits {source target : Channel} {number : UInt8} {own : SequenceNumber}
    {x : Trail} {r : Message} (hx : x.Keeps (Carries source number function cmd payload own))
    (hsource : s.stack.ServedOnlyBy source i) (htarget : s.stack.ServedOnlyBy target j)
    (hself : source ≠ .self) (hhost : source ≠ .hostKcs) (hengine : source ≠ .meIpmb)
    (heven : function >>> 2 % 2 = 0) (hheard : s.stack.heard? j = some r)
    (hnetFn : r.netFn = function >>> 2 + 1) (hcmd : r.cmd = cmd) (hseq : r.seq = own.toByte)
    (hawaits : s.Awaits j x own.toByte) (hadmits : s.stack.Admits i .sendResponse) :
    ∃ f, QueuesJust i f s.stack (s.perform (.receive j)).stack ∧
      f.msg.netFn = NetFn.enterprise + 1 ∧ f.msg.cmd = Cmd.messageOut ∧ f.msg.seq = number ∧
        f.msg.completionCode = CompletionCode.success ∧
          f.msg.data.bytes = ianaBytes ++
            [target.number, function >>> 2 + 1, cmd, r.completionCode] ++ r.data.bytes := by
  obtain ⟨b, p, hb, hp, hcarries⟩ := pendingFor?_of_awaits hx hawaits hnetFn hcmd hseq
  have hresponse : r.isResponse = true := by
    have hrequest := (enduring_carries heven hhost).request p hcarries
    rw [Message.isResponse_of_netFn_eq_add_one (m := p) (hcarries.netFn ▸ hnetFn), hrequest]
    rfl
  obtain rfl := hcarries.source
  obtain ⟨c, data, hdata, hjust⟩ :=
    perform_receive_of_bridged hheard hresponse hb hp hsource hself hhost hengine hadmits
  obtain ⟨-, hchannel⟩ := htarget.config hb
  have hbytes : data.bytes = ianaBytes ++
      [target.number, function >>> 2 + 1, cmd, r.completionCode] ++ r.data.bytes := by
    rw [hdata, bridgedData, hchannel, hnetFn, hcmd]
  exact ⟨_, hjust, rfl, rfl, hcarries.number, rfl, hbytes⟩

/-- What has become of a request to bridge once it has been dispatched: the request that it carries
is one envelope on the bus of its target. From there, in every run, the peer receives it wherever it
is written; and wherever the response to it is heard while it is pending, and nothing else is under
its number, just one reply is queued, on the bus of its source. -/
def Bridges (target : Channel) (i j : Nat) (number function cmd : UInt8) (payload : List UInt8)
    (t v : Scheduler) : Prop :=
  ∃ e, QueuesJust j e t.stack v.stack ∧
    e.msg.netFn = function >>> 2 ∧ e.msg.cmd = cmd ∧ e.msg.data.bytes = payload ∧
    ∀ (bs : List Action) (u : Scheduler) (x : Trail), u = v.after bs →
      x = (Trail.start i j t.stack v.stack).along i j v bs →
      (∀ a, u.WritesFrom j x a →
        ∃ raw r, (u.perform a).stack.arrivedAt j = u.stack.arrivedAt j ++ [raw] ∧
          Frame.receive raw = .ok r ∧ r.netFn = function >>> 2 ∧ r.cmd = cmd ∧
            r.data.bytes = payload ∧ r.seq = e.msg.seq) ∧
      ∀ r, u.stack.heard? j = some r → r.netFn = function >>> 2 + 1 → r.cmd = cmd →
        r.seq = e.msg.seq → u.Awaits j x e.msg.seq → u.stack.Admits i .sendResponse →
        ∃ f, QueuesJust i f u.stack (u.perform (.receive j)).stack ∧
          f.msg.netFn = NetFn.enterprise + 1 ∧ f.msg.cmd = Cmd.messageOut ∧
            f.msg.seq = number ∧ f.msg.completionCode = CompletionCode.success ∧
              f.msg.data.bytes = ianaBytes ++
                [target.number, function >>> 2 + 1, cmd, r.completionCode] ++ r.data.bytes

/-- A request to bridge at the head of the dispatcher's queue is bridged when it is dispatched. -/
theorem bridges_of_dispatch {source target : Channel} {rest : List Message} (handler : Handler)
    (hpolicy : s.stack.policy = .default) (hsource : s.stack.ServedOnlyBy source i)
    (htarget : s.stack.ServedOnlyBy target j) (hself : source ≠ .self)
    (hhost : source ≠ .hostKcs) (hengine : source ≠ .meIpmb)
    (hhead : s.stack.requests.items = m :: rest)
    (hnetFn : m.netFn = NetFn.enterprise) (hcmd : m.cmd = Cmd.messageOut)
    (hinfSource : m.infSource = source) (hlength : m.data.length ≤ Frame.dataMax)
    (hdata : m.data.bytes = ianaBytes ++ ([target.number, function, cmd] ++ payload))
    (heven : function >>> 2 % 2 = 0) (h : s.stack.Admits j .sendRequest) :
    Bridges target i j m.seqSource function cmd payload s
      (s.perform (.dispatch handler)) := by
  obtain ⟨b, n, hjust⟩ :=
    perform_dispatch_of_bridge handler hpolicy hhead hnetFn hcmd hdata htarget h
  have hpayload : ((m.data.drop 3).drop 3).bytes = payload := by
    rw [Payload.bytes_drop, Payload.bytes_drop, hdata]
    rfl
  have hfits : payload.length ≤ Frame.dataMax := by
    rw [Payload.length, hdata, List.length_append, List.length_append] at hlength
    omega
  refine ⟨_, hjust, rfl, rfl, hpayload, ?_⟩
  rintro bs u x rfl rfl
  have hstart : (Trail.start i j s.stack (s.perform (.dispatch handler)).stack).Keeps
      (Carries source m.seqSource function cmd payload n) := by
    refine Trail.keeps_start fun e he _ => ?_
    rw [queuedOn_eq hjust.1, List.mem_singleton] at he
    obtain rfl := he
    exact ⟨rfl, rfl, hpayload, rfl, rfl, hinfSource⟩
  have hkeeps : ((Trail.start i j s.stack (s.perform (.dispatch handler)).stack).along i j
      (s.perform (.dispatch handler)) bs).Keeps
        (Carries source m.seqSource function cmd payload n) :=
    Trail.keeps_along (enduring_carries heven hhost) hstart
  have hsource' := servedOnlyBy_after hsource (.dispatch handler :: bs)
  have htarget' := servedOnlyBy_after htarget (.dispatch handler :: bs)
  refine ⟨fun a hwrites => arrived_of_writesFrom hkeeps hfits hwrites, ?_⟩
  intro r hheard hrFn hrCmd hrSeq hawaits hadmits
  exact reply_of_awaits hkeeps hsource' htarget' hself hhost hengine heven hheard hrFn hrCmd hrSeq
    hawaits hadmits

/-- **A bridged request makes the round trip**, whatever else happens between its stages. A request
to bridge waits for the dispatcher once it has been heard, and nothing is queued for it. Whenever
the dispatcher serves it, the request that it carries goes out on the bus of its target, with its
function, its command and its data; and the response to that request comes back as it is, under the
number of the request to bridge. -/
theorem bridge_round_trip {source target : Channel} (hpolicy : s.stack.policy = .default)
    (hsource : s.stack.ServedOnlyBy source i) (htarget : s.stack.ServedOnlyBy target j)
    (hself : source ≠ .self) (hhost : source ≠ .hostKcs) (hengine : source ≠ .meIpmb)
    (hheard : s.stack.heard? i = some m) (hnetFn : m.netFn = NetFn.enterprise)
    (hcmd : m.cmd = Cmd.messageOut)
    (hdata : m.data.bytes = ianaBytes ++ ([target.number, function, cmd] ++ payload))
    (heven : function >>> 2 % 2 = 0) (hopen : s.stack.requests.closed = false)
    (hroom : s.stack.requests.items.length < s.stack.requests.capacity) :
    let request := { m with seqSource := m.seq, infSource := source }
    (s.perform (.receive i)).stack.requests.items = s.stack.requests.items ++ [request] ∧
      (∀ k, (s.perform (.receive i)).stack.waitingOn k = s.stack.waitingOn k) ∧
      ∀ (as : List Action) (t : Scheduler) (handler : Handler),
        t = (s.perform (.receive i)).after as → t.stack.requests.items.head? = some request →
        t.stack.Admits j .sendRequest →
        Bridges target i j m.seq function cmd payload t (t.perform (.dispatch handler)) := by
  have hrequest : m.isResponse = false := Message.isResponse_of_enterprise hnetFn
  obtain ⟨hqueued, hsame⟩ :=
    perform_receive_of_bridge hsource hengine hheard hrequest hopen hroom
  refine ⟨hqueued, hsame, ?_⟩
  intro as t handler ht hhead hadmits
  obtain ⟨rest, hitems⟩ := List.head?_eq_some_iff.mp hhead
  have hrun : t = s.after (.receive i :: as) := ht
  have hpolicy' : t.stack.policy = .default := by rw [hrun, policy_after, hpolicy]
  have hsource' := hrun ▸ servedOnlyBy_after hsource (.receive i :: as)
  have htarget' := hrun ▸ servedOnlyBy_after htarget (.receive i :: as)
  have hlength : m.data.length ≤ Frame.dataMax := length_data_of_heard hheard
  exact bridges_of_dispatch handler hpolicy' hsource' htarget' hself hhost hengine hitems hnetFn
    hcmd rfl hlength hdata heven hadmits

/-! ### A request to an expansion board -/

/-- A request to bridge. It carries command 1 of function 6 and one byte, for an expansion board. -/
def boardRequest : Message where
  destAddr := 0x10
  netFn := NetFn.enterprise
  srcAddr := 0x40
  seq := 7
  cmd := Cmd.messageOut
  data := ⟨[0x15, 0xA0, 0x00, 0x05, 0x18, 0x01, 0x77], by decide⟩
  messageChecksum := 0x58

/-- The response of the board to the first request that it gets. -/
def boardResponse : Message where
  destAddr := 0x10
  netFn := 0x07
  srcAddr := 0x60
  seq := 1
  cmd := 0x01
  data := ⟨[0x42], by decide⟩
  headerChecksum := 0xC4
  messageChecksum := 0x59

/-- The request to bridge has been written to the stack. -/
def boardAsked : Scheduler :=
  atRest (pairStack { bmcRow with link := bmcRow.hearing boardRequest } expanderRow {})

/-- It has been heard and dispatched. -/
def boardServed : Scheduler :=
  (boardAsked.perform (.receive 0)).perform (.dispatch id)

/-- The board has been asked and has responded. -/
def boardAnswering : Scheduler :=
  boardServed.after
    [.transmitBegin 1, .transmitEnd 1, .relink 1 (expanderRow.hearing boardResponse)]

/-- The board gets function 6, and the controller gets its answer. -/
theorem bridge_round_trip_board :
    (∃ raw r,
        (boardServed.after [.transmitBegin 1, .transmitEnd 1]).stack.arrivedAt 1 = [raw] ∧
        Frame.receive raw = .ok r ∧ r.netFn = 0x06 ∧ r.cmd = 0x01 ∧ r.data.bytes = [0x77]) ∧
      ∃ f, QueuesJust 0 f boardAnswering.stack (boardAnswering.perform (.receive 1)).stack ∧
        f.msg.netFn = 0x39 ∧ f.msg.cmd = 0x02 ∧ f.msg.seq = 7 ∧ f.msg.completionCode = 0x00 ∧
          f.msg.data.bytes = [0x15, 0xA0, 0x00, 0x05, 0x07, 0x01, 0x00, 0x42] := by
  have hsource : boardAsked.stack.ServedOnlyBy .bmcIpmb 0 := by decide
  have htarget : boardAsked.stack.ServedOnlyBy ⟨0x05⟩ 1 := by decide
  have hheard : boardAsked.stack.heard? 0 = some boardRequest := by decide +kernel
  have hdata : boardRequest.data.bytes =
      ianaBytes ++ ([(⟨0x05⟩ : Channel).number, 0x18, 0x01] ++ [0x77]) := rfl
  obtain ⟨-, -, hserved⟩ := bridge_round_trip rfl hsource htarget (by decide) (by decide)
    (by decide) hheard rfl rfl hdata (by decide) rfl (by decide)
  obtain ⟨e, ⟨hqueued, -⟩, -, -, -, hbridges⟩ :=
    hserved [] (boardAsked.perform (.receive 0)) id rfl (by decide +kernel)
      ⟨_, rfl, by decide +kernel⟩
  have hseq : e.msg.seq = 1 := by
    have hall : ∀ f ∈ boardServed.stack.waitingOn 1, f.msg.seq = 1 := by decide +kernel
    exact hall e (hqueued ▸ List.mem_concat_self)
  constructor
  · obtain ⟨hwritten, -⟩ := hbridges [.transmitBegin 1] _ _ rfl rfl
    obtain ⟨raw, r, harrived, hreceive, hnetFn, hcmd, hpayload, -⟩ :=
      hwritten (.transmitEnd 1) ⟨_, _, rfl, by decide +kernel, rfl, by decide +kernel⟩
    exact ⟨raw, r, harrived, hreceive, hnetFn, hcmd, hpayload⟩
  · obtain ⟨-, hanswered⟩ := hbridges
      [.transmitBegin 1, .transmitEnd 1, .relink 1 (expanderRow.hearing boardResponse)] _ _ rfl rfl
    have hresponse : boardAnswering.stack.heard? 1 = some boardResponse := by decide +kernel
    rw [hseq] at hanswered
    obtain ⟨f, hjust, hreply⟩ := hanswered boardResponse hresponse rfl rfl rfl (by decide +kernel)
      ⟨_, rfl, by decide +kernel⟩
    exact ⟨f, hjust, hreply⟩

end Scheduler

end ManagementBus
