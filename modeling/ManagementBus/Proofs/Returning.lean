import ManagementBus.Proofs.Serving

/-!
# Where a response returns

A request that is heard on a bus is remembered with the channel of that bus, and its response goes
to the first usable bus of the table that serves the channel. That is the bus of the request, unless
an earlier one serves the channel too. The response takes its place and its addresses from the bus
on which it is queued, and everything else from the request.

## Main results

* `exists_firstServing`: a bus that is usable has a first one that serves its channel.
* `response_returns`: the response to a request is queued there, and nothing else is queued.
* `response_strays`: of two buses of one channel the first answers for the second, and the bridge
  answers a request to bridge.
-/

namespace ManagementBus

open EnvelopeProperty

namespace Stack

variable {s t : Stack} {i j : Nat} {b : Bus} {m : Message} {channel : Channel} {config : BusConfig}

/-! ### The bus of a channel -/

/-- The first bus of the table that serves a channel, with its row. -/
structure FirstServing (s : Stack) (channel : Channel) (j : Nat) (config : BusConfig) : Prop where
  row : s.busConfig j = some config
  serves : config.serves channel = true
  first : ∀ k config', k < j → s.busConfig k = some config' → config'.serves channel = false

/-- Which bus serves a channel first depends on the rows alone. -/
theorem FirstServing.congr (h : s.FirstServing channel j config)
    (hsame : ∀ k, t.busConfig k = s.busConfig k) : t.FirstServing channel j config where
  row := (hsame j).trans h.row
  serves := h.serves
  first := fun k config' hk hrow => h.first k config' hk ((hsame k).symm.trans hrow)

/-- The first bus that serves a channel is the one that is found for it. -/
theorem FirstServing.busFor (h : s.FirstServing channel j config) : s.busFor channel = some j := by
  obtain ⟨b, hb, hconfig⟩ := Option.map_eq_some_iff.mp h.row
  obtain ⟨hlt, rfl⟩ := List.getElem?_eq_some_iff.mp hb
  refine List.findIdx?_eq_some_iff_getElem.mpr ⟨hlt, ?_, ?_⟩
  · rw [hconfig]
    exact h.serves
  · intro k hk
    have hearlier := h.first k _ hk (busConfig_eq (List.getElem?_eq_getElem (Nat.lt_trans hk hlt)))
    exact ne_true_of_eq_false hearlier

/-- The bus that is found for a channel is the first that serves it. -/
theorem firstServing_of_busFor (hfound : s.busFor channel = some j) (hb : s.buses[j]? = some b) :
    s.FirstServing channel j b.config := by
  obtain ⟨hlt, hj, hearlier⟩ := List.findIdx?_eq_some_iff_getElem.mp hfound
  obtain rfl : s.buses[j] = b := Option.some.inj ((List.getElem?_eq_getElem hlt).symm.trans hb)
  refine ⟨busConfig_eq hb, hj, ?_⟩
  intro k config hk hrow
  obtain ⟨c, hc, rfl⟩ := Option.map_eq_some_iff.mp hrow
  obtain ⟨-, rfl⟩ := List.getElem?_eq_some_iff.mp hc
  exact eq_false_of_ne_true (hearlier k hk)

/-- **A bus that is usable has a first one that serves its channel**, and that is no later one. -/
theorem exists_firstServing (hrow : s.busConfig i = some config)
    (husable : config.isUsable = true) :
    ∃ j target, s.FirstServing config.channel j target ∧ j ≤ i := by
  obtain ⟨b, hb, rfl⟩ := Option.map_eq_some_iff.mp hrow
  have hserves : b.config.serves b.config.channel = true := by
    rw [BusConfig.serves, husable, decide_eq_true rfl]
    rfl
  cases hfound : s.busFor b.config.channel with
  | none =>
      have hnone := List.findIdx?_eq_none_iff.mp hfound b (List.mem_of_getElem? hb)
      rw [hserves] at hnone
      cases hnone
  | some j =>
      obtain ⟨hlt, -, hearlier⟩ := List.findIdx?_eq_some_iff_getElem.mp hfound
      refine ⟨j, _, firstServing_of_busFor hfound (List.getElem?_eq_getElem hlt), ?_⟩
      refine Nat.le_of_not_lt fun hi => ?_
      obtain ⟨hi', hget⟩ := List.getElem?_eq_some_iff.mp hb
      refine hearlier i hi ?_
      rw [hget]
      exact hserves

/-! ### The request -/

/-- An open queue of requests takes every request; a full one forgets those that wait. -/
theorem notify_of_open (m : Message) (hopen : s.requests.closed = false)
    (hcapacity : 0 < s.requests.capacity) :
    ∃ es, s.notify m =
      ((s.withRequests ((if s.requests.isFull then [] else s.requests.items) ++ [m])).report es,
        .ok ()) := by
  by_cases hfull : s.requests.isFull = true
  · have hput : s.requests.put m = (s.requests, .full) := by
      simp only [Queue.put, hopen, hfull, Bool.false_eq_true, if_false, if_true]
    have hpurged := Queue.put_of_room (q := s.requests.purge.1) m hopen hcapacity
    refine ⟨Event.purge .request s.requests.items.length, ?_⟩
    simp only [notify, hput, hpurged, hfull, if_true]
    rfl
  · have hroom : s.requests.items.length < s.requests.capacity := by
      simpa [Queue.isFull] using hfull
    refine ⟨[], ?_⟩
    simp only [notify, Queue.put_of_room m hopen hroom, if_neg hfull, report, List.append_nil]
    rfl

/-- A request as it waits for the dispatcher once it has been heard on a bus of a channel. -/
def arrivedOn (m : Message) (channel : Channel) : Message :=
  { m with seqSource := m.seq, infSource := channel }

/-- A request of a bus that is not that of the management engine waits for the dispatcher. -/
theorem routeRequest_of_open (hengine : b.config.channel ≠ .meIpmb)
    (hopen : s.requests.closed = false) (hcapacity : 0 < s.requests.capacity) :
    ∃ es, s.routeRequest i b m =
      (s.withRequests ((if s.requests.isFull then [] else s.requests.items) ++
        [arrivedOn m b.config.channel])).report es := by
  obtain ⟨es, hnotify⟩ := notify_of_open (arrivedOn m b.config.channel) hopen hcapacity
  refine ⟨es, ?_⟩
  rw [arrivedOn] at hnotify ⊢
  simp only [routeRequest, hengine, decide_false, Bool.false_and, Bool.false_eq_true, if_false,
    hnotify]

/-- A message is the response to a request on the bus of a row: it has the next function, the same
command and number, the logical units exchanged, and the addresses of the bus. -/
structure Returns (config : BusConfig) (m r : Message) : Prop where
  netFn : r.netFn = m.netFn + 1
  cmd : r.cmd = m.cmd
  seq : r.seq = m.seq
  destLun : r.destLun = m.srcLun
  srcLun : r.srcLun = m.destLun
  destAddr : r.destAddr = config.targetAddr
  srcAddr : r.srcAddr = config.selfAddr <<< 1

/-- The response that goes out for an answer returns to the originator. -/
theorem returns_responseFor {answer : UInt8 × List UInt8} {r : Message}
    (h : AnswersWith m answer r) : Returns b.config m (b.responseFor r) := by
  rw [h.1]
  exact ⟨rfl, rfl, rfl, rfl, rfl, rfl, rfl⟩

end Stack

namespace Scheduler

open Stack

variable {s t : Scheduler} {i j : Nat} {m : Message} {config target : BusConfig}

/-- **A request that is heard waits for the dispatcher** with its number and its channel, behind the
others or in place of them, and nothing is queued. -/
theorem perform_receive_of_request (hrow : s.stack.busConfig i = some config)
    (hengine : config.channel ≠ .meIpmb) (hheard : s.stack.heard? i = some m)
    (hrequest : m.isResponse = false) (hopen : s.stack.requests.closed = false)
    (hcapacity : 0 < s.stack.requests.capacity) :
    (s.perform (.receive i)).stack.requests.items =
        (if s.stack.requests.isFull then [] else s.stack.requests.items) ++
          [arrivedOn m config.channel] ∧
      ∀ k, (s.perform (.receive i)).stack.waitingOn k = s.stack.waitingOn k := by
  obtain ⟨b, link, u, hb, hread, hroute⟩ := receive_of_heard hheard
  obtain rfl : b.config = config := Option.some.inj ((busConfig_eq hb).symm.trans hrow)
  have hreceive : (s.perform (.receive i)).stack = (s.stack.receive i).1 := rfl
  rw [← hread.requests] at hopen hcapacity ⊢
  obtain ⟨es, hqueued⟩ := routeRequest_of_open (i := i) (b := { b with link }) (m := m) hengine
    hopen hcapacity
  rw [hrequest, if_neg Bool.false_ne_true, hqueued] at hroute
  rw [hreceive, hroute]
  exact ⟨rfl, hread.waitingOn_of_eq hb rfl⟩

/-- **The dispatcher queues the response** on the first bus that serves the channel of the request,
and nothing else. -/
theorem perform_dispatch_of_answers {handler : Handler} {rest : List Message}
    (hhandler : handler.Answers) (hhead : t.stack.requests.items = m :: rest)
    (hbridge : ¬m.IsBridge) (hitself : t.stack.policy.answersItself m.netFn m.cmd = false)
    (hhost : m.infSource ≠ .hostKcs) (hfirst : t.stack.FirstServing m.infSource j target)
    (h : t.stack.Admits j .sendResponse) :
    ∃ e, QueuesJust j e t.stack (t.perform (.dispatch handler)).stack ∧ Returns target m e.msg := by
  obtain ⟨b, hb, hadmits⟩ := h
  obtain rfl : b.config = target := Option.some.inj ((busConfig_eq hb).symm.trans hfirst.row)
  have husable : b.config.isUsable = true := by
    have hserves := hfirst.serves
    rw [BusConfig.serves, Bool.and_eq_true] at hserves
    exact hserves.1
  have hperform := perform_dispatch_of_head handler hhead
  obtain ⟨r, hanswers, hqueued⟩ := dispatch_queues (s := t.stack.withRequests rest) hhandler hbridge
    hitself hhost hfirst.busFor hb husable hadmits
  have hitems : (b.queued b.ledger.numbers.cursor [{ msg := b.responseFor r }]).outbound.items =
      b.outbound.items ++ [{ msg := b.responseFor r }] := rfl
  have hwaiting := hqueued.waitingOn hb hitems
  rw [hperform]
  refine ⟨{ msg := b.responseFor r }, ⟨?_, ?_⟩, returns_responseFor hanswers⟩
  · rw [hwaiting, if_pos rfl]
    rfl
  · intro k hk
    rw [hwaiting, if_neg hk, List.append_nil]
    rfl

/-- **A response returns to the channel of its request.** A request that is heard on a bus of any
table, other than that of the management engine, waits for the dispatcher, and nothing is queued for
it. Whenever the dispatcher serves it with a handler that only answers, just one envelope is queued:
the response, on the first usable bus of the table that serves the channel. That is the bus of the
request itself, unless an earlier one is usable and has the same channel. -/
theorem response_returns (hrow : s.stack.busConfig i = some config)
    (hengine : config.channel ≠ .meIpmb) (hhost : config.channel ≠ .hostKcs)
    (hheard : s.stack.heard? i = some m) (hrequest : m.isResponse = false)
    (hopen : s.stack.requests.closed = false) (hcapacity : 0 < s.stack.requests.capacity) :
    (s.perform (.receive i)).stack.requests.items =
        (if s.stack.requests.isFull then [] else s.stack.requests.items) ++
          [arrivedOn m config.channel] ∧
      (∀ k, (s.perform (.receive i)).stack.waitingOn k = s.stack.waitingOn k) ∧
      ∃ j target, s.stack.FirstServing config.channel j target ∧ j ≤ i ∧
        ∀ (as : List Action) (t : Scheduler) (handler : Handler), handler.Answers →
          t = (s.perform (.receive i)).after as →
          t.stack.requests.items.head? = some (arrivedOn m config.channel) →
          ¬m.IsBridge → s.stack.policy.answersItself m.netFn m.cmd = false →
          t.stack.Admits j .sendResponse →
          ∃ e, QueuesJust j e t.stack (t.perform (.dispatch handler)).stack ∧
            Returns target m e.msg := by
  obtain ⟨hqueued, hsame⟩ :=
    perform_receive_of_request hrow hengine hheard hrequest hopen hcapacity
  obtain ⟨raw, hraw, -⟩ := Option.bind_eq_some_iff.mp hheard
  obtain ⟨c, hworker, -⟩ := Option.bind_eq_some_iff.mp hraw
  obtain ⟨-, hc, husable⟩ := workerBus_eq_some_iff.mp hworker
  obtain rfl : c.config = config := Option.some.inj ((busConfig_eq hc).symm.trans hrow)
  obtain ⟨j, target, hfirst, hle⟩ := exists_firstServing hrow husable
  refine ⟨hqueued, hsame, j, target, hfirst, hle, ?_⟩
  intro as t handler hhandler ht hhead hbridge hitself hadmits
  obtain ⟨rest, hitems⟩ := List.head?_eq_some_iff.mp hhead
  have hrun : t = s.after (.receive i :: as) := ht
  have hpolicy : t.stack.policy = s.stack.policy := by rw [hrun, policy_after]
  have hfirst' : t.stack.FirstServing c.config.channel j target := by
    rw [hrun]
    exact hfirst.congr (s.busConfig_after (.receive i :: as))
  obtain ⟨e, hjust, hreturns⟩ := perform_dispatch_of_answers hhandler hitems hbridge
    (by rw [hpolicy]; exact hitself) hhost hfirst' hadmits
  exact ⟨e, hjust, hreturns.netFn, hreturns.cmd, hreturns.seq, hreturns.destLun, hreturns.srcLun,
    hreturns.destAddr, hreturns.srcAddr⟩

/-! ### Two buses of one channel, and a request to bridge -/

/-- A second bus of the channel of the baseboard management controller. -/
def twinRow : BusRow where
  config := BusConfig.new 1 .bmcIpmb 2 0x10 0x30
  link := Link.pair 0x10 0x30

/-- A request of its peer. -/
def twinRequest : Message where
  destAddr := 0x10
  netFn := 0x06
  headerChecksum := 0xC8
  srcAddr := 0x60
  seq := 3
  cmd := 0x01
  messageChecksum := 0x93

/-- The table of both, when the peer of the second has sent its request. -/
def twins : Setup where
  rows := [bmcRow, { twinRow with link := twinRow.hearing twinRequest }]

/-- The stack of that table, when the request has been heard. -/
def twinHeard : Scheduler :=
  (atRest (pairStack bmcRow { twinRow with link := twinRow.hearing twinRequest } {})).perform
    (.receive 1)

/-- The first of the two buses has the response to the request of the second. -/
theorem response_returns_twins :
    (atRest (pairStack bmcRow { twinRow with link := twinRow.hearing twinRequest } {})).stack.heard?
        1 = some twinRequest ∧
      ∃ e, QueuesJust 0 e twinHeard.stack (twinHeard.perform (.dispatch id)).stack ∧
        Returns bmcRow.config twinRequest e.msg := by
  have hheard : (atRest (pairStack bmcRow { twinRow with link := twinRow.hearing twinRequest }
      {})).stack.heard? 1 = some twinRequest := by decide +kernel
  have hrow : (atRest (pairStack bmcRow { twinRow with link := twinRow.hearing twinRequest }
      {})).stack.busConfig 1 = some twinRow.config := rfl
  obtain ⟨-, -, j, target, hfirst, -, hserved⟩ := response_returns hrow (by decide) (by decide)
    hheard (by decide) rfl (by decide)
  obtain rfl : 0 = j := Option.some.inj hfirst.busFor
  obtain rfl : bmcRow.config = target := Option.some.inj hfirst.row
  exact ⟨hheard, hserved [] twinHeard id (fun _ => rfl) rfl (by decide +kernel) (by decide)
    (by decide) ⟨_, rfl, by decide +kernel⟩⟩

/-- The policy of a board that leaves no command to answer itself. -/
def responding : Policy := { Policy.default with answersItself := Policy.listed [] }

/-- A request to bridge nothing. -/
def bridgeRequest : Message where
  destAddr := 0x10
  netFn := 0x38
  srcAddr := 0x40
  seq := 3
  cmd := 0x02
  data := ⟨ianaBytes, by decide⟩

/-- The bus of a peer that has sent it. -/
def bridgingRow : BusRow := { bmcRow with link := bmcRow.hearing bridgeRequest }

/-- Two tables that are admissible, with usable buses that are neither that of the management engine
nor that of the host. Of two buses of one channel the first has the response to the request of the
second. A request to bridge is refused by the bridge with a response of its own, and a dispatcher
that leaves no command to answer itself queues another one. -/
theorem response_strays :
    (twins.build =
        .ok (pairStack bmcRow { twinRow with link := twinRow.hearing twinRequest } {}) ∧
      twinRow.config.isUsable = true ∧ twinRow.config.channel ≠ .meIpmb ∧
      twinRow.config.channel ≠ .hostKcs ∧ twinHeard.stack.requests.items.length = 1 ∧
      ((twinHeard.perform (.dispatch id)).stack.waitingOn 0).length = 1 ∧
      (twinHeard.perform (.dispatch id)).stack.waitingOn 1 = []) ∧
    (Setup.build { rows := [bridgingRow], policy := responding } =
        .ok (soloStack bridgingRow responding) ∧
      bridgingRow.config.isUsable = true ∧ bridgingRow.config.channel ≠ .meIpmb ∧
      bridgingRow.config.channel ≠ .hostKcs ∧
      ((((atRest (soloStack bridgingRow responding)).perform (.receive 0)).perform
        (.dispatch id)).stack.waitingOn 0).map (fun e => (e.msg.netFn, e.msg.completionCode)) =
          [(0x39, CompletionCode.invalidLength), (0x39, CompletionCode.invalidLength)]) :=
  ⟨⟨build_pairStack {} (by decide) (by decide), by decide, by decide, by decide, by decide +kernel,
      by decide +kernel, by decide +kernel⟩,
    build_soloStack responding (by decide), by decide, by decide, by decide, by decide +kernel⟩

end Scheduler

end ManagementBus
