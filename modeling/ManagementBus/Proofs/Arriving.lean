import ManagementBus.Proofs.Bridging
import ManagementBus.Proofs.Issuing

/-!
# What arrives at the peers

A frame reaches the peer of a bus in one way: the link takes the write of the envelope in hand. And
an envelope comes back to the queue of a bus in one way: the link refuses that write. `Bus.Ends`
says everything that the end of a write comes to on its bus; every other action of the stack leaves
the far ends of the links alone, and puts nothing in a queue that has been tried before. So the
failures of a bus can be counted at its link, action by action.

## Main results

* `Scheduler.exists_ends`: what the end of a write comes to.
* `Scheduler.exists_added_of_neither`: what an action does to a bus by which no envelope is taken or
  finished there.
* `Scheduler.arrivedAt_perform`: what an action brings to the peer of a bus.
* `Scheduler.issued_or_failed`: what comes to the queue of a bus.
-/

namespace ManagementBus

open EnvelopeProperty

/-! ### What has arrived -/

namespace Stack

variable {s t u : Stack} {i j : Nat} {b c : Bus} {m : Message}

/-- What has arrived at the peer of a bus between two states. -/
def deliveredOn (s t : Stack) (i : Nat) : List (List UInt8) :=
  (t.arrivedAt i).drop (s.arrivedAt i).length

/-- What has arrived at a peer is what waits at the far end of the link. -/
theorem arrivedAt_eq (hb : s.buses[i]? = some b) : s.arrivedAt i = b.link.far.inbox := by
  rw [arrivedAt, hb]
  rfl

/-- What is new at the far end of a link, in terms of the bus before and after. -/
theorem deliveredOn_eq (hb : s.buses[i]? = some b) (hc : t.buses[i]? = some c) :
    s.deliveredOn t i = c.link.far.inbox.drop b.link.far.inbox.length := by
  rw [deliveredOn, arrivedAt_eq hb, arrivedAt_eq hc]

end Stack

/-! ### Far ends that are left alone -/

/-- The near end may read, but what waits at the far end stays. -/
@[simp] theorem Link.far_read (l : Link) : l.read.1.far = l.far := by
  rw [read]
  split
  · rfl
  · rfl

/-- The far end of the link of a bus is as it was. -/
def Bus.SparesPeer (b c : Bus) : Prop := c.link.far = b.link.far

namespace Stack

variable {P : EnvelopeProperty} {s t u : Stack} {i j : Nat} {b c : Bus} {m : Message}

/-- The far ends of all links are as they were. -/
def SparesPeers (s t : Stack) : Prop := List.Forall₂ Bus.SparesPeer s.buses t.buses

namespace SparesPeers

/-- A step that does not concern the buses. -/
theorem of_buses (h : t.buses = s.buses) : SparesPeers s t := by
  rw [SparesPeers, h]
  exact List.forall₂_same.mpr fun _ _ => rfl

/-- Far ends that are left alone twice are left alone. -/
theorem trans (h₁ : SparesPeers s t) (h₂ : SparesPeers t u) : SparesPeers s u := by
  have htrans : ∀ b c d : Bus, b.SparesPeer c → c.SparesPeer d → b.SparesPeer d :=
    fun _ _ _ hbc hcd => Eq.trans hcd hbc
  exact forall₂_trans htrans h₁ h₂

/-- A queue is no link. -/
theorem of_queues (h : Queues P s t) : SparesPeers s t := by
  refine h.imp fun b c hbc => ?_
  obtain ⟨cursor, added, rfl, -⟩ := hbc
  rfl

/-- One bus has been replaced by another at the same link, of which the near end may have been
read. -/
theorem of_replaces (hb : s.buses[i]? = some b) (h : Replaces i c s t) (hbc : b.SparesPeer c) :
    SparesPeers s t :=
  h.forall₂ (fun _ => rfl) hb hbc

/-- A step of a call does not concern the links at all. -/
theorem of_links (h : t.links = s.links) : SparesPeers s t := by
  have hsame : List.Forall₂ Eq s.links t.links := by
    rw [h]
    exact List.forall₂_same.mpr fun _ _ => rfl
  rw [links, links, List.forall₂_map_left_iff, List.forall₂_map_right_iff] at hsame
  exact hsame.imp fun _ _ hlink => (congrArg Link.far hlink).symm

/-- What has arrived at a far end that is left alone. -/
theorem arrivedAt (h : SparesPeers s t) (hb : s.buses[i]? = some b) :
    t.arrivedAt i = s.arrivedAt i := by
  obtain ⟨c, hc, hbc⟩ := exists_getElem?_of_forall₂ h hb
  rw [arrivedAt_eq hc, arrivedAt_eq hb, show c.link.far = b.link.far from hbc]

end SparesPeers

/-- A bus that is spared keeps its link. -/
theorem Spares.arrivedAt (h : Spares P i s t) (hb : s.buses[i]? = some b) :
    t.arrivedAt i = s.arrivedAt i := by
  obtain ⟨c, hc, cursor, added, rfl, -⟩ := h b hb
  rw [arrivedAt_eq hc, arrivedAt_eq hb]
  rfl

/-- A response reaches readers, the host or a queue at once, but no peer. -/
theorem sparesPeers_deliverResponse (s : Stack) (i : Nat) (channel : Channel)
    (hm : m.isResponse = true) : SparesPeers s (s.deliverResponse i channel m) := by
  rcases deliverResponse_cases s i channel hm with ⟨-, hreader⟩ | ⟨-, hqueues⟩
  · rw [hreader]
    cases hb : s.buses[i]? with
    | none =>
        simp only [answerReader, hb]
        exact .of_buses rfl
    | some b =>
        rcases answerReader_cases hb m with ⟨-, hput⟩ | ⟨-, hdrop⟩
        · exact .of_replaces hb hput rfl
        · rw [hdrop]
          exact .of_buses rfl
  · exact .of_queues hqueues

/-- **A look at a link** reads its near end only. -/
theorem sparesPeers_receive (s : Stack) (i : Nat) : SparesPeers s (s.receive i).1 := by
  cases hworker : s.workerBus i with
  | none =>
      rw [receive, hworker]
      exact .of_buses rfl
  | some b =>
      obtain ⟨-, hb, -⟩ := workerBus_eq_some_iff.mp hworker
      obtain ⟨u, hread, ⟨h, -⟩ | ⟨m, -, hroute⟩⟩ := receive_of_worker hworker
      · rw [h]
        exact .of_replaces hb hread (Link.far_read _)
      · refine SparesPeers.trans (.of_replaces hb hread (Link.far_read _)) ?_
        rcases hroute with ⟨hm, h⟩ | ⟨hm, h⟩
        · rw [h]
          have hu := hread.getElem?_self hb
          rcases routeResponse_cases hu m with ⟨-, hunmatched⟩ | ⟨entry, v, -, hsettle, hdeliver⟩
          · rw [hunmatched]
            exact .of_buses rfl
          · rw [hdeliver]
            exact .trans (.of_replaces hu hsettle rfl)
              (sparesPeers_deliverResponse v i _ (m := m.answering entry) hm)
        · rw [h]
          exact .of_queues (queues_routeRequest u i _ hm)

/-- The first half of a write does not reach the link yet. -/
theorem sparesPeers_transmitBegin (s : Stack) (i : Nat) : SparesPeers s (s.transmitBegin i).1 := by
  rcases transmitBegin_cases s i with h | ⟨b, e, rest, hworker, -, -, hcases⟩
  · rw [h]
    exact .of_buses rfl
  · obtain ⟨-, hb, -⟩ := workerBus_eq_some_iff.mp hworker
    rcases hcases with ⟨-, -, h⟩ | ⟨-, -, h⟩ | ⟨-, h⟩
    · exact .of_replaces hb h rfl
    · exact .of_replaces hb h rfl
    · exact .of_replaces hb h rfl

/-- A sweep looks at ledgers only. -/
theorem sparesPeers_sweep (s : Stack) : SparesPeers s s.sweep.1 := by
  have hswept : ∀ (b : Bus) (now timeout : UInt32), b.SparesPeer (b.sweptAt now timeout) := by
    intro b now timeout
    rw [Bus.sweptAt]
    split
    · rfl
    · rfl
  rw [SparesPeers, s.sweep_eq.1, List.forall₂_map_right_iff]
  exact List.forall₂_same.mpr fun b _ => hswept b _ _

/-- A shutdown closes queues. -/
theorem sparesPeers_stop (s : Stack) : SparesPeers s s.stop := by
  rw [SparesPeers, stop, List.forall₂_map_right_iff]
  exact List.forall₂_same.mpr fun _ _ => rfl

end Stack

/-! ### The end of a write -/

namespace Bus

variable {b : Bus} {e : Envelope}

/-- A write that fails brings nothing to the peer. -/
theorem inbox_undelivered (h : b.delivers e = false) :
    (b.undelivered e).link.far.inbox = b.link.far.inbox := by
  have hlink : (b.undelivered e).link = (b.attempt e.msg).1 := rfl
  rw [delivers, attempt, Frame.encode_eq] at h
  rw [hlink, attempt, Frame.encode_eq]
  simp only [Link.write] at h ⊢
  split
  · rfl
  · next hworks =>
      simp only [hworks] at h
      split
      · rfl
      · next haddr =>
          rw [if_neg haddr] at h
          cases h

end Bus

/-- **What the end of a write comes to on its bus**, with what has been queued there and what has
arrived at the peer: the envelope has been delivered; or its write has failed, and it is back at the
end of the queue, or there was no room for it, or it is given up and perhaps reported. -/
inductive Bus.Ends (maxRetries : UInt32) (b : Bus) (e : Envelope) (c : Bus) :
    List Envelope → List (List UInt8) → Prop
  | delivered (hdelivers : b.delivers e = true) (houtbound : c.outbound = b.outbound) :
      Ends maxRetries b e c []
        [Frame.delivered e.msg.destAddr
          (Frame.layout e.msg (Frame.headerSum e.msg) (Frame.messageSum e.msg))]
  | putBack (hfails : b.delivers e = false)
      (hretries : e.msg.isResponse = true ∨ ¬maxRetries < e.failed.retries)
      (houtbound : c.outbound = { b.outbound with items := b.outbound.items ++ [e.failed] }) :
      Ends maxRetries b e c [e.failed] []
  | crowdedOut (hfails : b.delivers e = false)
      (hretries : e.msg.isResponse = true ∨ ¬maxRetries < e.failed.retries)
      (hfull : (b.outbound.put e.failed).2 ≠ .accepted) (houtbound : c.outbound = b.outbound) :
      Ends maxRetries b e c [] []
  | givenUp {added : List Envelope} (hfails : b.delivers e = false)
      (hrequest : e.msg.isResponse = false) (hretries : maxRetries < e.failed.retries)
      (houtbound : c.outbound = { b.outbound with items := b.outbound.items ++ added })
      (hadded : ∀ f ∈ added, f.retries = 0 ∧ f.msg.isResponse = true ∧
        f.msg.destAddr = b.config.targetAddr) : Ends maxRetries b e c added []

namespace Stack

variable {s : Stack} {i : Nat} {b : Bus} {e : Envelope}

/-- **The end of a write**, as it is seen on its bus. -/
theorem ends_finishWrite (hb : s.buses[i]? = some b) (e : Envelope) :
    ∃ c queued arrived, (s.finishWrite i b e).buses[i]? = some c ∧ c.config = b.config ∧
      c.inHand = none ∧ c.link = (b.attempt e.msg).1 ∧
      s.queuedOn (s.finishWrite i b e) i = queued ∧
      s.deliveredOn (s.finishWrite i b e) i = arrived ∧
      Bus.Ends s.timing.maxRetries b e c queued arrived := by
  rcases finishWrite_cases hb e with ⟨hdelivers, ht⟩ | ⟨hfails, hretries, ht⟩ |
    ⟨hfails, hrequest, hretries, u, hu, ht⟩
  · have hc := ht.getElem?_self hb
    refine ⟨_, _, _, hc, rfl, rfl, rfl, ?_, ?_, .delivered hdelivers rfl⟩
    · exact queuedOn_eq (by rw [ht.waitingOn_of_eq hb rfl i, List.append_nil])
    · rw [deliveredOn_eq hb hc, inbox_delivered hdelivers, List.drop_left]
  · have hc := ht.getElem?_self hb
    have harrived : s.deliveredOn (s.finishWrite i b e) i = [] := by
      have hlink : (b.retrying e).link.far.inbox = b.link.far.inbox := Bus.inbox_undelivered hfails
      rw [deliveredOn_eq hb hc, hlink, List.drop_length]
    have hoffered : (b.retrying e).outbound = (b.outbound.put e.failed).1 := rfl
    rcases b.outbound.put_cases e.failed with ⟨-, hput⟩ | ⟨hfull, hput⟩
    · rw [hput] at hoffered
      refine ⟨_, _, _, hc, rfl, rfl, rfl, ?_, harrived, .putBack hfails hretries hoffered⟩
      exact queuedOn_eq (by rw [waitingOn_eq hc, hoffered, waitingOn_eq hb])
    · rw [hput] at hoffered
      refine ⟨_, _, _, hc, rfl, rfl, rfl, ?_, harrived, .crowdedOut hfails hretries hfull hoffered⟩
      exact queuedOn_eq (by rw [waitingOn_eq hc, hoffered, waitingOn_eq hb, List.append_nil])
  · have hub := hu.getElem?_self hb
    obtain ⟨c, hc, cursor, added, rfl, hreply⟩ :=
      exists_getElem?_of_forall₂ (queues_reportFailure u e.msg) hub
    -- The report is a reply, and it is issued, so it goes to the other end of its bus.
    obtain ⟨c', hc', hissues⟩ := (issues_reportFailure u e.msg).exists_bus hub
    obtain rfl := Option.some.inj (hc.symm.trans hc')
    obtain ⟨added', hadded', hissued⟩ := hissues.outbound
    obtain rfl : added = added' := List.append_cancel_left (congrArg Queue.items hadded')
    rw [← ht] at hc
    refine ⟨_, added, [], hc, rfl, rfl, rfl, ?_, ?_, .givenUp hfails hrequest hretries rfl ?_⟩
    · exact queuedOn_eq (by rw [waitingOn_eq hc, waitingOn_eq hb]; rfl)
    · have hlink : ((b.undelivered e).queued cursor added).link.far.inbox = b.link.far.inbox :=
        Bus.inbox_undelivered hfails
      rw [deliveredOn_eq hb hc, hlink, List.drop_length]
    · intro f hf
      exact ⟨(hreply f hf).1, (hreply f hf).2, (hissued f hf).2⟩

end Stack

/-- **An action that brings a write to its end.** -/
theorem Scheduler.exists_ends {s : Scheduler} {a : Action} {i : Nat} {e : Envelope}
    (h : s.stack.ends? i a = some e) :
    ∃ b c queued arrived, s.stack.buses[i]? = some b ∧ b.inHand = some e ∧
      (s.perform a).stack.buses[i]? = some c ∧ c.config = b.config ∧ c.inHand = none ∧
      c.link = (b.attempt e.msg).1 ∧ s.stack.queuedOn (s.perform a).stack i = queued ∧
      s.stack.deliveredOn (s.perform a).stack i = arrived ∧
      b.Ends s.stack.timing.maxRetries e c queued arrived := by
  obtain ⟨b, hb, hhand, hend⟩ := perform_of_ends h
  obtain ⟨c, queued, arrived, hends⟩ := Stack.ends_finishWrite hb e
  rw [hend]
  exact ⟨b, c, queued, arrived, hb, hhand, hends⟩

/-! ### Every action -/

namespace Bus

/-- What the write of an envelope brings to the peer: its frame, if the link takes it. -/
def arrivals (b : Bus) (e : Envelope) : List (List UInt8) :=
  if b.delivers e then
    [Frame.delivered e.msg.destAddr
      (Frame.layout e.msg (Frame.headerSum e.msg) (Frame.messageSum e.msg))]
  else []

/-- What waits at the far end after the write. -/
theorem inbox_attempt (b : Bus) (e : Envelope) :
    (b.attempt e.msg).1.far.inbox = b.link.far.inbox ++ b.arrivals e := by
  rw [arrivals]
  cases hdelivers : b.delivers e with
  | true => exact Stack.inbox_delivered hdelivers
  | false => exact (inbox_undelivered hdelivers).trans (List.append_nil _).symm

end Bus

/-- Whether an action brings a write on a bus to its end that the link refuses. -/
def Stack.writeFails (s : Stack) (i : Nat) (a : Action) : Bool :=
  (s.ends? i a).any fun e => s.buses[i]?.any fun b => !b.delivers e

namespace Scheduler

open Stack

variable {s : Scheduler} {a : Action} {i : Nat} {b : Bus} {e : Envelope}

/-- The number of writes on a bus that its link refuses in a run. -/
def writesFailed (i : Nat) : Scheduler → List Action → Nat
  | _, [] => 0
  | s, a :: as => (if s.stack.writeFails i a then 1 else 0) + (s.perform a).writesFailed i as

/-- **An action by which the worker neither takes nor finishes an envelope** only adds envelopes
that the bus issues. -/
theorem exists_added_of_neither (hs : s.RoomIssued) (hb : s.stack.buses[i]? = some b)
    (htakes : s.stack.takes? i a = none) (hends : s.stack.ends? i a = none) :
    ∃ c added, (s.perform a).stack.buses[i]? = some c ∧ c.config = b.config ∧
      c.inHand = b.inHand ∧ c.outbound.items = b.outbound.items ++ added ∧
        (a ≠ .stop → c.outbound.closed = b.outbound.closed) ∧
          ∀ e ∈ added, e.retries = 0 ∧ e.msg.destAddr = b.config.targetAddr := by
  have hstays : (s.perform a).stack = s.stack →
      ∃ c added, (s.perform a).stack.buses[i]? = some c ∧ c.config = b.config ∧
        c.inHand = b.inHand ∧ c.outbound.items = b.outbound.items ++ added ∧
          (a ≠ .stop → c.outbound.closed = b.outbound.closed) ∧
            ∀ e ∈ added, e.retries = 0 ∧ e.msg.destAddr = b.config.targetAddr := by
    intro h
    exact ⟨b, [], by rw [h]; exact hb, rfl, rfl, by simp, fun _ => rfl, by simp⟩
  by_cases htouches : a.touches i = true
  · cases a with
    | transmitBegin k =>
        obtain rfl : k = i := by simpa [Action.touches] using htouches
        exact hstays (perform_transmitBegin_of_not_takes htakes)
    | transmitEnd k =>
        obtain rfl : k = i := by simpa [Action.touches] using htouches
        exact hstays (perform_transmitEnd_of_not_ends hends)
    | finish k =>
        obtain rfl : k = i := by simpa [Action.touches] using htouches
        exact hstays (perform_finish_of_not_ends hends)
    | stop =>
        refine ⟨b.close, [], ?_, rfl, rfl, (List.append_nil _).symm, fun h => absurd rfl h, by simp⟩
        simp [Scheduler.perform, Scheduler.onStack, stop, hb]
    | begin | resume | abandon | receive | relink | submitFromHost | notify | dispatch | sweep
      | advance => cases htouches
  · obtain ⟨c, l, hc, -, -, hissues⟩ := Scheduler.perform_issues hs hb (by simpa using htouches)
    obtain ⟨added, hadded, hissued⟩ := hissues.outbound
    exact ⟨c, added, hc, hissues.config, hissues.inHand, by rw [hadded], fun _ => by rw [hadded],
      hissued⟩

/-- **Nothing arrives at the peer of a bus but by the end of a write there.** Every other action of
the stack leaves alone what waits at the far end of the link; only from outside can it change. -/
theorem arrivedAt_of_no_end (hb : s.stack.buses[i]? = some b)
    (houtside : ∀ link, a ≠ .relink i link) (hends : s.stack.ends? i a = none) :
    (s.perform a).stack.arrivedAt i = s.stack.arrivedAt i := by
  -- No step of a call reaches a link; the other actions are looked at one by one.
  by_cases hcallers : a.isCallers = true
  · rcases s.callStep hcallers with h | ⟨-, hserves, -, hstack, -⟩
    · rw [h]
    · rw [hstack]
      exact (SparesPeers.of_links hserves.buses.links).arrivedAt hb
  cases a with
  | begin | resume | abandon => exact absurd rfl hcallers
  | transmitBegin k => exact (sparesPeers_transmitBegin s.stack k).arrivedAt hb
  | transmitEnd k =>
      by_cases hki : k = i
      · subst hki
        rw [perform_transmitEnd_of_not_ends hends]
      · exact ((finishes_transmitEnd s.stack k).spares hki).arrivedAt hb
  | finish k =>
      by_cases hki : k = i
      · subst hki
        rw [perform_finish_of_not_ends hends]
      · exact ((finishes_finishInHand s.stack k).spares hki).arrivedAt hb
  | receive k => exact (sparesPeers_receive s.stack k).arrivedAt hb
  | relink k link =>
      have hki : k ≠ i := by
        rintro rfl
        exact houtside link rfl
      exact (Spares.of_eq (P := Nothing) (s.stack.buses_onBus _ hki)).arrivedAt hb
  | submitFromHost m => exact (SparesPeers.of_queues (queues_submitFromHost s.stack m)).arrivedAt hb
  | notify m => exact (SparesPeers.of_queues (queues_notify Nothing s.stack m)).arrivedAt hb
  | dispatch handler =>
      rcases dispatchUpTo_one s.stack handler with ⟨-, h⟩ | ⟨m, rest, -, h⟩
      · simp only [perform, onStack, h]
      · simp only [perform, onStack, h]
        exact (SparesPeers.of_queues
          (queues_dispatch (s.stack.withRequests rest) handler m)).arrivedAt hb
  | sweep => exact (sparesPeers_sweep s.stack).arrivedAt hb
  | advance ms => rfl
  | stop => exact (sparesPeers_stop s.stack).arrivedAt hb

/-- **What an action brings to the peer of a bus**: the frame of the envelope whose write it brings
to its end, if the link takes that write, and nothing otherwise. -/
theorem arrivedAt_perform (hb : s.stack.buses[i]? = some b)
    (houtside : ∀ link, a ≠ .relink i link) :
    (s.perform a).stack.arrivedAt i =
      s.stack.arrivedAt i ++ (s.stack.ends? i a).toList.flatMap b.arrivals := by
  cases hends : s.stack.ends? i a with
  | none => exact (arrivedAt_of_no_end hb houtside hends).trans (List.append_nil _).symm
  | some e =>
      obtain ⟨b', c, -, -, hb', -, hc, -, -, hlink, -⟩ := exists_ends hends
      obtain rfl : b = b' := Option.some.inj (hb.symm.trans hb')
      rw [arrivedAt_eq hc, arrivedAt_eq hb, hlink, Bus.inbox_attempt, Option.toList_some,
        List.flatMap_singleton]

/-- What is new at the peer is behind what has been there. -/
theorem arrivedAt_append (hb : s.stack.buses[i]? = some b)
    (houtside : ∀ link, a ≠ .relink i link) :
    (s.perform a).stack.arrivedAt i =
      s.stack.arrivedAt i ++ s.stack.deliveredOn (s.perform a).stack i := by
  rw [deliveredOn, arrivedAt_perform hb houtside, List.drop_left]

/-- What is new at the peer has been written. -/
theorem deliveredOn_perform (hb : s.stack.buses[i]? = some b)
    (houtside : ∀ link, a ≠ .relink i link) :
    s.stack.deliveredOn (s.perform a).stack i = (s.stack.ends? i a).toList.flatMap b.arrivals := by
  rw [deliveredOn, arrivedAt_perform hb houtside, List.drop_left]

/-- The end of a write fails if its link refuses the write. -/
theorem writeFails_of_ends (hb : s.stack.buses[i]? = some b)
    (hends : s.stack.ends? i a = some e) : s.stack.writeFails i a = !b.delivers e := by
  simp [writeFails, hends, hb]

/-- No write fails where none comes to its end. -/
theorem writeFails_of_none (hends : s.stack.ends? i a = none) : s.stack.writeFails i a = false := by
  simp [writeFails, hends]

/-- An action by which the worker takes an envelope queues nothing there. -/
theorem queuedOn_of_takes (h : s.stack.takes? i a = some e) :
    s.stack.queuedOn (s.perform a).stack i = [] := by
  obtain ⟨b, rest, hb, -, hitems, hcases⟩ := takes_cases h
  have hrest : (s.perform a).stack.waitingOn i = rest := by
    rcases hcases with ⟨-, -, ht⟩ | ⟨-, -, ht⟩ | ⟨-, ht⟩
    · exact waitingOn_eq (ht.getElem?_self hb)
    · exact waitingOn_eq (ht.getElem?_self hb)
    · exact waitingOn_eq (ht.getElem?_self hb)
  rw [queuedOn, hrest, waitingOn_eq hb, hitems]
  simp

/-- **What comes to the queue of a bus** has not been tried and goes to the other end of the bus, or
it is the envelope whose write has just failed there. -/
theorem issued_or_failed (hs : s.RoomIssued) (hb : s.stack.buses[i]? = some b)
    (he : e ∈ s.stack.queuedOn (s.perform a).stack i) :
    (e.retries = 0 ∧ e.msg.destAddr = b.config.targetAddr) ∨
      ∃ f, s.stack.ends? i a = some f ∧ b.delivers f = false ∧ e = f.failed := by
  cases htakes : s.stack.takes? i a with
  | some f =>
      rw [queuedOn_of_takes htakes] at he
      cases he
  | none =>
      cases hends : s.stack.ends? i a with
      | none =>
          obtain ⟨c, added, hc, -, -, hitems, -, hissued⟩ :=
            exists_added_of_neither hs hb htakes hends
          rw [queuedOn_eq (by rw [waitingOn_eq hc, waitingOn_eq hb, hitems])] at he
          exact .inl (hissued e he)
      | some f =>
          obtain ⟨b', c, queued, arrived, hb', -, -, -, -, -, hqueued, -, hend⟩ := exists_ends hends
          obtain rfl : b = b' := Option.some.inj (hb.symm.trans hb')
          rw [hqueued] at he
          cases hend with
          | delivered | crowdedOut => cases he
          | putBack hfails => exact .inr ⟨f, rfl, hfails, List.mem_singleton.mp he⟩
          | givenUp _ _ _ _ hadded => exact .inl ⟨(hadded e he).1, (hadded e he).2.2⟩

end Scheduler

end ManagementBus
