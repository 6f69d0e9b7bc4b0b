import ManagementBus.Proofs.Telling

/-!
# Following a request that is relayed

A request that comes in on one bus and goes out on another becomes an envelope there. The envelope
is taken in hand and recorded, it goes back to the queue when its write fails, and in the end a
response answers one of its records, or it is given up. A `Trail` collects, action by action, the
envelopes and the records that have been made of the request, and the responses that have been
queued on the bus where it came from because of one of them.

Envelopes and records are told apart by what is in them. So where two requests agree in every field,
number and tick, the trail of either has what has been made of both; it never has less than what has
been made of its request.

## Main results

* `servedOnlyBy_after`: no action changes which bus serves a channel.
* `perform_of_takes`, `perform_of_ends`, `perform_of_hears`: what an action does that takes an
  envelope in hand, ends its write, or hears the response to a record.
* `Trail.keeps_along`: what is true of a request and does not depend on the way of its envelopes is
  true of everything on its trail.
-/

namespace ManagementBus

open EnvelopeProperty

/-! ### Channels -/

namespace Stack

variable {P : EnvelopeProperty} {s t u : Stack} {i j k : Nat} {b c : Bus} {channel : Channel}

/-- One bus serves a channel, and no other does. -/
def ServedOnlyBy (s : Stack) (channel : Channel) (i : Nat) : Prop :=
  ∃ config, s.busConfig i = some config ∧ config.serves channel = true ∧
    ∀ k config', s.busConfig k = some config' → config'.serves channel = true → k = i

/-- The row of a bus that is there. -/
theorem busConfig_eq (hb : s.buses[i]? = some b) : s.busConfig i = some b.config := by
  rw [busConfig, hb]
  rfl

/-- That one bus alone serves a channel can be read off the table. -/
theorem servedOnlyBy_iff :
    s.ServedOnlyBy channel i ↔ i < s.buses.length ∧
      ∀ (k : Nat) (h : k < s.buses.length),
        s.buses[k].config.serves channel = decide (k = i) := by
  constructor
  · rintro ⟨config, hconfig, hserves, honly⟩
    obtain ⟨b, hb, rfl⟩ := Option.map_eq_some_iff.mp hconfig
    obtain ⟨hlt, hi⟩ := List.getElem?_eq_some_iff.mp hb
    refine ⟨hlt, fun k h => ?_⟩
    by_cases hk : k = i
    · obtain rfl := hk
      rw [hi, hserves, decide_eq_true rfl]
    · rw [decide_eq_false hk, ← Bool.not_eq_true]
      exact fun hother => hk (honly k _ (busConfig_eq (List.getElem?_eq_getElem h)) hother)
  · rintro ⟨hlt, h⟩
    refine ⟨_, busConfig_eq (List.getElem?_eq_getElem hlt), (h i hlt).trans (decide_eq_true rfl),
      fun k config hconfig hserves => ?_⟩
    obtain ⟨b, hb, rfl⟩ := Option.map_eq_some_iff.mp hconfig
    obtain ⟨hk, rfl⟩ := List.getElem?_eq_some_iff.mp hb
    exact of_decide_eq_true ((h k hk).symm.trans hserves)

instance (s : Stack) (channel : Channel) (i : Nat) : Decidable (s.ServedOnlyBy channel i) :=
  decidable_of_iff' _ servedOnlyBy_iff

namespace ServedOnlyBy

/-- Which bus serves a channel depends on the rows alone. -/
theorem congr (hs : s.ServedOnlyBy channel i) (h : ∀ k, t.busConfig k = s.busConfig k) :
    t.ServedOnlyBy channel i := by
  obtain ⟨config, hconfig, hserves, honly⟩ := hs
  refine ⟨config, (h i).trans hconfig, hserves, ?_⟩
  intro k config' hk
  exact honly k config' ((h k).symm.trans hk)

/-- The bus is the one that is found for the channel. -/
theorem busFor (h : s.ServedOnlyBy channel i) : s.busFor channel = some i := by
  obtain ⟨config, hconfig, hserves, honly⟩ := h
  obtain ⟨b, hb, rfl⟩ := Option.map_eq_some_iff.mp hconfig
  cases hfound : s.busFor channel with
  | none =>
      have hnone := List.findIdx?_eq_none_iff.mp hfound b (List.mem_of_getElem? hb)
      rw [hserves] at hnone
      cases hnone
  | some k =>
      obtain ⟨hlt, hk, -⟩ := List.findIdx?_eq_some_iff_getElem.mp hfound
      have hget : s.buses[k]? = some s.buses[k] := List.getElem?_eq_getElem hlt
      rw [honly k _ (busConfig_eq hget) hk]

/-- The bus is usable, and of that channel. -/
theorem config (h : s.ServedOnlyBy channel i) (hb : s.buses[i]? = some b) :
    b.config.isUsable = true ∧ b.config.channel = channel := by
  obtain ⟨config, hconfig, hserves, -⟩ := h
  obtain rfl : b.config = config := Option.some.inj ((busConfig_eq hb).symm.trans hconfig)
  rwa [BusConfig.serves, Bool.and_eq_true, decide_eq_true_eq] at hserves

end ServedOnlyBy

/-! ### Queues -/

/-- The envelopes that wait on a bus. -/
def waitingOn (s : Stack) (i : Nat) : List Envelope :=
  (s.buses[i]?.map fun b => b.outbound.items).getD []

/-- The envelopes that have come to the end of the queue of a bus between two states. -/
def queuedOn (s t : Stack) (i : Nat) : List Envelope :=
  (t.waitingOn i).drop (s.waitingOn i).length

/-- The requests that are pending on a bus. -/
def pendingOn (s : Stack) (i : Nat) : List Message :=
  (s.buses[i]?.map fun b => b.ledger.entries).getD []

/-- The envelopes that wait are those in the transmit queue. -/
theorem waitingOn_eq (hb : s.buses[i]? = some b) : s.waitingOn i = b.outbound.items := by
  rw [waitingOn, hb]
  rfl

/-- The requests that are pending are those in the ledger. -/
theorem pendingOn_eq (hb : s.buses[i]? = some b) : s.pendingOn i = b.ledger.entries := by
  rw [pendingOn, hb]
  rfl

/-- What has come is what stands behind the envelopes of before. -/
theorem queuedOn_eq {added : List Envelope} (h : t.waitingOn i = s.waitingOn i ++ added) :
    s.queuedOn t i = added := by
  rw [queuedOn, h, List.drop_left]

/-- A bus that is as it was has the same envelopes waiting. -/
theorem waitingOn_congr (h : t.buses[i]? = s.buses[i]?) : t.waitingOn i = s.waitingOn i := by
  rw [waitingOn, h, waitingOn]

/-- What has come depends only on how many envelopes waited before. -/
theorem queuedOn_congr (h : u.waitingOn i = s.waitingOn i) : u.queuedOn t i = s.queuedOn t i := by
  rw [queuedOn, h, queuedOn]

/-- Only envelopes with the property have been queued. -/
theorem Sends.queuedOn (h : Sends P s t) (i : Nat) :
    ∀ e ∈ s.queuedOn t i, ∃ busy, P busy e := by
  cases hb : s.buses[i]? with
  | none =>
      have hnone : t.buses[i]? = none := by
        rw [List.getElem?_eq_none_iff] at hb ⊢
        rwa [← h.buses.length_eq]
      have hnil : t.waitingOn i = [] := by
        rw [waitingOn, hnone]
        rfl
      intro e he
      rw [Stack.queuedOn, hnil, List.drop_nil] at he
      cases he
  | some b =>
      obtain ⟨cursor, added, hc, hadded⟩ := h.exists_queued hb
      have hitems : t.waitingOn i = s.waitingOn i ++ added := by
        rw [waitingOn_eq hc, waitingOn_eq hb]
        rfl
      intro e he
      rw [queuedOn_eq hitems] at he
      exact ⟨_, hadded e he⟩

/-- One envelope has been queued on the bus, and none on the others. -/
theorem SendsOne.waitingOn (h : SendsOne i P s t) :
    ∃ e busy, P busy e ∧ t.waitingOn i = s.waitingOn i ++ [e] ∧
      ∀ k, k ≠ i → t.waitingOn k = s.waitingOn k := by
  obtain ⟨b, cursor, e, hb, he, ht⟩ := h
  have hbuses : t.buses = (s.onBus i (·.queued cursor [e])).buses := by rw [ht]
  refine ⟨e, _, he, ?_, ?_⟩
  · have hself := s.buses_onBus_self i (·.queued cursor [e])
    rw [hb, ← hbuses] at hself
    rw [waitingOn_eq hself, waitingOn_eq hb]
    rfl
  · intro k hk
    refine waitingOn_congr ?_
    rw [hbuses]
    exact s.buses_onBus _ (Ne.symm hk)

/-- Where a bus is replaced by one of the same row the table is the same. -/
theorem Replaces.busConfig (h : Replaces i c s t) (hb : s.buses[i]? = some b)
    (hc : c.config = b.config) (k : Nat) : t.busConfig k = s.busConfig k := by
  by_cases hk : i = k
  · obtain rfl := hk
    rw [busConfig_eq hb, busConfig_eq (h.getElem?_self hb), hc]
  · rw [Stack.busConfig, Stack.busConfig, h.getElem?_ne hk]

/-- A bus has been replaced by one that has the same queue with envelopes added. -/
theorem Replaces.waitingOn {added : List Envelope} (h : Replaces i c s t)
    (hb : s.buses[i]? = some b) (hitems : c.outbound.items = b.outbound.items ++ added) (k : Nat) :
    t.waitingOn k = s.waitingOn k ++ if k = i then added else [] := by
  by_cases hk : k = i
  · obtain rfl := hk
    rw [if_pos rfl, waitingOn_eq hb, waitingOn_eq (h.getElem?_self hb), hitems]
  · rw [if_neg hk, List.append_nil, waitingOn_congr (h.getElem?_ne (Ne.symm hk))]

/-- A bus has been replaced by one that has the same queue. -/
theorem Replaces.waitingOn_of_eq (h : Replaces i c s t) (hb : s.buses[i]? = some b)
    (houtbound : c.outbound = b.outbound) (k : Nat) : t.waitingOn k = s.waitingOn k := by
  have hitems : c.outbound.items = b.outbound.items ++ [] := by rw [houtbound, List.append_nil]
  rw [h.waitingOn hb hitems k, ite_self, List.append_nil]

end Stack

namespace Scheduler

open Stack

variable {s : Scheduler} {i k : Nat} {channel : Channel}

/-- The table of buses is the same after every action. -/
theorem busConfig_perform (s : Scheduler) (a : Action) (k : Nat) :
    (s.perform a).stack.busConfig k = s.stack.busConfig k := by
  cases hb : s.stack.buses[k]? with
  | none =>
      have hnone : (s.perform a).stack.buses[k]? = none := by
        rw [List.getElem?_eq_none_iff] at hb ⊢
        rwa [(s.tells_perform a).length]
      rw [busConfig, busConfig, hb, hnone]
  | some b =>
      obtain ⟨c, hc, hchanges⟩ := s.perform_changes a hb
      rw [busConfig_eq hb, busConfig_eq hc, hchanges.config]

/-- No run changes the table. -/
theorem busConfig_after (s : Scheduler) (as : List Action) (k : Nat) :
    (s.after as).stack.busConfig k = s.stack.busConfig k :=
  after_induction (P := fun t => t.stack.busConfig k = s.stack.busConfig k) rfl
    fun t a _ ht => (t.busConfig_perform a k).trans ht

/-- No run changes the policy of the board. -/
theorem policy_after (s : Scheduler) (as : List Action) :
    (s.after as).stack.policy = s.stack.policy :=
  after_induction (P := fun t => t.stack.policy = s.stack.policy) rfl
    fun t a _ ht => (t.tells_perform a).policy.trans ht

/-- **No action changes which bus serves a channel.** -/
theorem servedOnlyBy_after (h : s.stack.ServedOnlyBy channel i) (as : List Action) :
    (s.after as).stack.ServedOnlyBy channel i :=
  h.congr (s.busConfig_after as)

end Scheduler

/-! ### What an action does with a request -/

namespace Stack

/-- The envelope of a bus that an action takes in hand. -/
def takes? (s : Stack) (j : Nat) : Action → Option Envelope
  | .transmitBegin k =>
    if k = j then
      (s.workerBus j).bind fun b => if b.inHand.isSome then none else b.outbound.items.head?
    else none
  | _ => none

/-- The envelope of a bus whose write an action brings to its end. -/
def ends? (s : Stack) (j : Nat) : Action → Option Envelope
  | .transmitEnd k => if k = j then (s.workerBus j).bind Bus.inHand else none
  | .finish k => if k = j ∧ s.stopped = true then s.buses[j]?.bind Bus.inHand else none
  | _ => none

/-- The request pending on a bus whose response an action hears. -/
def hears? (s : Stack) (j : Nat) : Action → Option Message
  | .receive k =>
    if k = j then
      (s.heard? j).bind fun m =>
        if m.isResponse then s.buses[j]?.bind fun b => b.pendingFor? m else none
    else none
  | _ => none

end Stack

namespace Stack

variable {s t : Stack} {a : Action} {i j : Nat} {b : Bus} {e : Envelope} {m entry : Message}

/-- Only the first half of a write takes an envelope, and it takes the oldest one of an idle worker.
-/
theorem eq_transmitBegin_of_takes? (h : s.takes? j a = some e) :
    a = .transmitBegin j ∧
      ∃ b rest, s.workerBus j = some b ∧ b.inHand = none ∧ b.outbound.items = e :: rest := by
  cases a with
  | transmitBegin k =>
      obtain ⟨rfl, htakes⟩ := Option.ite_none_right_eq_some.mp h
      obtain ⟨b, hworker, htake⟩ := Option.bind_eq_some_iff.mp htakes
      obtain ⟨hidle, hhead⟩ := Option.ite_none_left_eq_some.mp htake
      obtain ⟨rest, hitems⟩ := List.head?_eq_some_iff.mp hhead
      exact ⟨rfl, b, rest, hworker, by simpa using hidle, hitems⟩
  | begin | resume | abandon | transmitEnd | receive | relink | submitFromHost | notify | dispatch
    | sweep | advance | stop | finish => cases h

/-- No action both takes an envelope and brings a write to its end. -/
theorem ends?_eq_none_of_takes? (h : s.takes? j a = some e) : s.ends? j a = none := by
  obtain ⟨rfl, -⟩ := eq_transmitBegin_of_takes? h
  rfl

/-- Only a look at a link hears a response, and it answers a request pending there. -/
theorem eq_receive_of_hears? (h : s.hears? j a = some entry) :
    a = .receive j ∧
      ∃ m b, s.heard? j = some m ∧ m.isResponse = true ∧ s.buses[j]? = some b ∧
        b.pendingFor? m = some entry := by
  cases a with
  | receive k =>
      obtain ⟨rfl, hhears⟩ := Option.ite_none_right_eq_some.mp h
      obtain ⟨m, hheard, hm⟩ := Option.bind_eq_some_iff.mp hhears
      obtain ⟨hresponse, hbus⟩ := Option.ite_none_right_eq_some.mp hm
      obtain ⟨b, hb, hentry⟩ := Option.bind_eq_some_iff.mp hbus
      exact ⟨rfl, m, b, hheard, hresponse, hb, hentry⟩
  | begin | resume | abandon | transmitBegin | transmitEnd | relink | submitFromHost | notify
    | dispatch | sweep | advance | stop | finish => cases h

/-- A response that has been heard on a bus goes to where the request came from that it answers;
that request is not pending any more. -/
inductive Relays (j : Nat) (entry : Message) (s t : Stack) : Prop
  | relays {b c : Bus} {m : Message} {u : Stack} (hb : s.buses[j]? = some b)
      (hheard : s.heard? j = some m) (hresponse : m.isResponse = true)
      (hentry : b.pendingFor? m = some entry) (hreplaces : Replaces j c s u)
      (hconfig : c.config = b.config) (houtbound : c.outbound = b.outbound)
      (hlocks : c.locks = b.locks)
      (ht : t = u.deliverResponse j b.config.channel (m.answering entry)) :
      Relays j entry s t

/-- A response that answers a pending request is relayed. -/
theorem relays_receive (hb : s.buses[j]? = some b) (hheard : s.heard? j = some m)
    (hresponse : m.isResponse = true) (hentry : b.pendingFor? m = some entry) :
    Relays j entry s (s.receive j).1 := by
  obtain ⟨b', link, u, hb', hread, hroute⟩ := receive_of_heard hheard
  obtain rfl : b = b' := Option.some.inj (hb.symm.trans hb')
  rw [if_pos hresponse] at hroute
  have hroutes := routeResponse_cases (hread.getElem?_self hb) m
  rcases hroutes with ⟨hnone, -⟩ | ⟨entry', v, hentry', hv, ht⟩
  · have hsame : b.pendingFor? m = none := hnone
    rw [hentry] at hsame
    cases hsame
  · obtain rfl : entry = entry' := Option.some.inj (hentry.symm.trans hentry')
    exact .relays (c := { b with link }.settling m) hb hheard hresponse hentry (hread.trans hv)
      rfl rfl rfl (hroute.trans ht)

end Stack

namespace Scheduler

open Stack

variable {s : Scheduler} {a : Action} {j : Nat} {e : Envelope} {entry : Message}

/-- **An envelope that the worker takes**: a response that has used up its retries is dropped,
another one is in hand, and a request is staged and in hand. -/
theorem takes_cases (h : s.stack.takes? j a = some e) :
    ∃ b rest, s.stack.buses[j]? = some b ∧ b.inHand = none ∧ b.outbound.items = e :: rest ∧
      ((e.msg.isResponse = true ∧ s.stack.timing.maxRetries < e.retries ∧
          Replaces j (b.withItems rest) s.stack (s.perform a).stack) ∨
        (e.msg.isResponse = true ∧ ¬s.stack.timing.maxRetries < e.retries ∧
          Replaces j ((b.withItems rest).holding (e.addressed b)) s.stack (s.perform a).stack) ∨
        (e.msg.isResponse = false ∧
          Replaces j ((b.withItems rest).staging e.staged s.stack.clock.now) s.stack
            (s.perform a).stack)) := by
  obtain ⟨rfl, b, rest, hworker, hidle, hitems⟩ := eq_transmitBegin_of_takes? h
  obtain ⟨-, hb, -⟩ := workerBus_eq_some_iff.mp hworker
  have hget : b.outbound.get = ({ b.outbound with items := rest }, some e) := by
    simp [Queue.get, hitems]
  have htaken : Replaces j (b.withItems rest) s.stack
      (s.stack.onBus j fun b' => { b' with outbound := { b.outbound with items := rest } }) :=
    Replaces.of_onBus hb
  have hbegin : (s.perform (.transmitBegin j)).stack = (s.stack.transmitBegin j).1 := rfl
  refine ⟨b, rest, hb, hidle, hitems, ?_⟩
  rw [hbegin, Stack.transmitBegin]
  simp only [hworker, hidle, hget, Option.isSome_none, Bool.false_eq_true, if_false]
  exact begin_cases b e hb htaken

/-- **A request that is taken in hand** is staged under its own number. -/
theorem perform_of_takes (h : s.stack.takes? j a = some e) (hrequest : e.msg.isResponse = false) :
    ∃ b rest, s.stack.buses[j]? = some b ∧
      Replaces j ((b.withItems rest).staging e.staged s.stack.clock.now) s.stack
        (s.perform a).stack := by
  obtain ⟨b, rest, hb, -, -, htaken⟩ := takes_cases h
  simp only [hrequest, Bool.false_eq_true, false_and, false_or, true_and] at htaken
  exact ⟨b, rest, hb, htaken⟩

/-- **A write that is brought to its end.** -/
theorem perform_of_ends (h : s.stack.ends? j a = some e) :
    ∃ b, s.stack.buses[j]? = some b ∧ b.inHand = some e ∧
      (s.perform a).stack = s.stack.finishWrite j b e := by
  cases a with
  | transmitEnd k =>
      obtain ⟨rfl, hends⟩ := Option.ite_none_right_eq_some.mp h
      obtain ⟨b, hworker, hhand⟩ := Option.bind_eq_some_iff.mp hends
      have hend : (s.perform (.transmitEnd k)).stack = (s.stack.transmitEnd k).1 := rfl
      refine ⟨b, (workerBus_eq_some_iff.mp hworker).2.1, hhand, ?_⟩
      rw [hend, Stack.transmitEnd]
      simp only [hworker, hhand]
  | finish k =>
      obtain ⟨⟨rfl, hstopped⟩, hends⟩ := Option.ite_none_right_eq_some.mp h
      obtain ⟨b, hb, hhand⟩ := Option.bind_eq_some_iff.mp hends
      have hend : (s.perform (.finish k)).stack =
          if s.stack.stopped then s.stack.finishInHand k else s.stack := rfl
      refine ⟨b, hb, hhand, ?_⟩
      rw [hend, if_pos hstopped, finishInHand]
      simp only [hb, hhand]
  | begin | resume | abandon | transmitBegin | receive | relink | submitFromHost | notify
    | dispatch | sweep | advance | stop => cases h

/-- A worker that takes no envelope does nothing in the first half of a write. -/
theorem perform_transmitBegin_of_not_takes (h : s.stack.takes? j (.transmitBegin j) = none) :
    (s.perform (.transmitBegin j)).stack = s.stack := by
  rcases transmitBegin_cases s.stack j with hsame | ⟨b, e, rest, hworker, hidle, hitems, -⟩
  · exact hsame
  · simp [takes?, hworker, hidle, hitems] at h

/-- A worker that has no write to bring to its end does nothing in the second half. -/
theorem perform_transmitEnd_of_not_ends (h : s.stack.ends? j (.transmitEnd j) = none) :
    (s.perform (.transmitEnd j)).stack = s.stack := by
  rcases transmitEnd_eq s.stack j with hsame | ⟨b, e, hworker, hhand, -⟩
  · exact hsame
  · simp [ends?, hworker, hhand] at h

/-- Where no write is left to bring to its end, a shutdown leaves nothing to do. -/
theorem perform_finish_of_not_ends (h : s.stack.ends? j (.finish j) = none) :
    (s.perform (.finish j)).stack = s.stack := by
  have hfinish : (s.perform (.finish j)).stack =
      if s.stack.stopped then s.stack.finishInHand j else s.stack := rfl
  rw [hfinish]
  split
  · next hstopped =>
      rcases finishInHand_eq s.stack j with hsame | ⟨b, e, hb, hhand, -⟩
      · exact hsame
      · simp [ends?, hstopped, hb, hhand] at h
  · rfl

/-- **A write that succeeds** leaves the bus with nothing in hand, and its request recorded. -/
theorem perform_of_delivers {b : Bus} (h : s.stack.ends? j a = some e)
    (hb : s.stack.buses[j]? = some b) (hdelivers : b.delivers e = true) :
    Replaces j (b.delivered e) s.stack (s.perform a).stack := by
  obtain ⟨b', hb', -, hend⟩ := perform_of_ends h
  obtain rfl : b = b' := Option.some.inj (hb.symm.trans hb')
  rw [hend]
  rcases finishWrite_cases hb e with ⟨-, hwritten⟩ | ⟨hfails, -⟩ | ⟨hfails, -⟩
  · exact hwritten
  · rw [hdelivers] at hfails
    cases hfails
  · rw [hdelivers] at hfails
    cases hfails

/-- **A response that is heard** is relayed. -/
theorem perform_of_hears (h : s.stack.hears? j a = some entry) :
    Relays j entry s.stack (s.perform a).stack := by
  obtain ⟨rfl, m, b, hheard, hresponse, hb, hentry⟩ := eq_receive_of_hears? h
  exact relays_receive hb hheard hresponse hentry

end Scheduler

/-! ### What a failed write queues -/

namespace Stack

variable {s : Stack} {i j : Nat} {b : Bus} {e : Envelope}

/-- The end of the write of a request queues that request again, on its bus, or the report that it
has failed. -/
theorem queuedOn_finishWrite (hb : s.buses[j]? = some b) (hsource : e.msg.infSource ≠ .hostKcs)
    (k : Nat) : ∀ f ∈ s.queuedOn (s.finishWrite j b e) k,
      f = e.failed ∨ ∃ busy, responseTo (nodeBusyReport e.msg) busy f := by
  rcases finishWrite_cases hb e with ⟨-, h⟩ | ⟨-, -, h⟩ | ⟨-, -, -, u, hu, h⟩
  · have hwaiting := h.waitingOn_of_eq hb rfl k
    intro f hf
    rw [← List.append_nil (s.waitingOn k)] at hwaiting
    rw [queuedOn_eq hwaiting] at hf
    cases hf
  · have hoffered : (b.retrying e).outbound = (b.outbound.put e.failed).1 := rfl
    obtain ⟨added, hadded, hall⟩ : ∃ added,
        (b.retrying e).outbound.items = b.outbound.items ++ added ∧ ∀ f ∈ added, f = e.failed := by
      rw [hoffered]
      rcases b.outbound.put_cases e.failed with ⟨-, hput⟩ | ⟨-, hput⟩
      · exact ⟨[e.failed], by rw [hput], by simp⟩
      · exact ⟨[], by rw [hput, List.append_nil], by simp⟩
    intro f hf
    rw [queuedOn_eq (h.waitingOn hb hadded k)] at hf
    split at hf
    · exact .inl (hall f hf)
    · cases hf
  · intro f hf
    rw [h, ← queuedOn_congr (hu.waitingOn_of_eq hb rfl k)] at hf
    exact .inr ((reportFailure_outcome u hsource).queuedOn k f hf)

end Stack

/-! ### Trails -/

/-- What has been made of a request on the bus to which it has been relayed, and what has come of it
on the bus from which it came. -/
structure Trail where
  /-- The envelopes that the request has become. -/
  envelopes : List Envelope := []
  /-- The records of these envelopes among the pending requests. -/
  records : List Message := []
  /-- The responses queued because a response to one of the records has been heard, or because the
  request could not be relayed. -/
  answers : List Message := []
  /-- The responses queued because the request could not be delivered. -/
  reports : List Message := []
deriving DecidableEq

namespace Trail

/-- The requests among some envelopes. -/
def requestsOf (es : List Envelope) : List Envelope :=
  es.filter fun e => !e.msg.isResponse

/-- The responses in some envelopes. -/
def responsesOf (es : List Envelope) : List Message :=
  (es.map Envelope.msg).filter Message.isResponse

/-- The trail of a request that has come from one bus and is relayed to another in a step between
two states. -/
def start (source target : Nat) (s t : Stack) : Trail where
  envelopes := requestsOf (s.queuedOn t target)
  answers := responsesOf (s.queuedOn t source)

/-- The trail after an action between two states. -/
def step (x : Trail) (source target : Nat) (s : Stack) (a : Action) (t : Stack) : Trail :=
  if (s.takes? target a).any fun e => e ∈ x.envelopes then
    { x with
      envelopes := x.envelopes ++ (t.buses[target]?.bind Bus.inHand).toList
      records := x.records ++ (t.pendingOn target).drop (s.pendingOn target).length }
  else if (s.ends? target a).any fun e => e ∈ x.envelopes then
    { x with
      envelopes := x.envelopes ++ requestsOf (s.queuedOn t target)
      reports := x.reports ++ responsesOf (s.queuedOn t source) }
  else if (s.hears? target a).any fun r => r ∈ x.records then
    { x with answers := x.answers ++ responsesOf (s.queuedOn t source) }
  else x

/-- The trail after a run. -/
def along (x : Trail) (source target : Nat) (s : Scheduler) : List Action → Trail
  | [] => x
  | a :: as =>
    (x.step source target s.stack a (s.perform a).stack).along source target (s.perform a) as

/-- A property of requests that do not come from the host; it does not depend on the number under
which a request is pending, nor on the tick at which it has been recorded. -/
structure Enduring (P : Message → Prop) : Prop where
  request : ∀ m, P m → m.isResponse = false
  source : ∀ m, P m → m.infSource ≠ .hostKcs
  recorded : ∀ m number tick, P m → P { m with seqTarget := number, timestamp := tick }

/-- Everything on a trail has a property, and every record is pending under its own number. -/
structure Keeps (P : Message → Prop) (x : Trail) : Prop where
  envelopes : ∀ e ∈ x.envelopes, P e.msg
  records : ∀ r ∈ x.records, P r ∧ r.seqTarget = r.seq
  reports : ∀ r ∈ x.reports, ∃ (b : Bus) (m : Message),
    P m ∧ r = b.responseFor (Stack.nodeBusyReport m)

variable {P : Message → Prop} {Q : Trail → Prop} {x : Trail} {s : Scheduler} {a : Action}
  {as : List Action} {i j : Nat} {es : List Envelope} {e : Envelope} {m : Message}

/-- The requests among envelopes. -/
theorem mem_requestsOf : e ∈ requestsOf es ↔ e ∈ es ∧ e.msg.isResponse = false := by
  rw [requestsOf, List.mem_filter, Bool.not_eq_true']

/-- The responses in envelopes. -/
theorem mem_responsesOf : m ∈ responsesOf es ↔ (∃ e ∈ es, e.msg = m) ∧ m.isResponse = true := by
  rw [responsesOf, List.mem_filter, List.mem_map]

/-- At its start a trail has only the envelopes that the step has queued. -/
theorem keeps_start {t : Stack}
    (h : ∀ e ∈ s.stack.queuedOn t j, e.msg.isResponse = false → P e.msg) :
    (start i j s.stack t).Keeps P where
  envelopes := by
    intro e he
    obtain ⟨hmem, hrequest⟩ := mem_requestsOf.mp he
    exact h e hmem hrequest
  records := by
    intro r hr
    cases hr
  reports := by
    intro r hr
    cases hr

/-- An action has nothing to do with the request, or it takes one of its envelopes in hand, ends the
write of one, or hears the response to one of its records. -/
theorem step_cases (x : Trail) (i j : Nat) (s : Stack) (a : Action) (t : Stack) :
    x.step i j s a t = x ∨
      (∃ e ∈ x.envelopes, s.takes? j a = some e ∧
        x.step i j s a t =
          { x with
            envelopes := x.envelopes ++ (t.buses[j]?.bind Bus.inHand).toList
            records := x.records ++ (t.pendingOn j).drop (s.pendingOn j).length }) ∨
      (∃ e ∈ x.envelopes, s.ends? j a = some e ∧
        x.step i j s a t =
          { x with
            envelopes := x.envelopes ++ requestsOf (s.queuedOn t j)
            reports := x.reports ++ responsesOf (s.queuedOn t i) }) ∨
      ∃ r ∈ x.records, s.hears? j a = some r ∧
        x.step i j s a t = { x with answers := x.answers ++ responsesOf (s.queuedOn t i) } := by
  rw [step]
  split
  · next htakes =>
      obtain ⟨e, he, hmem⟩ := (Option.any_eq_true ..).mp htakes
      exact .inr (.inl ⟨e, of_decide_eq_true hmem, he, rfl⟩)
  · split
    · next hends =>
        obtain ⟨e, he, hmem⟩ := (Option.any_eq_true ..).mp hends
        exact .inr (.inr (.inl ⟨e, of_decide_eq_true hmem, he, rfl⟩))
    · split
      · next hhears =>
          obtain ⟨r, hr, hmem⟩ := (Option.any_eq_true ..).mp hhears
          exact .inr (.inr (.inr ⟨r, of_decide_eq_true hmem, hr, rfl⟩))
      · exact .inl rfl

/-- What every action keeps of a trail holds after a run. -/
theorem along_induction
    (hstep : ∀ (y : Trail) (t : Scheduler) (b : Action), Q y →
      Q (y.step i j t.stack b (t.perform b).stack)) (hx : Q x) : Q (x.along i j s as) := by
  induction as generalizing x s with
  | nil => exact hx
  | cons a as ih => exact ih (hstep x s a hx)

/-- An envelope that is taken in hand adds itself and its record. -/
theorem Keeps.takes (hP : Enduring P) (hx : x.Keeps P) (he : e ∈ x.envelopes)
    (h : s.stack.takes? j a = some e) :
    Keeps P
      { x with
        envelopes := x.envelopes ++ ((s.perform a).stack.buses[j]?.bind Bus.inHand).toList
        records := x.records ++
          ((s.perform a).stack.pendingOn j).drop (s.stack.pendingOn j).length } := by
  have hPe := hx.envelopes e he
  obtain ⟨b, rest, hb, htaken⟩ := Scheduler.perform_of_takes h (hP.request _ hPe)
  have hc := htaken.getElem?_self hb
  have hhand : (s.perform a).stack.buses[j]?.bind Bus.inHand = some e.staged := by
    rw [hc]
    rfl
  have hrecord : ((s.perform a).stack.pendingOn j).drop (s.stack.pendingOn j).length =
      [{ e.staged.msg with timestamp := s.stack.clock.now }] := by
    rw [Stack.pendingOn_eq hc, Stack.pendingOn_eq hb]
    exact List.drop_left
  rw [hhand, hrecord]
  refine ⟨?_, ?_, hx.reports⟩
  · intro f hf
    rcases List.mem_append.mp hf with hf | hf
    · exact hx.envelopes f hf
    · obtain rfl : f = e.staged := by simpa using hf
      exact hP.recorded e.msg e.msg.seq e.msg.timestamp hPe
  · intro r hr
    rcases List.mem_append.mp hr with hr | hr
    · exact hx.records r hr
    · obtain rfl := List.mem_singleton.mp hr
      exact ⟨hP.recorded e.msg e.msg.seq s.stack.clock.now hPe, rfl⟩

/-- An envelope whose write ends adds itself, or the report that it could not be delivered. -/
theorem Keeps.ends (hP : Enduring P) (hx : x.Keeps P) (he : e ∈ x.envelopes)
    (h : s.stack.ends? j a = some e) (i : Nat) :
    Keeps P
      { x with
        envelopes := x.envelopes ++ requestsOf (s.stack.queuedOn (s.perform a).stack j)
        reports := x.reports ++ responsesOf (s.stack.queuedOn (s.perform a).stack i) } := by
  have hPe := hx.envelopes e he
  obtain ⟨b, hb, -, hend⟩ := Scheduler.perform_of_ends h
  have hqueued := fun k => Stack.queuedOn_finishWrite hb (hP.source _ hPe) k
  rw [← hend] at hqueued
  refine ⟨?_, hx.records, ?_⟩
  · intro f hf
    rcases List.mem_append.mp hf with hf | hf
    · exact hx.envelopes f hf
    · obtain ⟨hmem, hrequest⟩ := mem_requestsOf.mp hf
      rcases hqueued j f hmem with rfl | ⟨busy, hreport⟩
      · exact hPe
      · have hreply := Reply.of_responseTo (Message.isResponse_of_enterprise rfl) hreport
        rw [hreply.2] at hrequest
        cases hrequest
  · intro r hr
    rcases List.mem_append.mp hr with hr | hr
    · exact hx.reports r hr
    · obtain ⟨⟨f, hmem, rfl⟩, hresponse⟩ := mem_responsesOf.mp hr
      rcases hqueued i f hmem with rfl | ⟨busy, b', rfl⟩
      · have hrequest : e.failed.msg.isResponse = false := hP.request _ hPe
        rw [hrequest] at hresponse
        cases hresponse
      · exact ⟨b', e.msg, hPe, rfl⟩

/-- **An action** keeps what endures of everything on a trail. -/
theorem Keeps.step (hP : Enduring P) (hx : x.Keeps P) :
    (x.step i j s.stack a (s.perform a).stack).Keeps P := by
  rcases x.step_cases i j s.stack a (s.perform a).stack with h | ⟨e, he, htakes, h⟩ |
    ⟨e, he, hends, h⟩ | ⟨r, -, -, h⟩
  · rw [h]
    exact hx
  · rw [h]
    exact hx.takes hP he htakes
  · rw [h]
    exact hx.ends hP he hends i
  · rw [h]
    exact ⟨hx.envelopes, hx.records, hx.reports⟩

/-- **What endures of a request is true of everything on its trail**, after every run. -/
theorem keeps_along (hP : Enduring P) (hx : x.Keeps P) : (x.along i j s as).Keeps P :=
  along_induction (Q := Keeps P) (fun _ _ _ hy => hy.step hP) hx

end Trail

end ManagementBus
