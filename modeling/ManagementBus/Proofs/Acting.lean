import Mathlib.Algebra.GroupWithZero.Nat
import ManagementBus.Proofs.Calling

/-!
# What each action does to a bus

The actions of a run, one by one. On a bus where it does not write, and short of a shutdown, an
action only lets the bus grow, and `Scheduler.Supplied` says by which envelopes.

## Main results

* `Scheduler.callStep`: what an action of a caller does.
* `Stack.receive_bus`, `Stack.sweep_eq`: what a look at a link and a sweep do to the buses.
* `Stack.spares_receive`, `Stack.Finishes.spares`: what a look at a link and the end of a write do
  to the other buses.
* `Scheduler.perform_extends`, `Scheduler.perform_grows`: what an action does to a bus where it does
  not write.
* `Scheduler.perform_changes`: what an action does to a bus.
* `Scheduler.mem_calls_perform`: what it does to the calls.
-/

namespace ManagementBus

open EnvelopeProperty

/-- Whether an action takes or finishes an envelope of a bus, or closes its queue. -/
def Action.touches (a : Action) (i : Nat) : Bool :=
  match a with
  | .transmitBegin j | .transmitEnd j | .finish j => j = i
  | .stop => true
  | _ => false

/-- Whether an action is a step of a call. -/
def Action.isCallers : Action → Bool
  | .begin .. | .resume _ | .abandon _ => true
  | _ => false

namespace EnvelopeProperty

/-- The property that every envelope has. -/
def Anything : EnvelopeProperty := fun _ _ => True

end EnvelopeProperty

/-- The envelopes that an action may queue on a bus. -/
def Scheduler.Supplied (s : Scheduler) (i : Nat) : Action → EnvelopeProperty
  | .begin kind bus m => fun busy e => bus = i ∧ (Call.new kind bus m).Supplies busy e
  | .resume k => fun busy e => ∃ c, s.calls[k]? = some c ∧ c.bus = i ∧ c.Supplies busy e
  | .transmitEnd _ | .finish _ => Reply
  | .receive _ => From .meIpmb
  | .submitFromHost _ => From .hostKcs
  | .dispatch _ => Anything
  | _ => Nothing

namespace Bus

variable {P : EnvelopeProperty}

/-- A bus with which nothing happens grows by nothing. -/
theorem Grows.refl (P : EnvelopeProperty) (b : Bus) : Grows P b b :=
  (Extends.refl P b).grows

/-- Everything that one action may do to a bus at a tick. -/
inductive Changes (P : EnvelopeProperty) (now : UInt32) (b : Bus) : Bus → Prop
  | grows {c : Bus} (h : b.Grows P c) : Changes P now b c
  /-- The oldest envelope is a response that has used up its retries. -/
  | drops {e : Envelope} {rest : List Envelope} (hidle : b.inHand = none)
      (hitems : b.outbound.items = e :: rest) (hresponse : e.msg.isResponse = true) :
      Changes P now b (b.withItems rest)
  /-- The oldest envelope is a response, and now in hand. -/
  | holds {e : Envelope} {rest : List Envelope} (hidle : b.inHand = none)
      (hitems : b.outbound.items = e :: rest) (hresponse : e.msg.isResponse = true) :
      Changes P now b ((b.withItems rest).holding (e.addressed b))
  /-- The oldest envelope is a request, and now in hand and recorded. -/
  | stages {e : Envelope} {rest : List Envelope} (hidle : b.inHand = none)
      (hitems : b.outbound.items = e :: rest) (hrequest : e.msg.isResponse = false) :
      Changes P now b ((b.withItems rest).staging e.staged now)
  | delivers {e : Envelope} (hhand : b.inHand = some e) : Changes P now b (b.delivered e)
  | retries {e : Envelope} (hhand : b.inHand = some e) : Changes P now b (b.retrying e)
  /-- The envelope in hand is a request that is given up. -/
  | gives {e : Envelope} {c : Bus} (hhand : b.inHand = some e)
      (h : (b.undelivered e).Extends EnvelopeProperty.Reply c) : Changes P now b c
  | closes : Changes P now b b.close

/-- No action changes the row of a bus. -/
theorem Changes.config {now : UInt32} {b c : Bus} (h : b.Changes P now c) :
    c.config = b.config := by
  cases h with
  | grows hgrows => exact hgrows.config
  | gives _ hext => exact hext.config
  | drops | holds | stages | delivers | retries | closes => rfl

/-- A bus after a sweep: a usable one has dropped the requests that are older than a timeout. -/
def sweptAt (b : Bus) (now timeout : UInt32) : Bus :=
  if b.config.isUsable then { b with ledger := (b.ledger.expire now timeout).1 } else b

/-- The requests that a sweep of a bus drops. -/
def overdueAt (b : Bus) (now timeout : UInt32) : List Message :=
  if b.config.isUsable then (b.ledger.expire now timeout).2 else []

end Bus

namespace Stack

/-- Every bus of a stack has grown. -/
def Grows (P : EnvelopeProperty) (s t : Stack) : Prop :=
  ∀ (i : Nat) (b : Bus), s.buses[i]? = some b → ∃ c, t.buses[i]? = some c ∧ Bus.Grows P b c

variable {P Q : EnvelopeProperty} {s t u : Stack} {i j : Nat} {b c : Bus} {m : Message}

/-- A bus that has been replaced by one that it may become. -/
theorem Replaces.forall₂ {R : Bus → Bus → Prop} (hrefl : ∀ b, R b b) (hb : s.buses[i]? = some b)
    (h : Replaces i c s t) (hR : R b c) : List.Forall₂ R s.buses t.buses := by
  have hmodify : t.buses = s.buses.modify i fun _ => c := by
    have honBus := of_onBus (f := fun _ => c) hb
    rw [Replaces] at h honBus
    rw [h]
    exact (congrArg Stack.buses honBus).symm
  rw [hmodify]
  refine forall₂_modify hrefl ?_
  intro b' hb'
  obtain rfl : b = b' := Option.some.inj (hb.symm.trans hb')
  exact hR

/-! ### Receiving -/

/-- A response goes to the readers, or to the host, or on to another bus. -/
theorem deliverResponse_cases (s : Stack) (i : Nat) (channel : Channel)
    (hm : m.isResponse = true) :
    (m.infSource = .self ∧ s.deliverResponse i channel m = s.answerReader i m) ∨
      (m.infSource ≠ .self ∧ Queues Reply s (s.deliverResponse i channel m)) := by
  rw [deliverResponse]
  split
  · next hself => exact .inl ⟨hself, rfl⟩
  · next hself =>
      refine .inr ⟨hself, ?_⟩
      split
      · exact .of_buses (tellsHost_answerHost s i m).buses
      · split
        · exact (sends_answerMe s i hm).buses
        · exact (sends_answerBridge s i channel m).buses

/-- **A response that is delivered** extends the buses by replies at most. -/
theorem extends_deliverResponse (s : Stack) (i : Nat) (channel : Channel)
    (hm : m.isResponse = true) : Extends Reply s (s.deliverResponse i channel m) := by
  rcases deliverResponse_cases s i channel hm with ⟨-, hreader⟩ | ⟨-, hqueues⟩
  · rw [hreader]
    cases hb : s.buses[i]? with
    | none =>
        simp only [answerReader, hb]
        exact Extends.refl _ s
    | some b =>
        rcases answerReader_cases hb m with ⟨-, hreader⟩ | ⟨-, hdrop⟩
        · exact hreader.forall₂ (Bus.Extends.refl _) hb (.of_eq rfl rfl rfl rfl)
        · rw [hdrop]
          exact Extends.of_buses rfl
  · exact hqueues.toExtends

/-- A stack is extended when one of its buses is. -/
theorem Extends.of_replaces (hb : s.buses[i]? = some b) (h : Replaces i c s t)
    (hext : Bus.Extends P b c) : Extends P s t :=
  h.forall₂ (Bus.Extends.refl P) hb hext

/-- A response spares all buses but that where it waits for its reader. -/
theorem spares_deliverResponse (s : Stack) (channel : Channel) (hm : m.isResponse = true)
    (hij : i ≠ j) : Spares Reply j s (s.deliverResponse i channel m) := by
  rcases deliverResponse_cases s i channel hm with ⟨-, hreader⟩ | ⟨-, hqueues⟩
  · rw [hreader]
    cases hb : s.buses[i]? with
    | none =>
        simp only [answerReader, hb]
        exact .refl Reply j s
    | some b =>
        rcases answerReader_cases hb m with ⟨-, h⟩ | ⟨-, h⟩
        · exact .of_replaces h hij
        · rw [h]
          exact .of_eq rfl
  · exact .of_queues hqueues j

/-- A response that is heard on one bus spares the others, but for a reply. -/
theorem spares_routeResponse (hb : s.buses[i]? = some b) (hm : m.isResponse = true)
    (hij : i ≠ j) : Spares Reply j s (s.routeResponse i b m) := by
  rcases routeResponse_cases hb m with ⟨-, h⟩ | ⟨entry, u, -, hsettle, h⟩
  · rw [h]
    exact .of_eq rfl
  · rw [h]
    exact (Spares.of_replaces hsettle hij).trans
      (spares_deliverResponse u b.config.channel (m := m.answering entry) hm hij)

/-- A request for the dispatcher is queued on no bus. -/
theorem queues_notify (P : EnvelopeProperty) (s : Stack) (m : Message) :
    Queues P s (s.notify m).1 := by
  obtain ⟨q, es, hq, -⟩ := notify_cases s m
  rw [hq]
  exact .of_buses rfl

/-- A request that is heard is queued for the management engine at most. -/
theorem queues_routeRequest (s : Stack) (i : Nat) (b : Bus) (hm : m.isResponse = false) :
    Queues (From .meIpmb) s (s.routeRequest i b m) := by
  rcases routeRequest_cases s i b hm with hbridge | ⟨es, hnotify⟩
  · exact hbridge.buses
  · rw [hnotify]
    exact queues_notify _ s _

/-- **A look at a link spares the other buses**, whatever has arrived there. -/
theorem spares_receive (s : Stack) (hij : i ≠ j) : Spares (From .meIpmb) j s (s.receive i).1 := by
  rcases receive_cases s i with ⟨h, -⟩ | ⟨b, link, u, hworker, hread, hroute⟩
  · rw [h]
    exact .refl _ j s
  · obtain ⟨-, hb, -⟩ := workerBus_eq_some_iff.mp hworker
    refine (Spares.of_replaces hread hij).trans ?_
    rcases hroute with ⟨h, -⟩ | ⟨m, -, ⟨hm, h⟩ | ⟨hm, h⟩⟩
    · rw [h]
      exact .refl _ j u
    · rw [h]
      exact (spares_routeResponse (hread.getElem?_self hb) hm hij).mono
        fun _ _ hreply => hreply.from .meIpmb
    · rw [h]
      exact .of_queues (queues_routeRequest u i _ hm) j

/-- **A look at a link** extends every bus; but where a response is heard on a bus and answers a
pending request there, that request has gone first. -/
theorem receive_bus (s : Stack) (i : Nat) (hb : s.buses[j]? = some b) :
    ∃ c, (s.receive i).1.buses[j]? = some c ∧
      (Bus.Extends (From .meIpmb) b c ∨
        i = j ∧ ∃ m entry, s.heard? i = some m ∧ m.isResponse = true ∧
          b.pendingFor? m = some entry ∧ Bus.Extends (From .meIpmb) (b.settling m) c) := by
  by_cases hij : i = j
  · subst hij
    have hextends : Extends (From .meIpmb) s (s.receive i).1 →
        ∃ c, (s.receive i).1.buses[i]? = some c ∧ Bus.Extends (From .meIpmb) b c :=
      fun h => h.exists_bus hb
    rcases receive_cases s i with ⟨h, -⟩ | ⟨b', link, u, hworker, hread, hroute⟩
    · obtain ⟨c, hc, hbc⟩ := hextends (.of_buses (by rw [h]))
      exact ⟨c, hc, .inl hbc⟩
    · obtain ⟨-, hb', -⟩ := workerBus_eq_some_iff.mp hworker
      obtain rfl : b = b' := Option.some.inj (hb.symm.trans hb')
      have hu : Extends (From .meIpmb) s u := .of_replaces hb hread (.of_eq rfl rfl rfl rfl)
      rcases hroute with ⟨h, -⟩ | ⟨m, hheard, ⟨hm, h⟩ | ⟨hm, h⟩⟩
      · obtain ⟨c, hc, hbc⟩ := hextends (h ▸ hu)
        exact ⟨c, hc, .inl hbc⟩
      · rcases routeResponse_cases (hread.getElem?_self hb) m with
          ⟨-, hunmatched⟩ | ⟨entry, v, hentry, hsettle, hdeliver⟩
        · obtain ⟨c, hc, hbc⟩ := hextends (by
            rw [h, hunmatched]
            exact hu.trans (Extends.of_buses rfl))
          exact ⟨c, hc, .inl hbc⟩
        · have hanswer : Extends (From .meIpmb) v (s.receive i).1 := by
            rw [h, hdeliver]
            exact (extends_deliverResponse v i b.config.channel (m := m.answering entry) hm).mono
              fun _ _ hreply => hreply.from .meIpmb
          obtain ⟨c, hc, hdc⟩ := hanswer.exists_bus ((hread.trans hsettle).getElem?_self hb)
          have hbd : Bus.Extends (From .meIpmb) (b.settling m) (Bus.settling { b with link } m) :=
            .of_eq rfl rfl rfl rfl
          exact ⟨c, hc, .inr ⟨rfl, m, entry, hheard, hm, hentry, hbd.trans hdc⟩⟩
      · obtain ⟨c, hc, hbc⟩ := hextends (by
          rw [h]
          exact hu.trans (queues_routeRequest u i _ hm).toExtends)
        exact ⟨c, hc, .inl hbc⟩
  · obtain ⟨c, hc, hext⟩ := (spares_receive s hij).exists_bus hb
    exact ⟨c, hc, .inl hext⟩

/-- A look at a link lets every bus grow. -/
theorem grows_receive (s : Stack) (i : Nat) : Grows (From .meIpmb) s (s.receive i).1 := by
  intro j b hb
  obtain ⟨c, hc, hext | ⟨-, m, entry, -, -, -, hext⟩⟩ := receive_bus s i hb
  · exact ⟨c, hc, hext.grows⟩
  · exact ⟨c, hc, _, .answered m.answers .nothing, hext⟩

/-! ### Sweeping -/

/-- Every bus has lost pending requests, and nothing else. -/
def Forgets (s t : Stack) : Prop :=
  ∀ (i : Nat) (b : Bus), s.buses[i]? = some b →
    ∃ l, b.ledger.Loses l ∧ t.buses[i]? = some { b with ledger := l }

/-- The sweep of one bus. -/
theorem sweepBus_eq (hb : s.buses[i]? = some b) :
    Replaces i (b.sweptAt s.clock.now s.timing.requestTimeoutTicks) s (s.sweepBus i).1 ∧
      (s.sweepBus i).2 = (b.overdueAt s.clock.now s.timing.requestTimeoutTicks).length := by
  by_cases husable : b.config.isUsable = true
  · have hbus : s.usableBus i = .ok b := by simp [usableBus, hb, husable]
    have hexpire := Replaces.of_onBus hb (f := fun b' =>
      { b' with ledger := (b.ledger.expire s.clock.now s.timing.requestTimeoutTicks).1 })
    simp only [sweepBus, hbus, Bus.sweptAt, Bus.overdueAt, husable, if_true]
    exact ⟨hexpire.report _, trivial⟩
  · have hbus : s.usableBus i = .error (.unknownBus i) := by simp [usableBus, hb, husable]
    simp only [sweepBus, hbus, Bus.sweptAt, Bus.overdueAt, husable, Bool.false_eq_true, if_false]
    exact ⟨Replaces.refl hb, rfl⟩

/-- The sweep of the first buses. -/
def sweepFirst (s : Stack) (k : Nat) : Stack × Nat :=
  (List.range k).foldl (fun p i => ((p.1.sweepBus i).1, p.2 + (p.1.sweepBus i).2)) (s, 0)

/-- One more bus is swept after the others. -/
theorem sweepFirst_succ (s : Stack) (k : Nat) :
    s.sweepFirst (k + 1) =
      (((s.sweepFirst k).1.sweepBus k).1,
        (s.sweepFirst k).2 + ((s.sweepFirst k).1.sweepBus k).2) := by
  rw [sweepFirst, List.range_succ, List.foldl_append]
  rfl

/-- **The sweep of the first buses** in one equation: all of them by the clock at the beginning, and
the dropped requests counted. -/
theorem sweepFirst_eq {k : Nat} (hk : k ≤ s.buses.length) :
    (s.sweepFirst k).1 =
        { s with
          buses := (s.buses.take k).map (·.sweptAt s.clock.now s.timing.requestTimeoutTicks) ++
            s.buses.drop k
          journal := (s.sweepFirst k).1.journal } ∧
      (s.sweepFirst k).2 = ((s.buses.take k).map fun b =>
        (b.overdueAt s.clock.now s.timing.requestTimeoutTicks).length).sum := by
  induction k with
  | zero => exact ⟨rfl, rfl⟩
  | succ k ih =>
      obtain ⟨hstack, hcount⟩ := ih (Nat.le_of_succ_le hk)
      have hlength : ((s.buses.take k).map
          (·.sweptAt s.clock.now s.timing.requestTimeoutTicks)).length = k := by
        rw [List.length_map, List.length_take, Nat.min_eq_left (Nat.le_of_succ_le hk)]
      have hdrop : s.buses.drop k = s.buses[k] :: s.buses.drop (k + 1) :=
        List.drop_eq_getElem_cons hk
      have htake : s.buses.take (k + 1) = s.buses.take k ++ [s.buses[k]] :=
        List.take_succ_eq_append_getElem hk
      -- The next bus has not been swept yet.
      have hb : (s.sweepFirst k).1.buses[k]? = some s.buses[k] := by
        rw [hstack]
        simp only [hdrop]
        rw [List.getElem?_append_right (Nat.le_of_eq hlength), hlength, Nat.sub_self]
        rfl
      obtain ⟨hswept, hdropped⟩ := sweepBus_eq hb
      have hclock : (s.sweepFirst k).1.clock = s.clock := by rw [hstack]
      have htiming : (s.sweepFirst k).1.timing = s.timing := by rw [hstack]
      rw [hclock, htiming] at hswept hdropped
      have hbuses : (s.sweepFirst k).1.buses.set k
            (s.buses[k].sweptAt s.clock.now s.timing.requestTimeoutTicks) =
          (s.buses.take (k + 1)).map (·.sweptAt s.clock.now s.timing.requestTimeoutTicks) ++
            s.buses.drop (k + 1) := by
        rw [hstack]
        simp only [hdrop]
        rw [List.set_append_right _ _ (Nat.le_of_eq hlength), hlength, Nat.sub_self,
          List.set_cons_zero, htake, List.map_append, List.append_assoc]
        rfl
      rw [sweepFirst_succ]
      constructor
      · rw [Replaces, hbuses] at hswept
        refine hswept.trans ?_
        rw [hstack]
      · rw [hcount, hdropped, htake, List.map_append, List.sum_append]
        rfl

/-- **A sweep** drops the overdue requests of every bus, and says how many there were. -/
theorem sweep_eq (s : Stack) :
    s.sweep.1 =
        { s with
          buses := s.buses.map (·.sweptAt s.clock.now s.timing.requestTimeoutTicks)
          journal := s.sweep.1.journal } ∧
      s.sweep.2 = (s.buses.map fun b =>
        (b.overdueAt s.clock.now s.timing.requestTimeoutTicks).length).sum := by
  have hall := s.sweepFirst_eq (Nat.le_refl _)
  rw [List.take_length, List.drop_length, List.append_nil] at hall
  exact hall

/-- A bus after a sweep. -/
theorem getElem?_sweep (hb : s.buses[i]? = some b) :
    s.sweep.1.buses[i]? = some (b.sweptAt s.clock.now s.timing.requestTimeoutTicks) := by
  rw [s.sweep_eq.1, List.getElem?_map, hb]
  rfl

/-- A sweep makes every bus forget requests, and does nothing else to it. -/
theorem forgets_sweep (s : Stack) : Forgets s s.sweep.1 := by
  intro i b hb
  rw [getElem?_sweep hb, Bus.sweptAt]
  split
  · exact ⟨_, .expired _ _ .nothing, rfl⟩
  · exact ⟨_, .nothing, rfl⟩

/-- A sweep lets every bus grow, by no envelope at all. -/
theorem grows_sweep (P : EnvelopeProperty) (s : Stack) : Grows P s s.sweep.1 := by
  intro i b hb
  obtain ⟨l, hl, hbl⟩ := forgets_sweep s i b hb
  exact ⟨_, hbl, l, hl, Bus.Extends.refl P _⟩

/-! ### Writing -/

/-- A report that a request could not be delivered goes to the host, or on to another bus. -/
theorem reportFailure_cases (s : Stack) (m : Message) :
    (m.infSource = .hostKcs ∧ TellsHost s (s.reportFailure m)) ∨
      (m.infSource ≠ .hostKcs ∧ Sends Reply s (s.reportFailure m)) := by
  by_cases hsource : m.infSource = .hostKcs
  · refine .inl ⟨hsource, ?_⟩
    rw [reportFailure]
    simp only [hsource, show Channel.hostKcs ≠ .reserved by decide,
      show Channel.hostKcs ≠ .self by decide, if_false, if_true]
    split
    · exact tellsHost_writeHost s _ fun _ => _
    · exact ⟨_, .inl rfl⟩
  · exact .inr ⟨hsource, sends_reportFailure s hsource⟩

/-- A report of failure queues replies at most. -/
theorem queues_reportFailure (s : Stack) (m : Message) : Queues Reply s (s.reportFailure m) := by
  rcases reportFailure_cases s m with ⟨-, hhost⟩ | ⟨-, hsends⟩
  · exact .of_buses hhost.buses
  · exact hsends.buses

/-- The first half of a write concerns no other bus. -/
theorem spares_transmitBegin (P : EnvelopeProperty) (s : Stack) (hij : i ≠ j) :
    Spares P j s (s.transmitBegin i).1 := by
  rcases transmitBegin_cases s i with
    h | ⟨b, e, rest, -, -, -, ⟨-, -, h⟩ | ⟨-, -, h⟩ | ⟨-, h⟩⟩
  · rw [h]
    exact .refl P j s
  · exact .of_replaces h hij
  · exact .of_replaces h hij
  · exact .of_replaces h hij

/-- The second half spares the other buses; the originator of a request that is given up may be told
on one of them. -/
theorem spares_finishWrite (hb : s.buses[i]? = some b) (e : Envelope) (hij : i ≠ j) :
    Spares Reply j s (s.finishWrite i b e) := by
  rcases finishWrite_cases hb e with ⟨-, h⟩ | ⟨-, -, h⟩ | ⟨-, -, -, u, hu, h⟩
  · exact .of_replaces h hij
  · exact .of_replaces h hij
  · rw [h]
    exact (Spares.of_replaces hu hij).trans (.of_queues (queues_reportFailure u e.msg) j)

/-- The second half of a write is the end of the write in hand, if there is one and a worker. -/
theorem transmitEnd_eq (s : Stack) (i : Nat) :
    (s.transmitEnd i).1 = s ∨
      ∃ b e, s.workerBus i = some b ∧ b.inHand = some e ∧
        (s.transmitEnd i).1 = s.finishWrite i b e := by
  rw [transmitEnd]
  split
  · exact .inl rfl
  · next b hworker =>
      split
      · exact .inl rfl
      · next e hhand => exact .inr ⟨b, e, hworker, hhand, rfl⟩

/-- The write in hand after a shutdown comes to the same end, without a worker. -/
theorem finishInHand_eq (s : Stack) (i : Nat) :
    s.finishInHand i = s ∨
      ∃ b e, s.buses[i]? = some b ∧ b.inHand = some e ∧ s.finishInHand i = s.finishWrite i b e := by
  rw [finishInHand]
  split
  · exact .inl rfl
  · next b hb =>
      split
      · exact .inl rfl
      · next e hhand => exact .inr ⟨b, e, hb, hhand, rfl⟩

/-- The write that is in hand on a bus, if there is one, comes to its end. -/
inductive Finishes (i : Nat) (s : Stack) : Stack → Prop
  | idle : Finishes i s s
  | ends {b : Bus} {e : Envelope} (hb : s.buses[i]? = some b) (hhand : b.inHand = some e) :
      Finishes i s (s.finishWrite i b e)

/-- The second half of a write brings what is in hand to its end. -/
theorem finishes_transmitEnd (s : Stack) (i : Nat) : Finishes i s (s.transmitEnd i).1 := by
  rcases transmitEnd_eq s i with h | ⟨b, e, hworker, hhand, h⟩
  · rw [h]
    exact .idle
  · rw [h]
    exact .ends (workerBus_eq_some_iff.mp hworker).2.1 hhand

/-- What is left to do after a shutdown brings what is in hand to its end, if there is anything. -/
theorem finishes_finishInHand (s : Stack) (i : Nat) :
    Finishes i s (if s.stopped then s.finishInHand i else s) := by
  split
  · rcases finishInHand_eq s i with h | ⟨b, e, hb, hhand, h⟩
    · rw [h]
      exact .idle
    · rw [h]
      exact .ends hb hhand
  · exact .idle

/-- **The end of a write on one bus spares the others**, but for the report that it has failed. -/
theorem Finishes.spares (h : Finishes i s t) (hij : i ≠ j) : Spares Reply j s t := by
  cases h with
  | idle => exact .refl Reply j s
  | ends hb _ => exact spares_finishWrite hb _ hij

/-! ### Requests of the host and of the dispatcher -/

/-- **A request of the host** waits for the dispatcher, or is queued for the baseboard management
controller, or is refused. -/
theorem submitFromHost_cases (s : Stack) (m : Message) :
    (s.submitFromHost m).1 = (s.notify { m with infSource := .hostKcs }).1 ∨
      (∃ i, SendsOne i (From .hostKcs) s (s.submitFromHost m).1) ∨
      (∃ u, Sends Nothing s u ∧ TellsHost u (s.submitFromHost m).1) := by
  have hrefuse : ∀ (t : Stack) (m : Message) (fault : Fault), Sends Nothing s t →
      ∃ u, Sends Nothing s u ∧
        TellsHost u ((t.emit (.hostNotBridged m fault)).writeHost (hostRefusal m)).1 := by
    intro t m fault ht
    refine ⟨t.emit (.hostNotBridged m fault), ht.emit _, [], .inr ⟨hostRefusal m, ?_⟩⟩
    simp [report, writeHost]
  by_cases hserves : s.policy.servesHost m.netFn m.cmd = true
  · refine .inl ?_
    rw [submitFromHost]
    simp only [hserves, if_true]
  · refine .inr ?_
    cases hbmc : s.busFor .bmcIpmb with
    | none =>
        simp only [submitFromHost, hserves, hbmc, Bool.false_eq_true, if_false]
        obtain ⟨u, hu, hhost⟩ :=
          hrefuse s { m with infSource := .hostKcs, infTarget := .bmcIpmb } .noBmcBus
            (Sends.refl _ s)
        refine .inr ⟨u, hu, ?_⟩
        split
        · next heq => rwa [heq] at hhost
        · next heq => rwa [heq] at hhost
    | some bmc =>
        have hsend := sendRequest_outcome s
          { m with infSource := .hostKcs, infTarget := .bmcIpmb } bmc
        simp only [submitFromHost, hserves, hbmc, Bool.false_eq_true, if_false]
        rcases hsend with ⟨hok, hone⟩ | ⟨⟨fault, hfault⟩, hnone⟩
        · simp only [hok]
          exact .inl ⟨bmc, hone.mono fun _ _ => From.of_requestOf⟩
        · simp only [hfault]
          obtain ⟨u, hu, hhost⟩ :=
            hrefuse _ { m with infSource := .hostKcs, infTarget := .bmcIpmb } fault hnone
          refine .inr ⟨u, hu, ?_⟩
          split
          · next heq => rwa [heq] at hhost
          · next heq => rwa [heq] at hhost

/-- What the host submits is queued as a request of the host, or not at all. -/
theorem queues_submitFromHost (s : Stack) (m : Message) :
    Queues (From .hostKcs) s (s.submitFromHost m).1 := by
  rcases submitFromHost_cases s m with h | ⟨i, h⟩ | ⟨u, hu, hhost⟩
  · rw [h]
    exact queues_notify _ s _
  · exact h.sends.buses
  · have hnone : Queues (From .hostKcs) s u := (hu.mono fun _ _ hfalse => hfalse.elim).buses
    exact hnone.trans (.of_buses hhost.buses)

/-- A response of the dispatcher is written to the host, or queued on a bus. -/
theorem respond_cases (s : Stack) (m : Message) :
    (m.infSource = .hostKcs ∧ TellsHost s (s.respond m)) ∨
      (m.infSource ≠ .hostKcs ∧ Sends (responseTo m) s (s.respond m)) := by
  by_cases hsource : m.infSource = .hostKcs
  · refine .inl ⟨hsource, ?_⟩
    simp only [respond, hsource, if_true]
    split
    · exact tellsHost_writeHost s _ fun _ => _
    · exact ⟨_, .inl rfl⟩
  · refine .inr ⟨hsource, ?_⟩
    cases hbus : s.busFor m.infSource with
    | none =>
        simp only [respond, hsource, if_false, hbus]
        exact (Sends.refl _ s).emit _
    | some i =>
        have hsend := (sendResponse_outcome s m i).sends
        simp only [respond, hsource, if_false, hbus]
        split
        · exact hsend
        · exact hsend.emit _

/-- Whether two messages agree in function, command and originator. -/
def SameOrigin (m n : Message) : Prop :=
  n.netFn = m.netFn ∧ n.cmd = m.cmd ∧ n.infSource = m.infSource

/-- A request is served without a trace in the stack, or it is bridged. -/
theorem serve_cases (s : Stack) (handler : Handler) (m : Message) :
    (∃ n, SameOrigin m n ∧ (s.serve handler m).1 = s ∧
        ((s.serve handler m).2.1 = handler n ∨ (s.serve handler m).2.1 = n)) ∨
      (m.netFn = NetFn.enterprise ∧ m.cmd = Cmd.messageOut ∧ ∃ n, SameOrigin m n ∧
        (s.serve handler m).1 = (s.messageOut n).1 ∧
          (s.serve handler m).2.1 = (s.messageOut n).2) := by
  have henterprise : ∀ n, SameOrigin m n → m.netFn = NetFn.enterprise →
      (∃ n', SameOrigin m n' ∧ (s.serveEnterprise handler n).1 = s ∧
          ((s.serveEnterprise handler n).2.1 = handler n' ∨
            (s.serveEnterprise handler n).2.1 = n')) ∨
        (m.netFn = NetFn.enterprise ∧ m.cmd = Cmd.messageOut ∧ ∃ n', SameOrigin m n' ∧
          (s.serveEnterprise handler n).1 = (s.messageOut n').1 ∧
            (s.serveEnterprise handler n).2.1 = (s.messageOut n').2) := by
    intro n hn hfn
    rw [serveEnterprise]
    by_cases hcmd : n.cmd = Cmd.messageOut
    · rw [if_pos hcmd]
      exact .inr ⟨hfn, hn.2.1 ▸ hcmd, n, hn, rfl, rfl⟩
    · rw [if_neg hcmd]
      exact .inl ⟨n, hn, rfl, .inl rfl⟩
  rw [serve]
  simp only
  split
  · next hfn =>
      split
      · exact henterprise _ ⟨rfl, rfl, rfl⟩ hfn
      · split
        · exact henterprise _ ⟨rfl, rfl, rfl⟩ hfn
        · refine .inl ⟨_, ?_, rfl, .inr rfl⟩
          exact ⟨rfl, rfl, rfl⟩
  · refine .inl ⟨_, ?_, rfl, .inl rfl⟩
    exact ⟨rfl, rfl, rfl⟩

/-- What follows when a request has been served: its response, unless the command answers itself. -/
def conclude (r : Stack × Message × List Message) : Stack :=
  if r.1.policy.answersItself r.2.1.netFn r.2.1.cmd then r.1
  else r.1.respond (finalResponse r.2.1)

/-- **A request is served, and then the response follows.** The dispatcher shows of it what serving
shows. -/
theorem dispatch_eq_conclude (s : Stack) (handler : Handler) (m : Message) :
    ∃ es, s.dispatch handler m =
      (conclude ((s.report es).serve handler m), ((s.report es).serve handler m).2.2) := by
  by_cases hdump : s.dumping = true
  · refine ⟨[.dispatching m], ?_⟩
    simp only [dispatch, conclude, hdump, if_true, emit]
    split <;> rfl
  · refine ⟨[], ?_⟩
    have hreport : s.report [] = s := by simp [report]
    simp only [dispatch, conclude, hdump, if_false, Bool.false_eq_true, hreport]
    split <;> rfl

/-- The stack after a request has been dispatched. -/
theorem dispatch_eq (s : Stack) (handler : Handler) (m : Message) :
    ∃ es, (s.dispatch handler m).1 = conclude ((s.report es).serve handler m) := by
  obtain ⟨es, h⟩ := dispatch_eq_conclude s handler m
  exact ⟨es, congrArg Prod.fst h⟩

/-- A response of the dispatcher is queued at most. -/
theorem queues_respond (s : Stack) (m : Message) : Queues Anything s (s.respond m) := by
  rcases respond_cases s m with ⟨-, hhost⟩ | ⟨-, hsends⟩
  · exact .of_buses hhost.buses
  · exact (hsends.mono fun _ _ _ => trivial).buses

/-- A request that is served is queued at most, for the bridge. -/
theorem queues_serve (s : Stack) (handler : Handler) (m : Message) :
    Queues Anything s (s.serve handler m).1 := by
  rcases serve_cases s handler m with ⟨n, -, h, -⟩ | ⟨hfn, -, n, hn, h, -⟩
  · rw [h]
    exact .of_buses rfl
  · rw [h]
    have hrequest : n.isResponse = false := Message.isResponse_of_enterprise (hn.1.trans hfn)
    exact ((sends_messageOut s hrequest).mono fun _ _ _ => trivial).buses

/-- **A request that is dispatched** is bridged, and its response queued, at most. -/
theorem queues_dispatch (s : Stack) (handler : Handler) (m : Message) :
    Queues Anything s (s.dispatch handler m).1 := by
  obtain ⟨es, h⟩ := dispatch_eq s handler m
  have hserve : Queues Anything s ((s.report es).serve handler m).1 :=
    queues_serve (s.report es) handler m
  rw [h, conclude]
  split
  · exact hserve
  · exact hserve.trans (queues_respond _ _)

/-- The stack with other messages waiting for the dispatcher. -/
def withRequests (s : Stack) (items : List Message) : Stack :=
  { s with requests := { s.requests with items } }

/-- The dispatcher serves the oldest request, if one waits. -/
theorem dispatchUpTo_one (s : Stack) (handler : Handler) :
    (s.requests.items = [] ∧ (dispatchUpTo handler 1 s).1 = s) ∨
      ∃ m rest, s.requests.items = m :: rest ∧
        (dispatchUpTo handler 1 s).1 =
          ((s.withRequests rest).dispatch handler m).1 := by
  cases hitems : s.requests.items with
  | nil =>
      refine .inl ⟨rfl, ?_⟩
      have hget : s.requests.get = (s.requests, none) := by
        have hsame : ({ s.requests with items := [] } : Queue Message) = s.requests := by
          rw [← hitems]
        rw [Queue.get, hitems]
        exact Prod.ext hsame rfl
      simp only [dispatchUpTo, takeRequest, hget]
  | cons m rest =>
      refine .inr ⟨m, rest, rfl, ?_⟩
      have hget : s.requests.get = ({ s.requests with items := rest }, some m) := by
        simp [Queue.get, hitems]
      simp only [dispatchUpTo, takeRequest, hget, withRequests]

end Stack

/-! ### Every action -/

namespace Scheduler

open Stack

variable {s : Scheduler} {a : Action} {i : Nat} {b : Bus}

/-- A step of a call extends the bus of the call, and leaves the others alone. -/
theorem extends_of_serves {P : EnvelopeProperty} {c : Call} {r : Stack × Call}
    (h : Serves P s.stack c r) (hb : s.stack.buses[i]? = some b) :
    ∃ d, r.1.buses[i]? = some d ∧ Bus.Extends (fun busy e => c.bus = i ∧ P busy e) b d := by
  by_cases hi : c.bus = i
  · obtain ⟨d, hd, hbd⟩ := h.buses.toExtends.exists_bus hb
    exact ⟨d, hd, hbd.mono fun _ _ hP => ⟨hi, hP⟩⟩
  · exact ⟨b, (h.buses.others i hi).trans hb, Bus.Extends.refl _ b⟩

/-- What a step of a call does to the state, if the call is there. -/
theorem stepCall_cases (s : Scheduler) (k : Nat) (step : Stack → Call → Stack × Call) :
    (s.calls[k]? = none ∧ s.stepCall k step = s) ∨
      ∃ c, s.calls[k]? = some c ∧
        s.stepCall k step =
          { s with
            stack := (s.stack.aside fun stack => step stack c).1
            calls := s.calls.set k (s.stack.aside fun stack => step stack c).2
            tickets := s.tickets + 1 } := by
  cases hc : s.calls[k]? with
  | none => exact .inl ⟨rfl, by simp only [stepCall, hc]⟩
  | some c => exact .inr ⟨c, rfl, by simp only [stepCall, hc]⟩

/-- What an action of a caller does: a call that was there goes on or gives up, or a new one begins;
or nothing happens. -/
inductive CallStep (s : Scheduler) (a : Action) : Prop
  | nothing (h : s.perform a = s)
  | step {P : EnvelopeProperty} {c : Call} {r : Stack × Call}
      (hc : c ∈ s.calls ∨ ∃ kind bus m, a = .begin kind bus m ∧ c = Call.new kind bus m)
      (hserves : Serves P s.stack c r)
      (hP : ∀ busy e, P busy e → c.Supplies busy e ∧ s.Supplied c.bus a busy e)
      (hstack : (s.perform a).stack = r.1)
      (hcalls : ∀ d ∈ (s.perform a).calls, d ∈ s.calls ∨ d = r.2)

/-- A call that was there. -/
theorem callStep_of_stepCall {P : Call → EnvelopeProperty} {k : Nat}
    {step : Stack → Call → Stack × Call} {condition : Bool}
    (hperform : s.perform a = if condition then s.stepCall k step else s)
    (hserves : ∀ c, Serves (P c) s.stack c (s.stack.aside fun stack => step stack c))
    (hP : ∀ c, s.calls[k]? = some c → ∀ busy e, P c busy e →
      c.Supplies busy e ∧ s.Supplied c.bus a busy e) : s.CallStep a := by
  rcases stepCall_cases s k step with ⟨-, hstay⟩ | ⟨c, hc, hstep⟩
  · rw [hstay, ite_self] at hperform
    exact .nothing hperform
  · cases condition with
    | false => exact .nothing hperform
    | true =>
        rw [if_pos rfl, hstep] at hperform
        refine .step (.inl (List.mem_of_getElem? hc)) (hserves c) (hP c hc) ?_ ?_
        · rw [hperform]
        · intro d hd
          rw [hperform] at hd
          exact List.mem_or_eq_of_mem_set hd

/-- **What a caller does.** -/
theorem callStep (ha : a.isCallers = true) : s.CallStep a := by
  cases a with
  | begin kind bus m =>
      have hserves := serves_aside (s := s.stack) (fun t =>
        serves_beginCall t (Call.new kind bus m) s.tickets)
      refine .step (.inr ⟨kind, bus, m, rfl, rfl⟩) hserves ?_ rfl ?_
      · intro busy e hsupplies
        exact ⟨hsupplies, rfl, hsupplies⟩
      · intro d hd
        rcases List.mem_append.mp hd with hd | hd
        · exact .inl hd
        · exact .inr (List.mem_singleton.mp hd)
  | resume k =>
      refine callStep_of_stepCall rfl (fun c => serves_aside fun t =>
        serves_resumeCall t c s.tickets) ?_
      intro c hc busy e hsupplies
      exact ⟨hsupplies, c, hc, rfl, hsupplies⟩
  | abandon k =>
      refine callStep_of_stepCall rfl (fun c => serves_aside fun t =>
        serves_abandonCall Nothing t c) ?_
      intro c _ busy e hfalse
      exact hfalse.elim
  | transmitBegin | transmitEnd | receive | relink | submitFromHost | notify | dispatch | sweep
    | advance | stop | finish => cases ha

/-- The dispatcher serves the request at the head of its queue. -/
theorem perform_dispatch_of_head (handler : Handler) {m : Message} {rest : List Message}
    (hhead : s.stack.requests.items = m :: rest) :
    (s.perform (.dispatch handler)).stack =
      ((s.stack.withRequests rest).dispatch handler m).1 := by
  rcases dispatchUpTo_one s.stack handler with ⟨hnil, -⟩ | ⟨m', rest', hitems, hserved⟩
  · rw [hhead] at hnil
    cases hnil
  · rw [hhead, List.cons.injEq] at hitems
    obtain ⟨rfl, rfl⟩ := hitems
    exact hserved

/-- **On a bus where it neither writes nor reads an action only extends the queue**, unless it is a
sweep. -/
theorem perform_extends (hb : s.stack.buses[i]? = some b) (ha : a.touches i = false)
    (hreceive : a ≠ .receive i) (hsweep : a ≠ .sweep) :
    ∃ c, (s.perform a).stack.buses[i]? = some c ∧ Bus.Extends (s.Supplied i a) b c := by
  by_cases hcallers : a.isCallers = true
  · rcases s.callStep hcallers with h | ⟨-, hserves, hP, hstack, -⟩
    · exact ⟨b, by rw [h]; exact hb, Bus.Extends.refl _ b⟩
    · obtain ⟨d, hd, hext⟩ := extends_of_serves hserves hb
      refine ⟨d, by rw [hstack]; exact hd, hext.mono ?_⟩
      rintro busy e ⟨rfl, hqueued⟩
      exact (hP busy e hqueued).2
  cases a with
  | begin | resume | abandon => exact absurd rfl hcallers
  | transmitBegin j =>
      have hij : j ≠ i := by simpa [Action.touches] using ha
      exact (spares_transmitBegin Nothing s.stack hij).exists_bus hb
  | transmitEnd j =>
      have hij : j ≠ i := by simpa [Action.touches] using ha
      exact ((finishes_transmitEnd s.stack j).spares hij).exists_bus hb
  | receive j =>
      have hij : j ≠ i := by
        rintro rfl
        exact hreceive rfl
      exact (spares_receive s.stack hij).exists_bus hb
  | relink j link =>
      have hext : Extends Nothing s.stack (s.stack.onBus j fun b => { b with link }) :=
        Extends.onBus fun _ _ => .of_eq rfl rfl rfl rfl
      exact hext.exists_bus hb
  | submitFromHost m => exact (queues_submitFromHost s.stack m).toExtends.exists_bus hb
  | notify m => exact (queues_notify _ s.stack m).toExtends.exists_bus hb
  | dispatch handler =>
      rcases dispatchUpTo_one s.stack handler with ⟨-, h⟩ | ⟨m, rest, -, h⟩
      · exact ⟨b, by simpa [perform, onStack, h] using hb, Bus.Extends.refl _ b⟩
      · simp only [perform, onStack, h]
        exact (queues_dispatch (s.stack.withRequests rest) handler m).toExtends.exists_bus hb
  | sweep => exact absurd rfl hsweep
  | advance ms => exact ⟨b, hb, Bus.Extends.refl _ b⟩
  | stop => simp [Action.touches] at ha
  | finish j =>
      have hij : j ≠ i := by simpa [Action.touches] using ha
      exact ((finishes_finishInHand s.stack j).spares hij).exists_bus hb

/-- **On a bus where it does not write an action only lets the bus grow.** -/
theorem perform_grows (hb : s.stack.buses[i]? = some b) (ha : a.touches i = false) :
    ∃ c, (s.perform a).stack.buses[i]? = some c ∧ Bus.Grows (s.Supplied i a) b c := by
  cases a with
  | receive j => exact grows_receive s.stack j i b hb
  | sweep => exact grows_sweep _ s.stack i b hb
  | begin | resume | abandon | transmitBegin | transmitEnd | relink | submitFromHost | notify
    | dispatch | advance | stop | finish =>
      obtain ⟨c, hc, hext⟩ := s.perform_extends hb ha (by simp) (by simp)
      exact ⟨c, hc, hext.grows⟩

/-- What the end of a write does to its bus. -/
theorem changes_of_finishes {s t : Stack} {P : EnvelopeProperty} {now : UInt32}
    (hb : s.buses[i]? = some b) (h : Finishes i s t) :
    ∃ c, t.buses[i]? = some c ∧ b.Changes P now c := by
  cases h with
  | idle => exact ⟨b, hb, .grows (Bus.Grows.refl P b)⟩
  | @ends b' e hb' hhand =>
      obtain rfl : b = b' := Option.some.inj (hb.symm.trans hb')
      rcases finishWrite_cases hb e with ⟨-, h⟩ | ⟨-, -, h⟩ | ⟨-, -, -, u, hu, h⟩
      · exact ⟨_, h.getElem?_self hb, .delivers hhand⟩
      · exact ⟨_, h.getElem?_self hb, .retries hhand⟩
      · rw [h]
        have hub := hu.getElem?_self hb
        obtain ⟨c, hc, hext⟩ := (queues_reportFailure u e.msg).toExtends.exists_bus hub
        exact ⟨c, hc, .gives hhand hext⟩

/-- **What an action does to a bus.** -/
theorem perform_changes (a : Action) (hb : s.stack.buses[i]? = some b) :
    ∃ c, (s.perform a).stack.buses[i]? = some c ∧
      b.Changes (s.Supplied i a) s.stack.clock.now c := by
  by_cases htouches : a.touches i = true
  · cases a with
    | transmitBegin k =>
        obtain rfl : k = i := by simpa [Action.touches] using htouches
        rcases transmitBegin_cases s.stack k with h | ⟨b', e, rest, hworker, hidle, hitems, h⟩
        · refine ⟨b, ?_, .grows (Bus.Grows.refl _ b)⟩
          simpa [perform, onStack, h] using hb
        · obtain ⟨-, hb', -⟩ := workerBus_eq_some_iff.mp hworker
          obtain rfl : b = b' := Option.some.inj (hb.symm.trans hb')
          rcases h with ⟨hresponse, -, h⟩ | ⟨hresponse, -, h⟩ | ⟨hrequest, h⟩
          · exact ⟨_, h.getElem?_self hb, .drops hidle hitems hresponse⟩
          · exact ⟨_, h.getElem?_self hb, .holds hidle hitems hresponse⟩
          · exact ⟨_, h.getElem?_self hb, .stages hidle hitems hrequest⟩
    | transmitEnd k =>
        obtain rfl : k = i := by simpa [Action.touches] using htouches
        exact changes_of_finishes hb (finishes_transmitEnd s.stack k)
    | finish k =>
        obtain rfl : k = i := by simpa [Action.touches] using htouches
        exact changes_of_finishes hb (finishes_finishInHand s.stack k)
    | stop =>
        refine ⟨b.close, ?_, .closes⟩
        simp [perform, onStack, stop, hb]
    | begin | resume | abandon | receive | relink | submitFromHost | notify | dispatch | sweep
      | advance => cases htouches
  · obtain ⟨c, hc, hgrows⟩ := s.perform_grows hb (by simpa using htouches)
    exact ⟨c, hc, .grows hgrows⟩

/-- **A call after an action** was there before, or it comes of a step of a call that was there or
begins. -/
theorem mem_calls_perform {d : Call} (h : d ∈ (s.perform a).calls) :
    d ∈ s.calls ∨ ∃ c r, Serves c.Supplies s.stack c r ∧ d = r.2 ∧
      (c ∈ s.calls ∨ ∃ kind bus m, a = .begin kind bus m ∧ c = Call.new kind bus m) := by
  by_cases hcallers : a.isCallers = true
  · rcases s.callStep hcallers with hstay | ⟨hc, hserves, hP, -, hcalls⟩
    · rw [hstay] at h
      exact .inl h
    · rcases hcalls d h with hd | rfl
      · exact .inl hd
      · exact .inr ⟨_, _, hserves.mono fun busy e hqueued => (hP busy e hqueued).1, rfl, hc⟩
  cases a with
  | begin | resume | abandon => exact absurd rfl hcallers
  | transmitBegin | transmitEnd | receive | relink | submitFromHost | notify | dispatch | sweep
    | advance | stop | finish => exact .inl h

end Scheduler

end ManagementBus
