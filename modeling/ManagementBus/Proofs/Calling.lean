import ManagementBus.Proofs.Growth

/-!
# What callers do

A step of a call takes or gives back locks, takes a response, and queues one envelope at most. What
it queues is made of the message of the call, or it is the envelope with which the call has waited
for room. `Stack.Serves` states that of a step, and it is shown once for each step of a call.

## Main results

* `serves_beginCall`, `serves_resumeCall`, `serves_abandonCall`: every step of a call.
-/

namespace ManagementBus

open EnvelopeProperty

namespace Call

/-- The envelope for which a call waits for room. -/
def room? (c : Call) : Option Envelope :=
  match c.wait? with
  | some { obstacle := .room e, .. } => some e
  | _ => none

/-- What a call that gets its send lock may queue. -/
def Sends (c : Call) : EnvelopeProperty := fun busy e =>
  if c.kind = .sendResponse then responseTo c.msg busy e else requestOf c.msg busy e

/-- The call with its message made a request of the controller itself. -/
def asReader (c : Call) (channel : Channel) : Call :=
  { c with msg := { c.msg with infSource := .self, infTarget := channel } }

/-- What the next step of a call may queue. -/
def Supplies (c : Call) : EnvelopeProperty := fun busy e =>
  c.room? = some e ∨ c.Sends busy e ∨ ∃ channel, (c.asReader channel).Sends busy e

end Call

namespace Stack

variable {P : EnvelopeProperty} {s t : Stack} {c d : Call} {b : Bus} {e : Envelope}

/-- A step of a call queues only envelopes with a property, and only for such an envelope or the one
before does the call wait for room afterwards. -/
structure Serves (P : EnvelopeProperty) (s : Stack) (c : Call) (r : Stack × Call) : Prop where
  buses : ExtendsOn c.bus P s r.1
  rest : r.1 = { s with buses := r.1.buses, journal := r.1.journal }
  kind : r.2.kind = c.kind
  bus : r.2.bus = c.bus
  msg : r.2.msg = c.msg ∨ ∃ channel, r.2.msg = (c.asReader channel).msg
  room : ∀ e, r.2.room? = some e →
    c.room? = some e ∨ ∃ b, s.buses[c.bus]? = some b ∧ P b.ledger.numbers.busy e

namespace Serves

/-- A step that leaves the buses as they are but for links, locks and readers, and after which the
call does not wait for room. -/
theorem of_extends (hbuses : ExtendsOn c.bus P s t)
    (hrest : t = { s with buses := t.buses, journal := t.journal }) (hkind : d.kind = c.kind)
    (hbus : d.bus = c.bus) (hmsg : d.msg = c.msg) (hroom : d.room? = none) :
    Serves P s c (t, d) where
  buses := hbuses
  rest := hrest
  kind := hkind
  bus := hbus
  msg := .inl hmsg
  room := by
    intro e he
    rw [hroom] at he
    cases he

/-- A change of the bus, and then a step of the call. -/
theorem of_step {r : Stack × Call} (hbuses : ExtendsOn c.bus P s t)
    (hrest : t = { s with buses := t.buses, journal := t.journal }) (h : Serves P t c r) :
    Serves P s c r where
  buses := hbuses.trans h.buses
  rest := by
    rw [h.rest, hrest]
  kind := h.kind
  bus := h.bus
  msg := h.msg
  room := by
    intro e he
    rcases h.room e he with hroom | ⟨b', hb', hP⟩
    · exact .inl hroom
    · obtain ⟨b, hb, hext⟩ := hbuses.toExtends.exists_bus_before hb'
      rw [hext.busy] at hP
      exact .inr ⟨b, hb, hP⟩

/-- A property of what a step queues may be weakened. -/
theorem mono {Q : EnvelopeProperty} {r : Stack × Call} (h : Serves P s c r)
    (hPQ : ∀ busy e, P busy e → Q busy e) : Serves Q s c r where
  buses := h.buses.mono hPQ
  rest := h.rest
  kind := h.kind
  bus := h.bus
  msg := h.msg
  room := by
    intro e he
    rcases h.room e he with hroom | ⟨b, hb, hP⟩
    · exact .inl hroom
    · exact .inr ⟨b, hb, hPQ _ _ hP⟩

/-- A step after which the call waits as before. -/
theorem of_stay (hbuses : ExtendsOn c.bus P s t)
    (hrest : t = { s with buses := t.buses, journal := t.journal }) : Serves P s c (t, c) where
  buses := hbuses
  rest := hrest
  kind := rfl
  bus := rfl
  msg := .inl rfl
  room := fun _ he => .inl he

end Serves

/-- An envelope goes to the other end of the bus at an index. -/
def AddressedOn (s : Stack) (i : Nat) (e : Envelope) : Prop :=
  ∀ b, s.buses[i]? = some b → e.msg.destAddr = b.config.targetAddr

/-- A bus that has been extended still has the same other end. -/
theorem AddressedOn.of_extends {i : Nat} (he : t.AddressedOn i e) (h : Extends P s t) :
    s.AddressedOn i e := by
  intro b hb
  obtain ⟨d, hd, hext⟩ := h.exists_bus hb
  rw [he d hd, hext.config]

/-- Whatever the next step of a call queues has a property: the envelope for which it waits, or one
made of its message for its bus. -/
structure Allows (P : EnvelopeProperty) (s : Stack) (c : Call) : Prop where
  room : ∀ busy e, c.room? = some e → P busy e
  sends : ∀ busy e, c.Sends busy e → s.AddressedOn c.bus e → P busy e
  reads : ∀ channel busy e, (c.asReader channel).Sends busy e → s.AddressedOn c.bus e → P busy e

/-- A call supplies whatever its next step may queue. -/
theorem Allows.supplies (s : Stack) (c : Call) : Allows c.Supplies s c where
  room := fun _ _ h => .inl h
  sends := fun _ _ h _ => .inr (.inl h)
  reads := fun channel _ _ h _ => .inr (.inr ⟨channel, h⟩)

/-! ### The end of a call -/

/-- Taking or giving back a lock adds nothing to a bus. -/
theorem extends_locks (P : EnvelopeProperty) (s : Stack) (i : Nat) (f : Bus → List Lock) :
    ExtendsOn i P s (s.onBus i fun b => { b with locks := f b }) :=
  ExtendsOn.onBus (fun _ _ => .of_eq rfl rfl rfl rfl) fun _ => rfl

/-- The end of a call is at most reported. -/
theorem endCall_eq (s : Stack) (c : Call) (outcome : Except Fault Message) :
    ∃ es, s.endCall c outcome = (s.report es, c.finish (c.resultOf outcome)) := by
  by_cases hreads : c.kind.reads = true
  · cases outcome with
    | ok response =>
        refine ⟨[.readDone c.bus c.msg.netFn c.msg.cmd response.completionCode], ?_⟩
        simp only [endCall, hreads, if_true, emit]
    | error fault =>
        refine ⟨[.readFailed c.bus c.msg.netFn c.msg.cmd fault], ?_⟩
        simp only [endCall, hreads, if_true, emit]
  · refine ⟨[], ?_⟩
    simp [endCall, hreads, report]

/-- The end of a call queues nothing. -/
theorem serves_endCall (P : EnvelopeProperty) (s : Stack) (c : Call)
    (outcome : Except Fault Message) : Serves P s c (s.endCall c outcome) := by
  obtain ⟨es, hend⟩ := endCall_eq s c outcome
  rw [hend]
  exact .of_extends (ExtendsOn.of_buses rfl) rfl rfl rfl rfl rfl

/-- A call that gives back its read lock and ends supplies nothing. -/
theorem serves_leaveCall (P : EnvelopeProperty) (s : Stack) (c : Call)
    (outcome : Except Fault Message) : Serves P s c (s.leaveCall c outcome) := by
  rw [leaveCall]
  split
  · exact .of_step (extends_locks P s c.bus _) rfl (serves_endCall P _ c outcome)
  · exact serves_endCall P s c outcome

/-! ### Queueing -/

/-- A call whose envelope is queued waits for its response, or leaves. -/
theorem serves_callSent (P : EnvelopeProperty) (s : Stack) (c : Call) (ticket : Nat) :
    Serves P s c (s.callSent c ticket) := by
  rw [callSent]
  split
  · exact .of_extends (ExtendsOn.refl c.bus P s) rfl rfl rfl rfl rfl
  · exact serves_leaveCall P s c _

/-- An envelope that is offered is added at most. -/
theorem extends_enqueue {i : Nat} (hb : s.buses[i]? = some b) {d : Bus}
    (hqueue : d.outbound = b.outbound) (he : P b.ledger.numbers.busy e) :
    ExtendsOn i P s (s.enqueue i d e).1 := by
  have henqueue : (s.enqueue i d e).1 =
      s.onBus i fun b' => { b' with outbound := (d.outbound.put e).1 } := rfl
  rw [henqueue, hqueue]
  refine ExtendsOn.onBus ?_ fun _ => rfl
  intro b' hb'
  obtain rfl : b = b' := Option.some.inj (hb.symm.trans hb')
  rcases b.outbound.put_cases e with ⟨-, hput⟩ | ⟨-, hput⟩
  · rw [hput]
    exact ⟨rfl, rfl, ⟨b.ledger.numbers.cursor, rfl⟩, [e], rfl, by simpa using he⟩
  · rw [hput]
    exact .of_eq rfl rfl rfl rfl

/-- A call that queues an envelope, or waits for room for it. -/
theorem serves_callQueue (hb : s.buses[c.bus]? = some b) {d : Bus}
    (hqueue : d.outbound = b.outbound) (he : P b.ledger.numbers.busy e) (ticket : Nat) :
    Serves P s c (s.callQueue c d e ticket) := by
  have henqueue := extends_enqueue hb hqueue he
  rw [callQueue]
  split
  · next t heq =>
      have ht : t = (s.enqueue c.bus d e).1 := (congrArg Prod.fst heq).symm
      rw [← ht] at henqueue
      exact .of_step henqueue (by rw [ht]; rfl) (serves_callSent P t c ticket)
  · next t heq =>
      have ht : t = (s.enqueue c.bus d e).1 := (congrArg Prod.fst heq).symm
      rw [← ht] at henqueue
      exact .of_step henqueue (by rw [ht]; rfl) (serves_leaveCall P t c _)
  · next t heq =>
      have ht : t = (s.enqueue c.bus d e).1 := (congrArg Prod.fst heq).symm
      rw [← ht] at henqueue
      refine .of_step henqueue (by rw [ht]; rfl) ?_
      exact
        { buses := extends_locks P t c.bus _
          rest := rfl
          kind := rfl
          bus := rfl
          msg := .inl rfl
          room := by
            intro e' he'
            obtain rfl : e = e' := Option.some.inj he'
            obtain ⟨b', hb', hext⟩ := henqueue.toExtends.exists_bus hb
            exact .inr ⟨b', hb', by rw [hext.busy]; exact he⟩ }

/-- The envelope of a call, with the number drawn for it. -/
theorem extends_callEnvelope (P : EnvelopeProperty) (hb : s.buses[c.bus]? = some b) :
    ExtendsOn c.bus P s (s.callEnvelope c b).1 ∧
      (s.callEnvelope c b).1 =
        { s with
          buses := (s.callEnvelope c b).1.buses
          journal := (s.callEnvelope c b).1.journal } ∧
      c.Sends b.ledger.numbers.busy (s.callEnvelope c b).2 := by
  by_cases hkind : c.kind = .sendResponse
  · simp only [callEnvelope, Call.Sends, hkind, if_true]
    exact ⟨ExtendsOn.refl c.bus P s, by simp, b, rfl⟩
  · have hdraw : s.callEnvelope c b = s.drawRequest c.bus b c.msg := by
      cases hk : c.kind <;> simp_all [callEnvelope]
    rw [hdraw, Call.Sends, if_neg hkind]
    have hext : ExtendsOn c.bus P s (s.drawRequest c.bus b c.msg).1 :=
      ⟨.of_sends (sends_drawRequest P hb c.msg), fun _ hij => s.buses_onBus _ hij,
        links_onBus fun _ => rfl⟩
    exact ⟨hext, rfl, b, _, rfl, free_of_draw b⟩

/-- What a call sends goes to the other end of its bus. -/
theorem destAddr_callEnvelope (s : Stack) (c : Call) (b : Bus) :
    (s.callEnvelope c b).2.msg.destAddr = b.config.targetAddr := by
  rw [callEnvelope]
  split
  · rfl
  · rfl

/-- A call that may send queues an envelope made of its message, waits with it for room, or waits
for its lock. -/
theorem serves_callSend (hP : ∀ busy e, c.Sends busy e → s.AddressedOn c.bus e → P busy e)
    (ticket : Nat) : Serves P s c (s.callSend c ticket) := by
  rw [callSend]
  split
  · exact serves_leaveCall P s c _
  · next b hb =>
      split
      · exact .of_extends (ExtendsOn.refl c.bus P s) rfl rfl rfl rfl rfl
      · obtain ⟨hext, hrest, hsends⟩ := extends_callEnvelope Nothing hb
        obtain ⟨b', hb', hbb'⟩ := hext.toExtends.exists_bus hb
        refine .of_step (hext.mono fun _ _ hfalse => hfalse.elim) hrest ?_
        refine serves_callQueue hb' hbb'.outbound_eq.symm ?_ ticket
        rw [hbb'.busy]
        refine hP _ _ hsends ?_
        intro d hd
        obtain rfl : b = d := Option.some.inj (hb.symm.trans hd)
        exact destAddr_callEnvelope s c b

/-- A call that holds its send lock gives it back when its envelope is queued or nothing is. -/
theorem serves_callRoom (hP : ∀ b, s.buses[c.bus]? = some b → P b.ledger.numbers.busy e)
    (ticket : Nat) : Serves P s c (s.callRoom c e ticket) := by
  rw [callRoom]
  split
  · exact .of_stay (ExtendsOn.refl c.bus P s) rfl
  · next b hb =>
      have henqueue := extends_enqueue hb rfl (hP b hb)
      split
      · next t heq =>
          have ht : t = (s.enqueue c.bus b e).1 := (congrArg Prod.fst heq).symm
          rw [← ht] at henqueue
          refine .of_step henqueue (by rw [ht]; rfl) ?_
          exact .of_step (extends_locks P t c.bus _) rfl (serves_callSent P _ c ticket)
      · next t heq =>
          have ht : t = (s.enqueue c.bus b e).1 := (congrArg Prod.fst heq).symm
          rw [← ht] at henqueue
          refine .of_step henqueue (by rw [ht]; rfl) ?_
          exact .of_step (extends_locks P t c.bus _) rfl (serves_leaveCall P _ c _)
      · next t heq =>
          have ht : t = (s.enqueue c.bus b e).1 := (congrArg Prod.fst heq).symm
          rw [← ht] at henqueue
          exact .of_stay henqueue (by rw [ht]; rfl)

/-! ### Reading -/

/-- A reader that may read queues its request as one of the controller itself. -/
theorem serves_callRead
    (hP : ∀ channel busy e, (c.asReader channel).Sends busy e → s.AddressedOn c.bus e → P busy e)
    (ticket : Nat) : Serves P s c (s.callRead c ticket) := by
  rw [callRead]
  split
  · exact .of_stay (ExtendsOn.refl c.bus P s) rfl
  · next b hb =>
      have hlock : ExtendsOn c.bus P s
          (s.onBus c.bus fun b' => { b'.take .read with responses := b.responses.purge.1 }) :=
        ExtendsOn.onBus (fun _ _ => .of_eq rfl rfl rfl rfl) fun _ => rfl
      have hread := hlock.report (Event.purge .response b.responses.purge.2)
      have hreader := Serves.of_step (c := c.asReader b.config.channel) hread rfl
        (serves_callSend (fun busy e hsends he =>
          hP b.config.channel busy e hsends (he.of_extends hread.toExtends)) ticket)
      exact
        { buses := hreader.buses
          rest := hreader.rest
          kind := hreader.kind
          bus := hreader.bus
          msg := by
            rcases hreader.msg with hmsg | ⟨channel, hmsg⟩
            · exact .inr ⟨b.config.channel, hmsg⟩
            · exact .inr ⟨channel, hmsg⟩
          room := hreader.room }

/-- A reader whose response is there takes it and leaves. -/
theorem serves_callResponse (P : EnvelopeProperty) (s : Stack) (c : Call) :
    Serves P s c (s.callResponse c) := by
  rw [callResponse]
  split
  · exact .of_stay (ExtendsOn.refl c.bus P s) rfl
  · split
    · next responses response _ =>
        have htake : ExtendsOn c.bus P s (s.onBus c.bus fun b => { b with responses }) :=
          ExtendsOn.onBus (fun _ _ => .of_eq rfl rfl rfl rfl) fun _ => rfl
        exact .of_step htake rfl (serves_leaveCall P _ c _)
    · split
      · exact serves_leaveCall P s c _
      · exact .of_stay (ExtendsOn.refl c.bus P s) rfl

/-! ### Steps of a call -/

/-- What a call queues when it begins has any property that its message allows. -/
theorem serves_beginCall_of (h : Allows P s c) (ticket : Nat) :
    Serves P s c (s.beginCall c ticket) := by
  rw [beginCall]
  split
  · exact serves_endCall _ s c _
  · split
    · exact serves_callSend h.sends ticket
    · split
      · exact .of_extends (ExtendsOn.refl c.bus _ s) rfl rfl rfl rfl rfl
      · exact serves_callRead h.reads ticket

/-- What it queues when it goes on has any property that its message and the envelope in waiting
allow. -/
theorem serves_resumeCall_of (h : Allows P s c) (ticket : Nat) :
    Serves P s c (s.resumeCall c ticket) := by
  rw [resumeCall]
  split
  · exact .of_stay (ExtendsOn.refl c.bus _ s) rfl
  · next w hw =>
      obtain ⟨obstacle, number, deadline⟩ := w
      cases obstacle with
      | readLock => exact serves_callRead h.reads ticket
      | sendLock => exact serves_callSend h.sends ticket
      | room e =>
          have hroom : c.room? = some e := by rw [Call.room?, hw]
          exact serves_callRoom (fun b _ => h.room b.ledger.numbers.busy e hroom) ticket
      | response => exact serves_callResponse _ s c

/-- **What a call does when it begins.** -/
theorem serves_beginCall (s : Stack) (c : Call) (ticket : Nat) :
    Serves c.Supplies s c (s.beginCall c ticket) :=
  serves_beginCall_of (.supplies s c) ticket

/-- **What a call does when it goes on.** -/
theorem serves_resumeCall (s : Stack) (c : Call) (ticket : Nat) :
    Serves c.Supplies s c (s.resumeCall c ticket) :=
  serves_resumeCall_of (.supplies s c) ticket

/-- **What a call does when it gives up.** -/
theorem serves_abandonCall (P : EnvelopeProperty) (s : Stack) (c : Call) :
    Serves P s c (s.abandonCall c) := by
  have hreport : ∀ e, ExtendsOn c.bus P s (s.emit e) := fun _ => ExtendsOn.of_buses rfl
  rw [abandonCall]
  split
  · exact .of_stay (ExtendsOn.refl c.bus _ s) rfl
  · split
    · exact .of_step (hreport _) rfl (serves_endCall P _ c _)
    · exact .of_step (hreport _) rfl (serves_leaveCall P _ c _)
    · exact .of_step (extends_locks P s c.bus _) rfl (serves_leaveCall P _ c _)
    · exact serves_leaveCall P s c _

/-- A step of a call with a journal of its own. -/
theorem serves_aside_of {step : Stack → Stack × Call}
    (h : Serves P { s with journal := [] } c (step { s with journal := [] })) :
    Serves P s c (s.aside step) where
  buses := ⟨h.buses.toExtends, h.buses.others, h.buses.links⟩
  rest := by
    have haside : (s.aside step).1 =
        { (step { s with journal := [] }).1 with journal := s.journal } := rfl
    rw [haside, h.rest]
  kind := h.kind
  bus := h.bus
  msg := h.msg
  room := h.room

/-- A step that serves its call in every stack serves it aside. -/
theorem serves_aside {step : Stack → Stack × Call} (h : ∀ t, Serves P t c (step t)) :
    Serves P s c (s.aside step) :=
  serves_aside_of (h _)

end Stack

end ManagementBus
