import ManagementBus.Proofs.Readers

/-!
# What readers ask for

A reader that comes to wait for its response has just put its request into the transmit queue of
its bus, behind all others. `Stack.Asks` states that of a step of a call. An action is a step of one
call or leaves the calls alone: `Scheduler.Moves` and `Scheduler.Works` state what follows for calls
and readers.

## Main results

* `asks_beginCall`, `asks_resumeCall`: the request of a reader is the newest of the queue.
* `moves_or_works`: what an action does to the calls and to what readers see.
-/

namespace ManagementBus

/-- Whether a message has the function, the command and the data of another one. -/
def Message.Repeats (n m : Message) : Prop :=
  n.netFn = m.netFn ∧ n.cmd = m.cmd ∧ n.data = m.data

namespace Message.Repeats

variable {k m n : Message}

/-- A message repeats itself. -/
theorem refl (m : Message) : m.Repeats m := ⟨rfl, rfl, rfl⟩

/-- What repeats a repetition repeats the first message. -/
theorem trans (hkm : k.Repeats m) (hmn : m.Repeats n) : k.Repeats n :=
  ⟨hkm.1.trans hmn.1, hkm.2.1.trans hmn.2.1, hkm.2.2.trans hmn.2.2⟩

/-- Two messages repeat each other. -/
theorem symm (h : n.Repeats m) : m.Repeats n := ⟨h.1.symm, h.2.1.symm, h.2.2.symm⟩

end Message.Repeats

namespace Stack

variable {s t : Stack} {c : Call} {b : Bus} {e : Envelope} {r : Stack × Call} {i : Nat}

/-- The newest envelope that waits on a bus. -/
def newest? (s : Stack) (i : Nat) : Option Envelope :=
  s.buses[i]?.bind fun b => b.outbound.items.getLast?

/-- A step of a reader: the envelope with which it waits for room, or that is the newest of the
queue when it comes to wait for its response, is the one that it has waited with, or repeats its
message. -/
structure Asks (s : Stack) (c : Call) (r : Stack × Call) : Prop where
  room : ∀ e, r.2.room? = some e → c.room? = some e ∨ e.msg.Repeats c.msg
  sent : r.2.awaitsResponse = true → c.awaitsResponse = false →
    ∃ e, r.1.newest? c.bus = some e ∧ (c.room? = some e ∨ e.msg.Repeats c.msg)

/-- A call that waits neither for room nor for a response asks for nothing more. -/
theorem asks_of_done (hroom : r.2.room? = none) (hwaits : r.2.awaitsResponse = false) :
    Asks s c r where
  room := by
    intro e he
    rw [hroom] at he
    cases he
  sent := by
    intro hd
    rw [hwaits] at hd
    cases hd

/-- A call that stays where it is asks for what it has asked for. -/
theorem asks_stay : Asks s c (t, c) where
  room := fun _ he => .inl he
  sent := by
    intro hd hc
    have hsame : c.awaitsResponse = true := hd
    rw [hc] at hsame
    cases hsame

/-- A call that leaves asks for nothing more. -/
theorem asks_leaveCall (s t : Stack) (c : Call) (outcome : Except Fault Message) :
    Asks s c (t.leaveCall c outcome) := by
  refine asks_of_done ?_ ?_
  · rw [leaveCall_snd]
    rfl
  · rw [leaveCall_snd]
    rfl

/-- A step that starts from a stack where the journal or a bus is different. -/
theorem Asks.of_stack (h : Asks t c r) : Asks s c r := ⟨h.room, h.sent⟩

/-- What a queue accepts is the newest there. -/
theorem newest?_enqueue {d : Bus} (hb : s.buses[i]? = some d)
    (h : (s.enqueue i b e).2 = .accepted) : (s.enqueue i b e).1.newest? i = some e := by
  have hget : (s.enqueue i b e).1.buses[i]? = some { d with outbound := (b.outbound.put e).1 } := by
    have hself := s.buses_onBus_self i fun b' => { b' with outbound := (b.outbound.put e).1 }
    rw [hb] at hself
    exact hself
  have haccepted : (b.outbound.put e).2 = .accepted := h
  rcases b.outbound.put_cases e with ⟨-, hput⟩ | ⟨hrefused, -⟩
  · rw [newest?, hget, Option.bind_some, hput]
    exact List.getLast?_concat
  · exact absurd haccepted hrefused

/-- A reader that comes to wait for its response has its request at the end of the queue. -/
theorem asks_callSent (he : s.newest? c.bus = some e)
    (hasks : c.room? = some e ∨ e.msg.Repeats c.msg) (ticket : Nat) :
    Asks s c (s.callSent c ticket) := by
  rw [callSent]
  split
  · refine ⟨?_, fun _ _ => ⟨e, he, hasks⟩⟩
    intro e' he'
    cases he'
  · exact asks_leaveCall s s c _

/-- A reader whose request finds room has queued it; otherwise it waits with that request. -/
theorem asks_callQueue (hb : s.buses[c.bus]? = some b) {d : Bus} (he : e.msg.Repeats c.msg)
    (ticket : Nat) : Asks s c (s.callQueue c d e ticket) := by
  have hnewest := newest?_enqueue (b := d) (e := e) hb
  rw [callQueue]
  split
  · next t heq =>
      rw [heq] at hnewest
      exact (asks_callSent (hnewest rfl) (.inr he) ticket).of_stack
  · exact asks_leaveCall s _ c _
  · refine ⟨?_, ?_⟩
    · intro e' he'
      obtain rfl : e = e' := Option.some.inj he'
      exact .inr he
    · intro hd
      cases hd

/-- The envelope of a reader is a request made of its message. -/
theorem asks_callSend (hkind : c.kind.reads = true) (ticket : Nat) :
    Asks s c (s.callSend c ticket) := by
  rw [callSend]
  split
  · exact asks_leaveCall s s c _
  · next b hb =>
      split
      · refine asks_of_done rfl ?_
        simp [Call.awaitsResponse, Call.waitFor, Call.wait?]
      · have hdraw : s.callEnvelope c b = s.drawRequest c.bus b c.msg := by
          cases hk : c.kind <;> simp_all [callEnvelope, CallKind.reads]
        have hb' : (s.drawRequest c.bus b c.msg).1.buses[c.bus]? =
            some { b with ledger := b.ledger.nextSequence.1 } := by
          have hself := s.buses_onBus_self c.bus fun b' =>
            { b' with ledger := b.ledger.nextSequence.1 }
          rw [hb] at hself
          exact hself
        have hrepeats : (s.drawRequest c.bus b c.msg).2.msg.Repeats c.msg := ⟨rfl, rfl, rfl⟩
        rw [hdraw]
        exact (asks_callQueue hb' hrepeats ticket).of_stack

/-- A reader for which there is room queues the request with which it has waited. -/
theorem asks_callRoom (hroom : c.room? = some e) (ticket : Nat) :
    Asks s c (s.callRoom c e ticket) := by
  rw [callRoom]
  split
  · exact asks_stay
  · next b hb =>
      have hnewest := newest?_enqueue (b := b) (e := e) hb
      split
      · next t heq =>
          rw [heq] at hnewest
          have hreleased : (t.onBus c.bus fun b => b.release c.kind.lock).newest? c.bus =
              some e := by
            obtain ⟨d, hd, hlast⟩ := Option.bind_eq_some_iff.mp (hnewest rfl)
            have hself := t.buses_onBus_self c.bus fun b => b.release c.kind.lock
            rw [newest?, hself, hd]
            exact hlast
          exact (asks_callSent hreleased (.inl hroom) ticket).of_stack
      · exact asks_leaveCall s _ c _
      · exact asks_stay

/-- A reader that gets its lock asks for what it has come for. -/
theorem asks_callRead (hkind : c.kind.reads = true) (ticket : Nat) :
    Asks s c (s.callRead c ticket) := by
  rw [callRead]
  split
  · exact asks_stay
  · next b hb =>
      have hsend := asks_callSend (c := c.asReader b.config.channel)
        (s := (s.onBus c.bus fun b' =>
          { b'.take .read with responses := b.responses.purge.1 }).report
            (Event.purge .response b.responses.purge.2)) hkind ticket
      exact ⟨hsend.room, hsend.sent⟩

/-- A reader that waits for its response sends nothing more. -/
theorem asks_callResponse (s : Stack) (c : Call) : Asks s c (s.callResponse c) := by
  rw [callResponse]
  split
  · exact asks_stay
  · split
    · exact asks_leaveCall s _ c _
    · split
      · exact asks_leaveCall s _ c _
      · exact asks_stay

/-- **What a reader queues when it begins.** -/
theorem asks_beginCall (hkind : c.kind.reads = true) (ticket : Nat) :
    Asks s c (s.beginCall c ticket) := by
  rw [beginCall]
  split
  · next fault _ =>
      obtain ⟨es, hend⟩ := endCall_eq s c (.error fault)
      rw [hend]
      exact asks_of_done rfl rfl
  · simp only [hkind, Bool.not_true, Bool.false_eq_true, if_false]
    split
    · refine asks_of_done rfl ?_
      simp [Call.awaitsResponse, Call.waitFor, Call.wait?]
    · exact asks_callRead hkind ticket

/-- **What a reader queues when it goes on.** -/
theorem asks_resumeCall (hkind : c.kind.reads = true) (ticket : Nat) :
    Asks s c (s.resumeCall c ticket) := by
  rw [resumeCall]
  split
  · exact asks_stay
  · next w hw =>
      obtain ⟨obstacle, number, deadline⟩ := w
      cases obstacle with
      | readLock => exact asks_callRead hkind ticket
      | sendLock => exact asks_callSend hkind ticket
      | room e =>
          refine asks_callRoom ?_ ticket
          rw [Call.room?, hw]
      | response => exact asks_callResponse s c

/-- A reader that gives up queues nothing. -/
theorem asks_abandonCall (s : Stack) (c : Call) : Asks s c (s.abandonCall c) := by
  rw [abandonCall]
  split
  · exact asks_stay
  · split
    · obtain ⟨es, hend⟩ := endCall_eq (s.emit (.lockTimedOut c.bus .read)) c (.error .lockTimeout)
      rw [hend]
      exact asks_of_done rfl rfl
    · exact asks_leaveCall s _ c _
    · exact asks_leaveCall s _ c _
    · exact asks_leaveCall s _ c _

/-- A step of a call with a journal of its own. -/
theorem asks_aside {step : Stack → Stack × Call}
    (h : Asks { s with journal := [] } c (step { s with journal := [] })) :
    Asks s c (s.aside step) :=
  ⟨h.room, h.sent⟩

end Stack

/-! ### Actions -/

/-- Only readers wait for the read lock or for a response. -/
def Call.IsSound (c : Call) : Prop := c.kind.reads = false → c.waitsToRead = false

/-- What a replaced element changes of a count. -/
theorem countP_set_add {α : Type} (p : α → Bool) {l : List α} {k : Nat} {a : α} (b : α)
    (h : l[k]? = some a) :
    (l.set k b).countP p + (if p a then 1 else 0) = l.countP p + if p b then 1 else 0 := by
  obtain ⟨hlt, rfl⟩ := List.getElem?_eq_some_iff.mp h
  have hle : (if p l[k] then 1 else 0) ≤ l.countP p := List.boole_getElem_le_countP hlt
  rw [List.countP_set hlt]
  omega

namespace Scheduler

open EnvelopeProperty Stack

variable {s : Scheduler} {a : Action} {k : Nat} {c : Call} {r : Stack × Call}

/-- An action is a step of one call, and that is its outcome. -/
structure Moves (s : Scheduler) (a : Action) (k : Nat) (c : Call) (r : Stack × Call) : Prop where
  stack : (s.perform a).stack = r.1
  moved : (s.perform a).calls[k]? = some r.2
  others : ∀ j, j ≠ k → (s.perform a).calls[j]? = s.calls[j]?
  count : ∀ p : Call → Bool, p (Call.new c.kind c.bus c.msg) = false →
    (s.perform a).calls.countP p + (if p c then 1 else 0) =
      s.calls.countP p + if p r.2 then 1 else 0
  here : (s.calls[k]? = some c ∧ c.wait? ≠ none) ∨
    (s.calls[k]? = none ∧ c = Call.new c.kind c.bus c.msg)
  quiet : ∀ i, a ≠ .receive i
  kind : r.2.kind = c.kind
  bus : r.2.bus = c.bus
  msg : r.2.msg.Repeats c.msg
  sound : r.2.IsSound
  reads : Reads s.stack c r
  asks : c.kind.reads = true → Asks s.stack c r

/-- What an action does that leaves the calls alone. -/
inductive Works (s : Scheduler) (a : Action) : Prop
  | nothing (hcalls : (s.perform a).calls = s.calls)
      (hsides : (s.perform a).stack.readerSides = s.stack.readerSides)
      (hquiet : ∀ i, a = .receive i → s.stack.readerAnswer? i = none)
  | answers {i : Nat} {entry response : Message} (ha : a = .receive i)
      (hanswer : s.stack.readerAnswer? i = some (entry, response))
      (hcalls : (s.perform a).calls = s.calls)
      (hsides : (s.perform a).stack.readerSides =
        s.stack.readerSides.modify i (ReaderSide.answered response))
  | closes (hcalls : (s.perform a).calls = s.calls)
      (hsides : (s.perform a).stack.readerSides = s.stack.readerSides.map ReaderSide.closed)
      (hstopped : (s.perform a).stack.stopped = true) (hquiet : ∀ i, a ≠ .receive i)

/-- What workers do leaves the calls alone. -/
theorem Works.calls (h : s.Works a) : (s.perform a).calls = s.calls := by
  cases h with
  | nothing hcalls | answers _ _ hcalls | closes hcalls => exact hcalls

/-- A step of a call keeps what its message asks for. -/
theorem repeats_of_serves {P : EnvelopeProperty} {t : Stack} (h : Serves P t c r) :
    r.2.msg.Repeats c.msg := by
  rcases h.msg with hmsg | ⟨channel, hmsg⟩
  · rw [hmsg]
    exact Message.Repeats.refl _
  · rw [hmsg]
    exact Message.Repeats.refl _

/-- A step of a call that has begun. -/
theorem moves_of_step {P : EnvelopeProperty} {step : Stack → Call → Stack × Call}
    (hc : s.calls[k]? = some c) (hwait : c.wait? ≠ none)
    (hperform : s.perform a = s.stepCall k step) (hquiet : ∀ i, a ≠ .receive i)
    (hserves : Serves P s.stack c (s.stack.aside fun stack => step stack c))
    (hsound : (s.stack.aside fun stack => step stack c).2.IsSound)
    (hreads : Reads s.stack c (s.stack.aside fun stack => step stack c))
    (hasks : c.kind.reads = true → Asks s.stack c (s.stack.aside fun stack => step stack c)) :
    Moves s a k c (s.stack.aside fun stack => step stack c) := by
  rcases stepCall_cases s k step with ⟨hnone, -⟩ | ⟨c', hc', hstep⟩
  · rw [hc] at hnone
    cases hnone
  · obtain rfl : c = c' := Option.some.inj (hc.symm.trans hc')
    rw [hstep] at hperform
    obtain ⟨hlt, -⟩ := List.getElem?_eq_some_iff.mp hc
    exact
      { stack := by rw [hperform]
        moved := by
          rw [hperform]
          exact List.getElem?_set_self hlt
        others := by
          intro j hj
          rw [hperform]
          exact List.getElem?_set_ne (Ne.symm hj)
        count := by
          intro p _
          rw [hperform]
          exact countP_set_add p _ hc
        here := .inl ⟨hc, hwait⟩
        quiet := hquiet
        kind := hserves.kind
        bus := hserves.bus
        msg := repeats_of_serves hserves
        sound := hsound
        reads := hreads
        asks := hasks }

/-- A call of the same kind that waits for no more than before is still sound. -/
theorem isSound_of_wait {c d : Call} (hkind : d.kind = c.kind)
    (h : c.kind.reads = false → d.waitsToRead = false) : d.IsSound := by
  intro hfalse
  rw [hkind] at hfalse
  exact h hfalse

/-- A call begins. -/
theorem moves_begin (s : Scheduler) (kind : CallKind) (bus : Nat) (m : Message) :
    s.Moves (.begin kind bus m) s.calls.length (Call.new kind bus m) (s.newCall kind bus m) := by
  have hserves := serves_aside (s := s.stack) (fun t =>
    serves_beginCall t (Call.new kind bus m) s.tickets)
  exact
    { stack := rfl
      moved := List.getElem?_concat_length
      others := by
        intro j hj
        simp only [perform]
        rcases Nat.lt_or_gt_of_ne hj with hlt | hgt
        · exact List.getElem?_append_left hlt
        · have hle : s.calls.length ≤ j := Nat.le_of_lt hgt
          rw [List.getElem?_append_right hle, List.getElem?_eq_none hle]
          exact List.getElem?_eq_none (Nat.sub_pos_of_lt hgt)
      count := by
        intro p hp
        have hnew : p (Call.new kind bus m) = false := hp
        simp only [perform, List.countP_append, List.countP_singleton, hnew, Bool.false_eq_true,
          if_false, Nat.add_zero]
      here := .inr ⟨List.getElem?_eq_none (Nat.le_refl _), rfl⟩
      quiet := by
        intro i h
        cases h
      kind := hserves.kind
      bus := hserves.bus
      msg := repeats_of_serves hserves
      sound := isSound_of_wait hserves.kind fun hkind => (passes_beginCall hkind s.tickets).waits
      reads := reads_aside (reads_beginCall rfl s.tickets)
      asks := fun hkind => asks_aside (asks_beginCall hkind s.tickets) }

/-- A look at a link does nothing for readers, or answers one. -/
theorem works_receive (s : Scheduler) (i : Nat) : s.Works (.receive i) := by
  have hsides := readerSides_receive s.stack i
  cases hanswer : s.stack.readerAnswer? i with
  | none =>
      rw [hanswer] at hsides
      refine .nothing rfl hsides ?_
      intro j hj
      cases hj
      exact hanswer
  | some pair =>
      obtain ⟨entry, response⟩ := pair
      rw [hanswer] at hsides
      exact .answers rfl hanswer rfl hsides

/-- **An action is a step of one call**, or leaves the calls alone and changes what readers see by a
response at most. -/
theorem moves_or_works (hsound : ∀ c ∈ s.calls, c.IsSound) (a : Action) :
    s.Works a ∨ ∃ k c r, s.Moves a k c r := by
  have hstay : ∀ {a}, s.perform a = s → (∀ i, a ≠ .receive i) → s.Works a := by
    intro a ha hquiet
    exact .nothing (by rw [ha]) (by rw [ha]) fun i hi => absurd hi (hquiet i)
  cases a with
  | begin kind bus m => exact .inr ⟨_, _, _, moves_begin s kind bus m⟩
  | resume k =>
      by_cases hready : s.calls[k]?.any s.stack.isReady = true
      -- The step is taken aside, with an empty journal, and readers do not see the journal.
      · obtain ⟨c, hc, hcready⟩ := (Option.any_eq_true ..).mp hready
        have hwait : c.wait? ≠ none := by
          intro hw
          simp [isReady, hw] at hcready
        have hserves := serves_aside (s := s.stack) (fun t => serves_resumeCall t c s.tickets)
        have hcsound := hsound c (List.mem_of_getElem? hc)
        refine .inr ⟨k, c, _, moves_of_step hc hwait (if_pos hready) (fun i h => by cases h)
          hserves ?_ ?_ fun hkind => asks_aside (asks_resumeCall hkind s.tickets)⟩
        · refine isSound_of_wait hserves.kind ?_
          intro hkind
          exact (passes_resumeCall (s := { s.stack with journal := [] }) hkind (hcsound hkind)
            hcready s.tickets).waits
        · exact reads_aside (reads_resumeCall (s := { s.stack with journal := [] }) hcsound hcready
            s.tickets)
      · exact .inl (hstay (if_neg hready) fun i h => by cases h)
  | abandon k =>
      by_cases hdeadline : s.calls[k]?.any (fun c => c.deadline?.isSome) = true
      · obtain ⟨c, hc, hcdeadline⟩ := (Option.any_eq_true ..).mp hdeadline
        obtain ⟨d, hd⟩ := Option.isSome_iff_exists.mp hcdeadline
        obtain ⟨w, hw, -⟩ := Option.bind_eq_some_iff.mp hd
        have hserves := serves_aside (s := s.stack) (fun t => serves_abandonCall Nothing t c)
        have hcsound := hsound c (List.mem_of_getElem? hc)
        refine .inr ⟨k, c, _, moves_of_step hc (by rw [hw]; exact Option.some_ne_none w)
          (if_pos hdeadline) (fun i h => by cases h) hserves ?_ ?_
          fun _ => asks_aside (asks_abandonCall _ c)⟩
        · refine isSound_of_wait hserves.kind ?_
          intro hkind
          exact (passes_abandonCall (s := { s.stack with journal := [] }) hkind (hcsound hkind)
            hw).waits
        · exact reads_aside (reads_abandonCall hcsound hw)
      · exact .inl (hstay (if_neg hdeadline) fun i h => by cases h)
  | receive i => exact .inl (works_receive s i)
  | stop =>
      refine .inl (.closes rfl ?_ rfl fun i h => by cases h)
      simp only [perform, onStack, Stack.stop, readerSides, List.map_map]
      rfl
  | transmitBegin i =>
      have hsides := readerSides_of_sides (sides_transmitBegin s.stack i)
      exact .inl (.nothing rfl hsides fun j h => by cases h)
  | transmitEnd i =>
      have hsides := readerSides_of_sides (sides_of_finishes (finishes_transmitEnd s.stack i))
      exact .inl (.nothing rfl hsides fun j h => by cases h)
  | finish i =>
      have hsides := readerSides_of_sides (sides_of_finishes (finishes_finishInHand s.stack i))
      exact .inl (.nothing rfl hsides fun j h => by cases h)
  | relink i link =>
      exact .inl (.nothing rfl (readerSides_onBus_same fun _ => rfl) fun j h => by cases h)
  | submitFromHost m =>
      exact .inl (.nothing rfl (queues_submitFromHost s.stack m).readerSides fun j h => by cases h)
  | notify m =>
      exact .inl (.nothing rfl (queues_notify Nothing s.stack m).readerSides fun j h => by cases h)
  | dispatch handler =>
      have hsides := readerSides_of_sides (sides_dispatchUpTo s.stack handler)
      exact .inl (.nothing rfl hsides fun j h => by cases h)
  | sweep =>
      exact .inl (.nothing rfl (readerSides_of_sides (sides_sweep s.stack)) fun j h => by cases h)
  | advance ms => exact .inl (.nothing rfl rfl fun j h => by cases h)

end Scheduler

end ManagementBus
