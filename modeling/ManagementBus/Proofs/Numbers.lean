import ManagementBus.Proofs.Building
import ManagementBus.Proofs.Pending
import ManagementBus.Proofs.Telling

/-!
# Sequence numbers in flight

A request draws its number when it is queued, and the number is in flight from the first half of its
write on. In between the number counts as free, and another request may draw it. If both come to
be pending then two entries of the ledger share a number, and the number is made free with the first
of them.

This is the only way in which the numbers in flight and the pending requests come apart: a ledger
stays tidy through every action but the one that takes such a request in hand.

## Main results

* `IsNumbered.perform`: an action keeps every ledger tidy, unless it records a request under a
  pending number.
* `not_ledgersExact_of_recordsPending`: where it does, a ledger is not exact.
-/

namespace ManagementBus

open EnvelopeProperty SequenceNumber

namespace Action

/-- The actions of those who send and read, of the workers and of the clock. What is answered is a
request, or its number fits into a frame. -/
def IsTraffic : Action → Prop
  | .begin kind _ m => kind = .sendResponse → m.isResponse = false ∨ m.seq.toNat < 64
  | .dispatch _ => False
  | _ => True

/-- Traffic in which only requests are answered. -/
def IsOrderly : Action → Prop
  | .begin kind _ m => kind = .sendResponse → m.isResponse = false
  | .dispatch _ => False
  | _ => True

/-- Orderly traffic is traffic. -/
theorem IsOrderly.isTraffic {a : Action} (h : a.IsOrderly) : a.IsTraffic := by
  cases a with
  | begin kind bus m =>
      intro hkind
      exact .inl (h hkind)
  | dispatch handler => exact h
  | resume | abandon | transmitBegin | transmitEnd | receive | relink | submitFromHost | notify
    | sweep | advance | stop | finish => trivial

end Action

namespace Scheduler

/-- The ledgers of all buses are exact. -/
def LedgersExact (s : Scheduler) : Prop :=
  ∀ (i : Nat) (l : Ledger), s.stack.ledger i = some l → l.IsExact

/-- Between two states a request has been taken in hand under the number of a pending request. -/
def RecordsPending (s t : Scheduler) : Prop :=
  ∃ (i : Nat) (b c : Bus) (e : Envelope), s.stack.buses[i]? = some b ∧
    t.stack.buses[i]? = some c ∧ b.inHand = none ∧ c.inHand = some e ∧ e.msg.isResponse = false ∧
      ∃ entry ∈ b.ledger.entries, entry.seqTarget = e.msg.seq

/-- The envelopes with which callers wait for room in the queue of a bus. -/
def rooms (s : Scheduler) (i : Nat) : List Envelope :=
  s.calls.filterMap fun c => if c.bus = i then c.room? else none

/-- The requests that wait for their write on a bus: in its queue, or with a caller. -/
def waitingRequests (s : Scheduler) (i : Nat) : List Envelope :=
  (((s.stack.buses[i]?.map fun b => b.outbound.items).getD []) ++ s.rooms i).filter
    fun e => !e.msg.isResponse

/-- The requests that wait on a bus have different numbers. -/
def NumbersDiffer (s : Scheduler) : Prop :=
  ∀ i, ((s.waitingRequests i).map fun e => e.msg.seq).Nodup

end Scheduler

/-! ### Numbers below sixty-four -/

/-- A request has a number that fits into a frame. -/
def Envelope.IsNumbered (e : Envelope) : Prop :=
  e.msg.isResponse = false → e.msg.seq.toNat < 64

/-- What a call answers is a request or has a number, and so has the request with which it waits. -/
structure Call.IsNumbered (c : Call) : Prop where
  answers : c.kind = .sendResponse → c.msg.isResponse = false ∨ c.msg.seq.toNat < 64
  room : ∀ e, c.room? = some e → e.IsNumbered

/-- The ledger of a bus is tidy, and its requests are numbered; that in hand is pending under its
own number. -/
structure Bus.IsNumbered (b : Bus) : Prop where
  tidy : b.ledger.Tidy
  queued : ∀ e ∈ b.outbound.items, e.IsNumbered
  hand : ∀ e, b.inHand = some e → e.IsNumbered ∧
    (e.msg.isResponse = false → e.msg.seqTarget = e.msg.seq)

namespace EnvelopeProperty

variable {busy : BitVec 64} {e : Envelope} {m : Message} {c : Call}

/-- A reply needs no number of its own. -/
theorem Reply.isNumbered (h : Reply busy e) : e.IsNumbered := by
  intro hrequest
  rw [h.2] at hrequest
  cases hrequest

/-- What comes from a channel has drawn its number, which fits into a frame. -/
theorem From.isNumbered {channel : Channel} (h : From channel busy e) : e.IsNumbered := by
  rcases h.2 with hresponse | ⟨-, n, hseq, -⟩
  · intro hrequest
    rw [hresponse] at hrequest
    cases hrequest
  · intro _
    rw [hseq, toNat_toByte]
    exact n.is_lt

/-- What a call sends is numbered, if the call answers only what is. -/
theorem isNumbered_of_sends
    (hc : c.kind = .sendResponse → c.msg.isResponse = false ∨ c.msg.seq.toNat < 64)
    (h : c.Sends busy e) : e.IsNumbered := by
  rw [Call.Sends] at h
  split at h
  · next hkind =>
      obtain ⟨b, rfl⟩ := h
      intro hrequest
      rcases hc hkind with hm | hsmall
      · have hresponse := b.isResponse_responseFor c.msg
        rw [hrequest, hm] at hresponse
        cases hresponse
      · exact hsmall
  · exact (From.of_requestOf h).isNumbered

/-- What a call queues is numbered. -/
theorem isNumbered_of_supplies (hc : c.IsNumbered) (h : c.Supplies busy e) : e.IsNumbered := by
  rcases h with hroom | hsends | ⟨channel, hsends⟩
  · exact hc.room e hroom
  · exact isNumbered_of_sends hc.answers hsends
  · exact isNumbered_of_sends (c := c.asReader channel) hc.answers hsends

end EnvelopeProperty

/-! ### What keeps requests numbered -/

/-- A ledger stays tidy when it loses entries. -/
theorem Ledger.Loses.tidy {l k : Ledger} (h : l.Loses k) (hl : l.Tidy) : k.Tidy := by
  induction h with
  | nothing => exact hl
  | answered p _ ih => exact ih.extract p
  | expired now timeout _ ih => exact ih.expire now timeout

namespace Bus

variable {P : EnvelopeProperty} {now : UInt32} {b c : Bus} {e : Envelope}

/-- A ledger stays tidy when its bus is extended. -/
theorem Extends.tidy (h : b.Extends P c) (hb : b.ledger.Tidy) : c.ledger.Tidy := by
  obtain ⟨cursor, hledger⟩ := h.ledger
  rw [hledger]
  exact hb.draw cursor

/-- What holds of the envelopes of a bus and of those that come holds of the queue afterwards. -/
theorem Extends.forall_queued {Q : Envelope → Prop} (h : b.Extends P c)
    (hb : ∀ e ∈ b.outbound.items, Q e) (hP : ∀ busy e, P busy e → Q e) :
    ∀ e ∈ c.outbound.items, Q e := by
  obtain ⟨added, hadded, hPadded⟩ := h.outbound
  rw [hadded]
  intro e he
  rcases List.mem_append.mp he with he | he
  · exact hb e he
  · exact hP _ e (hPadded e he)

/-- What is offered to a queue is the only new envelope in it. -/
theorem mem_offered {f : Envelope} (h : f ∈ (b.offered e).outbound.items) :
    f ∈ b.outbound.items ∨ f = e := by
  have hoffered : (b.offered e).outbound = (b.outbound.put e).1 := rfl
  rw [hoffered] at h
  rcases b.outbound.put_cases e with ⟨-, hput⟩ | ⟨-, hput⟩
  · rw [hput] at h
    simpa using h
  · rw [hput] at h
    exact .inl h

/-- A failed write keeps a bus numbered. -/
theorem IsNumbered.undelivered (h : b.IsNumbered) (e : Envelope) :
    (b.undelivered e).IsNumbered where
  tidy := by
    rw [Bus.undelivered]
    split
    · exact h.tidy
    · exact h.tidy.extract _
  queued := h.queued
  hand := by
    intro f hf
    cases hf

/-- **A change of a bus keeps its requests numbered**, unless a request is recorded under the number
of a pending one. -/
theorem IsNumbered.changes (h : b.IsNumbered) (hP : ∀ busy e, P busy e → e.IsNumbered)
    (hfree : ∀ e, b.inHand = none → c.inHand = some e → e.msg.isResponse = false →
      ∀ entry ∈ b.ledger.entries, entry.seqTarget ≠ e.msg.seq)
    (hc : b.Changes P now c) : c.IsNumbered := by
  cases hc with
  | grows hgrows =>
      obtain ⟨l, hloses, hext⟩ := hgrows
      refine ⟨hext.tidy (hloses.tidy h.tidy), hext.forall_queued h.queued hP, ?_⟩
      intro e he
      rw [hext.inHand] at he
      exact h.hand e he
  | drops hidle hitems hresponse =>
      refine ⟨h.tidy, fun e he => h.queued e ?_, ?_⟩
      · rw [hitems]
        exact List.mem_cons_of_mem _ he
      · intro e he
        have hnone : b.inHand = some e := he
        rw [hidle] at hnone
        cases hnone
  | @holds e rest hidle hitems hresponse =>
      refine ⟨h.tidy, fun f hf => h.queued f ?_, ?_⟩
      · rw [hitems]
        exact List.mem_cons_of_mem _ hf
      · intro f hf
        obtain rfl : e.addressed b = f := Option.some.inj hf
        have hresponse' : (e.addressed b).msg.isResponse = true := hresponse
        refine ⟨fun hrequest => ?_, fun hrequest => ?_⟩
        · rw [hresponse'] at hrequest
          cases hrequest
        · rw [hresponse'] at hrequest
          cases hrequest
  | @stages e rest hidle hitems hrequest =>
      have hsmall : e.msg.seq.toNat < 64 := by
        refine h.queued e ?_ hrequest
        rw [hitems]
        exact List.mem_cons_self
      -- The only case in which an entry is added: it must not take the number of another one.
      have hnumber := hfree e.staged hidle rfl hrequest
      have hslot : b.ledger.numbers.isBusy (Ledger.slot e.staged.msg) = false := by
        rw [← Bool.not_eq_true, h.tidy.busy]
        rintro ⟨entry, hentry, hslot⟩
        refine hnumber entry hentry ?_
        rw [(h.tidy.slot_eq_iff hentry _).mp hslot]
        exact toByte_ofByte hsmall
      refine ⟨h.tidy.stage hsmall hslot now, fun f hf => h.queued f ?_, ?_⟩
      · rw [hitems]
        exact List.mem_cons_of_mem _ hf
      · intro f hf
        obtain rfl : e.staged = f := Option.some.inj hf
        exact ⟨fun _ => hsmall, fun _ => rfl⟩
  | @delivers e hhand =>
      refine ⟨?_, h.queued, ?_⟩
      · rw [delivered]
        split
        · exact h.tidy
        · exact h.tidy.commit
      · intro f hf
        cases hf
  | @retries e hhand =>
      refine ⟨(h.undelivered e).tidy, ?_, ?_⟩
      · intro f hf
        rcases mem_offered hf with hf | rfl
        · exact h.queued f hf
        · exact (h.hand e hhand).1
      · intro f hf
        cases hf
  | @gives e c hhand hext =>
      refine ⟨hext.tidy (h.undelivered e).tidy, ?_, ?_⟩
      · exact hext.forall_queued h.queued fun _ _ => Reply.isNumbered
      · intro f hf
        rw [hext.inHand] at hf
        cases hf
  | closes => exact ⟨h.tidy, h.queued, h.hand⟩

/-- A request that has come in hand was the oldest envelope of the queue, and is recorded now. -/
theorem Changes.exists_staged (hc : b.Changes P now c) (hidle : b.inHand = none)
    (hhand : c.inHand = some e) (hrequest : e.msg.isResponse = false) :
    ∃ f rest, b.outbound.items = f :: rest ∧ c = (b.withItems rest).staging f.staged now := by
  cases hc with
  | grows hgrows =>
      rw [hgrows.inHand, hidle] at hhand
      cases hhand
  | drops | closes =>
      have hnone : b.inHand = some e := hhand
      rw [hidle] at hnone
      cases hnone
  | @holds f rest _ _ hresponse =>
      obtain rfl : f.addressed b = e := Option.some.inj hhand
      have hresponse' : (f.addressed b).msg.isResponse = true := hresponse
      rw [hresponse'] at hrequest
      cases hrequest
  | stages _ hitems => exact ⟨_, _, hitems, rfl⟩
  | delivers | retries => cases hhand
  | gives _ hext =>
      rw [hext.inHand] at hhand
      cases hhand

end Bus

namespace Scheduler

/-- The requests of a state are numbered. -/
structure IsNumbered (s : Scheduler) : Prop where
  buses : ∀ (i : Nat) (b : Bus), s.stack.buses[i]? = some b → b.IsNumbered
  calls : ∀ c ∈ s.calls, c.IsNumbered

variable {s : Scheduler} {a : Action} {i : Nat} {busy : BitVec 64} {e : Envelope}

/-- A step leaves a call the direction and the number of its message. -/
theorem isResponse_of_serves {P : EnvelopeProperty} {t : Stack} {c : Call} {r : Stack × Call}
    (h : Stack.Serves P t c r) :
    r.2.msg.isResponse = c.msg.isResponse ∧ r.2.msg.seq = c.msg.seq := by
  rcases h.msg with hmsg | ⟨channel, hmsg⟩
  · rw [hmsg]
    exact ⟨rfl, rfl⟩
  · rw [hmsg]
    exact ⟨rfl, rfl⟩

/-- A call that begins in traffic. -/
theorem isNumbered_new {kind : CallKind} {bus : Nat} {m : Message}
    (ha : (Action.begin kind bus m).IsTraffic) : (Call.new kind bus m).IsNumbered where
  answers := ha
  room := by
    intro e he
    cases he

/-- The calls of which an action takes a step are numbered. -/
theorem IsNumbered.call (h : s.IsNumbered) (ha : a.IsTraffic) {c : Call}
    (hc : c ∈ s.calls ∨ ∃ kind bus m, a = .begin kind bus m ∧ c = Call.new kind bus m) :
    c.IsNumbered := by
  rcases hc with hc | ⟨kind, bus, m, rfl, rfl⟩
  · exact h.calls c hc
  · exact isNumbered_new ha

/-- The envelopes with which callers wait are numbered. -/
theorem IsNumbered.of_rooms (h : s.IsNumbered) (he : e ∈ s.rooms i) : e.IsNumbered := by
  obtain ⟨c, hc, hroom⟩ := List.mem_filterMap.mp he
  split at hroom
  · exact (h.calls c hc).room e hroom
  · cases hroom

/-- What an action queues is numbered. -/
theorem IsNumbered.supplied (h : s.IsNumbered) (ha : a.IsTraffic) (he : s.Supplied i a busy e) :
    e.IsNumbered := by
  cases a with
  | begin kind bus m => exact isNumbered_of_supplies (isNumbered_new ha) he.2
  | resume k =>
      obtain ⟨c, hc, -, hsupplies⟩ := he
      exact isNumbered_of_supplies (h.calls c (List.mem_of_getElem? hc)) hsupplies
  | transmitEnd | finish =>
      have hreply : Reply busy e := he
      exact hreply.isNumbered
  | receive | submitFromHost => exact From.isNumbered he
  | dispatch handler => exact ha.elim
  | abandon | transmitBegin | relink | notify | sweep | advance | stop => exact he.elim

/-- **An action keeps the requests of a state numbered**, unless it records one under the number of
a pending one. -/
theorem IsNumbered.perform (h : s.IsNumbered) (ha : a.IsTraffic)
    (hfree : ¬s.RecordsPending (s.perform a)) : (s.perform a).IsNumbered where
  buses := by
    intro i c hc
    obtain ⟨b, hb, hchanges⟩ := exists_bus_before_perform hc
    refine (h.buses i b hb).changes (fun _ _ => h.supplied ha) ?_ hchanges
    intro e hidle hhand hrequest entry hentry heq
    exact hfree ⟨i, b, c, e, hb, hc, hidle, hhand, hrequest, entry, hentry, heq⟩
  calls := by
    intro d hd
    rcases mem_calls_perform hd with hd | ⟨c, r, hserves, rfl, hc⟩
    · exact h.calls d hd
    · have hcall := h.call ha hc
      obtain ⟨hresponse, hseq⟩ := isResponse_of_serves hserves
      refine ⟨fun hkind => ?_, fun e he => ?_⟩
      · rw [hresponse, hseq]
        exact hcall.answers (hserves.kind ▸ hkind)
      · rcases hserves.room e he with hroom | ⟨b, -, hsupplies⟩
        · exact hcall.room e hroom
        · exact isNumbered_of_supplies hcall hsupplies

/-- **Where requests are numbered, ledgers are exact.** -/
theorem IsNumbered.ledgersExact (h : s.IsNumbered) : s.LedgersExact := by
  intro i l hl
  obtain ⟨b, hb, rfl⟩ := Option.map_eq_some_iff.mp hl
  exact (h.buses i b hb).tidy.isExact

/-- **Where a request is recorded under the number of a pending one, a ledger is not exact.** -/
theorem not_ledgersExact_of_recordsPending (h : s.RecordsPending (s.perform a)) :
    ¬(s.perform a).LedgersExact := by
  obtain ⟨i, b, c, e, hb, hc, hidle, hhand, hrequest, entry, hentry, heq⟩ := h
  obtain ⟨c', hc', hchanges⟩ := s.perform_changes a hb
  obtain rfl : c = c' := Option.some.inj (hc.symm.trans hc')
  obtain ⟨f, rest, hitems, rfl⟩ := hchanges.exists_staged hidle hhand hrequest
  intro hexact
  have hledger : (s.perform a).stack.ledger i =
      some ((b.withItems rest).staging f.staged s.stack.clock.now).ledger := by
    rw [Stack.ledger, hc]
    rfl
  obtain rfl : f.staged = e := Option.some.inj hhand
  have hnodup := (hexact i _ hledger).1
  have hentries : ((b.withItems rest).staging f.staged s.stack.clock.now).ledger.entries =
      b.ledger.entries ++ [{ f.staged.msg with timestamp := s.stack.clock.now }] := rfl
  rw [hentries, List.map_append, List.nodup_append] at hnodup
  exact hnodup.2.2 _ (List.mem_map_of_mem hentry) _ (List.mem_singleton_self _) heq

end Scheduler

end ManagementBus
