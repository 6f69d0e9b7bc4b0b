import Mathlib.Data.List.Forall2
import ManagementBus.Proofs.Numbering
import ManagementBus.Proofs.Queueing
import ManagementBus.Stack.Dispatch
import ManagementBus.Stack.Receive
import ManagementBus.Stack.Transmit

/-!
# What sending does

Bridging, relaying, answering and reporting all end in a message that is queued on some bus. This
module says once what that does to a stack: `Stack.Sends P s t` states that the buses of `t` are
those of `s` with some envelopes at the end of their transmit queues and perhaps a number drawn,
that every such envelope has the property `P`, and that nothing else has changed but the journal
and the time that callers have waited.

The property may depend on the numbers in flight on the bus, so that a drawn number can be said to
have been free.

## Main results

* `enqueue_cases`: what becomes of an envelope that is offered to a queue.
* `sendRequest_outcome`, `sendResponse_outcome`, `trySendResponse_outcome`: the ways in which a
  message is queued.
-/

namespace ManagementBus

/-- A property of the envelopes queued on a bus with certain numbers in flight. -/
abbrev EnvelopeProperty := BitVec 64 → Envelope → Prop

namespace EnvelopeProperty

/-- A property that no envelope has. -/
def Nothing : EnvelopeProperty := fun _ _ => False

/-- The numbers in flight leave one free. -/
def HasFree (busy : BitVec 64) : Prop := ∃ n : SequenceNumber, busy.getLsbD n = false

/-- The request made of a message, under a number that is free if any is. -/
def requestOf (m : Message) : EnvelopeProperty := fun busy e =>
  ∃ (b : Bus) (n : SequenceNumber), e = { msg := b.requestFor m n } ∧
    (HasFree busy → busy.getLsbD n = false)

/-- The response made of a message. -/
def responseTo (m : Message) : EnvelopeProperty := fun _ e =>
  ∃ b : Bus, e = { msg := b.responseFor m }

end EnvelopeProperty

/-! ### Buses -/

namespace Bus

/-- A bus with its cursor moved and some envelopes more to transmit. -/
def queued (b : Bus) (cursor : SequenceNumber) (added : List Envelope) : Bus :=
  { b with
    ledger := { b.ledger with numbers := { b.ledger.numbers with cursor } }
    outbound := { b.outbound with items := b.outbound.items ++ added } }

/-- One bus differs from another in the cursor and in envelopes added, which have a property. -/
def Queues (P : EnvelopeProperty) (b c : Bus) : Prop :=
  ∃ cursor added, c = b.queued cursor added ∧ ∀ e ∈ added, P b.ledger.numbers.busy e

variable {P Q : EnvelopeProperty} {b c d : Bus}

/-- A bus on which nothing is queued. -/
theorem Queues.refl (P : EnvelopeProperty) (b : Bus) : Queues P b b := by
  refine ⟨b.ledger.numbers.cursor, [], ?_, by simp⟩
  simp [queued]

/-- What is queued in two steps is queued in one after the other. -/
theorem Queues.trans (hbc : Queues P b c) (hcd : Queues P c d) : Queues P b d := by
  obtain ⟨m, es, rfl, hes⟩ := hbc
  obtain ⟨n, fs, rfl, hfs⟩ := hcd
  refine ⟨n, es ++ fs, by simp [queued], ?_⟩
  intro e he
  rcases List.mem_append.mp he with he | he
  · exact hes e he
  · exact hfs e he

/-- A property of the envelopes may be weakened. -/
theorem Queues.mono (h : Queues P b c) (hPQ : ∀ busy e, P busy e → Q busy e) : Queues Q b c := by
  obtain ⟨n, es, rfl, hes⟩ := h
  exact ⟨n, es, rfl, fun e he => hPQ _ e (hes e he)⟩

end Bus

/-! ### Lists of buses -/

section Forall2

variable {α : Type} {R : α → α → Prop}

/-- A change of one element relates a list to the changed list. -/
theorem forall₂_modify (hrefl : ∀ a, R a a) {l : List α} {i : Nat} {f : α → α}
    (hf : ∀ a, l[i]? = some a → R a (f a)) : List.Forall₂ R l (l.modify i f) := by
  induction l generalizing i with
  | nil => simp
  | cons a l ih =>
      cases i with
      | zero => simpa using ⟨hf a rfl, fun b _ => hrefl b⟩
      | succ i =>
          simp only [List.modify_succ_cons, List.forall₂_cons]
          exact ⟨hrefl a, ih fun b hb => hf b hb⟩

/-- Lists that are related to one list element by element are related to each other. -/
theorem forall₂_trans (htrans : ∀ a b c, R a b → R b c → R a c) {l₁ l₂ l₃ : List α}
    (h₁ : List.Forall₂ R l₁ l₂) (h₂ : List.Forall₂ R l₂ l₃) : List.Forall₂ R l₁ l₃ := by
  induction h₁ generalizing l₃ with
  | nil => exact h₂
  | cons hab _ ih =>
      cases h₂ with
      | cons hbc hrest => exact .cons (htrans _ _ _ hab hbc) (ih hrest)

/-- Related lists are related at each position. -/
theorem exists_getElem?_of_forall₂ {l₁ l₂ : List α} (h : List.Forall₂ R l₁ l₂) {i : Nat} {a : α}
    (ha : l₁[i]? = some a) : ∃ b, l₂[i]? = some b ∧ R a b := by
  induction h generalizing i with
  | nil => simp at ha
  | cons hab _ ih =>
      cases i with
      | zero =>
          obtain rfl : _ = a := by simpa using ha
          exact ⟨_, rfl, hab⟩
      | succ i => exact ih (by simpa using ha)

end Forall2

namespace Stack

open EnvelopeProperty

/-- Some messages with a property have been queued, and nothing else has happened but reports and
waiting. -/
structure Sends (P : EnvelopeProperty) (s t : Stack) : Prop where
  buses : List.Forall₂ (Bus.Queues P) s.buses t.buses
  rest : t = { s with buses := t.buses, journal := t.journal, waited := t.waited }

variable {P Q : EnvelopeProperty} {s t u : Stack}

namespace Sends

/-- A step that sends nothing. -/
theorem refl (P : EnvelopeProperty) (s : Stack) : Sends P s s :=
  ⟨List.forall₂_same.mpr fun b _ => Bus.Queues.refl P b, rfl⟩

/-- Sending twice is sending. -/
theorem trans (h₁ : Sends P s t) (h₂ : Sends P t u) : Sends P s u := by
  have htrans : ∀ b c d, Bus.Queues P b c → Bus.Queues P c d → Bus.Queues P b d :=
    fun _ _ _ => Bus.Queues.trans
  refine ⟨forall₂_trans htrans h₁.buses h₂.buses, ?_⟩
  rw [h₂.rest, h₁.rest]

/-- A property of what is sent may be weakened. -/
theorem mono (h : Sends P s t) (hPQ : ∀ busy e, P busy e → Q busy e) : Sends Q s t :=
  ⟨h.buses.imp fun _ _ hb => hb.mono hPQ, h.rest⟩

/-- What is reported after sending makes no difference. -/
theorem report (h : Sends P s t) (es : List Event) : Sends P s (t.report es) :=
  ⟨h.buses, by rw [h.rest]; rfl⟩

/-- A report after sending makes no difference. -/
theorem emit (h : Sends P s t) (e : Event) : Sends P s (t.emit e) :=
  h.report [e]

/-- Sending does not write to the host. -/
theorem kcs (h : Sends P s t) : t.kcs = s.kcs := by rw [h.rest]

/-- Sending leaves alone what waits for the dispatcher. -/
theorem requests (h : Sends P s t) : t.requests = s.requests := by rw [h.rest]

/-- Sending does not change the settings of the stack. -/
theorem timing (h : Sends P s t) : t.timing = s.timing := by rw [h.rest]

/-- Sending does not change the policy of the board. -/
theorem policy (h : Sends P s t) : t.policy = s.policy := by rw [h.rest]

/-- Sending does not shut the stack down. -/
theorem stopped (h : Sends P s t) : t.stopped = s.stopped := by rw [h.rest]

/-- Sending does not move the clock. -/
theorem clock (h : Sends P s t) : t.clock = s.clock := by rw [h.rest]

/-- Each bus is still there, with some envelopes more. -/
theorem exists_queued (h : Sends P s t) {i : Nat} {b : Bus} (hb : s.buses[i]? = some b) :
    ∃ cursor added, t.buses[i]? = some (b.queued cursor added) ∧
      ∀ e ∈ added, P b.ledger.numbers.busy e := by
  obtain ⟨c, hc, cursor, added, rfl, hadded⟩ := exists_getElem?_of_forall₂ h.buses hb
  exact ⟨cursor, added, hc, hadded⟩

/-- A change of one bus that only queues envelopes. -/
theorem onBus {i : Nat} {f : Bus → Bus} (hf : ∀ b, s.buses[i]? = some b → Bus.Queues P b (f b)) :
    Sends P s (s.onBus i f) :=
  ⟨forall₂_modify (Bus.Queues.refl P) hf, rfl⟩

end Sends

/-! ### The steps of a send -/

/-- Exactly one message has been queued, on one bus. -/
def SendsOne (i : Nat) (P : EnvelopeProperty) (s t : Stack) : Prop :=
  ∃ b cursor e, s.buses[i]? = some b ∧ P b.ledger.numbers.busy e ∧
    t = { s.onBus i (·.queued cursor [e]) with journal := t.journal, waited := t.waited }

/-- Whoever sends one message sends only such messages. -/
theorem SendsOne.sends {i : Nat} (h : SendsOne i P s t) : Sends P s t := by
  obtain ⟨b, cursor, e, hb, he, ht⟩ := h
  have hsends : Sends P s (s.onBus i (·.queued cursor [e])) := by
    refine Sends.onBus ?_
    intro c hc
    obtain rfl : b = c := Option.some.inj (hb.symm.trans hc)
    exact ⟨cursor, [e], rfl, by simpa using he⟩
  refine ⟨by rw [ht]; exact hsends.buses, ?_⟩
  rw [ht]
  rfl

/-- A property of the one message may be weakened. -/
theorem SendsOne.mono {i : Nat} (h : SendsOne i P s t) (hPQ : ∀ busy e, P busy e → Q busy e) :
    SendsOne i Q s t := by
  obtain ⟨b, cursor, e, hb, he, ht⟩ := h
  exact ⟨b, cursor, e, hb, hPQ _ _ he, ht⟩

/-- The bus at an index that carries traffic is the bus at that index. -/
theorem getElem?_of_usableBus {i : Nat} {b : Bus} (h : s.usableBus i = .ok b) :
    s.buses[i]? = some b ∧ b.config.isUsable = true := by
  simp only [usableBus] at h
  split at h
  · cases h
  · next c hc =>
      split at h
      · next hu =>
          cases h
          exact ⟨hc, hu⟩
      · cases h

/-- Only what becomes of the bus that is there matters in a change of it. -/
theorem onBus_congr {i : Nat} {b : Bus} {f g : Bus → Bus} (hb : s.buses[i]? = some b)
    (h : f b = g b) : s.onBus i f = s.onBus i g := by
  have hbuses : s.buses.modify i f = s.buses.modify i g := by
    refine List.ext_getElem? ?_
    intro j
    rw [List.getElem?_modify, List.getElem?_modify]
    by_cases hij : i = j
    · subst hij
      simp [hb, h]
    · simp [hij]
  simp only [onBus, hbuses]

/-- Two changes of one bus are one. -/
theorem onBus_onBus (s : Stack) (i : Nat) (f g : Bus → Bus) :
    (s.onBus i f).onBus i g = s.onBus i (g ∘ f) := by
  simp [onBus, List.modify_modify_eq]

/-- Whoever does not get a lock sends nothing. -/
theorem sends_denyLock (P : EnvelopeProperty) (s : Stack) (i : Nat) (lock : Lock) :
    Sends P s (s.denyLock i lock).1 :=
  ⟨(Sends.refl P s).buses, rfl⟩

/-- An envelope is queued, or the stack is as it was. -/
theorem enqueue_cases {i : Nat} {b : Bus} (hb : s.buses[i]? = some b) (e : Envelope) :
    ((s.enqueue i b e).2 = .accepted ∧
        (s.enqueue i b e).1 = s.onBus i (·.queued b.ledger.numbers.cursor [e])) ∨
      ((s.enqueue i b e).2 ≠ .accepted ∧ (s.enqueue i b e).1 = s) := by
  have henqueue : s.enqueue i b e =
      (s.onBus i fun b' => { b' with outbound := (b.outbound.put e).1 }, (b.outbound.put e).2) :=
    rfl
  rcases b.outbound.put_cases e with ⟨hput, hqueue⟩ | ⟨hput, hqueue⟩
  · refine .inl ⟨by rw [henqueue]; exact hput, ?_⟩
    rw [henqueue]
    refine onBus_congr hb ?_
    rw [hqueue]
    rfl
  · refine .inr ⟨by rw [henqueue]; exact hput, ?_⟩
    have hid : (s.onBus i fun b' => { b' with outbound := (b.outbound.put e).1 }) = s.onBus i id :=
      onBus_congr hb (by rw [hqueue]; rfl)
    rw [henqueue, hid]
    simp [onBus]

/-- Only what has been put into a queue counts as a success. -/
theorem outcome_eq_ok_iff (p : Put) : p.outcome = .ok () ↔ p = .accepted := by
  cases p <;> simp [Put.outcome]

/-! ### Sending -/

/-- What an operation that queues a message may come to: nothing has been queued and it has failed,
or one message has been queued on a bus and it has not. -/
def SendOutcome (i : Nat) (P : EnvelopeProperty) (s : Stack) (r : Stack × Except Fault Unit) :
    Prop :=
  (r.2 = .ok () ∧ SendsOne i P s r.1) ∨ ((∃ fault, r.2 = .error fault) ∧ Sends Nothing s r.1)

/-- Whatever comes of a send, no other messages are queued by it. -/
theorem SendOutcome.sends {i : Nat} {r : Stack × Except Fault Unit} (h : SendOutcome i P s r) :
    Sends P s r.1 := by
  rcases h with ⟨-, hone⟩ | ⟨-, hnone⟩
  · exact hone.sends
  · exact hnone.mono fun _ _ hfalse => hfalse.elim

/-- A send whose item is not accepted fails. -/
theorem exists_error_of_outcome {p : Put} (h : p ≠ .accepted) :
    ∃ fault, p.outcome = .error fault := by
  cases p with
  | accepted => exact absurd rfl h
  | full => exact ⟨_, rfl⟩
  | closed => exact ⟨_, rfl⟩

/-- A number drawn is free if any is. -/
theorem free_of_draw (b : Bus) (h : HasFree b.ledger.numbers.busy) :
    b.ledger.numbers.busy.getLsbD b.ledger.nextSequence.2 = false := by
  obtain ⟨n, hn⟩ := h
  exact SequenceTable.isBusy_next_of_free (t := b.ledger.numbers) hn

/-- A drawn request that is put into the queue is in it, or only the number is drawn. -/
theorem enqueue_drawRequest_cases {i : Nat} {b : Bus} (hb : s.buses[i]? = some b) (m : Message) :
    let drawn := s.drawRequest i b m
    let queued := drawn.1.enqueue i b drawn.2
    (queued.2 = .accepted ∧ SendsOne i (requestOf m) s queued.1) ∨
      (queued.2 ≠ .accepted ∧ queued.1 = drawn.1) := by
  intro drawn queued
  have hb' : drawn.1.buses[i]? = some { b with ledger := b.ledger.nextSequence.1 } := by
    have hself := s.buses_onBus_self i fun c => { c with ledger := b.ledger.nextSequence.1 }
    rw [hb] at hself
    exact hself
  rcases enqueue_cases hb' drawn.2 with ⟨hput, ht⟩ | ⟨hput, ht⟩
  · refine .inl ⟨hput, b, b.ledger.numbers.next.2, drawn.2, hb, ⟨b, _, rfl, free_of_draw b⟩, ?_⟩
    have hqueued : queued.1 = drawn.1.onBus i (·.queued b.ledger.numbers.next.2 [drawn.2]) := ht
    have hcongr : (s.onBus i fun c => { c with ledger := b.ledger.nextSequence.1 }).onBus i
        (·.queued b.ledger.numbers.next.2 [drawn.2]) =
          s.onBus i (·.queued b.ledger.numbers.next.2 [drawn.2]) := by
      rw [onBus_onBus]
      exact onBus_congr hb rfl
    rw [hqueued, ← hcongr]
    rfl
  · exact .inr ⟨hput, ht⟩

/-- Drawing a number for a request does not queue it yet. -/
theorem sends_drawRequest {i : Nat} {b : Bus} (P : EnvelopeProperty) (hb : s.buses[i]? = some b)
    (m : Message) : Sends P s (s.drawRequest i b m).1 := by
  refine Sends.report (Sends.onBus ?_) _
  intro c hc
  obtain rfl : b = c := Option.some.inj (hb.symm.trans hc)
  refine ⟨b.ledger.numbers.next.2, [], ?_, by simp⟩
  simp [Bus.queued, SequenceTable.next]

/-- **A request is queued under a number that is free if any is, or not at all.** -/
theorem sendRequest_outcome (s : Stack) (m : Message) (i : Nat) :
    SendOutcome i (requestOf m) s (s.sendRequest m i) := by
  rw [sendRequest]
  split
  · exact .inr ⟨⟨_, rfl⟩, Sends.refl _ s⟩
  · next b hbus =>
      obtain ⟨hb, -⟩ := getElem?_of_usableBus hbus
      split
      · exact .inr ⟨⟨_, rfl⟩, sends_denyLock _ s i _⟩
      · rcases enqueue_drawRequest_cases hb m with ⟨hput, hone⟩ | ⟨hput, ht⟩
        · exact .inl ⟨(outcome_eq_ok_iff _).mpr hput, hone⟩
        · refine .inr ⟨exists_error_of_outcome hput, ?_⟩
          have hdraw := sends_drawRequest Nothing hb m
          rwa [← ht] at hdraw

/-- The response to a message is queued, or the send fails and nothing is queued. -/
theorem enqueue_response_outcome {i : Nat} {b : Bus} (hb : s.buses[i]? = some b) (m : Message) :
    let queued := s.enqueue i b { msg := b.responseFor m }
    (queued.2 = .accepted ∧ SendsOne i (responseTo m) s queued.1) ∨
      (queued.2 ≠ .accepted ∧ queued.1 = s) := by
  intro queued
  rcases enqueue_cases hb { msg := b.responseFor m } with ⟨hput, ht⟩ | ⟨hput, ht⟩
  · refine .inl ⟨hput, b, b.ledger.numbers.cursor, _, hb, ⟨b, rfl⟩, ?_⟩
    have hqueued : queued.1 =
        s.onBus i (·.queued b.ledger.numbers.cursor [{ msg := b.responseFor m }]) := ht
    rw [hqueued]
  · exact .inr ⟨hput, ht⟩

/-- **A response is queued, or nothing is.** -/
theorem sendResponse_outcome (s : Stack) (m : Message) (i : Nat) :
    SendOutcome i (responseTo m) s (s.sendResponse m i) := by
  rw [sendResponse]
  split
  · exact .inr ⟨⟨_, rfl⟩, Sends.refl _ s⟩
  · next b hbus =>
      obtain ⟨hb, -⟩ := getElem?_of_usableBus hbus
      split
      · exact .inr ⟨⟨_, rfl⟩, sends_denyLock _ s i _⟩
      · rcases enqueue_response_outcome hb m with ⟨hput, hone⟩ | ⟨hput, ht⟩
        · exact .inl ⟨(outcome_eq_ok_iff _).mpr hput, hone⟩
        · refine .inr ⟨exists_error_of_outcome hput, ?_⟩
          have hunchanged : Sends Nothing s (s.enqueue i b { msg := b.responseFor m }).1 := by
            rw [ht]
            exact Sends.refl _ s
          exact hunchanged

/-- A response that does not wait for room is queued, or dropped with a report. -/
theorem trySendResponse_outcome (s : Stack) (m : Message) (i : Nat) :
    SendOutcome i (responseTo m) s (s.trySendResponse m i) := by
  rw [trySendResponse]
  split
  · exact .inr ⟨⟨_, rfl⟩, Sends.refl _ s⟩
  · next b hbus =>
      obtain ⟨hb, -⟩ := getElem?_of_usableBus hbus
      split
      · exact .inr ⟨⟨_, rfl⟩, sends_denyLock _ s i _⟩
      · have hcases := enqueue_response_outcome hb m
        split
        · next t heq =>
            simp only [heq] at hcases
            rcases hcases with ⟨-, hone⟩ | ⟨hput, -⟩
            · exact .inl ⟨rfl, hone⟩
            · exact absurd rfl hput
        · next t p hp heq =>
            simp only [heq] at hcases
            rcases hcases with ⟨hput, -⟩ | ⟨-, ht⟩
            · exact absurd hput hp
            · rw [ht]
              exact .inr ⟨⟨_, rfl⟩, (Sends.refl _ s).emit _⟩

end Stack

end ManagementBus
