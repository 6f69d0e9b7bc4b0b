import ManagementBus.Proofs.Following

/-!
# What each action does to a ledger

Of all that an action does only a few things concern the requests pending on a bus: the transmit
worker stages one, withdraws it or commits it, a response settles one, a sweep drops those that are
overdue. `LedgerStep` has a case for each of these and one for everything else, and says when the
case arises and what the ledger is afterwards. A commit is the only case in which the ledger may
drop an entry because it is over capacity.

## Main results

* `Scheduler.ledgerStep`: what an action does to the ledger of a bus and to the request in hand.
* `Scheduler.accounted_after`: in every run the numbers in flight are those of pending requests.
-/

namespace ManagementBus

/-- A message as it is recorded at a tick. -/
def Message.recordedAt (m : Message) (tick : UInt32) : Message := { m with timestamp := tick }

/-- The request of a bus whose write has begun and not ended. -/
def Bus.requestInHand? (b : Bus) : Option Envelope :=
  b.inHand.filter fun e => !e.msg.isResponse

/-- At most numbers have been drawn from a ledger. -/
def Ledger.Draws (l k : Ledger) : Prop :=
  ∃ cursor, k = { l with numbers := { l.numbers with cursor } }

/-- **What an action does to the ledger of a bus and to the request in hand.** The bus number `i` of
a stack is `b` before an action, and `c` after it; the list has what has been dropped because the
ledger was over capacity. -/
inductive LedgerStep (s : Stack) (i : Nat) (a : Action) (b c : Bus) : List Message → Prop
  | keeps (hledger : b.ledger.Draws c.ledger) (hhand : c.requestInHand? = b.requestInHand?) :
      LedgerStep s i a b c []
  /-- The worker takes a request in hand. -/
  | stages {e : Envelope} (htakes : s.takes? i a = some e) (hrequest : e.msg.isResponse = false)
      (hidle : b.requestInHand? = none)
      (hledger : (b.ledger.stage e.staged.msg s.clock.now).Draws c.ledger)
      (hhand : c.requestInHand? = some e.staged) : LedgerStep s i a b c []
  /-- A response is heard that answers a pending request. -/
  | settles {m entry : Message} (ha : a = .receive i) (hheard : s.heard? i = some m)
      (hresponse : m.isResponse = true) (hentry : b.pendingFor? m = some entry)
      (hledger : (b.ledger.extract m.answers).1.Draws c.ledger)
      (hhand : c.requestInHand? = b.requestInHand?) : LedgerStep s i a b c []
  | expires (ha : a = .sweep) (husable : b.config.isUsable = true)
      (hledger :
        (b.ledger.expire s.clock.now s.timing.requestTimeoutTicks).1.Draws c.ledger)
      (hhand : c.requestInHand? = b.requestInHand?) : LedgerStep s i a b c []
  /-- The write of a request has failed. -/
  | withdraws {e : Envelope} (hends : s.ends? i a = some e) (hbefore : b.requestInHand? = some e)
      (hfails : b.delivers e = false) (hledger : (b.ledger.withdraw e.msg).1.Draws c.ledger)
      (hhand : c.requestInHand? = none) : LedgerStep s i a b c []
  /-- The write of a request has succeeded. -/
  | commits {e : Envelope} (hends : s.ends? i a = some e) (hbefore : b.requestInHand? = some e)
      (hdelivers : b.delivers e = true) (hledger : b.ledger.commit.1.Draws c.ledger)
      (hhand : c.requestInHand? = none) : LedgerStep s i a b c b.ledger.commit.2

namespace Ledger

variable {l k : Ledger}

/-- A ledger from which no number is drawn. -/
theorem Draws.refl (l : Ledger) : l.Draws l := ⟨l.numbers.cursor, rfl⟩

/-- Drawing numbers records nothing. -/
theorem Draws.entries (h : l.Draws k) : k.entries = l.entries := by
  obtain ⟨cursor, rfl⟩ := h
  rfl

/-- It does not change how much the ledger holds. -/
theorem Draws.capacity (h : l.Draws k) : k.capacity = l.capacity := by
  obtain ⟨cursor, rfl⟩ := h
  rfl

/-- No number becomes busy by being drawn. -/
theorem Draws.accounted (h : l.Draws k) (hl : l.Accounted) : k.Accounted := by
  obtain ⟨cursor, rfl⟩ := h
  exact hl.drops (l.drops_draw cursor)

end Ledger

namespace Bus

variable {P : EnvelopeProperty} {b c : Bus} {e : Envelope}

/-- On a bus that is extended numbers have been drawn at most. -/
theorem Extends.draws (h : b.Extends P c) : b.ledger.Draws c.ledger := h.ledger

/-- The request in hand depends on what is in hand. -/
theorem requestInHand?_congr (h : c.inHand = b.inHand) : c.requestInHand? = b.requestInHand? := by
  rw [requestInHand?, h, requestInHand?]

/-- While nothing is in hand no request is. -/
theorem requestInHand?_of_idle (h : b.inHand = none) : b.requestInHand? = none := by
  rw [requestInHand?, h]
  rfl

/-- A response in hand is no request in hand. -/
theorem requestInHand?_of_response (h : b.inHand = some e) (hresponse : e.msg.isResponse = true) :
    b.requestInHand? = none := by
  rw [requestInHand?, h, Option.filter_some, hresponse]
  rfl

/-- What it means that a request is in hand. -/
theorem requestInHand?_eq_some_iff :
    b.requestInHand? = some e ↔ b.inHand = some e ∧ e.msg.isResponse = false := by
  rw [requestInHand?, Option.filter_eq_some_iff, Bool.not_eq_true']

end Bus

/-- **The entries after an action** were there before it, in the same order; or the worker has taken
a request in hand, and its record is the newest entry. -/
theorem LedgerStep.entries_cases {s : Stack} {i : Nat} {a : Action} {b c : Bus}
    {evicted : List Message} (h : LedgerStep s i a b c evicted) :
    c.ledger.entries.Sublist b.ledger.entries ∨
      ∃ e, s.takes? i a = some e ∧ e.msg.isResponse = false ∧
        c.ledger.entries = b.ledger.entries ++ [e.staged.msg.recordedAt s.clock.now] := by
  cases h with
  | keeps hledger =>
      left
      rw [hledger.entries]
  | stages htakes hrequest _ hledger => exact .inr ⟨_, htakes, hrequest, hledger.entries⟩
  | settles _ _ _ _ hledger =>
      left
      rw [hledger.entries, Ledger.entries_extract]
      exact List.eraseP_sublist
  | expires _ _ hledger =>
      left
      rw [hledger.entries]
      exact List.filter_sublist
  | withdraws _ _ _ hledger =>
      left
      rw [hledger.entries, Ledger.entries_withdraw]
      exact List.eraseP_sublist
  | commits _ _ _ hledger =>
      left
      rw [hledger.entries, Ledger.entries_commit]
      exact List.drop_sublist _ _

/-- **No action leaves a number in flight that no pending request has.** -/
theorem LedgerStep.accounted {s : Stack} {i : Nat} {a : Action} {b c : Bus}
    {evicted : List Message} (h : LedgerStep s i a b c evicted) (hb : b.ledger.Accounted) :
    c.ledger.Accounted := by
  cases h with
  | keeps hledger => exact hledger.accounted hb
  | stages _ _ _ hledger => exact hledger.accounted (hb.stage _ _)
  | settles _ _ _ _ hledger => exact hledger.accounted (hb.drops (b.ledger.drops_extract _))
  | expires _ _ hledger => exact hledger.accounted (hb.drops (b.ledger.drops_expire _ _))
  | withdraws _ _ _ hledger => exact hledger.accounted (hb.drops (b.ledger.drops_extract _))
  | commits _ _ _ hledger => exact hledger.accounted (hb.drops b.ledger.drops_commit)

namespace Stack

variable {s t : Stack} {a : Action} {i : Nat} {b : Bus} {e : Envelope}

/-- The end of the write of an envelope. -/
theorem ledgerStep_finishWrite (hb : s.buses[i]? = some b) (hhand : b.inHand = some e)
    (hends : s.ends? i a = some e) :
    ∃ c evicted, (s.finishWrite i b e).buses[i]? = some c ∧ LedgerStep s i a b c evicted := by
  have hidle : ∀ c : Bus, c.inHand = none → c.requestInHand? = none :=
    fun _ => Bus.requestInHand?_of_idle
  by_cases hresponse : e.msg.isResponse = true
  · have hbefore := Bus.requestInHand?_of_response hhand hresponse
    rcases finishWrite_cases hb e with ⟨-, h⟩ | ⟨-, -, h⟩ | ⟨-, hrequest, -⟩
    · refine ⟨_, _, h.getElem?_self hb, .keeps ?_ (hbefore ▸ hidle _ rfl)⟩
      rw [Bus.delivered, if_pos hresponse]
      exact Ledger.Draws.refl _
    · refine ⟨_, _, h.getElem?_self hb, .keeps ?_ (hbefore ▸ hidle _ rfl)⟩
      rw [Bus.retrying, Bus.undelivered, if_pos hresponse]
      exact Ledger.Draws.refl _
    · rw [hresponse] at hrequest
      cases hrequest
  · have hrequest : e.msg.isResponse = false := by simpa using hresponse
    have hbefore := Bus.requestInHand?_eq_some_iff.mpr ⟨hhand, hrequest⟩
    have hwithdrawn : (b.undelivered e).ledger = (b.ledger.withdraw e.msg).1 := if_neg hresponse
    rcases finishWrite_cases hb e with ⟨hdelivers, h⟩ | ⟨hfails, -, h⟩ | ⟨hfails, -, -, u, hu, h⟩
    · refine ⟨_, _, h.getElem?_self hb, .commits hends hbefore hdelivers ?_ (hidle _ rfl)⟩
      rw [Bus.delivered, if_neg hresponse]
      exact Ledger.Draws.refl _
    · refine ⟨_, _, h.getElem?_self hb, .withdraws hends hbefore hfails ?_ (hidle _ rfl)⟩
      rw [← hwithdrawn]
      exact Ledger.Draws.refl _
    · obtain ⟨c, hc, hext⟩ :=
        (queues_reportFailure u e.msg).toExtends.exists_bus (hu.getElem?_self hb)
      refine ⟨c, _, by rw [h, hc], .withdraws hends hbefore hfails ?_ (hidle _ hext.inHand)⟩
      rw [← hwithdrawn]
      exact hext.draws

/-- Where nothing happens the ledger stays as it is. -/
theorem ledgerStep_of_eq (hb : s.buses[i]? = some b) (h : t = s) :
    ∃ c evicted, t.buses[i]? = some c ∧ LedgerStep s i a b c evicted := by
  rw [h]
  exact ⟨b, _, hb, .keeps (Ledger.Draws.refl _) rfl⟩

end Stack

namespace Scheduler

open Stack

variable {s : Scheduler} {i : Nat} {b : Bus} {e : Envelope}

/-- The first half of a write stages a request, or leaves the ledger alone. -/
theorem ledgerStep_transmitBegin (hb : s.stack.buses[i]? = some b) :
    ∃ c evicted, (s.perform (.transmitBegin i)).stack.buses[i]? = some c ∧
      LedgerStep s.stack i (.transmitBegin i) b c evicted := by
  rcases transmitBegin_cases s.stack i with h | ⟨b', e, rest, hworker, hidle, hitems, h⟩
  · exact ledgerStep_of_eq hb h
  · obtain ⟨-, hb', -⟩ := workerBus_eq_some_iff.mp hworker
    obtain rfl : b = b' := Option.some.inj (hb.symm.trans hb')
    have hbefore := Bus.requestInHand?_of_idle hidle
    rcases h with ⟨-, -, h⟩ | ⟨hresponse, -, h⟩ | ⟨hrequest, h⟩
    · exact ⟨_, _, h.getElem?_self hb, .keeps (Ledger.Draws.refl _) rfl⟩
    · refine ⟨_, _, h.getElem?_self hb, .keeps (Ledger.Draws.refl _) ?_⟩
      rw [hbefore]
      exact Bus.requestInHand?_of_response (e := e.addressed b) rfl hresponse
    · have htakes : s.stack.takes? i (.transmitBegin i) = some e := by
        simp [takes?, hworker, hidle, hitems]
      refine ⟨_, _, h.getElem?_self hb, .stages htakes hrequest hbefore (Ledger.Draws.refl _) ?_⟩
      exact Bus.requestInHand?_eq_some_iff.mpr ⟨rfl, hrequest⟩

/-- The end of a write commits the request in hand or withdraws it. -/
theorem ledgerStep_of_ends {a : Action} (hb : s.stack.buses[i]? = some b)
    (hends : s.stack.ends? i a = some e) :
    ∃ c evicted, (s.perform a).stack.buses[i]? = some c ∧ LedgerStep s.stack i a b c evicted := by
  obtain ⟨b', hb', hhand, hend⟩ := perform_of_ends hends
  obtain rfl : b = b' := Option.some.inj (hb.symm.trans hb')
  rw [hend]
  exact ledgerStep_finishWrite hb hhand hends

/-- The second half of a write is a step of the ledger, if there is a write. -/
theorem ledgerStep_transmitEnd (hb : s.stack.buses[i]? = some b) :
    ∃ c evicted, (s.perform (.transmitEnd i)).stack.buses[i]? = some c ∧
      LedgerStep s.stack i (.transmitEnd i) b c evicted := by
  cases hends : s.stack.ends? i (.transmitEnd i) with
  | none => exact ledgerStep_of_eq hb (perform_transmitEnd_of_not_ends hends)
  | some e => exact ledgerStep_of_ends hb hends

/-- The end of the write in hand after a shutdown is a step of the ledger. -/
theorem ledgerStep_finish (hb : s.stack.buses[i]? = some b) :
    ∃ c evicted, (s.perform (.finish i)).stack.buses[i]? = some c ∧
      LedgerStep s.stack i (.finish i) b c evicted := by
  cases hends : s.stack.ends? i (.finish i) with
  | none => exact ledgerStep_of_eq hb (perform_finish_of_not_ends hends)
  | some e => exact ledgerStep_of_ends hb hends

/-- A look at the link settles one request at most. -/
theorem ledgerStep_receive (hb : s.stack.buses[i]? = some b) :
    ∃ c evicted, (s.perform (.receive i)).stack.buses[i]? = some c ∧
      LedgerStep s.stack i (.receive i) b c evicted := by
  obtain ⟨c, hc, hext | ⟨-, m, entry, hheard, hresponse, hentry, hext⟩⟩ :=
    receive_bus s.stack i hb
  · exact ⟨c, _, hc, .keeps hext.draws (Bus.requestInHand?_congr hext.inHand)⟩
  · exact ⟨c, _, hc, .settles rfl hheard hresponse hentry hext.draws
      (Bus.requestInHand?_congr hext.inHand)⟩

/-- A sweep expires what is overdue. -/
theorem ledgerStep_sweep (hb : s.stack.buses[i]? = some b) :
    ∃ c evicted, (s.perform .sweep).stack.buses[i]? = some c ∧
      LedgerStep s.stack i .sweep b c evicted := by
  refine ⟨_, [], getElem?_sweep hb, ?_⟩
  by_cases husable : b.config.isUsable = true
  · rw [Bus.sweptAt, if_pos husable]
    exact .expires rfl husable (Ledger.Draws.refl _) rfl
  · rw [Bus.sweptAt, if_neg husable]
    exact .keeps (Ledger.Draws.refl _) rfl

/-- **What an action does to the ledger of a bus**, whichever action it is. -/
theorem ledgerStep (s : Scheduler) (a : Action) (hb : s.stack.buses[i]? = some b) :
    ∃ c evicted, (s.perform a).stack.buses[i]? = some c ∧ LedgerStep s.stack i a b c evicted := by
  have hothers : a.touches i = false → a ≠ .receive i → a ≠ .sweep →
      ∃ c evicted, (s.perform a).stack.buses[i]? = some c ∧
        LedgerStep s.stack i a b c evicted := by
    intro htouches hreceive hsweep
    obtain ⟨c, hc, hext⟩ := s.perform_extends hb htouches hreceive hsweep
    exact ⟨c, _, hc, .keeps hext.draws (Bus.requestInHand?_congr hext.inHand)⟩
  cases a with
  | transmitBegin j =>
      by_cases hj : j = i
      · exact hj ▸ ledgerStep_transmitBegin (hj ▸ hb)
      · exact hothers (by simpa [Action.touches] using hj) (by simp) (by simp)
  | transmitEnd j =>
      by_cases hj : j = i
      · exact hj ▸ ledgerStep_transmitEnd (hj ▸ hb)
      · exact hothers (by simpa [Action.touches] using hj) (by simp) (by simp)
  | finish j =>
      by_cases hj : j = i
      · exact hj ▸ ledgerStep_finish (hj ▸ hb)
      · exact hothers (by simpa [Action.touches] using hj) (by simp) (by simp)
  | receive j =>
      by_cases hj : j = i
      · exact hj ▸ ledgerStep_receive (hj ▸ hb)
      · exact hothers rfl (by simpa using hj) (by simp)
  | sweep => exact ledgerStep_sweep hb
  | stop =>
      refine ⟨b.close, [], ?_, .keeps (Ledger.Draws.refl _) rfl⟩
      simp [perform, onStack, stop, hb]
  | begin | resume | abandon | relink | submitFromHost | notify | dispatch | advance =>
      exact hothers rfl (by simp) (by simp)

/-- Every ledger after an action comes of one before it. -/
theorem exists_ledgerStep {a : Action} {c : Bus} (hc : (s.perform a).stack.buses[i]? = some c) :
    ∃ b evicted, s.stack.buses[i]? = some b ∧ LedgerStep s.stack i a b c evicted := by
  obtain ⟨b, hb, -⟩ := exists_bus_before_perform hc
  obtain ⟨c', evicted, hc', hstep⟩ := s.ledgerStep a hb
  obtain rfl : c = c' := Option.some.inj (hc.symm.trans hc')
  exact ⟨b, evicted, hb, hstep⟩

/-- On every bus the numbers in flight are those of pending requests. -/
def Accounted (s : Scheduler) : Prop :=
  ∀ (i : Nat) (b : Bus), s.stack.buses[i]? = some b → b.ledger.Accounted

/-- **Every action keeps it so that numbers in flight are those of pending requests.** -/
theorem accounted_perform (h : s.Accounted) (a : Action) : (s.perform a).Accounted := by
  intro i c hc
  obtain ⟨b, evicted, hb, hstep⟩ := exists_ledgerStep hc
  exact hstep.accounted (h i b hb)

/-- **In every run the numbers in flight are those of pending requests.** -/
theorem accounted_after (h : s.Accounted) (as : List Action) : (s.after as).Accounted :=
  after_induction h fun _ a _ ht => accounted_perform ht a

end Scheduler

end ManagementBus
