import ManagementBus.Proofs.Building
import ManagementBus.Proofs.Recording
import ManagementBus.Proofs.Trying
import ManagementBus.Proofs.Withdrawing

/-!
# A worker whose writes all fail

The worker of a bus goes on alone, and every write fails. Each envelope then has its turns: it goes
back behind the others until it has used up its retries, and is given up or dropped. A request that
is given up may cause one response, which has its turns on the same bus. So the envelopes have a
bounded amount of work, in the sense of `Scheduler.envelopeWork`, and each turn takes some of it;
when none is left the queue is empty.

The ledger is followed as in the account of a request that is withdrawn: while a request is in hand
the ledger is beside the one that the run started with, and the failure of the write makes the two
the same again.

## Main results

* `Turn.work_lt`: every turn takes some of the work.
* `Draining.passes`: what the worker keeps while it goes on alone, and the work that it takes.
* `retry_ceiling`: no envelope is tried more often than its retries allow, in any run; and where
  every write fails each is tried just so often, and the queue drains.
-/

namespace ManagementBus

open EnvelopeProperty

/-! ### The ledger meanwhile -/

namespace Ledger

variable {r m : Message} {k l l' : Ledger}

/-- Ledgers that are the same as a third are the same. -/
theorem Same.trans (hkl : Same k l) (hl : Same l l') : Same k l' :=
  ⟨hkl.entries.trans hl.entries, fun n => (hkl.busy n).trans (hl.busy n)⟩

/-- To draw a number leaves the ledger the same: only the cursor moves. -/
theorem Draws.same (h : l.Draws k) : Same k l := by
  obtain ⟨cursor, rfl⟩ := h
  exact ⟨rfl, fun _ => Iff.rfl⟩

/-- Where two ledgers are the same, the numbers in flight have entries in both or in neither. -/
theorem Accounted.same (h : l.Accounted) (hsame : Same k l) : k.Accounted := by
  intro n hbusy
  rw [hsame.entries]
  exact h n ((hsame.busy n).mp hbusy)

/-- What is beside a ledger is beside one that is the same. -/
theorem Beside.same (h : Beside r k l) (hsame : Same l l') : Beside r k l' where
  absent := by
    rw [← hsame.entries]
    exact h.absent
  free := by
    rw [← Bool.not_eq_true, ← hsame.busy, h.free]
    decide
  cases := by
    rcases h.cases with hbesides | hequal
    · exact .inl ⟨by rw [hbesides.entries, hsame.entries],
        fun n => (hbesides.busy n).trans (or_congr (hsame.busy n) Iff.rfl)⟩
    · exact .inr (hequal.trans hsame)

/-- Numbers drawn do not matter. -/
theorem Beside.draws (h : Beside r k l) (hdraws : k.Draws k') : Beside r k' l := by
  obtain ⟨cursor, rfl⟩ := hdraws
  refine ⟨h.absent, h.free, ?_⟩
  rcases h.cases with hbesides | hequal
  · exact .inl ⟨hbesides.entries, hbesides.busy⟩
  · exact .inr ⟨hequal.entries, hequal.busy⟩

/-- A request whose number no entry has is staged in a ledger that is the same as another. -/
theorem Same.beside_stage (hsame : Same k l) (haccounted : l.Accounted)
    (hfresh : ∀ entry ∈ l.entries, slot entry ≠ slot m) (now : UInt32) :
    Beside (m.recordedAt now) (k.stage m now) l := by
  have hbeside := Ledger.beside_stage (haccounted.same hsame) (hsame.entries ▸ hfresh) now
  exact hbeside.same hsame

end Ledger

namespace Bus

variable {s : Stack} {i : Nat} {a : Action} {b c : Bus} {L : Ledger} {evicted : List Message}

/-- The ledger of a bus is what another has been, but for the request in hand, which may be
recorded. -/
structure Restores (L : Ledger) (b : Bus) : Prop where
  idle : b.requestInHand? = none → Ledger.Same b.ledger L
  held : ∀ e, b.requestInHand? = some e →
    ∃ now, Ledger.Beside (e.msg.recordedAt now) b.ledger L

/-- **While writes fail, the worker alone leaves the ledger as it was.** -/
theorem Restores.step (h : b.Restores L) (hstep : LedgerStep s i a b c evicted)
    (haccounted : L.Accounted) (hreceive : a ≠ .receive i) (hsweep : a ≠ .sweep)
    (hfresh : ∀ e, s.takes? i a = some e → e.msg.isResponse = false →
      ∀ entry ∈ L.entries, Ledger.slot entry ≠ SequenceNumber.ofByte e.msg.seq)
    (hfails : ∀ e, s.ends? i a = some e → b.delivers e = false) : c.Restores L := by
  cases hstep with
  | keeps hledger hhand =>
      refine ⟨fun hidle => ?_, fun e he => ?_⟩
      · exact hledger.same.trans (h.idle (hhand ▸ hidle))
      · obtain ⟨now, hbeside⟩ := h.held e (hhand ▸ he)
        exact ⟨now, hbeside.draws hledger⟩
  | @stages e htakes hrequest hidle hledger hhand =>
      refine ⟨fun hnone => ?_, fun f hf => ?_⟩
      · rw [hhand] at hnone
        cases hnone
      · obtain rfl := Option.some.inj (hhand.symm.trans hf)
        have hbeside := (h.idle hidle).beside_stage (m := e.staged.msg) haccounted
          (hfresh e htakes hrequest) s.clock.now
        exact ⟨_, hbeside.draws hledger⟩
  | settles ha => exact absurd ha hreceive
  | expires ha => exact absurd ha hsweep
  | withdraws _ hbefore _ hledger hhand =>
      obtain ⟨now, hbeside⟩ := h.held _ hbefore
      refine ⟨fun _ => hledger.same.trans hbeside.withdraw, fun f hf => ?_⟩
      rw [hhand] at hf
      cases hf
  | commits hends _ hdelivers =>
      rw [hfails _ hends] at hdelivers
      cases hdelivers

end Bus

/-! ### The turns of the envelopes -/

/-- A worker takes an envelope and finishes it, some times over. -/
def Action.passes (i : Nat) : Nat → List Action
  | 0 => []
  | n + 1 => .transmitBegin i :: .transmitEnd i :: passes i n

/-- The envelopes in hand and in the queue of a bus. -/
def Bus.envelopes (b : Bus) : List Envelope := b.inHand.toList ++ b.outbound.items

/-- The number of turns that some envelopes have left, with those of the reports that they may
cause. -/
def Scheduler.totalWork (maxRetries : UInt32) (es : List Envelope) : Nat :=
  (es.map (Scheduler.envelopeWork maxRetries)).sum

/-- **What the turn of the first of some envelopes leaves**, when its write fails: nothing of a
response that has used up its retries, the envelope behind the others while it has retries left, or
perhaps a report in the place of a request that is given up. -/
inductive Turn (maxRetries : UInt32) : List Envelope → List Envelope → Prop
  | dropped {e : Envelope} {es : List Envelope} (hresponse : e.msg.isResponse = true)
      (hretries : maxRetries < e.retries) : Turn maxRetries (e :: es) es
  | putBack {e : Envelope} {es : List Envelope} (hleft : e.retries.toNat ≤ maxRetries.toNat)
      (hfailed : e.failed.retries.toNat = e.retries.toNat + 1) :
      Turn maxRetries (e :: es) (es ++ [e.failed])
  | givenUp {e : Envelope} {es added : List Envelope} (hrequest : e.msg.isResponse = false)
      (hleft : e.retries.toNat ≤ maxRetries.toNat) (hone : added.length ≤ 1)
      (hadded : ∀ f ∈ added, f.retries = 0 ∧ f.msg.isResponse = true) :
      Turn maxRetries (e :: es) (es ++ added)

/-- Envelopes that are alike have the same work left. -/
theorem Envelope.Alike.envelopeWork_eq {R : UInt32} {e f : Envelope} (h : e.Alike f) :
    Scheduler.envelopeWork R f = Scheduler.envelopeWork R e := by
  rw [Scheduler.envelopeWork, Scheduler.envelopeWork, h.retries, h.isResponse]

namespace Turn

open Scheduler

variable {R : UInt32} {e f : Envelope} {es fs : List Envelope}

/-- No turn makes the queue longer. -/
theorem length_le (h : Turn R es fs) : fs.length ≤ es.length := by
  cases h with
  | dropped => exact Nat.le_succ _
  | putBack => exact le_of_eq List.length_append
  | givenUp _ _ hone =>
      rw [List.length_append, List.length_cons]
      omega

/-- The requests keep their numbers. -/
theorem exists_request (h : Turn R es fs) (hf : f ∈ fs) (hrequest : f.msg.isResponse = false) :
    ∃ e ∈ es, e.msg.isResponse = false ∧ e.msg.seq = f.msg.seq := by
  cases h with
  | dropped => exact ⟨f, List.mem_cons_of_mem _ hf, hrequest, rfl⟩
  | @putBack e es =>
      rcases List.mem_append.mp hf with hf | hf
      · exact ⟨f, List.mem_cons_of_mem _ hf, hrequest, rfl⟩
      · obtain rfl := List.mem_singleton.mp hf
        exact ⟨e, List.mem_cons_self, hrequest, rfl⟩
  | givenUp _ _ _ hadded =>
      rcases List.mem_append.mp hf with hf | hf
      · exact ⟨f, List.mem_cons_of_mem _ hf, hrequest, rfl⟩
      · rw [(hadded f hf).2] at hrequest
        cases hrequest

/-- Every envelope has work left. -/
theorem envelopeWork_pos (R : UInt32) (e : Envelope) : 0 < envelopeWork R e := by
  rw [envelopeWork]
  split
  · omega
  · omega

/-- A failed write takes one from the work of an envelope. -/
theorem envelopeWork_failed (hleft : e.retries.toNat ≤ R.toNat)
    (hfailed : e.failed.retries.toNat = e.retries.toNat + 1) :
    envelopeWork R e.failed + 1 = envelopeWork R e := by
  have hsame : e.failed.msg.isResponse = e.msg.isResponse := rfl
  rw [envelopeWork, envelopeWork, hsame, hfailed]
  split
  · omega
  · omega

/-- A request that is given up has more work left than its report has. -/
theorem totalWork_report {added : List Envelope} (hrequest : e.msg.isResponse = false)
    (hleft : e.retries.toNat ≤ R.toNat) (hone : added.length ≤ 1)
    (hadded : ∀ f ∈ added, f.retries = 0 ∧ f.msg.isResponse = true) :
    totalWork R added < envelopeWork R e := by
  cases added with
  | nil => exact envelopeWork_pos R e
  | cons f rest =>
      obtain rfl : rest = [] := by simpa using hone
      obtain ⟨hzero, hresponse⟩ := hadded f List.mem_cons_self
      have hreport : totalWork R [f] = R.toNat + 2 := by
        simp [totalWork, envelopeWork, hzero, hresponse]
      rw [hreport, envelopeWork, hrequest]
      simp only [Bool.false_eq_true, if_false]
      omega

/-- **Every turn takes some of the work.** -/
theorem work_lt (h : Turn R es fs) : totalWork R fs < totalWork R es := by
  have hsplit : ∀ es fs : List Envelope, totalWork R (es ++ fs) = totalWork R es + totalWork R fs :=
    fun es fs => by rw [totalWork, List.map_append, List.sum_append, totalWork, totalWork]
  have hcons : ∀ e es, totalWork R (e :: es) = envelopeWork R e + totalWork R es := fun _ _ => rfl
  cases h with
  | @dropped e es =>
      have hpos := envelopeWork_pos R e
      rw [hcons]
      omega
  | @putBack e es hleft hfailed =>
      have hone : totalWork R [e.failed] = envelopeWork R e.failed := Nat.add_zero _
      have hwork := envelopeWork_failed hleft hfailed
      rw [hcons, hsplit, hone]
      omega
  | @givenUp e es added hrequest hleft hone hadded =>
      have hwork := totalWork_report hrequest hleft hone hadded
      rw [hcons, hsplit]
      omega

/-- Where no work is left, no envelope is left. -/
theorem eq_nil_of_totalWork (h : totalWork R es = 0) : es = [] := by
  cases es with
  | nil => rfl
  | cons e es =>
      have hpos := envelopeWork_pos R e
      have hcons : totalWork R (e :: es) = envelopeWork R e + totalWork R es := rfl
      omega

end Turn

/-! ### The record of the envelopes that are gone -/

namespace Trials

open Stack Scheduler

variable {R : Nat} {x : Trials} {b c : Bus} {e : Envelope} {n : Nat} {rest : List Envelope}

/-- Every envelope that is in no place any more has been tried as often as its retries allow. -/
def Spent (R : Nat) (x : Trials) : Prop :=
  ∀ n, n < x.manifest.accepted.length → n ∉ x.manifest.inHand.toList ++ x.manifest.waiting →
    x.triesOf n = List.replicate (R + 1) false

/-- An envelope that is taken and not in hand has had all its tries. -/
theorem Spent.take (h : x.Spent R) (held : Bool) (hcounted : Counted R b x)
    (hidle : b.inHand = none) (hitems : b.outbound.items = e :: rest)
    (hheld : held = true ∨ R < e.retries.toNat) :
    (x.withManifest (x.manifest.take held)).Spent R := by
  have hwaiting := hcounted.waiting
  rw [hitems, List.forall₂_cons_right_iff] at hwaiting
  obtain ⟨n, ns, hpending, -, hxs⟩ := hwaiting
  intro k hk hplace
  rw [manifest_withManifest, Manifest.take, hxs, List.tail_cons, List.head?_cons] at hplace
  by_cases hkn : k = n
  · rcases hheld with rfl | hover
    · exact absurd (by simp [hkn]) hplace
    · have hlast : e.retries.toNat = R + 1 := by
        have hcount := hpending.count
        split at hcount
        · omega
        · omega
      rw [hkn, triesOf_withManifest, hpending.tries, hlast]
  · refine h k hk fun hbefore => hplace (List.mem_append_right _ ?_)
    rw [Manifest.inHand_eq_none hcounted.inHand hidle, hxs] at hbefore
    simpa [hkn] using hbefore

/-- An envelope that waits again is not gone. -/
theorem Spent.retry (h : x.Spent R) (told : Nat) (hcounted : Counted R b x)
    (hhand : b.inHand = some e) :
    ((x.tried 1 false told).withManifest
      ((x.manifest.finish []).putBack x.manifest.inHand)).Spent R := by
  obtain ⟨n, -, hxhand⟩ := Manifest.exists_held hcounted.inHand hhand
  intro k hk hplace
  rw [manifest_withManifest, Manifest.putBack, Manifest.inHand_finish, Manifest.waiting_finish,
    Option.toList_none, List.nil_append, List.mem_append, not_or] at hplace
  have hkn : k ≠ n := by
    rintro rfl
    exact hplace.2 (by rw [hxhand]; exact List.mem_singleton_self k)
  rw [triesOf_withManifest, triesOf_tried_ne false told hxhand hkn]
  exact h k hk fun hbefore => (List.mem_append.mp hbefore).elim hplace.2 hplace.1

/-- An envelope whose last try has failed has had all of them. -/
theorem Spent.leave (h : x.Spent R) (told : Nat) (hcounted : Counted R b x)
    (hhand : b.inHand = some e) (hlast : e.retries.toNat = R) (added : List Envelope) :
    ((x.tried 1 false told).withManifest ((x.manifest.finish []).accept added)).Spent R := by
  obtain ⟨n, hheld, hxhand⟩ := Manifest.exists_held hcounted.inHand hhand
  intro k hk hplace
  have haccepted := x.manifest.accepted_finish []
  rw [manifest_withManifest, Manifest.accept, haccepted, List.length_append] at hk
  rw [manifest_withManifest, Manifest.accept, Manifest.inHand_finish, Manifest.waiting_finish,
    haccepted, Option.toList_none, List.nil_append, List.mem_append, not_or] at hplace
  have hold : k < x.manifest.accepted.length := by
    by_contra hnew
    exact hplace.2 (List.mem_range'_1.mpr ⟨Nat.le_of_not_lt hnew, hk⟩)
  rw [triesOf_withManifest]
  by_cases hkn : k = n
  · rw [hkn, triesOf_tried_self false told hxhand, hheld.tries, hlast, List.replicate_succ']
  · rw [triesOf_tried_ne false told hxhand hkn]
    refine h k hold fun hbefore => ?_
    rw [hxhand] at hbefore
    rcases List.mem_append.mp hbefore with hin | hwaits
    · exact hkn (List.mem_singleton.mp hin)
    · exact hplace.1 hwaits

/-! ### What the record keeps -/

/-- What has been recorded stays recorded. -/
theorem writes_step (x : Trials) (i : Nat) (s : Stack) (a : Action) (t : Stack) :
    x.writes <+: (x.step i s a t).writes := by
  rw [step]
  split
  · exact List.prefix_append _ _
  · exact List.prefix_rfl

/-- The writes on record stay on record. -/
theorem writes_along (x : Trials) (i : Nat) (s : Scheduler) (as : List Action) :
    x.writes <+: (x.along i s as).writes := by
  induction as generalizing s x with
  | nil => exact List.prefix_rfl
  | cons a as ih => exact (x.writes_step i s.stack a _).trans (ih _ _)

/-- The envelopes accepted so far stay accepted in every step. -/
theorem accepted_step (x : Trials) (i : Nat) (s : Stack) (a : Action) (t : Stack) :
    x.manifest.accepted <+: (x.step i s a t).manifest.accepted := by
  have hstep : (x.step i s a t).manifest = x.manifest.step i s a t := rfl
  rw [hstep, Manifest.step]
  split
  · exact List.prefix_rfl
  · split
    · exact ⟨[], by rw [List.append_nil, Manifest.putBack, Manifest.accepted_finish]⟩
    · rw [Manifest.accept, Manifest.accepted_finish]
      exact List.prefix_append _ _
  · exact List.prefix_append _ _

/-- The envelopes accepted so far stay accepted in a run. -/
theorem accepted_along (x : Trials) (i : Nat) (s : Scheduler) (as : List Action) :
    x.manifest.accepted <+: (x.along i s as).manifest.accepted := by
  induction as generalizing s x with
  | nil => exact List.prefix_rfl
  | cons a as ih => exact (x.accepted_step i s.stack a _).trans (ih _ _)

/-- Where nothing happens nothing is recorded. -/
theorem step_of_eq {s t : Stack} {a : Action} {i : Nat} (htakes : s.takes? i a = none)
    (hends : s.ends? i a = none) (ht : t = s) : x.step i s a t = x := by
  have hnone : s.queuedOn t i = [] := queuedOn_eq (by rw [ht, List.append_nil])
  have haccept : x.manifest.accept [] = x.manifest := by simp [Manifest.accept]
  rw [step_of_not_ends hends]
  simp only [Manifest.step, htakes, hends, hnone, haccept]
  rfl

end Trials

/-! ### The worker alone -/

namespace Stack

variable {s : Stack} {i : Nat} {b : Bus}

/-- A report does not stop the workers. -/
theorem stopped_reportFailure (s : Stack) (m : Message) :
    (s.reportFailure m).stopped = s.stopped := by
  rcases reportFailure_one s m with hhost | hnothing | ⟨j, hone⟩
  · obtain ⟨es, h | ⟨buffer, h⟩⟩ := hhost
    · rw [h]
      rfl
    · rw [h]
      rfl
  · exact hnothing.stopped
  · exact hone.sends.stopped

/-- No end of a write stops the workers. -/
theorem stopped_finishWrite (hb : s.buses[i]? = some b) (e : Envelope) :
    (s.finishWrite i b e).stopped = s.stopped := by
  rcases finishWrite_cases hb e with ⟨-, h⟩ | ⟨-, -, h⟩ | ⟨-, -, -, u, hu, h⟩
  · exact h.stopped
  · exact h.stopped
  · rw [h, stopped_reportFailure, hu.stopped]

end Stack

/-- **A worker goes on alone and its writes fail.** The queue has room for the envelope in hand, the
ledger is what it was at the start but for the request in hand, and every write is recorded. -/
structure Draining (R : UInt32) (start : Bus) (s : Stack) (i : Nat) (b : Bus) (x : Trials) :
    Prop where
  running : s.workerBus i = some b
  limit : s.timing.maxRetries = R
  isOpen : b.outbound.closed = false
  room : b.envelopes.length ≤ b.outbound.capacity
  apart : ∀ e ∈ b.envelopes, e.msg.isResponse = false →
    ∀ entry ∈ start.ledger.entries, Ledger.slot entry ≠ SequenceNumber.ofByte e.msg.seq
  counted : x.Counted R.toNat b
  spent : x.Spent R.toNat
  accounted : start.ledger.Accounted
  restores : b.Restores start.ledger
  writes : b.link.near.writes = start.link.near.writes + x.writes.length

namespace Draining

open Stack Scheduler

variable {R : UInt32} {start b c : Bus} {s : Scheduler} {u t : Stack} {i : Nat} {x y : Trials}
  {e : Envelope} {items : List Envelope}

/-- What a half of a write has to keep. -/
theorem keeps (h : Draining R start u i b x) (hrunning : t.workerBus i = some c)
    (htiming : t.timing = u.timing) (houtbound : c.outbound = { b.outbound with items })
    (hlength : c.envelopes.length ≤ b.envelopes.length)
    (hrequests : ∀ f ∈ c.envelopes, f.msg.isResponse = false →
      ∃ e ∈ b.envelopes, e.msg.isResponse = false ∧ e.msg.seq = f.msg.seq)
    (hcounted : Trials.Counted R.toNat c y) (hspent : y.Spent R.toNat)
    (hrestores : c.Restores start.ledger)
    (hwrites : c.link.near.writes = start.link.near.writes + y.writes.length) :
    Draining R start t i c y := by
  refine ⟨hrunning, ?_, ?_, ?_, ?_, hcounted, hspent, h.accounted, hrestores, hwrites⟩
  · rw [htiming]
    exact h.limit
  · rw [houtbound]
    exact h.isOpen
  · rw [houtbound]
    exact hlength.trans h.room
  · intro f hf hrequest
    obtain ⟨e, he, herequest, hseq⟩ := hrequests f hf hrequest
    rw [← hseq]
    exact h.apart e he herequest

/-- The record of a request that is taken stands beside the ledger. -/
theorem restores_takes (h : Draining R start s.stack i b x)
    (htakes : s.stack.takes? i (.transmitBegin i) = some e) (hmem : e ∈ b.envelopes)
    (hc : (s.perform (.transmitBegin i)).stack.buses[i]? = some c) : c.Restores start.ledger := by
  obtain ⟨-, hb, -⟩ := workerBus_eq_some_iff.mp h.running
  obtain ⟨c', evicted, hc', hstep⟩ := s.ledgerStep (.transmitBegin i) hb
  obtain rfl : c = c' := Option.some.inj (hc.symm.trans hc')
  refine h.restores.step hstep h.accounted (by simp) (by simp) ?_ fun f hf => by cases hf
  intro f hf hrequest
  obtain rfl := Option.some.inj (htakes.symm.trans hf)
  exact h.apart e hmem hrequest

/-- A write that fails takes the record away. -/
theorem restores_ends (h : Draining R start s.stack i b x)
    (hends : s.stack.ends? i (.transmitEnd i) = some e) (hundelivered : b.delivers e = false)
    (hc : (s.perform (.transmitEnd i)).stack.buses[i]? = some c) : c.Restores start.ledger := by
  obtain ⟨-, hb, -⟩ := workerBus_eq_some_iff.mp h.running
  obtain ⟨c', evicted, hc', hstep⟩ := s.ledgerStep (.transmitEnd i) hb
  obtain rfl : c = c' := Option.some.inj (hc.symm.trans hc')
  refine h.restores.step hstep h.accounted (by simp) (by simp) (fun f hf => by cases hf) ?_
  intro f hf
  obtain rfl := Option.some.inj (hends.symm.trans hf)
  exact hundelivered

/-- There is room for the envelope in hand. -/
theorem room_of_held (h : Draining R start u i b x) (hhand : b.inHand = some e) :
    b.outbound.items.length < b.outbound.capacity := by
  have hroom := h.room
  rw [Bus.envelopes, hhand, List.length_append, Option.toList_some, List.length_singleton] at hroom
  omega

/-- A write that is tried is recorded. -/
theorem writes_ends (h : Draining R start u i b x) (hhand : b.inHand = some e)
    (hlink : c.link = (b.attempt e.msg).1) (success : Bool) (told : Nat) (manifest : Manifest) :
    c.link.near.writes = start.link.near.writes +
      ((x.tried 1 success told).withManifest manifest).writes.length := by
  obtain ⟨n, -, hxhand⟩ := Manifest.exists_held h.counted.inHand hhand
  have hlength : ((x.tried 1 success told).withManifest manifest).writes.length =
      x.writes.length + 1 := Trials.length_writes_tried success told hxhand
  rw [hlength, hlink, Bus.writes_attempt, h.writes, Nat.add_assoc]

/-- **The worker takes an envelope.** It is in hand, with the work that it had, or it is dropped. -/
theorem takes (h : Draining R start s.stack i b x)
    (htakes : s.stack.takes? i (.transmitBegin i) = some e) :
    ∃ c, Draining R start (s.perform (.transmitBegin i)).stack i c
        (x.step i s.stack (.transmitBegin i) (s.perform (.transmitBegin i)).stack) ∧
      (c.inHand = none ∧ totalWork R c.envelopes < totalWork R b.envelopes ∨
        c.inHand.isSome = true ∧ totalWork R c.envelopes = totalWork R b.envelopes) := by
  obtain ⟨hstopped, hb, husable⟩ := workerBus_eq_some_iff.mp h.running
  obtain ⟨b', c, rest, hb', hidle, hitems, ht, hconfig, hlink, houtbound, htaken⟩ :=
    exists_takes htakes
  obtain rfl : b = b' := Option.some.inj (hb.symm.trans hb')
  have hc := ht.getElem?_self hb
  have hrunning : (s.perform (.transmitBegin i)).stack.workerBus i = some c :=
    workerBus_eq_some_iff.mpr ⟨ht.stopped.trans hstopped, hc, hconfig ▸ husable⟩
  obtain ⟨c', hc', hcounted⟩ := Trials.counted_takes h.counted hb h.limit htakes
  obtain rfl : c = c' := Option.some.inj (hc.symm.trans hc')
  have hbefore : b.envelopes = e :: rest := by rw [Bus.envelopes, hidle, hitems]; rfl
  have hmem : e ∈ b.envelopes := by
    rw [hbefore]
    exact List.mem_cons_self
  have hrestores := h.restores_takes htakes hmem hc
  rw [Trials.step_of_takes htakes hc] at hcounted ⊢
  rw [h.limit] at htaken
  have hwrites : c.link.near.writes = start.link.near.writes + x.writes.length := by
    rw [hlink]
    exact h.writes
  cases htaken with
  | dropped hresponse hretries hnone =>
      have hafter : c.envelopes = rest := by rw [Bus.envelopes, hnone, houtbound]; rfl
      have hturn : Turn R b.envelopes c.envelopes := by
        rw [hbefore, hafter]
        exact .dropped hresponse hretries
      have hspent := h.spent.take c.inHand.isSome h.counted hidle hitems
        (.inr (UInt32.lt_iff_toNat_lt.mp hretries))
      exact ⟨c, h.keeps hrunning ht.timing houtbound hturn.length_le
        (fun f hf => hturn.exists_request hf) hcounted hspent hrestores hwrites,
        .inl ⟨hnone, hturn.work_lt⟩⟩
  | @taken f hhand halike hretries =>
      have hafter : c.envelopes = f :: rest := by rw [Bus.envelopes, hhand, houtbound]; rfl
      have hsome : c.inHand.isSome = true := by rw [hhand]; rfl
      have hspent := h.spent.take c.inHand.isSome h.counted hidle hitems (.inl hsome)
      refine ⟨c, h.keeps hrunning ht.timing houtbound ?_ ?_ hcounted hspent hrestores hwrites,
        .inr ⟨hsome, ?_⟩⟩
      · rw [hbefore, hafter, List.length_cons, List.length_cons]
      · intro g hg hrequest
        rw [hbefore]
        rw [hafter] at hg
        rcases List.mem_cons.mp hg with rfl | hg
        · exact ⟨e, List.mem_cons_self, halike.isResponse ▸ hrequest, halike.seq.symm⟩
        · exact ⟨g, List.mem_cons_of_mem _ hg, hrequest, rfl⟩
      -- Taking an envelope in hand does none of its work.
      · rw [hbefore, hafter, totalWork, List.map_cons, List.sum_cons, halike.envelopeWork_eq]
        rfl

/-- **The worker finishes an envelope.** There is room for it, so it goes back or is given up. -/
theorem ends (h : Draining R start s.stack i b x) (hmax : R < 0xFFFFFFFF)
    (hhand : b.inHand = some e)
    (hfails : ∀ p ∈ (x.step i s.stack (.transmitEnd i)
      (s.perform (.transmitEnd i)).stack).writes, p.2 = false) :
    ∃ c, Draining R start (s.perform (.transmitEnd i)).stack i c
        (x.step i s.stack (.transmitEnd i) (s.perform (.transmitEnd i)).stack) ∧
      c.inHand = none ∧ totalWork R c.envelopes < totalWork R b.envelopes := by
  obtain ⟨hstopped, hb, husable⟩ := workerBus_eq_some_iff.mp h.running
  have htakes : s.stack.takes? i (.transmitEnd i) = none := rfl
  have hends : s.stack.ends? i (.transmitEnd i) = some e := by simp [ends?, h.running, hhand]
  obtain ⟨b', c, queued, arrived, hb', -, hc, hconfig, hidle, hlink, hqueued, harrived, hend⟩ :=
    exists_ends hends
  obtain rfl : b = b' := Option.some.inj (hb.symm.trans hb')
  obtain ⟨b'', hb'', -, hfinish⟩ := perform_of_ends hends
  obtain rfl : b = b'' := Option.some.inj (hb.symm.trans hb'')
  have hrunning : (s.perform (.transmitEnd i)).stack.workerBus i = some c := by
    refine workerBus_eq_some_iff.mpr ⟨?_, hc, hconfig ▸ husable⟩
    rw [hfinish, stopped_finishWrite hb, hstopped]
  have htiming : (s.perform (.transmitEnd i)).stack.timing = s.stack.timing :=
    (s.tells_perform (.transmitEnd i)).timing
  obtain ⟨c', hc', hcounted⟩ := Trials.counted_ends h.counted hb h.limit hmax htakes hends
  obtain rfl : c = c' := Option.some.inj (hc.symm.trans hc')
  obtain ⟨n, hheld, hxhand⟩ := Manifest.exists_held h.counted.inHand hhand
  have hbefore : b.envelopes = e :: b.outbound.items := by rw [Bus.envelopes, hhand]; rfl
  have hafter : c.envelopes = c.outbound.items := by rw [Bus.envelopes, hidle]; rfl
  have hone := length_queuedOn_le_of_ends hends
  rw [hqueued] at hone
  rw [Trials.step_of_ends hends, Manifest.step_of_ends htakes hends, triedOn_of_ends hends,
    hqueued, harrived] at hcounted hfails ⊢
  rw [h.limit] at hend
  -- The write fails and there is room, so the envelope goes back or is given up.
  cases hend with
  | delivered hdelivers houtbound =>
      have htrue := hfails (n, true) (by simp [Trials.tried, Trials.withManifest, hxhand])
      cases htrue
  | putBack hundelivered _ houtbound =>
      rw [if_pos rfl] at hcounted ⊢
      have hturn : Turn R b.envelopes c.envelopes := by
        rw [hbefore, hafter, houtbound]
        exact .putBack hheld.left (Journey.toNat_retries_failed hmax hheld.left)
      exact ⟨c, h.keeps hrunning htiming houtbound hturn.length_le
        (fun f hf => hturn.exists_request hf) hcounted (h.spent.retry _ h.counted hhand)
        (h.restores_ends hends hundelivered hc) (h.writes_ends hhand hlink _ _ _), hidle,
        hturn.work_lt⟩
  | crowdedOut _ _ hfull =>
      rw [Queue.put_of_room e.failed h.isOpen (h.room_of_held hhand)] at hfull
      exact absurd rfl hfull
  | givenUp hundelivered hrequest hretries houtbound hadded =>
      -- The report has not been tried, so it is not the envelope itself that is back.
      have hother := Manifest.ne_singleton_of_untried hretries fun f hf => (hadded f hf).1
      rw [if_neg hother] at hcounted ⊢
      have hlast := hheld.last hmax hretries
      have hturn : Turn R b.envelopes c.envelopes := by
        rw [hbefore, hafter, houtbound]
        refine .givenUp hrequest hheld.left (hone fun f hf => ?_) fun f hf =>
          ⟨(hadded f hf).1, (hadded f hf).2.1⟩
        exact Manifest.ne_failed_of_untried hretries (hadded f hf).1
      exact ⟨c, h.keeps hrunning htiming houtbound hturn.length_le
        (fun f hf => hturn.exists_request hf) hcounted (h.spent.leave _ h.counted hhand hlast _)
        (h.restores_ends hends hundelivered hc) (h.writes_ends hhand hlink _ _ _), hidle,
        hturn.work_lt⟩

/-- Without envelopes nothing is taken. -/
theorem begin_idle (h : Draining R start s.stack i b x) (hempty : b.envelopes = []) :
    Draining R start (s.perform (.transmitBegin i)).stack i b
      (x.step i s.stack (.transmitBegin i) (s.perform (.transmitBegin i)).stack) := by
  obtain ⟨hhand, hitems⟩ := List.append_eq_nil_iff.mp hempty
  have htakes : s.stack.takes? i (.transmitBegin i) = none := by
    simp [takes?, h.running, hitems]
  have hstays := perform_transmitBegin_of_not_takes htakes
  rw [Trials.step_of_eq htakes rfl hstays, hstays]
  exact h

/-- With nothing in hand nothing is finished. -/
theorem end_idle (h : Draining R start s.stack i b x) (hidle : b.inHand = none) :
    Draining R start (s.perform (.transmitEnd i)).stack i b
      (x.step i s.stack (.transmitEnd i) (s.perform (.transmitEnd i)).stack) := by
  have hends : s.stack.ends? i (.transmitEnd i) = none := by simp [ends?, h.running, hidle]
  have hstays := perform_transmitEnd_of_not_ends hends
  rw [Trials.step_of_eq rfl hends hstays, hstays]
  exact h

/-- **One pass of the worker** takes some of the work, if there is any. -/
theorem pass (h : Draining R start s.stack i b x) (hmax : R < 0xFFFFFFFF) (hidle : b.inHand = none)
    (hfails : ∀ p ∈ (x.along i s [.transmitBegin i, .transmitEnd i]).writes, p.2 = false) :
    ∃ c, Draining R start (s.after [.transmitBegin i, .transmitEnd i]).stack i c
        (x.along i s [.transmitBegin i, .transmitEnd i]) ∧
      c.inHand = none ∧ totalWork R c.envelopes ≤ totalWork R b.envelopes - 1 := by
  have htaken : ∃ c, Draining R start (s.perform (.transmitBegin i)).stack i c
        (x.step i s.stack (.transmitBegin i) (s.perform (.transmitBegin i)).stack) ∧
      (c.inHand = none ∧ totalWork R c.envelopes ≤ totalWork R b.envelopes - 1 ∨
        c.inHand.isSome = true ∧ totalWork R c.envelopes = totalWork R b.envelopes) := by
    cases hitems : b.outbound.items with
    | nil =>
        have hempty : b.envelopes = [] := by rw [Bus.envelopes, hidle, hitems]; rfl
        refine ⟨b, h.begin_idle hempty, .inl ⟨hidle, ?_⟩⟩
        rw [hempty]
        exact Nat.zero_le _
    | cons e rest =>
        have htakes : s.stack.takes? i (.transmitBegin i) = some e := by
          simp [takes?, h.running, hidle, hitems]
        obtain ⟨c, hdraining, hwork⟩ := h.takes htakes
        refine ⟨c, hdraining, hwork.imp (fun hless => ⟨hless.1, ?_⟩) id⟩
        have hlt := hless.2
        omega
  obtain ⟨c, hdraining, ⟨hnone, hwork⟩ | ⟨hsome, hwork⟩⟩ := htaken
  · exact ⟨c, hdraining.end_idle hnone, hnone, hwork⟩
  · obtain ⟨e, hhand⟩ := Option.isSome_iff_exists.mp hsome
    obtain ⟨d, hdraining', hnone, hlt⟩ := hdraining.ends hmax hhand hfails
    refine ⟨d, hdraining', hnone, ?_⟩
    omega

/-- **Passes of the worker** take all the work, if there are enough of them. -/
theorem passes (h : Draining R start s.stack i b x) (hmax : R < 0xFFFFFFFF)
    (hidle : b.inHand = none) (n : Nat)
    (hfails : ∀ p ∈ (x.along i s (Action.passes i n)).writes, p.2 = false) :
    ∃ c, Draining R start (s.after (Action.passes i n)).stack i c
        (x.along i s (Action.passes i n)) ∧
      c.inHand = none ∧ totalWork R c.envelopes ≤ totalWork R b.envelopes - n := by
  induction n generalizing s b x with
  | zero => exact ⟨b, h, hidle, Nat.le_refl _⟩
  | succ n ih =>
      have hfirst : ∀ p ∈ (x.along i s [.transmitBegin i, .transmitEnd i]).writes, p.2 = false :=
        fun p hp => hfails p ((Trials.writes_along _ i _ (Action.passes i n)).subset hp)
      obtain ⟨c, hc, hnone, hwork⟩ := h.pass hmax hidle hfirst
      obtain ⟨d, hd, hnone', hwork'⟩ := ih hc hnone hfails
      refine ⟨d, hd, hnone', ?_⟩
      omega

end Draining

/-! ### Queues of running stacks -/

namespace Scheduler

open Stack

variable {s : Scheduler} {i : Nat} {b c : Bus}

/-- A transmit queue is closed only when the workers have stopped. -/
def OpenWhileRunning (s : Scheduler) : Prop :=
  ∀ (i : Nat) (b : Bus), s.stack.buses[i]? = some b → b.outbound.closed = true →
    s.stack.stopped = true

/-- Every action keeps the queues open while the workers run: only a shutdown closes them. -/
theorem openWhileRunning_perform (h : s.OpenWhileRunning) (hs : s.RoomIssued) (a : Action) :
    (s.perform a).OpenWhileRunning := by
  intro i c hc hclosed
  obtain ⟨b, hb, -⟩ := exists_bus_before_perform hc
  have hsame : c.outbound.closed = b.outbound.closed → (s.perform a).stack.stopped = true :=
    fun heq => (s.tells_perform a).stopped (h i b hb (heq ▸ hclosed))
  cases htakes : s.stack.takes? i a with
  | some e =>
      obtain ⟨b', c', rest, hb', -, -, ht, -, -, houtbound, -⟩ := exists_takes htakes
      obtain rfl : b = b' := Option.some.inj (hb.symm.trans hb')
      obtain rfl : c = c' := Option.some.inj (hc.symm.trans (ht.getElem?_self hb))
      exact hsame (by rw [houtbound])
  | none =>
      cases hends : s.stack.ends? i a with
      | some e =>
          obtain ⟨b', c', queued, arrived, hb', -, hc', -, -, -, -, -, hend⟩ := exists_ends hends
          obtain rfl : b = b' := Option.some.inj (hb.symm.trans hb')
          obtain rfl : c = c' := Option.some.inj (hc.symm.trans hc')
          cases hend with
          | delivered _ houtbound => exact hsame (by rw [houtbound])
          | putBack _ _ houtbound => exact hsame (by rw [houtbound])
          | crowdedOut _ _ _ houtbound => exact hsame (by rw [houtbound])
          | givenUp _ _ _ houtbound => exact hsame (by rw [houtbound])
      | none =>
          by_cases hstop : a = .stop
          · rw [hstop]
            rfl
          · obtain ⟨c', added, hc', -, -, -, houtbound, -⟩ :=
              Scheduler.exists_added_of_neither hs hb htakes hends
            obtain rfl : c = c' := Option.some.inj (hc.symm.trans hc')
            exact hsame (houtbound hstop)

/-- **In every run the queues are open until the workers stop.** -/
theorem openWhileRunning_after (h : s.OpenWhileRunning) (hs : s.RoomIssued) (as : List Action) :
    (s.after as).OpenWhileRunning := by
  have hboth : (s.after as).OpenWhileRunning ∧ (s.after as).RoomIssued := by
    refine after_induction (P := fun t => t.OpenWhileRunning ∧ t.RoomIssued) ⟨h, hs⟩ ?_
    rintro t a - ⟨hopen, hissued⟩
    exact ⟨openWhileRunning_perform hopen hissued a, roomIssued_perform hissued a⟩
  exact hboth.1

/-- The queues of a stack that has been built are open. -/
theorem openWhileRunning_atRest {setup : Setup} {stack : Stack}
    (hbuild : setup.build = .ok stack) : (atRest stack).OpenWhileRunning := by
  intro i b hb hclosed
  obtain ⟨config, link, rfl⟩ := Setup.exists_new_of_build hbuild hb
  cases hclosed

/-- A stack that has been built has no number in flight without an entry. -/
theorem accounted_atRest {setup : Setup} {stack : Stack} (hbuild : setup.build = .ok stack) :
    (atRest stack).Accounted := by
  intro i b hb
  obtain ⟨config, link, rfl⟩ := Setup.exists_new_of_build hbuild hb
  exact Ledger.accounted_new stack.timing.ledgerCapacity

end Scheduler

/-! ### From any queue -/

/-- The record of a queue none of whose envelopes has been tried. -/
def Trials.queued (es : List Envelope) : Trials :=
  ({} : Trials).withManifest (({} : Manifest).accept es)

/-- The scheduler with other envelopes in the queue of a bus. -/
def Scheduler.withQueue (s : Scheduler) (i : Nat) (es : List Envelope) : Scheduler :=
  s.onStack fun stack => stack.onBus i fun b => b.withItems es

/-- **A queue has drained** since a bus had some envelopes waiting: every envelope accepted since
has been tried as often as its retries allow, and the ledger is what it was. -/
structure Drained (R : UInt32) (start : Bus) (es : List Envelope) (c : Bus) (x : Trials) :
    Prop where
  items : c.outbound.items = []
  inHand : c.inHand = none
  accepted : es <+: x.manifest.accepted
  tries : ∀ n, n < x.manifest.accepted.length → x.triesOf n = List.replicate (R.toNat + 1) false
  entries : c.ledger.entries = start.ledger.entries
  busy : ∀ n, c.ledger.numbers.isBusy n = start.ledger.numbers.isBusy n
  writes : c.link.near.writes = start.link.near.writes + x.writes.length

section Queue

open Stack Scheduler

variable {R : UInt32} {s : Scheduler} {i : Nat} {b c : Bus} {x : Trials} {es : List Envelope}

/-- The worker is about to go on alone. -/
theorem Draining.start (hworker : s.stack.workerBus i = some b) (hidle : b.inHand = none)
    (hR : s.stack.timing.maxRetries = R) (hopen : b.outbound.closed = false)
    (haccounted : b.ledger.Accounted) (hretries : ∀ e ∈ es, e.retries = 0)
    (hroom : es.length ≤ b.outbound.capacity)
    (hapart : ∀ e ∈ es, e.msg.isResponse = false →
      ∀ entry ∈ b.ledger.entries, Ledger.slot entry ≠ SequenceNumber.ofByte e.msg.seq) :
    Draining R b (s.withQueue i es).stack i (b.withItems es) (Trials.queued es) := by
  obtain ⟨hstopped, hb, husable⟩ := workerBus_eq_some_iff.mp hworker
  have ht : Replaces i (b.withItems es) s.stack (s.withQueue i es).stack := Replaces.of_onBus hb
  have henvelopes : (b.withItems es).envelopes = es := by
    have hhand : (b.withItems es).inHand = none := hidle
    rw [Bus.envelopes, hhand]
    rfl
  have hempty : Trials.Counted R.toNat (b.withItems []) {} :=
    Trials.counted_of_empty R.toNat hidle rfl
  have hnone : (b.withItems es).requestInHand? = none := Bus.requestInHand?_of_idle hidle
  refine
    { running := workerBus_eq_some_iff.mpr ⟨ht.stopped.trans hstopped, ht.getElem?_self hb, husable⟩
      limit := (congrArg Timing.maxRetries ht.timing).trans hR
      isOpen := hopen
      room := by rw [henvelopes]; exact hroom
      apart := by rw [henvelopes]; exact hapart
      counted := hempty.accept rfl rfl hretries
      spent := ?_
      accounted := haccounted
      restores := ⟨fun _ => (Ledger.Draws.refl _).same, fun e he => ?_⟩
      writes := rfl }
  · intro n hn hplace
    refine absurd ?_ hplace
    have hwaiting : (Trials.queued es).manifest.waiting = List.range' 0 es.length := rfl
    rw [hwaiting]
    simpa [Trials.queued, Manifest.accept] using hn
  · rw [hnone] at he
    cases he

/-- Where no work is left the queue has drained. -/
theorem Draining.drained {start : Bus} {u : Stack} (h : Draining R start u i c x)
    (hidle : c.inHand = none) (hwork : totalWork R c.envelopes = 0)
    (haccepted : es <+: x.manifest.accepted) : Drained R start es c x := by
  have hempty := Turn.eq_nil_of_totalWork hwork
  have hitems : c.outbound.items = [] := (List.append_eq_nil_iff.mp hempty).2
  have hsame := h.restores.idle (Bus.requestInHand?_of_idle hidle)
  refine ⟨hitems, hidle, haccepted, fun n hn => h.spent n hn ?_, hsame.entries,
    fun n => Bool.eq_iff_iff.mpr (hsame.busy n), h.writes⟩
  have hwaiting := h.counted.waiting
  rw [hitems, List.forall₂_nil_right_iff] at hwaiting
  rw [hwaiting, Manifest.inHand_eq_none h.counted.inHand hidle]
  exact List.not_mem_nil

end Queue

/-- **The retry ceiling.** Let the number of retries be below the largest count. In every run of a
stack that has been built each envelope of a bus is written once more than its retries allow at
most, and not after a success; one originator at most is told that it has failed, and only of a
request after its last write. What waits or is in hand has counted just the writes that have failed.
And where the worker of a bus goes on alone from whatever envelopes that have not been tried, under
numbers that no pending request has, and every write fails, each envelope is written once more than
its retries allow, reports included; after so many passes as there was work the queue is empty, and
the same requests are pending and the same numbers in flight as before. -/
theorem retry_ceiling {setup : Setup} {stack : Stack} (hbuild : setup.build = .ok stack)
    (hmax : stack.timing.maxRetries < 0xFFFFFFFF) {i : Nat} (hi : i < stack.buses.length)
    (as : List Action) :
    let R := stack.timing.maxRetries
    let s := (Scheduler.atRest stack).after as
    let x := stack.trials i as
    ∃ b, s.stack.buses[i]? = some b ∧ (∀ n, x.Bounded R.toNat n) ∧
      List.Forall₂ (x.Pending R.toNat) x.manifest.waiting b.outbound.items ∧
      List.Forall₂ (x.Held R.toNat) x.manifest.inHand.toList b.inHand.toList ∧
      ∀ (es : List Envelope) (n : Nat), s.stack.workerBus i = some b → b.inHand = none →
        (∀ e ∈ es, e.retries = 0) → es.length ≤ b.outbound.capacity →
        (∀ e ∈ es, e.msg.isResponse = false → ∀ entry ∈ b.ledger.entries,
          Ledger.slot entry ≠ SequenceNumber.ofByte e.msg.seq) →
        Scheduler.totalWork R es ≤ n →
        let t := s.withQueue i es
        let y := (Trials.queued es).along i t (Action.passes i n)
        (∀ p ∈ y.writes, p.2 = false) →
          ∃ c, (t.after (Action.passes i n)).stack.buses[i]? = some c ∧ Drained R b es c y := by
  intro R s x
  have hstart : stack.buses[i]? = some stack.buses[i] := List.getElem?_eq_getElem hi
  have hcounted : Trials.Counted R.toNat stack.buses[i] {} := by
    obtain ⟨config, link, hnew⟩ := Setup.exists_new_of_build hbuild hstart
    rw [hnew]
    exact Trials.counted_of_empty R.toNat rfl rfl
  obtain ⟨b, hb, h⟩ := Trials.counted_along (s := Scheduler.atRest stack) hcounted
    (Scheduler.roomIssued_atRest stack) hstart rfl hmax as
  refine ⟨b, hb, h.bounded, h.waiting, h.inHand, ?_⟩
  intro es n hworker hidle hretries hroom hapart hwork t y hfails
  obtain ⟨hstopped, -⟩ := Stack.workerBus_eq_some_iff.mp hworker
  have hR : s.stack.timing.maxRetries = R :=
    Scheduler.after_induction (P := fun u => u.stack.timing.maxRetries = R) rfl fun u a _ hu =>
      Eq.trans (congrArg Timing.maxRetries (u.tells_perform a).timing) hu
  have hopen : b.outbound.closed = false := by
    have hcloses := Scheduler.openWhileRunning_after (Scheduler.openWhileRunning_atRest hbuild)
      (Scheduler.roomIssued_atRest stack) as i b hb
    rw [← Bool.not_eq_true]
    intro hclosed
    exact absurd (hcloses hclosed) (by rw [hstopped]; decide)
  have haccounted := Scheduler.accounted_after (Scheduler.accounted_atRest hbuild) as i b hb
  have hdraining :=
    Draining.start hworker hidle hR hopen haccounted hretries hroom hapart
  obtain ⟨c, hc, hnone, hless⟩ := hdraining.passes hmax hidle n hfails
  have hnothing : Scheduler.totalWork R c.envelopes = 0 := by
    have henvelopes : (b.withItems es).envelopes = es := by
      have hhand : (b.withItems es).inHand = none := hidle
      rw [Bus.envelopes, hhand]
      rfl
    rw [henvelopes] at hless
    omega
  exact ⟨c, (Stack.workerBus_eq_some_iff.mp hc.running).2.1,
    hc.drained hnone hnothing ((Trials.queued es).accepted_along i t (Action.passes i n))⟩

/-- A request is written, and from then on every write fails. -/
def deadLinkRun : List Action :=
  [.begin .sendRequest 0 { netFn := 0x06, cmd := 0x01 }, .transmitBegin 0, .transmitEnd 0,
    .relink 0 (bmcRow.link.fail .all)]

/-- That request is pending on the bus of a stack with one retry. -/
def deadLinkStart : Scheduler :=
  (Scheduler.atRest (bmcStack { maxRetries := 1 } .absent)).after deadLinkRun

/-- A request that has come over the bus itself, and a response. -/
def deadLinkQueue : List Envelope :=
  [{ msg := { netFn := 0x06, cmd := 0x02, seq := 3, infSource := .bmcIpmb } },
    { msg := { netFn := 0x07, cmd := 0x02, seq := 1 } }]

/-- What is tried when those are the queue. -/
def deadLinkTrials : Trials :=
  (Trials.queued deadLinkQueue).along 0 (deadLinkStart.withQueue 0 deadLinkQueue)
    (Action.passes 0 8)

/-- With one retry each of the two is tried twice, and so is the report that the first causes when
it is given up. Then the queue is empty, and the pending request still pending. -/
theorem retry_ceiling_deadLink :
    Setup.build { rows := [bmcRow], timing := { maxRetries := 1 } } =
        .ok (bmcStack { maxRetries := 1 } .absent) ∧
      deadLinkTrials.writes =
        [(0, false), (1, false), (0, false), (1, false), (2, false), (2, false)] ∧
      deadLinkTrials.reports = [0] ∧
      ∃ b c, deadLinkStart.stack.buses[0]? = some b ∧
        b.ledger.entries.map Ledger.slot = [1] ∧
        ((deadLinkStart.withQueue 0 deadLinkQueue).after (Action.passes 0 8)).stack.buses[0]? =
          some c ∧
        Drained 1 b deadLinkQueue c deadLinkTrials := by
  have hwrites : deadLinkTrials.writes =
      [(0, false), (1, false), (0, false), (1, false), (2, false), (2, false)] := by decide +kernel
  obtain ⟨b, hb, -, -, -, hdrains⟩ :=
    retry_ceiling (build_bmcStack { maxRetries := 1 } .absent) (by decide) (i := 0) (by decide)
      deadLinkRun
  have hstart : deadLinkStart.stack.buses[0]? = some b := hb
  have hseen : deadLinkStart.stack.buses[0]?.map (fun b =>
      (b.config.isUsable, b.inHand, b.outbound.capacity, b.ledger.entries.map Ledger.slot)) =
        some (true, none, 10, [1]) := by decide +kernel
  rw [hstart, Option.map_some, Option.some.injEq] at hseen
  simp only [Prod.mk.injEq] at hseen
  obtain ⟨husable, hidle, hcapacity, hslots⟩ := hseen
  have hworker : deadLinkStart.stack.workerBus 0 = some b :=
    Stack.workerBus_eq_some_iff.mpr ⟨by decide +kernel, hstart, husable⟩
  have hapart : ∀ e ∈ deadLinkQueue, e.msg.isResponse = false → ∀ entry ∈ b.ledger.entries,
      Ledger.slot entry ≠ SequenceNumber.ofByte e.msg.seq := by
    intro e he hrequest entry hentry heq
    have hmem : Ledger.slot entry ∈ b.ledger.entries.map Ledger.slot :=
      List.mem_map_of_mem hentry
    rw [hslots, heq] at hmem
    have hother : ∀ e ∈ deadLinkQueue, e.msg.isResponse = false →
        SequenceNumber.ofByte e.msg.seq ∉ ([1] : List SequenceNumber) := by decide
    exact hother e he hrequest hmem
  have hfails : ∀ p ∈ deadLinkTrials.writes, p.2 = false := by
    rw [hwrites]
    decide
  obtain ⟨c, hc, hdrained⟩ := hdrains deadLinkQueue 8 hworker hidle (by decide)
    (by rw [hcapacity]; decide) hapart (by decide) hfails
  exact ⟨build_bmcStack { maxRetries := 1 } .absent, hwrites, by decide +kernel, b, c, hstart,
    hslots, hc, hdrained⟩

end ManagementBus
