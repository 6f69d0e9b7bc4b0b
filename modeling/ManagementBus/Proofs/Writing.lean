import ManagementBus.Proofs.Relaying

/-!
# What a write does

The two halves of a write, case by case. `Stack.Replaces i c s t` states that `t` is `s` with the
bus `c` in the place of its bus number `i`, up to what has been reported, and each case of a half
names that bus: the envelope is in hand and perhaps staged, the write has succeeded, the envelope is
back in the queue, or its retries are used up and its failure is reported.

## Main results

* `transmitBegin_cases`: what the first half of a write comes to.
* `finishWrite_cases`: what the second half comes to.
-/

namespace ManagementBus

namespace Envelope

/-- A request that is staged under its own number. -/
def staged (e : Envelope) : Envelope := { e with msg.seqTarget := e.msg.seq }

/-- A response with the address at which the other end of a bus sits now. -/
def addressed (e : Envelope) (b : Bus) : Envelope :=
  { e with msg.destAddr := b.config.targetAddr }

/-- A failed write counts as one more try. -/
@[simp] theorem retries_failed (e : Envelope) : e.failed.retries = e.retries + 1 := rfl

end Envelope

namespace Bus

/-- The bus with other envelopes waiting. -/
def withItems (b : Bus) (items : List Envelope) : Bus :=
  { b with outbound := { b.outbound with items } }

/-- The bus with an envelope in hand whose write needs no record. -/
def holding (b : Bus) (e : Envelope) : Bus := { b with inHand := some e }

/-- The bus with a request in hand that is staged at a tick. -/
def staging (b : Bus) (e : Envelope) (now : UInt32) : Bus :=
  { b with ledger := b.ledger.stage e.msg now, inHand := some e }

/-- One try to write the frame of a message to the link of the bus. -/
def attempt (b : Bus) (m : Message) : Link × Except Fault Unit :=
  match Frame.encode m with
  | .error fault => (b.link, .error fault)
  | .ok frame => b.link.write m.destAddr (Frame.wirePayload frame)

/-- Whether the next write of the bus succeeds. -/
def delivers (b : Bus) (e : Envelope) : Bool := (b.attempt e.msg).2.isOk

/-- The bus after the envelope in hand has been written. -/
def delivered (b : Bus) (e : Envelope) : Bus :=
  { b with
    inHand := none
    link := (b.attempt e.msg).1
    ledger := if e.msg.isResponse then b.ledger else b.ledger.commit.1 }

/-- The bus after the envelope in hand could not be written: a request is withdrawn. -/
def undelivered (b : Bus) (e : Envelope) : Bus :=
  { b with
    inHand := none
    link := (b.attempt e.msg).1
    ledger := if e.msg.isResponse then b.ledger else (b.ledger.withdraw e.msg).1 }

/-- The bus after it has been offered an envelope to transmit. -/
def offered (b : Bus) (e : Envelope) : Bus := { b with outbound := (b.outbound.put e).1 }

/-- The bus after a write that is to be tried again. -/
def retrying (b : Bus) (e : Envelope) : Bus := (b.undelivered e).offered e.failed

end Bus

namespace Stack

open EnvelopeProperty

variable {s t u : Stack} {i : Nat} {b c : Bus} {e : Envelope}

/-! ### Replacing a bus -/

/-- One bus has been replaced, and something perhaps reported. -/
def Replaces (i : Nat) (c : Bus) (s t : Stack) : Prop :=
  t = { s with buses := s.buses.set i c, journal := t.journal }

namespace Replaces

/-- A change of a bus that is there replaces it. -/
theorem of_onBus {f : Bus → Bus} (hb : s.buses[i]? = some b) :
    Replaces i (f b) s (s.onBus i f) := by
  have hset : s.buses.modify i f = s.buses.set i (f b) := by
    refine List.ext_getElem? ?_
    intro j
    rw [List.getElem?_modify, List.getElem?_set]
    by_cases hij : i = j
    · subst hij
      obtain ⟨hlt, hget⟩ := List.getElem?_eq_some_iff.mp hb
      simp [hget, hlt]
    · simp [hij]
  rw [Replaces, onBus, hset]

/-- A bus may be replaced by itself. -/
theorem refl (hb : s.buses[i]? = some b) : Replaces i b s s := by
  obtain ⟨hlt, rfl⟩ := List.getElem?_eq_some_iff.mp hb
  rw [Replaces, List.set_getElem_self]

/-- The settings of the stack stay when a bus is replaced. -/
theorem timing (h : Replaces i c s t) : t.timing = s.timing := by rw [h]

/-- The policy of the board stays when a bus is replaced. -/
theorem policy (h : Replaces i c s t) : t.policy = s.policy := by rw [h]

/-- What the host has been told stays when a bus is replaced. -/
theorem kcs (h : Replaces i c s t) : t.kcs = s.kcs := by rw [h]

/-- The clock stays when a bus is replaced. -/
theorem clock (h : Replaces i c s t) : t.clock = s.clock := by rw [h]

/-- What waits for the dispatcher stays when a bus is replaced. -/
theorem requests (h : Replaces i c s t) : t.requests = s.requests := by rw [h]

/-- A stack in which a bus is replaced is neither shut down nor restarted. -/
theorem stopped (h : Replaces i c s t) : t.stopped = s.stopped := by rw [h]

/-- A report after the replacement makes no difference. -/
theorem report (h : Replaces i c s t) (es : List Event) : Replaces i c s (t.report es) := by
  rw [Replaces, Stack.report, h]

/-- A single report after the replacement makes no difference. -/
theorem emit (h : Replaces i c s t) (ev : Event) : Replaces i c s (t.emit ev) :=
  h.report [ev]

/-- The bus that has been put there is there. -/
theorem getElem?_self (h : Replaces i c s t) (hb : s.buses[i]? = some b) :
    t.buses[i]? = some c := by
  obtain ⟨hlt, -⟩ := List.getElem?_eq_some_iff.mp hb
  rw [h]
  exact List.getElem?_set_self hlt

/-- The other buses are as they were. -/
theorem getElem?_ne (h : Replaces i c s t) {j : Nat} (hij : i ≠ j) : t.buses[j]? = s.buses[j]? := by
  rw [h]
  exact List.getElem?_set_ne hij

/-- A bus that has been replaced may be changed again. -/
theorem then_onBus (h : Replaces i c s t) (hb : s.buses[i]? = some b) (f : Bus → Bus) :
    Replaces i (f c) s (t.onBus i f) := by
  have hf := of_onBus (f := f) (h.getElem?_self hb)
  rw [Replaces] at h hf ⊢
  rw [hf, h]
  simp

end Replaces

/-! ### The first half -/

/-- A bus has a worker as long as it is usable and the stack runs. -/
theorem workerBus_eq_some_iff :
    s.workerBus i = some b ↔
      s.stopped = false ∧ s.buses[i]? = some b ∧ b.config.isUsable = true := by
  constructor
  · intro h
    rw [workerBus] at h
    split at h
    · cases h
    · next hstopped =>
        have husable : s.usableBus i = .ok b := by
          cases hu : s.usableBus i with
          | error fault => simp [hu, Except.toOption] at h
          | ok c => simpa [hu, Except.toOption] using h
        exact ⟨by simpa using hstopped, getElem?_of_usableBus husable⟩
  · rintro ⟨hstopped, hb, husable⟩
    simp [workerBus, usableBus, hstopped, hb, husable, Except.toOption]

/-- Taking an envelope in hand is a change of its bus. -/
theorem replaces_takeInHand (hb : s.buses[i]? = some b) (e : Envelope) :
    Replaces i (b.holding e) s (s.takeInHand i e) := by
  have hhold : Replaces i (b.holding e) s (s.onBus i fun b => { b with inHand := some e }) :=
    Replaces.of_onBus hb
  rw [takeInHand]
  split
  · exact hhold.report _
  · exact hhold

/-- Of two replacements of one bus the second counts. -/
theorem Replaces.trans (h₁ : Replaces i b s t) (h₂ : Replaces i c t u) : Replaces i c s u := by
  rw [Replaces] at h₁ h₂ ⊢
  rw [h₂, h₁]
  simp

/-- What becomes of an envelope that has left the queue. -/
theorem begin_cases {d : Bus} (b : Bus) (e : Envelope) (hd : s.buses[i]? = some d)
    (htake : Replaces i c s t) :
    let r := if e.msg.isResponse then t.beginResponse i b e else t.beginRequest i e
    (e.msg.isResponse = true ∧ t.timing.maxRetries < e.retries ∧ Replaces i c s r.1) ∨
      (e.msg.isResponse = true ∧ ¬t.timing.maxRetries < e.retries ∧
        Replaces i (c.holding (e.addressed b)) s r.1) ∨
      (e.msg.isResponse = false ∧ Replaces i (c.staging e.staged t.clock.now) s r.1) := by
  intro r
  have hc := htake.getElem?_self hd
  by_cases hresponse : e.msg.isResponse = true
  · have hr : r = t.beginResponse i b e := if_pos hresponse
    rw [hr, beginResponse]
    by_cases hretries : t.timing.maxRetries < e.retries
    · rw [if_pos hretries]
      exact .inl ⟨hresponse, hretries, htake.emit _⟩
    · rw [if_neg hretries]
      exact .inr (.inl ⟨hresponse, hretries, htake.trans (replaces_takeInHand hc _)⟩)
  · have hr : r = t.beginRequest i e := if_neg hresponse
    rw [hr]
    refine .inr (.inr ⟨by simpa using hresponse, ?_⟩)
    have hstage := htake.then_onBus hd fun b =>
      { b with ledger := b.ledger.stage e.staged.msg t.clock.now }
    exact hstage.trans (replaces_takeInHand (hstage.getElem?_self hd) _)

/-- **The first half of a write.** Nothing happens, or the oldest envelope leaves the queue: a
response is dropped or in hand, and a request is staged and in hand. -/
theorem transmitBegin_cases (s : Stack) (i : Nat) :
    (s.transmitBegin i).1 = s ∨
      ∃ b e rest, s.workerBus i = some b ∧ b.inHand = none ∧ b.outbound.items = e :: rest ∧
        ((e.msg.isResponse = true ∧ s.timing.maxRetries < e.retries ∧
            Replaces i (b.withItems rest) s (s.transmitBegin i).1) ∨
          (e.msg.isResponse = true ∧ ¬s.timing.maxRetries < e.retries ∧
            Replaces i ((b.withItems rest).holding (e.addressed b)) s (s.transmitBegin i).1) ∨
          (e.msg.isResponse = false ∧
            Replaces i ((b.withItems rest).staging e.staged s.clock.now) s
              (s.transmitBegin i).1)) := by
  rw [transmitBegin]
  split
  · exact .inl rfl
  · next b hworker =>
      obtain ⟨-, hb, -⟩ := workerBus_eq_some_iff.mp hworker
      split
      · exact .inl rfl
      · next hhand =>
          have hnone : b.inHand = none := by simpa using hhand
          cases hitems : b.outbound.items with
          | nil => exact .inl (by simp [Queue.get, hitems])
          | cons e rest =>
              refine .inr ⟨b, e, rest, hworker, hnone, hitems, ?_⟩
              have hget : b.outbound.get = ({ b.outbound with items := rest }, some e) := by
                simp [Queue.get, hitems]
              have htake : Replaces i (b.withItems rest) s
                  (s.onBus i fun b' => { b' with outbound := { b.outbound with items := rest } }) :=
                Replaces.of_onBus hb
              rw [hget]
              exact begin_cases b e hb htake

/-! ### The second half -/

/-- A write of the worker is a try on the link of its bus. -/
theorem writeFrame_eq (hb : s.buses[i]? = some b) (m : Message) (hlink : c.link = b.link) :
    Replaces i { b with link := (c.attempt m).1 } s (s.writeFrame i c m).1 ∧
      (s.writeFrame i c m).2 = (c.attempt m).2 := by
  cases hframe : Frame.encode m with
  | error fault =>
      simp only [writeFrame, Bus.attempt, hframe, and_true]
      rw [hlink]
      exact Replaces.refl hb
  | ok frame =>
      simp only [writeFrame, Bus.attempt, hframe, and_true]
      exact Replaces.of_onBus hb

/-- Offering an envelope to the queue of a bus, with a report or without. -/
theorem replaces_requeue {d : Bus} (hd : s.buses[i]? = some d) (h : Replaces i c s t)
    (hqueue : b.outbound = c.outbound) (e : Envelope) :
    Replaces i (c.offered e) s (t.requeue i b e) := by
  have hoffer : Replaces i (c.offered e) s (t.enqueue i b e).1 := by
    have henqueue := h.then_onBus hd fun b' => { b' with outbound := (b.outbound.put e).1 }
    rw [hqueue] at henqueue
    rw [enqueue, hqueue]
    exact henqueue
  rw [requeue]
  split
  · next u heq =>
      rw [heq] at hoffer
      exact hoffer
  · next u p _ heq =>
      rw [heq] at hoffer
      exact hoffer.emit _

/-- **The second half of a write.** The write succeeds; or it fails and the envelope is offered to
the queue again; or it fails for the last time, and the originator of the request is told. -/
theorem finishWrite_cases (hb : s.buses[i]? = some b) (e : Envelope) :
    (b.delivers e = true ∧ Replaces i (b.delivered e) s (s.finishWrite i b e)) ∨
      (b.delivers e = false ∧ (e.msg.isResponse = true ∨ ¬s.timing.maxRetries < e.failed.retries) ∧
        Replaces i (b.retrying e) s (s.finishWrite i b e)) ∨
      (b.delivers e = false ∧ e.msg.isResponse = false ∧ s.timing.maxRetries < e.failed.retries ∧
        ∃ u, Replaces i (b.undelivered e) s u ∧ s.finishWrite i b e = u.reportFailure e.msg) := by
  have hidle : Replaces i { b with inHand := none } s
      (s.onBus i fun b => { b with inHand := none }) := Replaces.of_onBus hb
  obtain ⟨hwrite, houtcome⟩ := writeFrame_eq (hidle.getElem?_self hb) e.msg (c := b) rfl
  have htried := hidle.trans hwrite
  rw [finishWrite]
  split
  · next t _ heq =>
      rw [heq] at houtcome htried
      have hdelivers : b.delivers e = true := by rw [Bus.delivers, ← houtcome]; rfl
      refine .inl ⟨hdelivers, ?_⟩
      by_cases hresponse : e.msg.isResponse = true
      · rw [if_pos hresponse, Bus.delivered, if_pos hresponse]
        exact htried.emit _
      · rw [if_neg hresponse, Bus.delivered, if_neg hresponse]
        have hcommit := htried.then_onBus hb fun c => { c with ledger := b.ledger.commit.1 }
        exact (hcommit.report _).emit _
  · next t fault heq =>
      rw [heq] at houtcome htried
      have hdelivers : b.delivers e = false := by rw [Bus.delivers, ← houtcome]; rfl
      by_cases hresponse : e.msg.isResponse = true
      · refine .inr (.inl ⟨hdelivers, .inl hresponse, ?_⟩)
        have hundelivered : Replaces i (b.undelivered e) s t := by
          rw [Bus.undelivered, if_pos hresponse]
          exact htried
        simp only [hresponse, if_true]
        exact replaces_requeue hb (hundelivered.emit _) rfl e.failed
      · have hundelivered : Replaces i (b.undelivered e) s
            (t.onBus i fun b => { b with ledger := (b.ledger.withdraw e.msg).1 }) := by
          rw [Bus.undelivered, if_neg hresponse]
          exact htried.then_onBus hb fun b => { b with ledger := (b.ledger.withdraw e.msg).1 }
        simp only [hresponse, Bool.false_eq_true, if_false]
        split
        · next hretries =>
            have htiming := htried.timing
            refine .inr (.inr ⟨hdelivers, by simp, ?_, ?_⟩)
            · rw [← htiming]
              exact hretries
            · exact ⟨_, (hundelivered.emit _).emit _, rfl⟩
        · next hretries =>
            refine .inr (.inl ⟨hdelivers, .inr ?_, ?_⟩)
            · rw [← htried.timing]
              exact hretries
            · exact replaces_requeue hb (hundelivered.emit _) rfl e.failed

end Stack

end ManagementBus
