import ManagementBus.Proofs.Building
import ManagementBus.Proofs.Telling

/-!
# The way of a request through the transmit path

A request that has been queued for the wire leaves the transmit path when its write succeeds, or
when its write has failed once more often than it may be tried again; the host is then told. It also
leaves it when a write has failed, retries are left, and others have filled the queue meanwhile:
then the request is dropped, and nobody is told.

A `Journey` follows one envelope by its place. It reads the place off what can be seen from outside,
before and after each action: how many envelopes wait, whether one is in hand, how many frames the
bus has delivered, and what the host has been sent.

## Main results

* `Journey.lawful_along`: for every envelope of the host and every run, where the envelope is, what
  has become of each of its writes, and what the host has been told of it.
* `hostRequest_journey`: the same for a request of the host from the moment at which it is queued,
  and that it is dropped just where others have filled the queue.
-/

namespace ManagementBus

/-- Where an envelope is that has been queued on a bus. -/
inductive Place where
  /-- In the queue, behind so many others. -/
  | queued (before : Nat)
  | inHand
  /-- It has been written. -/
  | delivered
  /-- It could not be written, and the host has been told. -/
  | reported
  /-- It could not be written, and nobody has been told. -/
  | dropped
deriving DecidableEq

/-- The way of an envelope so far. -/
structure Journey where
  place : Place
  /-- Whether each write of the envelope has succeeded, in order. -/
  attempts : List Bool := []
  /-- What the host has been sent by the writes of the envelope. -/
  reports : List (List UInt8) := []
deriving DecidableEq

namespace Journey

/-- The journey after an action, from the bus before and after it and the buffers that the action
has sent to the host. -/
def next (j : Journey) (b c : Bus) (buffers : List (List UInt8)) : Journey :=
  match j.place with
  | .queued n =>
    if c.outbound.items.length < b.outbound.items.length then
      { j with place := if n = 0 then .inHand else .queued (n - 1) }
    else j
  | .inHand =>
    if c.inHand.isSome then j
    else if b.link.near.sent.length < c.link.near.sent.length then
      { place := .delivered, attempts := j.attempts ++ [true], reports := j.reports ++ buffers }
    else
      { place :=
          if b.outbound.items.length < c.outbound.items.length then
            .queued b.outbound.items.length
          else if buffers = [] then .dropped else .reported
        attempts := j.attempts ++ [false]
        reports := j.reports ++ buffers }
  | .delivered | .reported | .dropped => j

/-- The journey of an envelope on a bus after a step between two stacks. -/
def step (j : Journey) (i : Nat) (s t : Stack) : Journey :=
  match s.buses[i]?, t.buses[i]? with
  | some b, some c => j.next b c (t.kcs.written.drop s.kcs.written.length)
  | _, _ => j

/-- The journey after a run. -/
def along (j : Journey) (i : Nat) (s : Scheduler) : List Action → Journey
  | [] => j
  | a :: as => (j.step i s.stack (s.perform a).stack).along i (s.perform a) as

/-- The envelope is in hand, its write fails with retries left, and its queue is full. -/
def Crowded (j : Journey) (i : Nat) (s t : Stack) : Prop :=
  j.place = .inHand ∧ ∃ b e c, s.buses[i]? = some b ∧ b.inHand = some e ∧
    t.buses[i]? = some c ∧ c.inHand = none ∧
      b.delivers e = false ∧ e.retries < s.timing.maxRetries ∧ b.outbound.isFull = true

/-- Somewhere in a run the write of the envelope fails with retries left, and its queue is full. -/
def CrowdedOut (j : Journey) (i : Nat) (s : Scheduler) : List Action → Prop
  | [] => False
  | a :: as =>
    j.Crowded i s.stack (s.perform a).stack ∨
      (j.step i s.stack (s.perform a).stack).CrowdedOut i (s.perform a) as

/-- What may become of a request of the host, with the number of times it may be tried again: it
waits or is in hand, and every write has failed; it has been written in the end; it has failed once
more often than it may be tried again, and the host has been sent the refusal and nothing else; or
it has been dropped before. -/
inductive Lawful (maxRetries : UInt32) (m : Message) (b : Bus) : Journey → Prop
  | queued {n k : Nat} {e : Envelope} (hitem : b.outbound.items[n]? = some e)
      (hmsg : e.msg = { m with seqTarget := e.msg.seqTarget }) (hretries : e.retries.toNat = k)
      (hk : k ≤ maxRetries.toNat) :
      Lawful maxRetries m b { place := .queued n, attempts := List.replicate k false }
  | inHand {k : Nat} {e : Envelope} (hhand : b.inHand = some e)
      (hmsg : e.msg = { m with seqTarget := e.msg.seqTarget }) (hretries : e.retries.toNat = k)
      (hk : k ≤ maxRetries.toNat) :
      Lawful maxRetries m b { place := .inHand, attempts := List.replicate k false }
  | delivered {k : Nat} (hk : k ≤ maxRetries.toNat) :
      Lawful maxRetries m b { place := .delivered, attempts := List.replicate k false ++ [true] }
  | reported :
      Lawful maxRetries m b
        { place := .reported
          attempts := List.replicate (maxRetries.toNat + 1) false
          reports := [Stack.hostRefusal m] }
  | dropped {k : Nat} (hk : k < maxRetries.toNat) :
      Lawful maxRetries m b { place := .dropped, attempts := List.replicate (k + 1) false }

end Journey

/-! ### Writes on the link -/

/-- Just a write that succeeds delivers a frame. -/
theorem Link.sent_write (l : Link) (addr : UInt8) (payload : List UInt8) :
    (l.write addr payload).1.near.sent.length =
      l.near.sent.length + if (l.write addr payload).2.isOk then 1 else 0 := by
  simp only [write]
  split
  · simp [Except.isOk, Except.toBool]
  · split
    · simp [Except.isOk, Except.toBool]
    · simp [Except.isOk, Except.toBool]

namespace Bus

variable {b : Bus} {e : Envelope}

/-- A write adds a frame to what has been sent just when it succeeds. -/
theorem sent_attempt (b : Bus) (m : Message) :
    (b.attempt m).1.near.sent.length =
      b.link.near.sent.length + if (b.attempt m).2.isOk then 1 else 0 := by
  rw [attempt]
  split
  · simp [Except.isOk, Except.toBool]
  · exact Link.sent_write _ _ _

/-- A write that succeeds sends one frame. -/
theorem sent_delivered (h : b.delivers e = true) :
    (b.delivered e).link.near.sent.length = b.link.near.sent.length + 1 := by
  have hsent := b.sent_attempt e.msg
  rw [delivers] at h
  rw [h] at hsent
  exact hsent

/-- A write that fails sends none. -/
theorem sent_undelivered (h : b.delivers e = false) :
    (b.undelivered e).link.near.sent.length = b.link.near.sent.length := by
  have hsent := b.sent_attempt e.msg
  rw [delivers] at h
  rw [h] at hsent
  exact hsent

/-- An open queue takes an envelope unless it is full. -/
theorem items_offered (hopen : b.outbound.closed = false) (e : Envelope) :
    (b.offered e).outbound.items =
      if b.outbound.isFull then b.outbound.items else b.outbound.items ++ [e] := by
  rw [offered, Queue.put, hopen]
  split
  · simp_all
  · split
    · simp_all
    · simp_all

/-- Offering an envelope does not close the queue. -/
theorem closed_offered (b : Bus) (e : Envelope) :
    (b.offered e).outbound.closed = b.outbound.closed := by
  have hoffered : (b.offered e).outbound = (b.outbound.put e).1 := rfl
  rw [hoffered, Queue.closed_put]

end Bus

namespace Journey

open Stack

variable {P : EnvelopeProperty} {R : UInt32} {m : Message} {b c : Bus} {j : Journey}
  {e : Envelope} {rest : List Envelope}

/-! ### One action on the bus -/

/-- Whatever is added behind it, an envelope that is not in hand keeps its place. -/
theorem lawful_of_appends (buffers : List (List UInt8)) {added : List Envelope}
    (hitems : c.outbound.items = b.outbound.items ++ added) (hplace : j.place ≠ .inHand)
    (hj : Lawful R m b j) : j.next b c buffers = j ∧ Lawful R m c j := by
  have hlength : ¬c.outbound.items.length < b.outbound.items.length := by
    rw [hitems, List.length_append]
    omega
  cases hj with
  | queued hitem hmsg hretries hk =>
      refine ⟨if_neg hlength, .queued ?_ hmsg hretries hk⟩
      obtain ⟨hlt, -⟩ := List.getElem?_eq_some_iff.mp hitem
      rw [hitems, List.getElem?_append_left hlt]
      exact hitem
  | inHand => exact absurd rfl hplace
  | delivered hk => exact ⟨rfl, .delivered hk⟩
  | reported => exact ⟨rfl, .reported⟩
  | dropped hk => exact ⟨rfl, .dropped hk⟩

/-- Where the queue only grows, every envelope keeps its place. -/
theorem lawful_of_grows (buffers : List (List UInt8)) (h : b.Grows P c) (hj : Lawful R m b j) :
    j.next b c buffers = j ∧ Lawful R m c j := by
  obtain ⟨added, houtbound⟩ := h.outbound
  by_cases hplace : j.place = .inHand
  · cases hj with
    | inHand hhand hmsg hretries hk =>
        have hhand' := h.inHand.trans hhand
        refine ⟨if_pos ?_, .inHand hhand' hmsg hretries hk⟩
        rw [hhand']
        rfl
    | queued | delivered | reported | dropped => cases hplace
  · exact lawful_of_appends buffers (by rw [houtbound]) hplace hj

/-- When the oldest envelope leaves the queue the others move up, and a request is in hand. -/
theorem lawful_of_takes (buffers : List (List UInt8)) (hidle : b.inHand = none)
    (hitems : b.outbound.items = e :: rest) (hrest : c.outbound.items = rest)
    (hhand : e.msg.isResponse = false → c.inHand = some e.staged)
    (hm : m.isResponse = false) (hj : Lawful R m b j) :
    Lawful R m c (j.next b c buffers) ∧
      ((j.next b c buffers).place = .dropped ↔ j.place = .dropped) := by
  have hlength : c.outbound.items.length < b.outbound.items.length := by
    rw [hitems, hrest, List.length_cons]
    omega
  cases hj with
  | @queued n k e' hitem hmsg hretries hk =>
      cases n with
      | zero =>
          obtain rfl : e = e' := by simpa [hitems] using hitem
          have hrequest : e.msg.isResponse = false := by
            rw [hmsg]
            exact hm
          have hstaged : e.staged.msg = { m with seqTarget := e.staged.msg.seqTarget } := by
            rw [Envelope.staged, hmsg]
          have hnext : Journey.next { place := .queued 0, attempts := List.replicate k false }
              b c buffers = { place := .inHand, attempts := List.replicate k false } :=
            if_pos hlength
          rw [hnext]
          exact ⟨.inHand (hhand hrequest) hstaged hretries hk, by simp⟩
      | succ n =>
          have hnext : Journey.next { place := .queued (n + 1), attempts := List.replicate k false }
              b c buffers = { place := .queued n, attempts := List.replicate k false } :=
            if_pos hlength
          rw [hnext]
          refine ⟨.queued ?_ hmsg hretries hk, by simp⟩
          rw [hrest]
          simpa [hitems] using hitem
  | inHand hhand' =>
      rw [hidle] at hhand'
      cases hhand'
  | delivered hk => exact ⟨.delivered hk, by simp [next]⟩
  | reported => exact ⟨.reported, by simp [next]⟩
  | dropped hk => exact ⟨.dropped hk, by simp [next]⟩

/-- The envelope in hand has been written. -/
theorem lawful_of_delivered (hdelivers : b.delivers e = true) (hj : Lawful R m b j) :
    Lawful R m (b.delivered e) (j.next b (b.delivered e) []) ∧
      ((j.next b (b.delivered e) []).place = .dropped ↔ j.place = .dropped) := by
  by_cases hplace : j.place = .inHand
  · cases hj with
    | @inHand k e' hhand' hmsg hretries hk =>
        have hsent : b.link.near.sent.length < (b.delivered e).link.near.sent.length := by
          rw [Bus.sent_delivered hdelivers]
          omega
        have hnext : Journey.next { place := .inHand, attempts := List.replicate k false } b
            (b.delivered e) [] =
              { place := .delivered, attempts := List.replicate k false ++ [true] } := by
          simp [next, Bus.delivered] at hsent ⊢
          exact hsent
        rw [hnext]
        exact ⟨.delivered hk, by simp⟩
    | queued | delivered | reported | dropped => cases hplace
  · have hitems : (b.delivered e).outbound.items = b.outbound.items ++ [] := by
      rw [List.append_nil]
      rfl
    obtain ⟨hnext, hlawful⟩ := lawful_of_appends [] hitems hplace hj
    rw [hnext]
    exact ⟨hlawful, Iff.rfl⟩

/-- What a failed write makes of the journey of the envelope in hand. -/
theorem next_of_failed {attempts : List Bool} {reports buffers : List (List UInt8)}
    (hidle : c.inHand = none)
    (hsent : ¬b.link.near.sent.length < c.link.near.sent.length) :
    Journey.next { place := .inHand, attempts, reports } b c buffers =
      { place :=
          if b.outbound.items.length < c.outbound.items.length then
            .queued b.outbound.items.length
          else if buffers = [] then .dropped else .reported
        attempts := attempts ++ [false]
        reports := reports ++ buffers } := by
  simp [next, hidle, hsent]

/-- Below the largest count of retries a failed write is counted. -/
theorem toNat_retries_failed (hmax : R < 0xFFFFFFFF) (hk : e.retries.toNat ≤ R.toNat) :
    e.failed.retries.toNat = e.retries.toNat + 1 := by
  have hR : R.toNat < 0xFFFFFFFF := UInt32.lt_iff_toNat_lt.mp hmax
  have hsum : (e.retries + 1).toNat = (e.retries.toNat + 1) % 2 ^ 32 := UInt32.toNat_add _ _
  rw [Envelope.retries_failed, hsum]
  omega

/-- The envelope in hand could not be written, and is offered to the queue again. -/
theorem lawful_of_retrying (hhand : b.inHand = some e) (hdelivers : b.delivers e = false)
    (hopen : b.outbound.closed = false) (hm : m.isResponse = false) (hmax : R < 0xFFFFFFFF)
    (hretry : e.msg.isResponse = true ∨ ¬R < e.failed.retries) (hj : Lawful R m b j) :
    Lawful R m (b.retrying e) (j.next b (b.retrying e) []) ∧
      ((j.next b (b.retrying e) []).place = .dropped ↔
        j.place = .dropped ∨
          j.place = .inHand ∧ e.retries < R ∧ b.outbound.isFull = true) := by
  have hitems : (b.retrying e).outbound.items =
      if b.outbound.isFull then b.outbound.items else b.outbound.items ++ [e.failed] :=
    Bus.items_offered (b := b.undelivered e) hopen e.failed
  -- The request is in hand, so its write has failed; or it is elsewhere, and another has failed.
  by_cases hplace : j.place = .inHand
  · cases hj with
    | @inHand k e' hhand' hmsg hretries hk =>
        obtain rfl : e = e' := Option.some.inj (hhand.symm.trans hhand')
        have hrequest : ¬e.msg.isResponse = true := by
          have hsame : e.msg.isResponse = m.isResponse := by
            rw [hmsg]
            rfl
          rw [hsame, hm]
          decide
        have hle : ¬R < e.failed.retries := hretry.resolve_left hrequest
        have hfailed := toNat_retries_failed (e := e) hmax (hretries ▸ hk)
        have hlt : k < R.toNat := by
          rw [UInt32.lt_iff_toNat_lt] at hle
          omega
        have hretriesLt : e.retries < R := by
          rw [UInt32.lt_iff_toNat_lt, hretries]
          exact hlt
        have hsent : ¬b.link.near.sent.length < (b.retrying e).link.near.sent.length := by
          have hundelivered := Bus.sent_undelivered hdelivers
          have hlink : (b.retrying e).link = (b.undelivered e).link := rfl
          rw [hlink, hundelivered]
          omega
        have hattempts : List.replicate k false ++ [false] = List.replicate (k + 1) false :=
          (List.replicate_succ' ..).symm
        by_cases hfull : b.outbound.isFull = true
        · rw [if_pos hfull] at hitems
          have hnext : Journey.next { place := .inHand, attempts := List.replicate k false } b
              (b.retrying e) [] =
                { place := .dropped, attempts := List.replicate (k + 1) false } := by
            rw [next_of_failed rfl hsent, hitems, hattempts]
            simp
          rw [hnext]
          exact ⟨.dropped hlt, by simp [hfull, hretriesLt]⟩
        · rw [if_neg hfull] at hitems
          have hnext : Journey.next { place := .inHand, attempts := List.replicate k false } b
              (b.retrying e) [] =
                { place := .queued b.outbound.items.length
                  attempts := List.replicate (k + 1) false } := by
            rw [next_of_failed rfl hsent, hitems, hattempts]
            simp
          rw [hnext]
          refine ⟨.queued (e := e.failed) ?_ hmsg (by rw [hfailed, hretries]) hlt, by simp [hfull]⟩
          rw [hitems]
          simp
    | queued | delivered | reported | dropped => cases hplace
  · have happends : ∃ added, (b.retrying e).outbound.items = b.outbound.items ++ added := by
      rw [hitems]
      split
      · exact ⟨[], by simp⟩
      · exact ⟨_, rfl⟩
    obtain ⟨added, hadded⟩ := happends
    obtain ⟨hnext, hlawful⟩ := lawful_of_appends [] hadded hplace hj
    rw [hnext]
    exact ⟨hlawful, by simp [hplace]⟩

/-- The envelope in hand could not be written for the last time. If it is a request of the host then
the host has been told. -/
theorem lawful_of_reported {buffers : List (List UInt8)} (hhand : b.inHand = some e)
    (hdelivers : b.delivers e = false) (hmax : R < 0xFFFFFFFF) (hlast : R < e.failed.retries)
    (hsource : m.infSource = .hostKcs) (hlink : c.link = (b.undelivered e).link)
    (hidle : c.inHand = none)
    (hitems : ∃ added, c.outbound.items = b.outbound.items ++ added)
    (hhost : e.msg.infSource = .hostKcs →
      c.outbound = b.outbound ∧ buffers = [Stack.hostRefusal e.msg])
    (hj : Lawful R m b j) :
    Lawful R m c (j.next b c buffers) ∧
      ((j.next b c buffers).place = .dropped ↔ j.place = .dropped) := by
  by_cases hplace : j.place = .inHand
  · cases hj with
    | @inHand k e' hhand' hmsg hretries hk =>
        obtain rfl : e = e' := Option.some.inj (hhand.symm.trans hhand')
        have hchannel : e.msg.infSource = .hostKcs := by
          rw [hmsg]
          exact hsource
        obtain ⟨houtbound, hbuffers⟩ := hhost hchannel
        have hrefusal : Stack.hostRefusal e.msg = Stack.hostRefusal m := by
          rw [hmsg]
          rfl
        have hfailed := toNat_retries_failed (e := e) hmax (hretries ▸ hk)
        have hall : k = R.toNat := by
          rw [UInt32.lt_iff_toNat_lt] at hlast
          omega
        have hsent : ¬b.link.near.sent.length < c.link.near.sent.length := by
          rw [hlink, Bus.sent_undelivered hdelivers]
          omega
        have hnext : Journey.next { place := .inHand, attempts := List.replicate k false } b c
            buffers =
              { place := .reported
                attempts := List.replicate (R.toNat + 1) false
                reports := [Stack.hostRefusal m] } := by
          rw [next_of_failed hidle hsent, houtbound, hbuffers, hrefusal, hall,
            List.replicate_succ']
          simp
        rw [hnext]
        exact ⟨.reported, by simp⟩
    | queued | delivered | reported | dropped => cases hplace
  · obtain ⟨added, hadded⟩ := hitems
    obtain ⟨hnext, hlawful⟩ := lawful_of_appends buffers hadded hplace hj
    rw [hnext]
    exact ⟨hlawful, Iff.rfl⟩

/-! ### One action of a run -/

variable {s : Scheduler} {a : Action} {t u : Stack} {i : Nat} {written : List (List UInt8)}

/-- A step of a journey in terms of the bus before and after. -/
theorem step_eq (j : Journey) (hb : u.buses[i]? = some b) (hc : t.buses[i]? = some c) :
    j.step i u t = j.next b c (t.kcs.written.drop u.kcs.written.length) := by
  rw [step, hb, hc]

/-- When a request is crowded out: its write fails, it has tries left, and the queue is full. -/
theorem crowded_iff (j : Journey) (hb : u.buses[i]? = some b) (hc : t.buses[i]? = some c) :
    j.Crowded i u t ↔ j.place = .inHand ∧ ∃ e, b.inHand = some e ∧ c.inHand = none ∧
      b.delivers e = false ∧ e.retries < u.timing.maxRetries ∧ b.outbound.isFull = true := by
  simp [Crowded, hb, hc]

/-- Between two states the bus stays open, and the envelope keeps to its lawful way; it is dropped
just where others have filled the queue. -/
def Advances (R : UInt32) (m : Message) (j : Journey) (i : Nat) (u t : Stack) : Prop :=
  ∃ c, t.buses[i]? = some c ∧ c.outbound.closed = false ∧ Lawful R m c (j.step i u t) ∧
    ((j.step i u t).place = .dropped ↔ j.place = .dropped ∨ j.Crowded i u t)

/-- A journey goes on unharmed where the bus only grows. -/
theorem advances_of_grows (hb : u.buses[i]? = some b) (hc : t.buses[i]? = some c)
    (h : b.Grows P c) (hopen : b.outbound.closed = false) (hj : Lawful R m b j) :
    Advances R m j i u t := by
  obtain ⟨hnext, hlawful⟩ :=
    lawful_of_grows (t.kcs.written.drop u.kcs.written.length) h hj
  have hstep : j.step i u t = j := by rw [step_eq j hb hc, hnext]
  obtain ⟨added, hadded⟩ := h.outbound
  have hnotCrowded : ¬j.Crowded i u t := by
    rw [crowded_iff j hb hc]
    rintro ⟨-, e, hhand, hidle, -⟩
    rw [h.inHand, hhand] at hidle
    cases hidle
  refine ⟨c, hc, by rw [hadded]; exact hopen, by rw [hstep]; exact hlawful, ?_⟩
  rw [hstep]
  simp [hnotCrowded]

/-- The buffers that no write has added. -/
theorem drop_written_of_eq (h : t.kcs = u.kcs) : t.kcs.written.drop u.kcs.written.length = [] := by
  rw [h]
  exact List.drop_length

/-- The first half of a write moves a journey from its place in the queue into the hand. -/
theorem advances_transmitBegin (u : Stack) (hb : u.buses[i]? = some b)
    (hopen : b.outbound.closed = false) (hm : m.isResponse = false) (hj : Lawful R m b j) :
    Advances R m j i u (u.transmitBegin i).1 := by
  rcases transmitBegin_cases u i with h | ⟨b', e, rest, hworker, hidle, hitems, h⟩
  · rw [h]
    exact advances_of_grows hb hb (Bus.Grows.refl EnvelopeProperty.Anything b) hopen hj
  · obtain ⟨-, hb', -⟩ := workerBus_eq_some_iff.mp hworker
    obtain rfl : b = b' := Option.some.inj (hb.symm.trans hb')
    have htake : ∀ c, (u.transmitBegin i).1.buses[i]? = some c → c.outbound.closed = false →
        c.outbound.items = rest → (e.msg.isResponse = false → c.inHand = some e.staged) →
          Advances R m j i u (u.transmitBegin i).1 := by
      intro c hc hclosed hrest hhand
      obtain ⟨hlawful, hdropped⟩ := lawful_of_takes
        ((u.transmitBegin i).1.kcs.written.drop u.kcs.written.length)
        hidle hitems hrest hhand hm hj
      have hnotCrowded : ¬j.Crowded i u (u.transmitBegin i).1 := by
        rw [crowded_iff j hb hc]
        rintro ⟨-, e', hhand', -⟩
        rw [hidle] at hhand'
        cases hhand'
      refine ⟨c, hc, hclosed, ?_, ?_⟩
      · rw [step_eq j hb hc]
        exact hlawful
      · rw [step_eq j hb hc, hdropped]
        simp [hnotCrowded]
    rcases h with ⟨hresponse, -, h⟩ | ⟨hresponse, -, h⟩ | ⟨hrequest, h⟩
    · refine htake _ (h.getElem?_self hb) hopen rfl ?_
      intro hrequest
      rw [hresponse] at hrequest
      cases hrequest
    · refine htake _ (h.getElem?_self hb) hopen rfl ?_
      intro hrequest
      rw [hresponse] at hrequest
      cases hrequest
    · exact htake _ (h.getElem?_self hb) hopen rfl fun _ => rfl

/-- The host is told of a request of its own that has failed for the last time. -/
theorem reportFailure_of_host (hkcs : u.kcs = .recorder written)
    (hsource : m.infSource = .hostKcs) :
    (u.reportFailure m).buses = u.buses ∧
      (u.reportFailure m).kcs = .recorder (written ++ [hostRefusal m]) := by
  rw [reportFailure]
  simp [hsource, hkcs, Channel.hostKcs, Channel.reserved, Channel.self, KcsSink.isPresent,
    writeHost, KcsSink.write]

/-- **The second half of a write** keeps every envelope to its lawful way. -/
theorem advances_finishWrite (hb : u.buses[i]? = some b) (hhand : b.inHand = some e)
    (hopen : b.outbound.closed = false) (hkcs : u.kcs = .recorder written)
    (hmax : u.timing.maxRetries < 0xFFFFFFFF) (hm : m.isResponse = false)
    (hsource : m.infSource = .hostKcs) (hj : Lawful u.timing.maxRetries m b j) :
    Advances u.timing.maxRetries m j i u (u.finishWrite i b e) := by
  rcases finishWrite_cases hb e with ⟨hdelivers, h⟩ | ⟨hdelivers, hretry, h⟩ |
    ⟨hdelivers, hrequest, hlast, v, hv, h⟩
  · have hc := h.getElem?_self hb
    obtain ⟨hlawful, hdropped⟩ := lawful_of_delivered hdelivers hj
    have hnotCrowded : ¬j.Crowded i u (u.finishWrite i b e) := by
      rw [crowded_iff j hb hc]
      rintro ⟨-, e', hhand', -, hfails, -⟩
      obtain rfl : e = e' := Option.some.inj (hhand.symm.trans hhand')
      rw [hdelivers] at hfails
      cases hfails
    refine ⟨_, hc, hopen, ?_, ?_⟩
    · rw [step_eq j hb hc, drop_written_of_eq h.kcs]
      exact hlawful
    · rw [step_eq j hb hc, drop_written_of_eq h.kcs, hdropped]
      simp [hnotCrowded]
  · have hc := h.getElem?_self hb
    obtain ⟨hlawful, hdropped⟩ := lawful_of_retrying hhand hdelivers hopen hm hmax hretry hj
    have hcrowded : j.Crowded i u (u.finishWrite i b e) ↔
        j.place = .inHand ∧ e.retries < u.timing.maxRetries ∧ b.outbound.isFull = true := by
      rw [crowded_iff j hb hc, hhand]
      have hidle : (b.retrying e).inHand = none := rfl
      simp [hidle, hdelivers]
    refine ⟨_, hc, ?_, ?_, ?_⟩
    · rw [Bus.retrying, Bus.closed_offered]
      exact hopen
    · rw [step_eq j hb hc, drop_written_of_eq h.kcs]
      exact hlawful
    · rw [step_eq j hb hc, drop_written_of_eq h.kcs, hdropped, hcrowded]
  · have hvb := hv.getElem?_self hb
    have hvkcs : v.kcs = .recorder written := hv.kcs.trans hkcs
    have hreported : ∃ c, (u.finishWrite i b e).buses[i]? = some c ∧
        c.outbound.closed = b.outbound.closed ∧ c.link = (b.undelivered e).link ∧ c.inHand = none ∧
          (∃ added, c.outbound.items = b.outbound.items ++ added) ∧
            (e.msg.infSource = .hostKcs → c.outbound = b.outbound ∧
              (u.finishWrite i b e).kcs.written.drop u.kcs.written.length =
                [hostRefusal e.msg]) := by
      rw [h]
      by_cases hhost : e.msg.infSource = .hostKcs
      · obtain ⟨hbuses, hrefused⟩ := reportFailure_of_host hvkcs hhost
        refine ⟨b.undelivered e, by rw [hbuses]; exact hvb, rfl, rfl, rfl, ⟨[], by simp; rfl⟩, ?_⟩
        intro _
        rw [hrefused, hkcs]
        exact ⟨rfl, by simp [KcsSink.written]⟩
      -- A request of another originator: the report may be queued on this bus.
      · obtain ⟨cursor, added, hqueued, -⟩ := (sends_reportFailure v hhost).exists_queued hvb
        exact ⟨_, hqueued, rfl, rfl, rfl, ⟨added, rfl⟩, fun habsurd => absurd habsurd hhost⟩
    obtain ⟨c, hc, hclosed, hlink, hidle, hitems, hhost⟩ := hreported
    obtain ⟨hlawful, hdropped⟩ := lawful_of_reported hhand hdelivers hmax hlast hsource hlink hidle
      hitems hhost hj
    -- Without retries left an envelope is not crowded out: it is not put back.
    have hnotCrowded : ¬j.Crowded i u (u.finishWrite i b e) := by
      rw [crowded_iff j hb hc]
      rintro ⟨-, e', hhand', -, -, hretries, -⟩
      obtain rfl : e = e' := Option.some.inj (hhand.symm.trans hhand')
      have hfailed := toNat_retries_failed (e := e) hmax
        (Nat.le_of_lt (UInt32.lt_iff_toNat_lt.mp hretries))
      rw [UInt32.lt_iff_toNat_lt] at hlast hretries
      omega
    refine ⟨c, hc, hclosed.trans hopen, ?_, ?_⟩
    · rw [step_eq j hb hc]
      exact hlawful
    · rw [step_eq j hb hc, hdropped]
      simp [hnotCrowded]

/-- **The second half** brings the request to the peer, or back into the queue, or to its end. -/
theorem advances_of_finishes (hb : u.buses[i]? = some b) (hopen : b.outbound.closed = false)
    (hkcs : u.kcs = .recorder written) (hmax : u.timing.maxRetries < 0xFFFFFFFF)
    (hm : m.isResponse = false) (hsource : m.infSource = .hostKcs)
    (hj : Lawful u.timing.maxRetries m b j) (h : Finishes i u t) :
    Advances u.timing.maxRetries m j i u t := by
  cases h with
  | idle => exact advances_of_grows hb hb (Bus.Grows.refl EnvelopeProperty.Anything b) hopen hj
  | ends hb' hhand =>
      obtain rfl := Option.some.inj (hb.symm.trans hb')
      exact advances_finishWrite hb hhand hopen hkcs hmax hm hsource hj

/-- **An action** keeps every envelope of the host to its lawful way. -/
theorem advances_perform (hb : s.stack.buses[i]? = some b) (hopen : b.outbound.closed = false)
    (hkcs : s.stack.kcs = .recorder written) (hmax : s.stack.timing.maxRetries < 0xFFFFFFFF)
    (hm : m.isResponse = false) (hsource : m.infSource = .hostKcs)
    (hj : Lawful s.stack.timing.maxRetries m b j) (ha : a ≠ .stop) :
    Advances s.stack.timing.maxRetries m j i s.stack (s.perform a).stack := by
  by_cases htouches : a.touches i = true
  · cases a with
    | transmitBegin k =>
        obtain rfl : k = i := by simpa [Action.touches] using htouches
        exact advances_transmitBegin s.stack hb hopen hm hj
    | transmitEnd k =>
        obtain rfl : k = i := by simpa [Action.touches] using htouches
        have hfinishes := finishes_transmitEnd s.stack k
        exact advances_of_finishes hb hopen hkcs hmax hm hsource hj hfinishes
    | finish k =>
        obtain rfl : k = i := by simpa [Action.touches] using htouches
        have hfinishes := finishes_finishInHand s.stack k
        exact advances_of_finishes hb hopen hkcs hmax hm hsource hj hfinishes
    | stop => exact absurd rfl ha
    | begin | resume | abandon | receive | relink | submitFromHost | notify | dispatch | sweep
      | advance => cases htouches
  · obtain ⟨c, hc, hgrows⟩ := s.perform_grows hb (by simpa using htouches)
    exact advances_of_grows hb hc hgrows hopen hj

/-! ### Whole runs -/

/-- The sink of the host stays a recorder. -/
theorem recorder_perform (s : Scheduler) (a : Action) (hkcs : s.stack.kcs = .recorder written) :
    ∃ written', (s.perform a).stack.kcs = .recorder written' := by
  have hkcs' : (s.stack.advance a.elapsed).kcs = .recorder written := hkcs
  rcases (s.tells_perform a).kcs with h | ⟨buffer, h⟩
  · exact ⟨written, h.trans hkcs'⟩
  · exact ⟨written ++ [buffer], by rw [h, hkcs']; rfl⟩

/-- **A lawful journey stays lawful**, and it ends in a drop just where others have filled the queue
at a failed write with retries left. -/
theorem lawful_along {as : List Action} (hb : s.stack.buses[i]? = some b)
    (hopen : b.outbound.closed = false) (hkcs : s.stack.kcs = .recorder written)
    (hmax : s.stack.timing.maxRetries < 0xFFFFFFFF) (hm : m.isResponse = false)
    (hsource : m.infSource = .hostKcs) (hj : Lawful s.stack.timing.maxRetries m b j)
    (has : ∀ a ∈ as, a ≠ .stop) :
    (∃ c, (s.after as).stack.buses[i]? = some c ∧
      Lawful s.stack.timing.maxRetries m c (j.along i s as)) ∧
      ((j.along i s as).place = .dropped ↔ j.place = .dropped ∨ j.CrowdedOut i s as) := by
  induction as generalizing s j b written with
  | nil => exact ⟨⟨b, hb, hj⟩, by simp [along, CrowdedOut]⟩
  | cons a as ih =>
      have htiming : (s.perform a).stack.timing = s.stack.timing := (s.tells_perform a).timing
      obtain ⟨written', hkcs'⟩ := recorder_perform s a hkcs
      obtain ⟨c, hc, hopen', hlawful, hdropped⟩ :=
        advances_perform hb hopen hkcs hmax hm hsource hj (has a List.mem_cons_self)
      rw [← htiming] at hmax hlawful ⊢
      obtain ⟨hend, hcrowded⟩ := ih hc hopen' hkcs' hmax hlawful fun a' ha' =>
        has a' (List.mem_cons_of_mem a ha')
      refine ⟨hend, ?_⟩
      rw [along, CrowdedOut, hcrowded, hdropped, or_assoc]

end Journey

/-- The journey of the envelope at a place in the queue of a bus. -/
def Scheduler.journey (s : Scheduler) (i n : Nat) (as : List Action) : Journey :=
  Journey.along { place := .queued n } i s as

/-- **Every request of the host leaves the transmit path in one of three ways**, whatever else
happens short of a shutdown: it is written and the host is not told; or it fails once more often
than it may be tried again and the host is told once; or it is dropped and the host is not told,
which happens just where one of its writes has failed, retries are left and its queue is full. -/
theorem hostRequest_journey {s : Scheduler} {i n : Nat} {b : Bus} {m : Message}
    {written : List (List UInt8)} {as : List Action} (hb : s.stack.buses[i]? = some b)
    (hqueued : b.outbound.items[n]? = some { msg := m }) (hm : m.isResponse = false)
    (hsource : m.infSource = .hostKcs) (hkcs : s.stack.kcs = .recorder written)
    (hopen : b.outbound.closed = false) (hmax : s.stack.timing.maxRetries < 0xFFFFFFFF)
    (has : ∀ a ∈ as, a ≠ .stop) :
    (∃ c, (s.after as).stack.buses[i]? = some c ∧
      Journey.Lawful s.stack.timing.maxRetries m c (s.journey i n as)) ∧
      ((s.journey i n as).place = .dropped ↔
        Journey.CrowdedOut { place := .queued n } i s as) := by
  have hstart : Journey.Lawful s.stack.timing.maxRetries m b { place := .queued n } :=
    .queued hqueued rfl rfl (Nat.zero_le _)
  obtain ⟨hlawful, hdropped⟩ := Journey.lawful_along hb hopen hkcs hmax hm hsource hstart has
  exact ⟨hlawful, hdropped.trans (by simp)⟩

/-! ### Two runs -/

/-- A stack with room for one envelope, to which the host has given a request. -/
def hostWaiting (maxRetries : UInt32) : Scheduler :=
  (Scheduler.atRest (bmcStack { maxRetries, transmitLength := 1 } .memory)).perform
    (.submitFromHost { netFn := 0x06, cmd := 0x01 })

/-- Two writes of which none is delivered. -/
def failingRun : List Action :=
  [.relink 0 (bmcRow.link.fail .all), .transmitBegin 0, .transmitEnd 0, .transmitBegin 0,
    .transmitEnd 0]

/-- A write that is not delivered, while somebody else fills the queue. -/
def crowdedRun : List Action :=
  [.relink 0 (bmcRow.link.fail .all), .transmitBegin 0,
    .begin .sendRequest 0 { netFn := 0x06, cmd := 0x02 }, .transmitEnd 0]

/-- With one retry, a request whose two writes fail is refused to the host. -/
theorem hostRequest_journey_refused :
    ∃ m, (∃ c, ((hostWaiting 1).after failingRun).stack.buses[0]? = some c ∧
        Journey.Lawful 1 m c ((hostWaiting 1).journey 0 0 failingRun)) ∧
      (hostWaiting 1).journey 0 0 failingRun =
        { place := .reported, attempts := [false, false], reports := [[0x1C, 0x01, 0xCE]] } := by
  have hrun : ∀ a ∈ failingRun, a ≠ .stop := by simp [failingRun]
  have hjourney := hostRequest_journey (s := hostWaiting 1) (i := 0) (n := 0)
    rfl rfl rfl rfl rfl rfl (by decide) hrun
  exact ⟨_, hjourney.1, by decide +kernel⟩

/-- With five retries, a request whose first write fails is gone, and the host has heard nothing:
the other request has its place. -/
theorem hostRequest_dropped_unreported :
    (hostWaiting 5).journey 0 0 crowdedRun = { place := .dropped, attempts := [false] } ∧
      ((hostWaiting 5).after crowdedRun).stack.kcs = .recorder [] ∧
        (((hostWaiting 5).after crowdedRun).stack.buses[0]?.map fun b =>
          (b.inHand, b.outbound.items.map fun e => e.msg.cmd)) = some (none, [0x02]) := by
  decide +kernel

end ManagementBus
