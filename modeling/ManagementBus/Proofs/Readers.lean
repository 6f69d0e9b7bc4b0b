import ManagementBus.Proofs.Telling

/-!
# Readers of a bus

A reader takes the read lock of its bus, throws away the responses that wait there, and holds the
lock until it ends. What readers see of a bus is its *reader side*: how often the read lock is
taken, and the responses that wait. Workers change it only by a response to a pending request of the
controller itself, whether a reader or somebody else has sent it, and callers as `Stack.Reads` says.
Workers are described by what they do to the `Stack.sides`, which tell all locks apart.

## Main results

* `sides_receive`: a look at a link adds the response to a request of the controller itself.
* `reads_beginCall`, `reads_resumeCall`, `reads_abandonCall`: what a step of a call does to the
  reader side of its bus.
-/

namespace ManagementBus

open EnvelopeProperty

/-! ### Reader sides -/

/-- What readers see of a bus. -/
structure ReaderSide where
  /-- How often the read lock is taken. -/
  holders : Nat
  /-- The responses that wait. -/
  responses : Queue Message

namespace ReaderSide

/-- After a reader has come: the responses that have waited are gone. -/
def entered (v : ReaderSide) : ReaderSide := ⟨v.holders + 1, v.responses.purge.1⟩

/-- After a reader has left. -/
def left (v : ReaderSide) : ReaderSide := { v with holders := v.holders - 1 }

/-- After a reader has left with the oldest response. -/
def served (v : ReaderSide) : ReaderSide := ⟨v.holders - 1, v.responses.get.1⟩

/-- After a response has come. -/
def answered (m : Message) (v : ReaderSide) : ReaderSide :=
  { v with responses := (v.responses.put m).1 }

/-- After a shutdown. -/
def closed (v : ReaderSide) : ReaderSide := { v with responses := v.responses.close }

end ReaderSide

/-- What readers see of a bus. -/
def Bus.readerSide (b : Bus) : ReaderSide := ⟨b.locks.count .read, b.responses⟩

namespace Call

/-- Whether a call has taken the read lock of its bus. -/
def holdsRead (c : Call) : Bool := c.kind.reads && c.wait?.any fun w => w.obstacle ≠ .readLock

/-- Whether a call has queued its request and waits for the response. -/
def awaitsResponse (c : Call) : Bool := c.wait?.any fun w => w.obstacle = .response

/-- Whether a call waits for what only readers wait for. -/
def waitsToRead (c : Call) : Bool :=
  c.wait?.any fun w => w.obstacle = .readLock || w.obstacle = .response

/-- The message that a read has handed to its caller. -/
def handed? (c : Call) : Option Message :=
  match c.result? with
  | some (.read (.ok _) m) => some m
  | _ => none

end Call

namespace Stack

variable {P : EnvelopeProperty} {s t u : Stack} {i : Nat} {b : Bus} {e : Envelope} {m : Message}

/-- What readers see of the buses. -/
def readerSides (s : Stack) : List ReaderSide := s.buses.map Bus.readerSide

/-- Which locks are taken on the buses, and which responses wait there. -/
def sides (s : Stack) : List (List Lock × Queue Message) :=
  s.buses.map fun b => (b.locks, b.responses)

/-- What readers see of the buses, from the locks and the waiting responses. -/
theorem readerSides_eq (s : Stack) :
    s.readerSides = s.sides.map fun side => ⟨side.1.count .read, side.2⟩ := by
  rw [readerSides, sides, List.map_map]
  rfl

/-- Where locks and responses are the same, readers see the same. -/
theorem readerSides_of_sides (h : t.sides = s.sides) : t.readerSides = s.readerSides := by
  rw [readerSides_eq, readerSides_eq, h]

/-- A change of one bus is a change of one reader side. -/
theorem readerSides_onBus {f : Bus → Bus} {g : ReaderSide → ReaderSide}
    (hfg : ∀ b, (f b).readerSide = g b.readerSide) :
    (s.onBus i f).readerSides = s.readerSides.modify i g := by
  refine List.ext_getElem? ?_
  intro j
  simp only [Stack.readerSides, onBus, List.getElem?_map, List.getElem?_modify]
  cases s.buses[j]? with
  | none => simp
  | some b => by_cases hij : i = j <;> simp [hij, hfg]

/-- A change of one bus that readers do not see. -/
theorem readerSides_onBus_same {f : Bus → Bus} (hf : ∀ b, (f b).readerSide = b.readerSide) :
    (s.onBus i f).readerSides = s.readerSides := by
  rw [readerSides_onBus (g := id) hf, List.modify_id]

/-! ### Workers -/

/-- Queueing takes no lock and brings no response. -/
theorem Queues.sides (h : Queues P s t) : t.sides = s.sides := by
  have hmap : ∀ {l k : List Bus}, List.Forall₂ (Bus.Queues P) l k →
      k.map (fun b => (b.locks, b.responses)) = l.map fun b => (b.locks, b.responses) := by
    intro l k hlk
    induction hlk with
    | nil => rfl
    | cons hbc _ ih =>
        obtain ⟨cursor, added, rfl, -⟩ := hbc
        rw [List.map_cons, List.map_cons, ih]
        rfl
  exact hmap h

/-- Readers do not see what is queued. -/
theorem Queues.readerSides (h : Queues P s t) : t.readerSides = s.readerSides :=
  readerSides_of_sides h.sides

/-- A change of one bus that leaves its locks and responses alone. -/
theorem sides_onBus_same {f : Bus → Bus}
    (hf : ∀ b, ((f b).locks, (f b).responses) = (b.locks, b.responses)) :
    (s.onBus i f).sides = s.sides := by
  refine List.ext_getElem? ?_
  intro j
  simp only [sides, onBus, List.getElem?_map, List.getElem?_modify]
  cases s.buses[j]? with
  | none => simp
  | some b => by_cases hij : i = j <;> simp [hij, hf]

/-- A bus that is replaced by one with the same locks and responses. -/
theorem Replaces.sides {c : Bus} (hb : s.buses[i]? = some b) (h : Replaces i c s t)
    (hside : (c.locks, c.responses) = (b.locks, b.responses)) : t.sides = s.sides := by
  have hset : t.sides = s.sides.set i (c.locks, c.responses) := by
    rw [Stack.sides, Stack.sides, ← List.map_set, h]
  have hget : s.sides[i]? = some (b.locks, b.responses) := by
    rw [Stack.sides, List.getElem?_map, hb]
    rfl
  obtain ⟨hlt, hget'⟩ := List.getElem?_eq_some_iff.mp hget
  rw [hset, hside, ← hget', List.set_getElem_self]

/-- The first half of a write leaves locks and responses alone. -/
theorem sides_transmitBegin (s : Stack) (i : Nat) : (s.transmitBegin i).1.sides = s.sides := by
  rcases transmitBegin_cases s i with h | ⟨b, e, rest, hworker, -, -, h⟩
  · rw [h]
  · obtain ⟨-, hb, -⟩ := workerBus_eq_some_iff.mp hworker
    rcases h with ⟨-, -, h⟩ | ⟨-, -, h⟩ | ⟨-, h⟩
    · exact h.sides hb rfl
    · exact h.sides hb rfl
    · exact h.sides hb rfl

/-- The second half of a write leaves the sides of the buses alone, whatever is reported. -/
theorem sides_finishWrite (hb : s.buses[i]? = some b) (e : Envelope) :
    (s.finishWrite i b e).sides = s.sides := by
  rcases finishWrite_cases hb e with ⟨-, h⟩ | ⟨-, -, h⟩ | ⟨-, -, -, u, hu, h⟩
  · exact h.sides hb rfl
  · exact h.sides hb rfl
  · rw [h, (queues_reportFailure u e.msg).sides]
    exact hu.sides hb rfl

/-- The end of whatever is in hand leaves the sides of the buses alone. -/
theorem sides_of_finishes (h : Finishes i s t) : t.sides = s.sides := by
  cases h with
  | idle => rfl
  | ends hb _ => exact sides_finishWrite hb _

/-- A sweep drops requests, and no responses. -/
theorem sides_sweep (s : Stack) : s.sweep.1.sides = s.sides := by
  rw [sides, s.sweep_eq.1, List.map_map]
  refine List.map_congr_left ?_
  intro b _
  rw [Function.comp_apply, Bus.sweptAt]
  split <;> rfl

/-- The dispatcher answers others than readers. -/
theorem sides_dispatchUpTo (s : Stack) (handler : Handler) :
    (dispatchUpTo handler 1 s).1.sides = s.sides := by
  rcases dispatchUpTo_one s handler with ⟨-, h⟩ | ⟨m, rest, -, h⟩
  · rw [h]
  · rw [h]
    exact (queues_dispatch (s.withRequests rest) handler m).sides

/-! ### Responses for readers -/

/-- The pending request of the controller itself that is answered by what a look at the link of a
bus finds, and the response as it is handed to the readers there. -/
def readerAnswer? (s : Stack) (i : Nat) : Option (Message × Message) :=
  (s.heard? i).bind fun m =>
    if m.isResponse then
      (s.buses[i]?.bind fun b => b.pendingFor? m).bind fun entry =>
        if entry.infSource = .self then some (entry, m.answering entry) else none
    else none

/-- What is handed to the readers of a bus is put into their queue, whether or not there is room. -/
theorem answerReader_eq (s : Stack) (i : Nat) (m : Message) :
    ∃ es, s.answerReader i m =
      (s.onBus i fun b => { b with responses := (b.responses.put m).1 }).report es := by
  cases hb : s.buses[i]? with
  | none =>
      have hbuses : s.buses.modify i (fun b => { b with responses := (b.responses.put m).1 }) =
          s.buses := List.modify_eq_self (List.getElem?_eq_none_iff.mp hb)
      refine ⟨[], ?_⟩
      simp only [answerReader, hb, onBus, hbuses, report, List.append_nil]
  | some b =>
      have hput : (s.onBus i fun b' => { b' with responses := (b.responses.put m).1 }) =
          s.onBus i fun b' => { b' with responses := (b'.responses.put m).1 } :=
        onBus_congr hb rfl
      rcases b.responses.put_cases m with ⟨haccepted, -⟩ | ⟨hrefused, hsame⟩
      · refine ⟨[], ?_⟩
        simp only [answerReader, hb, report, List.append_nil, ← hput]
        split
        · next heq => rw [heq]
        · next p hp heq =>
            rw [heq] at haccepted
            exact absurd haccepted hp
      · refine ⟨[.frameDropped i .responseQueueFull], ?_⟩
        have hid : (s.onBus i fun b' => { b' with responses := (b.responses.put m).1 }) = s := by
          rw [onBus_congr (g := id) hb (by rw [hsame]; rfl)]
          simp [onBus]
        simp only [answerReader, hb, ← hput, hid]
        rfl

/-- A response that is offered on a bus goes behind those that wait there. -/
theorem sides_onBus_put (s : Stack) (i : Nat) (m : Message) :
    (s.onBus i fun b => { b with responses := (b.responses.put m).1 }).sides =
      s.sides.modify i fun side => (side.1, (side.2.put m).1) := by
  refine List.ext_getElem? fun j => ?_
  simp only [sides, onBus, List.getElem?_map, List.getElem?_modify]
  cases s.buses[j]? with
  | none => simp
  | some b => by_cases hij : i = j <;> simp [hij]

/-- **A look at a link** takes no lock and gives none back, and the responses that wait change by
the response to a pending request of the controller itself. -/
theorem sides_receive (s : Stack) (i : Nat) :
    (s.receive i).1.sides =
      match s.readerAnswer? i with
      | some (_, response) =>
        s.sides.modify i fun side => (side.1, (side.2.put response).1)
      | none => s.sides := by
  rcases receive_cases s i with ⟨h, hheard⟩ | ⟨b, link, u, hworker, hread, hroute⟩
  · rw [h, readerAnswer?, hheard]
    rfl
  · obtain ⟨-, hb, -⟩ := workerBus_eq_some_iff.mp hworker
    have hu : u.sides = s.sides := hread.sides hb rfl
    have hub := hread.getElem?_self hb
    rcases hroute with ⟨h, hheard⟩ | ⟨m, hheard, ⟨hm, h⟩ | ⟨hm, h⟩⟩
    · rw [h, readerAnswer?, hheard]
      exact hu
    · rw [h, readerAnswer?, hheard, Option.bind_some, if_pos hm, hb, Option.bind_some]
      rcases routeResponse_cases hub m with
        ⟨hnone, hunmatched⟩ | ⟨entry, v, hentry, hsettle, hdeliver⟩
      · have hnone' : b.pendingFor? m = none := hnone
        rw [hunmatched, hnone']
        exact hu
      · have hentry' : b.pendingFor? m = some entry := hentry
        have hv : v.sides = s.sides := (hsettle.sides hub rfl).trans hu
        rw [hdeliver, hentry', Option.bind_some]
        rcases deliverResponse_cases v i b.config.channel (m := m.answering entry) hm with
          ⟨hself, hreader⟩ | ⟨hother, hqueues⟩
        · have hself' : entry.infSource = .self := hself
          obtain ⟨es, heq⟩ := answerReader_eq v i (m.answering entry)
          rw [if_pos hself']
          simp only
          rw [hreader, heq, ← hv]
          exact sides_onBus_put v i (m.answering entry)
        · have hother' : ¬entry.infSource = .self := hother
          rw [if_neg hother']
          exact hqueues.sides.trans hv
    · rw [h, readerAnswer?, hheard, Option.bind_some, if_neg (by simp [hm])]
      simp only
      rcases routeRequest_cases u i { b with link } hm with hbridge | ⟨es, hnotify⟩
      · exact (Queues.sides hbridge.buses).trans hu
      · rw [hnotify, ← hu]
        exact (queues_notify Nothing u _).sides

/-- **What readers see of a look at a link** is the response to a request of the controller itself,
and nothing else. -/
theorem readerSides_receive (s : Stack) (i : Nat) :
    (s.receive i).1.readerSides =
      match s.readerAnswer? i with
      | some (_, response) => s.readerSides.modify i (ReaderSide.answered response)
      | none => s.readerSides := by
  rw [readerSides_eq, readerSides_eq, sides_receive]
  cases s.readerAnswer? i with
  | none => rfl
  | some pair =>
      refine List.ext_getElem? fun j => ?_
      simp only [List.getElem?_map, List.getElem?_modify]
      cases s.sides[j]? with
      | none => simp
      | some side => by_cases hij : i = j <;> simp [hij, ReaderSide.answered]

/-! ### Locks -/

/-- Taking a lock of senders is not seen by readers. -/
theorem readerSide_take {lock : Lock} (b : Bus) (h : lock ≠ .read) :
    (b.take lock).readerSide = b.readerSide := by
  rw [Bus.readerSide, Bus.readerSide, Bus.take, List.count_cons_of_ne h]

/-- Giving back a lock of senders is not seen by readers. -/
theorem readerSide_release {lock : Lock} (b : Bus) (h : lock ≠ .read) :
    (b.release lock).readerSide = b.readerSide := by
  rw [Bus.readerSide, Bus.readerSide, Bus.release, List.count_erase_of_ne h.symm]

/-- Giving back the read lock is leaving. -/
theorem readerSide_release_read (b : Bus) : (b.release .read).readerSide = b.readerSide.left := by
  rw [Bus.readerSide, Bus.readerSide, Bus.release, List.count_erase_self]
  rfl

/-- Nobody sends under the read lock. -/
theorem lock_ne_read (kind : CallKind) : kind.lock ≠ .read := by
  cases kind <;> simp [CallKind.lock]

/-- The lock under which a call sends is of no concern to readers. -/
theorem readerSides_lock (s : Stack) (i : Nat) (kind : CallKind) :
    (s.onBus i fun b => b.take kind.lock).readerSides = s.readerSides ∧
      (s.onBus i fun b => b.release kind.lock).readerSides = s.readerSides :=
  ⟨readerSides_onBus_same fun b => readerSide_take b (lock_ne_read kind),
    readerSides_onBus_same fun b => readerSide_release b (lock_ne_read kind)⟩

/-! ### Calls -/

variable {c : Call}

/-- What a step of a call does to what readers see of its bus. -/
inductive Reads (s : Stack) (c : Call) (r : Stack × Call) : Prop
  /-- The call is no reader, or not one of the bus yet or any more. -/
  | outside (hc : c.holdsRead = false) (hd : r.2.holdsRead = false)
      (hsides : r.1.readerSides = s.readerSides) (hhanded : r.2.handed? = none)
  /-- The reader comes and has to leave at once. -/
  | passes {b : Bus} (hc : c.holdsRead = false) (hd : r.2.wait? = none)
      (hb : s.buses[c.bus]? = some b) (hfree : b.isLocked .read = false)
      (hsides : r.1.readerSides = s.readerSides.modify c.bus fun v => v.entered.left)
      (hhanded : r.2.handed? = none)
  | enters {b : Bus} (hc : c.holdsRead = false) (hd : r.2.holdsRead = true)
      (hb : s.buses[c.bus]? = some b) (hfree : b.isLocked .read = false)
      (hsides : r.1.readerSides = s.readerSides.modify c.bus ReaderSide.entered)
  | stays (hc : c.holdsRead = true) (hd : r.2.holdsRead = true)
      (hsides : r.1.readerSides = s.readerSides)
  /-- The reader leaves without a response. -/
  | leaves (hc : c.holdsRead = true) (hd : r.2.wait? = none)
      (hsides : r.1.readerSides = s.readerSides.modify c.bus ReaderSide.left)
      (hhanded : r.2.handed? = none)
  /-- The reader leaves with the oldest response. -/
  | takes {b : Bus} {m : Message} (hc : c.awaitsResponse = true) (hholds : c.holdsRead = true)
      (hd : r.2.wait? = none) (hb : s.buses[c.bus]? = some b)
      (hm : b.responses.items.head? = some m)
      (hsides : r.1.readerSides = s.readerSides.modify c.bus ReaderSide.served)
      (hhanded : ∀ m', r.2.handed? = some m' → m' = m)

/-- A call that only sends never has the read lock. -/
theorem holdsRead_of_sender (hkind : c.kind.reads = false) : c.holdsRead = false := by
  rw [Call.holdsRead, hkind]
  rfl

/-- A call that is over has it no more. -/
theorem holdsRead_finish (c : Call) (result : CallResult) :
    (c.finish result).holdsRead = false := by
  simp [Call.holdsRead, Call.finish, Call.wait?]

/-- A call that ends with a fault hands nothing over. -/
theorem handed?_of_error (c : Call) (fault : Fault) :
    (c.finish (c.resultOf (.error fault))).handed? = none := by
  cases hkind : c.kind <;>
    simp [Call.handed?, Call.finish, Call.result?, Call.resultOf, hkind]

/-- A call that ends with a message hands over no other. -/
theorem eq_of_handed? {m m' : Message} (h : (c.finish (c.resultOf (.ok m))).handed? = some m') :
    m' = m := by
  cases hkind : c.kind <;>
    simp_all [Call.handed?, Call.finish, Call.result?, Call.resultOf]

/-- A call that only sends hands over no response. -/
theorem handed?_of_sender {result : Except Fault Message} (hkind : c.kind.reads = false) :
    (c.finish (c.resultOf result)).handed? = none := by
  cases hk : c.kind <;>
    simp_all [Call.handed?, Call.finish, Call.result?, Call.resultOf, CallKind.reads]

/-- The end of a call changes nothing that readers see. -/
theorem readerSides_endCall (s : Stack) (c : Call) (outcome : Except Fault Message) :
    (s.endCall c outcome).1.readerSides = s.readerSides := by
  obtain ⟨es, hend⟩ := endCall_eq s c outcome
  rw [hend]
  rfl

/-- What a call is when it has left. -/
theorem leaveCall_snd (s : Stack) (c : Call) (outcome : Except Fault Message) :
    (s.leaveCall c outcome).2 = c.finish (c.resultOf outcome) := by
  rw [leaveCall]
  obtain ⟨es, hend⟩ := endCall_eq
    (if c.kind.reads = true then s.onBus c.bus fun b => b.release .read else s) c outcome
  rw [hend]

/-- **A reader that leaves gives back its lock.** -/
theorem readerSides_leaveCall (hkind : c.kind.reads = true) (outcome : Except Fault Message) :
    (s.leaveCall c outcome).1.readerSides = s.readerSides.modify c.bus ReaderSide.left := by
  rw [leaveCall, readerSides_endCall, if_pos hkind]
  exact readerSides_onBus readerSide_release_read

/-- A sender that leaves has no such lock to give back. -/
theorem readerSides_leaveCall_of_sender (hkind : c.kind.reads = false)
    (outcome : Except Fault Message) : (s.leaveCall c outcome).1.readerSides = s.readerSides := by
  rw [leaveCall, readerSides_endCall, hkind]
  rfl

/-! ### Sending -/

/-- A step of a reader that has the read lock: it keeps the lock, or it leaves without a
response. -/
def Keeps (s : Stack) (c : Call) (r : Stack × Call) : Prop :=
  (r.2.holdsRead = true ∧ r.1.readerSides = s.readerSides) ∨
    (r.2.wait? = none ∧ r.2.handed? = none ∧
      r.1.readerSides = s.readerSides.modify c.bus ReaderSide.left)

/-- Where readers see the same beforehand, a step that keeps the lock is one from there too. -/
theorem Keeps.of_sides {r : Stack × Call} (h : Keeps t c r)
    (hsides : t.readerSides = s.readerSides) : Keeps s c r := by
  rw [Keeps, ← hsides]
  exact h

/-- A step of a call that only sends. -/
structure Passes (s : Stack) (r : Stack × Call) : Prop where
  handed : r.2.handed? = none
  waits : r.2.waitsToRead = false
  sides : r.1.readerSides = s.readerSides

/-- A step that passes by the readers passes by them after anything that leaves their sides alone.
-/
theorem Passes.of_sides {r : Stack × Call} (h : Passes t r)
    (hsides : t.readerSides = s.readerSides) : Passes s r :=
  ⟨h.handed, h.waits, h.sides.trans hsides⟩

/-- A reader that waits for anything but the read lock keeps it. -/
theorem keeps_waitFor {obstacle : Obstacle} {ticket : Nat} {deadline : Option Nat}
    (hkind : c.kind.reads = true) (hobstacle : obstacle ≠ .readLock)
    (hsides : t.readerSides = s.readerSides) :
    Keeps s c (t, c.waitFor obstacle ticket deadline) := by
  refine .inl ⟨?_, hsides⟩
  simp [Call.holdsRead, Call.waitFor, Call.wait?, hkind, hobstacle]

/-- A reader that leaves with a fault has given back its lock and hands over nothing. -/
theorem keeps_leaveCall (hkind : c.kind.reads = true) (fault : Fault) :
    Keeps s c (s.leaveCall c (.error fault)) := by
  refine .inr ⟨?_, ?_, readerSides_leaveCall hkind _⟩
  · rw [leaveCall_snd]
    rfl
  · rw [leaveCall_snd]
    exact handed?_of_error c fault

/-- A sender that leaves changes nothing for readers. -/
theorem passes_leaveCall (hkind : c.kind.reads = false) (outcome : Except Fault Message) :
    Passes s (s.leaveCall c outcome) := by
  refine ⟨?_, ?_, readerSides_leaveCall_of_sender hkind outcome⟩
  · rw [leaveCall_snd]
    exact handed?_of_sender hkind
  · rw [leaveCall_snd]
    rfl

/-- A reader whose request is queued keeps its lock and waits for the response. -/
theorem keeps_callSent (hkind : c.kind.reads = true) (ticket : Nat) :
    Keeps s c (s.callSent c ticket) := by
  rw [callSent, if_pos hkind]
  exact keeps_waitFor hkind (by simp) rfl

/-- A sender whose envelope is queued leaves. -/
theorem passes_callSent (hkind : c.kind.reads = false) (ticket : Nat) :
    Passes s (s.callSent c ticket) := by
  rw [callSent, if_neg (by simp [hkind])]
  exact passes_leaveCall hkind _

/-- Readers do not see the transmit queue. -/
theorem readerSides_enqueue (s : Stack) (i : Nat) (b : Bus) (e : Envelope) :
    (s.enqueue i b e).1.readerSides = s.readerSides :=
  readerSides_onBus_same fun _ => rfl

/-- Readers do not see that a number is drawn. -/
theorem readerSides_callEnvelope (s : Stack) (c : Call) (b : Bus) :
    (s.callEnvelope c b).1.readerSides = s.readerSides := by
  have hdraw : (s.drawRequest c.bus b c.msg).1.readerSides = s.readerSides :=
    readerSides_onBus_same fun _ => rfl
  rw [callEnvelope]
  split
  · rfl
  · exact hdraw

/-- A reader that offers its request keeps its lock, or leaves. -/
theorem keeps_callQueue (hkind : c.kind.reads = true) (b : Bus) (e : Envelope) (ticket : Nat) :
    Keeps s c (s.callQueue c b e ticket) := by
  have hqueue := readerSides_enqueue s c.bus b e
  rw [callQueue]
  split
  · next t heq =>
      rw [heq] at hqueue
      exact (keeps_callSent hkind ticket).of_sides hqueue
  · next t heq =>
      rw [heq] at hqueue
      exact (keeps_leaveCall hkind _).of_sides hqueue
  · next t heq =>
      rw [heq] at hqueue
      exact keeps_waitFor hkind (by simp) ((readerSides_lock t c.bus c.kind).1.trans hqueue)

/-- A sender that offers its message passes by the readers: it waits for room at most. -/
theorem passes_callQueue (hkind : c.kind.reads = false) (b : Bus) (e : Envelope) (ticket : Nat) :
    Passes s (s.callQueue c b e ticket) := by
  have hqueue := readerSides_enqueue s c.bus b e
  rw [callQueue]
  split
  · next t heq =>
      rw [heq] at hqueue
      exact (passes_callSent hkind ticket).of_sides hqueue
  · next t heq =>
      rw [heq] at hqueue
      exact (passes_leaveCall hkind _).of_sides hqueue
  · next t heq =>
      rw [heq] at hqueue
      exact ⟨rfl, rfl, (readerSides_lock t c.bus c.kind).1.trans hqueue⟩

/-- A reader that sends keeps its lock, or leaves. -/
theorem keeps_callSend (hkind : c.kind.reads = true) (ticket : Nat) :
    Keeps s c (s.callSend c ticket) := by
  rw [callSend]
  split
  · exact keeps_leaveCall hkind _
  · next b hb =>
      split
      · exact keeps_waitFor hkind (by simp) rfl
      · exact (keeps_callQueue hkind b _ ticket).of_sides (readerSides_callEnvelope s c b)

/-- A sender that sends changes nothing for readers. -/
theorem passes_callSend (hkind : c.kind.reads = false) (ticket : Nat) :
    Passes s (s.callSend c ticket) := by
  rw [callSend]
  split
  · exact passes_leaveCall hkind _
  · next b hb =>
      split
      · exact ⟨rfl, rfl, rfl⟩
      · exact (passes_callQueue hkind b _ ticket).of_sides (readerSides_callEnvelope s c b)

/-- A reader for which there is room keeps its lock, or leaves. -/
theorem keeps_callRoom (hkind : c.kind.reads = true) (hholds : c.holdsRead = true) (e : Envelope)
    (ticket : Nat) : Keeps s c (s.callRoom c e ticket) := by
  rw [callRoom]
  split
  · exact .inl ⟨hholds, rfl⟩
  · next b hb =>
      have hqueue := readerSides_enqueue s c.bus b e
      split
      · next t heq =>
          rw [heq] at hqueue
          exact (keeps_callSent hkind ticket).of_sides
            ((readerSides_lock t c.bus c.kind).2.trans hqueue)
      · next t heq =>
          rw [heq] at hqueue
          exact (keeps_leaveCall hkind _).of_sides
            ((readerSides_lock t c.bus c.kind).2.trans hqueue)
      · next t heq =>
          rw [heq] at hqueue
          exact .inl ⟨hholds, hqueue⟩

/-- A sender for which there is room changes nothing for readers. -/
theorem passes_callRoom (hkind : c.kind.reads = false) (hhanded : c.handed? = none)
    (hwaits : c.waitsToRead = false) (e : Envelope) (ticket : Nat) :
    Passes s (s.callRoom c e ticket) := by
  rw [callRoom]
  split
  · exact ⟨hhanded, hwaits, rfl⟩
  · next b hb =>
      have hqueue := readerSides_enqueue s c.bus b e
      split
      · next t heq =>
          rw [heq] at hqueue
          exact (passes_callSent hkind ticket).of_sides
            ((readerSides_lock t c.bus c.kind).2.trans hqueue)
      · next t heq =>
          rw [heq] at hqueue
          exact (passes_leaveCall hkind _).of_sides
            ((readerSides_lock t c.bus c.kind).2.trans hqueue)
      · next t heq =>
          rw [heq] at hqueue
          exact ⟨hhanded, hwaits, hqueue⟩

/-! ### Reading -/

/-- A reader that finds the lock free takes it, and keeps it or leaves at once. -/
theorem reads_callRead (hkind : c.kind.reads = true) (hc : c.holdsRead = false)
    (hhanded : c.handed? = none)
    (hfree : ∀ b, s.buses[c.bus]? = some b → b.isLocked .read = false) (ticket : Nat) :
    Reads s c (s.callRead c ticket) := by
  rw [callRead]
  split
  · exact .outside hc hc rfl hhanded
  · next b hb =>
      have hpurge : (s.onBus c.bus fun b' =>
          { b'.take .read with responses := b.responses.purge.1 }).readerSides =
            s.readerSides.modify c.bus ReaderSide.entered := by
        have hcongr : (s.onBus c.bus fun b' =>
            { b'.take .read with responses := b.responses.purge.1 }) =
              s.onBus c.bus fun b' => { b'.take .read with responses := b'.responses.purge.1 } :=
          onBus_congr hb rfl
        rw [hcongr]
        refine readerSides_onBus ?_
        intro b'
        simp [Bus.readerSide, Bus.take, ReaderSide.entered]
      rcases keeps_callSend (c := c.asReader b.config.channel)
          (s := (s.onBus c.bus fun b' =>
            { b'.take .read with responses := b.responses.purge.1 }).report
              (Event.purge .response b.responses.purge.2)) hkind ticket with
        ⟨hd, hsides⟩ | ⟨hd, hhanded', hsides⟩
      · exact .enters hc hd hb (hfree b hb) (hsides.trans hpurge)
      · refine .passes hc hd hb (hfree b hb) ?_ hhanded'
        refine hsides.trans ?_
        have hreport : ((s.onBus c.bus fun b' =>
            { b'.take .read with responses := b.responses.purge.1 }).report
              (Event.purge .response b.responses.purge.2)).readerSides =
                s.readerSides.modify c.bus ReaderSide.entered := hpurge
        rw [hreport]
        exact List.modify_modify_eq ..

/-- A reader that waits for its response takes the oldest one that is there. -/
theorem reads_callResponse (hkind : c.kind.reads = true) (hwaits : c.awaitsResponse = true)
    (hholds : c.holdsRead = true) : Reads s c (s.callResponse c) := by
  rw [callResponse]
  split
  · exact .stays hholds hholds rfl
  · next b hb =>
      split
      · next responses response heq =>
          have hresponses : responses = b.responses.get.1 := (congrArg Prod.fst heq).symm
          have hhead : b.responses.items.head? = some response := congrArg Prod.snd heq
          have htake : (s.onBus c.bus fun b' => { b' with responses }).readerSides =
              s.readerSides.modify c.bus fun v => { v with responses := v.responses.get.1 } := by
            have hcongr : (s.onBus c.bus fun b' => { b' with responses }) =
                s.onBus c.bus fun b' => { b' with responses := b'.responses.get.1 } :=
              onBus_congr hb (by rw [hresponses])
            rw [hcongr]
            exact readerSides_onBus fun _ => rfl
          refine .takes hwaits hholds ?_ hb hhead ?_ ?_
          · rw [leaveCall_snd]
            rfl
          · rw [readerSides_leaveCall hkind, htake]
            exact List.modify_modify_eq ..
          · intro m' hm'
            rw [leaveCall_snd] at hm'
            exact eq_of_handed? hm'
      · split
        · rcases keeps_leaveCall (s := s) hkind .queueClosed with ⟨hd, hsides⟩ | ⟨hd, hnone, hsides⟩
          · exact .stays hholds hd hsides
          · exact .leaves hholds hd hsides hnone
        · exact .stays hholds hholds rfl

/-! ### Steps of a call -/

/-- A call that waits has handed over nothing. -/
theorem handed?_of_wait {w : Wait} (hw : c.wait? = some w) : c.handed? = none := by
  cases hstate : c.state with
  | fresh => simp [Call.handed?, Call.result?, hstate]
  | waiting w => simp [Call.handed?, Call.result?, hstate]
  | finished result => simp [Call.wait?, hstate] at hw

/-- A step that keeps the lock or gives it back is a step of a reader. -/
theorem Keeps.reads {r : Stack × Call} (h : Keeps s c r) (hholds : c.holdsRead = true) :
    Reads s c r := by
  rcases h with ⟨hd, hsides⟩ | ⟨hd, hhanded, hsides⟩
  · exact .stays hholds hd hsides
  · exact .leaves hholds hd hsides hhanded

/-- A step of a call that only sends is one outside the lock. -/
theorem Passes.reads {r : Stack × Call} (h : Passes s r) (hkind : c.kind.reads = false)
    (hsame : r.2.kind = c.kind) : Reads s c r :=
  .outside (holdsRead_of_sender hkind) (holdsRead_of_sender (hsame ▸ hkind)) h.sides h.handed

/-- A call that only sends, when it begins. -/
theorem passes_beginCall (hkind : c.kind.reads = false) (ticket : Nat) :
    Passes s (s.beginCall c ticket) := by
  rw [beginCall]
  split
  · obtain ⟨es, hend⟩ := endCall_eq s c (.error ‹Fault›)
    rw [hend]
    exact ⟨handed?_of_sender hkind, rfl, rfl⟩
  · rw [hkind]
    exact passes_callSend hkind ticket

/-- **A sender that goes on** changes nothing for readers. -/
theorem passes_resumeCall (hkind : c.kind.reads = false) (hsound : c.waitsToRead = false)
    (hready : s.isReady c = true) (ticket : Nat) : Passes s (s.resumeCall c ticket) := by
  rw [resumeCall]
  split
  · next hw => simp [isReady, hw] at hready
  · next w hw =>
      have hhanded := handed?_of_wait hw
      obtain ⟨obstacle, number, deadline⟩ := w
      cases obstacle with
      | readLock => simp [Call.waitsToRead, hw] at hsound
      | sendLock => exact passes_callSend hkind ticket
      | room e => exact passes_callRoom hkind hhanded hsound e ticket
      | response => simp [Call.waitsToRead, hw] at hsound

/-- **A sender that gives up** changes nothing for readers. -/
theorem passes_abandonCall (hkind : c.kind.reads = false) (hsound : c.waitsToRead = false)
    {w : Wait} (hw : c.wait? = some w) : Passes s (s.abandonCall c) := by
  rw [abandonCall, hw]
  obtain ⟨obstacle, number, deadline⟩ := w
  cases obstacle with
  | readLock => simp [Call.waitsToRead, hw] at hsound
  | sendLock => exact (passes_leaveCall hkind _).of_sides rfl
  | room e =>
      exact (passes_leaveCall hkind _).of_sides (readerSides_lock s c.bus c.kind).2
  | response => simp [Call.waitsToRead, hw] at hsound

/-- **What a call does to the readers of its bus when it begins.** -/
theorem reads_beginCall (hfresh : c.state = .fresh) (ticket : Nat) :
    Reads s c (s.beginCall c ticket) := by
  have hc : c.holdsRead = false := by simp [Call.holdsRead, Call.wait?, hfresh]
  cases hkind : c.kind.reads with
  | false => exact (passes_beginCall hkind ticket).reads hkind (serves_beginCall s c ticket).kind
  | true =>
      rw [beginCall]
      split
      · next fault _ =>
          obtain ⟨es, hend⟩ := endCall_eq s c (.error fault)
          rw [hend]
          exact .outside hc (holdsRead_finish c _) rfl (handed?_of_error c fault)
      · next b husable =>
          obtain ⟨hb, -⟩ := getElem?_of_usableBus husable
          simp only [hkind, Bool.not_true, Bool.false_eq_true, if_false]
          split
          · refine .outside hc ?_ rfl rfl
            simp [Call.holdsRead, Call.waitFor, Call.wait?]
          · next hfree =>
              refine reads_callRead hkind hc ?_ ?_ ticket
              · simp [Call.handed?, Call.result?, hfresh]
              · intro b' hb'
                obtain rfl : b = b' := Option.some.inj (hb.symm.trans hb')
                simpa using hfree

/-- **What a call does to the readers of its bus when it goes on.** -/
theorem reads_resumeCall (hsound : c.kind.reads = false → c.waitsToRead = false)
    (hready : s.isReady c = true) (ticket : Nat) : Reads s c (s.resumeCall c ticket) := by
  cases hkind : c.kind.reads with
  | false =>
      exact (passes_resumeCall hkind (hsound hkind) hready ticket).reads hkind
        (serves_resumeCall s c ticket).kind
  | true =>
      rw [resumeCall]
      split
      · next hw => simp [isReady, hw] at hready
      · next w hw =>
          obtain ⟨obstacle, number, deadline⟩ := w
          cases obstacle with
          | readLock =>
              refine reads_callRead hkind ?_ (handed?_of_wait hw) ?_ ticket
              · simp [Call.holdsRead, hw]
              · intro b hb
                simpa [isReady, hw, hb] using hready
          | sendLock =>
              refine (keeps_callSend hkind ticket).reads ?_
              simp [Call.holdsRead, hw, hkind]
          | room e =>
              have hholds : c.holdsRead = true := by simp [Call.holdsRead, hw, hkind]
              exact (keeps_callRoom hkind hholds e ticket).reads hholds
          | response =>
              refine reads_callResponse hkind ?_ ?_
              · simp [Call.awaitsResponse, hw]
              · simp [Call.holdsRead, hw, hkind]

/-- **What a call does to the readers of its bus when it gives up.** -/
theorem reads_abandonCall (hsound : c.kind.reads = false → c.waitsToRead = false) {w : Wait}
    (hw : c.wait? = some w) : Reads s c (s.abandonCall c) := by
  cases hkind : c.kind.reads with
  | false =>
      exact (passes_abandonCall hkind (hsound hkind) hw).reads hkind
        (serves_abandonCall Nothing s c).kind
  | true =>
      rw [abandonCall, hw]
      obtain ⟨obstacle, number, deadline⟩ := w
      cases obstacle with
      | readLock =>
          obtain ⟨es, hend⟩ := endCall_eq (s.emit (.lockTimedOut c.bus .read)) c
            (.error .lockTimeout)
          simp only [hend]
          refine .outside ?_ (holdsRead_finish c _) rfl (handed?_of_error c _)
          simp [Call.holdsRead, hw]
      | sendLock =>
          have hholds : c.holdsRead = true := by simp [Call.holdsRead, hw, hkind]
          have hleave := keeps_leaveCall (s := s.emit (.lockTimedOut c.bus c.kind.lock)) hkind
            .lockTimeout
          exact Keeps.reads (s := s) (hleave.of_sides rfl) hholds
      | room e =>
          have hholds : c.holdsRead = true := by simp [Call.holdsRead, hw, hkind]
          have hleave := keeps_leaveCall (s := s.onBus c.bus fun b => b.release c.kind.lock) hkind
            .timeout
          exact (hleave.of_sides (readerSides_lock s c.bus c.kind).2).reads hholds
      | response =>
          have hholds : c.holdsRead = true := by simp [Call.holdsRead, hw, hkind]
          exact (keeps_leaveCall hkind .timeout).reads hholds

/-- A step of a call with a journal of its own. -/
theorem reads_aside {step : Stack → Stack × Call}
    (h : Reads { s with journal := [] } c (step { s with journal := [] })) :
    Reads s c (s.aside step) := by
  cases h with
  | outside hc hd hsides hhanded => exact .outside hc hd hsides hhanded
  | passes hc hd hb hfree hsides hhanded => exact .passes hc hd hb hfree hsides hhanded
  | enters hc hd hb hfree hsides => exact .enters hc hd hb hfree hsides
  | stays hc hd hsides => exact .stays hc hd hsides
  | leaves hc hd hsides hhanded => exact .leaves hc hd hsides hhanded
  | takes hc hholds hd hb hm hsides hhanded => exact .takes hc hholds hd hb hm hsides hhanded

end Stack

end ManagementBus
