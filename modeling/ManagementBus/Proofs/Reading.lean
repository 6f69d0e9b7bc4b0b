import ManagementBus.Proofs.OneReader

/-!
# The response that a reader gets

A reader throws away the responses that wait when it takes the read lock of its bus, and nobody else
takes one while it has the lock. So the response that it gets is the first that has come since. That
is the response to its own request just if no other request of the controller itself has been
answered before: one of a reader that has given up, or of a caller that only sends.

What a call has queued and what has come while it reads is recorded beside a run, as a `Reading`.

## Main results

* `Reading.FitsAt.after`: the responses that wait are the first of those that have come.
* `read_answers_first`: which response a reader gets, and when it is the one to its own request.
-/

namespace ManagementBus

open Stack

namespace Scheduler

/-! ### What comes while a call reads -/

/-- The request that a call has queued when an action makes it wait for its response. -/
def queues? (s : Scheduler) (k : Nat) (a : Action) : Option Message :=
  match (s.perform a).calls[k]? with
  | some c =>
    if c.awaitsResponse && !s.calls[k]?.any Call.awaitsResponse then
      ((s.perform a).stack.newest? c.bus).map Envelope.msg
    else none
  | none => none

/-- The pending request of the controller itself that an action answers on the bus of a call which
has taken the read lock there, and the response. -/
def answersFor (s : Scheduler) (k : Nat) (a : Action) : List (Message × Message) :=
  match a, s.calls[k]? with
  | .receive i, some c => if isReaderOf i c then (s.stack.readerAnswer? i).toList else []
  | _, _ => []

end Scheduler

/-- What a call has queued, and the requests of the controller itself that have been answered on its
bus since it has taken the read lock there: oldest first, each with its response. -/
structure Reading where
  request? : Option Message := none
  answered : List (Message × Message) := []

/-- A response to a pending request of the controller itself. -/
structure Message.IsResponseTo (response entry : Message) : Prop where
  source : entry.infSource = .self
  netFn : response.netFn = entry.netFn + 1
  cmd : response.cmd = entry.cmd
  seq : response.seq = entry.seqTarget

namespace Reading

open Scheduler

variable {s : Scheduler} {a : Action} {k j : Nat} {c d : Call} {r : Stack × Call} {h : Reading}

/-- What an action adds. -/
def next (h : Reading) (k : Nat) (s : Scheduler) (a : Action) : Reading where
  request? := (s.queues? k a).or h.request?
  answered := h.answered ++ s.answersFor k a

/-- What the actions of a run add. -/
def along (h : Reading) (k : Nat) (s : Scheduler) : List Action → Reading
  | [] => h
  | a :: as => (h.next k s a).along k (s.perform a) as

/-- What holds of a call at any time: the responses that wait on its bus while it has the read lock
are the first of those that have come since it took the lock. -/
structure Fits (h : Reading) (s : Scheduler) (c : Call) : Prop where
  answers : ∀ p ∈ h.answered, p.2.IsResponseTo p.1
  waiting : c.holdsRead = true → ∀ v : ReaderSide, s.stack.readerSides[c.bus]? = some v →
    v.responses.items = (h.answered.map Prod.snd).take v.responses.capacity
  before : c.holdsRead = false → c.wait? ≠ none → h.answered = []
  asked : c.awaitsResponse = true → ∃ own, h.request? = some own ∧ own.Repeats c.msg
  room : c.kind.reads = true → ∀ e, c.room? = some e → e.msg.Repeats c.msg
  handed : ∀ m, c.handed? = some m → ∃ own entry rest, h.request? = some own ∧
    own.Repeats c.msg ∧ h.answered = (entry, m) :: rest

/-- Of a call that is new nothing has been recorded yet. -/
theorem fits_new (s : Scheduler) (kind : CallKind) (bus : Nat) (m : Message) :
    Fits {} s (Call.new kind bus m) where
  answers := by
    intro p hp
    cases hp
  waiting := by
    intro hholds
    simp [Call.holdsRead, Call.new, Call.wait?] at hholds
  before := fun _ _ => rfl
  asked := by
    intro hawaits
    simp [Call.awaitsResponse, Call.new, Call.wait?] at hawaits
  room := by
    intro _ e he
    cases he
  handed := by
    intro m hm
    cases hm

/-- No response comes while no link is looked at. -/
theorem answersFor_of_quiet (hquiet : ∀ i, a ≠ .receive i) : s.answersFor k a = [] := by
  cases a with
  | receive i => exact absurd rfl (hquiet i)
  | begin | resume | abandon | transmitBegin | transmitEnd | relink | submitFromHost | notify
    | dispatch | sweep | advance | stop | finish => rfl

/-- A call that does not come to wait for its response has queued no request. -/
theorem queues?_of_not (hd : (s.perform a).calls[k]? = some d)
    (hnot : d.awaitsResponse = false ∨ s.calls[k]?.any Call.awaitsResponse = true) :
    s.queues? k a = none := by
  rw [queues?, hd]
  rcases hnot with hnot | hnot
  · simp [hnot]
  · simp [hnot]

/-- A call that stays as it is has not queued anything. -/
theorem queues?_of_same (hc : s.calls[k]? = some c) (hd : (s.perform a).calls[k]? = some c) :
    s.queues? k a = none := by
  refine queues?_of_not hd ?_
  rw [hc]
  cases hawaits : c.awaitsResponse with
  | false => exact .inl rfl
  | true => exact .inr hawaits

/-- A call that has the read lock has handed over nothing. -/
theorem handed?_of_holdsRead (hholds : c.holdsRead = true) : c.handed? = none := by
  cases hw : c.wait? with
  | none =>
      rw [holdsRead_of_wait?_none hw] at hholds
      cases hholds
  | some w => exact handed?_of_wait hw

/-- A call that an action passes by. -/
theorem Fits.pass (hfits : h.Fits s c) (hc : s.calls[k]? = some c)
    (hd : (s.perform a).calls[k]? = some c) (hanswers : s.answersFor k a = [])
    (hsides : c.holdsRead = true → ∀ w : ReaderSide,
      (s.perform a).stack.readerSides[c.bus]? = some w →
        ∃ v : ReaderSide, s.stack.readerSides[c.bus]? = some v ∧
          w.responses.items = v.responses.items ∧ w.responses.capacity = v.responses.capacity) :
    (h.next k s a).Fits (s.perform a) c := by
  have hnext : h.next k s a = h := by
    rw [next, queues?_of_same hc hd, hanswers, Option.none_or, List.append_nil]
  rw [hnext]
  refine ⟨hfits.answers, ?_, hfits.before, hfits.asked, hfits.room, hfits.handed⟩
  intro hholds w hw
  obtain ⟨v, hv, hitems, hcapacity⟩ := hsides hholds w hw
  rw [hitems, hcapacity]
  exact hfits.waiting hholds v hv

/-- What waits after a response has come, in terms of all responses that have come. -/
theorem items_put_take {q : Queue Message} {ms : List Message} (hopen : q.closed = false)
    (hitems : q.items = ms.take q.capacity) (m : Message) :
    (q.put m).1.items = (ms ++ [m]).take (q.put m).1.capacity := by
  have hlength : q.items.length = min q.capacity ms.length := by rw [hitems, List.length_take]
  rcases Nat.lt_or_ge q.items.length q.capacity with hroom | hfull
  · have hshort : ms.length < q.capacity := by omega
    rw [Queue.put_of_room m hopen hroom]
    simp only [hitems, List.take_of_length_le (Nat.le_of_lt hshort)]
    refine (List.take_of_length_le ?_).symm
    rw [List.length_append, List.length_singleton]
    exact hshort
  · have hlong : q.capacity ≤ ms.length := by omega
    have hput : q.put m = (q, .full) := by simp [Queue.put, hopen, Queue.isFull, hfull]
    rw [hput]
    simp only [hitems, List.take_append_of_le_length hlong]

/-- What is put before the readers of a bus is a response to a request pending there. -/
theorem isResponseTo_of_readerAnswer? {t : Stack} {i : Nat} {entry response : Message}
    (h : t.readerAnswer? i = some (entry, response)) :
    response.IsResponseTo entry ∧ t.stopped = false := by
  obtain ⟨m, hheard, h⟩ := Option.bind_eq_some_iff.mp h
  obtain ⟨raw, hraw, -⟩ := Option.bind_eq_some_iff.mp hheard
  obtain ⟨b, hworker, -⟩ := Option.bind_eq_some_iff.mp hraw
  obtain ⟨hrunning, -⟩ := workerBus_eq_some_iff.mp hworker
  split at h
  · obtain ⟨found, hfound, h⟩ := Option.bind_eq_some_iff.mp h
    obtain ⟨b', -, hpending⟩ := Option.bind_eq_some_iff.mp hfound
    have hanswers : m.answers found = true := List.find?_some hpending
    split at h
    · next hself =>
        obtain ⟨rfl, rfl⟩ := Prod.mk.inj (Option.some.inj h)
        simp only [Message.answers, Correlation.names, Message.query, Bool.and_eq_true,
          beq_iff_eq] at hanswers
        obtain ⟨⟨hnetFn, hcmd⟩, hseq⟩ := hanswers
        refine ⟨⟨hself, ?_, hcmd.symm, hseq.symm⟩, hrunning⟩
        rw [hnetFn]
        exact (UInt8.sub_add_cancel m.netFn 1).symm
    · cases h
  · cases h

/-- A response comes to a call that has the read lock: it waits behind those that have come, if
there is room. -/
theorem Fits.answer (hfits : h.Fits s c) (hone : s.OneReader) (hc : s.calls[k]? = some c)
    (hholds : c.holdsRead = true) {entry response : Message}
    (hanswer : s.stack.readerAnswer? c.bus = some (entry, response))
    (hsides : (s.perform (.receive c.bus)).stack.readerSides =
      s.stack.readerSides.modify c.bus (ReaderSide.answered response)) :
    (h.next k s (.receive c.bus)).Fits (s.perform (.receive c.bus)) c := by
  obtain ⟨hresponse, hrunning⟩ := isResponseTo_of_readerAnswer? hanswer
  have hadds : s.answersFor k (.receive c.bus) = [(entry, response)] := by
    simp only [answersFor, hc, isReaderOf_self, hholds, if_true, hanswer, Option.toList_some]
  have hanswered : (h.next k s (.receive c.bus)).answered = h.answered ++ [(entry, response)] := by
    rw [next, hadds]
  refine ⟨?_, ?_, ?_, ?_, hfits.room, ?_⟩
  · intro p hp
    rw [hanswered] at hp
    rcases List.mem_append.mp hp with hp | hp
    · exact hfits.answers p hp
    · obtain rfl := List.mem_singleton.mp hp
      exact hresponse
  · intro _ w hw
    rw [hsides] at hw
    obtain ⟨v, hv, ⟨-, rfl⟩ | ⟨hne, -⟩⟩ := exists_of_getElem?_modify hw
    · have hopen : v.responses.closed = false := by
        by_contra hclosed
        have hstopped := hone.closed c.bus v hv (by simpa using hclosed)
        rw [hrunning] at hstopped
        cases hstopped
      rw [hanswered, List.map_append]
      exact items_put_take hopen (hfits.waiting hholds v hv) response
    · exact absurd rfl hne
  · intro hnot
    rw [hholds] at hnot
    cases hnot
  · intro hawaits
    have hqueues : s.queues? k (.receive c.bus) = none := queues?_of_same hc hc
    rw [next, hqueues, Option.none_or]
    exact hfits.asked hawaits
  · intro m hm
    rw [handed?_of_holdsRead hholds] at hm
    cases hm

/-- **An action that leaves the calls alone** may add a response, behind those that have come. -/
theorem Fits.works (hfits : h.Fits s c) (hone : s.OneReader) (hworks : s.Works a)
    (hc : s.calls[k]? = some c) : (h.next k s a).Fits (s.perform a) c := by
  cases hworks with
  | nothing hcalls hsides hquiet =>
      refine hfits.pass hc (hcalls ▸ hc) ?_ ?_
      · cases a with
        | receive i => simp only [answersFor, hc, hquiet i rfl, Option.toList_none, ite_self]
        | begin | resume | abandon | transmitBegin | transmitEnd | relink | submitFromHost | notify
          | dispatch | sweep | advance | stop | finish => rfl
      · intro _ w hw
        rw [hsides] at hw
        exact ⟨w, hw, rfl, rfl⟩
  | closes hcalls hsides _ hquiet =>
      refine hfits.pass hc (hcalls ▸ hc) (answersFor_of_quiet hquiet) ?_
      intro _ w hw
      rw [hsides, List.getElem?_map] at hw
      obtain ⟨v, hv, rfl⟩ := Option.map_eq_some_iff.mp hw
      exact ⟨v, hv, rfl, rfl⟩
  | @answers i entry response ha hanswer hcalls hsides =>
      subst ha
      cases hreader : isReaderOf i c with
      | true =>
          simp only [isReaderOf, Bool.and_eq_true, beq_iff_eq] at hreader
          obtain ⟨hholds, rfl⟩ := hreader
          exact hfits.answer hone hc hholds hanswer hsides
      | false =>
          refine hfits.pass hc (hcalls ▸ hc) ?_ ?_
          · simp only [answersFor, hc, hreader, Bool.false_eq_true, if_false]
          · intro hholds w hw
            rw [hsides] at hw
            obtain ⟨v, hv, ⟨rfl, -⟩ | ⟨-, rfl⟩⟩ := exists_of_getElem?_modify hw
            · rw [isReaderOf_self, hholds] at hreader
              cases hreader
            · exact ⟨w, hv, rfl, rfl⟩

/-- The step of another call leaves a call that has the read lock alone. -/
theorem readerSides_of_other (hone : s.OneReader) (hmoves : s.Moves a j c r) (hkj : k ≠ j)
    (hd : s.calls[k]? = some d) (hholds : d.holdsRead = true) :
    (s.perform a).stack.readerSides[d.bus]? = s.stack.readerSides[d.bus]? := by
  rw [hmoves.stack]
  obtain ⟨g, hsides, -⟩ := hmoves.reads.exists_modify
  by_cases hbus : c.bus = d.bus
  · cases hv : s.stack.readerSides[d.bus]? with
    | none =>
        rw [hsides, List.getElem?_modify, hv]
        rfl
    | some v =>
        have hpos := hone.holders_pos (List.mem_of_getElem? hd) hholds hv
        have hnot : c.holdsRead = false := by
          by_contra hc
          have hc' : c.holdsRead = true := by simpa using hc
          exact hkj (hone.eq hd (hmoves.mem_of_holdsRead hc') hholds hc' hbus.symm hv)
        have htaken : ∀ {b : Bus}, s.stack.buses[c.bus]? = some b → b.isLocked .read ≠ false := by
          intro b hb hfree
          rw [holders_of_free hb hfree (by rw [hbus]; exact hv)] at hpos
          cases hpos
        cases hmoves.reads with
        | outside _ _ hsame _ => rw [hsame, hv]
        | passes _ _ hb hfree => exact absurd hfree (htaken hb)
        | enters _ _ hb hfree => exact absurd hfree (htaken hb)
        | stays hc | leaves hc | takes _ hc =>
            rw [hnot] at hc
            cases hc
  · rw [hsides, List.getElem?_modify]
    simp only [hbus, if_false]
    cases s.stack.readerSides[d.bus]? <;> rfl

/-- Whether the call waited for its response before the step. -/
theorem any_awaitsResponse (hmoves : s.Moves a k c r) :
    s.calls[k]?.any Call.awaitsResponse = c.awaitsResponse := by
  rcases hmoves.here with ⟨hc, -⟩ | ⟨hnone, hnew⟩
  · rw [hc, Option.any_some]
  · rw [hnone, hnew]
    rfl

/-- A step with which a call does not come to wait for its response. -/
theorem request?_of_kept (h : Reading) (hmoves : s.Moves a k c r)
    (hkept : r.2.awaitsResponse = false ∨ c.awaitsResponse = true) :
    (h.next k s a).request? = h.request? := by
  have hqueues := queues?_of_not hmoves.moved (by rw [any_awaitsResponse hmoves]; exact hkept)
  rw [next, hqueues, Option.none_or]

/-- The step with which a call comes to wait for its response. -/
theorem request?_of_sent (h : Reading) {e : Envelope} (hmoves : s.Moves a k c r)
    (hd : r.2.awaitsResponse = true) (hc : c.awaitsResponse = false)
    (he : r.1.newest? c.bus = some e) : (h.next k s a).request? = some e.msg := by
  have hqueues : s.queues? k a = some e.msg := by
    simp only [queues?, hmoves.moved, any_awaitsResponse hmoves, hd, hc, hmoves.stack, hmoves.bus,
      he]
    rfl
  rw [next, hqueues, Option.some_or]

/-- A call that has come to wait for its response has queued a request of its message. -/
theorem Fits.asked_move (hfits : h.Fits s c) (hmoves : s.Moves a k c r)
    (hd : r.2.awaitsResponse = true) :
    ∃ own, (h.next k s a).request? = some own ∧ own.Repeats r.2.msg := by
  have hreads : c.kind.reads = true := by
    rw [← hmoves.kind]
    by_contra hnot
    have hwaits := hmoves.sound (by simpa using hnot)
    simp only [Call.waitsToRead, Call.awaitsResponse] at hwaits hd
    obtain ⟨w, hw, hresponse⟩ := (Option.any_eq_true ..).mp hd
    simp [hw, hresponse] at hwaits
  cases hc : c.awaitsResponse with
  | true =>
      obtain ⟨own, hown, hrepeats⟩ := hfits.asked hc
      rw [request?_of_kept h hmoves (.inr hc)]
      exact ⟨own, hown, hrepeats.trans hmoves.msg.symm⟩
  | false =>
      obtain ⟨e, he, hmade⟩ := (hmoves.asks hreads).sent hd hc
      refine ⟨e.msg, request?_of_sent h hmoves hd hc he, ?_⟩
      rcases hmade with hroom | hrepeats
      · exact (hfits.room hreads e hroom).trans hmoves.msg.symm
      · exact hrepeats.trans hmoves.msg.symm

/-- The response that a step of a call hands over is the first that has come. -/
theorem Fits.handed_move (hfits : h.Fits s c) (hmoves : s.Moves a k c r) {m : Message}
    (hm : r.2.handed? = some m) :
    ∃ own entry rest, (h.next k s a).request? = some own ∧ own.Repeats r.2.msg ∧
      h.answered = (entry, m) :: rest := by
  cases hmoves.reads with
  | outside _ _ _ hnone | passes _ _ _ _ _ hnone | leaves _ _ _ hnone =>
      rw [hnone] at hm
      cases hm
  | enters _ hd | stays _ hd =>
      rw [handed?_of_holdsRead hd] at hm
      cases hm
  | @takes b response hawaits hholds hd hb hhead hsides hhanded =>
      obtain rfl := hhanded m hm
      obtain ⟨own, hown, hrepeats⟩ := hfits.asked hawaits
      have hv : s.stack.readerSides[c.bus]? = some b.readerSide := by
        rw [readerSides, List.getElem?_map, hb, Option.map_some]
      have hitems := hfits.waiting hholds b.readerSide hv
      have hfirst : b.readerSide.responses.items.head? = some m := hhead
      rw [hitems] at hfirst
      cases hanswered : h.answered with
      | nil =>
          rw [hanswered] at hfirst
          simp at hfirst
      | cons p rest =>
          obtain ⟨entry, response⟩ := p
          have hsame : response = m := by
            rw [hanswered, List.map_cons] at hfirst
            cases hcapacity : b.readerSide.responses.capacity with
            | zero => simp [hcapacity] at hfirst
            | succ n =>
                rw [hcapacity, List.take_succ_cons, List.head?_cons] at hfirst
                exact Option.some.inj hfirst
          refine ⟨own, entry, rest, ?_, hrepeats.trans hmoves.msg.symm, by rw [hsame]⟩
          rw [request?_of_kept h hmoves (.inr hawaits)]
          exact hown

/-- **What a call has queued and what has come**, after a step of the call. -/
theorem Fits.move (hfits : h.Fits s c) (hempty : c.holdsRead = false → h.answered = [])
    (hmoves : s.Moves a k c r) : (h.next k s a).Fits (s.perform a) r.2 := by
  have hanswered : (h.next k s a).answered = h.answered := by
    rw [next, answersFor_of_quiet hmoves.quiet, List.append_nil]
  refine ⟨?_, ?_, ?_, fun hd => hfits.asked_move hmoves hd, ?_, ?_⟩
  · rw [hanswered]
    exact hfits.answers
  · intro hd w hw
    rw [hmoves.stack, hmoves.bus] at hw
    rw [hanswered]
    cases hmoves.reads with
    | outside _ hnot =>
        rw [hnot] at hd
        cases hd
    | passes _ hnot | leaves _ hnot | takes _ _ hnot =>
        rw [holdsRead_of_wait?_none hnot] at hd
        cases hd
    -- The responses have been purged, so nothing has come yet.
    | enters hc _ _ _ hsides =>
        rw [hsides] at hw
        obtain ⟨v, -, ⟨-, rfl⟩ | ⟨hne, -⟩⟩ := exists_of_getElem?_modify hw
        · rw [hempty hc, List.map_nil, List.take_nil]
          rfl
        · exact absurd rfl hne
    | stays hc _ hsides =>
        rw [hsides] at hw
        exact hfits.waiting hc w hw
  · intro hd hwait
    rw [hanswered]
    cases hmoves.reads with
    | outside hc => exact hempty hc
    | passes _ hnone | leaves _ hnone | takes _ _ hnone => exact absurd hnone hwait
    | enters _ hholds | stays _ hholds =>
        rw [hholds] at hd
        cases hd
  · intro hreads e he
    rw [hmoves.kind] at hreads
    rcases (hmoves.asks hreads).room e he with hroom | hrepeats
    · exact (hfits.room hreads e hroom).trans hmoves.msg.symm
    · exact hrepeats.trans hmoves.msg.symm
  · intro m hm
    rw [hanswered]
    exact hfits.handed_move hmoves hm

/-! ### Whole runs -/

/-- What holds of a call, before and after it begins. -/
structure FitsAt (h : Reading) (s : Scheduler) (k : Nat) : Prop where
  fresh : s.calls[k]? = none → h = {}
  fits : ∀ c, s.calls[k]? = some c → h.Fits s c

/-- Nothing is recorded of a call that has not begun. -/
theorem next_of_none (h : Reading) (hc : s.calls[k]? = none) (hd : (s.perform a).calls[k]? = none) :
    h.next k s a = h := by
  have hqueues : s.queues? k a = none := by rw [queues?, hd]
  have hanswers : s.answersFor k a = [] := by
    cases a with
    | receive i => simp only [answersFor, hc]
    | begin | resume | abandon | transmitBegin | transmitEnd | relink | submitFromHost | notify
      | dispatch | sweep | advance | stop | finish => rfl
  rw [next, hqueues, hanswers, Option.none_or, List.append_nil]

/-- A call that an action leaves alone. -/
theorem FitsAt.of_same (hfits : h.FitsAt s k) (hsame : (s.perform a).calls[k]? = s.calls[k]?)
    (hstep : ∀ c, s.calls[k]? = some c → (h.next k s a).Fits (s.perform a) c) :
    (h.next k s a).FitsAt (s.perform a) k := by
  refine ⟨?_, ?_⟩
  · intro hd
    have hc : s.calls[k]? = none := hsame.symm.trans hd
    rw [next_of_none h hc hd]
    exact hfits.fresh hc
  · intro c hd
    exact hstep c (hsame.symm.trans hd)

/-- **What holds of a call, before and after an action.** -/
theorem FitsAt.perform (hfits : h.FitsAt s k) (hone : s.OneReader) (a : Action) :
    (h.next k s a).FitsAt (s.perform a) k := by
  rcases moves_or_works hone.sound a with hworks | ⟨j, c, r, hmoves⟩
  · refine hfits.of_same (by rw [hworks.calls]) ?_
    intro c hc
    exact (hfits.fits c hc).works hone hworks hc
  · by_cases hkj : k = j
    · subst hkj
      refine ⟨?_, ?_⟩
      · intro hnone
        rw [hmoves.moved] at hnone
        cases hnone
      · intro d hd
        obtain rfl : r.2 = d := Option.some.inj (hmoves.moved.symm.trans hd)
        rcases hmoves.here with ⟨hc, hwait⟩ | ⟨hnone, hnew⟩
        · have hcfits := hfits.fits c hc
          exact hcfits.move (fun hnot => hcfits.before hnot hwait) hmoves
        · obtain rfl := hfits.fresh hnone
          refine Fits.move ?_ (fun _ => rfl) hmoves
          rw [hnew]
          exact fits_new s _ _ _
    · refine hfits.of_same (hmoves.others k hkj) ?_
      intro d hd
      refine (hfits.fits d hd).pass hd ?_ (answersFor_of_quiet hmoves.quiet) ?_
      · rw [hmoves.others k hkj]
        exact hd
      · intro hholds w hw
        rw [readerSides_of_other hone hmoves hkj hd hholds] at hw
        exact ⟨w, hw, rfl, rfl⟩

/-- **What holds of a call after a run.** -/
theorem FitsAt.after (hfits : h.FitsAt s k) (hone : s.OneReader) (as : List Action) :
    (h.along k s as).FitsAt (s.after as) k := by
  induction as generalizing h s with
  | nil => exact hfits
  | cons a as ih => exact ih (hfits.perform hone a) (hone.perform a)

/-- At rest no call has begun. -/
theorem fitsAt_atRest (stack : Stack) (k : Nat) : FitsAt {} (atRest stack) k where
  fresh := fun _ => rfl
  fits := by
    intro c hc
    cases hc

end Reading

namespace Scheduler

variable {setup : Setup} {stack : Stack} {k : Nat} {c : Call} {m : Message} {as : List Action}

/-- **The response that a reader gets** is the one to the first request of the controller itself
that has been answered on its bus since it has taken the read lock. So it has the function, the
command and the number of the request that the reader has queued just if that is the request first
answered. -/
theorem read_answers_first (hbuild : setup.build = .ok stack)
    (hc : ((atRest stack).after as).calls[k]? = some c)
    (hm : c.handed? = some m) :
    ∃ own entry rest, (Reading.along {} k (atRest stack) as).request? = some own ∧
      own.Repeats c.msg ∧
      (Reading.along {} k (atRest stack) as).answered = (entry, m) :: rest ∧
      m.IsResponseTo entry ∧
      ((m.netFn = own.netFn + 1 ∧ m.cmd = own.cmd ∧ m.seq = own.seq) ↔
        entry.netFn = own.netFn ∧ entry.cmd = own.cmd ∧ entry.seqTarget = own.seq) := by
  have hfits := ((Reading.fitsAt_atRest stack k).after (oneReader_atRest hbuild) as).fits c hc
  obtain ⟨own, entry, rest, hown, hrepeats, hanswered⟩ := hfits.handed m hm
  have hresponse : m.IsResponseTo entry := by
    refine hfits.answers (entry, m) ?_
    rw [hanswered]
    exact List.mem_cons_self
  refine ⟨own, entry, rest, hown, hrepeats, hanswered, hresponse, ?_⟩
  rw [hresponse.netFn, hresponse.cmd, hresponse.seq, UInt8.add_left_inj]

/-! ### An answer that comes late -/

/-- A reader gives up, the next one asks for something else, and then the response for the first
one comes. -/
def lateRun : List Action :=
  [.begin .read 0 { netFn := 0x06, cmd := 0x01 }, .transmitBegin 0, .transmitEnd 0, .abandon 0,
    .begin .read 0 { netFn := 0x06, cmd := 0x02 }, .transmitBegin 0, .transmitEnd 0,
    .relink 0 answeredLink, .receive 0, .resume 1]

/-- In this run the request that is answered first while the second reader reads is not its own. -/
theorem exists_other_answered_lateRun :
    ∃ own entry m rest, (Reading.along {} 1 (atRest (bmcStack {} .memory)) lateRun).request? =
        some own ∧
      (Reading.along {} 1 (atRest (bmcStack {} .memory)) lateRun).answered = (entry, m) :: rest ∧
      ¬(entry.netFn = own.netFn ∧ entry.cmd = own.cmd ∧ entry.seqTarget = own.seq) := by
  have hresult : ((((atRest (bmcStack {} .memory)).after lateRun).calls[1]?.bind Call.handed?).map
      Message.cmd) = some 0x01 := by decide +kernel
  have hrequest : (Reading.along {} 1 (atRest (bmcStack {} .memory)) lateRun).request?.map
      Message.cmd = some 0x02 := by decide +kernel
  obtain ⟨m, hm, hmcmd⟩ := Option.map_eq_some_iff.mp hresult
  obtain ⟨c, hc, hhanded⟩ := Option.bind_eq_some_iff.mp hm
  obtain ⟨own, entry, rest, hown, -, hanswered, -, hiff⟩ :=
    read_answers_first (build_bmcStack {} .memory) hc hhanded
  refine ⟨own, entry, m, rest, hown, hanswered, ?_⟩
  rw [← hiff]
  rintro ⟨-, hcmd, -⟩
  rw [hown, Option.map_some, Option.some.injEq] at hrequest
  rw [hmcmd, hrequest] at hcmd
  exact absurd hcmd (by decide)

/-- **A reader gets the response for another one.** It has asked for command 2 under number 2, and
gets the response to command 1 under number 1. -/
theorem read_answered_for_another :
    ((atRest (bmcStack {} .memory)).after lateRun).calls[1]?.map
        (fun c => (c.kind, c.msg.netFn, c.msg.cmd)) = some (.read, 0x06, 0x02) ∧
      (Reading.along {} 1 (atRest (bmcStack {} .memory)) lateRun).request?.map
        (fun own => (own.cmd, own.seq)) = some (0x02, 2) ∧
      (((atRest (bmcStack {} .memory)).after lateRun).calls[1]?.bind Call.handed?).map
        (fun m => (m.netFn, m.cmd, m.seq)) = some (0x07, 0x01, 1) := by
  refine ⟨by decide +kernel, by decide +kernel, by decide +kernel⟩

end Scheduler

end ManagementBus
