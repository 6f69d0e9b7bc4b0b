import ManagementBus.Proofs.Asking
import ManagementBus.Proofs.Building

/-!
# One reader at a time

A reader takes the read lock of its bus when it finds it free, and gives it back when it ends. So
the lock is taken once at most, by the one call that reads: `Scheduler.OneReader` states this of a
state, and every action keeps it.

## Main results

* `OneReader.perform`: an action keeps one reader at a time.
* `oneReader_after`: there is one reader of a bus at a time in every run.
* `OneReader.eq`: two readers of a bus are the same call.
-/

namespace ManagementBus

open Stack

namespace Stack

variable {s : Stack} {c : Call} {r : Stack × Call} {i : Nat} {v : ReaderSide}

/-- A call that waits for nothing has no lock. -/
theorem holdsRead_of_wait?_none (h : c.wait? = none) : c.holdsRead = false := by
  simp [Call.holdsRead, h]

/-- Where the read lock is free there is no reader. -/
theorem holders_of_free {b : Bus} (hb : s.buses[i]? = some b) (hfree : b.isLocked .read = false)
    (hv : s.readerSides[i]? = some v) : v.holders = 0 := by
  rw [readerSides, List.getElem?_map, hb] at hv
  obtain rfl : b.readerSide = v := Option.some.inj hv
  refine List.count_eq_zero.mpr ?_
  simpa [Bus.isLocked] using hfree

/-- A step of a call changes the number of readers of its bus as it changes the call. -/
theorem Reads.exists_modify (h : Reads s c r) :
    ∃ g, r.1.readerSides = s.readerSides.modify c.bus g ∧
      ∀ v, s.readerSides[c.bus]? = some v → v.holders ≤ 1 → (c.holdsRead = true → 0 < v.holders) →
        (g v).holders + (if c.holdsRead then 1 else 0) =
            v.holders + (if r.2.holdsRead then 1 else 0) ∧
          (g v).holders ≤ 1 ∧ (g v).responses.closed = v.responses.closed := by
  cases h with
  | outside hc hd hsides _ =>
      refine ⟨id, by rw [hsides, List.modify_id], ?_⟩
      intro v _ hone _
      rw [hc, hd]
      exact ⟨rfl, hone, rfl⟩
  | passes hc hd _ _ hsides _ =>
      refine ⟨fun v => v.entered.left, hsides, ?_⟩
      intro v _ hone _
      rw [hc, holdsRead_of_wait?_none hd]
      exact ⟨rfl, hone, rfl⟩
  | enters hc hd hb hfree hsides =>
      refine ⟨ReaderSide.entered, hsides, ?_⟩
      intro v hv _ _
      have hone : (ReaderSide.entered v).holders ≤ 1 := by
        simp only [ReaderSide.entered, holders_of_free hb hfree hv, Nat.le_refl]
      rw [hc, hd]
      exact ⟨rfl, hone, rfl⟩
  | stays hc hd hsides =>
      refine ⟨id, by rw [hsides, List.modify_id], ?_⟩
      intro v _ hone _
      rw [hc, hd]
      exact ⟨rfl, hone, rfl⟩
  | leaves hc hd hsides _ =>
      refine ⟨ReaderSide.left, hsides, ?_⟩
      intro v _ hone hpos
      rw [hc, holdsRead_of_wait?_none hd]
      exact ⟨Nat.sub_add_cancel (hpos hc), Nat.le_trans (Nat.sub_le _ 1) hone, rfl⟩
  | takes _ hholds hd _ _ hsides _ =>
      refine ⟨ReaderSide.served, hsides, ?_⟩
      intro v _ hone hpos
      rw [hholds, holdsRead_of_wait?_none hd]
      exact ⟨Nat.sub_add_cancel (hpos hholds), Nat.le_trans (Nat.sub_le _ 1) hone, rfl⟩

/-- A reader side after a change of one of them. -/
theorem exists_of_getElem?_modify {l : List ReaderSide} {g : ReaderSide → ReaderSide} {j : Nat}
    {w : ReaderSide} (h : (l.modify j g)[i]? = some w) :
    ∃ v, l[i]? = some v ∧ ((j = i ∧ w = g v) ∨ (j ≠ i ∧ w = v)) := by
  rw [List.getElem?_modify] at h
  obtain ⟨v, hv, rfl⟩ := Option.map_eq_some_iff.mp h
  refine ⟨v, hv, ?_⟩
  by_cases hji : j = i
  · exact .inl ⟨hji, if_pos hji⟩
  · exact .inr ⟨hji, if_neg hji⟩

end Stack

namespace Scheduler

variable {s : Scheduler} {a : Action} {k j : Nat} {c d : Call} {r : Stack × Call} {i : Nat}

/-! ### One reader at a time -/

/-- Whether a call has taken the read lock of a bus. -/
def isReaderOf (i : Nat) (c : Call) : Bool := c.holdsRead && c.bus == i

/-- The number of calls that have taken the read lock of a bus. -/
def readers (s : Scheduler) (i : Nat) : Nat := s.calls.countP (isReaderOf i)

/-- The read lock of a bus is taken by one call at most, and queues are closed by a shutdown
alone. -/
structure OneReader (s : Scheduler) : Prop where
  sound : ∀ c ∈ s.calls, c.IsSound
  readers : ∀ (i : Nat) (v : ReaderSide), s.stack.readerSides[i]? = some v →
    v.holders = s.readers i ∧ v.holders ≤ 1
  closed : ∀ (i : Nat) (v : ReaderSide), s.stack.readerSides[i]? = some v →
    v.responses.closed = true → s.stack.stopped = true

/-- A call that is new reads nowhere yet. -/
theorem isReaderOf_new (i : Nat) (kind : CallKind) (bus : Nat) (m : Message) :
    isReaderOf i (Call.new kind bus m) = false := by
  simp [isReaderOf, Call.holdsRead, Call.new, Call.wait?]

/-- On its own bus a call reads if it has the read lock. -/
theorem isReaderOf_self (c : Call) : isReaderOf c.bus c = c.holdsRead := by
  simp [isReaderOf]

/-- On another bus it does not read. -/
theorem isReaderOf_ne (h : c.bus ≠ i) : isReaderOf i c = false := by
  simp [isReaderOf, h]

/-- A call that moves and has the read lock is one of the calls. -/
theorem Moves.mem_of_holdsRead (h : s.Moves a k c r) (hc : c.holdsRead = true) :
    s.calls[k]? = some c := by
  rcases h.here with ⟨hmem, -⟩ | ⟨-, hnew⟩
  · exact hmem
  · rw [hnew] at hc
    simp [Call.holdsRead, Call.new, Call.wait?] at hc

/-- A call that has the read lock of its bus is counted. -/
theorem OneReader.holders_pos (h : s.OneReader) (hc : c ∈ s.calls) (hholds : c.holdsRead = true)
    {v : ReaderSide} (hv : s.stack.readerSides[c.bus]? = some v) : 0 < v.holders := by
  rw [(h.readers c.bus v hv).1]
  refine List.countP_pos_iff.mpr ⟨c, hc, ?_⟩
  rw [isReaderOf_self]
  exact hholds

/-- **A step of a call keeps one reader at a time.** -/
theorem OneReader.moves (h : s.OneReader) (hmoves : s.Moves a k c r) : (s.perform a).OneReader := by
  obtain ⟨g, hsides, hg⟩ := hmoves.reads.exists_modify
  -- Calls that hold the lock of a bus are counted before and after, and so are its holders.
  have hside : ∀ (i : Nat) (w : ReaderSide), (s.perform a).stack.readerSides[i]? = some w →
      ∃ v, s.stack.readerSides[i]? = some v ∧ w.responses.closed = v.responses.closed ∧
        w.holders = (s.perform a).readers i ∧ w.holders ≤ 1 := by
    intro i w hw
    have hcount : (s.perform a).readers i + (if isReaderOf i c then 1 else 0) =
        s.readers i + (if isReaderOf i r.2 then 1 else 0) :=
      hmoves.count (isReaderOf i) (isReaderOf_new i _ _ _)
    rw [hmoves.stack, hsides] at hw
    obtain ⟨v, hv, ⟨rfl, rfl⟩ | ⟨hne, rfl⟩⟩ := exists_of_getElem?_modify hw
    · obtain ⟨heq, hone⟩ := h.readers c.bus v hv
      obtain ⟨hholders, hone', hclosed⟩ := hg v hv hone fun hc =>
        h.holders_pos (List.mem_of_getElem? (hmoves.mem_of_holdsRead hc)) hc hv
      rw [isReaderOf_self, ← hmoves.bus, isReaderOf_self, hmoves.bus] at hcount
      exact ⟨v, hv, hclosed, by omega, hone'⟩
    · obtain ⟨heq, hone⟩ := h.readers i w hv
      rw [isReaderOf_ne hne, isReaderOf_ne (by rw [hmoves.bus]; exact hne)] at hcount
      exact ⟨w, hv, rfl, heq.trans hcount.symm, hone⟩
  refine ⟨?_, ?_, ?_⟩
  · intro d hd
    obtain ⟨j, hj⟩ := List.getElem?_of_mem hd
    by_cases hjk : j = k
    · subst hjk
      rw [hmoves.moved] at hj
      obtain rfl := Option.some.inj hj
      exact hmoves.sound
    · rw [hmoves.others j hjk] at hj
      exact h.sound d (List.mem_of_getElem? hj)
  · intro i w hw
    obtain ⟨v, -, -, hcount⟩ := hside i w hw
    exact hcount
  · intro i w hw hclosed
    obtain ⟨v, hv, hsame, -⟩ := hside i w hw
    exact (s.tells_perform a).stopped (h.closed i v hv (hsame.symm.trans hclosed))

/-- **An action that leaves the calls alone keeps one reader at a time.** -/
theorem OneReader.works (h : s.OneReader) (hworks : s.Works a) : (s.perform a).OneReader := by
  have hside : (s.perform a).calls = s.calls ∧
      ∀ (i : Nat) (w : ReaderSide), (s.perform a).stack.readerSides[i]? = some w →
        ∃ v, s.stack.readerSides[i]? = some v ∧ w.holders = v.holders ∧
          (w.responses.closed = v.responses.closed ∨ (s.perform a).stack.stopped = true) := by
    cases hworks with
    | nothing hcalls hsides _ =>
        refine ⟨hcalls, fun i w hw => ?_⟩
        rw [hsides] at hw
        exact ⟨w, hw, rfl, .inl rfl⟩
    | @answers j entry response _ _ hcalls hsides =>
        refine ⟨hcalls, fun i w hw => ?_⟩
        rw [hsides] at hw
        obtain ⟨v, hv, ⟨rfl, rfl⟩ | ⟨-, rfl⟩⟩ := exists_of_getElem?_modify hw
        · exact ⟨v, hv, rfl, .inl (Queue.closed_put v.responses response)⟩
        · exact ⟨w, hv, rfl, .inl rfl⟩
    | closes hcalls hsides hstopped _ =>
        refine ⟨hcalls, fun i w hw => ?_⟩
        rw [hsides, List.getElem?_map] at hw
        obtain ⟨v, hv, rfl⟩ := Option.map_eq_some_iff.mp hw
        exact ⟨v, hv, rfl, .inr hstopped⟩
  obtain ⟨hcalls, hside⟩ := hside
  refine ⟨?_, ?_, ?_⟩
  · rw [hcalls]
    exact h.sound
  · intro i w hw
    obtain ⟨v, hv, hholders, -⟩ := hside i w hw
    rw [Scheduler.readers, hcalls, hholders]
    exact h.readers i v hv
  · intro i w hw hclosed
    obtain ⟨v, hv, -, hsame | hstopped⟩ := hside i w hw
    · exact (s.tells_perform a).stopped (h.closed i v hv (hsame.symm.trans hclosed))
    · exact hstopped

/-- **There is one reader of a bus at a time**, after any action. -/
theorem OneReader.perform (h : s.OneReader) (a : Action) : (s.perform a).OneReader := by
  rcases moves_or_works h.sound a with hworks | ⟨k, c, r, hmoves⟩
  · exact h.works hworks
  · exact h.moves hmoves

/-- At rest nobody reads. -/
theorem oneReader_atRest {setup : Setup} {stack : Stack} (hbuild : setup.build = .ok stack) :
    (atRest stack).OneReader := by
  have hnew : ∀ (i : Nat) (v : ReaderSide), stack.readerSides[i]? = some v →
      v = ⟨0, Queue.new stack.timing.responseLength⟩ := by
    intro i v hv
    rw [readerSides, List.getElem?_map] at hv
    obtain ⟨b, hb, rfl⟩ := Option.map_eq_some_iff.mp hv
    obtain ⟨config, link, rfl⟩ := Setup.exists_new_of_build hbuild hb
    rfl
  refine ⟨?_, ?_, ?_⟩
  · intro c hc
    cases hc
  · intro i v hv
    rw [hnew i v hv]
    exact ⟨rfl, Nat.zero_le 1⟩
  · intro i v hv hclosed
    rw [hnew i v hv] at hclosed
    cases hclosed

/-- **There is one reader of a bus at a time in every run.** -/
theorem oneReader_after {setup : Setup} {stack : Stack} (hbuild : setup.build = .ok stack)
    (as : List Action) : ((atRest stack).after as).OneReader :=
  after_induction (oneReader_atRest hbuild) fun _ a _ hone => hone.perform a

/-- Two readers of one bus at a time are one. -/
theorem OneReader.eq (h : s.OneReader) (hc : s.calls[k]? = some c) (hd : s.calls[j]? = some d)
    (hcholds : c.holdsRead = true) (hdholds : d.holdsRead = true) (hbus : c.bus = d.bus)
    {v : ReaderSide} (hv : s.stack.readerSides[c.bus]? = some v) : k = j := by
  by_contra hkj
  obtain ⟨heq, hone⟩ := h.readers c.bus v hv
  have hcp : isReaderOf c.bus c = true := by rw [isReaderOf_self, hcholds]
  have hdp : isReaderOf c.bus d = true := by rw [hbus, isReaderOf_self, hdholds]
  -- Without the first of them the second one is still counted.
  have hset := countP_set_add (isReaderOf c.bus) (Call.new c.kind c.bus c.msg) hc
  have hrest : 0 < (s.calls.set k (Call.new c.kind c.bus c.msg)).countP (isReaderOf c.bus) := by
    refine List.countP_pos_iff.mpr ⟨d, ?_, hdp⟩
    refine List.mem_of_getElem? (i := j) ?_
    rw [List.getElem?_set_ne hkj]
    exact hd
  rw [hcp, isReaderOf_new] at hset
  rw [Scheduler.readers] at heq
  simp only [if_true, Bool.false_eq_true, if_false] at hset
  omega

end Scheduler

end ManagementBus
