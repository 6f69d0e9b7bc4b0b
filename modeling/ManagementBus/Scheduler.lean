import ManagementBus.Call
import ManagementBus.Stack.Receive
import ManagementBus.Stack.Transmit

/-!
# The stack and its callers

A stack whose workers are stepped from outside, together with the calls that wait on it. Between
two steps every call goes as far as it can: the state *settles*. Of several calls that could go on
the one that has waited longest does, so a lock and a place in a queue go to the first in line.

Time passes only while somebody waits: in a foreground call that finds a lock taken, or when a
result is waited for. It passes from one deadline to the next. A call is abandoned at its deadline,
and whoever goes on because of that counts the next deadline from there.

## Main statements

* `progress_settle`: after settling no call can go on.
* `lt_of_deadline?_passUntil`: after time has passed no deadline is overdue.
-/

namespace ManagementBus

/-- A stack with its callers. -/
structure Scheduler where
  stack : Stack
  /-- The calls, in the order in which they have begun. -/
  calls : List Call := []
  /-- The number of the next wait. -/
  tickets : Nat := 0
  /-- What earlier operations have reported. -/
  log : List Event := []

namespace Scheduler

/-! ### Settling -/

/-- The position of the longest waiting of the calls with a property. -/
def longestWaiting (s : Scheduler) (p : Call → Bool) : Option Nat :=
  ((s.calls.zipIdx.filter fun (c, _) => p c).minOn? fun (c, _) => c.ticket).map Prod.snd

/-- The earliest deadline of a call. -/
def deadline? (s : Scheduler) : Option Nat :=
  (s.calls.filterMap Call.deadline?).min?

/-- Whether the deadline of a call has passed, and none is earlier. -/
def isExpired (s : Scheduler) (c : Call) : Bool :=
  match s.deadline? with
  | some d => d ≤ s.stack.waited && c.deadline? = some d
  | none => false

/-- Takes a step of one call. -/
def stepCall (s : Scheduler) (k : Nat) (step : Stack → Call → Stack × Call) : Scheduler :=
  match s.calls[k]? with
  | none => s
  | some c =>
    let (stack, c) := s.stack.aside fun stack => step stack c
    { s with stack, calls := s.calls.set k c, tickets := s.tickets + 1 }

/-- One call goes on, or is abandoned; `none` when no call can do either. -/
def progress (s : Scheduler) : Option Scheduler :=
  match s.longestWaiting s.stack.isReady with
  | some k => some (s.stepCall k fun stack c => stack.resumeCall c s.tickets)
  | none => (s.longestWaiting s.isExpired).map fun k => s.stepCall k Stack.abandonCall

/-- The number of obstacles that the calls may still meet. -/
def remaining (s : Scheduler) : Nat :=
  (s.calls.map Call.rank).foldr (· + ·) 0

/-- Lets calls go on, for a number of steps at most. -/
def settleWithin : Nat → Scheduler → Scheduler
  | 0, s => s
  | n + 1, s =>
    match s.progress with
    | some s => settleWithin n s
    | none => s

/-- Lets every call go as far as it can; every step takes an obstacle out of the way. -/
def settle (s : Scheduler) : Scheduler :=
  settleWithin s.remaining s

/-- A call that is found is there and has the property. -/
theorem longestWaiting_some {s : Scheduler} {p : Call → Bool} {k : Nat}
    (h : s.longestWaiting p = some k) : ∃ c, s.calls[k]? = some c ∧ p c = true := by
  obtain ⟨⟨c, j⟩, hmin, rfl⟩ := Option.map_eq_some_iff.1 h
  have hmem := List.minOn?_mem hmin
  rw [List.mem_filter, List.mem_zipIdx_iff_getElem?] at hmem
  exact ⟨c, hmem.1, hmem.2⟩

/-- One call with fewer obstacles leaves fewer in all. -/
private theorem sum_set_lt {calls : List Call} {k : Nat} {c d : Call}
    (hk : calls[k]? = some c) (hlt : d.rank < c.rank) :
    ((calls.set k d).map Call.rank).foldr (· + ·) 0 < (calls.map Call.rank).foldr (· + ·) 0 := by
  induction calls generalizing k with
  | nil => simp at hk
  | cons x rest ih =>
    cases k with
    | zero =>
      simp only [List.getElem?_cons_zero, Option.some.injEq] at hk
      subst hk
      simpa using hlt
    | succ k =>
      have := ih (by simpa using hk)
      simpa using this

/-- A step that takes its call further leaves fewer obstacles to all calls together. -/
theorem remaining_stepCall_lt {s : Scheduler} {k : Nat} {c : Call}
    {step : Stack → Call → Stack × Call} (hk : s.calls[k]? = some c)
    (hlt : (s.stack.aside fun stack => step stack c).2.rank < c.rank) :
    (s.stepCall k step).remaining < s.remaining := by
  simp only [stepCall, hk]
  exact sum_set_lt hk hlt

/-- A step of a call leaves fewer obstacles. -/
theorem remaining_progress_lt {s t : Scheduler} (h : s.progress = some t) :
    t.remaining < s.remaining := by
  unfold progress at h
  split at h
  · next k hk =>
    cases h
    obtain ⟨c, hc, hready⟩ := longestWaiting_some hk
    refine remaining_stepCall_lt hc ?_
    rw [Stack.rank_aside]
    exact Stack.rank_resumeCall_lt _ hready
  · obtain ⟨k, hk, rfl⟩ := Option.map_eq_some_iff.1 h
    obtain ⟨c, hc, hexpired⟩ := longestWaiting_some hk
    refine remaining_stepCall_lt hc ?_
    rw [Stack.rank_aside]
    refine Stack.rank_abandonCall_lt ?_
    unfold isExpired at hexpired
    split at hexpired
    · simp only [Bool.and_eq_true, decide_eq_true_eq, Call.deadline?] at hexpired
      obtain ⟨w, hw, -⟩ := Option.bind_eq_some_iff.1 (of_decide_eq_true hexpired.2)
      simp [Call.isWaiting, hw]
    · simp at hexpired

/-- **After settling no call can go on.** -/
theorem progress_settle (s : Scheduler) : s.settle.progress = none := by
  suffices h : ∀ n (s : Scheduler), s.remaining ≤ n → (settleWithin n s).progress = none from
    h _ s (Nat.le_refl _)
  intro n
  induction n with
  | zero =>
    intro s hn
    cases hp : s.progress with
    | none => exact hp
    | some t => exact absurd (remaining_progress_lt hp) (by omega)
  | succ n ih =>
    intro s hn
    rw [settleWithin]
    split
    · next t ht => exact ih t (by have := remaining_progress_lt ht; omega)
    · assumption

/-! ### Time -/

/-- The stack at a moment, unless the moment lies in the past. -/
def atMoment (s : Scheduler) (moment : Nat) : Scheduler :=
  { s with stack := { s.stack with waited := max s.stack.waited moment } }

/-- Lets time pass up to the earliest deadline, and the calls settle. -/
def passDeadline (s : Scheduler) : Scheduler :=
  match s.deadline? with
  | none => s
  | some d => (s.atMoment d).settle

/-- Lets time pass up to a moment, for a number of deadlines at most. -/
def passUntilWithin (moment : Nat) : Nat → Scheduler → Scheduler
  | 0, s => s.atMoment moment
  | n + 1, s =>
    if s.deadline?.any (· ≤ moment) then passUntilWithin moment n s.passDeadline
    else s.atMoment moment

/-- Lets time pass up to a moment. At each deadline on the way a call gives up an obstacle. -/
def passUntil (s : Scheduler) (moment : Nat) : Scheduler :=
  passUntilWithin moment s.remaining s

/-- Settling adds no obstacle. -/
theorem remaining_settleWithin_le (n : Nat) (s : Scheduler) :
    (settleWithin n s).remaining ≤ s.remaining := by
  induction n generalizing s with
  | zero => exact Nat.le_refl _
  | succ n ih =>
    rw [settleWithin]
    split
    · next t ht => exact Nat.le_trans (ih t) (Nat.le_of_lt (remaining_progress_lt ht))
    · exact Nat.le_refl _

/-- Settling takes an obstacle out of the way wherever a call can go on. -/
theorem remaining_settle_lt {s t : Scheduler} (h : s.progress = some t) :
    s.settle.remaining < s.remaining := by
  have hlt := remaining_progress_lt h
  obtain ⟨n, hn⟩ := Nat.exists_eq_succ_of_ne_zero (Nat.ne_zero_of_lt hlt)
  have hsettle : s.settle = settleWithin n t := by
    rw [settle, hn, settleWithin, h]
  rw [hsettle]
  exact Nat.lt_of_le_of_lt (remaining_settleWithin_le n t) hlt

/-- The earliest deadline is that of some call. -/
theorem exists_mem_of_deadline? {s : Scheduler} {d : Nat} (h : s.deadline? = some d) :
    ∃ c ∈ s.calls, c.deadline? = some d :=
  List.mem_filterMap.1 (List.min?_mem h)

/-- Whoever has a deadline has an obstacle before it. -/
theorem remaining_pos_of_deadline? {s : Scheduler} {d : Nat} (h : s.deadline? = some d) :
    0 < s.remaining := by
  obtain ⟨c, hmem, hc⟩ := exists_mem_of_deadline? h
  obtain ⟨w, hw, -⟩ := Option.bind_eq_some_iff.1 hc
  have hrank : 0 < c.rank := by
    simp only [Call.rank, hw]
    cases w.obstacle <;> exact Nat.succ_pos _
  exact List.sum_pos_iff_exists_pos_nat.2 ⟨c.rank, List.mem_map_of_mem hmem, hrank⟩

/-- Where some call has a property, one of them has waited longest. -/
theorem isSome_longestWaiting {s : Scheduler} {p : Call → Bool} {c : Call} (hmem : c ∈ s.calls)
    (hp : p c = true) : (s.longestWaiting p).isSome = true := by
  obtain ⟨i, hi⟩ := List.getElem?_of_mem hmem
  have hfilter : (c, i) ∈ s.calls.zipIdx.filter fun (c, _) => p c :=
    List.mem_filter.2 ⟨List.mem_zipIdx_iff_getElem?.2 hi, hp⟩
  rw [longestWaiting, Option.isSome_map]
  exact List.isSome_minOn?_of_mem hfilter

/-- A call whose deadline is the earliest one has expired once that time has passed. -/
theorem isExpired_of_deadline? {s : Scheduler} {c : Call} {d : Nat} (hs : s.deadline? = some d)
    (hc : c.deadline? = some d) (hd : d ≤ s.stack.waited) : s.isExpired c = true := by
  simp [isExpired, hs, hc, hd]

/-- At a deadline there is a call that can go on or be abandoned. -/
theorem isSome_progress_atMoment {s : Scheduler} {d : Nat} (h : s.deadline? = some d) :
    (s.atMoment d).progress.isSome = true := by
  obtain ⟨c, hmem, hc⟩ := exists_mem_of_deadline? h
  have hexpired : (s.atMoment d).isExpired c = true :=
    isExpired_of_deadline? h hc (Nat.le_max_right ..)
  unfold progress
  split
  · rfl
  · rw [Option.isSome_map]
    exact isSome_longestWaiting hmem hexpired

/-- A call gives up an obstacle at every deadline. -/
theorem remaining_passDeadline_lt {s : Scheduler} {d : Nat} (h : s.deadline? = some d) :
    s.passDeadline.remaining < s.remaining := by
  obtain ⟨t, ht⟩ := Option.isSome_iff_exists.1 (isSome_progress_atMoment h)
  simp only [passDeadline, h]
  exact remaining_settle_lt ht

/-- **After time has passed up to a moment, every deadline that is left is later.** -/
theorem lt_of_deadline?_passUntil {s : Scheduler} {moment d : Nat}
    (h : (s.passUntil moment).deadline? = some d) : moment < d := by
  suffices hall : ∀ n (s : Scheduler), s.remaining ≤ n →
      (passUntilWithin moment n s).deadline? = some d → moment < d from
    hall _ s (Nat.le_refl _) h
  intro n
  induction n with
  | zero =>
    intro s hn hd
    exact absurd (remaining_pos_of_deadline? (s := s) hd) (by omega)
  | succ n ih =>
    intro s hn hd
    rw [passUntilWithin] at hd
    split at hd
    · next hany =>
      cases he : s.deadline? with
      | none => simp [he] at hany
      | some e => exact ih _ (by have := remaining_passDeadline_lt he; omega) hd
    · next hany =>
      have hs : s.deadline? = some d := hd
      simpa [hs] using hany

/-! ### Acting on the stack -/

/-- An operation on the stack, after which the calls settle. If it has waited, what it has done
came first, and then the time passes for the calls too. -/
def act {α : Type} (s : Scheduler) (f : Stack → Stack × α) : Scheduler × α :=
  let (stack, a) := f s.stack
  let done : Scheduler := { s with stack := { stack with waited := s.stack.waited } }
  (done.settle.passUntil stack.waited, a)

/-- Takes what has been reported since the last time, and keeps it in the log. -/
def flush (s : Scheduler) : Scheduler × List Event :=
  let events := s.stack.journal
  ({ s with stack := { s.stack with journal := [] }, log := s.log ++ events }, events)

/-- Everything that has been reported, by the workers and by the calls. -/
def allEvents (s : Scheduler) : List Event :=
  s.log ++ s.stack.journal ++ s.calls.flatMap Call.events

/-! ### Workers -/

/-- The first half of a write. -/
def transmitBegin (s : Scheduler) (i : Nat) : Scheduler × TransmitBegin :=
  s.act (·.transmitBegin i)

/-- The second half of a write. -/
def transmitEnd (s : Scheduler) (i : Nat) : Scheduler × TransmitEnd :=
  s.act (·.transmitEnd i)

/-- A write: its first half, and its second if there is something in hand. -/
def transmit (s : Scheduler) (i : Nat) : Scheduler × TransmitBegin × Option TransmitEnd :=
  match s.transmitBegin i with
  | (s, .writing) =>
    let (s, r) := s.transmitEnd i
    (s, .writing, some r)
  | (s, .busy) =>
    let (s, r) := s.transmitEnd i
    (s, .busy, some r)
  | (s, r) => (s, r, none)

/-- Whether a write has done something. -/
def transmitWorked : TransmitBegin → Bool
  | .noWorker | .idle => false
  | .busy | .dropped | .writing => true

/-! ### Making room -/

/-- Whether a caller that only sends is still waiting. -/
def hasWaitingSender (s : Scheduler) : Bool :=
  s.calls.any fun c => c.isWaiting && !c.kind.reads

/-- The first usable bus whose transmit queue is full. No room is made after a shutdown, nor while
a sender waits for it. -/
def fullBus? (s : Scheduler) : Option Nat :=
  if s.stack.stopped || s.hasWaitingSender then none
  else s.stack.buses.findIdx? fun bus => bus.config.isUsable && bus.outbound.isFull

/-- The number of writes that an envelope may take part in, and those of the report that it may
cause. -/
def envelopeWork (maxRetries : UInt32) (e : Envelope) : Nat :=
  let attempts := maxRetries.toNat + 1 - e.retries.toNat
  if e.msg.isResponse then attempts + 1 else attempts + (maxRetries.toNat + 2)

/-- The number of writes that may happen before the transmit queues are empty. -/
def pendingWork (s : Scheduler) : Nat :=
  let maxRetries := s.stack.timing.maxRetries
  let envelopes := s.stack.buses.flatMap fun bus => bus.inHand.toList ++ bus.outbound.items
  (envelopes.map (envelopeWork maxRetries)).foldr (· + ·) 0 +
    s.calls.length * (2 * maxRetries.toNat + 3)

/-- Transmits until no transmit queue is full, for a number of writes at most. -/
def makeRoomWithin : Nat → Scheduler → Scheduler
  | 0, s => s
  | n + 1, s =>
    match s.fullBus? with
    | none => s
    | some i => makeRoomWithin n (s.transmit i).1

/-- Transmits until no transmit queue is full. -/
def makeRoom (s : Scheduler) : Scheduler :=
  makeRoomWithin s.pendingWork s

/-- An operation on the stack that may have to queue something. -/
def actWithRoom {α : Type} (s : Scheduler) (f : Stack → Stack × α) : Scheduler × α :=
  s.makeRoom.act f

/-! ### Receiving and running -/

/-- One look at the link of a bus. -/
def receive (s : Scheduler) (i : Nat) : Scheduler × Received :=
  s.actWithRoom (·.receive i)

/-- Whether a frame waits for the worker of a bus. -/
def frameWaits (s : Scheduler) (i : Nat) : Bool :=
  match s.stack.workerBus i with
  | none => false
  | some bus => !bus.link.near.inbox.isEmpty

/-- One bus writes and receives, as far as the number of steps allows. -/
def runBus (limit : Nat) (state : Scheduler × Nat) (i : Nat) : Scheduler × Nat :=
  let (s, n) := state
  let (s, n) :=
    if n < limit then
      let (s, r, _) := s.transmit i
      (s, if transmitWorked r then n + 1 else n)
    else (s, n)
  if n < limit && s.frameWaits i then ((s.receive i).1, n + 1) else (s, n)

/-- Each bus in turn writes and receives. -/
def runPass (limit : Nat) (state : Scheduler × Nat) : Scheduler × Nat :=
  (List.range state.1.stack.buses.length).foldl (runBus limit) state

/-- Passes over the buses, up to a number of them, until one makes no step. -/
def runPasses (limit : Nat) : Nat → Scheduler × Nat → Scheduler × Nat
  | 0, state => state
  | k + 1, state =>
    let after := runPass limit state
    if after.2 = state.2 then after else runPasses limit k after

/-- Lets the workers run for a number of steps, and says how many they took. Every pass but the
last takes a step, so there are no more passes than steps and one. -/
def run (s : Scheduler) (limit : Nat) : Scheduler × Nat :=
  runPasses limit (limit + 1) (s, 0)

/-- Shuts the stack down. Closing the queues ends every wait, so that the callers give back their
locks; then the writes that have begun are finished, bus by bus. -/
def shutdown (s : Scheduler) : Scheduler :=
  let stopped := (s.act fun stack => (stack.stop, ())).1
  (List.range s.stack.buses.length).foldl
    (fun s i => (s.act fun stack => (stack.finishInHand i, ())).1) stopped

end Scheduler

end ManagementBus
