import ManagementBus.Proofs.OneReader
import ManagementBus.Proofs.Refusing

/-!
# Locks of senders

A sender takes a lock only in order to wait for room, and gives it back when its envelope is queued,
when the queue is closed, or when it gives up. So the lock is taken as often as there are calls that
wait for room with it: `Scheduler.HoldsForRoom` states this of a state, and every action keeps it.

A call that waits for room where there is room can go on. In a state of a run where no call can go
on, a bus that is closed or has room therefore has both locks free, which is what the results on
sending, bridging and dispatching assume of it.

## Main results

* `balances_beginCall`, `balances_resumeCall`, `balances_abandonCall`: every step of a call.
* `holdsForRoom_after`: who has a lock, in every run.
* `isSettled_of_progress`: nobody waits where there is room.
-/

namespace ManagementBus

open EnvelopeProperty

/-- Whether a call waits for room on a bus, with a lock. -/
def Call.holds (c : Call) (i : Nat) (lock : Lock) : Bool :=
  c.room?.isSome && (c.bus == i && c.kind.lock == lock)

/-- A call that does not wait for room holds no lock of senders. -/
theorem Call.holds_of_none {c : Call} (h : c.room? = none) (i : Nat) (lock : Lock) :
    c.holds i lock = false := by
  rw [holds, h]
  rfl

namespace Stack

variable {s t : Stack} {c : Call} {b : Bus} {e : Envelope} {r : Stack × Call} {i j : Nat}
  {lock taken : Lock}

/-- How often a lock is taken on a bus. -/
def held (s : Stack) (i : Nat) (lock : Lock) : Nat :=
  (s.sides[i]?.map fun side => side.1.count lock).getD 0

/-- The locks taken on a bus that there is. -/
theorem held_eq (hb : s.buses[i]? = some b) (lock : Lock) : s.held i lock = b.locks.count lock := by
  rw [held, sides, List.getElem?_map, hb]
  rfl

/-- Where the sides of the buses are the same, so are the locks. -/
theorem held_of_sides (h : t.sides = s.sides) (i : Nat) (lock : Lock) :
    t.held i lock = s.held i lock := by
  rw [held, held, h]

/-! ### Taking and giving back -/

/-- What a change of the locks of one bus does to how often one is taken. -/
theorem held_onBus {f : Bus → Bus} {g : Nat → Nat} (hb : s.buses[j]? = some b)
    (hf : (f b).locks.count lock = g (b.locks.count lock)) (i : Nat) :
    (s.onBus j f).held i lock = if j = i then g (s.held i lock) else s.held i lock := by
  by_cases hji : j = i
  · subst hji
    have hself := s.buses_onBus_self j f
    rw [hb] at hself
    rw [if_pos rfl, held_eq hself, held_eq hb, hf]
  · have hother := s.buses_onBus f hji
    rw [if_neg hji, held, held, sides, sides, List.getElem?_map, List.getElem?_map, hother]

/-- Taking a lock counts one more of it on that bus, and none on another. -/
theorem held_take (hb : s.buses[j]? = some b) (taken lock : Lock) (i : Nat) :
    (s.onBus j fun b => b.take taken).held i lock =
      s.held i lock + if (j == i && taken == lock) = true then 1 else 0 := by
  rw [held_onBus (g := fun n => n + if (taken == lock) = true then 1 else 0) hb]
  · by_cases hji : j = i <;> simp [hji]
  · rw [Bus.take, List.count_cons]

/-- Giving a lock back counts one less of it on that bus, and none less on another. -/
theorem held_release (s : Stack) (j : Nat) (taken lock : Lock) (i : Nat) :
    (s.onBus j fun b => b.release taken).held i lock =
      s.held i lock - if (j == i && taken == lock) = true then 1 else 0 := by
  cases hb : s.buses[j]? with
  | none =>
      have hbuses : (s.onBus j fun b => b.release taken).sides = s.sides := by
        rw [sides, onBus, List.modify_eq_self (List.getElem?_eq_none_iff.mp hb)]
        rfl
      by_cases hji : j = i
      · subst hji
        rw [held_of_sides hbuses, held, sides, List.getElem?_map, hb]
        exact (Nat.zero_sub _).symm
      · rw [held_of_sides hbuses]
        simp [hji]
  | some b =>
      rw [held_onBus (g := fun n => n - if (taken == lock) = true then 1 else 0) hb]
      · by_cases hji : j = i <;> simp [hji]
      · rw [Bus.release, List.count_erase]

/-- A look at a link takes no lock and gives none back. -/
theorem held_receive (s : Stack) (j i : Nat) (lock : Lock) :
    (s.receive j).1.held i lock = s.held i lock := by
  rw [held, held, sides_receive]
  cases s.readerAnswer? j with
  | none => rfl
  | some pair =>
      simp only [List.getElem?_modify]
      cases s.sides[i]? with
      | none => simp
      | some side => by_cases hji : j = i <;> simp [hji]

/-- A shutdown takes no lock and gives none back. -/
theorem held_stop (s : Stack) (i : Nat) (lock : Lock) : s.stop.held i lock = s.held i lock := by
  simp only [held, sides, stop, List.getElem?_map, Option.map_map]
  rfl

/-! ### Steps of a call -/

/-- What a call without a lock of senders leaves behind: the locks as they were, and one more just
if it waits for room now. -/
def TakesToWait (s : Stack) (r : Stack × Call) : Prop :=
  ∀ i lock, lock ≠ .read → r.1.held i lock = s.held i lock + if r.2.holds i lock then 1 else 0

/-- What a call leaves behind that may have a lock of senders. -/
def Balances (s : Stack) (c : Call) (r : Stack × Call) : Prop :=
  ∀ i lock, lock ≠ .read → (c.holds i lock = true → 0 < s.held i lock) →
    r.1.held i lock + (if c.holds i lock then 1 else 0) =
      s.held i lock + if r.2.holds i lock then 1 else 0

/-- A step takes a lock just to wait, also after changes that take none of senders. -/
theorem TakesToWait.of_held (h : TakesToWait t r)
    (hheld : ∀ i lock, lock ≠ .read → t.held i lock = s.held i lock) : TakesToWait s r := by
  intro i lock hlock
  rw [h i lock hlock, hheld i lock hlock]

/-- A step takes a lock just to wait, also after changes beside the locks. -/
theorem TakesToWait.of_sides (h : TakesToWait t r) (hsides : t.sides = s.sides) :
    TakesToWait s r :=
  h.of_held fun i lock _ => held_of_sides hsides i lock

/-- A step balances, also after changes beside the locks. -/
theorem Balances.of_sides (h : Balances t c r) (hsides : t.sides = s.sides) : Balances s c r := by
  intro i lock hlock hpos
  rw [← held_of_sides hsides] at hpos ⊢
  exact h i lock hlock hpos

/-- A step after which the call does not wait for room. -/
theorem takesToWait_of_none (hroom : r.2.room? = none)
    (hheld : ∀ i lock, lock ≠ .read → r.1.held i lock = s.held i lock) : TakesToWait s r := by
  intro i lock hlock
  rw [hheld i lock hlock, Call.holds_of_none hroom]
  rfl

/-- A step that does not wait for room and leaves the sides as they are. -/
theorem takesToWait_of_same (hroom : r.2.room? = none) (hsides : r.1.sides = s.sides) :
    TakesToWait s r :=
  takesToWait_of_none hroom fun i lock _ => held_of_sides hsides i lock

/-- A call that had no lock balances if it takes one just to wait. -/
theorem TakesToWait.balances (h : TakesToWait s r) (hroom : c.room? = none) : Balances s c r := by
  intro i lock hlock _
  rw [h i lock hlock, Call.holds_of_none hroom]
  rfl

/-- A call that does not move balances. -/
theorem balances_stay (s : Stack) (c : Call) : Balances s c (s, c) :=
  fun _ _ _ _ => rfl

/-- A call that has waited for room gives its lock back first. -/
theorem balances_of_release (hroom : c.room? = some e)
    (h : TakesToWait (s.onBus c.bus fun b => b.release c.kind.lock) r) : Balances s c r := by
  have hholds : ∀ i lock, c.holds i lock = (c.bus == i && c.kind.lock == lock) := by
    intro i lock
    rw [Call.holds, hroom]
    rfl
  intro i lock hlock hpos
  rw [h i lock hlock, held_release, ← hholds]
  split
  · next hheld =>
      have := hpos hheld
      omega
  · omega

/-- A call that ends takes no lock of senders. -/
theorem takesToWait_endCall (s : Stack) (c : Call) (outcome : Except Fault Message) :
    TakesToWait s (s.endCall c outcome) := by
  obtain ⟨es, hend⟩ := endCall_eq s c outcome
  rw [hend]
  exact takesToWait_of_same rfl rfl

/-- What a reader gives back when it ends is no lock of senders. -/
theorem takesToWait_leaveCall (s : Stack) (c : Call) (outcome : Except Fault Message) :
    TakesToWait s (s.leaveCall c outcome) := by
  rw [leaveCall]
  split
  · intro i lock hlock
    have hread : (c.bus == i && Lock.read == lock) = false := by
      rw [Bool.and_eq_false_iff]
      exact .inr (beq_eq_false_iff_ne.mpr hlock.symm)
    rw [takesToWait_endCall _ c outcome i lock hlock, held_release, hread]
    rfl
  · exact takesToWait_endCall s c outcome

/-- A call whose envelope is queued takes no lock of senders. -/
theorem takesToWait_callSent (s : Stack) (c : Call) (ticket : Nat) :
    TakesToWait s (s.callSent c ticket) := by
  rw [callSent]
  split
  · exact takesToWait_of_same rfl rfl
  · exact takesToWait_leaveCall s c _

/-- An offer to a queue leaves the sides of the buses alone. -/
theorem sides_enqueue (s : Stack) (i : Nat) (b : Bus) (e : Envelope) :
    (s.enqueue i b e).1.sides = s.sides :=
  sides_onBus_same fun _ => rfl

/-- The drawing of a number leaves the sides of the buses alone. -/
theorem sides_callEnvelope (s : Stack) (c : Call) (b : Bus) :
    (s.callEnvelope c b).1.sides = s.sides := by
  have hdraw : (s.drawRequest c.bus b c.msg).1.sides = s.sides := sides_onBus_same fun _ => rfl
  rw [callEnvelope]
  split
  · rfl
  · exact hdraw

/-- **A sender takes its lock in order to wait for room.** -/
theorem takesToWait_callQueue {d : Bus} (hb : s.buses[c.bus]? = some d) (b : Bus) (e : Envelope)
    (ticket : Nat) : TakesToWait s (s.callQueue c b e ticket) := by
  have hqueue := sides_enqueue s c.bus b e
  rw [callQueue]
  split
  · next t heq =>
      rw [heq] at hqueue
      exact (takesToWait_callSent t c ticket).of_sides hqueue
  · next t heq =>
      rw [heq] at hqueue
      exact (takesToWait_leaveCall t c _).of_sides hqueue
  · next t heq =>
      rw [heq] at hqueue
      have ht : ∃ d, t.buses[c.bus]? = some d := by
        have hself := s.buses_onBus_self c.bus fun b' =>
          { b' with outbound := (b.outbound.put e).1 }
        have ht : t = s.onBus c.bus fun b' => { b' with outbound := (b.outbound.put e).1 } :=
          (congrArg Prod.fst heq).symm
        rw [hb, ← ht] at hself
        exact ⟨_, hself⟩
      obtain ⟨d, hd⟩ := ht
      intro i lock _
      rw [held_take hd, held_of_sides hqueue]
      rfl

/-- A call that sends takes its lock when there is no room. -/
theorem takesToWait_callSend (s : Stack) (c : Call) (ticket : Nat) :
    TakesToWait s (s.callSend c ticket) := by
  rw [callSend]
  split
  · exact takesToWait_leaveCall s c _
  · next b hb =>
      split
      · exact takesToWait_of_same rfl rfl
      · obtain ⟨hext, -, -⟩ := extends_callEnvelope Nothing hb
        obtain ⟨d, hd, -⟩ := hext.toExtends.exists_bus hb
        exact (takesToWait_callQueue hd b _ ticket).of_sides (sides_callEnvelope s c b)

/-- A call that has waited for room gives its lock back, unless it waits on. -/
theorem balances_callRoom (hroom : c.room? = some e) (ticket : Nat) :
    Balances s c (s.callRoom c e ticket) := by
  rw [callRoom]
  split
  · exact balances_stay s c
  · next b hb =>
      have hqueue := sides_enqueue s c.bus b e
      split
      · next t heq =>
          rw [heq] at hqueue
          have hsent := takesToWait_callSent (t.onBus c.bus fun b => b.release c.kind.lock) c ticket
          exact (balances_of_release hroom hsent).of_sides hqueue
      · next t heq =>
          rw [heq] at hqueue
          have hleave := takesToWait_leaveCall (t.onBus c.bus fun b => b.release c.kind.lock) c
            (.error .queueClosed)
          exact (balances_of_release hroom hleave).of_sides hqueue
      · next t heq =>
          rw [heq] at hqueue
          exact (balances_stay t c).of_sides hqueue

/-- A reader takes a lock of senders when its request has to wait for room. -/
theorem takesToWait_callRead (hroom : c.room? = none) (ticket : Nat) :
    TakesToWait s (s.callRead c ticket) := by
  rw [callRead]
  split
  · exact takesToWait_of_same hroom rfl
  · next b hb =>
      have hsend := takesToWait_callSend
        ((s.onBus c.bus fun b' => { b'.take .read with responses := b.responses.purge.1 }).report
          (Event.purge .response b.responses.purge.2)) (c.asReader b.config.channel) ticket
      refine TakesToWait.of_held hsend fun i lock hlock => ?_
      have htake : (s.onBus c.bus fun b' =>
          { b'.take .read with responses := b.responses.purge.1 }).held i lock =
            s.held i lock := by
        rw [held_onBus (g := id) hb]
        · exact ite_self _
        · exact List.count_cons_of_ne hlock.symm
      exact htake

/-- A reader that waits for its response takes no lock of senders. -/
theorem takesToWait_callResponse (hroom : c.room? = none) : TakesToWait s (s.callResponse c) := by
  rw [callResponse]
  split
  · exact takesToWait_of_same hroom rfl
  · next b hb =>
      split
      · next responses response _ =>
          refine (takesToWait_leaveCall _ c _).of_held fun i lock _ => ?_
          rw [held_onBus (g := id) hb rfl]
          exact ite_self _
      · split
        · exact takesToWait_leaveCall s c _
        · exact takesToWait_of_same hroom rfl

/-- **What a call does to the locks of senders when it begins.** -/
theorem balances_beginCall (hroom : c.room? = none) (ticket : Nat) :
    Balances s c (s.beginCall c ticket) := by
  refine TakesToWait.balances ?_ hroom
  rw [beginCall]
  split
  · exact takesToWait_endCall s c _
  · split
    · exact takesToWait_callSend s c ticket
    · split
      · exact takesToWait_of_same rfl rfl
      · exact takesToWait_callRead hroom ticket

/-- **What a call does to the locks of senders when it goes on.** -/
theorem balances_resumeCall (s : Stack) (c : Call) (ticket : Nat) :
    Balances s c (s.resumeCall c ticket) := by
  rw [resumeCall]
  split
  · exact balances_stay s c
  · next w hw =>
      obtain ⟨obstacle, number, deadline⟩ := w
      cases obstacle with
      | readLock =>
          have hroom : c.room? = none := by rw [Call.room?, hw]
          exact (takesToWait_callRead hroom ticket).balances hroom
      | sendLock =>
          have hroom : c.room? = none := by rw [Call.room?, hw]
          exact (takesToWait_callSend s c ticket).balances hroom
      | room e => exact balances_callRoom (by rw [Call.room?, hw]) ticket
      | response =>
          have hroom : c.room? = none := by rw [Call.room?, hw]
          exact (takesToWait_callResponse hroom).balances hroom

/-- **What a call does to the locks of senders when it gives up.** -/
theorem balances_abandonCall (s : Stack) (c : Call) : Balances s c (s.abandonCall c) := by
  rw [abandonCall]
  split
  · exact balances_stay s c
  · next w hw =>
      obtain ⟨obstacle, number, deadline⟩ := w
      cases obstacle with
      | readLock =>
          have hroom : c.room? = none := by rw [Call.room?, hw]
          have hend := takesToWait_endCall (s.emit (.lockTimedOut c.bus .read)) c
            (.error .lockTimeout)
          exact TakesToWait.balances (s := s) (hend.of_sides rfl) hroom
      | sendLock =>
          have hroom : c.room? = none := by rw [Call.room?, hw]
          have hleave := takesToWait_leaveCall (s.emit (.lockTimedOut c.bus c.kind.lock)) c
            (.error .lockTimeout)
          exact TakesToWait.balances (s := s) (hleave.of_sides rfl) hroom
      | room e =>
          exact balances_of_release (by rw [Call.room?, hw]) (takesToWait_leaveCall _ c _)
      | response =>
          have hroom : c.room? = none := by rw [Call.room?, hw]
          exact (takesToWait_leaveCall s c _).balances hroom

/-- A step of a call with a journal of its own. -/
theorem balances_aside {step : Stack → Stack × Call} (h : ∀ t, Balances t c (step t)) :
    Balances s c (s.aside step) := by
  intro i lock hlock hpos
  exact h { s with journal := [] } i lock hlock hpos

end Stack

namespace Scheduler

open Stack

variable {s : Scheduler} {a : Action} {k : Nat} {c : Call}

/-- **A lock of senders is taken as often as there are calls that wait for room with it.** -/
def HoldsForRoom (s : Scheduler) : Prop :=
  ∀ i lock, lock ≠ .read → s.stack.held i lock = s.calls.countP (·.holds i lock)

/-- A call that has a lock is counted. -/
theorem HoldsForRoom.held_pos (h : s.HoldsForRoom) (hc : c ∈ s.calls) {i : Nat} {lock : Lock}
    (hlock : lock ≠ .read) (hholds : c.holds i lock = true) : 0 < s.stack.held i lock := by
  rw [h i lock hlock]
  exact List.countP_pos_iff.mpr ⟨c, hc, hholds⟩

/-- A step of a call that has begun. -/
theorem HoldsForRoom.stepCall (h : s.HoldsForRoom) (k : Nat)
    {step : Stack → Call → Stack × Call} (hstep : ∀ t c, Balances t c (step t c)) :
    (s.stepCall k step).HoldsForRoom := by
  rcases stepCall_cases s k step with ⟨-, hstay⟩ | ⟨c, hc, hafter⟩
  · rw [hstay]
    exact h
  · intro i lock hlock
    have hcount := countP_set_add (·.holds i lock) (s.stack.aside fun t => step t c).2 hc
    have hbalance := balances_aside (s := s.stack) (hstep · c) i lock hlock
      (h.held_pos (List.mem_of_getElem? hc) hlock)
    have hheld := h i lock hlock
    rw [hafter]
    simp only at hcount hbalance hheld ⊢
    omega

/-- **An action keeps it** that locks of senders are taken for room. -/
theorem HoldsForRoom.perform (h : s.HoldsForRoom) (a : Action) : (s.perform a).HoldsForRoom := by
  have hworks : ∀ {t : Scheduler}, t.calls = s.calls →
      (∀ i lock, t.stack.held i lock = s.stack.held i lock) → t.HoldsForRoom := by
    intro t hcalls hheld i lock hlock
    rw [hcalls, hheld]
    exact h i lock hlock
  cases a with
  | begin kind bus m =>
      intro i lock hlock
      have hroom : (Call.new kind bus m).room? = none := rfl
      have hbalance := balances_aside (s := s.stack)
        (fun t => balances_beginCall (s := t) hroom s.tickets) i lock hlock
      rw [Call.holds_of_none hroom] at hbalance
      have hheld := h i lock hlock
      have hcount : (s.perform (.begin kind bus m)).calls.countP (·.holds i lock) =
          s.calls.countP (·.holds i lock) +
            if (s.newCall kind bus m).2.holds i lock then 1 else 0 := by
        simp only [Scheduler.perform, List.countP_append, List.countP_singleton]
      rw [hcount, ← hheld]
      exact hbalance (fun hfalse => by cases hfalse)
  | resume k =>
      rw [Scheduler.perform]
      split
      · exact h.stepCall k fun t c => balances_resumeCall t c s.tickets
      · exact h
  | abandon k =>
      rw [Scheduler.perform]
      split
      · exact h.stepCall k balances_abandonCall
      · exact h
  | transmitBegin i => exact hworks rfl (held_of_sides (sides_transmitBegin s.stack i))
  | transmitEnd i =>
      exact hworks rfl (held_of_sides (sides_of_finishes (finishes_transmitEnd s.stack i)))
  | finish i =>
      exact hworks rfl (held_of_sides (sides_of_finishes (finishes_finishInHand s.stack i)))
  | receive i => exact hworks rfl (held_receive s.stack i)
  | relink i link => exact hworks rfl (held_of_sides (sides_onBus_same fun _ => rfl))
  | submitFromHost m => exact hworks rfl (held_of_sides (queues_submitFromHost s.stack m).sides)
  | notify m => exact hworks rfl (held_of_sides (queues_notify Nothing s.stack m).sides)
  | dispatch handler => exact hworks rfl (held_of_sides (sides_dispatchUpTo s.stack handler))
  | sweep => exact hworks rfl (held_of_sides (sides_sweep s.stack))
  | advance ms => exact hworks rfl (held_of_sides rfl)
  | stop => exact hworks rfl (held_stop s.stack)

/-- **Who has a lock of senders, in every run**: the calls that wait for room with it. -/
theorem holdsForRoom_after {setup : Setup} {stack : Stack} (hbuild : setup.build = .ok stack)
    (as : List Action) : ((atRest stack).after as).HoldsForRoom := by
  refine after_induction ?_ fun _ a _ h => h.perform a
  intro i lock _
  cases hb : stack.buses[i]? with
  | none =>
      rw [atRest, held, sides, List.getElem?_map, hb]
      rfl
  | some b =>
      obtain ⟨config, link, rfl⟩ := Setup.exists_new_of_build hbuild hb
      exact held_eq hb lock

/-! ### Where nobody waits -/

/-- Where no call can go on, the obstacle of each is still in its way. -/
theorem not_isReady_of_progress (hrest : s.progress = none) (hc : c ∈ s.calls) :
    s.stack.isReady c = false := by
  refine eq_false_of_ne_true fun hready => ?_
  obtain ⟨k, hk⟩ := Option.isSome_iff_exists.mp (isSome_longestWaiting hc hready)
  rw [progress, hk] at hrest
  cases hrest

/-- A call that waits for room on a bus that is closed or has room can go on. -/
theorem isReady_of_room {b : Bus} {e : Envelope} (hb : s.stack.buses[c.bus]? = some b)
    (hroom : b.outbound.closed = true ∨ b.outbound.items.length < b.outbound.capacity)
    (he : c.room? = some e) : s.stack.isReady c = true := by
  have hfree : (b.outbound.closed || !b.outbound.isFull) = true := by
    rw [Bool.or_eq_true]
    exact hroom.imp_right fun hlt => by simpa [Queue.isFull] using hlt
  cases hw : c.wait? with
  | none => simp [Call.room?, hw] at he
  | some w =>
      obtain ⟨obstacle, number, deadline⟩ := w
      cases obstacle with
      | room e => simp only [isReady, hw, hb, hfree]
      | readLock | sendLock | response => simp [Call.room?, hw] at he

/-- **Nobody waits where there is room.** In a state of a run where no call can go on, and every
queue is closed or has room, the locks of the senders are free. -/
theorem isSettled_of_progress (h : s.HoldsForRoom) (hrest : s.progress = none)
    (hroom : ∀ b ∈ s.stack.buses,
      b.outbound.closed = true ∨ b.outbound.items.length < b.outbound.capacity) :
    s.stack.IsSettled := by
  intro b hb
  obtain ⟨i, hi⟩ := List.getElem?_of_mem hb
  have hfree : ∀ lock, lock ≠ .read → b.isLocked lock = false := by
    intro lock hlock
    have hnobody : ∀ c ∈ s.calls, ¬c.holds i lock = true := by
      intro c hc hholds
      rw [Call.holds, Bool.and_eq_true, Bool.and_eq_true, beq_iff_eq] at hholds
      obtain ⟨hsome, rfl, -⟩ := hholds
      obtain ⟨e, he⟩ := Option.isSome_iff_exists.mp hsome
      have hready := isReady_of_room hi (hroom b hb) he
      rw [not_isReady_of_progress hrest hc] at hready
      cases hready
    have hcount := h i lock hlock
    rw [List.countP_eq_zero.mpr hnobody, held_eq hi, List.count_eq_zero] at hcount
    simpa [Bus.isLocked] using hcount
  exact ⟨hfree _ (by decide), hfree _ (by decide), hroom b hb⟩

end Scheduler

end ManagementBus
