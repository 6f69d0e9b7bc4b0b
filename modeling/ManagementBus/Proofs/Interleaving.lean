import ManagementBus.Scheduler.Calls
import ManagementBus.Stack.Build

/-!
# Interleavings

A `Scheduler` takes the steps of its workers and of its callers in one particular order. This
module admits every order: an `Action` is one step of a worker, of a caller or of the world
outside, `Scheduler.perform` takes it, and `Scheduler.after` takes a list of them. An action that
cannot happen in a state leaves the state as it is, so every list of actions is a run, and what
holds of all runs holds of whatever threads the stack is driven by.

A wait with a deadline may end at any time, which only adds runs. Two things are left out. A
foreground send, by a receive worker, by the dispatcher or for the host, that would have to wait for
room fails at once with a timeout (`Put.outcome`): the runs in which it waits and goes on are not
among the runs here, and what holds of all runs holds of a real stack in which those sends find
room. And `receive`, `dispatch`, `submitFromHost` and `sweep` are one step each, so that nothing
happens in the middle of them; a write has two halves, and a caller stops wherever it waits.

## Main results

* `after_append`, `after_concat`: a run is taken step by step.
* `after_induction`: what every step keeps holds in all states of a run.
* `exists_after_settle`: the order in which a scheduler settles its calls is one of the orders.
-/

namespace ManagementBus

/-- A step that a stack with callers may take. -/
inductive Action where
  /-- A caller begins a call. -/
  | begin (kind : CallKind) (bus : Nat) (m : Message)
  /-- A call whose obstacle is out of the way goes on. -/
  | resume (call : Nat)
  /-- A call that waits with a deadline gives up. -/
  | abandon (call : Nat)
  | transmitBegin (bus : Nat)
  | transmitEnd (bus : Nat)
  | receive (bus : Nat)
  /-- Anything happens to the link of a bus: its peer writes or reads, frames appear there, writes
  begin or cease to fail. -/
  | relink (bus : Nat) (link : Link)
  | submitFromHost (m : Message)
  | notify (m : Message)
  /-- The dispatcher serves the oldest request that waits for it. -/
  | dispatch (handler : Handler)
  | sweep
  | advance (ms : UInt32)
  /-- The stack is shut down. -/
  | stop
  /-- After that, the write that has begun on a bus is finished. -/
  | finish (bus : Nat)

namespace Scheduler

/-- A change of the stack that does not involve the callers. -/
def onStack (s : Scheduler) (f : Stack → Stack) : Scheduler :=
  { s with stack := f s.stack }

/-- The call that a caller begins, with the stack afterwards. -/
def newCall (s : Scheduler) (kind : CallKind) (bus : Nat) (m : Message) : Stack × Call :=
  s.stack.aside fun stack => stack.beginCall (Call.new kind bus m) s.tickets

/-- Takes a step, if it can happen. -/
def perform (s : Scheduler) : Action → Scheduler
  | .begin kind bus m =>
    { s with
      stack := (s.newCall kind bus m).1
      calls := s.calls ++ [(s.newCall kind bus m).2]
      tickets := s.tickets + 1 }
  | .resume k =>
    if s.calls[k]?.any s.stack.isReady then
      s.stepCall k fun stack c => stack.resumeCall c s.tickets
    else s
  | .abandon k =>
    if s.calls[k]?.any fun c => c.deadline?.isSome then s.stepCall k Stack.abandonCall else s
  | .transmitBegin i => s.onStack fun stack => (stack.transmitBegin i).1
  | .transmitEnd i => s.onStack fun stack => (stack.transmitEnd i).1
  | .receive i => s.onStack fun stack => (stack.receive i).1
  | .relink i link => s.onStack fun stack => stack.onBus i fun b => { b with link }
  | .submitFromHost m => s.onStack fun stack => (stack.submitFromHost m).1
  | .notify m => s.onStack fun stack => (stack.notify m).1
  | .dispatch handler => s.onStack fun stack => (stack.dispatchUpTo handler 1).1
  | .sweep => s.onStack fun stack => stack.sweep.1
  | .advance ms => s.onStack fun stack => stack.advance ms
  | .stop => s.onStack Stack.stop
  | .finish i => s.onStack fun stack => if stack.stopped then stack.finishInHand i else stack

/-- The state after some steps, taken one by one. -/
def after (s : Scheduler) (as : List Action) : Scheduler :=
  as.foldl perform s

/-- A stack at rest, with no callers yet. -/
def atRest (stack : Stack) : Scheduler := { stack }

/-- The empty run. -/
@[simp] theorem after_nil (s : Scheduler) : s.after [] = s := rfl

/-- A run takes its first step first. -/
@[simp] theorem after_cons (s : Scheduler) (a : Action) (as : List Action) :
    s.after (a :: as) = (s.perform a).after as := rfl

/-- A run may be taken in two parts. -/
theorem after_append (s : Scheduler) (as bs : List Action) :
    s.after (as ++ bs) = (s.after as).after bs :=
  List.foldl_append

/-- The last step of a run is taken in the state that the others have led to. -/
theorem after_concat (s : Scheduler) (as : List Action) (a : Action) :
    s.after (as ++ [a]) = (s.after as).perform a :=
  after_append s as [a]

/-- A property that holds at first and is kept by every step of a run holds in all its states. -/
theorem after_induction {P : Scheduler → Prop} {s : Scheduler} {as : List Action} (hs : P s)
    (hstep : ∀ t, ∀ a ∈ as, P t → P (t.perform a)) : P (s.after as) := by
  induction as generalizing s with
  | nil => exact hs
  | cons a as ih =>
      refine ih (hstep s a List.mem_cons_self hs) ?_
      intro t b hb ht
      exact hstep t b (List.mem_cons_of_mem a hb) ht

/-! ### Settling is one of the orders -/

/-- Whatever call goes on or gives up, it is a step of a run. -/
theorem exists_perform_of_progress {s t : Scheduler} (h : s.progress = some t) :
    ∃ a, t = s.perform a := by
  unfold progress at h
  split at h
  · next k hk =>
      obtain ⟨c, hc, hready⟩ := longestWaiting_some hk
      refine ⟨.resume k, ?_⟩
      simp only [Option.some.injEq] at h
      simp [perform, hc, hready, ← h]
  · obtain ⟨k, hk, rfl⟩ := Option.map_eq_some_iff.mp h
    obtain ⟨c, hc, hexpired⟩ := longestWaiting_some hk
    have hdeadline : c.deadline?.isSome = true := by
      unfold isExpired at hexpired
      split at hexpired
      · simp only [Bool.and_eq_true, decide_eq_true_eq] at hexpired
        rw [hexpired.2, Option.isSome_some]
      · simp at hexpired
    exact ⟨.abandon k, by simp [perform, hc, hdeadline]⟩

/-- The order in which a scheduler lets its calls go on is one of the orders. -/
theorem exists_after_settle (s : Scheduler) : ∃ as, s.settle = s.after as := by
  suffices h : ∀ n (s : Scheduler), ∃ as, settleWithin n s = s.after as from h _ s
  intro n
  induction n with
  | zero => exact fun s => ⟨[], rfl⟩
  | succ n ih =>
      intro s
      rw [settleWithin]
      split
      · next t ht =>
          obtain ⟨a, rfl⟩ := exists_perform_of_progress ht
          obtain ⟨as, has⟩ := ih (s.perform a)
          exact ⟨a :: as, has⟩
      · exact ⟨[], rfl⟩

end Scheduler

end ManagementBus
