import Mathlib.Data.List.DropRight
import ManagementBus.Proofs.Dispatching
import ManagementBus.Proofs.Queueing
import ManagementBus.Proofs.Returning

/-!
# Requests are handed over, the newest for certain

A call that hands a request over to the dispatcher offers it to the queue; where it comes back, the
call asks whether the queue is closed, and if not purges the queue and offers the request again, for
as long as it takes. This loop is written down here step by step, since other callers, the
dispatcher and a shutdown may act between any two of its steps.

On its own a call comes to an end within five steps, because a queue has room once it has been
purged, and leaves what `Stack.notify` leaves in one. With others beside it, every request that
has gone in is accounted for: beside the queue stand the list of the requests that have gone in,
each with its call, and the list of those that have left, each with what it left by. What has gone
in is what has left and then what waits, in one order, so the fate of a request is found at its
place.

## Main results

* `handOver_eq_notify`: where the loop ends, and that it does.
* `notifyEach_of_new`: what is kept of requests handed over one after another.
* `Accounts.run`: the account of the requests in any interleaving.
* `Accounts.fate`: what has become of a request.
* `done_after_five`: a single caller is done after five steps of its own, whatever is taken
  meanwhile.
* `requests_keep_newest`: what the queue of requests guarantees.
-/

namespace ManagementBus

/-- How far a call has come that hands a request over. -/
inductive Handover where
  /-- The request is about to be offered. -/
  | offering (m : Message)
  /-- It has come back, and the call is about to ask whether the queue is closed. -/
  | refused (m : Message)
  /-- The queue was open, and the call is about to purge it. -/
  | crowded (m : Message)
  | done (outcome : Except Fault Unit)
deriving DecidableEq

namespace Stack

variable {s t : Stack} {m : Message} {call : Handover}

/-! ### The loop -/

/-- One step of a call that hands a request over. -/
def pursue (s : Stack) : Handover → Stack × Handover
  | .offering m =>
    match s.requests.tryPut m with
    | (requests, none) => ({ s with requests }, .done (.ok ()))
    | (requests, some m) => ({ s with requests }, .refused m)
  | .refused m =>
    if s.requests.closed then (s, .done (.error .queueClosed)) else (s, .crowded m)
  | .crowded m =>
    let (requests, dropped) := s.requests.purge
    (({ s with requests }).report (Event.purge .request dropped), .offering m)
  | .done outcome => (s, .done outcome)

/-- A call on its own, some steps later. -/
def handOver (s : Stack) (call : Handover) : Nat → Stack × Handover
  | 0 => (s, call)
  | n + 1 => (s.pursue call).1.handOver (s.pursue call).2 n

/-- A request goes in if the queue is open and has room, and comes back otherwise. -/
theorem pursue_offering (s : Stack) (m : Message) :
    s.pursue (.offering m) =
      if s.requests.closed = false ∧ s.requests.items.length < s.requests.capacity then
        (s.withRequests (s.requests.items ++ [m]), .done (.ok ()))
      else (s, .refused m) := by
  split
  · next hroom =>
      simp only [pursue, Queue.tryPut_eq, Queue.put_of_room m hroom.1 hroom.2, if_true]
      rfl
  · next hno =>
      have hrefused : (s.requests.put m).2 ≠ .accepted := fun h =>
        hno (Queue.put_accepted_iff.mp h)
      rcases s.requests.put_cases m with ⟨haccepted, -⟩ | ⟨-, hsame⟩
      · exact absurd haccepted hrefused
      · simp only [pursue, Queue.tryPut_eq, if_neg hrefused, hsame]

/-- Where the queue is open and has room, the request goes in and the call is done. -/
theorem pursue_offering_of_room (hopen : s.requests.closed = false)
    (hroom : s.requests.items.length < s.requests.capacity) :
    s.pursue (.offering m) = (s.withRequests (s.requests.items ++ [m]), .done (.ok ())) := by
  rw [pursue_offering, if_pos ⟨hopen, hroom⟩]

/-- A closed queue gives the request back. -/
theorem pursue_offering_of_closed (hclosed : s.requests.closed = true) :
    s.pursue (.offering m) = (s, .refused m) := by
  rw [pursue_offering, if_neg fun h => ne_true_of_eq_false h.1 hclosed]

/-- A full queue gives the request back. -/
theorem pursue_offering_of_full (hfull : s.requests.capacity ≤ s.requests.items.length) :
    s.pursue (.offering m) = (s, .refused m) := by
  rw [pursue_offering, if_neg fun h => Nat.not_lt.mpr hfull h.2]

/-- If the queue is closed, the call fails. -/
theorem pursue_refused_of_closed (hclosed : s.requests.closed = true) :
    s.pursue (.refused m) = (s, .done (.error .queueClosed)) :=
  if_pos hclosed

/-- If the queue is open, it must be full, and is to be purged. -/
theorem pursue_refused_of_open (hopen : s.requests.closed = false) :
    s.pursue (.refused m) = (s, .crowded m) :=
  if_neg (ne_true_of_eq_false hopen)

/-- A purge empties the queue, and the request is offered again. -/
theorem pursue_crowded (s : Stack) (m : Message) :
    s.pursue (.crowded m) =
      ((s.withRequests []).report (Event.purge .request s.requests.items.length),
        .offering m) := rfl

/-- A call that is done stays as it is. -/
@[simp] theorem handOver_done (s : Stack) (outcome : Except Fault Unit) (n : Nat) :
    s.handOver (.done outcome) n = (s, .done outcome) := by
  induction n with
  | zero => rfl
  | succ n ih => exact ih

/-- **A closed queue refuses every request**, and nothing changes. -/
theorem handOver_of_closed (hclosed : s.requests.closed = true) (m : Message) (n : Nat) :
    s.notify m = (s, .error .queueClosed) ∧
      s.handOver (.offering m) (n + 2) = (s, .done (.error .queueClosed)) := by
  constructor
  · simp only [notify, Queue.put_of_closed hclosed]
  · rw [handOver, pursue_offering_of_closed hclosed, handOver, pursue_refused_of_closed hclosed,
      handOver_done]

/-- **The loop ends within five steps**, and where `notify` does. -/
theorem handOver_eq_notify (hcapacity : 0 < s.requests.capacity) (m : Message) (n : Nat) :
    s.handOver (.offering m) (n + 5) = ((s.notify m).1, .done (s.notify m).2) := by
  cases hclosed : s.requests.closed with
  | true =>
      obtain ⟨hnotify, hloop⟩ := handOver_of_closed hclosed m (n + 3)
      rw [hnotify]
      exact hloop
  | false =>
      by_cases hroom : s.requests.items.length < s.requests.capacity
      · rw [handOver, pursue_offering_of_room hclosed hroom, handOver_done]
        simp only [notify, Queue.put_of_room m hclosed hroom]
        rfl
      · -- The request comes back, the queue is open and is purged, and then it has room.
        have hfull := Nat.le_of_not_lt hroom
        have hput : s.requests.put m = (s.requests, .full) := by
          simp [Queue.put, hclosed, Queue.isFull, hfull]
        have hpurged := Queue.put_of_room (q := s.requests.purge.1) m hclosed hcapacity
        have hagain : ((s.withRequests []).report
            (Event.purge .request s.requests.items.length)).pursue (.offering m) =
              (((s.withRequests []).report
                (Event.purge .request s.requests.items.length)).withRequests [m],
                .done (.ok ())) :=
          pursue_offering_of_room hclosed hcapacity
        rw [handOver, pursue_offering_of_full hfull, handOver, pursue_refused_of_open hclosed,
          handOver, pursue_crowded, handOver, hagain, handOver_done]
        simp only [notify, hput, hpurged]
        rfl

/-! ### One request after another -/

/-- Hands requests over one after another. -/
def notifyEach (s : Stack) : List Message → Stack × List (Except Fault Unit)
  | [] => (s, [])
  | m :: ms =>
    let (s, outcome) := s.notify m
    let (s, outcomes) := s.notifyEach ms
    (s, outcome :: outcomes)

/-- The last request is handed over to the queue that the others leave. -/
theorem notifyEach_concat (s : Stack) (ms : List Message) (m : Message) :
    s.notifyEach (ms ++ [m]) =
      (((s.notifyEach ms).1.notify m).1,
        (s.notifyEach ms).2 ++ [((s.notifyEach ms).1.notify m).2]) := by
  induction ms generalizing s with
  | nil => rfl
  | cons first ms ih =>
      simp only [List.cons_append, notifyEach, ih]

/-- Of `n` requests a queue keeps the last, and those before it back to the last purge. -/
theorem purged_rtake {α : Type} {capacity : Nat} (hcapacity : 0 < capacity) (xs : List α) :
    (if capacity ≤ (xs.rtake ((xs.length - 1) % capacity + 1)).length then []
      else xs.rtake ((xs.length - 1) % capacity + 1)) = xs.rtake (xs.length % capacity) := by
  cases hn : xs.length with
  | zero =>
      obtain rfl := List.eq_nil_of_length_eq_zero hn
      simp
  | succ k =>
      have hlt := Nat.mod_lt k hcapacity
      have hle := Nat.mod_le k capacity
      have hlength : (xs.rtake (k % capacity + 1)).length = k % capacity + 1 := by
        rw [List.rtake, List.length_drop, hn]
        omega
      have hmod : (k + 1) % capacity = (k % capacity + 1) % capacity := (Nat.mod_add_mod k _ 1).symm
      rw [Nat.add_sub_cancel, hlength, hmod]
      by_cases hfull : capacity ≤ k % capacity + 1
      · have hsame : k % capacity + 1 = capacity := by omega
        rw [if_pos hfull, hsame, Nat.mod_self, List.rtake_zero]
      · rw [if_neg hfull, Nat.mod_eq_of_lt (Nat.lt_of_not_le hfull)]

/-- The next request goes behind those that have been kept so far, or takes their place. -/
theorem notify_withRequests (hopen : s.requests.closed = false)
    (hcapacity : 0 < s.requests.capacity) (kept : List Message) (es : List Event) (m : Message) :
    ∃ later, ((s.withRequests kept).report es).notify m =
      ((s.withRequests ((if s.requests.capacity ≤ kept.length then [] else kept) ++ [m])).report
        (es ++ later), .ok ()) := by
  obtain ⟨later, hnotify⟩ :=
    notify_of_open (s := (s.withRequests kept).report es) m hopen hcapacity
  have hfull : ((s.withRequests kept).report es).requests.isFull =
      decide (s.requests.capacity ≤ kept.length) := rfl
  refine ⟨later, ?_⟩
  rw [hnotify, hfull, ← report_report]
  simp only [decide_eq_true_eq]
  rfl

/-- **Of requests handed over one after another the newest are kept**, and all calls succeed. -/
theorem notifyEach_of_new {capacity : Nat} (hnew : s.requests = .new capacity)
    (ms : List Message) :
    ∃ es, s.notifyEach ms =
      ((s.withRequests (ms.rtake ((ms.length - 1) % max capacity 1 + 1))).report es,
        List.replicate ms.length (.ok ())) := by
  have hopen : s.requests.closed = false := by rw [hnew]; rfl
  have hcapacity : s.requests.capacity = max capacity 1 := by rw [hnew]; rfl
  have hpos : 0 < max capacity 1 := Nat.lt_of_lt_of_le Nat.one_pos (Nat.le_max_right _ _)
  induction ms using List.reverseRecOn with
  | nil =>
      have hempty : s.withRequests [] = s := by
        have hitems : s.requests.items = [] := by rw [hnew]; rfl
        rw [withRequests, ← hitems]
      refine ⟨[], ?_⟩
      rw [List.rtake_nil, hempty, report, List.append_nil]
      rfl
  | append_singleton ms m ih =>
      obtain ⟨es, hbefore⟩ := ih
      obtain ⟨later, hnotify⟩ := notify_withRequests hopen (hcapacity ▸ hpos)
        (ms.rtake ((ms.length - 1) % max capacity 1 + 1)) es m
      rw [hcapacity, purged_rtake hpos] at hnotify
      refine ⟨es ++ later, ?_⟩
      rw [notifyEach_concat, hbefore, hnotify, List.length_append, List.length_singleton,
        Nat.add_sub_cancel, List.rtake_concat_succ, List.replicate_succ']

/-- No step of a call changes the capacity of the queue. -/
theorem capacity_pursue (s : Stack) (call : Handover) :
    (s.pursue call).1.requests.capacity = s.requests.capacity := by
  cases call with
  | offering m =>
      rw [pursue_offering]
      split <;> rfl
  | refused m =>
      rw [pursue]
      split <;> rfl
  | crowded m | done outcome => rfl

/-! ### Steps left -/

/-- How many steps of its own a call takes at most, if nobody else hands requests over. -/
def stepsLeft (s : Stack) : Handover → Nat
  | .offering _ =>
    if s.requests.closed ∨ s.requests.items.length < s.requests.capacity then 2 else 5
  | .refused _ => if s.requests.closed then 1 else 4
  | .crowded _ => 3
  | .done _ => 0

/-- No call has more than five steps of its own left. -/
theorem stepsLeft_le (s : Stack) (call : Handover) : s.stepsLeft call ≤ 5 := by
  cases call with
  | offering m =>
      rw [stepsLeft]
      split <;> omega
  | refused m =>
      rw [stepsLeft]
      split <;> omega
  | crowded m => exact Nat.le_add_right 3 2
  | done outcome => exact Nat.zero_le 5

/-- A call that has no step left is done. -/
theorem exists_done_of_stepsLeft {call : Handover} (h : s.stepsLeft call = 0) :
    ∃ outcome, call = .done outcome := by
  cases call with
  | offering m =>
      rw [stepsLeft] at h
      split at h <;> omega
  | refused m =>
      rw [stepsLeft] at h
      split at h <;> omega
  | crowded m => cases h
  | done outcome => exact ⟨outcome, rfl⟩

/-- **A step brings a call closer to its end.** -/
theorem stepsLeft_pursue (hcapacity : 0 < s.requests.capacity) (call : Handover) :
    (s.pursue call).1.stepsLeft (s.pursue call).2 ≤ s.stepsLeft call - 1 := by
  cases call with
  | offering m =>
      rw [pursue_offering]
      split
      · exact Nat.zero_le _
      · next hno =>
          cases hclosed : s.requests.closed with
          | true => simp [stepsLeft, hclosed]
          | false =>
              have hfull : ¬s.requests.items.length < s.requests.capacity := fun h =>
                hno ⟨hclosed, h⟩
              simp [stepsLeft, hclosed, hfull]
  | refused m =>
      cases hclosed : s.requests.closed with
      | true =>
          rw [pursue_refused_of_closed hclosed]
          exact Nat.zero_le _
      | false =>
          rw [pursue_refused_of_open hclosed, stepsLeft, stepsLeft,
            if_neg (ne_true_of_eq_false hclosed)]
  | crowded m =>
      -- A queue that has been purged has room.
      rw [pursue_crowded, stepsLeft]
      exact Nat.le_of_eq (if_pos (.inr hcapacity))
  | done outcome => exact Nat.zero_le _

/-- A queue that has more room, or has been closed, holds no call up. -/
theorem stepsLeft_mono (hcapacity : t.requests.capacity = s.requests.capacity)
    (hlength : t.requests.items.length ≤ s.requests.items.length)
    (hclosed : s.requests.closed = true → t.requests.closed = true) (call : Handover) :
    t.stepsLeft call ≤ s.stepsLeft call := by
  cases call with
  | offering m =>
      simp only [stepsLeft]
      split
      · split <;> omega
      · next hno =>
          have hno' : ¬(s.requests.closed = true ∨
              s.requests.items.length < s.requests.capacity) := by
            rintro (h | h)
            · exact hno (.inl (hclosed h))
            · exact hno (.inr (by omega))
          rw [if_neg hno']
  | refused m =>
      simp only [stepsLeft]
      split
      · split <;> omega
      · next hno => rw [if_neg fun h => hno (hclosed h)]
  | crowded m | done outcome => exact Nat.le_refl _

end Stack

/-! ### Many calls -/

/-- What a request has left the queue by. -/
inductive Departure where
  /-- The dispatcher has received it. -/
  | received
  /-- A call has purged the queue. -/
  | purgedBy (call : Nat)
deriving DecidableEq

/-- A call with the request that it is to hand over. -/
structure Caller where
  request : Message
  call : Handover
deriving DecidableEq

/-- The call is about the request. -/
def Caller.IsSound (c : Caller) : Prop :=
  match c.call with
  | .offering m | .refused m | .crowded m => m = c.request
  | .done _ => True

/-- What may happen while requests are handed over. -/
inductive Move where
  /-- Another call begins. -/
  | begin (m : Message)
  /-- A call takes its next step. -/
  | step (k : Nat)
  /-- The dispatcher takes a request, if one waits. -/
  | take
  /-- The stack is shut down. -/
  | stop
deriving DecidableEq

/-- A stack with the calls that hand requests over to it, and a record of the requests. -/
structure Desk where
  stack : Stack
  /-- The calls, in the order in which they began. -/
  callers : List Caller := []
  /-- The requests that have gone in, in that order, each with the number of its call. -/
  entered : List (Nat × Message) := []
  /-- The requests that have left, in that order, each with what it left by. -/
  departed : List (Message × Departure) := []

namespace Desk

open Stack

variable {d : Desk} {k : Nat} {m : Message} {c : Caller} {call : Handover}

/-- The request that goes in with the next step of a call. -/
def entering (s : Stack) : Handover → List Message
  | .offering m => s.requests.takesIn (.tryPut m)
  | .refused _ | .crowded _ | .done _ => []

/-- The requests that are discarded with the next step of a call. -/
def purging (s : Stack) : Handover → List Message
  | .crowded _ => s.requests.givesUp .purge
  | .offering _ | .refused _ | .done _ => []

/-- The desk after the next step of a call. -/
def step (d : Desk) (k : Nat) (c : Caller) : Desk where
  stack := (d.stack.pursue c.call).1
  callers := d.callers.set k { c with call := (d.stack.pursue c.call).2 }
  entered := d.entered ++ (entering d.stack c.call).map (k, ·)
  departed := d.departed ++ (purging d.stack c.call).map (·, .purgedBy k)

/-- The desk after a move. -/
def perform (d : Desk) : Move → Desk
  | .begin m => { d with callers := d.callers ++ [⟨m, .offering m⟩] }
  | .step k =>
    match d.callers[k]? with
    | none => d
    | some c => d.step k c
  | .take =>
    { d with
      stack := d.stack.takeRequest.1
      departed := d.departed ++ d.stack.takeRequest.2.toList.map (·, .received) }
  | .stop => { d with stack := d.stack.stop }

/-- The desk after some moves. -/
def run (d : Desk) (moves : List Move) : Desk :=
  moves.foldl perform d

/-- The requests that the dispatcher has received, in that order. -/
def received (d : Desk) : List Message :=
  (d.departed.filter fun e => e.2 = .received).map Prod.fst

/-- What goes in with an offer. -/
theorem entering_offering (s : Stack) (m : Message) :
    entering s (.offering m) =
      if s.requests.closed = false ∧ s.requests.items.length < s.requests.capacity then [m]
      else [] := by
  rw [entering, Queue.takesIn]
  exact if_congr (Option.isNone_iff_eq_none.trans Queue.tryPut_accepted_iff) rfl rfl

/-! ### The account of the requests -/

/-- The callers once one of them has gone on. -/
theorem getElem?_set_eq_some_iff {callers : List Caller} (hk : callers[k]? = some c) (j : Nat)
    (b e : Caller) :
    (callers.set k b)[j]? = some e ↔ j = k ∧ b = e ∨ j ≠ k ∧ callers[j]? = some e := by
  by_cases hj : j = k
  · subst hj
    rw [List.getElem?_set_self (List.getElem?_eq_some_iff.mp hk).1]
    simp
  · rw [List.getElem?_set_ne (Ne.symm hj)]
    simp [hj]

/-- Every request is accounted for. -/
structure Accounts (d : Desk) : Prop where
  sound : ∀ (k : Nat) (c : Caller), d.callers[k]? = some c → c.IsSound
  /-- What has gone in is what has left and then what waits. -/
  balance : d.entered.map Prod.snd = d.departed.map Prod.fst ++ d.stack.requests.items
  /-- The requests that have gone in are those of the calls that have succeeded, -/
  entered_iff : ∀ (k : Nat) (m : Message),
    (k, m) ∈ d.entered ↔ d.callers[k]? = some ⟨m, .done (.ok ())⟩
  /-- each of them once. -/
  once : (d.entered.map Prod.fst).Nodup
  /-- A call that has failed has found the queue closed. -/
  failed : ∀ (k : Nat) (m : Message) (fault : Fault),
    d.callers[k]? = some ⟨m, .done (.error fault)⟩ →
      fault = .queueClosed ∧ d.stack.requests.closed = true
  /-- A purge is that of a call whose own request had not gone in by then. -/
  later : ∀ (i : Nat) (m : Message) (k : Nat), d.departed[i]? = some (m, .purgedBy k) →
    k ∉ (d.entered.take (i + 1)).map Prod.fst

namespace Accounts

/-- No more requests have left than have gone in. -/
theorem length_departed_le (h : d.Accounts) : d.departed.length ≤ d.entered.length := by
  have hlengths := congrArg List.length h.balance
  rw [List.length_append, List.length_map, List.length_map] at hlengths
  omega

/-- The request of a call that has not succeeded has not gone in. -/
theorem not_entered (h : d.Accounts) (hk : d.callers[k]? = some c)
    (hc : c.call ≠ .done (.ok ())) : k ∉ d.entered.map Prod.fst := by
  intro hmem
  obtain ⟨e, he, rfl⟩ := List.mem_map.mp hmem
  have hdone := (h.entered_iff e.1 e.2).mp he
  rw [hk] at hdone
  exact hc (congrArg Caller.call (Option.some.inj hdone))

/-- A new call has not done anything. -/
theorem begin (h : d.Accounts) (m : Message) : (d.perform (.begin m)).Accounts := by
  have hnew : ∀ {k : Nat} {c : Caller}, (d.callers ++ [⟨m, .offering m⟩])[k]? = some c →
      d.callers[k]? = some c ∨ c = ⟨m, .offering m⟩ := by
    intro k c hk
    rw [List.getElem?_append] at hk
    split at hk
    · exact .inl hk
    · exact .inr (List.mem_singleton.mp (List.mem_of_getElem? hk))
  refine { h with sound := ?_, entered_iff := ?_, failed := ?_ }
  · intro k c hk
    rcases hnew hk with hold | rfl
    · exact h.sound k c hold
    · exact rfl
  · intro k n
    refine (h.entered_iff k n).trans ⟨?_, ?_⟩
    · intro hold
      exact (List.getElem?_append_left (List.getElem?_eq_some_iff.mp hold).1).trans hold
    · intro hk
      rcases hnew hk with hold | heq
      · exact hold
      · cases heq
  · intro k n fault hk
    rcases hnew hk with hold | heq
    · exact h.failed k n fault hold
    · cases heq

/-- A call goes on to another step, or ends because the queue is closed. -/
theorem turn (h : d.Accounts) (hk : d.callers[k]? = some c) (hc : c.call ≠ .done (.ok ()))
    (call : Handover) (hsound : Caller.IsSound { c with call }) (hcall : call ≠ .done (.ok ()))
    (hfailed : ∀ fault, call = .done (.error fault) →
      fault = .queueClosed ∧ d.stack.requests.closed = true) :
    Accounts { d with callers := d.callers.set k { c with call } } := by
  have hset := getElem?_set_eq_some_iff hk
  refine { h with sound := ?_, entered_iff := ?_, failed := ?_ }
  · intro j b hj
    rcases (hset j _ _).mp hj with ⟨-, rfl⟩ | ⟨-, hold⟩
    · exact hsound
    · exact h.sound j b hold
  · intro j n
    rw [h.entered_iff, hset]
    constructor
    · intro hdone
      refine .inr ⟨?_, hdone⟩
      rintro rfl
      rw [hk] at hdone
      exact hc (congrArg Caller.call (Option.some.inj hdone))
    · rintro (⟨-, heq⟩ | ⟨-, hdone⟩)
      · exact absurd (congrArg Caller.call heq) hcall
      · exact hdone
  · intro j n fault hj
    rcases (hset j _ _).mp hj with ⟨-, heq⟩ | ⟨-, hold⟩
    · exact hfailed fault (congrArg Caller.call heq)
    · exact h.failed j n fault hold

/-- The request of a call goes in, and with that the call has succeeded. -/
theorem enter (h : d.Accounts) (hk : d.callers[k]? = some c) (hc : c.call ≠ .done (.ok ())) :
    Accounts { d with
      stack := d.stack.withRequests (d.stack.requests.items ++ [c.request])
      callers := d.callers.set k { c with call := .done (.ok ()) }
      entered := d.entered ++ [(k, c.request)] } := by
  have hset := getElem?_set_eq_some_iff hk
  have hnew := h.not_entered hk hc
  constructor
  case sound =>
    intro j b hj
    rcases (hset j _ _).mp hj with ⟨-, rfl⟩ | ⟨-, hold⟩
    · trivial
    · exact h.sound j b hold
  case balance =>
    rw [List.map_append, h.balance, List.append_assoc]
    rfl
  case entered_iff =>
    intro j n
    rw [List.mem_append, List.mem_singleton, Prod.mk.injEq, hset]
    constructor
    · rintro (hmem | ⟨rfl, rfl⟩)
      · refine .inr ⟨?_, (h.entered_iff j n).mp hmem⟩
        rintro rfl
        exact hnew (List.mem_map_of_mem hmem)
      · exact .inl ⟨rfl, rfl⟩
    · rintro (⟨rfl, heq⟩ | ⟨-, hdone⟩)
      · exact .inr ⟨rfl, (congrArg Caller.request heq).symm⟩
      · exact .inl ((h.entered_iff j n).mpr hdone)
  case once =>
    rw [List.map_append, List.nodup_append]
    refine ⟨h.once, List.nodup_singleton _, ?_⟩
    rintro a ha b hb rfl
    obtain rfl := List.mem_singleton.mp hb
    exact hnew ha
  case failed =>
    intro j n fault hj
    rcases (hset j _ _).mp hj with ⟨-, heq⟩ | ⟨-, hold⟩
    · cases congrArg Caller.call heq
    · exact h.failed j n fault hold
  case later =>
    -- A request that has left has its place before the one that has just gone in.
    intro i n j hi
    have hlength := h.length_departed_le
    have hdeparted : i < d.departed.length := (List.getElem?_eq_some_iff.mp hi).1
    rw [List.take_append_of_le_length (by omega)]
    exact h.later i n j hi

/-- The requests that wait leave the queue, because a call has purged it or the dispatcher has
received them. -/
theorem depart (h : d.Accounts) (gone : List Message) (way : Departure) (s : Stack)
    (hitems : d.stack.requests.items = gone ++ s.requests.items)
    (hclosed : s.requests.closed = d.stack.requests.closed)
    (hby : ∀ k, way = .purgedBy k → k ∉ d.entered.map Prod.fst) :
    Accounts { d with stack := s, departed := d.departed ++ gone.map (·, way) } := by
  refine { h with balance := ?_, failed := ?_, later := ?_ }
  · rw [h.balance, hitems, List.map_append, List.map_map, List.append_assoc]
    simp [Function.comp_def]
  · intro k m fault hk
    rw [hclosed]
    exact h.failed k m fault hk
  · intro i m k hi
    rw [List.getElem?_append] at hi
    split at hi
    · exact h.later i m k hi
    · -- It has left just now, and nothing of the call that purged it has gone in so far.
      obtain ⟨n, -, heq⟩ := List.mem_map.mp (List.mem_of_getElem? hi)
      have hk := hby k (congrArg Prod.snd heq)
      exact fun hmem => hk (List.map_subset _ (List.take_subset _ _) hmem)

/-- **A step of a call keeps the account.** -/
theorem step (h : d.Accounts) (hk : d.callers[k]? = some c) : (d.step k c).Accounts := by
  obtain ⟨request, call⟩ := c
  have hsound := h.sound k _ hk
  cases call with
  | offering m =>
      obtain rfl : m = request := hsound
      by_cases hroom : d.stack.requests.closed = false ∧
          d.stack.requests.items.length < d.stack.requests.capacity
      · have hafter := h.enter hk (by simp)
        rw [Desk.step, pursue_offering, entering_offering, if_pos hroom, if_pos hroom]
        simpa only [purging, List.map_nil, List.append_nil, List.map_cons] using hafter
      · have hafter := h.turn hk (by simp) (.refused m) rfl (by simp) (by simp)
        rw [Desk.step, pursue_offering, entering_offering, if_neg hroom, if_neg hroom]
        simpa only [purging, List.map_nil, List.append_nil] using hafter
  | refused m =>
      cases hclosed : d.stack.requests.closed with
      | true =>
          have hafter := h.turn hk (by simp) (.done (.error .queueClosed)) trivial (by simp)
            (fun fault hfault => ⟨by simpa using hfault.symm, hclosed⟩)
          rw [Desk.step, pursue_refused_of_closed hclosed]
          simpa only [entering, purging, List.map_nil, List.append_nil] using hafter
      | false =>
          have hafter := h.turn hk (by simp) (.crowded m) hsound (by simp) (by simp)
          rw [Desk.step, pursue_refused_of_open hclosed]
          simpa only [entering, purging, List.map_nil, List.append_nil] using hafter
  | crowded m =>
      have hnew := h.not_entered hk (by simp)
      have hpurged := h.depart d.stack.requests.items (.purgedBy k)
        (d.stack.pursue (.crowded m)).1 (List.append_nil _).symm rfl
        (fun j hj => by cases hj; exact hnew)
      have hafter := hpurged.turn hk (by simp) (.offering m) hsound (by simp) (by simp)
      rw [Desk.step]
      simpa only [pursue_crowded, entering, purging, Queue.givesUp, List.map_nil,
        List.append_nil] using hafter
  | done outcome =>
      -- A call that is done stays so.
      have hsame : d.callers.set k ⟨request, .done outcome⟩ = d.callers := by
        obtain ⟨hlt, heq⟩ := List.getElem?_eq_some_iff.mp hk
        rw [← heq, List.set_getElem_self]
      rw [Desk.step]
      simpa only [pursue, entering, purging, List.map_nil, List.append_nil, hsame] using h

/-- **Whatever happens keeps the account.** -/
theorem perform (h : d.Accounts) (move : Move) : (d.perform move).Accounts := by
  cases move with
  | begin m => exact h.begin m
  | step k =>
      rw [Desk.perform]
      cases hk : d.callers[k]? with
      | none => exact h
      | some c => exact h.step hk
  | take =>
      have htaken := d.stack.requests.givesUp_append_items .get
      rw [Queue.takesIn, List.append_nil] at htaken
      exact h.depart _ .received _ htaken.symm rfl (by simp)
  | stop => exact { h with failed := fun k m fault hk => ⟨(h.failed k m fault hk).1, rfl⟩ }

/-- The account holds after any moves. -/
theorem run (h : d.Accounts) (moves : List Move) : (d.run moves).Accounts := by
  induction moves generalizing d with
  | nil => exact h
  | cons move moves ih => exact ih (h.perform move)

/-- An empty queue to which nothing has been handed over. -/
theorem start {s : Stack} (hempty : s.requests.items = []) : Accounts { stack := s } where
  sound := by simp
  balance := hempty.symm
  entered_iff := by simp
  once := List.nodup_nil
  failed := by simp
  later := by simp

/-- **The fate of a request whose call has succeeded.** It went in at one place. At that place of
those that have left it was received, or purged by a call whose own request went in no earlier; or
it waits. -/
theorem fate (h : d.Accounts) (hk : d.callers[k]? = some ⟨m, .done (.ok ())⟩) :
    ∃ i, d.entered[i]? = some (k, m) ∧ (∀ j n, d.entered[j]? = some (k, n) → j = i) ∧
      (d.departed[i]? = some (m, .received) ∨
        (∃ j, d.departed[i]? = some (m, .purgedBy j) ∧
          j ∉ (d.entered.take (i + 1)).map Prod.fst) ∨
        d.departed.length ≤ i ∧ d.stack.requests.items[i - d.departed.length]? = some m) := by
  obtain ⟨i, hi⟩ := List.mem_iff_getElem?.mp ((h.entered_iff k m).mpr hk)
  have hplace : (d.departed.map Prod.fst ++ d.stack.requests.items)[i]? = some m := by
    rw [← h.balance, List.getElem?_map, hi]
    rfl
  refine ⟨i, hi, fun j n hj => ?_, ?_⟩
  · have hsame : (d.entered.map Prod.fst)[j]? = (d.entered.map Prod.fst)[i]? := by
      rw [List.getElem?_map, List.getElem?_map, hi, hj]
      rfl
    have hlt : j < (d.entered.map Prod.fst).length := by
      rw [List.length_map]
      exact (List.getElem?_eq_some_iff.mp hj).1
    exact (List.getElem?_inj hlt h.once).mp hsame
  · rw [List.getElem?_append, List.length_map, List.getElem?_map] at hplace
    split at hplace
    · obtain ⟨⟨n, way⟩, hgone, rfl⟩ := Option.map_eq_some_iff.mp hplace
      cases way with
      | received => exact .inl hgone
      | purgedBy j => exact .inr (.inl ⟨j, hgone, h.later i n j hgone⟩)
    · next hwaits => exact .inr (.inr ⟨Nat.le_of_not_lt hwaits, hplace⟩)

/-- Requests are received in the order in which they went in. -/
theorem received_sublist (h : d.Accounts) : d.received.Sublist (d.entered.map Prod.snd) := by
  rw [h.balance]
  exact (List.filter_sublist.map _).trans (List.sublist_append_left _ _)

end Accounts

/-! ### A single caller -/

/-- No move changes the capacity of the queue. -/
theorem capacity_perform (d : Desk) (move : Move) :
    (d.perform move).stack.requests.capacity = d.stack.requests.capacity := by
  cases move with
  | step k =>
      rw [perform]
      split
      · rfl
      · exact capacity_pursue _ _
  | begin m | take | stop => rfl

/-- The queue has the same capacity all through a run. -/
theorem capacity_run (d : Desk) (moves : List Move) :
    (d.run moves).stack.requests.capacity = d.stack.requests.capacity := by
  induction moves generalizing d with
  | nil => rfl
  | cons move moves ih => exact (ih (d.perform move)).trans (d.capacity_perform move)

/-- **A single caller gets closer to its end** with each of its steps, and nothing holds it up. -/
theorem stepsLeft_run {moves : List Move} (hmoves : moves ⊆ [.step k, .take, .stop])
    (hcapacity : 0 < d.stack.requests.capacity) (hk : d.callers[k]? = some ⟨m, call⟩) :
    ∃ after, (d.run moves).callers[k]? = some ⟨m, after⟩ ∧
      (d.run moves).stack.stepsLeft after ≤ d.stack.stepsLeft call - moves.count (.step k) := by
  induction moves generalizing d call with
  | nil => exact ⟨call, hk, Nat.le_refl _⟩
  | cons move moves ih =>
      obtain ⟨hmove, hrest⟩ := List.cons_subset.mp hmoves
      have hcapacity' : 0 < (d.perform move).stack.requests.capacity := by
        rw [capacity_perform]
        exact hcapacity
      simp only [List.mem_cons, List.not_mem_nil, or_false] at hmove
      rcases hmove with rfl | rfl | rfl
      · have hstep : d.perform (.step k) = d.step k ⟨m, call⟩ := by rw [perform, hk]
        have hstack : (d.perform (.step k)).stack = (d.stack.pursue call).1 := by
          rw [hstep]
          rfl
        have hnext : (d.perform (.step k)).callers[k]? = some ⟨m, (d.stack.pursue call).2⟩ := by
          rw [hstep]
          exact List.getElem?_set_self (List.getElem?_eq_some_iff.mp hk).1
        obtain ⟨after, hafter, hle⟩ := ih hrest hcapacity' hnext
        have hcloser := stepsLeft_pursue hcapacity call
        rw [hstack] at hle
        rw [List.count_cons_self]
        exact ⟨after, hafter, hle.trans (by omega)⟩
      · obtain ⟨after, hafter, hle⟩ := ih hrest hcapacity' hk
        have hroom : (d.perform .take).stack.requests.items.length ≤
            d.stack.requests.items.length := List.length_tail.trans_le (Nat.sub_le _ _)
        have hcloser := stepsLeft_mono (d.capacity_perform .take) hroom id call
        rw [List.count_cons_of_ne (by simp)]
        exact ⟨after, hafter, hle.trans (by omega)⟩
      · obtain ⟨after, hafter, hle⟩ := ih hrest hcapacity' hk
        have hroom : (d.perform .stop).stack.requests.items.length ≤
            d.stack.requests.items.length := Nat.le_refl _
        have hcloser := stepsLeft_mono (d.capacity_perform .stop) hroom (fun _ => rfl) call
        rw [List.count_cons_of_ne (by simp)]
        exact ⟨after, hafter, hle.trans (by omega)⟩

/-- **A single caller is done after five steps of its own.** -/
theorem done_after_five {moves : List Move} (hmoves : moves ⊆ [.step k, .take, .stop])
    (hcapacity : 0 < d.stack.requests.capacity) (hk : d.callers[k]? = some ⟨m, call⟩)
    (hsteps : 5 ≤ moves.count (.step k)) :
    ∃ outcome, (d.run moves).callers[k]? = some ⟨m, .done outcome⟩ := by
  obtain ⟨after, hafter, hle⟩ := stepsLeft_run hmoves hcapacity hk
  have hbound := d.stack.stepsLeft_le call
  have hzero : (d.run moves).stack.stepsLeft after = 0 := by omega
  obtain ⟨outcome, rfl⟩ := exists_done_of_stepsLeft hzero
  exact ⟨outcome, hafter⟩

end Desk

namespace Stack

/-- **The queue of requests keeps the newest.** Of requests that are handed over one after another
to an empty open queue all are taken, and the last remain, back to the last purge: of `n` requests
the last `(n - 1) % capacity + 1`, in their order, among them the very last. A call hands its
request over in a loop. On its own the loop ends within five steps, and with what `notify` gives;
where the queue is closed it ends within two, and nothing changes. Other calls, a dispatcher that
takes requests and a shutdown may come between any two steps. Then too the requests that have gone
in are those of the calls that have succeeded, and every one of them has been received once, was
discarded by the purge of a call whose own request had not gone in by then, or still waits. A call
fails only because the queue has been closed, requests are received in the order in which they went
in, and a call that is alone in handing over requests is done after five steps of its own. -/
theorem requests_keep_newest {capacity : Nat} (hnew : s.requests = .new capacity) :
    (∀ ms : List Message,
      let kept := ms.rtake ((ms.length - 1) % max capacity 1 + 1)
      (∃ es, s.notifyEach ms =
        ((s.withRequests kept).report es, List.replicate ms.length (.ok ()))) ∧
      kept.getLast? = ms.getLast?) ∧
    (∀ (t : Stack) (m : Message) (n : Nat),
      (0 < t.requests.capacity →
        t.handOver (.offering m) (n + 5) = ((t.notify m).1, .done (t.notify m).2)) ∧
      (t.requests.closed = true →
        t.notify m = (t, .error .queueClosed) ∧
        t.handOver (.offering m) (n + 2) = (t, .done (.error .queueClosed)))) ∧
    ∀ moves : List Move,
      let d := Desk.run { stack := s } moves
      d.entered.map Prod.snd = d.departed.map Prod.fst ++ d.stack.requests.items ∧
      (∀ k m, (k, m) ∈ d.entered ↔ d.callers[k]? = some ⟨m, .done (.ok ())⟩) ∧
      (∀ k m, d.callers[k]? = some ⟨m, .done (.ok ())⟩ →
        ∃ i, d.entered[i]? = some (k, m) ∧ (∀ j n, d.entered[j]? = some (k, n) → j = i) ∧
          (d.departed[i]? = some (m, .received) ∨
            (∃ j, d.departed[i]? = some (m, .purgedBy j) ∧
              j ∉ (d.entered.take (i + 1)).map Prod.fst) ∨
            d.departed.length ≤ i ∧
              d.stack.requests.items[i - d.departed.length]? = some m)) ∧
      (∀ (k : Nat) (m : Message) (fault : Fault),
        d.callers[k]? = some ⟨m, .done (.error fault)⟩ →
          fault = .queueClosed ∧ d.stack.requests.closed = true) ∧
      d.received.Sublist (d.entered.map Prod.snd) ∧
      ∀ k m call more, d.callers[k]? = some ⟨m, call⟩ → more ⊆ [.step k, .take, .stop] →
        5 ≤ more.count (.step k) →
          ∃ outcome, (d.run more).callers[k]? = some ⟨m, .done outcome⟩ := by
  refine ⟨fun ms => ⟨notifyEach_of_new hnew ms, ?newest⟩,
    fun t m n => ⟨fun h => handOver_eq_notify h m n, fun h => handOver_of_closed h m n⟩,
    fun moves => ?account⟩
  case newest =>
    rw [List.rtake, List.getLast?_drop]
    split
    · next hnone =>
        have hempty : ms.length = 0 := by omega
        rw [List.eq_nil_of_length_eq_zero hempty]
        rfl
    · rfl
  case account =>
    intro d
    have haccounts : d.Accounts := (Desk.Accounts.start (by rw [hnew]; rfl)).run moves
    have hcapacity : 0 < d.stack.requests.capacity := by
      rw [Desk.capacity_run, hnew]
      exact Nat.lt_of_lt_of_le Nat.one_pos (Nat.le_max_right _ _)
    exact ⟨haccounts.balance, haccounts.entered_iff, fun k m hk => haccounts.fate hk,
      haccounts.failed, haccounts.received_sublist,
      fun k m call more hk hmore hsteps => Desk.done_after_five hmore hcapacity hk hsteps⟩

/-- A stack at rest whose queue has room for two requests. -/
def roomForTwo : Stack := { soloStack bmcRow .default with requests := .new 2 }

/-- A request with a number. -/
def numbered (n : UInt8) : Message := { seq := n }

/-- Two requests go in, and the third finds no room. -/
def crowdingMoves : List Move :=
  [.begin (numbered 1), .step 0, .begin (numbered 2), .step 1, .begin (numbered 3), .step 2]

/-- The first is received before the third call purges the queue. The fourth comes too late. -/
def purgingMoves : List Move :=
  crowdingMoves ++ [.step 2, .take, .step 2, .step 2, .stop, .begin (numbered 4), .step 3, .step 3]

/-- In a queue for two only the second of three requests is lost. -/
theorem requests_keep_newest_third :
    let d := Desk.run { stack := roomForTwo } purgingMoves
    let crowded := Desk.run { stack := roomForTwo } crowdingMoves
    let more : List Move := [.step 2, .take, .step 2, .step 2, .take, .step 2, .step 2]
    roomForTwo.requests = .new 2 ∧
    (∃ es, roomForTwo.notifyEach [numbered 1, numbered 2, numbered 3] =
      ((roomForTwo.withRequests [numbered 3]).report es, [.ok (), .ok (), .ok ()])) ∧
    (0 < roomForTwo.requests.capacity ∧
      roomForTwo.handOver (.offering (numbered 1)) 5 =
        ((roomForTwo.notify (numbered 1)).1, .done (roomForTwo.notify (numbered 1)).2)) ∧
    (roomForTwo.stop.requests.closed = true ∧
      roomForTwo.stop.handOver (.offering (numbered 1)) 2 =
        (roomForTwo.stop, .done (.error .queueClosed))) ∧
    (d.callers[1]? = some ⟨numbered 2, .done (.ok ())⟩ ∧
      d.departed[1]? = some (numbered 2, .purgedBy 2) ∧
      ∃ i : Nat, d.entered[i]? = some (1, numbered 2) ∧
        ∀ j n, d.entered[j]? = some (1, n) → j = i) ∧
    (d.callers[3]? = some ⟨numbered 4, .done (.error .queueClosed)⟩ ∧
      d.stack.requests.closed = true) ∧
    (crowded.callers[2]? = some ⟨numbered 3, .refused (numbered 3)⟩ ∧
      more ⊆ [.step 2, .take, .stop] ∧ 5 ≤ more.count (.step 2) ∧
      ∃ outcome, (crowded.run more).callers[2]? = some ⟨numbered 3, .done outcome⟩) := by
  intro d crowded more
  have hnew : roomForTwo.requests = .new 2 := rfl
  obtain ⟨hkept, hloop, haccount⟩ := requests_keep_newest hnew
  obtain ⟨-, -, hfate, hfailed, -, -⟩ := haccount purgingMoves
  obtain ⟨-, -, -, -, -, hdone⟩ := haccount crowdingMoves
  have hcapacity : 0 < roomForTwo.requests.capacity := by decide
  have hclosed : roomForTwo.stop.requests.closed = true := rfl
  have hsecond : d.callers[1]? = some ⟨numbered 2, .done (.ok ())⟩ := by decide +kernel
  have hfourth : d.callers[3]? = some ⟨numbered 4, .done (.error .queueClosed)⟩ := by
    decide +kernel
  have hthird : crowded.callers[2]? = some ⟨numbered 3, .refused (numbered 3)⟩ := by
    decide +kernel
  have hmore : more ⊆ [.step 2, .take, .stop] := by decide
  have hsteps : 5 ≤ more.count (.step 2) := by decide
  have hlast : [numbered 1, numbered 2, numbered 3].rtake ((3 - 1) % max 2 1 + 1) =
      [numbered 3] := by decide +kernel
  have hthree := (hkept [numbered 1, numbered 2, numbered 3]).1
  rw [List.length_cons, List.length_cons, List.length_singleton, hlast] at hthree
  have htaken := (hloop roomForTwo (numbered 1) 0).1 hcapacity
  have hrefused := ((hloop roomForTwo.stop (numbered 1) 0).2 hclosed).2
  rw [Nat.zero_add] at htaken hrefused
  obtain ⟨i, hi, honce, -⟩ := hfate 1 (numbered 2) hsecond
  exact ⟨hnew, hthree, ⟨hcapacity, htaken⟩, ⟨hclosed, hrefused⟩,
    ⟨hsecond, by decide +kernel, i, hi, honce⟩,
    ⟨hfourth, (hfailed 3 (numbered 4) _ hfourth).2⟩, hthird, hmore, hsteps,
    hdone 2 (numbered 3) _ more hthird hmore hsteps⟩

end Stack

end ManagementBus
