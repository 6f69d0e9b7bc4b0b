import ManagementBus.Proofs.Acting

/-!
# What each action tells the host

An action writes one buffer to the host at most, the settings of the stack stay as they are, and
its clock stands still unless it is advanced: `Stack.Quiet` and `Stack.Tells` state that of an
operation without a buffer and of one with it.

## Main results

* `Scheduler.tells_perform`: every action writes to the host once at most.
-/

namespace ManagementBus

open EnvelopeProperty

/-- The time that passes in an action, in milliseconds. -/
def Action.elapsed : Action → UInt32
  | .advance ms => ms
  | _ => 0

/-- Time passes only when it is advanced. -/
theorem Action.elapsed_eq_zero {a : Action} (ha : ∀ ms, a ≠ .advance ms) : a.elapsed = 0 := by
  cases a with
  | advance ms => exact absurd rfl (ha ms)
  | begin | resume | abandon | transmitBegin | transmitEnd | receive | relink | submitFromHost
    | notify | dispatch | sweep | stop | finish => rfl

namespace Stack

variable {P : EnvelopeProperty} {s t u : Stack} {i : Nat} {b c : Bus} {m : Message}

/-- The host has not been written to, the settings are the same, and so are the clock and the number
of buses; and a stack that has been shut down is still so. -/
structure Quiet (s t : Stack) : Prop where
  length : t.buses.length = s.buses.length
  timing : t.timing = s.timing
  policy : t.policy = s.policy
  kcs : t.kcs = s.kcs
  clock : t.clock = s.clock
  stopped : s.stopped = true → t.stopped = true

/-- The settings and the clock are the same, and the host has been written to once at most. -/
def Tells (s t : Stack) : Prop := ∃ u, Quiet s u ∧ TellsHost u t

namespace Quiet

/-- A step that does nothing is quiet. -/
theorem refl (s : Stack) : Quiet s s := ⟨rfl, rfl, rfl, rfl, rfl, id⟩

/-- Two quiet steps are one. -/
theorem trans (h₁ : Quiet s t) (h₂ : Quiet t u) : Quiet s u :=
  ⟨h₂.length.trans h₁.length, h₂.timing.trans h₁.timing, h₂.policy.trans h₁.policy,
    h₂.kcs.trans h₁.kcs, h₂.clock.trans h₁.clock, fun hs => h₂.stopped (h₁.stopped hs)⟩

/-- Queueing is quiet. -/
theorem of_sends (h : Sends P s t) : Quiet s t :=
  ⟨h.buses.length_eq.symm, h.timing, h.policy, h.kcs, h.clock, fun hs => h.stopped.trans hs⟩

/-- A change of one bus is quiet. -/
theorem of_replaces (h : Replaces i c s t) : Quiet s t := by
  refine ⟨?_, h.timing, h.policy, h.kcs, h.clock, fun hs => h.stopped.trans hs⟩
  rw [h]
  exact List.length_set

/-- A step of a call is quiet, since what it reports goes to the call. -/
theorem of_serves {d : Call} {r : Stack × Call} (h : Serves P s d r) : Quiet s r.1 := by
  have hlength := h.buses.toExtends.length_eq
  rw [h.rest]
  exact ⟨hlength.symm, rfl, rfl, rfl, rfl, id⟩

/-- A quiet step tells the host nothing. -/
theorem tells (h : Quiet s t) : Tells s t :=
  ⟨t, h, [], .inl (by simp [report])⟩

/-- A write to the host after a quiet step is the only one. -/
theorem then_tells (h : Quiet s t) (htu : TellsHost t u) : Tells s u := ⟨t, h, htu⟩

end Quiet

namespace Tells

/-- However the host is told, no bus comes or goes. -/
theorem length (h : Tells s t) : t.buses.length = s.buses.length := by
  obtain ⟨u, hquiet, hhost⟩ := h
  rw [hhost.buses]
  exact hquiet.length

/-- The settings of the stack stay. -/
theorem timing (h : Tells s t) : t.timing = s.timing := by
  obtain ⟨u, hquiet, es, h | ⟨buffer, h⟩⟩ := h
  · rw [h]
    exact hquiet.timing
  · rw [h]
    exact hquiet.timing

/-- The policy of the board stays. -/
theorem policy (h : Tells s t) : t.policy = s.policy := by
  obtain ⟨u, hquiet, es, h | ⟨buffer, h⟩⟩ := h
  · rw [h]
    exact hquiet.policy
  · rw [h]
    exact hquiet.policy

/-- The clock stands still. -/
theorem clock (h : Tells s t) : t.clock = s.clock := by
  obtain ⟨u, hquiet, es, h | ⟨buffer, h⟩⟩ := h
  · rw [h]
    exact hquiet.clock
  · rw [h]
    exact hquiet.clock

/-- A stack that has been shut down is not restarted. -/
theorem stopped (h : Tells s t) (hs : s.stopped = true) : t.stopped = true := by
  obtain ⟨u, hquiet, es, h | ⟨buffer, h⟩⟩ := h
  · rw [h]
    exact hquiet.stopped hs
  · rw [h]
    exact hquiet.stopped hs

/-- The sink of the host is as it was, or it is that after one write. -/
theorem kcs (h : Tells s t) : t.kcs = s.kcs ∨ ∃ buffer, t.kcs = (s.kcs.write buffer).1 := by
  obtain ⟨u, hquiet, es, h | ⟨buffer, h⟩⟩ := h
  · rw [h]
    exact .inl hquiet.kcs
  · rw [h, ← hquiet.kcs]
    exact .inr ⟨buffer, rfl⟩

end Tells

/-- Handing a request to the dispatcher is quiet. -/
theorem quiet_notify (s : Stack) (m : Message) : Quiet s (s.notify m).1 := by
  obtain ⟨q, es, hq, -⟩ := notify_cases s m
  rw [hq]
  exact ⟨rfl, rfl, rfl, rfl, rfl, id⟩

/-- A look at a link tells the host of one response at most. -/
theorem tells_receive (s : Stack) (i : Nat) : Tells s (s.receive i).1 := by
  rcases receive_cases s i with ⟨h, -⟩ | ⟨b, link, u, hworker, hread, hroute⟩
  · rw [h]
    exact (Quiet.refl s).tells
  · obtain ⟨-, hb, -⟩ := workerBus_eq_some_iff.mp hworker
    have hu := Quiet.of_replaces hread
    have hub := hread.getElem?_self hb
    rcases hroute with ⟨h, -⟩ | ⟨m, -, ⟨hm, h⟩ | ⟨hm, h⟩⟩
    · rw [h]
      exact hu.tells
    · rw [h]
      rcases routeResponse_cases hub m with ⟨-, hunmatched⟩ | ⟨entry, v, -, hsettle, hdeliver⟩
      · rw [hunmatched]
        exact hu.then_tells ⟨_, .inl rfl⟩
      · rw [hdeliver]
        have hv := hu.trans (Quiet.of_replaces hsettle)
        have hvb := hsettle.getElem?_self hub
        rw [deliverResponse]
        split
        · rcases answerReader_cases hvb (m.answering entry) with ⟨-, hreader⟩ | ⟨-, hdrop⟩
          · exact (hv.trans (Quiet.of_replaces hreader)).tells
          · rw [hdrop]
            exact hv.then_tells ⟨_, .inl rfl⟩
        · split
          · exact hv.then_tells (tellsHost_answerHost v i _)
          · split
            · exact (hv.trans (.of_sends (sends_answerMe v i (m := m.answering entry) hm))).tells
            · exact (hv.trans (.of_sends (sends_answerBridge v i _ _))).tells
    · rw [h]
      rcases routeRequest_cases u i { b with link } hm with hbridge | ⟨es, hnotify⟩
      · exact (hu.trans (.of_sends hbridge)).tells
      · rw [hnotify]
        exact (hu.trans (quiet_notify u _)).then_tells ⟨es, .inl rfl⟩

/-- A report of failure is one write to the host at most. -/
theorem tells_reportFailure (s : Stack) (m : Message) : Tells s (s.reportFailure m) := by
  rcases reportFailure_cases s m with ⟨-, hhost⟩ | ⟨-, hsends⟩
  · exact (Quiet.refl s).then_tells hhost
  · exact (Quiet.of_sends hsends).tells

/-- The end of a write tells the host at most once. -/
theorem tells_finishWrite (hb : s.buses[i]? = some b) (e : Envelope) :
    Tells s (s.finishWrite i b e) := by
  rcases finishWrite_cases hb e with ⟨-, h⟩ | ⟨-, -, h⟩ | ⟨-, -, -, u, hu, h⟩
  · exact (Quiet.of_replaces h).tells
  · exact (Quiet.of_replaces h).tells
  · obtain ⟨v, hv, hhost⟩ := tells_reportFailure u e.msg
    rw [h]
    exact ⟨v, (Quiet.of_replaces hu).trans hv, hhost⟩

/-- The end of whatever is in hand tells the host at most once. -/
theorem tells_of_finishes (h : Finishes i s t) : Tells s t := by
  cases h with
  | idle => exact (Quiet.refl s).tells
  | ends hb _ => exact tells_finishWrite hb _

/-- What the host submits is refused to it once at most. -/
theorem tells_submitFromHost (s : Stack) (m : Message) : Tells s (s.submitFromHost m).1 := by
  rcases submitFromHost_cases s m with h | ⟨i, h⟩ | ⟨u, hu, hhost⟩
  · rw [h]
    exact (quiet_notify s _).tells
  · exact (Quiet.of_sends h.sends).tells
  · exact (Quiet.of_sends hu).then_tells hhost

/-- A request that is dispatched is answered to the host once at most. -/
theorem tells_dispatch (s : Stack) (handler : Handler) (m : Message) :
    Tells s (s.dispatch handler m).1 := by
  obtain ⟨es, h⟩ := dispatch_eq s handler m
  have hserve : Quiet s ((s.report es).serve handler m).1 := by
    rcases serve_cases (s.report es) handler m with ⟨n, -, hs, -⟩ | ⟨hfn, -, n, hn, hs, -⟩
    · rw [hs]
      exact ⟨rfl, rfl, rfl, rfl, rfl, id⟩
    · have hrequest : n.isResponse = false := Message.isResponse_of_enterprise (hn.1.trans hfn)
      have hreport : Quiet s (s.report es) := ⟨rfl, rfl, rfl, rfl, rfl, id⟩
      rw [hs]
      exact hreport.trans (.of_sends (sends_messageOut (s.report es) hrequest))
  rw [h, conclude]
  split
  · exact hserve.tells
  · rcases respond_cases ((s.report es).serve handler m).1
      (finalResponse ((s.report es).serve handler m).2.1) with ⟨-, hhost⟩ | ⟨-, hsends⟩
    · exact hserve.then_tells hhost
    · exact (hserve.trans (.of_sends hsends)).tells

/-- The first half of a write is quiet. -/
theorem quiet_transmitBegin (s : Stack) (i : Nat) : Quiet s (s.transmitBegin i).1 := by
  rcases transmitBegin_cases s i with h | ⟨c, e, rest, -, -, -, h⟩
  · rw [h]
    exact Quiet.refl s
  · rcases h with ⟨-, -, h⟩ | ⟨-, -, h⟩ | ⟨-, h⟩
    · exact .of_replaces h
    · exact .of_replaces h
    · exact .of_replaces h

/-- A sweep is quiet. -/
theorem quiet_sweep (s : Stack) : Quiet s s.sweep.1 := by
  rw [s.sweep_eq.1]
  exact ⟨List.length_map .., rfl, rfl, rfl, rfl, id⟩

/-- When no time passes nothing happens. -/
theorem advance_zero (s : Stack) : s.advance 0 = s := by
  rw [advance, Clock.advance, UInt32.add_zero]

end Stack

namespace Scheduler

open Stack

/-- An action that is not an advance of the clock. -/
theorem tells_of_still {s : Scheduler} {a : Action} (ha : ∀ ms, a ≠ .advance ms) :
    Tells s.stack (s.perform a).stack := by
  by_cases hcallers : a.isCallers = true
  · rcases s.callStep hcallers with h | ⟨-, hserves, -, hstack, -⟩
    · rw [h]
      exact (Quiet.refl s.stack).tells
    · rw [hstack]
      exact (Quiet.of_serves hserves).tells
  cases a with
  | begin | resume | abandon => exact absurd rfl hcallers
  | transmitBegin j => exact (quiet_transmitBegin s.stack j).tells
  | transmitEnd j => exact tells_of_finishes (finishes_transmitEnd s.stack j)
  | receive j => exact tells_receive s.stack j
  | relink j link =>
      have hquiet : Quiet s.stack (s.stack.onBus j fun b => { b with link }) :=
        ⟨List.length_modify .., rfl, rfl, rfl, rfl, id⟩
      exact hquiet.tells
  | submitFromHost m => exact tells_submitFromHost s.stack m
  | notify m => exact (quiet_notify s.stack m).tells
  | dispatch handler =>
      rcases dispatchUpTo_one s.stack handler with ⟨-, h⟩ | ⟨m, rest, -, h⟩
      · simp only [perform, onStack, h]
        exact (Quiet.refl s.stack).tells
      · simp only [perform, onStack, h]
        obtain ⟨u, hu, hhost⟩ := tells_dispatch (s.stack.withRequests rest) handler m
        exact ⟨u, ⟨hu.length, hu.timing, hu.policy, hu.kcs, hu.clock, hu.stopped⟩, hhost⟩
  | sweep => exact (quiet_sweep s.stack).tells
  | advance ms => exact absurd rfl (ha ms)
  | stop =>
      have hquiet : Quiet s.stack s.stack.stop :=
        ⟨List.length_map .., rfl, rfl, rfl, rfl, fun _ => rfl⟩
      exact hquiet.tells
  | finish j => exact tells_of_finishes (finishes_finishInHand s.stack j)

/-- **An action writes to the host once at most, and it leaves the settings as they are**; the clock
moves by the time that passes in it. -/
theorem tells_perform (s : Scheduler) (a : Action) :
    Tells (s.stack.advance a.elapsed) (s.perform a).stack := by
  by_cases hadvance : ∃ ms, a = .advance ms
  · obtain ⟨ms, rfl⟩ := hadvance
    exact (Quiet.refl _).tells
  · have hstill : ∀ ms, a ≠ .advance ms := fun ms heq => hadvance ⟨ms, heq⟩
    rw [Action.elapsed_eq_zero hstill, advance_zero]
    exact tells_of_still hstill

/-- Every bus after an action was there before. -/
theorem exists_bus_before_perform {s : Scheduler} {a : Action} {i : Nat} {c : Bus}
    (hc : (s.perform a).stack.buses[i]? = some c) :
    ∃ b, s.stack.buses[i]? = some b ∧ b.Changes (s.Supplied i a) s.stack.clock.now c := by
  obtain ⟨hlt, -⟩ := List.getElem?_eq_some_iff.mp hc
  rw [(s.tells_perform a).length] at hlt
  obtain ⟨c', hc', hchanges⟩ := s.perform_changes a (List.getElem?_eq_getElem hlt)
  obtain rfl : c = c' := Option.some.inj (hc.symm.trans hc')
  exact ⟨_, List.getElem?_eq_getElem hlt, hchanges⟩

end Scheduler

end ManagementBus
