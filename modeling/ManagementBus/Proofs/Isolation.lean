import ManagementBus.Proofs.Bridging

/-!
# Buses that are driven elsewhere

A step that is taken on one bus may have to do with another one: a response is bridged or relayed
there, a request of the management engine goes on there, and the originator of a request that
cannot be delivered is told there. All of these end in an envelope that is queued, so that every
such step *spares* the other buses: envelopes are added to a transmit queue, and its cursor may move
because a number has been drawn. The pending requests there, their ticks and the numbers in flight
stay.

## Main results

* `perform_spares`: what an action on one bus does to the others.
* `ledger_isolated`: what is pending on a bus while others are driven.
-/

namespace ManagementBus

open EnvelopeProperty

namespace Scheduler

open Stack

variable {s : Scheduler} {a : Action} {i j : Nat} {as : List Action}

/-- The bus on which an action is driven: that of a worker, of a caller, or of a link. -/
def drivenOn? (s : Scheduler) : Action → Option Nat
  | .begin _ i _ => some i
  | .resume k | .abandon k => s.calls[k]?.map (·.bus)
  | .transmitBegin i | .transmitEnd i | .finish i | .receive i | .relink i _ => some i
  | .submitFromHost _ | .notify _ | .dispatch _ | .sweep | .advance _ | .stop => none

/-- Every action of a run is driven on some other bus than a given one. -/
def DrivenElsewhere (j : Nat) : Scheduler → List Action → Prop
  | _, [] => True
  | s, a :: as => (∃ i ∈ s.drivenOn? a, i ≠ j) ∧ (s.perform a).DrivenElsewhere j as

instance decidableDrivenElsewhere (j : Nat) : ∀ (as : List Action) (s : Scheduler),
    Decidable (s.DrivenElsewhere j as)
  | [], _ => .isTrue trivial
  | a :: as, s =>
    have := decidableDrivenElsewhere j as (s.perform a)
    inferInstanceAs (Decidable (_ ∧ _))

/-- A step of a call spares the buses that are not the call's. -/
theorem spares_of_serves {P : EnvelopeProperty} {c : Call} {r : Stack × Call}
    (h : Serves P s.stack c r) (hij : c.bus ≠ j) : Spares Anything j s.stack r.1 :=
  .of_eq (h.buses.others j hij)

/-- A step of a call that was there spares the buses that are not the call's. -/
theorem spares_stepCall {P : Call → EnvelopeProperty} {k : Nat}
    {step : Stack → Call → Stack × Call}
    (hserves : ∀ c, Serves (P c) s.stack c (s.stack.aside fun stack => step stack c))
    (hdriven : s.calls[k]?.map (·.bus) = some i) (hij : i ≠ j) :
    Spares Anything j s.stack (s.stepCall k step).stack := by
  rcases stepCall_cases s k step with ⟨-, h⟩ | ⟨c, hc, h⟩
  · rw [h]
    exact .refl _ j s.stack
  · obtain rfl : c.bus = i := by simpa [hc] using hdriven
    rw [h]
    exact spares_of_serves (hserves c) hij

/-- **What is done on one bus spares the others.** -/
theorem perform_spares (hdriven : s.drivenOn? a = some i) (hij : i ≠ j) :
    Spares Anything j s.stack (s.perform a).stack := by
  cases a with
  | begin kind bus m =>
      obtain rfl : bus = i := Option.some.inj hdriven
      have hserves := serves_aside (s := s.stack) fun t =>
        serves_beginCall t (Call.new kind bus m) s.tickets
      exact spares_of_serves hserves hij
  | resume k =>
      rw [perform]
      split
      · exact spares_stepCall (fun c => serves_aside fun t => serves_resumeCall t c s.tickets)
          hdriven hij
      · exact .refl _ j s.stack
  | abandon k =>
      rw [perform]
      split
      · exact spares_stepCall (fun c => serves_aside fun t => serves_abandonCall Nothing t c)
          hdriven hij
      · exact .refl _ j s.stack
  | transmitBegin k =>
      obtain rfl : k = i := Option.some.inj hdriven
      exact spares_transmitBegin Anything s.stack hij
  | transmitEnd k =>
      obtain rfl : k = i := Option.some.inj hdriven
      exact ((finishes_transmitEnd s.stack k).spares hij).mono fun _ _ _ => trivial
  | finish k =>
      obtain rfl : k = i := Option.some.inj hdriven
      exact ((finishes_finishInHand s.stack k).spares hij).mono fun _ _ _ => trivial
  | receive k =>
      obtain rfl : k = i := Option.some.inj hdriven
      exact (spares_receive s.stack hij).mono fun _ _ _ => trivial
  | relink k link =>
      obtain rfl : k = i := Option.some.inj hdriven
      exact .of_eq (s.stack.buses_onBus _ hij)
  | submitFromHost | notify | dispatch | sweep | advance | stop => cases hdriven

/-- **A run that is driven elsewhere spares a bus.** -/
theorem after_spares (h : s.DrivenElsewhere j as) :
    Spares Anything j s.stack (s.after as).stack := by
  induction as generalizing s with
  | nil => exact .refl _ j s.stack
  | cons a as ih =>
      obtain ⟨⟨i, hdriven, hij⟩, hrest⟩ := h
      exact (perform_spares hdriven hij).trans (ih hrest)

/-- **What is pending on a bus is its own affair.** While callers and workers are busy on other
buses, whatever arrives or fails there and whatever is bridged, relayed or reported from there, the
requests pending on this bus stay as they are, with their ticks, and so do the numbers in flight: no
more happens to the bus than that envelopes are added to its transmit queue and its cursor moves. -/
theorem ledger_isolated (s : Scheduler) (j : Nat) (as : List Action) (b : Bus)
    (hb : s.stack.buses[j]? = some b) (h : s.DrivenElsewhere j as) :
    ∃ c, (s.after as).stack.buses[j]? = some c ∧
      c.ledger.entries = b.ledger.entries ∧
      (∀ n, c.ledger.numbers.isBusy n = b.ledger.numbers.isBusy n) ∧
      ∃ cursor added, c = b.queued cursor added := by
  obtain ⟨c, hc, cursor, added, rfl, -⟩ := after_spares h b hb
  exact ⟨_, hc, rfl, fun _ => rfl, cursor, added, rfl⟩

/-- The controller and the board have been asked the same under the same number, the board on
behalf of the controller. -/
def bothAsked : Scheduler :=
  boardAnswering.after
    [.begin .sendRequest 0 { netFn := 0x06, cmd := 0x01 }, .transmitBegin 0, .transmitEnd 0]

/-- The response of the board goes on to the controller, and leaves the request there pending. -/
theorem ledger_isolated_boardResponse :
    bothAsked.DrivenElsewhere 0 [.receive 1] ∧
      (bothAsked.stack.pendingOn 0).map (·.seqTarget) = [1] ∧
      (bothAsked.stack.pendingOn 1).map (·.seqTarget) = [1] ∧
      bothAsked.stack.waitingOn 0 = [] ∧
      ((bothAsked.after [.receive 1]).stack.waitingOn 0).map (·.msg.netFn) = [0x39] ∧
      (bothAsked.after [.receive 1]).stack.pendingOn 1 = [] ∧
      (bothAsked.after [.receive 1]).stack.pendingOn 0 = bothAsked.stack.pendingOn 0 := by
  have hdriven : bothAsked.DrivenElsewhere 0 [.receive 1] := by decide +kernel
  obtain ⟨b, hb⟩ : ∃ b, bothAsked.stack.buses[0]? = some b := ⟨_, rfl⟩
  obtain ⟨c, hc, hentries, -⟩ := ledger_isolated bothAsked 0 [.receive 1] b hb hdriven
  refine ⟨hdriven, by decide +kernel, by decide +kernel, by decide +kernel, by decide +kernel,
    by decide +kernel, ?_⟩
  rw [pendingOn_eq hc, hentries, pendingOn_eq hb]

end Scheduler

end ManagementBus
