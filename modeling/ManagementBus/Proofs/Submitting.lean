import ManagementBus.Proofs.Refusing
import ManagementBus.Proofs.Returning

/-!
# What the host submits

A request of the host is served by the controller or bridged to the baseboard management controller,
as the board decides. One that is to be bridged can fail in three places: no usable bus serves the
channel of that controller, somebody else is sending there, or the bus is closed, which shows only
when a number has been drawn. Whether it succeeds can therefore be told from the bus alone, and each
way to fail ends in the same refusal.

## Main results

* `submitFromHost_of_admits`: a request that the bus takes.
* `submitFromHost_of_fault`: one that it does not take.
* `host_submission_queued_or_refused`: one of the two, and never both.
-/

namespace ManagementBus

open EnvelopeProperty

/-- An envelope carries a request of the host from a bus to its other end, and has not been tried
yet. -/
structure Envelope.IsSubmitted (e : Envelope) (config : BusConfig) (m : Message) : Prop where
  netFn : e.msg.netFn = m.netFn
  cmd : e.msg.cmd = m.cmd
  data : e.msg.data = m.data
  seqSource : e.msg.seqSource = m.seqSource
  infSource : e.msg.infSource = .hostKcs
  infTarget : e.msg.infTarget = .bmcIpmb
  destAddr : e.msg.destAddr = config.targetAddr
  srcAddr : e.msg.srcAddr = config.selfAddr <<< 1
  retries : e.retries = 0

namespace Stack

variable {s t u : Stack} {i j : Nat} {b : Bus} {m : Message} {fault : Fault}
  {written : List (List UInt8)}

/-- The queue of the bus of the baseboard management controller is closed or has room, if there is
such a bus. -/
def HasRoomForHost (s : Stack) : Prop :=
  ∀ j ∈ s.busFor .bmcIpmb, ∀ b ∈ s.buses[j]?,
    b.outbound.closed = true ∨ b.outbound.items.length < b.outbound.capacity

instance (s : Stack) : Decidable s.HasRoomForHost := inferInstanceAs (Decidable (∀ _ ∈ _, _))

/-- The bus of the baseboard management controller takes a request. -/
def TakesFromHost (s : Stack) : Prop :=
  ∃ j b, s.busFor .bmcIpmb = some j ∧ s.buses[j]? = some b ∧ b.Admits .sendRequest

/-- A request of the host waits at the end of the queue of the first usable bus of the baseboard
management controller; nothing else has happened but that a number has been drawn there and
something reported. -/
def QueuesForHost (m : Message) (s t : Stack) : Prop :=
  ∃ j b cursor e, s.FirstServing .bmcIpmb j b.config ∧ s.buses[j]? = some b ∧
    e.IsSubmitted b.config m ∧ Replaces j (b.queued cursor [e]) s t

/-- Nothing has been queued anywhere, and every bus is as it was but for its cursor. -/
structure Undisturbed (s t : Stack) : Prop where
  requests : t.requests = s.requests
  buses : List.Forall₂ (fun b c => ∃ cursor,
    c = { b with ledger := { b.ledger with numbers := { b.ledger.numbers with cursor } } })
    s.buses t.buses

/-- To draw a number and to report something disturbs nothing. -/
theorem Undisturbed.of_sends (h : Sends Nothing s t) : Undisturbed s t := by
  refine ⟨h.requests, h.buses.imp ?_⟩
  rintro b c ⟨cursor, added, rfl, hadded⟩
  obtain rfl : added = [] := List.eq_nil_iff_forall_not_mem.mpr hadded
  refine ⟨cursor, ?_⟩
  rw [Bus.queued, List.append_nil]

/-- A request of the host on its way to the baseboard management controller. -/
def forBmc (m : Message) : Message := { m with infSource := .hostKcs, infTarget := .bmcIpmb }

/-! ### Requests that are not served here -/

/-- What sending a request of the host to the baseboard management controller comes to. -/
def sendForHost (s : Stack) (m : Message) : Stack × Except Fault Unit :=
  match s.busFor .bmcIpmb with
  | none => (s, .error .noBmcBus)
  | some j => s.sendRequest (forBmc m) j

/-- What becomes of a request that the board does not serve. -/
theorem submitFromHost_of_bridged (hserves : s.policy.servesHost m.netFn m.cmd = false) :
    s.submitFromHost m =
      match s.sendForHost m with
      | (t, .ok _) => (t, .ok ())
      | (t, .error fault) =>
        match (t.emit (.hostNotBridged (forBmc m) fault)).writeHost (hostRefusal m) with
        | (u, .ok _) => (u, .error fault)
        | (u, .error hostFault) => (u, .error hostFault) := by
  rw [submitFromHost]
  simp only [hserves, Bool.false_eq_true, if_false]
  cases hj : s.busFor .bmcIpmb with
  | none =>
      simp only [sendForHost, hj]
      rfl
  | some j =>
      have hbridged : ({ m with infSource := .hostKcs, infTarget := .bmcIpmb } : Message) =
          forBmc m := rfl
      simp only [sendForHost, hj, hbridged]
      obtain ⟨t, outcome⟩ := s.sendRequest (forBmc m) j
      cases outcome <;> rfl

/-- **A bus that takes requests takes that of the host**, and the host is told nothing. -/
theorem submitFromHost_of_admits (hserves : s.policy.servesHost m.netFn m.cmd = false)
    (h : s.TakesFromHost) :
    (s.submitFromHost m).2 = .ok () ∧ QueuesForHost m s (s.submitFromHost m).1 := by
  obtain ⟨j, b, hj, hb, hadmits⟩ := h
  obtain ⟨d, hd, husable⟩ := exists_bus_of_busFor hj
  obtain rfl : b = d := Option.some.inj (hb.symm.trans hd)
  obtain ⟨hok, hsent⟩ := sendRequest_of_open (forBmc m) hb husable hadmits
  have hsend : s.sendForHost m = ((s.sendRequest (forBmc m) j).1, .ok ()) := by
    rw [sendForHost, hj]
    exact Prod.ext rfl hok
  rw [submitFromHost_of_bridged hserves, hsend]
  exact ⟨rfl, j, b, _, _, firstServing_of_busFor hj hb, hb,
    ⟨rfl, rfl, rfl, rfl, rfl, rfl, rfl, rfl, rfl⟩, hsent⟩

/-- **A request that cannot be bridged is refused to the host.** -/
theorem submitFromHost_of_fault (hserves : s.policy.servesHost m.netFn m.cmd = false)
    (hkcs : t.kcs = .recorder written) (hsent : s.sendForHost m = (t, .error fault)) :
    s.submitFromHost m =
      ({ t.emit (.hostNotBridged (forBmc m) fault) with
          kcs := .recorder (written ++ [hostRefusal m]) }, .error fault) := by
  have hkcs' : (t.emit (.hostNotBridged (forBmc m) fault)).kcs = .recorder written := hkcs
  rw [submitFromHost_of_bridged hserves, hsent]
  simp only [writeHost, hkcs', KcsSink.write]

/-- A request for a bus whose lock is taken fails at once. -/
theorem sendRequest_of_locked (m : Message) (hb : s.buses[i]? = some b)
    (husable : b.config.isUsable = true) (hlocked : b.isLocked .sendRequest = true) :
    s.sendRequest m i = s.denyLock i .sendRequest := by
  simp only [sendRequest, usableBus_eq hb husable, hlocked, if_true]

/-- Where the bus takes no request, sending fails and leaves nothing but a number drawn. -/
theorem exists_fault_of_not_takes (hroom : s.HasRoomForHost) (h : ¬s.TakesFromHost) (m : Message) :
    ∃ t fault, s.sendForHost m = (t, .error fault) ∧ Sends Nothing s t := by
  rw [sendForHost]
  cases hj : s.busFor .bmcIpmb with
  | none => exact ⟨s, _, rfl, .refl _ s⟩
  | some j =>
      simp only
      obtain ⟨b, hb, husable⟩ := exists_bus_of_busFor hj
      by_cases hlocked : b.isLocked .sendRequest = true
      · exact ⟨_, _, sendRequest_of_locked _ hb husable hlocked, sends_denyLock _ s j _⟩
      · have hfree : b.isLocked .sendRequest = false := eq_false_of_ne_true hlocked
        have hclosed : b.outbound.closed = true := by
          rcases hroom j hj b hb with hclosed | hroom
          · exact hclosed
          · by_contra hopen
            exact h ⟨j, b, hj, hb, hfree, eq_false_of_ne_true hopen, hroom⟩
        obtain ⟨hfault, hnothing⟩ := sendRequest_of_closed (forBmc m) hb husable hfree hclosed
        exact ⟨_, _, Prod.ext rfl hfault, hnothing⟩

/-! ### Requests that are served here -/

/-- **A request that the board serves** touches no bus, and the host is told nothing yet. -/
theorem submitFromHost_of_served (hserves : s.policy.servesHost m.netFn m.cmd = true) :
    s.submitFromHost m = s.notify { m with infSource := .hostKcs } := by
  simp only [submitFromHost, hserves, if_true]

/-- **What the host submits is queued or refused, and never both.** With a recorder for the host and
room on the bus of the baseboard management controller, or that bus closed, a request that the board
does not serve succeeds just where that bus takes requests. It is then the one envelope that is
queued, and the host is sent nothing; or else it fails, no queue and no pending request has changed,
and the host is sent one refusal. A request that the board serves leaves the buses and the host
alone, and is the newest of those that wait for the dispatcher. -/
theorem host_submission_queued_or_refused (m : Message) (hkcs : s.kcs = .recorder written)
    (hroom : s.HasRoomForHost) :
    (s.policy.servesHost m.netFn m.cmd = false →
      ((s.submitFromHost m).2 = .ok () ↔ s.TakesFromHost) ∧
        ((s.submitFromHost m).2 = .ok () ∧ QueuesForHost m s (s.submitFromHost m).1 ∧
            (s.submitFromHost m).1.kcs = .recorder written ∨
          (∃ fault, (s.submitFromHost m).2 = .error fault) ∧
            Undisturbed s (s.submitFromHost m).1 ∧
            (s.submitFromHost m).1.kcs =
              .recorder (written ++ [[(m.netFn ||| 1) <<< 2, m.cmd, 0xCE]]))) ∧
      (s.policy.servesHost m.netFn m.cmd = true →
        (s.submitFromHost m).1.buses = s.buses ∧
          (s.submitFromHost m).1.kcs = .recorder written ∧
          (s.requests.closed = false → 0 < s.requests.capacity →
            (s.submitFromHost m).2 = .ok () ∧
              (s.submitFromHost m).1.requests.items.getLast? =
                some { m with infSource := .hostKcs })) := by
  constructor
  · intro hserves
    by_cases htakes : s.TakesFromHost
    · obtain ⟨hok, hqueued⟩ := submitFromHost_of_admits hserves htakes
      refine ⟨iff_of_true hok htakes, .inl ⟨hok, hqueued, ?_⟩⟩
      obtain ⟨j, b, cursor, e, -, -, -, hreplaces⟩ := hqueued
      rw [hreplaces.kcs, hkcs]
    · obtain ⟨t, fault, hsent, hnothing⟩ := exists_fault_of_not_takes hroom htakes m
      have hsubmit := submitFromHost_of_fault hserves (hnothing.kcs.trans hkcs) hsent
      have hundisturbed : Undisturbed s t := .of_sends hnothing
      rw [hsubmit]
      refine ⟨iff_of_false (by simp) htakes, .inr ⟨⟨fault, rfl⟩, ?_, rfl⟩⟩
      exact ⟨hundisturbed.requests, hundisturbed.buses⟩
  · intro hserves
    rw [submitFromHost_of_served hserves]
    obtain ⟨q, es, hnotify, -⟩ := notify_cases s { m with infSource := .hostKcs }
    rw [hnotify]
    refine ⟨rfl, hkcs, ?_⟩
    intro hopen hcapacity
    obtain ⟨es', hopened⟩ :=
      notify_of_open (s := s) { m with infSource := .hostKcs } hopen hcapacity
    rw [← hnotify, hopened]
    refine ⟨rfl, ?_⟩
    exact List.getLast?_concat ..

/-- A request of the host that the usual board bridges. -/
def hostRequest : Message := { netFn := 0x06, cmd := 0x01, seqSource := 3 }

/-- A request of the host that the usual board serves. -/
def resetRequest : Message := { netFn := NetFn.enterprise, cmd := Cmd.resetBmc }

/-- A request for the baseboard management controller while its bus is open and after that has been
closed, and one that the board serves. -/
theorem host_submission_queued_or_refused_bmc :
    let stack := bmcStack {} .memory
    let closed := stack.onBus 0 Bus.close
    stack.HasRoomForHost ∧ closed.HasRoomForHost ∧
      QueuesForHost hostRequest stack (stack.submitFromHost hostRequest).1 ∧
      Undisturbed closed (closed.submitFromHost hostRequest).1 ∧
      (closed.submitFromHost hostRequest).1.kcs = .recorder [[0x1C, 0x01, 0xCE]] ∧
      (stack.submitFromHost resetRequest).1.requests.items.getLast? =
        some { resetRequest with infSource := .hostKcs } := by
  intro stack closed
  have hstack : stack.HasRoomForHost := by decide
  have hclosed : closed.HasRoomForHost := by decide
  have htakes : stack.TakesFromHost := ⟨0, _, rfl, rfl, rfl, rfl, by decide⟩
  have hbridged : stack.policy.servesHost hostRequest.netFn hostRequest.cmd = false := by decide
  have hserved : stack.policy.servesHost resetRequest.netFn resetRequest.cmd = true := by decide
  obtain ⟨hiff, hqueued⟩ :=
    (host_submission_queued_or_refused hostRequest (s := stack) rfl hstack).1 hbridged
  obtain ⟨-, hrefused⟩ :=
    (host_submission_queued_or_refused hostRequest (s := closed) rfl hclosed).1 hbridged
  obtain ⟨-, -, hnewest⟩ :=
    (host_submission_queued_or_refused resetRequest (s := stack) rfl hstack).2 hserved
  have hfails : (closed.submitFromHost hostRequest).2 = .error .queueClosed := rfl
  rcases hqueued with ⟨-, hqueued, -⟩ | ⟨⟨fault, hfault⟩, -⟩
  · rcases hrefused with ⟨hok, -⟩ | ⟨-, hundisturbed, htold⟩
    · rw [hfails] at hok
      cases hok
    · exact ⟨hstack, hclosed, hqueued, hundisturbed, htold, (hnewest rfl (by decide)).2⟩
  · rw [hiff.mpr htakes] at hfault
    cases hfault

end Stack

end ManagementBus
