import ManagementBus.Proofs.Sending

/-!
# What is queued on behalf of others

The stack queues messages of its own accord: a response that is relayed to the bus that asked for
it, a request of the management engine that is bridged, a report that a request could not be
delivered. This module says of each such operation what it queues. It is a response, or a request
from a known channel under a number that was free; and no more than that happens.

Which of the two it is depends on the direction of the message served, since a response is made by
taking the next network function.

## Main results

* `isResponse_responseFor`: what goes out for a request is a response, and the other way round.
* `answerMe_outcome`, `sends_answerBridge`, `bridgeMeRequest_outcome`: what receiving queues.
* `forward_outcome`, `sends_messageOut`: what dispatching queues.
* `reportFailure_outcome`: what a failed delivery queues.
-/

namespace ManagementBus

/-! ### Directions -/

/-- Whether a message is a response is the lowest bit of its function. -/
theorem Message.isResponse_eq (m : Message) : m.isResponse = decide (m.netFn.toNat % 2 = 1) := by
  have hbit : (m.netFn &&& 1).toNat = m.netFn.toNat % 2 := by
    rw [UInt8.toNat_and]
    exact Nat.and_one_is_mod _
  have hlt := Nat.mod_lt m.netFn.toNat (show 0 < 2 by decide)
  rw [isResponse, bne, Bool.eq_iff_iff]
  simp only [Bool.not_eq_true', beq_eq_false_iff_ne, ne_eq, decide_eq_true_eq]
  rw [← UInt8.toNat_inj, hbit]
  simp only [UInt8.toNat_ofNat]
  omega

/-- An enterprise command is a request. -/
theorem Message.isResponse_of_enterprise {m : Message} (h : m.netFn = NetFn.enterprise) :
    m.isResponse = false := by
  rw [isResponse, h]
  rfl

/-- The next network function has the other direction. -/
theorem Message.isResponse_of_netFn_eq_add_one {m r : Message} (h : r.netFn = m.netFn + 1) :
    r.isResponse = !m.isResponse := by
  have hsucc : r.netFn.toNat = (m.netFn.toNat + 1) % 256 := by
    rw [h]
    exact UInt8.toNat_add _ _
  rw [isResponse_eq, isResponse_eq, Bool.eq_iff_iff]
  simp only [hsucc, Bool.not_eq_true', decide_eq_true_eq, decide_eq_false_iff_not]
  omega

/-- **The response to a request is a response, and that to a response a request.** -/
theorem Bus.isResponse_responseFor (b : Bus) (m : Message) :
    (b.responseFor m).isResponse = !m.isResponse :=
  Message.isResponse_of_netFn_eq_add_one rfl

namespace EnvelopeProperty

/-- A response that has not been tried yet. -/
def Reply : EnvelopeProperty := fun _ e =>
  e.retries = 0 ∧ e.msg.isResponse = true

/-- A reply, or a request from a channel that has not been tried yet and whose number is free if
any is. -/
def From (c : Channel) : EnvelopeProperty := fun busy e =>
  e.retries = 0 ∧ (e.msg.isResponse = true ∨
    e.msg.infSource = c ∧ ∃ n : SequenceNumber, e.msg.seq = n.toByte ∧
      (HasFree busy → busy.getLsbD n = false))

/-- A reply counts as coming from any channel. -/
theorem Reply.from {busy : BitVec 64} {e : Envelope} (c : Channel) (h : Reply busy e) :
    From c busy e :=
  ⟨h.1, .inl h.2⟩

/-- The request made of a message comes from the channel of the message. -/
theorem From.of_requestOf {busy : BitVec 64} {e : Envelope} {m : Message}
    (h : requestOf m busy e) : From m.infSource busy e := by
  obtain ⟨b, n, rfl, hfree⟩ := h
  exact ⟨rfl, .inr ⟨rfl, n, rfl, hfree⟩⟩

/-- The response to a request is a reply. -/
theorem Reply.of_responseTo {busy : BitVec 64} {e : Envelope} {m : Message}
    (hm : m.isResponse = false) (h : responseTo m busy e) : Reply busy e := by
  obtain ⟨b, rfl⟩ := h
  refine ⟨rfl, ?_⟩
  rw [Bus.isResponse_responseFor, hm]
  rfl

end EnvelopeProperty

namespace Stack

open EnvelopeProperty

variable {s t : Stack} {m : Message}

/-- What follows an answer to a request makes no difference but to the journal. -/
theorem sends_sendResponse (s : Stack) (i : Nat) (hm : m.isResponse = false) :
    Sends Reply s (s.sendResponse m i).1 :=
  (sendResponse_outcome s m i).sends.mono fun _ _ => Reply.of_responseTo hm

/-- What is reported of a send that has failed makes no difference. -/
theorem Sends.orEmit {P : EnvelopeProperty} {r : Stack × Except Fault Unit}
    {f : Fault → Event} : Sends P s r.1 →
      Sends P s (match r with | (t, .ok _) => t | (t, .error fault) => t.emit (f fault)) := by
  intro h
  obtain ⟨t, outcome⟩ := r
  cases outcome with
  | ok _ => exact h
  | error fault => exact h.emit (f fault)

/-! ### Responses that are relayed -/

/-- What goes to the management engine is the response under the number that it knows. -/
theorem answerMe_outcome (s : Stack) (i : Nat) (m : Message) :
    Sends (responseTo { m with netFn := m.netFn - 1, seq := m.seqSource }) s (s.answerMe i m) := by
  rw [answerMe]
  split
  · exact (Sends.refl _ s).emit _
  · next me _ => exact (sendResponse_outcome s _ me).sends.orEmit (f := fun _ => _)

/-- A response to the management engine is passed on as a reply, if at all. -/
theorem sends_answerMe (s : Stack) (i : Nat) (hm : m.isResponse = true) :
    Sends Reply s (s.answerMe i m) := by
  have hrequest : Message.isResponse { m with netFn := m.netFn - 1, seq := m.seqSource } =
      false := by
    have h := Message.isResponse_of_netFn_eq_add_one (r := m)
      (m := { m with netFn := m.netFn - 1, seq := m.seqSource }) (by simp)
    rw [hm] at h
    simpa using h.symm
  exact (answerMe_outcome s i m).mono fun _ _ => Reply.of_responseTo hrequest

/-- A response to a bridged request is passed on as a wrapped reply, if at all. -/
theorem sends_answerBridge (s : Stack) (i : Nat) (channel : Channel) (m : Message) :
    Sends Reply s (s.answerBridge i channel m) := by
  rw [answerBridge]
  split
  · exact (Sends.refl _ s).emit _
  · split
    · exact (Sends.refl _ s).emit _
    · refine Sends.orEmit (f := fun _ => _) (sends_sendResponse s _ ?_)
      exact Message.isResponse_of_enterprise rfl

/-! ### Requests that are bridged -/

/-- The request as which a request of the management engine is bridged. -/
def bridged (m : Message) : Message :=
  { m with seqSource := m.seq, infSource := .meIpmb, infTarget := .bmcIpmb }

/-- A request of the management engine with the code that tells it that nothing has been bridged. -/
def notBridged (m : Message) : Message :=
  { m.clearData with completionCode := CompletionCode.timeout }

/-- The request as which a request is bridged, or the response that it has not been. -/
def BridgedOrNot (m : Message) : EnvelopeProperty := fun busy e =>
  requestOf (bridged m) busy e ∨ responseTo (notBridged m) busy e

/-- A request of the management engine is bridged, or answered with a timeout. -/
theorem bridgeMeRequest_outcome (s : Stack) (i : Nat) (m : Message) :
    Sends (BridgedOrNot m) s (s.bridgeMeRequest i m) := by
  have hreply : ∀ t : Stack, Sends (BridgedOrNot m) s t →
      Sends (BridgedOrNot m) s
        (match (t.emit (.frameDropped i .meRequestNotBridged)).sendResponse (notBridged m) i with
          | (u, .ok _) => u
          | (u, .error _) => u.emit (.frameDropped i .meTimeoutNotQueued)) := by
    intro t ht
    refine (ht.emit (.frameDropped i .meRequestNotBridged)).trans ?_
    have hanswer := (sendResponse_outcome (t.emit (.frameDropped i .meRequestNotBridged))
      (notBridged m) i).sends
    exact Sends.orEmit (f := fun _ => _) (hanswer.mono fun _ _ h => .inr h)
  cases hbmc : s.busFor .bmcIpmb with
  | none =>
      simp only [bridgeMeRequest, hbmc]
      exact hreply s (Sends.refl _ s)
  | some bmc =>
      have hsend : Sends (BridgedOrNot m) s (s.sendRequest (bridged m) bmc).1 :=
        (sendRequest_outcome s (bridged m) bmc).sends.mono fun _ _ h => .inl h
      simp only [bridgeMeRequest, hbmc]
      split
      · exact hsend
      · exact hreply _ hsend

/-- A request of the management engine is bridged or refused. -/
theorem sends_bridgeMeRequest (s : Stack) (i : Nat) (hm : m.isResponse = false) :
    Sends (From .meIpmb) s (s.bridgeMeRequest i m) := by
  refine (bridgeMeRequest_outcome s i m).mono ?_
  rintro busy e (h | h)
  · exact From.of_requestOf h
  · exact (Reply.of_responseTo (m := notBridged m) hm h).from .meIpmb

/-- What a request to bridge carries goes out from the channel of the request, and only then is the
code that of a success. -/
theorem forward_outcome (s : Stack) (m : Message) :
    ((s.forward m).2 = CompletionCode.success ∧
        ∃ i, SendsOne i (From m.infSource) s (s.forward m).1) ∨
      ((s.forward m).2 ≠ CompletionCode.success ∧ Sends Nothing s (s.forward m).1) := by
  rw [forward]
  split
  · next target function cmd rest hbytes =>
      simp only
      split
      · exact .inr ⟨show CompletionCode.notSupportedInState ≠ CompletionCode.success by decide,
          (Sends.refl _ s).emit _⟩
      · next i _ =>
          have hsend := sendRequest_outcome s
            { netFn := function >>> 2, cmd, data := m.data.drop 3, seqSource := m.seqSource
              infSource := m.infSource, infTarget := ⟨target⟩ } i
          split
          · next t _ heq =>
              rw [heq] at hsend
              rcases hsend with ⟨-, hone⟩ | ⟨⟨fault, hfault⟩, -⟩
              · exact .inl ⟨rfl, i, hone.mono fun _ _ => From.of_requestOf⟩
              · cases hfault
          · next t fault heq =>
              rw [heq] at hsend
              rcases hsend with ⟨hok, -⟩ | ⟨-, hnone⟩
              · cases hok
              · exact .inr ⟨show CompletionCode.bridgeError ≠ CompletionCode.success by decide,
                hnone.emit _⟩
  · exact .inr ⟨show CompletionCode.invalidLength ≠ CompletionCode.success by decide,
      Sends.refl _ s⟩

/-- A refusal of the bridge is a reply. -/
theorem sends_refuseBridge (s : Stack) (hm : m.isResponse = false) :
    Sends Reply s (s.refuseBridge m) := by
  cases hbus : s.busFor m.infSource with
  | none =>
      simp only [refuseBridge, hbus]
      exact (Sends.refl _ s).emit _
  | some i =>
      have hsend := sends_sendResponse s i hm
      simp only [refuseBridge, hbus]
      split
      · exact hsend
      · exact hsend.emit _

/-- What bridging comes to: the request inside goes out, or a refusal does. -/
theorem messageOut_outcome (s : Stack) (hm : m.isResponse = false) :
    ((s.messageOut m).2 = { m with completionCode := CompletionCode.success } ∧
        ∃ i, SendsOne i (From m.infSource) s (s.messageOut m).1) ∨
      ((∃ code, (s.messageOut m).2 = { m.clearData with completionCode := code }) ∧
        Sends Reply s (s.messageOut m).1) := by
  have hrefuse : ∀ (t : Stack) (code : UInt8), Sends Nothing s t →
      Sends Reply s (t.refuseBridge { m.clearData with completionCode := code }) := by
    intro t code ht
    have hnothing : Sends Reply s t := ht.mono fun _ _ hfalse => hfalse.elim
    exact hnothing.trans (sends_refuseBridge t hm)
  rw [messageOut]
  by_cases hiana : m.completionCode = CompletionCode.invalidIana
  · have hcode : m.completionCode ≠ CompletionCode.success := by
      rw [hiana]
      decide
    simp only [hiana, if_true] at hcode ⊢
    rw [if_neg hcode]
    exact .inr ⟨⟨_, rfl⟩, hrefuse s _ (Sends.refl _ s)⟩
  · simp only [hiana, if_false]
    rcases forward_outcome s m with ⟨hcode, i, hone⟩ | ⟨hcode, hnone⟩
    · rw [if_pos hcode]
      exact .inl ⟨by rw [hcode], i, hone⟩
    · rw [if_neg hcode]
      exact .inr ⟨⟨_, rfl⟩, hrefuse _ _ hnone⟩

/-- What is bridged comes from the channel of the request, and a refusal is a reply. -/
theorem sends_messageOut (s : Stack) (hm : m.isResponse = false) :
    Sends (From m.infSource) s (s.messageOut m).1 := by
  rcases messageOut_outcome s hm with ⟨-, i, hone⟩ | ⟨-, hreply⟩
  · exact hone.sends
  · exact hreply.mono fun _ _ h => h.from _

/-! ### Reports of failed deliveries -/

/-- A report to anyone but the host. -/
theorem reportFailure_outcome (s : Stack) (hsource : m.infSource ≠ .hostKcs) :
    Sends (responseTo (nodeBusyReport m)) s (s.reportFailure m) := by
  rw [reportFailure]
  simp only [hsource, if_false]
  split
  · exact (Sends.refl _ s).emit _
  · split
    · exact (Sends.refl _ s).emit _
    · split
      · exact (Sends.refl _ s).emit _
      · next target _ =>
          exact Sends.orEmit (f := fun fault => _)
            (trySendResponse_outcome s (nodeBusyReport m) target).sends

/-- A report that a request could not be delivered, to anyone but the host, is a reply. -/
theorem sends_reportFailure (s : Stack) (hsource : m.infSource ≠ .hostKcs) :
    Sends Reply s (s.reportFailure m) :=
  (reportFailure_outcome s hsource).mono fun _ _ =>
    Reply.of_responseTo (Message.isResponse_of_enterprise rfl)

end Stack

end ManagementBus
