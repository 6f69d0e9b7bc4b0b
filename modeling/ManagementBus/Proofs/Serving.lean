import ManagementBus.Proofs.Bridging

/-!
# What the dispatcher sends back

A handler that only answers sets a completion code and data. For every request but one to bridge,
and for every command that does not answer itself, the dispatcher sends back the request with a code
and data in place of its own: those of the handler, without the data beside an error, and for
enterprise commands without the enterprise number on the way in and with it on the way out. What it
sends back is queued on the bus of the channel that the request has come from.

## Main results

* `finalResponse_replied`: which code and which data are sent back of those that are set.
* `serve_of_call`: what serving a request makes of it.
* `dispatch_of_answers`: what is sent back is a call of the handler.
* `dispatch_queues`: it is queued on the bus of the channel of the request.
-/

namespace ManagementBus

open EnvelopeProperty

/-- A handler sets the completion code and replaces the data of what it is given, and leaves the
rest as it is. -/
def Handler.Answers (handler : Handler) : Prop :=
  ∀ m, handler m =
    { m with completionCode := (handler m).completionCode, data := (handler m).data }

namespace Message

/-- A request to bridge: it is not a handler that serves it. -/
def IsBridge (m : Message) : Prop :=
  m.netFn = NetFn.enterprise ∧ m.cmd = Cmd.messageOut ∧ ianaBytes.isPrefixOf m.data.bytes = true

instance (m : Message) : Decidable m.IsBridge := inferInstanceAs (Decidable (_ ∧ _ ∧ _))

/-- The data of an enterprise command do not open with the enterprise number. -/
def LacksIana (m : Message) : Prop :=
  m.netFn = NetFn.enterprise ∧ ianaBytes.isPrefixOf m.data.bytes = false

instance (m : Message) : Decidable m.LacksIana := inferInstanceAs (Decidable (_ ∧ _))

/-- A message that begins with the enterprise number does not lack it. -/
theorem not_lacksIana {m : Message} (h : ianaBytes.isPrefixOf m.data.bytes = true) :
    ¬m.LacksIana := by
  rintro ⟨-, hlacks⟩
  rw [h] at hlacks
  cases hlacks

/-- A request as a handler is given it: with the code that it has to replace, and without the
enterprise number. -/
def presented (m : Message) : Message :=
  { m with
    completionCode := CompletionCode.invalidCommand
    data := if m.netFn = NetFn.enterprise then m.data.drop ianaBytes.length else m.data }

end Message

/-- The code and the data that a caller of the handler gets for a request: an enterprise command has
to open with the enterprise number, and so does a successful answer to it; an answer with another
code than success has no data. -/
def Handler.answer (handler : Handler) (m : Message) : UInt8 × List UInt8 :=
  if m.LacksIana then (CompletionCode.invalidIana, [])
  else
    let n := handler m.presented
    if n.completionCode ≠ CompletionCode.success then (n.completionCode, [])
    else if m.netFn = NetFn.enterprise then (n.completionCode, ianaBytes ++ n.data.bytes)
    else (n.completionCode, n.data.bytes)

/-- What is sent back of a code and data that a handler has set for a request: an error has no data,
and an answer that leaves no room for the enterprise number in front of it is an unspecified error.
-/
def sentBack (netFn code : UInt8) (data : Payload) : UInt8 × Payload :=
  if code ≠ CompletionCode.success then (code, Payload.empty)
  else if netFn ≠ NetFn.enterprise then (CompletionCode.success, data)
  else if h : (ianaBytes ++ data.bytes).length ≤ Payload.maxLength then
    (CompletionCode.success, ⟨ianaBytes ++ data.bytes, h⟩)
  else (CompletionCode.unspecified, Payload.empty)

/-- The code and the data of the response to a request. -/
def Handler.reply (handler : Handler) (m : Message) : UInt8 × Payload :=
  if m.LacksIana then (CompletionCode.invalidIana, Payload.empty)
  else sentBack m.netFn (handler m.presented).completionCode (handler m.presented).data

namespace Message

/-- What the handler sees of a request: nothing, if the enterprise number is missing. -/
def shown (m : Message) : List Message := if m.LacksIana then [] else [m.presented]

/-- A request with the code and the data of its response. -/
def replied (m : Message) (reply : UInt8 × Payload) : Message :=
  { m with completionCode := reply.1, data := reply.2 }

end Message

namespace Stack

variable {s : Stack} {i : Nat} {b : Bus} {handler : Handler} {m : Message}

/-! ### Calling the handler -/

/-- A message is another with a code and data of its own; these are the given ones if they fit. -/
def AnswersWith (m : Message) (answer : UInt8 × List UInt8) (r : Message) : Prop :=
  r = { m with completionCode := r.completionCode, data := r.data } ∧
    (answer.2.length ≤ Payload.maxLength → (r.completionCode, r.data.bytes) = answer)

/-- The response is the call of the handler, as far as it fits. -/
theorem answersWith_replied (handler : Handler) (m : Message) :
    AnswersWith m (handler.answer m) (m.replied (handler.reply m)) := by
  refine ⟨rfl, fun hfits => ?_⟩
  rw [Message.replied, Handler.reply]
  rw [Handler.answer] at hfits ⊢
  by_cases hiana : m.LacksIana
  · rw [if_pos hiana, if_pos hiana]
    rfl
  · rw [if_neg hiana] at hfits
    rw [if_neg hiana, if_neg hiana, sentBack]
    by_cases hcode : (handler m.presented).completionCode = CompletionCode.success
    · by_cases hnetFn : m.netFn = NetFn.enterprise
      · simp only [hcode, hnetFn, ne_eq, not_true_eq_false, if_false, if_true] at hfits ⊢
        rw [dif_pos hfits]
      · simp only [hcode, hnetFn, ne_eq, not_true_eq_false, not_false_eq_true, if_false, if_true]
    · simp only [hcode, ne_eq, not_false_eq_true, if_true]
      rfl

/-- **What is sent back of a request that has been served.** -/
theorem finalResponse_replied (m : Message) (code : UInt8) (data : Payload) :
    finalResponse (m.replied (code, data)) = m.replied (sentBack m.netFn code data) := by
  rw [finalResponse, sentBack]
  by_cases hcode : code = CompletionCode.success
  · subst hcode
    by_cases hnetFn : m.netFn = NetFn.enterprise
    · simp only [Message.replied, hnetFn, ne_eq, not_true_eq_false, if_false, if_true, openWithIana]
      by_cases hfits : (ianaBytes ++ data.bytes).length ≤ Payload.maxLength
      · rw [dif_pos hfits, Payload.ofBytes?, dif_pos hfits]
      · rw [dif_neg hfits, Payload.ofBytes?, dif_neg hfits]
        rfl
    · simp only [Message.replied, hnetFn, ne_eq, not_true_eq_false, not_false_eq_true, if_false,
        if_true]
  · simp only [Message.replied, hcode, ne_eq, not_false_eq_true, if_true]
    rfl

/-- A handler that answers leaves of a request all but the code and the data. -/
theorem presented_of_answers (hhandler : handler.Answers) (m : Message) :
    handler m.presented =
      m.replied ((handler m.presented).completionCode, (handler m.presented).data) := by
  rw [hhandler m.presented]
  rfl

/-- What the dispatcher makes of the answer of a handler is the reply with its code and its data. -/
theorem finalResponse_presented (hhandler : handler.Answers) (hiana : ¬m.LacksIana) :
    finalResponse (handler m.presented) = m.replied (handler.reply m) := by
  rw [presented_of_answers hhandler m, finalResponse_replied, Handler.reply, if_neg hiana]

/-- **Serving a request**, for every request but one to bridge and for every command that does not
answer itself. -/
theorem serve_of_call (hhandler : handler.Answers) (hbridge : ¬m.IsBridge)
    (hitself : s.policy.answersItself m.netFn m.cmd = false) :
    ∃ n, s.serve handler m = (s, n, m.shown) ∧ n.netFn = m.netFn ∧ n.cmd = m.cmd ∧
      finalResponse n = m.replied (handler.reply m) := by
  have hcalled := presented_of_answers hhandler m
  have hsame : (handler m.presented).netFn = m.netFn ∧ (handler m.presented).cmd = m.cmd := by
    rw [hcalled]
    exact ⟨rfl, rfl⟩
  by_cases hnetFn : m.netFn = NetFn.enterprise
  · by_cases hiana : ianaBytes.isPrefixOf m.data.bytes = true
    · have hopens : ¬m.LacksIana := Message.not_lacksIana hiana
      refine ⟨handler m.presented, ?_, hsame.1, hsame.2, finalResponse_presented hhandler hopens⟩
      have hcmd : m.cmd ≠ Cmd.messageOut := fun hcmd => hbridge ⟨hnetFn, hcmd, hiana⟩
      rw [Message.shown, if_neg hopens]
      simp only [serve, serveEnterprise, Message.presented, hnetFn, hiana, hcmd, if_true, if_false]
    · have hlacks : m.LacksIana := ⟨hnetFn, eq_false_of_ne_true hiana⟩
      refine ⟨m.replied (CompletionCode.invalidIana, Payload.empty), ?_, rfl, rfl, ?_⟩
      · rw [Message.shown, if_pos hlacks, serve, if_pos hnetFn, if_neg hiana, if_neg]
        · rfl
        · exact ne_true_of_eq_false hitself
      · rw [Handler.reply, if_pos hlacks]
        rfl
  · have hopens : ¬m.LacksIana := fun h => hnetFn h.1
    refine ⟨handler m.presented, ?_, hsame.1, hsame.2, finalResponse_presented hhandler hopens⟩
    rw [Message.shown, if_neg hopens]
    simp only [serve, Message.presented, hnetFn, if_false]

/-- **What is sent back of a request is a call of the handler**, for every request but one to bridge
and for every command that does not answer itself. -/
theorem dispatch_of_answers (hhandler : handler.Answers) (hbridge : ¬m.IsBridge)
    (hitself : s.policy.answersItself m.netFn m.cmd = false) :
    ∃ es r, (s.dispatch handler m).1 = (s.report es).respond r ∧
      AnswersWith m (handler.answer m) r := by
  obtain ⟨es, hdispatch⟩ := dispatch_eq s handler m
  obtain ⟨n, hserve, hnetFn, hcmd, hfinal⟩ :=
    serve_of_call (s := s.report es) hhandler hbridge hitself
  refine ⟨es, finalResponse n, ?_, hfinal ▸ answersWith_replied handler m⟩
  rw [hdispatch, hserve, conclude, hnetFn, hcmd]
  exact if_neg (ne_true_of_eq_false hitself)

/-! ### Queueing the answer -/

/-- **The answer is queued on the bus of the channel of the request**, unless that is the host. -/
theorem dispatch_queues (hhandler : handler.Answers) (hbridge : ¬m.IsBridge)
    (hitself : s.policy.answersItself m.netFn m.cmd = false) (hhost : m.infSource ≠ .hostKcs)
    (hbus : s.busFor m.infSource = some i) (hb : s.buses[i]? = some b)
    (husable : b.config.isUsable = true) (h : b.Admits .sendResponse) :
    ∃ r, AnswersWith m (handler.answer m) r ∧
      Replaces i (b.queued b.ledger.numbers.cursor [{ msg := b.responseFor r }]) s
        (s.dispatch handler m).1 := by
  obtain ⟨es, r, hdispatch, hanswers⟩ := dispatch_of_answers hhandler hbridge hitself
  refine ⟨r, hanswers, ?_⟩
  have hsource : r.infSource = m.infSource := by rw [hanswers.1]
  have hbus' : (s.report es).busFor m.infSource = some i := hbus
  have hsend := sendResponse_eq (s := s.report es) r hb husable h
  rw [hdispatch]
  simp only [respond, hsource, if_neg hhost, hbus', hsend]
  exact (Replaces.refl (s := s) hb).report es |>.then_onBus hb _

end Stack

end ManagementBus
