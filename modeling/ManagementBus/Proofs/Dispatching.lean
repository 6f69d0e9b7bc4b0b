import ManagementBus.Proofs.Refusing
import ManagementBus.Proofs.Serving

/-!
# One answer to each request

The dispatcher and the bridge both send responses, and a request must not hear from both. Which of
the two answers is decided by the policy: a command that answers itself gets nothing from the
dispatcher, and a request to bridge, which has to be such a command, gets a refusal from the bridge
if it cannot be forwarded. Every other request gets one response, to where it has come from; it is
what `Handler.reply` says of the handler.

An enterprise command without the enterprise number reaches the handler or the bridge only if it
answers itself. It then comes with the code that says so and with its data as they are.

## Main results

* `responds_respond`: where a response goes.
* `dispatch_of_called`: a request that the dispatcher answers.
* `dispatch_of_itself`: a request that answers itself.
* `dispatch_answers_once`: the two together, for every policy and every handler that only answers.
-/

namespace ManagementBus

open EnvelopeProperty

namespace Message

/-- A request as a command that answers itself is given it. -/
def handed (m : Message) : Message :=
  if m.LacksIana then { m with completionCode := CompletionCode.invalidIana } else m.presented

/-- The response to a request, with a code and data. -/
def response (m : Message) (reply : UInt8 × Payload) : Message :=
  { m.replied reply with netFn := m.netFn + 1 }

/-- What a handler is handed differs from the request in the completion code and the data only. -/
theorem handed_eq (m : Message) :
    m.handed = { m with completionCode := m.handed.completionCode, data := m.handed.data } := by
  rw [handed]
  split <;> rfl

end Message

namespace Stack

variable {s t : Stack} {handler : Handler} {m : Message} {reply : UInt8 × Payload}

/-- **A response is sent** to where the request has come from, with a code and data, and nothing
else happens but reports. -/
inductive Responds (m : Message) (reply : UInt8 × Payload) (s t : Stack) : Prop
  /-- One buffer is written to the host. -/
  | host (hsource : m.infSource = .hostKcs) (h : WritesHost (hostBuffer (m.response reply)) s t)
  /-- One envelope is queued on the bus of the channel. -/
  | bus {k : Nat} (hsource : m.infSource ≠ .hostKcs) (hk : s.busFor m.infSource = some k)
      (h : QueuesReply k (m.netFn + 1) m.cmd reply.1 m.seq reply.2.bytes s t)
  /-- There is no way to the host, or no bus of the channel. -/
  | nowhere
      (hsource : m.infSource = .hostKcs ∧ s.kcs = .absent ∨
        m.infSource ≠ .hostKcs ∧ s.busFor m.infSource = none)
      (h : ∃ es, t = s.report es)

/-- A request to bridge has been forwarded without a word to its source, or its source has been told
once why not. -/
def Bridged (m : Message) (s t : Stack) : Prop :=
  s.refusal? m = none ∧ Forwards m s t ∨ ∃ code, s.refusal? m = some code ∧ Refuses m code s t

/-! ### Reports before -/

/-- Two reports are one. -/
theorem report_report (s : Stack) (es fs : List Event) :
    (s.report es).report fs = s.report (es ++ fs) := by
  simp only [report, List.append_assoc]

/-- What has been reported before makes no difference to a write to the host. -/
theorem WritesHost.of_report {buffer : List UInt8} {es : List Event}
    (h : WritesHost buffer (s.report es) t) : WritesHost buffer s t := by
  cases h with
  | recorded hkcs h =>
      obtain ⟨fs, rfl⟩ := h
      exact .recorded hkcs ⟨es ++ fs, by rw [← report_report]; rfl⟩
  | down hkcs h =>
      obtain ⟨fs, rfl⟩ := h
      exact .down hkcs ⟨es ++ fs, report_report s es fs⟩

/-- What has been reported before makes no difference to a response. -/
theorem Responds.of_report {es : List Event} (h : Responds m reply (s.report es) t) :
    Responds m reply s t := by
  cases h with
  | host hsource h => exact .host hsource h.of_report
  | bus hsource hk h => exact .bus hsource hk h
  | nowhere hsource h =>
      obtain ⟨fs, rfl⟩ := h
      exact .nowhere hsource ⟨es ++ fs, report_report s es fs⟩

/-- What has been reported before makes no difference to a bridge. -/
theorem Bridged.of_report {es : List Event} (h : Bridged m (s.report es) t) : Bridged m s t := by
  rcases h with hforwards | ⟨code, hrefusal, u, hu, hreply⟩
  · exact .inl hforwards
  · exact .inr ⟨code, hrefusal, u, ((Sends.refl Nothing s).report es).trans hu, hreply⟩

/-! ### Requests that the dispatcher answers -/

/-- **Where a response goes**: to the host, or to the bus of the channel of the request. -/
theorem responds_respond (hs : s.IsSettled) (hopen : ∀ b ∈ s.buses, b.outbound.closed = false)
    (m : Message) (reply : UInt8 × Payload) :
    Responds m reply s (s.respond (m.replied reply)) := by
  by_cases hsource : m.infSource = .hostKcs
  · have hsource' : (m.replied reply).infSource = .hostKcs := hsource
    rw [respond, if_pos hsource']
    split
    · next hpresent =>
        exact .host hsource (.of_write hpresent (writeHost_eq s (hostBuffer (m.response reply))
          fun fault => .responseFailed .hostKcs .kcs fault))
    · next habsent =>
        have hkcs := KcsSink.eq_absent_of_not_present (eq_false_of_ne_true habsent)
        exact .nowhere (.inl ⟨hsource, hkcs⟩) ⟨_, rfl⟩
  · have hsource' : (m.replied reply).infSource ≠ .hostKcs := hsource
    cases hk : s.busFor m.infSource with
    | none =>
        have hk' : s.busFor (m.replied reply).infSource = none := hk
        simp only [respond, if_neg hsource', hk']
        exact .nowhere (.inr ⟨hsource, hk⟩) ⟨_, rfl⟩
    | some k =>
        have hk' : s.busFor (m.replied reply).infSource = some k := hk
        obtain ⟨d, hd, husable⟩ := exists_bus_of_busFor hk
        have hadmits := (hs.admits hd (hopen d (List.mem_of_getElem? hd))).2
        simp only [respond, if_neg hsource', hk',
          sendResponse_eq (m.replied reply) hd husable hadmits]
        exact .bus hsource hk (queuesReply_onBus (m := m.replied reply) hd)

/-- **A request that the dispatcher answers** is shown to the handler, unless the enterprise number
is missing, and gets one response. -/
theorem dispatch_of_called (hhandler : handler.Answers) (hs : s.IsSettled)
    (hopen : ∀ b ∈ s.buses, b.outbound.closed = false) (hbridge : ¬m.IsBridge)
    (hitself : s.policy.answersItself m.netFn m.cmd = false) :
    (s.dispatch handler m).2 = m.shown ∧
      Responds m (handler.reply m) s (s.dispatch handler m).1 := by
  obtain ⟨es, hdispatch⟩ := dispatch_eq_conclude s handler m
  obtain ⟨n, hserve, hnetFn, hcmd, hfinal⟩ :=
    serve_of_call (s := s.report es) hhandler hbridge hitself
  have hconclude : conclude (s.report es, n, m.shown) =
      (s.report es).respond (m.replied (handler.reply m)) := by
    rw [conclude, hnetFn, hcmd, hfinal]
    exact if_neg (ne_true_of_eq_false hitself)
  rw [hdispatch, hserve, hconclude]
  exact ⟨rfl, (responds_respond (s := s.report es) hs hopen m _).of_report⟩

/-! ### Requests that answer themselves -/

/-- Serving a command that answers itself: it goes to the bridge or to the handler, with or without
the enterprise number. -/
theorem serve_of_itself (handler : Handler)
    (hitself : s.policy.answersItself m.netFn m.cmd = true) :
    s.serve handler m =
      if m.netFn = NetFn.enterprise ∧ m.cmd = Cmd.messageOut then
        ((s.messageOut m.handed).1, (s.messageOut m.handed).2, [])
      else (s, handler m.handed, [m.handed]) := by
  by_cases hnetFn : m.netFn = NetFn.enterprise
  · by_cases hiana : ianaBytes.isPrefixOf m.data.bytes = true
    · have hopens : ¬m.LacksIana := Message.not_lacksIana hiana
      simp only [serve, serveEnterprise, Message.handed, Message.presented, hopens, hnetFn, hiana,
        true_and, if_true, if_false]
    · have hlacks : m.LacksIana := ⟨hnetFn, eq_false_of_ne_true hiana⟩
      rw [hnetFn] at hitself
      simp only [serve, serveEnterprise, Message.handed, hlacks, hnetFn, hiana, hitself, true_and,
        if_true, if_false, Bool.false_eq_true]
  · have hopens : ¬m.LacksIana := fun h => hnetFn h.1
    simp only [serve, Message.handed, Message.presented, hopens, hnetFn, false_and, if_false]

/-- A request to bridge is forwarded or refused; it stays the same command. -/
theorem bridged_messageOut (hs : s.IsSettled) (m : Message) :
    Bridged m s (s.messageOut m).1 ∧ (s.messageOut m).2.netFn = m.netFn ∧
      (s.messageOut m).2.cmd = m.cmd := by
  rcases messageOut_cases hs m with ⟨hrefusal, hmessage, hforwards⟩ |
    ⟨code, u, hrefusal, -, hnothing, hmessage⟩
  · rw [hmessage]
    exact ⟨.inl ⟨hrefusal, hforwards⟩, rfl, rfl⟩
  · rw [hmessage]
    exact ⟨.inr ⟨code, hrefusal, refuses_refuseBridge hs hnothing m code⟩, rfl, rfl⟩

/-- **A request that answers itself** gets nothing from the dispatcher: what is bridged is forwarded
or refused, and of anything else the handler is all that happens. -/
theorem dispatch_of_itself (hhandler : handler.Answers) (hs : s.IsSettled)
    (hitself : s.policy.answersItself m.netFn m.cmd = true) :
    if m.netFn = NetFn.enterprise ∧ m.cmd = Cmd.messageOut then
      (s.dispatch handler m).2 = [] ∧ Bridged m.handed s (s.dispatch handler m).1
    else
      (s.dispatch handler m).2 = [m.handed] ∧ ∃ es, (s.dispatch handler m).1 = s.report es := by
  obtain ⟨es, hdispatch⟩ := dispatch_eq_conclude s handler m
  have hserve := serve_of_itself (s := s.report es) handler hitself
  have hsame : m.handed.netFn = m.netFn ∧ m.handed.cmd = m.cmd := by
    rw [m.handed_eq]
    exact ⟨rfl, rfl⟩
  rw [hdispatch, hserve]
  split
  · next h =>
      obtain ⟨hbridged, hnetFn, hcmd⟩ := bridged_messageOut (s := s.report es) hs m.handed
      have hrequest : m.handed.isResponse = false :=
        Message.isResponse_of_enterprise (hsame.1.trans h.1)
      have hpolicy := (sends_messageOut (s.report es) hrequest).policy
      refine ⟨rfl, ?_⟩
      rw [conclude, hpolicy, hnetFn, hcmd, hsame.1, hsame.2, if_pos]
      · exact hbridged.of_report
      · exact hitself
  · have hcalled : (handler m.handed).netFn = m.netFn ∧ (handler m.handed).cmd = m.cmd := by
      rw [hhandler m.handed]
      exact hsame
    refine ⟨rfl, es, ?_⟩
    rw [conclude, hcalled.1, hcalled.2]
    exact if_pos hitself

/-- **A request is answered once.** Where nobody waits in order to send and every queue is open, and
requests to bridge answer themselves, a command that answers itself gets nothing from the
dispatcher, so that a request to bridge gets no response but a refusal of the bridge; and any other
request gets one response, with the code and the data of which the handler has the say. -/
theorem dispatch_answers_once (hhandler : handler.Answers)
    (hbridge : s.policy.answersItself NetFn.enterprise Cmd.messageOut = true) (hs : s.IsSettled)
    (hopen : ∀ b ∈ s.buses, b.outbound.closed = false) (m : Message) :
    (s.policy.answersItself m.netFn m.cmd = false →
        (s.dispatch handler m).2 = m.shown ∧
          Responds m (handler.reply m) s (s.dispatch handler m).1) ∧
      (s.policy.answersItself m.netFn m.cmd = true →
        if m.netFn = NetFn.enterprise ∧ m.cmd = Cmd.messageOut then
          (s.dispatch handler m).2 = [] ∧ Bridged m.handed s (s.dispatch handler m).1
        else
          (s.dispatch handler m).2 = [m.handed] ∧
            ∃ es, (s.dispatch handler m).1 = s.report es) := by
  refine ⟨fun hitself => ?_, fun hitself => dispatch_of_itself hhandler hs hitself⟩
  have hcalled : ¬m.IsBridge := by
    rintro ⟨hnetFn, hcmd, -⟩
    rw [hnetFn, hcmd, hbridge] at hitself
    cases hitself
  exact dispatch_of_called hhandler hs hopen hcalled hitself

/-- Data that leave no room for the enterprise number. -/
def fullData : Payload :=
  ⟨List.replicate Payload.maxLength 0, Nat.le_of_eq List.length_replicate⟩

/-- A handler that always answers with such data. -/
def verbose : Handler := fun m =>
  { m with completionCode := CompletionCode.success, data := fullData }

/-- An enterprise command of the other controller. -/
def enterpriseRequest : Message where
  netFn := NetFn.enterprise
  cmd := Cmd.firmwareUpdate
  seq := 5
  data := ⟨ianaBytes ++ [0x01], by decide⟩
  infSource := .bmcIpmb

/-- Such an answer is sent back as an error without data; the handler has not seen the enterprise
number. -/
theorem dispatch_answers_once_verbose :
    let stack := pairStack bmcRow expanderRow {}
    Handler.Answers verbose ∧
      stack.policy.answersItself NetFn.enterprise Cmd.messageOut = true ∧ stack.IsSettled ∧
      (∀ b ∈ stack.buses, b.outbound.closed = false) ∧
      (stack.dispatch verbose enterpriseRequest).2 =
        [{ enterpriseRequest with
            completionCode := CompletionCode.invalidCommand, data := ⟨[0x01], by decide⟩ }] ∧
      QueuesReply 0 0x39 Cmd.firmwareUpdate CompletionCode.unspecified 5 [] stack
        (stack.dispatch verbose enterpriseRequest).1 := by
  intro stack
  have hhandler : Handler.Answers verbose := fun _ => rfl
  have hbridge : stack.policy.answersItself NetFn.enterprise Cmd.messageOut = true := by decide
  have hstack : stack.IsSettled := by decide
  have hopen : ∀ b ∈ stack.buses, b.outbound.closed = false := by decide
  have hreply : Handler.reply verbose enterpriseRequest =
      (CompletionCode.unspecified, Payload.empty) := by
    have hlong : ¬(ianaBytes ++ fullData.bytes).length ≤ Payload.maxLength := by
      rw [fullData, List.length_append, List.length_replicate]
      decide
    have hanswer : sentBack NetFn.enterprise CompletionCode.success fullData =
        (CompletionCode.unspecified, Payload.empty) := by
      rw [sentBack, if_neg (by decide), if_neg (by decide), dif_neg hlong]
    rw [Handler.reply, if_neg (by decide)]
    exact hanswer
  obtain ⟨hseen, hresponds⟩ :=
    (dispatch_answers_once hhandler hbridge hstack hopen enterpriseRequest).1 (by decide)
  rw [hreply] at hresponds
  refine ⟨hhandler, hbridge, hstack, hopen, hseen, ?_⟩
  cases hresponds with
  | host hsource => exact absurd hsource (by decide)
  | bus hsource hk h =>
      obtain rfl : _ = 0 := Option.some.inj (hk.symm.trans (by decide))
      exact h
  | nowhere hsource => exact absurd hsource (by decide)

end Stack

end ManagementBus
