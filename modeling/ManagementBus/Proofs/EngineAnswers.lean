import ManagementBus.Proofs.Building
import ManagementBus.Proofs.Following

/-!
# Answers to the management engine

A request of the management engine that the board does not serve is bridged to the baseboard
management controller. Three things can be queued for the engine because of it: a refusal when it
cannot be bridged, the response of the controller, and a report when it could not be delivered. The
engine knows an answer by its function, its command and its number.

A refusal and a response have them from the request. A report has the number only. It is the answer
to a request to bridge, whatever has been asked; that suits a request that has been carried by one,
and a request of the engine has not.

## Main results

* `Message.CorrelatesWith`: how the originator of a request knows the answer.
* `perform_receive_of_engine`: what a request of the engine queues.
* `correlates_of_relays`: what the response of the controller queues.
* `engine_answers_correlate`: refusals and responses correlate in every run, and reports do not.
-/

namespace ManagementBus

open EnvelopeProperty

namespace Message

/-- An answer as the originator of a request knows it. -/
structure CorrelatesWith (r m : Message) : Prop where
  netFn : r.netFn = m.netFn + 1
  cmd : r.cmd = m.cmd
  seq : r.seq = m.seq

/-- An answer correlates in three fields. -/
theorem correlatesWith_iff {r m : Message} :
    r.CorrelatesWith m ↔ r.netFn = m.netFn + 1 ∧ r.cmd = m.cmd ∧ r.seq = m.seq :=
  ⟨fun h => ⟨h.netFn, h.cmd, h.seq⟩, fun h => ⟨h.1, h.2.1, h.2.2⟩⟩

instance (r m : Message) : Decidable (r.CorrelatesWith m) :=
  decidable_of_iff' _ correlatesWith_iff

/-- A report that a request to bridge under a number could not be delivered. -/
structure ReportsBusy (r : Message) (number : UInt8) : Prop where
  netFn : r.netFn = NetFn.enterprise + 1
  cmd : r.cmd = Cmd.messageOut
  completionCode : r.completionCode = CompletionCode.nodeBusy
  data : r.data = Payload.empty
  seq : r.seq = number

/-- A request has been made of another one, which has come from the management engine. -/
structure BridgedFrom (p m : Message) : Prop where
  netFn : p.netFn = m.netFn
  cmd : p.cmd = m.cmd
  number : p.seqSource = m.seq
  source : p.infSource = .meIpmb

variable {r p m : Message}

/-- A report of failure names the number by which the engine knows its request. -/
theorem BridgedFrom.reportsBusy (h : p.BridgedFrom m) (b : Bus) :
    (b.responseFor (Stack.nodeBusyReport p)).ReportsBusy m.seq :=
  ⟨rfl, rfl, rfl, rfl, h.number⟩

/-- A report correlates just with a request to bridge. -/
theorem ReportsBusy.correlatesWith_iff (h : r.ReportsBusy m.seq) :
    r.CorrelatesWith m ↔ m.netFn = NetFn.enterprise ∧ m.cmd = Cmd.messageOut := by
  rw [Message.correlatesWith_iff, h.netFn, h.cmd, h.seq, UInt8.add_left_inj]
  constructor
  · rintro ⟨hnetFn, hcmd, -⟩
    exact ⟨hnetFn.symm, hcmd.symm⟩
  · rintro ⟨hnetFn, hcmd⟩
    exact ⟨hnetFn.symm, hcmd.symm, rfl⟩

/-- What is bridged has the direction of the request. -/
theorem BridgedFrom.isResponse_eq (h : p.BridgedFrom m) : p.isResponse = m.isResponse := by
  rw [isResponse, isResponse, h.netFn]

/-- That a request has been made of another one does not depend on when and under which number it is
recorded. -/
theorem enduring_bridgedFrom (hm : m.isResponse = false) :
    Trail.Enduring fun p => p.BridgedFrom m where
  request := fun p hp => hp.isResponse_eq.trans hm
  source := by
    intro p hp
    rw [hp.source]
    decide
  recorded := fun p number tick hp => ⟨hp.netFn, hp.cmd, hp.number, hp.source⟩

end Message

namespace Stack

variable {s t : Stack} {i j : Nat} {b : Bus} {m entry : Message}

/-- The response of the controller is relayed to the engine as the answer to its request. -/
theorem correlates_of_relays (h : Relays j entry s t) (hentry : entry.BridgedFrom m) (i : Nat) :
    ∀ r ∈ Trail.responsesOf (s.queuedOn t i), r.CorrelatesWith m := by
  obtain @⟨b, c, answer, u, hb, -, -, hpending, hreplaces, -, houtbound, -, ht⟩ := h
  obtain ⟨hnetFn, hcmd, -⟩ := Message.answers_iff.mp (List.find?_some hpending)
  have hengine : (answer.answering entry).infSource = .meIpmb := hentry.source
  have hself : (Channel.meIpmb : Channel) ≠ .self := by decide
  have hhost : (Channel.meIpmb : Channel) ≠ .hostKcs := by decide
  rw [deliverResponse, hengine, if_neg hself, if_neg hhost, if_pos rfl] at ht
  intro r hr
  obtain ⟨⟨f, hf, rfl⟩, -⟩ := Trail.mem_responsesOf.mp hr
  rw [← queuedOn_congr (hreplaces.waitingOn_of_eq hb houtbound i), ht] at hf
  obtain ⟨-, b', rfl⟩ := (answerMe_outcome u j _).queuedOn i f hf
  refine ⟨?_, ?_, hentry.number⟩
  · rw [← hentry.netFn, hnetFn]
    rfl
  · rw [← hentry.cmd, hcmd]
    rfl

end Stack

namespace Scheduler

open Stack

variable {s : Scheduler} {i j : Nat} {m : Message}

/-- **A request of the management engine** that is not served here queues the request as which it
is bridged, or the answer that it has not been. -/
theorem perform_receive_of_engine (hengine : s.stack.ServedOnlyBy .meIpmb i)
    (hheard : s.stack.heard? i = some m) (hrequest : m.isResponse = false)
    (hlocal : s.stack.policy.servesMe m.netFn m.cmd = false) (k : Nat) :
    ∀ e ∈ s.stack.queuedOn (s.perform (.receive i)).stack k,
      e.msg.BridgedFrom m ∨ e.msg.CorrelatesWith m := by
  obtain ⟨b, link, u, hb, hread, hroute⟩ := receive_of_heard hheard
  obtain ⟨-, hchannel⟩ := hengine.config hb
  have hbridges :
      (decide (b.config.channel = .meIpmb) && !u.policy.servesMe m.netFn m.cmd) = true := by
    rw [hchannel, hread.policy, hlocal]
    rfl
  have hreceive : (s.perform (.receive i)).stack = u.bridgeMeRequest i m := by
    rw [hrequest, if_neg Bool.false_ne_true] at hroute
    exact hroute.trans (if_pos hbridges)
  intro e he
  rw [hreceive, ← queuedOn_congr (hread.waitingOn_of_eq hb rfl k)] at he
  obtain ⟨busy, ⟨c, n, rfl, -⟩ | ⟨c, rfl⟩⟩ := (bridgeMeRequest_outcome u i m).queuedOn k e he
  · exact .inl ⟨rfl, rfl, rfl, rfl⟩
  · exact .inr ⟨rfl, rfl, rfl⟩

end Scheduler

/-! ### In every run -/

namespace Trail

variable {x : Trail} {s : Scheduler} {a : Action} {as : List Action} {i j : Nat} {m : Message}

/-- The trail of a request of the management engine: what is on it has been made of that request,
and what has been answered correlates with it. -/
structure OfEngine (m : Message) (x : Trail) : Prop where
  keeps : x.Keeps fun p => p.BridgedFrom m
  answers : ∀ r ∈ x.answers, r.CorrelatesWith m

/-- The trail of a request of the engine at its start. -/
theorem ofEngine_start {t : Stack} (hm : m.isResponse = false)
    (h : ∀ k, ∀ e ∈ s.stack.queuedOn t k, e.msg.BridgedFrom m ∨ e.msg.CorrelatesWith m) :
    (start i j s.stack t).OfEngine m where
  keeps := by
    refine keeps_start fun e he hrequest => ?_
    rcases h j e he with hbridged | hcorrelates
    · exact hbridged
    · rw [Message.isResponse_of_netFn_eq_add_one hcorrelates.netFn, hm] at hrequest
      cases hrequest
  answers := by
    intro r hr
    obtain ⟨⟨e, he, rfl⟩, hresponse⟩ := mem_responsesOf.mp hr
    rcases h i e he with hbridged | hcorrelates
    · rw [hbridged.isResponse_eq, hm] at hresponse
      cases hresponse
    · exact hcorrelates

/-- An action keeps the trail one of that request. -/
theorem OfEngine.step (hm : m.isResponse = false) (hx : x.OfEngine m) :
    (x.step i j s.stack a (s.perform a).stack).OfEngine m where
  keeps := hx.keeps.step (Message.enduring_bridgedFrom hm)
  answers := by
    rcases x.step_cases i j s.stack a (s.perform a).stack with h | ⟨e, -, -, h⟩ | ⟨e, -, -, h⟩ |
      ⟨entry, hentry, hhears, h⟩
    · rw [h]
      exact hx.answers
    · rw [h]
      exact hx.answers
    · rw [h]
      exact hx.answers
    · rw [h]
      intro r hr
      rcases List.mem_append.mp hr with hr | hr
      · exact hx.answers r hr
      · have hbridged := (hx.keeps.records entry hentry).1
        exact Stack.correlates_of_relays (Scheduler.perform_of_hears hhears) hbridged i r hr

/-- A run keeps the trail one of that request. -/
theorem OfEngine.along (hm : m.isResponse = false) (hx : x.OfEngine m) :
    (x.along i j s as).OfEngine m :=
  along_induction (Q := OfEngine m) (fun _ _ _ hy => hy.step hm) hx

/-- Every report on the trail says that the request could not be delivered. -/
theorem OfEngine.reportsBusy (hx : x.OfEngine m) : ∀ r ∈ x.reports, r.ReportsBusy m.seq := by
  intro r hr
  obtain ⟨b, p, hp, rfl⟩ := hx.keeps.reports r hr
  exact hp.reportsBusy b

end Trail

namespace Scheduler

variable {s : Scheduler} {i j : Nat} {m : Message}

/-- **Answers to the management engine correlate, but for reports.** In every run that follows a
request of the engine, refusals and responses of the controller have its function, its command and
its number. Reports that it could not be delivered have its number, and are answers to a request to
bridge. So everything that is queued for the engine because of the request correlates just where
nothing is reported, or the request is one to bridge. -/
theorem engine_answers_correlate (hengine : s.stack.ServedOnlyBy .meIpmb i)
    (hheard : s.stack.heard? i = some m) (hrequest : m.isResponse = false)
    (hlocal : s.stack.policy.servesMe m.netFn m.cmd = false) (j : Nat) (as : List Action) :
    let t := s.perform (.receive i)
    let x := (Trail.start i j s.stack t.stack).along i j t as
    (∀ r ∈ x.answers, r.CorrelatesWith m) ∧ (∀ r ∈ x.reports, r.ReportsBusy m.seq) ∧
      ((∀ r ∈ x.answers ++ x.reports, r.CorrelatesWith m) ↔
        x.reports = [] ∨ (m.netFn = NetFn.enterprise ∧ m.cmd = Cmd.messageOut)) := by
  intro t x
  have hqueued := perform_receive_of_engine hengine hheard hrequest hlocal
  have hx : x.OfEngine m := (Trail.ofEngine_start hrequest hqueued).along hrequest
  refine ⟨hx.answers, hx.reportsBusy, ?_, ?_⟩
  · intro hall
    cases hreports : x.reports with
    | nil => exact .inl rfl
    | cons r rest =>
        have hr : r ∈ x.reports := hreports ▸ List.mem_cons_self
        have hcorrelates := hall r (List.mem_append_right _ hr)
        exact .inr ((hx.reportsBusy r hr).correlatesWith_iff.mp hcorrelates)
  · intro h r hr
    rcases List.mem_append.mp hr with hr | hr
    · exact hx.answers r hr
    · rcases h with hnone | hbridge
      · rw [hnone] at hr
        cases hr
      · exact (hx.reportsBusy r hr).correlatesWith_iff.mpr hbridge

/-! ### A request that is not retried -/

/-- A request of the management engine. -/
def engineRequest : Message where
  destAddr := 0x10
  netFn := 0x06
  srcAddr := 0x2C
  seq := 3
  cmd := 0x01
  headerChecksum := 0xC8
  messageChecksum := 0xC7

/-- The bus of the engine, where it has written the request. -/
def askingRow : BusRow := { engineRow with link := engineRow.hearing engineRequest }

/-- The bus of the controller and that of the engine. Nothing is written twice. -/
def engineAsked : Scheduler :=
  atRest (pairStack bmcRow askingRow { maxRetries := 0 })

/-- The request has been heard, and bridged. -/
def engineBridged : Scheduler :=
  engineAsked.perform (.receive 1)

/-- What has come of the request after a run. -/
def engineTrail (as : List Action) : Trail :=
  (Trail.start 1 0 engineAsked.stack engineBridged.stack).along 1 0 engineBridged as

/-- The controller gets the request and responds. -/
def relayedRun : List Action :=
  [.transmitBegin 0, .transmitEnd 0, .relink 0 answeredLink, .receive 0]

/-- The controller does not get the request. -/
def undeliveredRun : List Action :=
  [.relink 0 (bmcRow.link.fail .all), .transmitBegin 0, .transmitEnd 0]

/-- The response is relayed, and that is all. -/
theorem engine_answers_correlate_relayed :
    (engineTrail relayedRun).answers.length = 1 ∧
      ∀ r ∈ (engineTrail relayedRun).answers ++ (engineTrail relayedRun).reports,
        r.CorrelatesWith engineRequest := by
  have hengine : engineAsked.stack.ServedOnlyBy .meIpmb 1 := by decide
  have hheard : engineAsked.stack.heard? 1 = some engineRequest := by decide +kernel
  have hlocal :
      engineAsked.stack.policy.servesMe engineRequest.netFn engineRequest.cmd = false := by
    decide
  obtain ⟨-, -, hiff⟩ :=
    engine_answers_correlate hengine hheard (by decide) hlocal 0 relayedRun
  exact ⟨by decide +kernel, hiff.mpr (.inl (by decide +kernel))⟩

/-- **A report is no answer to the request.** The engine has asked for command 1 of function 6, and
what is queued for it is the answer to a request to bridge. -/
theorem engine_report_uncorrelated :
    Setup.build { rows := [bmcRow, askingRow], timing := { maxRetries := 0 } } =
        .ok engineAsked.stack ∧
      engineAsked.stack.ServedOnlyBy .meIpmb 1 ∧
      engineAsked.stack.heard? 1 = some engineRequest ∧ engineRequest.isResponse = false ∧
      engineAsked.stack.policy.servesMe engineRequest.netFn engineRequest.cmd = false ∧
      ((engineBridged.after undeliveredRun).stack.waitingOn 1).map (·.msg) =
        (engineTrail undeliveredRun).reports ∧
      (engineTrail undeliveredRun).reports.map (fun r => (r.netFn, r.cmd, r.seq)) =
        [(0x39, 0x02, 3)] ∧
      ¬∀ r ∈ (engineTrail undeliveredRun).reports, r.CorrelatesWith engineRequest := by
  refine ⟨build_pairStack _ (by decide) (by decide), by decide, by decide +kernel, by decide,
    by decide, by decide +kernel, by decide +kernel, by decide +kernel⟩

end Scheduler

end ManagementBus
