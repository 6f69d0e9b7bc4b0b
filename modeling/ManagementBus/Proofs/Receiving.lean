import ManagementBus.Proofs.Writing

/-!
# What a look at a link does

A frame that is received either is a response that answers a pending request, and goes where that
came from, or a request that goes to the dispatcher or is bridged, or it changes nothing. Here the
cases are told apart once.

## Main results

* `receive_cases`: what a look at a link comes to.
* `routeResponse_cases`: a response answers the oldest pending request that it names, or none.
* `routeRequest_cases`: a request is bridged, or it waits for the dispatcher.
-/

namespace ManagementBus

namespace Message

/-- The query by which a response looks for its request. -/
def query (m : Message) : Message := { m with seqTarget := m.seq }

/-- The response as it goes to where the request came from. -/
def answering (m entry : Message) : Message := Correlation.response.complete m.query entry

/-- Whether a message is a response to a pending request. -/
def answers (m entry : Message) : Bool := Correlation.response.names m.query entry

/-- What a response says about the request that it answers. -/
theorem answers_iff {m entry : Message} :
    m.answers entry = true ↔
      entry.netFn = m.netFn - 1 ∧ entry.cmd = m.cmd ∧ entry.seqTarget = m.seq := by
  simp only [answers, Correlation.names, query, Bool.and_eq_true, beq_iff_eq, and_assoc]

end Message

namespace Bus

/-- The pending request that a response answers. -/
def pendingFor? (b : Bus) (m : Message) : Option Message := b.ledger.entries.find? m.answers

/-- The bus without the pending request that a response answers. -/
def settling (b : Bus) (m : Message) : Bus := { b with ledger := (b.ledger.extract m.answers).1 }

/-- The bytes that wait on the link of a bus. -/
def arrived? (b : Bus) : Option (List UInt8) :=
  match b.link.read.2 with
  | .ok (some raw) => some raw
  | _ => none

end Bus

/-- The message of a valid frame. -/
def Frame.message? (raw : List UInt8) : Option Message :=
  (Frame.normalizeInbound raw).toOption.bind fun frame =>
    (Frame.validate frame).toOption.bind fun _ => (Frame.decode frame).toOption

namespace Stack

open EnvelopeProperty

/-- The message that a look at the link of a bus finds. -/
def heard? (s : Stack) (i : Nat) : Option Message :=
  ((s.workerBus i).bind Bus.arrived?).bind Frame.message?

variable {s t u : Stack} {i : Nat} {b c : Bus} {m : Message}

/-- Reports are made one after the other. -/
theorem emit_report (s : Stack) (es : List Event) (e : Event) :
    (s.report es).emit e = s.report (es ++ [e]) := by
  simp [emit, report]

/-- What a link has delivered is reported, and routed if it is a message. -/
theorem handleFrame_cases (s : Stack) (i : Nat) (b : Bus) (raw : List UInt8) :
    ∃ es, (Frame.message? raw = none ∧ s.handleFrame i b raw = s.report es) ∨
      ∃ m, Frame.message? raw = some m ∧
        ((m.isResponse = true ∧ s.handleFrame i b raw = (s.report es).routeResponse i b m) ∨
          (m.isResponse = false ∧ s.handleFrame i b raw = (s.report es).routeRequest i b m)) := by
  rw [handleFrame, Frame.message?]
  split
  · next heq => exact ⟨_, .inl ⟨by rw [heq]; rfl, rfl⟩⟩
  · next frame heq =>
      simp only [emit_report, heq]
      split
      · next hinvalid => exact ⟨_, .inl ⟨by simp [hinvalid, Except.toOption], rfl⟩⟩
      · next hvalid =>
          split
          · next hmalformed =>
              exact ⟨_, .inl ⟨by simp [hvalid, hmalformed, Except.toOption], rfl⟩⟩
          · next m hm =>
              by_cases hresponse : m.isResponse = true
              · rw [if_pos hresponse]
                exact ⟨_, .inr ⟨m, by simp [hvalid, hm, Except.toOption], .inl ⟨hresponse, rfl⟩⟩⟩
              · rw [if_neg hresponse]
                exact ⟨_, .inr ⟨m, by simp [hvalid, hm, Except.toOption],
                  .inr ⟨by simpa using hresponse, rfl⟩⟩⟩

/-- A worker reads its link, and routes the message that it has heard there. -/
theorem receive_of_worker (hworker : s.workerBus i = some b) :
    ∃ u, Replaces i { b with link := b.link.read.1 } s u ∧
      (((s.receive i).1 = u ∧ s.heard? i = none) ∨
        ∃ m, s.heard? i = some m ∧
          ((m.isResponse = true ∧
              (s.receive i).1 = u.routeResponse i { b with link := b.link.read.1 } m) ∨
            (m.isResponse = false ∧
              (s.receive i).1 = u.routeRequest i { b with link := b.link.read.1 } m))) := by
  obtain ⟨-, hb, -⟩ := workerBus_eq_some_iff.mp hworker
  have hread : Replaces i { b with link := b.link.read.1 } s
      (s.onBus i fun c => { c with link := b.link.read.1 }) :=
    Replaces.of_onBus hb
  have hheard : ∀ raw, b.link.read.2 = .ok (some raw) →
      (s.workerBus i).bind Bus.arrived? = some raw := by
    intro raw hraw
    rw [hworker, Option.bind_some, Bus.arrived?, hraw]
  have hsilent : (∀ raw, b.link.read.2 ≠ .ok (some raw)) →
      (s.workerBus i).bind Bus.arrived? = none := by
    intro hraw
    rw [hworker, Option.bind_some, Bus.arrived?]
    split
    · next raw heq => exact absurd heq (hraw raw)
    · rfl
  rw [receive, heard?]
  simp only [hworker]
  rw [hworker] at hheard hsilent
  split
  · next fault heq =>
      have hnone := hsilent fun raw hraw => by rw [heq] at hraw; cases hraw
      exact ⟨_, hread.emit _, .inl ⟨rfl, by rw [hnone]; rfl⟩⟩
  · next heq =>
      have hnone := hsilent fun raw hraw => by rw [heq] at hraw; cases hraw
      exact ⟨_, hread, .inl ⟨rfl, by rw [hnone]; rfl⟩⟩
  · next raw heq =>
      rw [hheard raw heq, Option.bind_some]
      obtain ⟨es, hframe⟩ := handleFrame_cases
        (s.onBus i fun c => { c with link := b.link.read.1 }) i
        { b with link := b.link.read.1 } raw
      rcases hframe with ⟨hnone, h⟩ | ⟨m, hm, h⟩
      · exact ⟨_, hread.report es, .inl ⟨h, hnone⟩⟩
      · exact ⟨_, hread.report es, .inr ⟨m, hm, h⟩⟩

/-- **One look at a link.** The bus reads its link, and routes the message that it has heard
there. -/
theorem receive_cases (s : Stack) (i : Nat) :
    ((s.receive i).1 = s ∧ s.heard? i = none) ∨
      ∃ b link u, s.workerBus i = some b ∧ Replaces i { b with link } s u ∧
        (((s.receive i).1 = u ∧ s.heard? i = none) ∨
          ∃ m, s.heard? i = some m ∧
            ((m.isResponse = true ∧ (s.receive i).1 = u.routeResponse i { b with link } m) ∨
              (m.isResponse = false ∧ (s.receive i).1 = u.routeRequest i { b with link } m))) := by
  cases hworker : s.workerBus i with
  | none =>
      refine .inl ⟨?_, ?_⟩
      · rw [receive, hworker]
      · rw [heard?, hworker]
        rfl
  | some b =>
      obtain ⟨u, hread, hroute⟩ := receive_of_worker hworker
      exact .inr ⟨b, _, u, rfl, hread, hroute⟩

/-- What is heard is heard by a worker. -/
theorem exists_workerBus_of_heard (h : s.heard? i = some m) : ∃ b, s.workerBus i = some b := by
  obtain ⟨raw, hraw, -⟩ := Option.bind_eq_some_iff.mp h
  obtain ⟨b, hworker, -⟩ := Option.bind_eq_some_iff.mp hraw
  exact ⟨b, hworker⟩

/-- A message that a worker hears is routed. -/
theorem receive_of_worker_heard (hworker : s.workerBus i = some b) (h : s.heard? i = some m) :
    ∃ u, Replaces i { b with link := b.link.read.1 } s u ∧
      (s.receive i).1 =
        if m.isResponse then u.routeResponse i { b with link := b.link.read.1 } m
        else u.routeRequest i { b with link := b.link.read.1 } m := by
  obtain ⟨u, hread, ⟨-, hnone⟩ | ⟨n, hn, hroute⟩⟩ := receive_of_worker hworker
  · rw [h] at hnone
    cases hnone
  · refine ⟨u, hread, ?_⟩
    obtain rfl : m = n := Option.some.inj (h.symm.trans hn)
    rcases hroute with ⟨hm, hroute⟩ | ⟨hm, hroute⟩
    · rw [if_pos hm, hroute]
    · rw [hroute, hm]
      rfl

/-- A message that is heard is routed. -/
theorem receive_of_heard (h : s.heard? i = some m) :
    ∃ b link u, s.buses[i]? = some b ∧ Replaces i { b with link } s u ∧
      (s.receive i).1 =
        if m.isResponse then u.routeResponse i { b with link } m
        else u.routeRequest i { b with link } m := by
  obtain ⟨b, hworker⟩ := exists_workerBus_of_heard h
  obtain ⟨u, hread, hroute⟩ := receive_of_worker_heard hworker h
  exact ⟨b, _, u, (workerBus_eq_some_iff.mp hworker).2.1, hread, hroute⟩

/-- **A response answers the oldest pending request that it names.** -/
theorem routeResponse_cases (hb : s.buses[i]? = some b) (m : Message) :
    (b.pendingFor? m = none ∧ s.routeResponse i b m = s.emit (.responseUnmatched i m)) ∨
      ∃ entry u, b.pendingFor? m = some entry ∧ Replaces i (b.settling m) s u ∧
        s.routeResponse i b m = u.deliverResponse i b.config.channel (m.answering entry) := by
  have hfind : b.ledger.findAndRemove { m with seqTarget := m.seq } .response =
      ((b.ledger.extract m.answers).1, (b.pendingFor? m).map m.answering) := by
    refine Prod.ext rfl ?_
    rw [Bus.pendingFor?, ← Ledger.extract_snd]
    rfl
  cases hentry : b.pendingFor? m with
  | none =>
      refine .inl ⟨rfl, ?_⟩
      rw [routeResponse, hfind, hentry]
      rfl
  | some entry =>
      have hsettle : Replaces i (b.settling m) s
          (s.onBus i fun c => { c with ledger := (b.ledger.extract m.answers).1 }) :=
        Replaces.of_onBus hb
      refine .inr ⟨entry, _, rfl, hsettle, ?_⟩
      rw [routeResponse, hfind, hentry]
      rfl

/-! ### Requests -/

/-- A request for the dispatcher waits behind the others, or alone, or not at all. -/
theorem notify_cases (s : Stack) (m : Message) :
    ∃ q es, (s.notify m).1 = { s with requests := q }.report es ∧
      (q = s.requests ∨ q.items = s.requests.items ++ [m] ∨ q.items = [m] ∨ q.items = []) := by
  rw [notify]
  split
  · next q heq =>
      have hcases := s.requests.put_cases m
      rw [heq] at hcases
      rcases hcases with ⟨-, hq⟩ | ⟨hput, -⟩
      · refine ⟨q, [], by simp [report], .inr (.inl ?_)⟩
        have hitems : q = { s.requests with items := s.requests.items ++ [m] } := hq
        rw [hitems]
      · exact absurd rfl hput
  · exact ⟨s.requests, [], by simp [report], .inl rfl⟩
  · simp only
    rcases s.requests.purge.1.put_cases m with ⟨-, hq⟩ | ⟨-, hq⟩
    · exact ⟨_, _, rfl, .inr (.inr (.inl (by rw [hq]; rfl)))⟩
    · exact ⟨_, _, rfl, .inr (.inr (.inr (by rw [hq]; rfl)))⟩

/-- **A request is bridged, or it waits for the dispatcher.** -/
theorem routeRequest_cases (s : Stack) (i : Nat) (b : Bus) (hm : m.isResponse = false) :
    Sends (From .meIpmb) s (s.routeRequest i b m) ∨
      ∃ es, s.routeRequest i b m =
        (s.notify { m with seqSource := m.seq, infSource := b.config.channel }).1.report es := by
  rw [routeRequest]
  split
  · exact .inl (sends_bridgeMeRequest s i hm)
  · refine .inr ?_
    split
    · next t _ heq => exact ⟨[], by rw [heq]; simp [report]⟩
    · next t _ heq => exact ⟨_, by rw [heq]; rfl⟩

/-! ### Responses -/

/-- What is handed to the readers of a bus changes no more than what waits for them. -/
theorem answerReader_cases (hb : s.buses[i]? = some b) (m : Message) :
    ((b.responses.put m).2 = .accepted ∧
        Replaces i { b with responses := (b.responses.put m).1 } s (s.answerReader i m)) ∨
      ((b.responses.put m).2 ≠ .accepted ∧
        s.answerReader i m = s.emit (.frameDropped i .responseQueueFull)) := by
  simp only [answerReader, hb]
  split
  · next q heq =>
      refine .inl ⟨by rw [heq], ?_⟩
      rw [heq]
      exact Replaces.of_onBus hb
  · next q p hp heq =>
      refine .inr ⟨?_, rfl⟩
      rw [heq]
      exact hp

/-- At most one buffer is written to the host, and nothing else happens but reports. -/
def TellsHost (s t : Stack) : Prop :=
  ∃ es, t = s.report es ∨ ∃ buffer, t = { s with kcs := (s.kcs.write buffer).1 }.report es

/-- A write to the host does not concern the buses. -/
theorem TellsHost.buses (h : TellsHost s t) : t.buses = s.buses := by
  obtain ⟨es, h | ⟨buffer, h⟩⟩ := h
  · rw [h]
    rfl
  · rw [h]
    rfl

/-- A write to the host, and a report if that fails. -/
theorem writeHost_eq (s : Stack) (buffer : List UInt8) (f : Fault → Event) :
    ∃ es, (match s.writeHost buffer with
      | (t, .ok _) => t
      | (t, .error fault) => t.emit (f fault)) =
        { s with kcs := (s.kcs.write buffer).1 }.report es := by
  cases houtcome : (s.kcs.write buffer).2 with
  | ok _ => exact ⟨[], by simp [writeHost, houtcome, report]⟩
  | error fault => exact ⟨[f fault], by simp [writeHost, houtcome, emit]⟩

/-- A write to the host that is reported if it fails is one write to the host. -/
theorem tellsHost_writeHost (s : Stack) (buffer : List UInt8) (f : Fault → Event) :
    TellsHost s (match s.writeHost buffer with
      | (t, .ok _) => t
      | (t, .error fault) => t.emit (f fault)) := by
  obtain ⟨es, h⟩ := writeHost_eq s buffer f
  exact ⟨es, .inr ⟨buffer, h⟩⟩

/-- The answer to a request of the host is one write to the host at most. -/
theorem tellsHost_answerHost (s : Stack) (i : Nat) (m : Message) :
    TellsHost s (s.answerHost i m) := by
  rw [answerHost]
  split
  · exact tellsHost_writeHost s _ fun _ => _
  · exact ⟨_, .inl rfl⟩

end Stack

end ManagementBus
