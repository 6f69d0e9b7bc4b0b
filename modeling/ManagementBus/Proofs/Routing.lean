import ManagementBus.Proofs.Bridging

/-!
# Where a response goes

A response that is heard on a bus answers the oldest request pending there that it names. That
request leaves the ledger and its number becomes free, and the response goes to where the request
has come from: to the readers of the bus, to the host, to the management engine as it is, or wrapped
to the bus of any other channel. `Stack.Delivers` says what each of these does to the stack.

The request says where, so the proof first settles the ledger of the bus and then takes the response
from there; only the second step may concern another bus.

## Main results

* `Ledger.extract_of_split`: the request that a response answers, and what it leaves behind.
* `delivers_answerReader`, `delivers_answerHost`, `delivers_answerMe`, `delivers_answerBridge`: one
  delivery each.
* `response_routed`: what becomes of a response.
-/

namespace ManagementBus

/-- There is no way to the host in one case only. -/
theorem KcsSink.eq_absent_of_not_present {k : KcsSink} (h : k.isPresent = false) : k = .absent := by
  cases k with
  | absent => rfl
  | recorder | down => cases h

/-! ### The request that is answered -/

/-- A message is the response to a pending request: it has the next function, the same command, and
the number under which the request is pending. -/
def Message.RespondsTo (f entry : Message) : Prop :=
  f.netFn = entry.netFn + 1 ∧ f.cmd = entry.cmd ∧ f.seq = entry.seqTarget

instance (f entry : Message) : Decidable (f.RespondsTo entry) :=
  inferInstanceAs (Decidable (_ ∧ _ ∧ _))

/-- The test by which a response is matched, in terms of what it compares. -/
theorem Message.answers_iff_respondsTo {f entry : Message} :
    f.answers entry = true ↔ f.RespondsTo entry := by
  rw [answers_iff, RespondsTo, eq_comm (a := entry.cmd), eq_comm (a := entry.seqTarget)]
  refine and_congr_left' ⟨fun h => ?_, fun h => ?_⟩
  · rw [h, UInt8.sub_add_cancel]
  · rw [h, UInt8.add_sub_cancel]

/-- The ledger when an entry has gone from between others. -/
def Ledger.closingUp (l : Ledger) (before after : List Message) (entry : Message) : Ledger :=
  { l with entries := before ++ after, numbers := l.numbers.release (slot entry) }

/-- The oldest entry with a property goes, and the others stay in order. -/
theorem Ledger.extract_of_find? {l : Ledger} {p : Message → Bool} {entry : Message}
    (h : l.entries.find? p = some entry) :
    ∃ before after, l.entries = before ++ entry :: after ∧ (∀ e ∈ before, ¬p e = true) ∧
      p entry = true ∧ (l.extract p).1 = l.closingUp before after entry := by
  obtain ⟨before, after, hentries, herase, hbefore, hp⟩ := exists_split_of_find? h
  refine ⟨before, after, hentries, hbefore, hp, ?_⟩
  rw [extract, h, closingUp, herase]

/-! ### Replies -/

/-- An envelope carries a reply to the other end of a bus, and has not been tried yet. -/
structure Envelope.IsReply (e : Envelope) (config : BusConfig) (netFn cmd code number : UInt8)
    (data : List UInt8) : Prop where
  netFn : e.msg.netFn = netFn
  cmd : e.msg.cmd = cmd
  completionCode : e.msg.completionCode = code
  seq : e.msg.seq = number
  data : e.msg.data.bytes = data
  destAddr : e.msg.destAddr = config.targetAddr
  srcAddr : e.msg.srcAddr = config.selfAddr <<< 1
  retries : e.retries = 0

namespace Stack

variable {s t u : Stack} {i k : Nat} {b : Bus} {f entry : Message} {channel : Channel}

/-- Every queue is open and has room, and nobody holds the lock of those who send responses. -/
def HasRoom (s : Stack) : Prop :=
  ∀ b ∈ s.buses, b.Admits .sendResponse ∧ b.responses.closed = false ∧
    b.responses.items.length < b.responses.capacity

instance (s : Stack) : Decidable s.HasRoom :=
  inferInstanceAs (Decidable (∀ _ ∈ _, _ ∧ _ ∧ _))

/-- A reply is queued on a bus, and nothing else happens but reports. -/
def QueuesReply (k : Nat) (netFn cmd code number : UInt8) (data : List UInt8) (s t : Stack) :
    Prop :=
  ∃ d e, s.buses[k]? = some d ∧ e.IsReply d.config netFn cmd code number data ∧
    Replaces k (d.queued d.ledger.numbers.cursor [e]) s t

/-- What is written to the host for a response. -/
def hostBuffer (f : Message) : List UInt8 :=
  [f.netFn <<< 2, f.cmd, f.completionCode] ++ f.data.bytes

/-- **One buffer is written to the host**, and nothing else happens but reports. A recorder then
holds the buffer behind those that it has held; an interface that is down stays as it is. -/
inductive WritesHost (buffer : List UInt8) (s t : Stack) : Prop
  | recorded {written : List (List UInt8)} (hkcs : s.kcs = .recorder written)
      (h : ∃ es, t = { s with kcs := .recorder (written ++ [buffer]) }.report es)
  | down {fault : Fault} (hkcs : s.kcs = .down fault) (h : ∃ es, t = s.report es)

/-- A write to a host to which there is a way. -/
theorem WritesHost.of_write {buffer : List UInt8} (hpresent : s.kcs.isPresent = true)
    (h : ∃ es, t = { s with kcs := (s.kcs.write buffer).1 }.report es) :
    WritesHost buffer s t := by
  cases hkcs : s.kcs with
  | absent =>
      rw [hkcs] at hpresent
      cases hpresent
  | recorder written =>
      rw [hkcs] at h
      exact .recorded hkcs h
  | down fault =>
      have hsame : { s with kcs := KcsSink.down fault } = s := by rw [← hkcs]
      rw [hkcs] at h
      exact .down hkcs (hsame ▸ h)

/-- **The delivery of a response** that has been heard on a bus of a channel and answers an entry of
its ledger. It depends on the channel from which the entry has come. -/
inductive Delivers (i : Nat) (channel : Channel) (f entry : Message) (s t : Stack) : Prop
  /-- The response waits for a reader, with the routing data of the entry. -/
  | reader {b : Bus} (hsource : entry.infSource = .self) (hb : s.buses[i]? = some b)
      (h : Replaces i
        { b with responses := { b.responses with
          items := b.responses.items ++
            [{ f with
              seqTarget := f.seq, seqSource := entry.seqSource
              infSource := entry.infSource, infTarget := entry.infTarget }] } } s t)
  | host (hsource : entry.infSource = .hostKcs) (h : WritesHost (hostBuffer f) s t)
  | engine {k : Nat} (hsource : entry.infSource = .meIpmb) (hk : s.busFor .meIpmb = some k)
      (h : QueuesReply k f.netFn f.cmd f.completionCode entry.seqSource f.data.bytes s t)
  /-- The response is wrapped for whoever asked for the bridge. -/
  | bridge {k : Nat} (hself : entry.infSource ≠ .self) (hhost : entry.infSource ≠ .hostKcs)
      (hengine : entry.infSource ≠ .meIpmb) (hk : s.busFor entry.infSource = some k)
      (h : QueuesReply k (NetFn.enterprise + 1) Cmd.messageOut CompletionCode.success
        entry.seqSource
        (ianaBytes ++ [channel.number, f.netFn, f.cmd, f.completionCode] ++ f.data.bytes) s t)
  /-- There is no way to the host, or no bus of the channel. -/
  | nowhere
      (hsource : entry.infSource = .hostKcs ∧ s.kcs = .absent ∨
        entry.infSource ≠ .self ∧ entry.infSource ≠ .hostKcs ∧ s.busFor entry.infSource = none)
      (h : ∃ es, t = s.report es)

/-- The only delivery of a response to a bridged request whose channel has a bus. -/
theorem Delivers.queuesReply (h : Delivers i channel f entry s t) (hself : entry.infSource ≠ .self)
    (hhost : entry.infSource ≠ .hostKcs) (hengine : entry.infSource ≠ .meIpmb)
    (hk : s.busFor entry.infSource = some k) :
    QueuesReply k (NetFn.enterprise + 1) Cmd.messageOut CompletionCode.success entry.seqSource
      (ianaBytes ++ [channel.number, f.netFn, f.cmd, f.completionCode] ++ f.data.bytes) s t := by
  cases h with
  | reader hsource => exact absurd hsource hself
  | host hsource => exact absurd hsource hhost
  | engine hsource => exact absurd hsource hengine
  | bridge _ _ _ hk' h =>
      rw [hk] at hk'
      exact Option.some.inj hk' ▸ h
  | nowhere hnone =>
      rcases hnone with ⟨hsource, -⟩ | ⟨-, -, hnone⟩
      · exact absurd hsource hhost
      · rw [hk] at hnone
        cases hnone

/-! ### Single deliveries -/

/-- The bus found for a channel is usable. -/
theorem exists_bus_of_busFor (h : s.busFor channel = some k) :
    ∃ d, s.buses[k]? = some d ∧ d.config.isUsable = true := by
  obtain ⟨hlt, hserves, -⟩ := List.findIdx?_eq_some_iff_getElem.mp h
  rw [BusConfig.serves, Bool.and_eq_true] at hserves
  exact ⟨_, List.getElem?_eq_getElem hlt, hserves.1⟩

/-- Where every bus has room, every bus admits responses. -/
theorem HasRoom.admits (h : s.HasRoom) {d : Bus} (hd : s.buses[k]? = some d) :
    d.Admits .sendResponse :=
  (h d (List.mem_of_getElem? hd)).1

/-- A response to a request of the stack itself goes to the readers of its bus. -/
theorem delivers_answerReader (hroom : s.HasRoom) (hb : s.buses[i]? = some b)
    (hsource : entry.infSource = .self) :
    Delivers i channel f entry s (s.answerReader i (f.answering entry)) := by
  obtain ⟨-, hopen, hspace⟩ := hroom b (List.mem_of_getElem? hb)
  have hput := Queue.put_of_room (q := b.responses) (f.answering entry) hopen hspace
  rcases answerReader_cases hb (f.answering entry) with ⟨-, h⟩ | ⟨hrefused, -⟩
  · rw [hput] at h
    exact .reader hsource hb h
  · rw [hput] at hrefused
    exact absurd rfl hrefused

/-- A response to a request of the host is written to the host. -/
theorem delivers_answerHost (s : Stack) (hsource : entry.infSource = .hostKcs) :
    Delivers i channel f entry s (s.answerHost i (f.answering entry)) := by
  rw [answerHost]
  split
  · next hpresent =>
      exact .host hsource (.of_write hpresent
        (writeHost_eq s (hostBuffer f) fun _ => .frameDropped i .kcsWriteFailed))
  · next habsent =>
      have hkcs := KcsSink.eq_absent_of_not_present (eq_false_of_ne_true habsent)
      exact .nowhere (.inl ⟨hsource, hkcs⟩) ⟨_, rfl⟩

/-- The response to a message is a reply. -/
theorem queuesReply_onBus {m : Message} {d : Bus} (hd : s.buses[k]? = some d) :
    QueuesReply k (m.netFn + 1) m.cmd m.completionCode m.seq m.data.bytes s
      (s.onBus k (·.queued d.ledger.numbers.cursor [{ msg := d.responseFor m }])) :=
  ⟨d, _, hd, ⟨rfl, rfl, rfl, rfl, rfl, rfl, rfl, rfl⟩, Replaces.of_onBus hd⟩

/-- The answer of which the response to the management engine is made: the network function before
that of the response, and the number by which the engine knows its request. -/
def relayed (m : Message) : Message :=
  { m with netFn := m.netFn - 1, seq := m.seqSource }

/-- A response to a request of the engine waits on the bus of the engine. -/
theorem delivers_answerMe (hroom : s.HasRoom) (hsource : entry.infSource = .meIpmb) :
    Delivers i channel f entry s (s.answerMe i (f.answering entry)) := by
  cases hk : s.busFor .meIpmb with
  | none =>
      simp only [answerMe, hk]
      refine .nowhere (.inr ?_) ⟨_, rfl⟩
      rw [hsource]
      exact ⟨by decide, by decide, hk⟩
  | some k =>
      obtain ⟨d, hd, husable⟩ := exists_bus_of_busFor hk
      have hsend := sendResponse_eq (relayed (f.answering entry)) hd husable (hroom.admits hd)
      have hreply := queuesReply_onBus (m := relayed (f.answering entry)) hd
      have hnetFn : (relayed (f.answering entry)).netFn + 1 = f.netFn := UInt8.sub_add_cancel _ _
      rw [hnetFn] at hreply
      refine .engine hsource hk ?_
      rw [relayed] at hsend
      simp only [answerMe, hk]
      rw [hsend]
      exact hreply

/-- Any other response is wrapped, and waits on the bus that the request has come from. -/
theorem delivers_answerBridge (hroom : s.HasRoom) (hlength : f.data.length ≤ Frame.dataMax)
    (hself : entry.infSource ≠ .self) (hhost : entry.infSource ≠ .hostKcs)
    (hengine : entry.infSource ≠ .meIpmb) :
    Delivers i channel f entry s (s.answerBridge i channel (f.answering entry)) := by
  cases hk : s.busFor entry.infSource with
  | none =>
      have hk' : s.busFor (f.answering entry).infSource = none := hk
      simp only [answerBridge, hk']
      exact .nowhere (.inr ⟨hself, hhost, hk⟩) ⟨_, rfl⟩
  | some k =>
      obtain ⟨d, hd, husable⟩ := exists_bus_of_busFor hk
      obtain ⟨data, hdata, hanswer⟩ := answerBridge_of_admits (m := f.answering entry) i channel
        hlength hk hd husable (hroom.admits hd)
      rw [hanswer]
      refine .bridge hself hhost hengine hk ?_
      have hreply := queuesReply_onBus (m := wrapped entry.seqSource data) hd
      have hbytes : (wrapped entry.seqSource data).data.bytes = bridgedData channel f := hdata
      rw [hbytes] at hreply
      exact hreply

/-- **A response is delivered** where the entry that it answers has come from. -/
theorem delivers_deliverResponse (hroom : s.HasRoom) (hb : s.buses[i]? = some b)
    (hlength : f.data.length ≤ Frame.dataMax) :
    Delivers i channel f entry s (s.deliverResponse i channel (f.answering entry)) := by
  have hsource : (f.answering entry).infSource = entry.infSource := rfl
  rw [deliverResponse, hsource]
  split
  · next hself => exact delivers_answerReader hroom hb hself
  · next hself =>
      split
      · next hhost => exact delivers_answerHost s hhost
      · next hhost =>
          split
          · next hengine => exact delivers_answerMe hroom hengine
          · next hengine => exact delivers_answerBridge hroom hlength hself hhost hengine

/-- Room is left where a bus has been replaced by one with the same queues and locks. -/
theorem HasRoom.replaces {c : Bus} (hroom : s.HasRoom) (hb : s.buses[i]? = some b)
    (h : Replaces i c s t) (houtbound : c.outbound = b.outbound)
    (hresponses : c.responses = b.responses) (hlocks : c.locks = b.locks) : t.HasRoom := by
  intro d hd
  rw [h] at hd
  rcases List.mem_or_eq_of_mem_set hd with hd | rfl
  · exact hroom d hd
  · have hsame := hroom b (List.mem_of_getElem? hb)
    rwa [Bus.Admits, Bus.isLocked, houtbound, hresponses, hlocks]

/-- **What becomes of a response.** If no request is pending on the bus that the response names, no
more happens than that it is read. Otherwise the oldest such request leaves the ledger and its
number becomes free, and there is one delivery, to where the request has come from; the rest of the
stack stays as it was. -/
theorem response_routed (hroom : s.HasRoom) (hheard : s.heard? i = some f)
    (hresponse : f.isResponse = true) (hb : s.buses[i]? = some b) :
    ((∀ e ∈ b.ledger.entries, ¬f.RespondsTo e) ∧
        Replaces i { b with link := b.link.read.1 } s (s.receive i).1) ∨
      ∃ before entry after, b.ledger.entries = before ++ entry :: after ∧
        (∀ e ∈ before, ¬f.RespondsTo e) ∧ f.RespondsTo entry ∧
          ∃ u, Replaces i
              { b with
                link := b.link.read.1
                ledger := b.ledger.closingUp before after entry } s u ∧
            Delivers i b.config.channel f entry u (s.receive i).1 := by
  obtain ⟨c, hworker⟩ := exists_workerBus_of_heard hheard
  obtain rfl : b = c := Option.some.inj (hb.symm.trans (workerBus_eq_some_iff.mp hworker).2.1)
  obtain ⟨v, hread, hroute⟩ := receive_of_worker_heard hworker hheard
  have hv := hread.getElem?_self hb
  rw [if_pos hresponse] at hroute
  rcases routeResponse_cases hv f with ⟨hnone, hunmatched⟩ | ⟨entry, u, hentry, hsettle, hdeliver⟩
  · refine .inl ⟨fun e he hresponds => ?_, ?_⟩
    · exact List.find?_eq_none.mp hnone e he (Message.answers_iff_respondsTo.mpr hresponds)
    · rw [hroute, hunmatched]
      exact hread.emit _
  · obtain ⟨before, after, hentries, hbefore, hresponds, hledger⟩ :=
      Ledger.extract_of_find? (l := b.ledger) hentry
    have hu := hread.trans hsettle
    rw [Bus.settling, hledger] at hu
    refine .inr ⟨before, entry, after, hentries, fun e he => ?_,
      Message.answers_iff_respondsTo.mp hresponds, u, hu, ?_⟩
    · rw [← Message.answers_iff_respondsTo]
      exact hbefore e he
    · rw [hroute, hdeliver]
      exact delivers_deliverResponse (hroom.replaces hb hu rfl rfl rfl) (hu.getElem?_self hb)
        (length_data_of_heard hheard)

/-- Which bus serves a channel depends on the rows of the table alone. -/
theorem busFor_congr (h : t.buses.map Bus.config = s.buses.map Bus.config) (channel : Channel) :
    t.busFor channel = s.busFor channel := by
  have hsearch : ∀ u : Stack, u.busFor channel =
      (u.buses.map Bus.config).findIdx? fun config => config.serves channel := by
    intro u
    rw [List.findIdx?_map]
    rfl
  rw [hsearch, hsearch, h]

/-- Which bus serves a channel does not depend on what has happened on the buses. -/
theorem Replaces.busFor {c : Bus} (h : Replaces i c s t) (hb : s.buses[i]? = some b)
    (hconfig : c.config = b.config) (channel : Channel) : t.busFor channel = s.busFor channel := by
  refine busFor_congr (List.ext_getElem? fun k => ?_) channel
  rw [List.getElem?_map, List.getElem?_map]
  exact h.busConfig hb hconfig k

/-- The response of the expansion board comes back wrapped to the controller that asked for the
bridge. -/
theorem response_routed_board :
    let s := Scheduler.boardAnswering.stack
    s.HasRoom ∧ s.heard? 1 = some Scheduler.boardResponse ∧
      Scheduler.boardResponse.isResponse = true ∧
      ∃ u, u.pendingOn 1 = [] ∧
        QueuesReply 0 0x39 0x02 0x00 7 [0x15, 0xA0, 0x00, 0x05, 0x07, 0x01, 0x00, 0x42] u
          (s.receive 1).1 := by
  intro s
  have hroom : s.HasRoom := by decide +kernel
  have hheard : s.heard? 1 = some Scheduler.boardResponse := by decide +kernel
  have hpending : ∀ e ∈ s.pendingOn 1, e.infSource = .bmcIpmb ∧ e.seqSource = 7 ∧
      Scheduler.boardResponse.RespondsTo e := by decide +kernel
  have hone : (s.pendingOn 1).length = 1 := by decide +kernel
  have htable : s.busFor .bmcIpmb = some 0 := by decide +kernel
  have hbridged : Channel.bmcIpmb ≠ .self ∧ Channel.bmcIpmb ≠ .hostKcs ∧
      Channel.bmcIpmb ≠ .meIpmb := by decide
  obtain ⟨b, hb, hchannel⟩ : ∃ b, s.buses[1]? = some b ∧ b.config.channel = ⟨0x05⟩ :=
    ⟨_, rfl, by decide +kernel⟩
  rw [pendingOn_eq hb] at hpending hone
  refine ⟨hroom, hheard, rfl, ?_⟩
  rcases response_routed hroom hheard rfl hb with
    ⟨hnone, -⟩ | ⟨before, entry, after, hentries, hbefore, -, u, hu, hdelivers⟩
  · obtain ⟨e, he⟩ := List.length_eq_one_iff.mp hone
    have hmem : e ∈ b.ledger.entries := he ▸ List.mem_singleton_self e
    exact absurd (hpending e hmem).2.2 (hnone e hmem)
  · have hmem : entry ∈ b.ledger.entries := hentries ▸ List.mem_append_cons_self
    obtain ⟨hsource, hnumber, -⟩ := hpending entry hmem
    have hgone : before ++ after = [] := by
      rw [hentries, List.length_append, List.length_cons] at hone
      rw [← List.length_eq_zero_iff, List.length_append]
      omega
    have hbus : u.busFor entry.infSource = some 0 := by
      rw [hsource, hu.busFor hb rfl, htable]
    rw [← hsource] at hbridged
    have hreply := hdelivers.queuesReply hbridged.1 hbridged.2.1 hbridged.2.2 hbus
    rw [hnumber, hchannel] at hreply
    exact ⟨u, (pendingOn_eq (hu.getElem?_self hb)).trans hgone, hreply⟩

end Stack

end ManagementBus
