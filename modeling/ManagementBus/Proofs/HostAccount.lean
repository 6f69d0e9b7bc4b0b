import Mathlib.Algebra.Order.Group.Nat
import Mathlib.Algebra.Order.BigOperators.Group.List
import ManagementBus.Proofs.Telling

/-!
# The account of the host

A request of the host is *open* while it waits for the dispatcher or for its write, and while it is
pending. The account of the host counts the requests that are open and the buffers that have been
written. Whatever moves a request on, answers it or drops it leaves the account as it is or lowers
it.

## Main results

* `account_receive_le`: a look at a link does not raise the account.
* `account_finishWrite_le`: the end of a write raises it only where a request of the host could not
  be written after its record had gone.
* `account_dispatchUpTo_le`: the dispatcher raises it only where it bridges and answers at once.
-/

namespace ManagementBus

open EnvelopeProperty

/-! ### Open requests -/

/-- Whether a message comes from the host. -/
def Message.isHosts (m : Message) : Bool := m.infSource = .hostKcs

/-- Whether an envelope holds a request of the host. -/
def Envelope.isHosts (e : Envelope) : Bool := !e.msg.isResponse && e.msg.isHosts

/-- An envelope without a request of the host. -/
def EnvelopeProperty.NotHosts : EnvelopeProperty := fun _ e => e.isHosts = false

/-- A reply is no request of the host. -/
theorem EnvelopeProperty.Reply.notHosts {busy : BitVec 64} {e : Envelope} (h : Reply busy e) :
    NotHosts busy e := by
  simp [NotHosts, Envelope.isHosts, h.2]

/-- What comes from another channel than the host's is no request of the host. -/
theorem EnvelopeProperty.From.notHosts {busy : BitVec 64} {e : Envelope} {c : Channel}
    (hc : c ≠ .hostKcs) (h : From c busy e) : NotHosts busy e := by
  rcases h.2 with hresponse | ⟨hsource, -⟩
  · simp [NotHosts, Envelope.isHosts, hresponse]
  · simp [NotHosts, Envelope.isHosts, Message.isHosts, hsource, hc]

namespace Bus

variable {b c : Bus} {e : Envelope}

/-- The requests of the host that wait for their write on a bus or are pending there. -/
def hostOpen (b : Bus) : Nat :=
  b.outbound.items.countP Envelope.isHosts + b.ledger.entries.countP Message.isHosts

/-- A bus that is extended by others than the host has as many open requests of the host. -/
theorem Extends.hostOpen (h : b.Extends NotHosts c) : c.hostOpen = b.hostOpen := by
  obtain ⟨added, hadded, hnot⟩ := h.outbound
  have hnone : added.countP Envelope.isHosts = 0 := by
    rw [List.countP_eq_zero]
    intro e he
    rw [hnot e he]
    simp
  rw [Bus.hostOpen, Bus.hostOpen, h.entries, hadded, List.countP_append, hnone]
  omega

/-- An envelope that is queued counts if it is a request of the host. -/
theorem hostOpen_queued (b : Bus) (cursor : SequenceNumber) (e : Envelope) :
    (b.queued cursor [e]).hostOpen = b.hostOpen + if e.isHosts then 1 else 0 := by
  have hqueued : (b.queued cursor [e]).hostOpen =
      (b.outbound.items ++ [e]).countP Envelope.isHosts +
        b.ledger.entries.countP Message.isHosts := rfl
  rw [hqueued, Bus.hostOpen, List.countP_append, List.countP_singleton]
  omega

/-- An envelope that is offered counts at most if it is a request of the host. -/
theorem hostOpen_offered_le (b : Bus) (e : Envelope) :
    (b.offered e).hostOpen ≤ b.hostOpen + if e.isHosts then 1 else 0 := by
  have hoffered : b.offered e = { b with outbound := (b.outbound.put e).1 } := rfl
  rcases b.outbound.put_cases e with ⟨-, hput⟩ | ⟨-, hput⟩
  · rw [hoffered, hput]
    exact Nat.le_of_eq (b.hostOpen_queued b.ledger.numbers.cursor e)
  · rw [hoffered, hput]
    exact Nat.le_add_right _ _

/-- The record that a failed write withdraws. -/
def withdrawn? (b : Bus) (e : Envelope) : Option Message :=
  b.ledger.entries.find? (Ledger.isRequest e.msg)

/-- A request of the host in hand cannot be written, and there is no record of the host to be
withdrawn. -/
def reopens (b : Bus) : Bool :=
  b.inHand.any fun e => e.isHosts && !b.delivers e && !(b.withdrawn? e).any Message.isHosts

/-- A failed write of a request leaves open what has not been withdrawn. -/
theorem hostOpen_undelivered (hrequest : e.msg.isResponse = false) :
    (b.undelivered e).hostOpen + (if (b.withdrawn? e).any Message.isHosts then 1 else 0) =
      b.hostOpen := by
  have hopen : (b.undelivered e).hostOpen = b.outbound.items.countP Envelope.isHosts +
      (b.ledger.entries.eraseP (Ledger.isRequest e.msg)).countP Message.isHosts := by
    rw [Bus.hostOpen, undelivered, hrequest]
    simp
  rw [hopen, Bus.hostOpen, withdrawn?]
  cases hfind : b.ledger.entries.find? (Ledger.isRequest e.msg) with
  | none =>
      have herase := List.eraseP_of_forall_not (by simpa using List.find?_eq_none.mp hfind)
      simp [herase]
  | some entry =>
      have hcount := Ledger.countP_eraseP Message.isHosts hfind
      rw [Option.any_some]
      omega

/-- A response that cannot be written makes no difference. -/
theorem hostOpen_undelivered_of_response (hresponse : e.msg.isResponse = true) :
    (b.undelivered e).hostOpen = b.hostOpen := by
  simp [undelivered, hresponse, Bus.hostOpen]

/-- **A failed write that is tried again raises what is open only where it reopens a request.** -/
theorem hostOpen_retrying_le (hhand : b.inHand = some e) (hfails : b.delivers e = false) :
    (b.retrying e).hostOpen ≤ b.hostOpen + if b.reopens then 1 else 0 := by
  have hoffered := (b.undelivered e).hostOpen_offered_le e.failed
  have hhosts : e.failed.isHosts = e.isHosts := rfl
  have hreopens : b.reopens = (e.isHosts && !(b.withdrawn? e).any Message.isHosts) := by
    simp [reopens, hhand, hfails]
  have hretrying : b.retrying e = (b.undelivered e).offered e.failed := rfl
  rw [hretrying, hreopens]
  rw [hhosts] at hoffered
  by_cases hresponse : e.msg.isResponse = true
  · have hnot : e.isHosts = false := by simp [Envelope.isHosts, hresponse]
    have hopen := hostOpen_undelivered_of_response (b := b) hresponse
    simp only [hnot, Bool.false_and, Bool.false_eq_true, if_false] at hoffered ⊢
    omega
  · have hopen := hostOpen_undelivered (b := b) (e := e) (by simpa using hresponse)
    cases hhost : e.isHosts with
    | false =>
        simp only [hhost, Bool.false_and, Bool.false_eq_true, if_false] at hoffered ⊢
        omega
    | true =>
        cases hfound : (b.withdrawn? e).any Message.isHosts with
        | false =>
            simp only [hhost, Bool.not_false, Bool.and_true, if_true] at hoffered ⊢
            omega
        | true =>
            simp only [hhost, hfound, if_true, Bool.not_true, Bool.and_false, Bool.false_eq_true,
              if_false] at hoffered hopen ⊢
            omega

/-- A write that succeeds opens nothing. -/
theorem hostOpen_delivered_le (b : Bus) (e : Envelope) : (b.delivered e).hostOpen ≤ b.hostOpen := by
  have hsublist : (b.delivered e).ledger.entries.Sublist b.ledger.entries := by
    rw [delivered]
    split
    · exact List.Sublist.refl _
    · exact List.drop_sublist _ _
  exact Nat.add_le_add_left hsublist.countP_le _

end Bus

/-! ### Sums over buses -/

/-- What a replaced element changes of a sum. -/
theorem sum_map_set {α : Type} (f : α → Nat) {l : List α} {i : Nat} {a : α} (b : α)
    (ha : l[i]? = some a) : ((l.set i b).map f).sum + f a = (l.map f).sum + f b := by
  induction l generalizing i with
  | nil => cases ha
  | cons x l ih =>
      cases i with
      | zero =>
          obtain rfl : x = a := Option.some.inj ha
          simp only [List.set_cons_zero, List.map_cons, List.sum_cons]
          omega
      | succ i =>
          have hrest := ih (i := i) (by simpa using ha)
          simp only [List.set_cons_succ, List.map_cons, List.sum_cons]
          omega

namespace Stack

variable {P : EnvelopeProperty} {s t u : Stack} {i : Nat} {b c : Bus} {e : Envelope} {m : Message}

/-- The requests of the host that wait for their write or are pending. -/
def busesOpen (s : Stack) : Nat := (s.buses.map Bus.hostOpen).sum

/-- The requests of the host that wait for the dispatcher. -/
def requestsOpen (s : Stack) : Nat := s.requests.items.countP Message.isHosts

/-- The buffers that the host has been written. -/
def answers (s : Stack) : Nat := s.kcs.written.length

/-- The requests of the host that are still open. -/
def hostOpen (s : Stack) : Nat := s.requestsOpen + s.busesOpen

/-- The requests of the host that are open, and the buffers that it has been written. -/
def account (s : Stack) : Nat := s.answers + s.hostOpen

/-- The open requests on the buses depend on the buses alone. -/
theorem busesOpen_of_buses (h : t.buses = s.buses) : t.busesOpen = s.busesOpen := by
  rw [busesOpen, busesOpen, h]

/-- Those that wait for the dispatcher depend on its queue alone. -/
theorem requestsOpen_of_requests (h : t.requests = s.requests) :
    t.requestsOpen = s.requestsOpen := by
  rw [requestsOpen, requestsOpen, h]

/-- The answers are those that the sink has recorded. -/
theorem answers_of_kcs (h : t.kcs = s.kcs) : t.answers = s.answers := by
  rw [answers, answers, h]

/-- Others than the host open nothing for it on any bus. -/
theorem Extends.busesOpen (h : Extends NotHosts s t) : t.busesOpen = s.busesOpen := by
  have hsum : ∀ {l k : List Bus}, List.Forall₂ (Bus.Extends NotHosts) l k →
      (k.map Bus.hostOpen).sum = (l.map Bus.hostOpen).sum := by
    intro l k hlk
    induction hlk with
    | nil => rfl
    | cons hbc _ ih =>
        rw [List.map_cons, List.map_cons, List.sum_cons, List.sum_cons, ih, hbc.hostOpen]
  exact hsum h

/-- Where one bus is replaced, the difference is its own. -/
theorem Replaces.busesOpen (h : Replaces i c s t) (hb : s.buses[i]? = some b) :
    t.busesOpen + b.hostOpen = s.busesOpen + c.hostOpen := by
  rw [h]
  exact sum_map_set Bus.hostOpen c hb

/-- One message that is sent opens one request at most. -/
theorem SendsOne.busesOpen_le (h : SendsOne i P s t) : t.busesOpen ≤ s.busesOpen + 1 := by
  obtain ⟨b, cursor, e, hb, -, ht⟩ := h
  have hreplaces : Replaces i (b.queued cursor [e]) s (s.onBus i (·.queued cursor [e])) :=
    Replaces.of_onBus hb
  have hsum := hreplaces.busesOpen hb
  have hopen := b.hostOpen_queued cursor e
  have hbuses : t.busesOpen = (s.onBus i (·.queued cursor [e])).busesOpen :=
    busesOpen_of_buses (by rw [ht])
  split at hopen <;> omega

/-- Something that concerns the queues of the buses only, and none of the requests of the host. -/
theorem account_of_sends (h : Sends NotHosts s t) : t.account = s.account := by
  rw [account, account, hostOpen, hostOpen, answers_of_kcs h.kcs,
    requestsOpen_of_requests h.requests, (Extends.of_sends h).busesOpen]

/-- The account changes with the requests open on the bus that is replaced. -/
theorem account_of_replaces (hb : s.buses[i]? = some b) (h : Replaces i c s t) :
    t.account + b.hostOpen = s.account + c.hostOpen := by
  have hsum := h.busesOpen hb
  rw [account, account, hostOpen, hostOpen, answers_of_kcs h.kcs,
    requestsOpen_of_requests h.requests]
  omega

/-- A write to the host leaves alone what waits for the dispatcher. -/
theorem TellsHost.requests (h : TellsHost s t) : t.requests = s.requests := by
  obtain ⟨es, h | ⟨buffer, h⟩⟩ := h
  · rw [h]
    rfl
  · rw [h]
    rfl

/-- A buffer for the host is one more on its account. -/
theorem TellsHost.answers_le (h : TellsHost s t) : t.answers ≤ s.answers + 1 := by
  obtain ⟨es, h | ⟨buffer, h⟩⟩ := h
  · rw [h]
    exact Nat.le_succ _
  · rw [h]
    cases hkcs : s.kcs with
    | absent => simp [answers, report, hkcs, KcsSink.write, KcsSink.written]
    | recorder written => simp [answers, report, hkcs, KcsSink.write, KcsSink.written]
    | down fault => simp [answers, report, hkcs, KcsSink.write, KcsSink.written]

/-- A write to the host is one answer at most. -/
theorem TellsHost.account_le (h : TellsHost s t) : t.account ≤ s.account + 1 := by
  have hanswers := h.answers_le
  have hbuses := busesOpen_of_buses h.buses
  have hrequests := requestsOpen_of_requests h.requests
  rw [account, account, hostOpen, hostOpen]
  omega

/-- A message for the dispatcher counts if it comes from the host. -/
theorem account_notify_le (s : Stack) (m : Message) :
    (s.notify m).1.account ≤ s.account + if m.isHosts then 1 else 0 := by
  obtain ⟨q, es, hq, hitems⟩ := notify_cases s m
  have hcount : q.items.countP Message.isHosts ≤
      s.requestsOpen + if m.isHosts then 1 else 0 := by
    rw [requestsOpen]
    rcases hitems with rfl | hitems | hitems | hitems
    · omega
    · refine Nat.le_of_eq ?_
      rw [hitems, List.countP_append, List.countP_singleton]
    · rw [hitems, List.countP_singleton]
      omega
    · rw [hitems, List.countP_nil]
      omega
  have haccount : (s.notify m).1.account =
      s.answers + (q.items.countP Message.isHosts + s.busesOpen) := by
    rw [hq]
    rfl
  rw [haccount, account, hostOpen]
  omega

/-! ### Receiving -/

/-- A response for the host is one more on its account. -/
theorem account_deliverResponse_le (s : Stack) (i : Nat) (channel : Channel)
    (hm : m.isResponse = true) :
    (s.deliverResponse i channel m).account ≤ s.account + if m.isHosts then 1 else 0 := by
  rw [deliverResponse]
  split
  · cases hb : s.buses[i]? with
    | none =>
        simp only [answerReader, hb]
        omega
    | some b =>
        rcases answerReader_cases hb m with ⟨-, hreader⟩ | ⟨-, hdrop⟩
        · have hsame := account_of_replaces hb hreader
          have hopen : Bus.hostOpen { b with responses := (b.responses.put m).1 } = b.hostOpen :=
            rfl
          omega
        · rw [hdrop]
          exact Nat.le_add_right _ _
  · split
    · next hsource =>
        have htells := (tellsHost_answerHost s i m).account_le
        simpa [Message.isHosts, hsource] using htells
    · split
      · have hsends := (sends_answerMe s i hm).mono fun _ _ => Reply.notHosts
        exact Nat.le_trans (Nat.le_of_eq (account_of_sends hsends)) (Nat.le_add_right _ _)
      · have hsends := (sends_answerBridge s i channel m).mono fun _ _ => Reply.notHosts
        exact Nat.le_trans (Nat.le_of_eq (account_of_sends hsends)) (Nat.le_add_right _ _)

/-- An answered request is no longer open. -/
theorem hostOpen_settling {entry : Message} (h : b.pendingFor? m = some entry) :
    (b.settling m).hostOpen + (if entry.isHosts then 1 else 0) = b.hostOpen := by
  have hcount := Ledger.countP_eraseP Message.isHosts h
  have hopen : (b.settling m).hostOpen = b.outbound.items.countP Envelope.isHosts +
      (b.ledger.entries.eraseP m.answers).countP Message.isHosts := by
    rw [Bus.hostOpen, Bus.settling, Ledger.entries_extract]
  rw [hopen, Bus.hostOpen]
  omega

/-- **A look at a link does not raise the account of the host**: who is answered was open. -/
theorem account_receive_le (s : Stack) (i : Nat)
    (hchannel : ∀ b, s.buses[i]? = some b → b.config.channel ≠ .hostKcs) :
    (s.receive i).1.account ≤ s.account := by
  rcases receive_cases s i with ⟨h, -⟩ | ⟨b, link, u, hworker, hread, hroute⟩
  · exact Nat.le_of_eq (congrArg account h)
  · obtain ⟨-, hb, -⟩ := workerBus_eq_some_iff.mp hworker
    have hu : u.account = s.account := by
      have hsame := account_of_replaces hb hread
      have hopen : Bus.hostOpen { b with link } = b.hostOpen := rfl
      omega
    have hub := hread.getElem?_self hb
    rcases hroute with ⟨h, -⟩ | ⟨m, -, ⟨hm, h⟩ | ⟨hm, h⟩⟩
    · refine Nat.le_of_eq ?_
      rw [h, hu]
    · rw [h, ← hu]
      rcases routeResponse_cases hub m with ⟨-, hunmatched⟩ | ⟨entry, v, hentry, hsettle, hdeliver⟩
      · rw [hunmatched]
        exact Nat.le_refl _
      · have hsettled := account_of_replaces hub hsettle
        have hopen := hostOpen_settling hentry
        have hanswer := account_deliverResponse_le v i b.config.channel (m := m.answering entry) hm
        have hhosts : (m.answering entry).isHosts = entry.isHosts := rfl
        rw [hhosts] at hanswer
        have hsame : Bus.config { b with link } = b.config := rfl
        rw [hdeliver, hsame]
        omega
    · rw [h, ← hu]
      rcases routeRequest_cases u i { b with link } hm with hbridge | ⟨es, hnotify⟩
      · have hme : Channel.meIpmb ≠ .hostKcs := by decide
        have hsends := hbridge.mono fun _ _ => From.notHosts hme
        exact Nat.le_of_eq (account_of_sends hsends)
      · have hnot : Message.isHosts { m with seqSource := m.seq, infSource := b.config.channel } =
            false := by
          simpa [Message.isHosts] using hchannel b hb
        have hle := account_notify_le u { m with seqSource := m.seq, infSource := b.config.channel }
        rw [hnot] at hle
        rw [hnotify]
        exact hle

/-! ### Writing -/

/-- The first half of a write moves a request from the queue to the records. -/
theorem account_transmitBegin_le (s : Stack) (i : Nat) :
    (s.transmitBegin i).1.account ≤ s.account := by
  rcases transmitBegin_cases s i with h | ⟨b, e, rest, hworker, hidle, hitems, h⟩
  · exact Nat.le_of_eq (congrArg account h)
  · obtain ⟨-, hb, -⟩ := workerBus_eq_some_iff.mp hworker
    have hopen : b.hostOpen =
        (if e.isHosts then 1 else 0) + rest.countP Envelope.isHosts +
          b.ledger.entries.countP Message.isHosts := by
      rw [Bus.hostOpen, hitems, List.countP_cons]
      omega
    have hrest : ∀ c, Bus.hostOpen c = rest.countP Envelope.isHosts +
        c.ledger.entries.countP Message.isHosts → c.ledger = b.ledger →
          c.hostOpen ≤ b.hostOpen := by
      intro c hc hledger
      rw [hc, hledger, hopen]
      omega
    rcases h with ⟨-, -, h⟩ | ⟨-, -, h⟩ | ⟨hrequest, h⟩
    · have hle := hrest (b.withItems rest) rfl rfl
      have hsum := account_of_replaces hb h
      omega
    · have hle := hrest ((b.withItems rest).holding (e.addressed b)) rfl rfl
      have hsum := account_of_replaces hb h
      omega
    · have hsum := account_of_replaces hb h
      have hhosts : e.isHosts = e.msg.isHosts := by simp [Envelope.isHosts, hrequest]
      have hstaged : ((b.withItems rest).staging e.staged s.clock.now).hostOpen =
          rest.countP Envelope.isHosts + (b.ledger.entries.countP Message.isHosts +
            if e.msg.isHosts then 1 else 0) := by
        have hentries : ((b.withItems rest).staging e.staged s.clock.now).hostOpen =
            rest.countP Envelope.isHosts +
              (b.ledger.entries ++ [{ e.staged.msg with timestamp := s.clock.now }]).countP
                Message.isHosts := rfl
        rw [hentries, List.countP_append, List.countP_singleton]
        rfl
      rw [hhosts] at hopen
      omega

/-- **The end of a write raises the account only where it reopens a request**: one of the host that
could not be written, while its record has gone. -/
theorem account_finishWrite_le (hb : s.buses[i]? = some b) (hhand : b.inHand = some e) :
    (s.finishWrite i b e).account ≤ s.account + if b.reopens then 1 else 0 := by
  rcases finishWrite_cases hb e with ⟨-, h⟩ | ⟨hfails, -, h⟩ | ⟨hfails, hrequest, -, u, hu, h⟩
  · have hsum := account_of_replaces hb h
    have hle := b.hostOpen_delivered_le e
    omega
  · have hsum := account_of_replaces hb h
    have hle := Bus.hostOpen_retrying_le hhand hfails
    omega
  · have hsum := account_of_replaces hb hu
    have hopen := Bus.hostOpen_undelivered (b := b) hrequest
    rw [h]
    rcases reportFailure_cases u e.msg with ⟨hsource, hhost⟩ | ⟨-, hsends⟩
    · have htells := hhost.account_le
      have hreopens : b.reopens = !(b.withdrawn? e).any Message.isHosts := by
        simp [Bus.reopens, hhand, hfails, Envelope.isHosts, Message.isHosts, hrequest, hsource]
      cases hfound : (b.withdrawn? e).any Message.isHosts with
      | false =>
          simp only [hreopens, hfound, Bool.not_false, if_true] at hopen ⊢
          omega
      | true =>
          simp only [hreopens, hfound, Bool.not_true, Bool.false_eq_true, if_true,
            if_false] at hopen ⊢
          omega
    · have hsame := account_of_sends (hsends.mono fun _ _ => Reply.notHosts)
      omega

/-! ### Sweeping -/

/-- A sweep only closes requests. -/
theorem account_sweep_le (s : Stack) : s.sweep.1.account ≤ s.account := by
  have hopen : ∀ (b : Bus) (now timeout : UInt32),
      (b.sweptAt now timeout).hostOpen ≤ b.hostOpen := by
    intro b now timeout
    rw [Bus.sweptAt]
    split
    · exact Nat.add_le_add_left List.filter_sublist.countP_le _
    · exact Nat.le_refl _
  have hbuses : s.sweep.1.busesOpen ≤ s.busesOpen := by
    rw [busesOpen, s.sweep_eq.1, List.map_map]
    exact List.sum_le_sum fun b _ => hopen b _ _
  have hanswers : s.sweep.1.answers = s.answers := by rw [s.sweep_eq.1]; rfl
  have hrequests : s.sweep.1.requestsOpen = s.requestsOpen := by rw [s.sweep_eq.1]; rfl
  rw [account, account, hostOpen, hostOpen, hanswers, hrequests]
  omega

/-! ### The host's own requests -/

/-- A request of the host is one on its account, open or refused. -/
theorem account_submitFromHost_le (s : Stack) (m : Message) :
    (s.submitFromHost m).1.account ≤ s.account + 1 := by
  rcases submitFromHost_cases s m with h | ⟨i, h⟩ | ⟨u, hu, hhost⟩
  · rw [h]
    have hnotify := account_notify_le s { m with infSource := .hostKcs }
    split at hnotify <;> omega
  · have hopen := h.busesOpen_le
    have hanswers := answers_of_kcs h.sends.kcs
    have hrequests := requestsOpen_of_requests h.sends.requests
    rw [account, account, hostOpen, hostOpen]
    omega
  · have hsame := account_of_sends (hu.mono fun _ _ hfalse => hfalse.elim)
    have htells := hhost.account_le
    omega

/-! ### Dispatching -/

/-- A handler leaves the originator of a message as it is. -/
def KeepsOriginator (handler : Handler) : Prop := ∀ m, (handler m).infSource = m.infSource

/-- Serving a request opens at most the one inside it, for the same originator. -/
theorem serve_outcome (s : Stack) {handler : Handler} (hhandler : KeepsOriginator handler)
    (m : Message) :
    let r := s.serve handler m
    r.2.1.infSource = m.infSource ∧ r.1.requests = s.requests ∧ r.1.kcs = s.kcs ∧
      r.1.busesOpen ≤ s.busesOpen + if m.isHosts then 1 else 0 := by
  intro r
  rcases serve_cases s handler m with ⟨n, hn, hstack, hout⟩ | ⟨hfn, -, n, hn, hstack, hout⟩
  · have hstack' : r.1 = s := hstack
    refine ⟨?_, by rw [hstack'], by rw [hstack'], ?_⟩
    · rcases hout with hout | hout
      · exact (congrArg Message.infSource hout).trans ((hhandler n).trans hn.2.2)
      · exact (congrArg Message.infSource hout).trans hn.2.2
    · rw [hstack']
      omega
  · have hrequest : n.isResponse = false := Message.isResponse_of_enterprise (hn.1.trans hfn)
    have hstack' : r.1 = (s.messageOut n).1 := hstack
    have hout' : r.2.1 = (s.messageOut n).2 := hout
    have hsends := sends_messageOut s hrequest
    rw [hstack', hout', ← hn.2.2]
    refine ⟨?_, hsends.requests, hsends.kcs, ?_⟩
    · rcases messageOut_outcome s hrequest with ⟨h, -⟩ | ⟨⟨code, h⟩, -⟩
      · rw [h]
      · rw [h]
        rfl
    · by_cases hsource : n.infSource = .hostKcs
      · have hhosts : m.isHosts = true := by
          rw [Message.isHosts, ← hn.2.2, hsource]
          rfl
        rw [hhosts]
        rcases messageOut_outcome s hrequest with ⟨-, i, hone⟩ | ⟨-, hreply⟩
        · exact hone.busesOpen_le
        · have hsame := (Extends.of_sends (hreply.mono fun _ _ => Reply.notHosts)).busesOpen
          simp only [if_true]
          omega
      · have hsame := (Extends.of_sends (hsends.mono fun _ _ => From.notHosts hsource)).busesOpen
        omega

/-- The response to a served request is a buffer for the host, or nothing that concerns it. -/
theorem conclude_outcome (r : Stack × Message × List Message) :
    (conclude r).requests = r.1.requests ∧ (conclude r).busesOpen = r.1.busesOpen ∧
      (conclude r).answers ≤ r.1.answers + if r.2.1.isHosts then 1 else 0 := by
  have hfinal : (finalResponse r.2.1).infSource = r.2.1.infSource := by
    rw [finalResponse]
    split
    · rfl
    · split
      · rw [openWithIana]
        split <;> rfl
      · rfl
  rw [conclude]
  split
  · exact ⟨rfl, rfl, Nat.le_add_right _ _⟩
  · rcases respond_cases r.1 (finalResponse r.2.1) with ⟨hsource, hhost⟩ | ⟨hsource, hsends⟩
    · have hhosts : r.2.1.isHosts = true := by
        rw [Message.isHosts, ← hfinal, hsource]
        rfl
      rw [hhosts]
      exact ⟨hhost.requests, busesOpen_of_buses hhost.buses, hhost.answers_le⟩
    · have hnot : Sends NotHosts r.1 (r.1.respond (finalResponse r.2.1)) := by
        refine hsends.mono ?_
        rintro busy e ⟨b, rfl⟩
        simp [NotHosts, Envelope.isHosts, Message.isHosts, Bus.responseFor, hsource]
      refine ⟨hnot.requests, (Extends.of_sends hnot).busesOpen, ?_⟩
      rw [answers_of_kcs hnot.kcs]
      exact Nat.le_add_right _ _

/-- **The dispatcher raises the account only where it opens a request and answers at once**: who is
served was open. -/
theorem account_dispatchUpTo_le (s : Stack) {handler : Handler}
    (hhandler : KeepsOriginator handler) :
    let t := (dispatchUpTo handler 1 s).1
    t.account ≤ s.account + if s.busesOpen < t.busesOpen ∧ s.answers < t.answers then 1 else 0 := by
  intro t
  rcases dispatchUpTo_one s handler with ⟨-, h⟩ | ⟨m, rest, hitems, h⟩
  · have ht : t = s := h
    rw [ht]
    exact Nat.le_add_right _ _
  · have htaken : s.requestsOpen = rest.countP Message.isHosts + if m.isHosts then 1 else 0 := by
      rw [requestsOpen, hitems, List.countP_cons]
    obtain ⟨es, hdispatch⟩ := dispatch_eq (s.withRequests rest) handler m
    have ht : t = conclude (((s.withRequests rest).report es).serve handler m) :=
      h.trans hdispatch
    have hopen₀ : ((s.withRequests rest).report es).busesOpen = s.busesOpen := rfl
    have hanswers₀ : ((s.withRequests rest).report es).answers = s.answers := rfl
    have hleft₀ : ((s.withRequests rest).report es).requestsOpen =
        rest.countP Message.isHosts := rfl
    generalize (s.withRequests rest).report es = u at ht hopen₀ hanswers₀ hleft₀
    obtain ⟨hsource, hrequests, hkcs, hopen⟩ := serve_outcome u hhandler m
    obtain ⟨hrequests', hopen', hanswers⟩ := conclude_outcome (u.serve handler m)
    have hhosts : (u.serve handler m).2.1.isHosts = m.isHosts := by
      rw [Message.isHosts, Message.isHosts, hsource]
    have hleft : t.requestsOpen = u.requestsOpen := by
      rw [ht, requestsOpen, hrequests', hrequests]
      rfl
    rw [← ht] at hopen' hanswers
    rw [hhosts, answers_of_kcs hkcs] at hanswers
    rw [account, account, hostOpen, hostOpen, hleft, htaken]
    cases hm : m.isHosts with
    | false =>
        simp only [hm, Bool.false_eq_true, if_false] at hopen hanswers ⊢
        omega
    | true =>
        simp only [hm, if_true] at hopen hanswers ⊢
        split <;> omega

end Stack

end ManagementBus
