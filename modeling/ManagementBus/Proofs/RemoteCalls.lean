import ManagementBus.Proofs.OneBus
import ManagementBus.Proofs.Readers

/-!
# Reading over a link is calling the handler

Two stacks are joined where one bus of each is the end of one link. A reader on the near stack sends
a request; the far stack hears it, has it served by a handler, and sends what the handler has made
of it; the near stack hears that and hands it to the reader. Both stacks are then empty again, so
that readers may follow each other without end, while the numbers of their requests go round.

The near stack is followed up to the frame that it sends, then the far stack from that frame to its
own, then the near stack from there to the reader. The two contents meet in the link.

## Main results

* `Joined.Holds.perform`: a step of one stack is seen by the other at its end of the link.
* `Joined.Holds.ask`, `Joined.Holds.serve`, `Joined.Holds.answer`: the three parts of an exchange.
* `Joined.Holds.exchange`: a reader gets what a call of the handler gives, and leaves both stacks
  empty.
* `reads_refine_calls`: so do all readers, one after the other.
* `bridge_read_unserved`: a request to bridge is not served by the handler.
-/

namespace ManagementBus

open EnvelopeProperty Stack Scheduler

/-- A request that is read over a link, and the handler that serves it there. -/
structure RemoteRead where
  request : Message
  handler : Handler

variable {m r : Message} {handler : Handler}

/-- The function of a message is that of a request. -/
structure Message.Asks (m : Message) : Prop where
  even : m.netFn % 2 = 0
  small : m.netFn < 64

/-- A message that asks is a request. -/
theorem Message.Asks.isResponse (h : m.Asks) : m.isResponse = false :=
  Frame.forall_byte (p := fun b => b % 2 = 0 → (b &&& 1 != 0) = false) (by decide) _ h.even

/-- Its function fits into six bits. -/
theorem Message.Asks.netFn_and (h : m.Asks) : m.netFn &&& 0x3F = m.netFn :=
  Frame.forall_byte (p := fun b => b < 64 → b &&& 0x3F = b) (by decide) _ h.small

/-- The function of its response fits into six bits. -/
theorem Message.Asks.succ_and (h : m.Asks) : (m.netFn + 1) &&& 0x3F = m.netFn + 1 :=
  Frame.forall_byte (p := fun b => b % 2 = 0 → b < 64 → (b + 1) &&& 0x3F = b + 1) (by decide) _
    h.even h.small

/-- A message with the next function is a response. -/
theorem Message.Asks.isResponse_of_succ (h : m.Asks) (hsucc : r.netFn = m.netFn + 1) :
    r.isResponse = true := by
  rw [Message.isResponse, hsucc]
  exact Frame.forall_byte (p := fun b => b % 2 = 0 → ((b + 1) &&& 1 != 0) = true) (by decide) _
    h.even

/-- A handler leaves room for the enterprise number before the data of an enterprise command: its
answers fit into a frame. -/
def Handler.Brief (handler : Handler) : Prop :=
  ∀ m, (handler m).data.length +
    (if m.netFn = NetFn.enterprise then ianaBytes.length else 0) ≤ Frame.dataMax

/-- A brief handler answers with data that can be received. -/
theorem Handler.Brief.length_answer_le (h : handler.Brief) (m : Message) :
    (handler.answer m).2.length ≤ Frame.dataMax := by
  have hdata := h m.presented
  have hnetFn : m.presented.netFn = m.netFn := rfl
  rw [hnetFn] at hdata
  rw [Handler.answer]
  split
  · exact Nat.zero_le _
  · simp only
    split
    · exact Nat.zero_le _
    · split
      · next henterprise =>
          rw [if_pos henterprise] at hdata
          rw [List.length_append, Nat.add_comm]
          exact hdata
      · next hother =>
          rw [if_neg hother] at hdata
          exact hdata

/-- A request can be read over a link to a stack of a policy: it is one that the stack responds to
and does not bridge, its data can be received, and its handler only answers, and that briefly. -/
structure RemoteRead.Fair (read : RemoteRead) (policy : Policy) : Prop where
  asks : read.request.Asks
  brief : read.request.data.length ≤ Frame.dataMax
  responds : policy.answersItself read.request.netFn read.request.cmd = false
  served : ¬read.request.IsBridge
  answers : read.handler.Answers
  briefly : read.handler.Brief

/-- Two stacks with callers, and the bus of each at which one link ends. -/
structure Joined where
  near : Scheduler
  nearBus : Nat
  far : Scheduler
  farBus : Nat

namespace Joined

/-- The two stacks seen from the other end. -/
def swap (w : Joined) : Joined := ⟨w.far, w.farBus, w.near, w.nearBus⟩

/-- The near stack takes a step; what that does to the link is there at the far end. -/
def perform (w : Joined) (a : Action) : Joined :=
  { w with
    near := w.near.perform a
    far :=
      match (w.near.perform a).stack.link? w.nearBus with
      | none => w.far
      | some l => w.far.perform (.relink w.farBus l.swap) }

/-- The near stack takes some steps. -/
def after (w : Joined) (as : List Action) : Joined := as.foldl perform w

/-- A reader of the near stack queues its request, which goes out. -/
def ask (w : Joined) (m : Message) : Joined :=
  w.after [.begin .read w.nearBus m, .transmitBegin w.nearBus, .transmitEnd w.nearBus]

/-- The near stack hears a request and has it served, and the response goes out. -/
def serve (w : Joined) (handler : Handler) : Joined :=
  w.after [.receive w.nearBus, .dispatch handler, .transmitBegin w.nearBus, .transmitEnd w.nearBus]

/-- The near stack hears a response, and one of its readers goes on. -/
def answer (w : Joined) (k : Nat) : Joined := w.after [.receive w.nearBus, .resume k]

/-- A reader of the near stack reads over the link. -/
def exchange (w : Joined) (read : RemoteRead) : Joined :=
  ((w.ask read.request).swap.serve read.handler).swap.answer w.near.calls.length

/-- One reader after the other. -/
def exchanges (w : Joined) (reads : List RemoteRead) : Joined := reads.foldl exchange w

/-- Both stacks have only the bus at their end of the link, and these contents; what has arrived at
one end is what the other has sent. -/
structure Holds (w : Joined) (nearPolicy farPolicy : Policy) (near far : BusConfig)
    (x y : Contents) : Prop where
  near : w.near.stack.Contains nearPolicy w.nearBus near x
  far : w.far.stack.Contains farPolicy w.farBus far y
  forth : y.inbox = x.outbox
  back : y.outbox = x.inbox

/-- Two buses have each the address of the other as that of their peer. -/
def Crossed (near far : BusConfig) : Prop :=
  near.targetAddr = far.selfAddr ∧ far.targetAddr = near.selfAddr

variable {w : Joined} {p q : Policy} {a b : BusConfig} {x y z : Contents} {entry : Message}
  {action : Action} {n : SequenceNumber} {k : Nat}

/-- What two joined stacks hold, seen from the other end. -/
theorem Holds.swap (h : w.Holds p q a b x y) : w.swap.Holds q p b a y x :=
  ⟨h.far, h.near, h.back.symm, h.forth.symm⟩

/-- **A step of the near stack** is seen by the far one at its end of the link. -/
theorem Holds.perform (h : w.Holds p q a b x y) (hcrossed : Crossed a b)
    (hstep : (w.near.perform action).stack.Contains p w.nearBus a z) :
    (w.perform action).Holds p q a b z { y with inbox := z.outbox, outbox := z.inbox } := by
  obtain ⟨c, hc, hholds⟩ := hstep.bus
  have hlink : (w.near.perform action).stack.link? w.nearBus = some c.link := by
    rw [link?, hc]
    rfl
  have hworks := hholds.link.swap
  rw [hcrossed.1, ← hcrossed.2] at hworks
  have hfar : (w.perform action).far = w.far.perform (.relink w.farBus c.link.swap) := by
    simp only [Joined.perform, hlink]
  refine ⟨hstep, ?_, rfl, rfl⟩
  rw [hfar]
  exact contains_relink h.far hworks

/-- The callers of the far stack do not notice the steps of the near one. -/
theorem calls_far_after (w : Joined) (as : List Action) :
    (w.after as).far.calls = w.far.calls := by
  induction as generalizing w with
  | nil => rfl
  | cons action as ih =>
      have hstep : (w.perform action).far.calls = w.far.calls := by
        simp only [Joined.perform]
        split
        · rfl
        · rfl
      exact (ih (w.perform action)).trans hstep

/-! ### The three parts of an exchange -/

/-- **A request goes out**, under some number, and stays pending for its reader. -/
theorem Holds.ask (h : w.Holds p q a b {} {}) (hcrossed : Crossed a b)
    (hrequest : m.isResponse = false) :
    ∃ (n : SequenceNumber) (now : UInt32) (call : Call),
      (w.ask m).Holds p q a b
        { outbox := [Frame.sent (asked a m n)]
          pending := [{ asked a m n with seqTarget := n.toByte, timestamp := now }]
          locks := [.read] }
        { inbox := [Frame.sent (asked a m n)] } ∧
      (w.ask m).near.calls = w.near.calls ++ [call] ∧ call.Expects w.nearBus := by
  obtain ⟨n, call, hbegun, hcalls, hexpects⟩ := contains_begin h.near m
  have hqueued := h.perform hcrossed hbegun
  have hsmall : n.toByte.toNat < 64 := by
    rw [SequenceNumber.toNat_toByte]
    exact n.isLt
  obtain ⟨now, htaken⟩ := contains_transmitBegin_request hqueued.near rfl rfl hrequest
    hsmall (fun _ hmem => absurd hmem List.not_mem_nil)
  have hstaged := hqueued.perform hcrossed htaken
  have hwritten := hstaged.perform hcrossed
    (contains_transmitEnd hstaged.near rfl rfl (Nat.le_refl 1))
  exact ⟨n, now, call, hwritten, hcalls, hexpects⟩

/-- **A request is served**: a response with what the handler makes of it goes out. -/
theorem Holds.serve (h : w.Holds p q a b { inbox := [Frame.sent m] } y) (handler : Handler)
    (hhandler : handler.Answers) (hcrossed : Crossed a b) (hengine : a.channel ≠ .meIpmb)
    (hhost : a.channel ≠ .hostKcs)
    (hbrief : m.data.length ≤ Frame.dataMax) (hrequest : (Frame.got m).isResponse = false)
    (hreturn : (answered a (Frame.got m)).isResponse = true) (hbridge : ¬(Frame.got m).IsBridge)
    (hitself : p.answersItself (Frame.got m).netFn (Frame.got m).cmd = false) :
    ∃ r, AnswersWith (arrivedOn (Frame.got m) a.channel)
        (handler.answer (arrivedOn (Frame.got m) a.channel)) r ∧
      (w.serve handler).Holds p q a b { outbox := [Frame.sent (answered a r)] }
        { y with inbox := [Frame.sent (answered a r)], outbox := [] } := by
  have hheard := h.perform hcrossed (contains_receive_request h.near rfl
    (Frame.message?_sent hbrief) hrequest hengine rfl)
  obtain ⟨r, hanswers, hserved⟩ := contains_dispatch hhandler hheard.near rfl hbridge
    hitself hhost rfl rfl rfl
  have hqueued := hheard.perform hcrossed hserved
  have hresponse : (answered a r).isResponse = true := by
    rw [hanswers.1]
    exact hreturn
  have hstaged := hqueued.perform hcrossed
    (contains_transmitBegin_response hqueued.near rfl rfl hresponse rfl rfl)
  have hwritten := hstaged.perform hcrossed
    (contains_transmitEnd hstaged.near rfl rfl (Nat.zero_le 1))
  exact ⟨r, hanswers, hwritten⟩

/-- **A response is handed to the reader** whose request it answers. -/
theorem Holds.answer {call : Call}
    (h : w.Holds p q a b { inbox := [Frame.sent r], pending := [entry], locks := [.read] } y)
    (hcrossed : Crossed a b) (hbrief : r.data.length ≤ Frame.dataMax)
    (hresponse : (Frame.got r).isResponse = true) (hanswers : (Frame.got r).answers entry = true)
    (hself : entry.infSource = .self) (hcall : w.near.calls[k]? = some call)
    (hexpects : call.Expects w.nearBus) :
    ∃ call', (w.answer k).Holds p q a b {} { y with inbox := [], outbox := [] } ∧
      (w.answer k).near.calls = w.near.calls.set k call' ∧
      call'.result? = some (.read (.ok ()) ((Frame.got r).answering entry)) := by
  have hheard := h.perform hcrossed (contains_receive_response h.near rfl
    (Frame.message?_sent hbrief) hresponse rfl hanswers hself rfl)
  obtain ⟨call', htaken, hcalls, hresult⟩ :=
    contains_resume hheard.near hcall hexpects rfl
  exact ⟨call', hheard.perform hcrossed htaken, hcalls, hresult⟩

/-! ### What the messages are -/

/-- The request of a reader as the far stack hands it to its handler. -/
def conveyed (near far : BusConfig) (m : Message) (n : SequenceNumber) : Message where
  destAddr := far.selfAddr
  netFn := m.netFn
  headerChecksum := Frame.headerSum (asked near m n)
  srcAddr := near.selfAddr <<< 1
  seq := n.toByte
  cmd := m.cmd
  data := m.data
  messageChecksum := Frame.messageSum (asked near m n)
  seqSource := n.toByte
  infSource := far.channel

/-- A sequence number fits into six bits. -/
theorem toByte_and (n : SequenceNumber) : n.toByte &&& 0x3F = n.toByte := by
  revert n
  decide

/-- The far stack hears what the reader has asked. -/
theorem arrivedOn_got_asked (h : m.Asks) (hcrossed : Crossed a b) (haddr : a.targetAddr ≤ 0x7F) :
    arrivedOn (Frame.got (asked a m n)) b.channel = conveyed a b m n := by
  have hdest : a.targetAddr &&& 0x7F = b.selfAddr := by
    rw [← hcrossed.1]
    exact Frame.forall_byte (p := fun b => b ≤ 0x7F → b &&& 0x7F = b) (by decide) _ haddr
  have hlun : (0 : UInt8) &&& 3 = 0 := by decide
  have hrequest : (Frame.wired (asked a m n)).isResponse = false := h.isResponse
  have hgot : Frame.got (asked a m n) =
      { conveyed a b m n with seqSource := 0, infSource := .self } := by
    simp only [Frame.got, Frame.reading, hrequest, Bool.false_eq_true, if_false]
    simp only [Frame.wired, asked, conveyed, hdest, h.netFn_and, toByte_and, hlun]
  rw [hgot]
  rfl

/-- The message that arrives for a response that has been made of a request. -/
structure Carries (m : Message) (n : SequenceNumber) (r got : Message) : Prop where
  netFn : got.netFn = m.netFn + 1
  cmd : got.cmd = m.cmd
  seq : got.seq = n.toByte
  completionCode : got.completionCode = r.completionCode
  data : got.data = r.data

/-- The near stack hears what the far one has made of the request. -/
theorem carries_got_answered {answer : UInt8 × List UInt8} (h : m.Asks)
    (hanswers : AnswersWith (conveyed a b m n) answer r) :
    Carries m n r (Frame.got (answered b r)) := by
  have hnetFn : r.netFn = m.netFn := by rw [hanswers.1, conveyed]
  have hcmd : r.cmd = m.cmd := by rw [hanswers.1, conveyed]
  have hseq : r.seq = n.toByte := by rw [hanswers.1, conveyed]
  have hresponse : (Frame.wired (answered b r)).isResponse = true :=
    h.isResponse_of_succ (congrArg (· + 1) hnetFn)
  exact {
    netFn := by
      show (r.netFn + 1) &&& 0x3F = m.netFn + 1
      rw [hnetFn, h.succ_and]
    cmd := hcmd
    seq := by
      show r.seq &&& 0x3F = n.toByte
      rw [hseq, toByte_and]
    completionCode := if_pos hresponse
    data := rfl }

/-! ### Whole exchanges -/

/-- A reader has got what a call of the handler gives for its request, with the next function and
the same command. -/
def Answered (near far : BusConfig) (read : RemoteRead) (call : Call) : Prop :=
  ∃ (n : SequenceNumber) (response : Message),
    call.result? = some (.read (.ok ()) response) ∧
    response.netFn = read.request.netFn + 1 ∧ response.cmd = read.request.cmd ∧
    (response.completionCode, response.data.bytes) =
      read.handler.answer (conveyed near far read.request n)

variable {read : RemoteRead} {reads : List RemoteRead}

/-- **An exchange is a call of the handler**, and leaves both stacks empty. -/
theorem Holds.exchange (h : w.Holds p q a b {} {}) (hcrossed : Crossed a b)
    (haddr : a.targetAddr ≤ 0x7F) (hengine : b.channel ≠ .meIpmb) (hhost : b.channel ≠ .hostKcs)
    (hread : read.Fair q) :
    ∃ call, (w.exchange read).Holds p q a b {} {} ∧
      (w.exchange read).near.calls = w.near.calls ++ [call] ∧ Answered a b read call := by
  obtain ⟨n, now, call, hasked, hcalls, hexpects⟩ := h.ask hcrossed hread.asks.isResponse
  -- The request is served as it is heard.
  have hheard : arrivedOn (Frame.got (asked a read.request n)) b.channel =
      conveyed a b read.request n := arrivedOn_got_asked hread.asks hcrossed haddr
  have hnetFn : (Frame.got (asked a read.request n)).netFn = read.request.netFn :=
    hread.asks.netFn_and
  obtain ⟨r, hanswers, hserved⟩ := hasked.swap.serve read.handler hread.answers
    ⟨hcrossed.2, hcrossed.1⟩ hengine hhost hread.brief
    (by rw [Message.isResponse, hnetFn]; exact hread.asks.isResponse)
    (hread.asks.isResponse_of_succ (congrArg (· + 1) hnetFn))
    (by rw [Message.IsBridge, hnetFn]; exact hread.served)
    (by rw [hnetFn]; exact hread.responds)
  rw [hheard] at hanswers
  have hlength := hread.briefly.length_answer_le (conveyed a b read.request n)
  have hanswer := hanswers.2 (Nat.le_trans hlength (by decide))
  have hcarries := carries_got_answered hread.asks hanswers
  -- The response names the request that is pending.
  have hnames : (Frame.got (answered b r)).answers
      { asked a read.request n with seqTarget := n.toByte, timestamp := now } = true := by
    rw [Message.answers_iff, hcarries.netFn, hcarries.cmd, hcarries.seq, UInt8.add_sub_cancel]
    exact ⟨rfl, rfl, rfl⟩
  have hwaits : ((w.ask read.request).swap.serve read.handler).swap.near.calls =
      w.near.calls ++ [call] := (calls_far_after _ _).trans hcalls
  obtain ⟨call', hdone, hcalls', hresult⟩ := hserved.swap.answer (k := w.near.calls.length) hcrossed
    (by
      have hdata := congrArg (fun answer => answer.2.length) hanswer
      exact Nat.le_trans (Nat.le_of_eq hdata) hlength)
    (hread.asks.isResponse_of_succ hcarries.netFn) hnames rfl
    (by rw [hwaits]; exact List.getElem?_concat_length) hexpects
  refine ⟨call', hdone, ?_, n, _, hresult, hcarries.netFn, hcarries.cmd, ?_⟩
  · rw [hwaits, List.set_append_right _ _ (Nat.le_refl _), Nat.sub_self] at hcalls'
    exact hcalls'
  · rw [← hanswer, ← hcarries.completionCode, ← hcarries.data]
    rfl

/-- **Exchanges are calls of the handlers**, one after the other. -/
theorem Holds.exchanges (h : w.Holds p q a b {} {}) (hcrossed : Crossed a b)
    (haddr : a.targetAddr ≤ 0x7F) (hengine : b.channel ≠ .meIpmb) (hhost : b.channel ≠ .hostKcs)
    (hreads : ∀ read ∈ reads, read.Fair q) :
    ∃ calls, (w.exchanges reads).Holds p q a b {} {} ∧
      (w.exchanges reads).near.calls = w.near.calls ++ calls ∧
      List.Forall₂ (Answered a b) reads calls := by
  induction reads generalizing w with
  | nil => exact ⟨[], h, (List.append_nil _).symm, .nil⟩
  | cons read reads ih =>
      obtain ⟨call, hholds, hcalls, hanswered⟩ :=
        h.exchange hcrossed haddr hengine hhost (hreads read List.mem_cons_self)
      obtain ⟨calls, hdone, hrest, hothers⟩ :=
        ih hholds fun read hmem => hreads read (List.mem_cons_of_mem _ hmem)
      refine ⟨call :: calls, hdone, ?_, .cons hanswered hothers⟩
      have hall : (w.exchanges (read :: reads)).near.calls =
          (w.exchange read).near.calls ++ calls := hrest
      rw [hall, hcalls, List.append_assoc]
      rfl

end Joined

/-- **Reading over a link refines calling the handler.** Two stacks have one usable bus each, and
these are the ends of one link. Requests of any number are read at the near end and served at the
far one, which is neither that of the management engine nor that of the host. Then every reader
gets, without fault, what a call of its handler gives for its request, and both stacks are left
empty. -/
theorem reads_refine_calls {nearSetup farSetup : Setup} {near far : Stack} {i j : Nat}
    {a b : BusConfig} {reads : List RemoteRead} (hnear : nearSetup.build = .ok near)
    (hfar : farSetup.build = .ok far) (hi : near.OnlyUsable i a) (hj : far.OnlyUsable j b)
    (hcrossed : Joined.Crossed a b)
    (hnearEnd : near.link? i = some (Link.pair a.selfAddr b.selfAddr))
    (hfarEnd : far.link? j = some (Link.pair b.selfAddr a.selfAddr))
    (hengine : b.channel ≠ .meIpmb) (hhost : b.channel ≠ .hostKcs)
    (hreads : ∀ read ∈ reads, read.Fair farSetup.policy) :
    List.Forall₂ (Joined.Answered a b) reads
        (Joined.exchanges ⟨atRest near, i, atRest far, j⟩ reads).near.calls ∧
      (Joined.exchanges ⟨atRest near, i, atRest far, j⟩ reads).Holds nearSetup.policy
        farSetup.policy a b {} {} := by
  have hnearHolds : near.Contains nearSetup.policy i a {} := by
    refine contains_of_build hnear hi fun l hl => ?_
    obtain rfl := Option.some.inj (hnearEnd.symm.trans hl)
    rw [hcrossed.1]
    exact Link.works_pair ..
  have hfarHolds : far.Contains farSetup.policy j b {} := by
    refine contains_of_build hfar hj fun l hl => ?_
    obtain rfl := Option.some.inj (hfarEnd.symm.trans hl)
    rw [hcrossed.2]
    exact Link.works_pair ..
  have haddr : a.targetAddr ≤ 0x7F := by
    obtain ⟨c, hc, rfl⟩ := Option.map_eq_some_iff.mp hi.1
    exact Setup.targetAddr_le_of_build hnear hc
  have hholds : Joined.Holds ⟨atRest near, i, atRest far, j⟩ nearSetup.policy farSetup.policy a b
      {} {} := ⟨hnearHolds, hfarHolds, rfl, rfl⟩
  obtain ⟨calls, hdone, hcalls, hanswered⟩ :=
    hholds.exchanges hcrossed haddr hengine hhost hreads
  have hall : (Joined.exchanges ⟨atRest near, i, atRest far, j⟩ reads).near.calls = calls := hcalls
  rw [hall]
  exact ⟨hanswered, hdone⟩

/-! ### A controller and a board -/

/-- The only bus of a stack is the only usable one. -/
theorem onlyUsable_soloStack {row : BusRow} (policy : Policy)
    (husable : row.config.isUsable = true) :
    (soloStack row policy).OnlyUsable 0 row.config := by
  refine ⟨rfl, husable, fun k config hk _ => ?_⟩
  cases k with
  | zero => rfl
  | succ k => cases hk

/-- The bus of a board, whose peer is the baseboard management controller. -/
def boardRow : BusRow where
  config := BusConfig.new 0 ⟨0x05⟩ 2 0x20 0x10
  link := Link.pair 0x20 0x10

/-- The controller and a board of a policy, at rest. -/
def controllerAndBoard (policy : Policy) : Joined :=
  ⟨atRest (soloStack bmcRow .default), 0, atRest (soloStack boardRow policy), 0⟩

/-- A handler that answers with the command. -/
def naming : Handler := fun m =>
  { m with completionCode := CompletionCode.success, data := ⟨[m.cmd], Nat.le_add_left 1 526⟩ }

/-- This handler only answers. -/
theorem answers_naming : naming.Answers := fun _ => rfl

/-- Its answers are brief. -/
theorem brief_naming : naming.Brief := by
  intro m
  have hlength : (naming m).data.length = 1 := rfl
  rw [hlength]
  split
  · decide
  · decide

/-- A command of any function, an enterprise command, and one without the enterprise number. -/
def boardReads : List RemoteRead :=
  [⟨{ netFn := 0x06, cmd := 0x01 }, naming⟩,
    ⟨{ netFn := 0x38, cmd := 0x10, data := ⟨[0x15, 0xA0, 0x00, 0x07], by decide⟩ }, naming⟩,
    ⟨{ netFn := 0x38, cmd := 0x10 }, naming⟩]

/-- The controller reads from the board. -/
theorem reads_refine_calls_board :
    List.Forall₂ (Joined.Answered bmcRow.config boardRow.config) boardReads
        ((controllerAndBoard .default).exchanges boardReads).near.calls ∧
      ((controllerAndBoard .default).exchanges boardReads).Holds .default .default bmcRow.config
        boardRow.config {} {} := by
  refine reads_refine_calls (build_soloStack .default (by decide))
    (build_soloStack .default (by decide)) (onlyUsable_soloStack .default (by decide))
    (onlyUsable_soloStack .default (by decide)) ⟨rfl, rfl⟩ rfl rfl (by decide) (by decide) ?_
  intro read hmem
  simp only [boardReads, List.mem_cons, List.not_mem_nil, or_false] at hmem
  rcases hmem with rfl | rfl | rfl
  · exact ⟨⟨by decide, by decide⟩, by decide, by decide, by decide, answers_naming, brief_naming⟩
  · exact ⟨⟨by decide, by decide⟩, by decide, by decide, by decide, answers_naming, brief_naming⟩
  · exact ⟨⟨by decide, by decide⟩, by decide, by decide, by decide, answers_naming, brief_naming⟩

/-! ### What a handler does not serve -/

/-- A request to bridge nothing. -/
def bridgeRead : RemoteRead where
  request := { netFn := 0x38, cmd := 0x02, data := bridgeRequest.data }
  handler := naming

/-- **A request to bridge is not served by the handler.** The board responds to every command, and
its handler has an answer; the reader gets the completion code of the bridge. -/
theorem bridge_read_unserved :
    Setup.build { rows := [bmcRow] } = .ok (soloStack bmcRow .default) ∧
      Setup.build { rows := [boardRow], policy := responding } =
        .ok (soloStack boardRow responding) ∧
      Joined.Crossed bmcRow.config boardRow.config ∧ boardRow.config.channel ≠ .meIpmb ∧
      boardRow.config.channel ≠ .hostKcs ∧ bridgeRead.request.Asks ∧
      bridgeRead.request.data.length ≤ Frame.dataMax ∧
      responding.answersItself bridgeRead.request.netFn bridgeRead.request.cmd = false ∧
      bridgeRead.handler.Answers ∧ bridgeRead.handler.Brief ∧
      (∀ n, bridgeRead.handler.answer
        (Joined.conveyed bmcRow.config boardRow.config bridgeRead.request n) =
          (CompletionCode.success, ianaBytes ++ [0x02])) ∧
      (((controllerAndBoard responding).exchanges [bridgeRead]).near.calls.map fun call =>
        call.handed?.map fun m => (m.netFn, m.cmd, m.completionCode, m.data.bytes)) =
          [some (0x39, 0x02, CompletionCode.invalidLength, [])] :=
  ⟨build_soloStack .default (by decide), build_soloStack responding (by decide), ⟨rfl, rfl⟩,
    by decide, by decide, ⟨by decide, by decide⟩, by decide, by decide, answers_naming,
    brief_naming, fun _ => rfl, by decide +kernel⟩

end ManagementBus
