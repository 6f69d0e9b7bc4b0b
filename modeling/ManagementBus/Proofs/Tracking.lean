import ManagementBus.Proofs.Manifest
import ManagementBus.Proofs.Waiting

/-!
# Which bridged requests are tracked

A request to bridge is accepted when what it carries has been queued. Later the worker of the bus
decides whether what it takes is recorded, and it decides by the network function, which the
originator has chosen: with an odd function the envelope counts as a response, goes out without a
record, and whatever comes back finds no request. With an even one it is recorded before its write,
as the newest request pending there, so that neither the write of other buses nor the capacity of
the ledger takes the record away.

## Main results

* `Scheduler.recordsRequests_after`: only requests are pending, in every run.
* `Stack.messageOut_of_accepted`: what is queued when a request to bridge is accepted.
* `bridge_tracked_iff`: an accepted request to bridge is tracked just if its function is even.
-/

namespace ManagementBus

open EnvelopeProperty

/-- A message is a request just when its function is even. -/
theorem Message.isResponse_eq_false_iff (m : Message) : m.isResponse = false ↔ m.netFn % 2 = 0 :=
  Frame.forall_byte (p := fun b => (b &&& 1 != 0) = false ↔ b % 2 = 0) (by decide) m.netFn

/-! ### The record of a request -/

namespace Bus

variable {P : EnvelopeProperty} {now : UInt32} {b c : Bus} {e : Envelope}

/-- Only requests are pending on the bus, and the ledger has room for one at least. -/
structure RecordsRequests (b : Bus) : Prop where
  entries : ∀ r ∈ b.ledger.entries, r.isResponse = false
  capacity : 0 < b.ledger.capacity

/-- A ledger that holds no more still has only requests. -/
theorem RecordsRequests.of_within (h : b.RecordsRequests) (hwithin : c.ledger.Within b.ledger) :
    c.RecordsRequests where
  entries := fun r hr => h.entries r (hwithin.entries.subset hr)
  capacity := hwithin.capacity ▸ h.capacity

/-- The worker records requests and nothing else. -/
theorem RecordsRequests.changes (h : b.RecordsRequests) (hc : b.Changes P now c) :
    c.RecordsRequests := by
  rcases hc.within_or_stages with hwithin | ⟨e, rest, -, -, hrequest, rfl⟩
  · exact h.of_within hwithin
  · refine ⟨?_, h.capacity⟩
    intro r hr
    rcases List.mem_append.mp hr with hr | hr
    · exact h.entries r hr
    · obtain rfl := List.mem_singleton.mp hr
      exact hrequest

/-- A new bus has nothing pending. -/
theorem recordsRequests_new (config : BusConfig) (link : Link) (timing : Timing) :
    (Bus.new config link timing).RecordsRequests where
  entries := by
    intro r hr
    cases hr
  capacity := Nat.lt_of_lt_of_le Nat.zero_lt_one (Nat.le_max_right ..)

end Bus

/-- A write that succeeds drops the oldest records, and not the newest. -/
theorem Ledger.mem_commit_of_newest {l : Ledger} {old : List Message} {r : Message}
    (hentries : l.entries = old ++ [r]) (hcapacity : 0 < l.capacity) :
    r ∈ l.commit.1.entries := by
  have hdrop : l.entries.length - l.capacity ≤ old.length := by
    rw [hentries, List.length_append, List.length_singleton]
    omega
  rw [entries_commit, hentries] at *
  rw [List.drop_append_of_le_length hdrop]
  exact List.mem_append_right _ (List.mem_singleton_self r)

namespace Scheduler

open Stack

variable {s : Scheduler} {a : Action} {as : List Action} {i : Nat} {b : Bus} {e : Envelope}

/-- Only requests are pending on the buses of a stack. -/
def RecordsRequests (s : Scheduler) : Prop :=
  ∀ (i : Nat) (b : Bus), s.stack.buses[i]? = some b → b.RecordsRequests

/-- **Every action keeps it so that only requests are pending.** -/
theorem recordsRequests_perform (h : s.RecordsRequests) (a : Action) :
    (s.perform a).RecordsRequests := by
  intro i c hc
  obtain ⟨b, hb, hchanges⟩ := exists_bus_before_perform hc
  exact (h i b hb).changes hchanges

/-- What is pending is a request. -/
theorem RecordsRequests.of_mem_pendingOn {r : Message} (h : s.RecordsRequests)
    (hr : r ∈ s.stack.pendingOn i) : r.isResponse = false := by
  cases hb : s.stack.buses[i]? with
  | none =>
      rw [pendingOn, hb] at hr
      cases hr
  | some b =>
      rw [pendingOn_eq hb] at hr
      exact (h i b hb).entries r hr

/-- **In every run only requests are pending.** -/
theorem recordsRequests_after (h : s.RecordsRequests) (as : List Action) :
    (s.after as).RecordsRequests :=
  after_induction h fun _ a _ ht => recordsRequests_perform ht a

/-- A stack that has been built has nothing pending. -/
theorem recordsRequests_atRest {setup : Setup} {stack : Stack} (hbuild : setup.build = .ok stack) :
    (atRest stack).RecordsRequests := by
  intro i b hb
  obtain ⟨config, link, rfl⟩ := Setup.exists_new_of_build hbuild hb
  exact Bus.recordsRequests_new config link stack.timing

/-- What buses issue is not recorded yet. -/
theorem RecordsRequests.of_issues {t : Scheduler} (h : s.RecordsRequests)
    (hissues : Stack.Issues s.stack t.stack) : t.RecordsRequests := by
  intro i c hc
  obtain ⟨b, hb, hbc⟩ := hissues.exists_bus_before hc
  obtain ⟨cursor, hledger⟩ := hbc.ledger
  refine ⟨?_, ?_⟩
  · intro r hr
    rw [hledger] at hr
    exact (h i b hb).entries r hr
  · rw [hledger]
    exact (h i b hb).capacity

/-! ### While an envelope is in hand -/

/-- **While an envelope is in hand, the requests pending on its bus stay**, unless a response is
heard there or a sweep drops them. -/
theorem perform_while_held (hs : s.RoomIssued) (hb : s.stack.buses[i]? = some b)
    (hhand : b.inHand = some e) (hforgets : a.forgets i = false) (hend : a ≠ .transmitEnd i)
    (hfinish : a ≠ .finish i) :
    ∃ c, (s.perform a).stack.buses[i]? = some c ∧ c.inHand = some e ∧
      c.ledger.entries = b.ledger.entries := by
  by_cases htouches : a.touches i = true
  · cases a with
    | transmitBegin k =>
        obtain rfl : k = i := by simpa [Action.touches] using htouches
        rcases transmitBegin_cases s.stack k with h | ⟨b', f, rest, hworker, hidle, -⟩
        · exact ⟨b, by simpa [perform, onStack, h] using hb, hhand, rfl⟩
        · obtain ⟨-, hb', -⟩ := workerBus_eq_some_iff.mp hworker
          obtain rfl : b = b' := Option.some.inj (hb.symm.trans hb')
          rw [hhand] at hidle
          cases hidle
    | transmitEnd k =>
        obtain rfl : k = i := by simpa [Action.touches] using htouches
        exact absurd rfl hend
    | finish k =>
        obtain rfl : k = i := by simpa [Action.touches] using htouches
        exact absurd rfl hfinish
    | stop => exact ⟨b.close, by simp [perform, onStack, stop, hb], hhand, rfl⟩
    | begin | resume | abandon | receive | relink | submitFromHost | notify | dispatch | sweep
      | advance => cases htouches
  · obtain ⟨c, l, hc, -, hsame, hissues⟩ := perform_issues hs hb (by simpa using htouches)
    obtain rfl := hsame hforgets
    exact ⟨c, hc, hissues.inHand.trans hhand, hissues.entries⟩

/-- An action that neither drops pending requests of a bus nor finishes its write. -/
def Leaves (i : Nat) (a : Action) : Prop :=
  a.forgets i = false ∧ a ≠ .transmitEnd i ∧ a ≠ .finish i

/-- As long as nothing is heard or swept there and the write goes on, a bus keeps its envelope in
hand and what is pending. -/
theorem after_while_held (hs : s.RoomIssued) (hb : s.stack.buses[i]? = some b)
    (hhand : b.inHand = some e) (has : ∀ a ∈ as, Leaves i a) :
    ∃ c, (s.after as).stack.buses[i]? = some c ∧ c.inHand = some e ∧
      c.ledger.entries = b.ledger.entries := by
  induction as generalizing s b with
  | nil => exact ⟨b, hb, hhand, rfl⟩
  | cons a as ih =>
      obtain ⟨hforgets, hend, hfinish⟩ := has a List.mem_cons_self
      obtain ⟨c, hc, hheld, hentries⟩ := perform_while_held hs hb hhand hforgets hend hfinish
      obtain ⟨d, hd, hheld', hentries'⟩ := ih (roomIssued_perform hs a) hc hheld fun a' ha' =>
        has a' (List.mem_cons_of_mem a ha')
      exact ⟨d, hd, hheld', hentries'.trans hentries⟩

/-- **A request that is written is pending**, whatever happens on other buses while it is in hand.
-/
theorem recorded_of_written {j : Nat} {f g : Envelope} (hs : s.RoomIssued) (h : s.RecordsRequests)
    (htakes : s.stack.takes? j (.transmitBegin j) = some f) (hrequest : f.msg.isResponse = false)
    (has : ∀ c ∈ as, Leaves j c)
    (hends : ((s.perform (.transmitBegin j)).after as).stack.ends? j a = some g)
    (hb : ((s.perform (.transmitBegin j)).after as).stack.buses[j]? = some b)
    (hdelivers : b.delivers g = true) :
    ∃ now, { f.staged.msg with timestamp := now } ∈
      (((s.perform (.transmitBegin j)).after as).perform a).stack.pendingOn j := by
  obtain ⟨b₀, rest, hb₀, hstaged⟩ := perform_of_takes htakes hrequest
  have hb₁ := hstaged.getElem?_self hb₀
  obtain ⟨b₂, hb₂, hhand, hentries⟩ :=
    after_while_held (roomIssued_perform hs (.transmitBegin j)) hb₁ rfl has
  obtain rfl : b = b₂ := Option.some.inj (hb.symm.trans hb₂)
  obtain ⟨b₃, hb₃, hhand', -⟩ := perform_of_ends hends
  obtain rfl : b = b₃ := Option.some.inj (hb.symm.trans hb₃)
  obtain rfl : f.staged = g := Option.some.inj (hhand.symm.trans hhand')
  have hwritten := perform_of_delivers hends hb hdelivers
  have hledger : (b.delivered f.staged).ledger = b.ledger.commit.1 := by
    have hstagedRequest : f.staged.msg.isResponse = false := hrequest
    rw [Bus.delivered, hstagedRequest]
    rfl
  have hcapacity : 0 < b.ledger.capacity :=
    (recordsRequests_after (recordsRequests_perform h (.transmitBegin j)) as j b hb).capacity
  refine ⟨s.stack.clock.now, ?_⟩
  rw [pendingOn_eq (hwritten.getElem?_self hb), hledger]
  exact Ledger.mem_commit_of_newest hentries hcapacity

end Scheduler

/-! ### What is accepted -/

namespace Stack

variable {s : Stack} {m : Message}

/-- What a success of the bridge means: the request that is carried is queued on the bus of its
target. -/
theorem forward_of_success (h : (s.forward m).2 = CompletionCode.success) :
    ∃ target function cmd rest j, m.data.bytes = target :: function :: cmd :: rest ∧
      s.busFor ⟨target⟩ = some j ∧
        SendsOne j (requestOf (carried m ⟨target⟩ function cmd (m.data.drop 3))) s
          (s.forward m).1 := by
  have hlong : ¬m.data.length < 3 := by
    intro hshort
    rw [forward_of_short hshort] at h
    exact absurd h (show CompletionCode.invalidLength ≠ CompletionCode.success by decide)
  obtain ⟨target, function, cmd, rest, hdata⟩ := exists_bridgeHeader hlong
  cases hbus : s.busFor target with
  | none =>
      rw [forward_of_unserved hdata hbus] at h
      exact absurd h (show CompletionCode.notSupportedInState ≠ CompletionCode.success by decide)
  | some j =>
      refine ⟨target.number, function, cmd, rest, j, hdata, hbus, ?_⟩
      rcases sendRequest_outcome s (carried m target function cmd (m.data.drop 3)) j with
        ⟨hok, hone⟩ | ⟨⟨fault, hfault⟩, -⟩
      · rw [forward_of_sent hdata hbus hok]
        exact hone
      · rw [forward_of_unsent hdata hbus hfault] at h
        exact absurd h (show CompletionCode.bridgeError ≠ CompletionCode.success by decide)

/-- **A request to bridge that is accepted** queues what it carries on the bus of the channel that
it names, and nothing else. -/
theorem messageOut_of_accepted
    (h : (s.messageOut m).2.completionCode = CompletionCode.success) :
    ∃ target function cmd rest j, m.data.bytes = target :: function :: cmd :: rest ∧
      s.busFor ⟨target⟩ = some j ∧
        SendsOne j (requestOf (carried m ⟨target⟩ function cmd (m.data.drop 3))) s
          (s.messageOut m).1 := by
  have hiana : m.completionCode ≠ CompletionCode.invalidIana := by
    intro hcode
    have hrefused : (s.messageOut m).2.completionCode = CompletionCode.invalidIana := by
      simp only [messageOut, hcode, if_true]
      rw [if_neg (by decide)]
    rw [hrefused] at h
    exact absurd h (by decide)
  have hforward : (s.forward m).2 = CompletionCode.success := by
    refine Decidable.byContradiction fun hcode => ?_
    simp only [messageOut, hiana, if_false, hcode] at h
  rw [messageOut_of_success hiana hforward]
  exact forward_of_success hforward

end Stack

/-! ### Accepted and tracked -/

namespace Scheduler

open Stack

/-- The bus has recorded a request with a function and a command, under the number that it has on
the wire, and with the number and the channel by which its originator knows it. -/
def Tracked (s : Scheduler) (j : Nat) (function cmd number : UInt8) (m : Message) : Prop :=
  ∃ r ∈ s.stack.pendingOn j, r.netFn = function ∧ r.cmd = cmd ∧ r.seqTarget = number ∧
    r.seqSource = m.seqSource ∧ r.infSource = m.infSource

instance (s : Scheduler) (j : Nat) (function cmd number : UInt8) (m : Message) :
    Decidable (s.Tracked j function cmd number m) :=
  inferInstanceAs (Decidable (∃ r ∈ s.stack.pendingOn j, _))

/-- **An accepted request to bridge is tracked just if its function is even.** When a stack that has
been built and has run accepts it, one envelope is queued on the bus of the channel that it names.
After every further run, when the worker of that bus takes this envelope, or a copy of it that has
failed before, and the write succeeds, with no response heard there and no sweep in between, then
the bus has a record of it by which the response goes back to the originator, just if the network
function that the originator has chosen is one of a request. -/
theorem bridge_tracked_iff {setup : Setup} {stack : Stack} (hbuild : setup.build = .ok stack)
    (as : List Action) {m : Message}
    (haccepted : (((atRest stack).after as).stack.messageOut m).2.completionCode =
      CompletionCode.success) :
    ∃ target function cmd rest j e, m.data.bytes = target :: function :: cmd :: rest ∧
      ((atRest stack).after as).stack.busFor ⟨target⟩ = some j ∧
      QueuesJust j e ((atRest stack).after as).stack
        (((atRest stack).after as).stack.messageOut m).1 ∧
      e.msg.netFn = function >>> 2 ∧ e.msg.cmd = cmd ∧ e.msg.seqSource = m.seqSource ∧
      e.msg.infSource = m.infSource ∧
      ∀ (bs cs : List Action) (a : Action) (f g : Envelope) (b : Bus) (s t : Scheduler),
        s = (((atRest stack).after as).onStack fun stack => (stack.messageOut m).1).after bs →
        s.stack.takes? j (.transmitBegin j) = some f → f.CopyOf e →
        t = (s.perform (.transmitBegin j)).after cs → (∀ c ∈ cs, Leaves j c) →
        t.stack.ends? j a = some g → t.stack.buses[j]? = some b → b.delivers g = true →
        ((t.perform a).Tracked j (function >>> 2) cmd e.msg.seq m ↔ (function >>> 2) % 2 = 0) := by
  obtain ⟨target, function, cmd, rest, j, hbytes, hbus, hone⟩ := messageOut_of_accepted haccepted
  obtain ⟨e, busy, ⟨b₀, n, rfl, -⟩, hqueued, hothers⟩ := hone.waitingOn
  refine ⟨target, function, cmd, rest, j, _, hbytes, hbus, ⟨hqueued, hothers⟩, rfl, rfl, rfl, rfl,
    ?_⟩
  rintro bs cs a f g b s t rfl htakes hcopy rfl hleaves hends hb hdelivers
  have hissues := issues_messageOut ((atRest stack).after as).stack m
  have hrooms := (roomIssued_after (roomIssued_atRest stack) as).of_issues
    (t := ((atRest stack).after as).onStack fun stack => (stack.messageOut m).1) hissues rfl
  have hrecords := (recordsRequests_after (recordsRequests_atRest hbuild) as).of_issues
    (t := ((atRest stack).after as).onStack fun stack => (stack.messageOut m).1) hissues
  have hrooms' := roomIssued_after hrooms bs
  have hrecords' := recordsRequests_after hrecords bs
  constructor
  · rintro ⟨r, hr, hfunction, -⟩
    have hall := recordsRequests_perform
      (recordsRequests_after (recordsRequests_perform hrecords' (.transmitBegin j)) cs) a
    rw [← hfunction]
    exact r.isResponse_eq_false_iff.mp (hall.of_mem_pendingOn hr)
  · intro heven
    rw [Envelope.CopyOf] at hcopy
    have hrequest : f.msg.isResponse = false := by
      rw [hcopy, Message.isResponse_eq_false_iff]
      exact heven
    obtain ⟨now, hmem⟩ :=
      recorded_of_written hrooms' hrecords' htakes hrequest hleaves hends hb hdelivers
    refine ⟨_, hmem, ?_⟩
    rw [Envelope.staged, hcopy]
    exact ⟨rfl, rfl, rfl, rfl, rfl⟩

/-- A request to bridge to the expansion board, with a byte for the function. -/
def boardBridge (function : UInt8) : Message where
  netFn := NetFn.enterprise
  cmd := Cmd.messageOut
  data := ⟨[0x05, function, 0x01], show 3 ≤ Payload.maxLength by decide⟩
  seqSource := 9
  infSource := .bmcIpmb

/-- The stack of two buses when it has accepted a request to bridge. -/
def boardAccepted (function : UInt8) : Scheduler :=
  (atRest (pairStack bmcRow expanderRow {})).onStack fun stack =>
    (stack.messageOut (boardBridge function)).1

/-- A request to bridge with an even function is tracked when it has been written. -/
theorem bridge_tracked_iff_board :
    ((pairStack bmcRow expanderRow {}).messageOut (boardBridge 0x18)).2.completionCode =
        CompletionCode.success ∧
      Leaves 1 (.receive 0) ∧
      (((boardAccepted 0x18).after [.transmitBegin 1, .receive 0, .transmitEnd 1]).Tracked 1 0x06
        0x01 1 (boardBridge 0x18) ↔ ((0x18 : UInt8) >>> 2) % 2 = 0) := by
  have hbuild : Setup.build { rows := [bmcRow, expanderRow] } =
      .ok (pairStack bmcRow expanderRow {}) :=
    build_pairStack {} (by decide) (by decide)
  have haccepted : ((pairStack bmcRow expanderRow {}).messageOut
      (boardBridge 0x18)).2.completionCode = CompletionCode.success := by decide +kernel
  have hleaves : Leaves 1 (.receive 0) :=
    ⟨rfl, fun h => Action.noConfusion h, fun h => Action.noConfusion h⟩
  obtain ⟨target, function, cmd, rest, j, e, hbytes, hbus, ⟨hqueued, -⟩, -, -, -, -, hall⟩ :=
    bridge_tracked_iff hbuild [] (m := boardBridge 0x18) haccepted
  simp only [boardBridge, List.cons.injEq] at hbytes
  obtain ⟨rfl, rfl, rfl, -⟩ := hbytes
  obtain rfl : 1 = j := Option.some.inj hbus
  obtain rfl := List.singleton_inj.mp hqueued
  refine ⟨haccepted, hleaves, ?_⟩
  exact hall [] [.receive 0] (.transmitEnd 1) _ _ _ _ _ rfl rfl rfl rfl
    (List.forall_mem_singleton.mpr hleaves) rfl rfl (by decide +kernel)

/-- A request to bridge with an odd function is accepted and written, and it is not tracked. -/
theorem bridge_untracked_board :
    ((pairStack bmcRow expanderRow {}).messageOut (boardBridge 0x1C)).2.completionCode =
        CompletionCode.success ∧
      ((boardAccepted 0x1C).after [.transmitBegin 1, .transmitEnd 1]).stack.arrivedAt 1 =
        [[0x60, 0x1C, 0x84, 0x20, 0x04, 0x01, 0x00, 0xDB]] ∧
      ∀ number, ¬((boardAccepted 0x1C).after [.transmitBegin 1, .transmitEnd 1]).Tracked 1
        ((0x1C : UInt8) >>> 2) 0x01 number (boardBridge 0x1C) := by
  refine ⟨by decide +kernel, by decide +kernel, ?_⟩
  have hnone : ((boardAccepted 0x1C).after [.transmitBegin 1, .transmitEnd 1]).stack.pendingOn 1 =
      [] := by decide +kernel
  rintro number ⟨r, hr, -⟩
  rw [hnone] at hr
  cases hr

end Scheduler

end ManagementBus
