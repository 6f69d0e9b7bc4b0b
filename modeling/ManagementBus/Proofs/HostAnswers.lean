import ManagementBus.Proofs.Building
import ManagementBus.Proofs.HostAccount

/-!
# Answers to the host

The host is answered once for every request that it submits, as long as no request gets a *second
chance*: its write fails although it has been answered from its record, and so it is queued again or
reported; or the dispatcher answers it after it has been bridged. The account of the host is the
number of buffers written and of requests open. Every action keeps to its *credit*, which is one for
a submission and one for a second chance; so in a run of whatever length the account is at most the
requests submitted and the second chances together.

The account may fall short of the credits, where a request of the host is dropped and nobody is told
or where a write to the host fails. `shortfall` is the difference, summed over the actions; that it
is never negative is what the bound on each action says.

## Main results

* `HostApart.account_perform_le`: an action raises the account of the host by its credit at most.
* `host_answers_account`: the account of a run, action by action and as a whole, and when the host
  gets no more answers than it has submitted requests.
-/

namespace ManagementBus

open EnvelopeProperty

namespace Action

/-- Whether the host submits a request. -/
def isSubmission : Action → Bool
  | .submitFromHost _ => true
  | _ => false

/-- Nothing comes from the host but what it submits, and handlers leave originators as they are. -/
def KeepsHostApart : Action → Prop
  | .begin _ _ m | .notify m => m.infSource ≠ .hostKcs
  | .dispatch handler => Stack.KeepsOriginator handler
  | _ => True

end Action

namespace Scheduler

/-- Whether an action gives a request of the host that has been answered a second chance. -/
def secondChance (s : Scheduler) (a : Action) : Bool :=
  match a with
  | .transmitEnd i => (s.stack.workerBus i).any Bus.reopens
  | .finish i => s.stack.stopped && s.stack.buses[i]?.any Bus.reopens
  | .dispatch _ => s.stack.busesOpen < (s.perform a).stack.busesOpen &&
      s.stack.answers < (s.perform a).stack.answers
  | _ => false

/-- The second chances of a run. -/
def secondChances (s : Scheduler) : List Action → Nat
  | [] => 0
  | a :: as => (if s.secondChance a then 1 else 0) + (s.perform a).secondChances as

/-- By how much an action may raise the account of the host. -/
def credit (s : Scheduler) (a : Action) : Nat :=
  (if a.isSubmission then 1 else 0) + if s.secondChance a then 1 else 0

/-- How much the account of the host falls short of the credits of a run, action by action. The
difference is that of natural numbers, and `HostApart.account_perform_le` shows that it is exact. -/
def shortfall (s : Scheduler) : List Action → Nat
  | [] => 0
  | a :: as =>
    s.stack.account + s.credit a - (s.perform a).stack.account + (s.perform a).shortfall as

end Scheduler

/-! ### Others than the host -/

namespace Call

variable {c : Call} {busy : BitVec 64} {e : Envelope}

/-- A call is not one of the host. -/
structure IsApart (c : Call) : Prop where
  source : c.msg.infSource ≠ .hostKcs
  room : ∀ e, c.room? = some e → e.isHosts = false

/-- A call for another originator sends no request of the host. -/
theorem notHosts_of_sends (hsource : c.msg.infSource ≠ .hostKcs) (h : c.Sends busy e) :
    NotHosts busy e := by
  rw [Call.Sends] at h
  split at h
  · obtain ⟨b, rfl⟩ := h
    simp [NotHosts, Envelope.isHosts, Message.isHosts, Bus.responseFor, hsource]
  · exact (From.of_requestOf h).notHosts hsource

/-- The next step of a call that is apart from the host supplies no request of the host. -/
theorem IsApart.notHosts (hc : c.IsApart) (h : c.Supplies busy e) : NotHosts busy e := by
  rcases h with hroom | hsends | ⟨channel, hsends⟩
  · exact hc.room e hroom
  · exact notHosts_of_sends hc.source hsends
  · have hself : (c.asReader channel).msg.infSource ≠ .hostKcs := by
      have hsource : (c.asReader channel).msg.infSource = .self := rfl
      rw [hsource]
      decide
    exact notHosts_of_sends hself hsends

end Call

namespace Stack

/-- A step of such a call leaves the account of the host alone. -/
theorem account_of_serves {P : EnvelopeProperty} {s : Stack} {c : Call} {r : Stack × Call}
    (h : Serves P s c r) (hP : ∀ busy e, P busy e → NotHosts busy e) :
    r.1.account = s.account := by
  have hbuses := (h.buses.toExtends.mono hP).busesOpen
  have hkcs : r.1.kcs = s.kcs := by rw [h.rest]
  have hrequests : r.1.requests = s.requests := by rw [h.rest]
  rw [account, account, hostOpen, hostOpen, answers_of_kcs hkcs,
    requestsOpen_of_requests hrequests, hbuses]

end Stack

namespace Scheduler

open Stack

variable {s : Scheduler} {a : Action} {as : List Action} {setup : Setup} {stack : Stack}

/-- No call is one of the host, and no bus is. -/
structure HostApart (s : Scheduler) : Prop where
  calls : ∀ c ∈ s.calls, c.IsApart
  buses : ∀ (i : Nat) (b : Bus), s.stack.buses[i]? = some b → b.config.channel ≠ .hostKcs

/-- A new call for another originator is apart from the host. -/
theorem isApart_new {kind : CallKind} {bus : Nat} {m : Message} (hm : m.infSource ≠ .hostKcs) :
    (Call.new kind bus m).IsApart where
  source := hm
  room := by
    intro e he
    cases he

/-- **An action keeps the host apart.** -/
theorem HostApart.perform (h : s.HostApart) (ha : a.KeepsHostApart) : (s.perform a).HostApart where
  calls := by
    intro d hd
    rcases mem_calls_perform hd with hd | ⟨c, r, hserves, rfl, hc⟩
    · exact h.calls d hd
    · have hcall : c.IsApart := by
        rcases hc with hc | ⟨kind, bus, m, rfl, rfl⟩
        · exact h.calls c hc
        · exact isApart_new ha
      refine ⟨?_, fun e he => ?_⟩
      · rcases hserves.msg with hmsg | ⟨channel, hmsg⟩
        · rw [hmsg]
          exact hcall.source
        · have hself : r.2.msg.infSource = .self := by rw [hmsg]; rfl
          rw [hself]
          decide
      · rcases hserves.room e he with hroom | ⟨b, -, hsupplies⟩
        · exact hcall.room e hroom
        · exact hcall.notHosts hsupplies
  buses := by
    intro i c hc
    obtain ⟨b, hb, hchanges⟩ := exists_bus_before_perform hc
    rw [hchanges.config]
    exact h.buses i b hb

/-- The end of a write raises the account by a second chance at most. -/
theorem account_of_finish {t : Stack} {i : Nat}
    (h : t = s.stack ∨ ∃ b e, s.stack.buses[i]? = some b ∧ b.inHand = some e ∧
      t = s.stack.finishWrite i b e ∧ (b.reopens = true → s.secondChance a = true)) :
    t.account ≤ s.stack.account + if s.secondChance a then 1 else 0 := by
  rcases h with h | ⟨b, e, hb, hhand, h, hchance⟩
  · rw [h]
    exact Nat.le_add_right _ _
  · have hle := account_finishWrite_le hb hhand
    rw [h]
    cases hreopens : b.reopens with
    | false =>
        rw [hreopens] at hle
        exact Nat.le_trans hle (Nat.le_add_right _ _)
    | true =>
        rw [hreopens] at hle
        rw [hchance hreopens]
        exact hle

/-- **An action raises the account of the host** by one for a submission and by one for a second
chance, and not otherwise. -/
theorem HostApart.account_perform_le (h : s.HostApart) (ha : a.KeepsHostApart) :
    (s.perform a).stack.account ≤ s.stack.account + s.credit a := by
  have hsame : ∀ t : Stack, t.account ≤ s.stack.account →
      t.account ≤ s.stack.account + s.credit a :=
    fun t ht => Nat.le_trans ht (Nat.le_add_right _ _)
  by_cases hcallers : a.isCallers = true
  · rcases s.callStep hcallers with hstay | @⟨P, c, r, hc, hserves, hP, hstack, -⟩
    · rw [hstay]
      exact Nat.le_add_right _ _
    · have hcall : c.IsApart := by
        rcases hc with hc | ⟨kind, bus, m, rfl, rfl⟩
        · exact h.calls c hc
        · exact isApart_new ha
      refine hsame _ (Nat.le_of_eq ?_)
      rw [hstack]
      exact account_of_serves hserves fun busy e hqueued => hcall.notHosts (hP busy e hqueued).1
  cases a with
  | begin | resume | abandon => exact absurd rfl hcallers
  | transmitBegin i => exact hsame _ (account_transmitBegin_le s.stack i)
  | transmitEnd i =>
      have hcredit : s.credit (.transmitEnd i) =
          if s.secondChance (.transmitEnd i) then 1 else 0 := Nat.zero_add _
      rw [hcredit]
      refine account_of_finish (i := i) ?_
      rcases transmitEnd_eq s.stack i with hstay | ⟨b, e, hworker, hhand, hgo⟩
      · exact .inl hstay
      · refine .inr ⟨b, e, (workerBus_eq_some_iff.mp hworker).2.1, hhand, hgo, fun hreopens => ?_⟩
        rw [secondChance, hworker]
        exact hreopens
  | receive i => exact hsame _ (account_receive_le s.stack i (h.buses i))
  | relink i link =>
      refine hsame _ (Nat.le_of_eq ?_)
      have hext : Extends NotHosts s.stack (s.stack.onBus i fun b => { b with link }) :=
        Extends.onBus fun _ _ => .of_eq rfl rfl rfl rfl
      exact congrArg (fun n => s.stack.answers + (s.stack.requestsOpen + n)) hext.busesOpen
  | submitFromHost m => exact account_submitFromHost_le s.stack m
  | notify m =>
      have hsource : m.infSource ≠ .hostKcs := ha
      have hnot : m.isHosts = false := by simpa [Message.isHosts] using hsource
      have hle := account_notify_le s.stack m
      rw [hnot] at hle
      exact hsame _ hle
  | dispatch handler =>
      have hcredit : s.credit (.dispatch handler) =
          if s.secondChance (.dispatch handler) then 1 else 0 := Nat.zero_add _
      have hle : (s.perform (.dispatch handler)).stack.account ≤ s.stack.account +
          if s.stack.busesOpen < (s.perform (.dispatch handler)).stack.busesOpen ∧
            s.stack.answers < (s.perform (.dispatch handler)).stack.answers then 1 else 0 :=
        account_dispatchUpTo_le s.stack ha
      rw [hcredit, secondChance]
      simpa only [Bool.and_eq_true, decide_eq_true_eq] using hle
  | sweep => exact hsame _ (account_sweep_le s.stack)
  | advance ms => exact hsame _ (Nat.le_refl _)
  | stop =>
      refine hsame _ (Nat.le_of_eq ?_)
      have hbuses : (s.stack.stop.buses.map Bus.hostOpen) = s.stack.buses.map Bus.hostOpen := by
        simp only [stop, List.map_map]
        rfl
      exact congrArg (fun l => s.stack.answers + (s.stack.requestsOpen + List.sum l)) hbuses
  | finish i =>
      have hcredit : s.credit (.finish i) =
          if s.secondChance (.finish i) then 1 else 0 := Nat.zero_add _
      rw [hcredit]
      refine account_of_finish (i := i) ?_
      simp only [Scheduler.perform, onStack]
      split
      · next hstopped =>
          rcases finishInHand_eq s.stack i with hstay | ⟨b, e, hb, hhand, hgo⟩
          · exact .inl hstay
          · refine .inr ⟨b, e, hb, hhand, hgo, fun hreopens => ?_⟩
            rw [secondChance, hstopped, hb]
            exact hreopens
      · exact .inl rfl

/-! ### Whole runs -/

/-- A run keeps the host apart. -/
theorem HostApart.after (h : s.HostApart) (has : ∀ a ∈ as, a.KeepsHostApart) :
    (s.after as).HostApart :=
  after_induction h fun _ a ha ht => ht.perform (has a ha)

/-- Every action of a run keeps to its credit. -/
theorem HostApart.account_each_le (h : s.HostApart) (has : ∀ a ∈ as, a.KeepsHostApart)
    {earlier later : List Action} (hsplit : as = earlier ++ a :: later) :
    ((s.after earlier).perform a).stack.account ≤
      (s.after earlier).stack.account + (s.after earlier).credit a := by
  have hkeeps : ∀ b ∈ earlier ++ a :: later, b.KeepsHostApart := hsplit ▸ has
  have hearlier := h.after fun b hb => hkeeps b (List.mem_append_left _ hb)
  exact hearlier.account_perform_le
    (hkeeps a (List.mem_append_right _ List.mem_cons_self))

/-- What a run adds to the account of the host is what has been submitted and the second chances,
less the shortfall. -/
theorem HostApart.account_after (h : s.HostApart) (has : ∀ a ∈ as, a.KeepsHostApart) :
    (s.after as).stack.account + s.shortfall as =
      s.stack.account + as.countP Action.isSubmission + s.secondChances as := by
  induction as generalizing s with
  | nil => rfl
  | cons a as ih =>
      have ha := has a List.mem_cons_self
      have hstep := h.account_perform_le ha
      have hrest := ih (h.perform ha) fun b hb => has b (List.mem_cons_of_mem a hb)
      rw [after_cons, shortfall, secondChances, List.countP_cons]
      rw [credit] at hstep ⊢
      omega

/-- A stack that has been built has no call and no open request. -/
theorem hostApart_atRest (hbuild : setup.build = .ok stack)
    (hrows : ∀ row ∈ setup.rows, row.config.channel ≠ .hostKcs) : (atRest stack).HostApart where
  calls := by
    intro c hc
    cases hc
  buses := by
    intro i b hb
    obtain rfl := Setup.eq_of_build hbuild
    obtain ⟨row, hrow, rfl⟩ := List.mem_map.mp (List.mem_of_getElem? hb)
    exact hrows row (List.mem_mergeSort.mp hrow)

/-- At first nothing is open. -/
theorem hostOpen_of_build (hbuild : setup.build = .ok stack) : stack.hostOpen = 0 := by
  obtain rfl := Setup.eq_of_build hbuild
  have hzero : ∀ rows : List BusRow, ((rows.map fun row =>
      Bus.new row.config row.link setup.timing).map Bus.hostOpen).sum = 0 := by
    intro rows
    induction rows with
    | nil => rfl
    | cons row rows ih =>
        rw [List.map_cons, List.map_cons, List.sum_cons, ih]
        rfl
  exact (Nat.zero_add _).trans (hzero setup.sortedRows)

/-- **The account of the host.** In every run of a stack in which what the host submits is all that
comes from it, no action raises the number of buffers written and requests open by more than one for
a submission and one for a second chance. So the buffers and the open requests are at most as many
as the requests submitted and the second chances, and the shortfall is what they lack. The host gets
no more answers than it has submitted requests just where there are no more second chances than open
requests and shortfall together. -/
theorem host_answers_account (hbuild : setup.build = .ok stack)
    (hrows : ∀ row ∈ setup.rows, row.config.channel ≠ .hostKcs)
    (has : ∀ a ∈ as, a.KeepsHostApart) :
    (∀ earlier a later, as = earlier ++ a :: later →
        (((atRest stack).after earlier).perform a).stack.account ≤
          ((atRest stack).after earlier).stack.account +
            ((atRest stack).after earlier).credit a) ∧
      ((atRest stack).after as).stack.answers + ((atRest stack).after as).stack.hostOpen ≤
        stack.answers + as.countP Action.isSubmission + (atRest stack).secondChances as ∧
      ((atRest stack).after as).stack.answers + ((atRest stack).after as).stack.hostOpen +
          (atRest stack).shortfall as =
        stack.answers + as.countP Action.isSubmission + (atRest stack).secondChances as ∧
      (((atRest stack).after as).stack.answers ≤ stack.answers + as.countP Action.isSubmission ↔
        (atRest stack).secondChances as ≤
          ((atRest stack).after as).stack.hostOpen + (atRest stack).shortfall as) := by
  have hapart := hostApart_atRest hbuild hrows
  have hstart : (atRest stack).stack.account = stack.answers := by
    rw [account, atRest, hostOpen_of_build hbuild]
    rfl
  have haccount := hapart.account_after has
  rw [hstart, account] at haccount
  refine ⟨fun earlier a later hsplit => hapart.account_each_le has hsplit, ?_, haccount, ?_⟩
  · omega
  · omega

/-! ### An answer before the write -/

/-- A request of the host is answered between the halves of its first write, which fails, and again
after the second. -/
def answeredTwice : List Action :=
  [.submitFromHost { netFn := 0x06, cmd := 0x01 }, .transmitBegin 0, .relink 0 answeredLink,
    .receive 0, .relink 0 (bmcRow.link.fail (.next 1)), .transmitEnd 0, .transmitBegin 0,
    .transmitEnd 0, .relink 0 answeredLink, .receive 0]

/-- In this run there is one second chance; nothing is open and nothing falls short. -/
theorem host_answers_account_twice :
    ¬((atRest (bmcStack {} .memory)).after answeredTwice).stack.answers ≤
      answeredTwice.countP Action.isSubmission := by
  have hrows : ∀ row ∈ [bmcRow], row.config.channel ≠ .hostKcs := by decide
  have hkeeps : ∀ a ∈ answeredTwice, a.KeepsHostApart := by
    simp [answeredTwice, Action.KeepsHostApart]
  obtain ⟨-, -, -, hiff⟩ := host_answers_account (build_bmcStack {} .memory) hrows hkeeps
  have hzero : (bmcStack {} .memory).answers = 0 := rfl
  rw [hzero, Nat.zero_add] at hiff
  rw [hiff]
  decide +kernel

/-- **One request and two answers.** -/
theorem host_answered_twice :
    (∀ row ∈ [bmcRow], row.config.channel ≠ .hostKcs) ∧
      (∀ a ∈ answeredTwice, a.KeepsHostApart) ∧ answeredTwice.countP Action.isSubmission = 1 ∧
      ((atRest (bmcStack {} .memory)).after answeredTwice).stack.kcs =
        .recorder [[0x1C, 0x01, 0x00], [0x1C, 0x01, 0x00]] := by
  refine ⟨by decide, by simp [answeredTwice, Action.KeepsHostApart], by decide, by decide +kernel⟩

end Scheduler

end ManagementBus
