import ManagementBus.Proofs.Building
import ManagementBus.Proofs.Telling

/-!
# What a bus issues

An envelope that comes to a transmit queue for the first time has not been tried yet, and it goes to
the other end of the bus on which it waits. Whoever queues it makes it for that bus: callers, both
receive workers, the dispatcher, and the reports of failed deliveries on other buses. `Bus.Issues`
states that of what has been added to a bus, and it says besides that the requests pending there are
the same, which `Bus.Grows` leaves open.

## Main results

* `Stack.issues_dispatch`, `Stack.issues_submitFromHost`, `Stack.issues_reportFailure`,
  `Stack.issues_deliverResponse`: what each part of the stack issues.
* `Scheduler.perform_issues`: what an action does to a bus where it does not write.
* `Scheduler.roomIssued_after`: a call waits for room only with an envelope that its bus has issued.
-/

namespace ManagementBus

open EnvelopeProperty

/-- An envelope that has not been tried yet, to an address. -/
def EnvelopeProperty.IssuedTo (addr : UInt8) : EnvelopeProperty := fun _ e =>
  e.retries = 0 ∧ e.msg.destAddr = addr

namespace Bus

variable {b c d : Bus}

/-- A bus has issued some envelopes, and it is otherwise as it was but for its cursor, its link, its
locks and its readers. -/
def Issues (b c : Bus) : Prop := b.Extends (IssuedTo b.config.targetAddr) c

/-- A bus may issue nothing. -/
theorem Issues.refl (b : Bus) : b.Issues b := Extends.refl _ b

/-- What a bus issues in two steps goes to the same other end. -/
theorem Issues.trans (hbc : b.Issues c) (hcd : c.Issues d) : b.Issues d := by
  rw [Issues] at hbc hcd ⊢
  rw [hbc.config] at hcd
  exact Extends.trans hbc hcd

end Bus

/-- Whether an action may drop requests that are pending on a bus. -/
def Action.forgets (a : Action) (i : Nat) : Bool :=
  match a with
  | .receive j => j = i
  | .sweep => true
  | _ => false

namespace Stack

variable {s t u : Stack} {i j : Nat} {b c : Bus} {e : Envelope} {m : Message}

/-- The envelopes that the bus at an index issues. -/
def IssuedOn (s : Stack) (i : Nat) : EnvelopeProperty := fun busy e =>
  ∀ b, s.buses[i]? = some b → IssuedTo b.config.targetAddr busy e

/-- Every bus of a stack has issued some envelopes, and is otherwise as it was. -/
def Issues (s t : Stack) : Prop := List.Forall₂ Bus.Issues s.buses t.buses

namespace Issues

/-- No bus of a stack issues anything in a step that does nothing. -/
theorem refl (s : Stack) : Issues s s := List.forall₂_same.mpr fun b _ => Bus.Issues.refl b

/-- What the buses issue in two steps they issue in one after the other. -/
theorem trans (h₁ : Issues s t) (h₂ : Issues t u) : Issues s u := by
  have htrans : ∀ b c d, Bus.Issues b c → Bus.Issues c d → Bus.Issues b d :=
    fun _ _ _ => Bus.Issues.trans
  exact forall₂_trans htrans h₁ h₂

/-- A step that does not concern the buses issues nothing. -/
theorem of_buses (h : t.buses = s.buses) : Issues s t := by
  rw [Issues, h]
  exact Issues.refl s

/-- Nothing has been queued. -/
theorem of_sends (h : Sends Nothing s t) : Issues s t :=
  h.buses.imp fun _ _ hb => Bus.Extends.mono (.of_queues hb) fun _ _ hfalse => hfalse.elim

/-- Where one bus is replaced, only that bus can have issued something. -/
theorem of_replaces (hb : s.buses[i]? = some b) (h : Replaces i c s t) (hbc : b.Issues c) :
    Issues s t :=
  h.forall₂ Bus.Issues.refl hb hbc

/-- One bus has been extended by envelopes that it has issued. -/
theorem of_extendsOn (h : ExtendsOn i (s.IssuedOn i) s t) : Issues s t := by
  refine List.forall₂_iff_get.mpr ⟨h.toExtends.length_eq, ?_⟩
  intro k hk hk'
  have hb : s.buses[k]? = some s.buses[k] := List.getElem?_eq_getElem hk
  have hc : t.buses[k]? = some t.buses[k] := List.getElem?_eq_getElem hk'
  by_cases hik : i = k
  · subst hik
    obtain ⟨c, hc', hbc⟩ := h.toExtends.exists_bus hb
    obtain rfl : t.buses[i] = c := Option.some.inj (hc.symm.trans hc')
    exact hbc.mono fun _ _ hissued => hissued _ hb
  · have hsame : s.buses[k] = t.buses[k] :=
      Option.some.inj (hb.symm.trans ((h.others k hik).symm.trans hc))
    simp only [List.get_eq_getElem, ← hsame]
    exact Bus.Issues.refl _

/-- A report after it makes no difference. -/
theorem emit (h : Issues s t) (e : Event) : Issues s (t.emit e) := h

/-- What is reported of a send that has failed makes no difference. -/
theorem orEmit {r : Stack × Except Fault Unit} {f : Fault → Event} : Issues s r.1 →
    Issues s (match r with | (t, .ok _) => t | (t, .error fault) => t.emit (f fault)) := by
  intro h
  obtain ⟨t, outcome⟩ := r
  cases outcome with
  | ok _ => exact h
  | error fault => exact h.emit (f fault)

/-- A bus is still there, and has issued some envelopes. -/
theorem exists_bus (h : Issues s t) (hb : s.buses[i]? = some b) :
    ∃ c, t.buses[i]? = some c ∧ b.Issues c :=
  exists_getElem?_of_forall₂ h hb

/-- A bus was there before, and has issued what is new. -/
theorem exists_bus_before (h : Issues s t) (hc : t.buses[i]? = some c) :
    ∃ b, s.buses[i]? = some b ∧ b.Issues c := by
  have hflip : List.Forall₂ (flip Bus.Issues) t.buses s.buses := List.Forall₂.flip h
  obtain ⟨b, hb, hbc⟩ := exists_getElem?_of_forall₂ hflip hc
  exact ⟨b, hb, hbc⟩

/-- A bus issues the same envelopes afterwards. -/
theorem issuedOn {busy : BitVec 64} (h : Issues s t) (he : s.IssuedOn i busy e) :
    t.IssuedOn i busy e := by
  intro c hc
  obtain ⟨b, hb, hbc⟩ := h.exists_bus_before hc
  rw [hbc.config]
  exact he b hb

end Issues

/-! ### Sending -/

/-- An envelope for the other end of a bus, offered for the first time, is issued there. -/
theorem issues_enqueue (hb : s.buses[i]? = some b) (hqueue : c.outbound = b.outbound)
    (hretries : e.retries = 0) (haddr : e.msg.destAddr = b.config.targetAddr) :
    Issues s (s.enqueue i c e).1 := by
  refine .of_extendsOn (extends_enqueue hb hqueue ?_)
  intro b' hb'
  obtain rfl : b = b' := Option.some.inj (hb.symm.trans hb')
  exact ⟨hretries, haddr⟩

/-- A request is issued on the bus on which it is sent. -/
theorem issues_sendRequest (s : Stack) (m : Message) (i : Nat) :
    Issues s (s.sendRequest m i).1 := by
  rw [sendRequest]
  split
  · exact .refl s
  · next b hbus =>
      obtain ⟨hb, -⟩ := getElem?_of_usableBus hbus
      split
      · exact .of_sends (sends_denyLock Nothing s i _)
      · have hdraw := Issues.of_sends (sends_drawRequest Nothing hb m)
        obtain ⟨c, hc, hbc⟩ := hdraw.exists_bus hb
        have hqueue : b.outbound = c.outbound := by
          have hsame := s.buses_onBus_self i fun b' => { b' with ledger := b.ledger.nextSequence.1 }
          rw [hb] at hsame
          obtain rfl : _ = c := Option.some.inj (hsame.symm.trans hc)
          rfl
        have haddr : (s.drawRequest i b m).2.msg.destAddr = c.config.targetAddr := by
          rw [hbc.config]
          rfl
        exact hdraw.trans (issues_enqueue hc hqueue rfl haddr)

/-- A response is issued on the bus on which it is sent. -/
theorem issues_sendResponse (s : Stack) (m : Message) (i : Nat) :
    Issues s (s.sendResponse m i).1 := by
  rw [sendResponse]
  split
  · exact .refl s
  · next b hbus =>
      split
      · exact .of_sends (sends_denyLock Nothing s i _)
      · exact issues_enqueue (getElem?_of_usableBus hbus).1 rfl rfl rfl

/-- A response that does not wait for room is issued on one bus at most. -/
theorem issues_trySendResponse (s : Stack) (m : Message) (i : Nat) :
    Issues s (s.trySendResponse m i).1 := by
  rw [trySendResponse]
  split
  · exact .refl s
  · next b hbus =>
      split
      · exact .of_sends (sends_denyLock Nothing s i _)
      · have hqueue := issues_enqueue (e := { msg := b.responseFor m })
          (getElem?_of_usableBus hbus).1 rfl rfl rfl
        split
        · next t heq =>
            rw [heq] at hqueue
            exact hqueue
        · next t p _ heq =>
            rw [heq] at hqueue
            exact hqueue.emit _

/-! ### Responses and reports -/

/-- What is passed on to the management engine is issued on its bus. -/
theorem issues_answerMe (s : Stack) (i : Nat) (m : Message) : Issues s (s.answerMe i m) := by
  rw [answerMe]
  split
  · exact (Issues.refl s).emit _
  · exact (issues_sendResponse s _ _).orEmit (f := fun _ => _)

/-- What is wrapped for an originator is issued on the bus of that originator. -/
theorem issues_answerBridge (s : Stack) (i : Nat) (channel : Channel) (m : Message) :
    Issues s (s.answerBridge i channel m) := by
  rw [answerBridge]
  split
  · exact (Issues.refl s).emit _
  · split
    · exact (Issues.refl s).emit _
    · exact (issues_sendResponse s _ _).orEmit (f := fun _ => _)

/-- **A response that is delivered** is issued on the bus where its request came from, or not at
all. -/
theorem issues_deliverResponse (s : Stack) (i : Nat) (channel : Channel) (m : Message) :
    Issues s (s.deliverResponse i channel m) := by
  rw [deliverResponse]
  split
  · cases hb : s.buses[i]? with
    | none =>
        simp only [answerReader, hb]
        exact .refl s
    | some b =>
        rcases answerReader_cases hb m with ⟨-, hreader⟩ | ⟨-, hdrop⟩
        · exact .of_replaces hb hreader (.of_eq rfl rfl rfl rfl)
        · rw [hdrop]
          exact (Issues.refl s).emit _
  · split
    · exact .of_buses (tellsHost_answerHost s i m).buses
    · split
      · exact issues_answerMe s i m
      · exact issues_answerBridge s i channel m

/-- A request of the management engine is issued towards the baseboard management controller, or its
refusal towards the engine. -/
theorem issues_bridgeMeRequest (s : Stack) (i : Nat) (m : Message) :
    Issues s (s.bridgeMeRequest i m) := by
  have hreply : ∀ t : Stack, Issues s t → Issues s
      (match (t.emit (.frameDropped i .meRequestNotBridged)).sendResponse (notBridged m) i with
        | (u, .ok _) => u
        | (u, .error _) => u.emit (.frameDropped i .meTimeoutNotQueued)) := by
    intro t ht
    have hanswer := issues_sendResponse (t.emit (.frameDropped i .meRequestNotBridged))
      (notBridged m) i
    exact Issues.orEmit (f := fun _ => _) (ht.trans hanswer)
  cases hbmc : s.busFor .bmcIpmb with
  | none =>
      simp only [bridgeMeRequest, hbmc]
      exact hreply s (Issues.refl s)
  | some bmc =>
      have hsend := issues_sendRequest s (bridged m) bmc
      simp only [bridgeMeRequest, hbmc]
      split
      · exact hsend
      · exact hreply _ hsend

/-- **A report that a request could not be delivered** is issued on the bus of its originator, or
not at all. -/
theorem issues_reportFailure (s : Stack) (m : Message) : Issues s (s.reportFailure m) := by
  by_cases hsource : m.infSource = .hostKcs
  · rcases reportFailure_cases s m with ⟨-, hhost⟩ | ⟨habsurd, -⟩
    · exact .of_buses hhost.buses
    · exact absurd hsource habsurd
  · rw [reportFailure]
    simp only [hsource, if_false]
    split
    · exact (Issues.refl s).emit _
    · split
      · exact (Issues.refl s).emit _
      · split
        · exact (Issues.refl s).emit _
        · exact (issues_trySendResponse s _ _).orEmit (f := fun fault => _)

/-! ### Requests -/

/-- Handing a request to the dispatcher issues nothing. -/
theorem issues_notify (s : Stack) (m : Message) : Issues s (s.notify m).1 := by
  obtain ⟨q, es, hq, -⟩ := notify_cases s m
  rw [hq]
  exact .of_buses rfl

/-- A request that is heard issues what is bridged for the management engine. -/
theorem issues_routeRequest (s : Stack) (i : Nat) (b : Bus) (m : Message) :
    Issues s (s.routeRequest i b m) := by
  rw [routeRequest]
  split
  · exact issues_bridgeMeRequest s i m
  · exact (issues_notify s _).orEmit (f := fun _ => _)

/-- **What the host submits** is issued on the bus of the baseboard management controller, or not
at all. -/
theorem issues_submitFromHost (s : Stack) (m : Message) : Issues s (s.submitFromHost m).1 := by
  have hrefuse : ∀ (t : Stack) (m : Message) (fault : Fault), Issues s t →
      Issues s ((t.emit (.hostNotBridged m fault)).writeHost (hostRefusal m)).1 :=
    fun _ _ _ ht => ht
  rw [submitFromHost]
  simp only
  split
  · exact issues_notify s _
  · cases hbmc : s.busFor .bmcIpmb with
    | none =>
        simp only
        have hrefused := hrefuse s { m with infSource := .hostKcs, infTarget := .bmcIpmb } .noBmcBus
          (Issues.refl s)
        split
        · next heq => rwa [heq] at hrefused
        · next heq => rwa [heq] at hrefused
    | some bmc =>
        have hsend := issues_sendRequest s
          { m with infSource := .hostKcs, infTarget := .bmcIpmb } bmc
        simp only
        split
        · exact hsend
        · next fault _ =>
            have hrefused := hrefuse _ { m with infSource := .hostKcs, infTarget := .bmcIpmb }
              fault hsend
            split
            · next heq => rwa [heq] at hrefused
            · next heq => rwa [heq] at hrefused

/-- A request that is forwarded is issued on the bus of its target. -/
theorem issues_forward (s : Stack) (m : Message) : Issues s (s.forward m).1 := by
  rw [forward]
  split
  · next target function cmd rest _ =>
      simp only
      split
      · exact (Issues.refl s).emit _
      · next i _ =>
          have hsend := issues_sendRequest s
            { netFn := function >>> 2, cmd, data := m.data.drop 3, seqSource := m.seqSource
              infSource := m.infSource, infTarget := ⟨target⟩ } i
          split
          · next heq =>
              rw [heq] at hsend
              exact hsend
          · next heq =>
              rw [heq] at hsend
              exact hsend.emit _
  · exact .refl s

/-- A refusal is issued on the bus of the originator. -/
theorem issues_refuseBridge (s : Stack) (m : Message) : Issues s (s.refuseBridge m) := by
  cases hbus : s.busFor m.infSource with
  | none =>
      simp only [refuseBridge, hbus]
      exact (Issues.refl s).emit _
  | some i =>
      have hsend := issues_sendResponse s m i
      simp only [refuseBridge, hbus]
      split
      · exact hsend
      · exact hsend.emit _

/-- **A request to bridge** issues what it carries, or a refusal. -/
theorem issues_messageOut (s : Stack) (m : Message) : Issues s (s.messageOut m).1 := by
  have hconclude : ∀ (t : Stack) (code : UInt8), Issues s t →
      Issues s (if code = CompletionCode.success then (t, { m with completionCode := code })
        else (t.refuseBridge { m.clearData with completionCode := code },
          { m.clearData with completionCode := code })).1 := by
    intro t code ht
    split
    · exact ht
    · exact ht.trans (issues_refuseBridge t _)
  rw [messageOut]
  by_cases hiana : m.completionCode = CompletionCode.invalidIana
  · simp only [hiana, if_true]
    exact hconclude s _ (Issues.refl s)
  · simp only [hiana, if_false]
    exact hconclude _ _ (issues_forward s m)

/-- A request that is served issues what the bridge sends. -/
theorem issues_serve (s : Stack) (handler : Handler) (m : Message) :
    Issues s (s.serve handler m).1 := by
  rcases serve_cases s handler m with ⟨n, -, h, -⟩ | ⟨-, -, n, -, h, -⟩
  · rw [h]
    exact .refl s
  · rw [h]
    exact issues_messageOut s n

/-- A response of the dispatcher is issued on the bus of the originator, or goes to the host. -/
theorem issues_respond (s : Stack) (m : Message) : Issues s (s.respond m) := by
  by_cases hsource : m.infSource = .hostKcs
  · rcases respond_cases s m with ⟨-, hhost⟩ | ⟨habsurd, -⟩
    · exact .of_buses hhost.buses
    · exact absurd hsource habsurd
  · cases hbus : s.busFor m.infSource with
    | none =>
        simp only [respond, hsource, if_false, hbus]
        exact (Issues.refl s).emit _
    | some i =>
        have hsend := issues_sendResponse s m i
        simp only [respond, hsource, if_false, hbus]
        split
        · exact hsend
        · exact hsend.emit _

/-- **A request that is dispatched** issues what it bridges and its response. -/
theorem issues_dispatch (s : Stack) (handler : Handler) (m : Message) :
    Issues s (s.dispatch handler m).1 := by
  obtain ⟨es, h⟩ := dispatch_eq s handler m
  have hserve : Issues s ((s.report es).serve handler m).1 := issues_serve (s.report es) handler m
  rw [h, conclude]
  split
  · exact hserve
  · exact hserve.trans (issues_respond _ _)

/-! ### Receiving -/

/-- A look at a link issues envelopes, and on its own bus alone a pending request may go. -/
theorem receive_issues (s : Stack) (i : Nat) (hb : s.buses[j]? = some b) :
    ∃ c l, (s.receive i).1.buses[j]? = some c ∧ b.ledger.Loses l ∧ (i ≠ j → l = b.ledger) ∧
      Bus.Issues { b with ledger := l } c := by
  have hread : ∀ {d : Bus} {l : Ledger} {u t : Stack}, s.buses[i]? = some d → d.ledger.Loses l →
      ∀ e : Bus, Replaces i e s u → Bus.Issues { d with ledger := l } e → Issues u t →
        ∃ c k, t.buses[j]? = some c ∧ b.ledger.Loses k ∧ (i ≠ j → k = b.ledger) ∧
          Bus.Issues { b with ledger := k } c := by
    intro d l u t hd hloses e hreplaces hde hissues
    by_cases hij : i = j
    · subst hij
      obtain rfl : b = d := Option.some.inj (hb.symm.trans hd)
      obtain ⟨c, hc, hec⟩ := hissues.exists_bus (hreplaces.getElem?_self hb)
      exact ⟨c, l, hc, hloses, fun habsurd => absurd rfl habsurd, hde.trans hec⟩
    · have hbu := (hreplaces.getElem?_ne hij).trans hb
      obtain ⟨c, hc, hbc⟩ := hissues.exists_bus hbu
      exact ⟨c, b.ledger, hc, .nothing, fun _ => rfl, hbc⟩
  rcases receive_cases s i with ⟨h, -⟩ | ⟨d, link, u, hworker, hlink, hroute⟩
  · rw [h]
    exact ⟨b, b.ledger, hb, .nothing, fun _ => rfl, Bus.Issues.refl b⟩
  · obtain ⟨-, hd, -⟩ := workerBus_eq_some_iff.mp hworker
    have hsame : Bus.Issues { d with ledger := d.ledger } { d with link } := .of_eq rfl rfl rfl rfl
    rcases hroute with ⟨h, -⟩ | ⟨m, -, ⟨-, h⟩ | ⟨-, h⟩⟩
    · rw [h]
      exact hread hd .nothing _ hlink hsame (Issues.refl u)
    · rw [h]
      rcases routeResponse_cases (hlink.getElem?_self hd) m with
        ⟨-, hunmatched⟩ | ⟨entry, v, -, hsettle, hdeliver⟩
      · rw [hunmatched]
        exact hread hd .nothing _ hlink hsame ((Issues.refl u).emit _)
      · rw [hdeliver]
        exact hread hd (.answered m.answers .nothing) _ (hlink.trans hsettle)
          (.of_eq rfl rfl rfl rfl) (issues_deliverResponse v i _ _)
    · rw [h]
      exact hread hd .nothing _ hlink hsame (issues_routeRequest u i _ m)

/-! ### Sweeping and writing -/

/-- A sweep issues nothing, and requests may go. -/
theorem sweep_issues (s : Stack) (hb : s.buses[i]? = some b) :
    ∃ c l, s.sweep.1.buses[i]? = some c ∧ b.ledger.Loses l ∧
      Bus.Issues { b with ledger := l } c := by
  obtain ⟨l, hl, hc⟩ := forgets_sweep s i b hb
  exact ⟨_, l, hc, hl, Bus.Issues.refl _⟩

/-- **The end of a write on one bus** may have another bus issue the report that it has failed. -/
theorem Finishes.issues (h : Finishes i s t) (hij : i ≠ j) (hc : s.buses[j]? = some c) :
    ∃ d, t.buses[j]? = some d ∧ c.Issues d := by
  cases h with
  | idle => exact ⟨c, hc, Bus.Issues.refl c⟩
  | @ends b e hb hhand =>
      rcases finishWrite_cases hb e with ⟨-, h⟩ | ⟨-, -, h⟩ | ⟨-, -, -, u, hu, h⟩
      · exact ⟨c, (h.getElem?_ne hij).trans hc, Bus.Issues.refl c⟩
      · exact ⟨c, (h.getElem?_ne hij).trans hc, Bus.Issues.refl c⟩
      · rw [h]
        exact (issues_reportFailure u e.msg).exists_bus ((hu.getElem?_ne hij).trans hc)

end Stack

/-! ### Callers -/

namespace Scheduler

open Stack

variable {s : Scheduler} {a : Action} {as : List Action} {c : Call} {r : Stack × Call} {i : Nat}
  {b : Bus}

/-- A call that waits for room does so with an envelope that its bus has issued. -/
def RoomIssued (s : Scheduler) : Prop :=
  ∀ c ∈ s.calls, ∀ busy e, c.room? = some e → s.stack.IssuedOn c.bus busy e

/-- What a call makes of its message is issued by its bus. -/
theorem allows_issued {s : Stack} (hroom : ∀ busy e, c.room? = some e → s.IssuedOn c.bus busy e) :
    Allows (s.IssuedOn c.bus) { s with journal := [] } c := by
  have hsends : ∀ (d : Call) busy e, d.Sends busy e → s.AddressedOn c.bus e →
      s.IssuedOn c.bus busy e := by
    intro d busy e hsends haddr b hb
    refine ⟨?_, haddr b hb⟩
    rw [Call.Sends] at hsends
    split at hsends
    · obtain ⟨_, rfl⟩ := hsends
      rfl
    · obtain ⟨_, _, rfl, -⟩ := hsends
      rfl
  exact ⟨hroom, hsends c, fun channel => hsends (c.asReader channel)⟩

/-- Envelopes with which calls wait stay issued while the buses issue more. -/
theorem RoomIssued.of_issues {t : Scheduler} (hs : s.RoomIssued)
    (hissues : Stack.Issues s.stack t.stack) (hcalls : t.calls = s.calls) : t.RoomIssued := by
  intro c hc busy e he
  rw [hcalls] at hc
  exact hissues.issuedOn (hs c hc busy e he)

/-- What a step of a call leaves behind. -/
theorem issues_of_serves {t : Scheduler} (hs : s.RoomIssued)
    (hroom : ∀ busy e, c.room? = some e → s.stack.IssuedOn c.bus busy e)
    (hserves : Serves (s.stack.IssuedOn c.bus) s.stack c r) (hstack : t.stack = r.1)
    (hcalls : ∀ d ∈ t.calls, d ∈ s.calls ∨ d = r.2) :
    Stack.Issues s.stack t.stack ∧ t.RoomIssued := by
  have hissues : Stack.Issues s.stack t.stack := by
    rw [hstack]
    exact .of_extendsOn hserves.buses
  refine ⟨hissues, ?_⟩
  intro d hd busy e he
  rcases hcalls d hd with hd | rfl
  · exact hissues.issuedOn (hs d hd busy e he)
  · rw [hserves.bus]
    rcases hserves.room e he with hroom' | ⟨b, hb, hP⟩
    · exact hissues.issuedOn (hroom busy e hroom')
    · exact hissues.issuedOn hP

/-- **A step of a call** issues envelopes on the bus of the call, and the call waits for room only
with such an envelope. -/
theorem issues_callers (ha : a.isCallers = true) (hs : s.RoomIssued) :
    Stack.Issues s.stack (s.perform a).stack ∧ (s.perform a).RoomIssued := by
  have hstep : ∀ (k : Nat) (step : Stack → Call → Stack × Call),
      (∀ c ∈ s.calls, Serves (s.stack.IssuedOn c.bus) s.stack c
        (s.stack.aside fun stack => step stack c)) →
      Stack.Issues s.stack (s.stepCall k step).stack ∧ (s.stepCall k step).RoomIssued := by
    intro k step hserves
    rcases stepCall_cases s k step with ⟨-, h⟩ | ⟨c, hc, h⟩
    · rw [h]
      exact ⟨.refl _, hs⟩
    · have hmem := List.mem_of_getElem? hc
      rw [h]
      exact issues_of_serves hs (hs c hmem) (hserves c hmem) rfl fun d hd =>
        List.mem_or_eq_of_mem_set hd
  cases a with
  | begin kind bus m =>
      have hfresh : ∀ busy e, (Call.new kind bus m).room? = some e →
          s.stack.IssuedOn (Call.new kind bus m).bus busy e := by
        intro _ _ h
        cases h
      have hserves : Serves (s.stack.IssuedOn bus) s.stack _ (s.newCall kind bus m) :=
        serves_aside_of (serves_beginCall_of (allows_issued hfresh) s.tickets)
      refine issues_of_serves hs hfresh hserves rfl ?_
      intro d hd
      rcases List.mem_append.mp hd with hd | hd
      · exact .inl hd
      · exact .inr (List.mem_singleton.mp hd)
  | resume k =>
      rw [perform]
      split
      · exact hstep k _ fun c hc => serves_aside_of
          (serves_resumeCall_of (allows_issued (hs c hc)) s.tickets)
      · exact ⟨.refl _, hs⟩
  | abandon k =>
      rw [perform]
      split
      · exact hstep k _ fun c _ => serves_aside fun t => serves_abandonCall _ t c
      · exact ⟨.refl _, hs⟩
  | transmitBegin | transmitEnd | receive | relink | submitFromHost | notify | dispatch | sweep
    | advance | stop | finish => cases ha

/-! ### Every action -/

/-- **What an action does to a bus where it does not write.** The bus issues some envelopes; and
pending requests may go where a response is heard, or in a sweep. -/
theorem perform_issues (hs : s.RoomIssued) (hb : s.stack.buses[i]? = some b)
    (ha : a.touches i = false) :
    ∃ c l, (s.perform a).stack.buses[i]? = some c ∧ b.ledger.Loses l ∧
      (a.forgets i = false → l = b.ledger) ∧ Bus.Issues { b with ledger := l } c := by
  have hkeeps : Stack.Issues s.stack (s.perform a).stack →
      ∃ c l, (s.perform a).stack.buses[i]? = some c ∧ b.ledger.Loses l ∧
        (a.forgets i = false → l = b.ledger) ∧ Bus.Issues { b with ledger := l } c := by
    intro h
    obtain ⟨c, hc, hbc⟩ := h.exists_bus hb
    exact ⟨c, b.ledger, hc, .nothing, fun _ => rfl, hbc⟩
  -- The end of a write on another bus may bring its report here.
  have hfinishes : ∀ j, j ≠ i → Finishes j s.stack (s.perform a).stack →
      ∃ c l, (s.perform a).stack.buses[i]? = some c ∧ b.ledger.Loses l ∧
        (a.forgets i = false → l = b.ledger) ∧ Bus.Issues { b with ledger := l } c := by
    intro j hj h
    obtain ⟨c, hc, hbc⟩ := h.issues hj hb
    exact ⟨c, b.ledger, hc, .nothing, fun _ => rfl, hbc⟩
  by_cases hcallers : a.isCallers = true
  · exact hkeeps (issues_callers hcallers hs).1
  cases a with
  | begin | resume | abandon => exact absurd rfl hcallers
  | transmitBegin j =>
      have hij : j ≠ i := by simpa [Action.touches] using ha
      refine ⟨b, b.ledger, ?_, .nothing, fun _ => rfl, Bus.Issues.refl b⟩
      rcases transmitBegin_cases s.stack j with h | ⟨c, e, rest, -, -, -, h⟩
      · simpa [perform, onStack, h] using hb
      · rcases h with ⟨-, -, h⟩ | ⟨-, -, h⟩ | ⟨-, h⟩
        · exact (h.getElem?_ne hij).trans hb
        · exact (h.getElem?_ne hij).trans hb
        · exact (h.getElem?_ne hij).trans hb
  | transmitEnd j =>
      exact hfinishes j (by simpa [Action.touches] using ha) (finishes_transmitEnd s.stack j)
  | receive j =>
      obtain ⟨c, l, hc, hl, hsame, hbc⟩ := receive_issues s.stack j hb
      exact ⟨c, l, hc, hl, fun h => hsame (by simpa [Action.forgets] using h), hbc⟩
  | relink j link =>
      refine hkeeps ?_
      cases hd : s.stack.buses[j]? with
      | none =>
          have hmodify : s.stack.buses.modify j (fun b => { b with link }) = s.stack.buses := by
            rw [List.modify_eq_self]
            exact List.getElem?_eq_none_iff.mp hd
          exact .of_buses hmodify
      | some d =>
          exact .of_replaces hd (Replaces.of_onBus hd) (.of_eq rfl rfl rfl rfl)
  | submitFromHost m => exact hkeeps (issues_submitFromHost s.stack m)
  | notify m => exact hkeeps (issues_notify s.stack m)
  | dispatch handler =>
      refine hkeeps ?_
      rcases dispatchUpTo_one s.stack handler with ⟨-, h⟩ | ⟨m, rest, -, h⟩
      · simp only [perform, onStack, h]
        exact .refl _
      · simp only [perform, onStack, h]
        exact issues_dispatch (s.stack.withRequests rest) handler m
  | sweep =>
      obtain ⟨c, l, hc, hl, hbc⟩ := sweep_issues s.stack hb
      refine ⟨c, l, hc, hl, fun hforgets => ?_, hbc⟩
      cases hforgets
  | advance ms => exact hkeeps (.of_buses rfl)
  | stop => simp [Action.touches] at ha
  | finish j =>
      exact hfinishes j (by simpa [Action.touches] using ha) (finishes_finishInHand s.stack j)

/-- An action keeps it so that calls wait with envelopes of their bus. -/
theorem roomIssued_perform (hs : s.RoomIssued) (a : Action) : (s.perform a).RoomIssued := by
  by_cases hcallers : a.isCallers = true
  · exact (issues_callers hcallers hs).2
  have hcalls : (s.perform a).calls = s.calls := by
    cases a with
    | begin | resume | abandon => exact absurd rfl hcallers
    | transmitBegin | transmitEnd | receive | relink | submitFromHost | notify | dispatch | sweep
      | advance | stop | finish => rfl
  intro c hc busy e he b hb
  rw [hcalls] at hc
  obtain ⟨b', hb', hchanges⟩ := exists_bus_before_perform hb
  rw [hchanges.config]
  exact hs c hc busy e he b' hb'

/-- **In every run a call waits for room only with an envelope that its bus has issued.** -/
theorem roomIssued_after (hs : s.RoomIssued) (as : List Action) : (s.after as).RoomIssued :=
  after_induction hs fun _ a _ ht => roomIssued_perform ht a

/-- At rest no call waits. -/
theorem roomIssued_atRest (stack : Stack) : (atRest stack).RoomIssued := by
  intro c hc
  cases hc

end Scheduler

end ManagementBus
