import ManagementBus.Proofs.Manifest

/-!
# Nothing is too long

Four limits meet in the stack: what is received carries 520 bytes of data at most, a payload holds
527, a bridge puts seven bytes in front of the data of a response, and a frame has room for 535.
They fit together to the byte, so the checks behind them are never met: every payload has a frame,
every response that has been received can be wrapped, what a request to bridge carries is a payload
again, and what is written can be read at the other end.

An event says when one of the first two checks has failed. `Stack.ReportsFit s t` states that
nothing that has been reported on the way from `s` to `t` is such an event. It holds of each
operation of the stack, and the two operations that can report one are decided by the sizes.

## Main results

* `Frame.length_layout`: the size of what is written.
* `Stack.forwardChecked_eq`: the check of the carried data is never met.
* `Stack.fits_finishWrite`, `Stack.fits_answerBridge`: the two operations that check a size.
* `Scheduler.fits_perform`: no action reports anything too long.
* `nothing_too_long`: no run does, and what the workers of a stack that has been built write.
-/

namespace ManagementBus

/-! ### Sizes -/

namespace Frame

variable {m : Message} {frame : List UInt8}

/-- The frame of a message has seven bytes besides the data, and the frame of a response eight. -/
theorem length_layout (m : Message) (hc mc : UInt8) :
    (layout m hc mc).length = (if m.isResponse then 8 else 7) + m.data.length := by
  have hcode : (codeBytes m).length = if m.isResponse then 1 else 0 := by
    rw [codeBytes]
    split
    · rfl
    · rfl
  simp only [layout, front, List.length_append, List.length_cons, List.length_nil, hcode,
    Payload.length]
  split
  · omega
  · omega

/-- **What a link delivers of a frame is short enough for the receiver.** -/
theorem exists_normalizeInbound_delivered (h : encode m = .ok frame) :
    (delivered m.destAddr frame).length ≤ maxLength ∧
      ∃ back, normalizeInbound (delivered m.destAddr frame) = .ok back := by
  obtain rfl : layout m (headerSum m) (messageSum m) = frame :=
    Except.ok.inj ((encode_eq m).symm.trans h)
  exact ⟨length_layout_le m _ _, _, normalizeInbound_delivered m _ _⟩

end Frame

/-- Part of a payload is a payload. -/
theorem Message.setData_drop (m : Message) (p : Payload) (n : Nat) :
    m.setData (p.bytes.drop n) = ({ m with data := p.drop n }, .ok ()) := by
  have hdata : Payload.ofBytes? (p.bytes.drop n) = some (p.drop n) :=
    Payload.ofBytes?_eq_some_iff.mpr (p.bytes_drop n).symm
  rw [setData, hdata]

/-- A write brings one frame to the other end, or none. -/
theorem Link.inbox_write (l : Link) (addr : UInt8) (payload : List UInt8) :
    (l.write addr payload).1.far.inbox = l.far.inbox ∨
      (l.write addr payload).1.far.inbox = l.far.inbox ++ [addr <<< 1 :: payload] := by
  rw [write]
  split
  · exact .inl rfl
  · split
    · exact .inl rfl
    · exact .inr rfl

namespace Event

/-- Whether an event says that a frame has overflowed, or that a response was too long to be
wrapped. -/
def isOversize : Event → Bool
  | writeFailed _ _ _ fault => fault = .frameOverflow
  | frameDropped _ reason => reason = .bridgedTooLong
  | _ => false

/-- A dump is not about something too long. -/
theorem isOversize_dump (enabled : Bool) (bus : Nat) (direction : String) (frame : List UInt8) :
    ∀ e ∈ dump enabled bus direction frame, e.isOversize = false := by
  intro e he
  rw [dump] at he
  split at he
  · rw [List.mem_singleton.mp he]
    rfl
  · cases he

/-- The report of a draw is not about something too long. -/
theorem isOversize_draw (t : SequenceTable) : ∀ e ∈ draw t, e.isOversize = false := by
  intro e he
  rw [draw] at he
  split at he
  · rw [List.mem_singleton.mp he]
    rfl
  · cases he

/-- No eviction is reported for its length. -/
theorem isOversize_evictions (bus : Nat) (reason : EvictionReason) (dropped : List Message) :
    ∀ e ∈ evictions bus reason dropped, e.isOversize = false := by
  intro e he
  obtain ⟨m, -, rfl⟩ := List.mem_map.mp he
  rfl

/-- No purge is reported for a length. -/
theorem isOversize_purge (queue : PurgedQueue) (dropped : Nat) :
    ∀ e ∈ purge queue dropped, e.isOversize = false := by
  intro e he
  rw [purge] at he
  split at he
  · cases he
  · rw [List.mem_singleton.mp he]
    rfl

end Event

namespace Stack

variable {s t u : Stack} {i : Nat} {b : Bus} {e : Envelope} {m : Message} {c : Call}

/-! ### Forwarding -/

/-- Forwards the request inside a request to bridge, with a check that the carried data are a
payload. -/
def forwardChecked (s : Stack) (m : Message) : Stack × UInt8 :=
  match m.data.bytes with
  | target :: function :: cmd :: _ =>
    let target : Channel := ⟨target⟩
    match s.busFor target with
    | none => (s.emit (.bridgeTargetUnknown target), CompletionCode.notSupportedInState)
    | some i =>
      let empty : Message :=
        { netFn := function >>> 2, cmd, seqSource := m.seqSource, infSource := m.infSource
          infTarget := target }
      match empty.setData (m.data.bytes.drop 3) with
      | (_, .error _) => (s, CompletionCode.invalidLength)
      | (bridged, .ok _) =>
        match s.sendRequest bridged i with
        | (s, .ok _) => (s, CompletionCode.success)
        | (s, .error fault) => (s.emit (.bridgeFailed target fault), CompletionCode.bridgeError)
  | _ => (s, CompletionCode.invalidLength)

/-- **The data that a request to bridge carries are always a payload.** -/
theorem forwardChecked_eq (s : Stack) (m : Message) : s.forwardChecked m = s.forward m := by
  simp only [forwardChecked, Message.setData_drop]
  rfl

/-! ### What is reported -/

/-- Something has been reported, and nothing of it is of something too long. -/
def ReportsFit (s t : Stack) : Prop :=
  ∃ es, t.journal = s.journal ++ es ∧ ∀ e ∈ es, e.isOversize = false

namespace ReportsFit

/-- Where the journals are the same, nothing has been reported. -/
theorem of_journal (h : t.journal = s.journal) : ReportsFit s t := ⟨[], by simp [h], by simp⟩

/-- Nothing has been reported on no way at all. -/
theorem refl (s : Stack) : ReportsFit s s := of_journal rfl

/-- What is reported on the way to a third state is what is reported on both parts of it. -/
theorem trans (h₁ : ReportsFit s t) (h₂ : ReportsFit t u) : ReportsFit s u := by
  obtain ⟨es, ht, hes⟩ := h₁
  obtain ⟨fs, hu, hfs⟩ := h₂
  refine ⟨es ++ fs, by rw [hu, ht, List.append_assoc], ?_⟩
  intro e he
  rcases List.mem_append.mp he with he | he
  · exact hes e he
  · exact hfs e he

/-- More may be reported, if it is not of something too long. -/
theorem report {es : List Event} (h : ReportsFit s t) (hes : ∀ e ∈ es, e.isOversize = false) :
    ReportsFit s (t.report es) := h.trans ⟨es, rfl, hes⟩

/-- One event more may be reported. -/
theorem emit {ev : Event} (h : ReportsFit s t) (hev : ev.isOversize = false) :
    ReportsFit s (t.emit ev) := h.report (by simpa using hev)

/-- A change of a bus reports nothing. -/
theorem onBus (h : ReportsFit s t) (i : Nat) (f : Bus → Bus) : ReportsFit s (t.onBus i f) := h

/-- What is reported of an operation that has failed. -/
theorem orEmit {r : Stack × Except Fault Unit} {f : Fault → Event} :
    ReportsFit s r.1 → (∀ fault, (f fault).isOversize = false) →
      ReportsFit s (match r with | (t, .ok _) => t | (t, .error fault) => t.emit (f fault)) := by
  intro h hf
  obtain ⟨t, outcome⟩ := r
  cases outcome with
  | ok _ => exact h
  | error fault => exact h.emit (hf fault)

end ReportsFit

/-! ### Sending -/

/-- To send a request may report a draw or a lock, and nothing too long. -/
theorem fits_sendRequest (s : Stack) (m : Message) (i : Nat) :
    ReportsFit s (s.sendRequest m i).1 := by
  rw [sendRequest]
  split
  · exact .refl s
  · split
    · exact (ReportsFit.refl s).emit rfl
    · exact (ReportsFit.refl s).report (Event.isOversize_draw _)

/-- To send a response may report a lock, and nothing too long. -/
theorem fits_sendResponse (s : Stack) (m : Message) (i : Nat) :
    ReportsFit s (s.sendResponse m i).1 := by
  rw [sendResponse]
  split
  · exact .refl s
  · split
    · exact (ReportsFit.refl s).emit rfl
    · exact .refl s

/-- A response that does not wait for room is dropped for want of room, not for its length. -/
theorem fits_trySendResponse (s : Stack) (m : Message) (i : Nat) :
    ReportsFit s (s.trySendResponse m i).1 := by
  rw [trySendResponse]
  split
  · exact .refl s
  · next b _ =>
      split
      · exact (ReportsFit.refl s).emit rfl
      · have hqueue : ReportsFit s (s.enqueue i b { msg := b.responseFor m }).1 := .refl s
        split
        · next t heq =>
            rw [heq] at hqueue
            exact hqueue
        · next t p _ heq =>
            rw [heq] at hqueue
            exact hqueue.emit rfl

/-- Handing a request to the dispatcher may report a purge, and nothing too long. -/
theorem fits_notify (s : Stack) (m : Message) : ReportsFit s (s.notify m).1 := by
  rw [notify]
  split
  · exact .refl s
  · exact .refl s
  · exact (ReportsFit.refl s).report (Event.isOversize_purge _ _)

/-- A request of the host is refused or sent, and not for its length. -/
theorem fits_submitFromHost (s : Stack) (m : Message) :
    ReportsFit s (s.submitFromHost m).1 := by
  have hrefuse : ∀ (t : Stack) (m : Message) (fault : Fault), ReportsFit s t →
      ReportsFit s ((t.emit (.hostNotBridged m fault)).writeHost (hostRefusal m)).1 :=
    fun _ _ _ ht => ht.emit rfl
  rw [submitFromHost]
  simp only
  split
  · exact fits_notify s _
  · cases hbmc : s.busFor .bmcIpmb with
    | none =>
        simp only
        have hrefused := hrefuse s { m with infSource := .hostKcs, infTarget := .bmcIpmb } .noBmcBus
          (.refl s)
        split
        · next heq => rwa [heq] at hrefused
        · next heq => rwa [heq] at hrefused
    | some bmc =>
        have hsend := fits_sendRequest s { m with infSource := .hostKcs, infTarget := .bmcIpmb } bmc
        simp only
        split
        · exact hsend
        · next fault _ =>
            have hrefused := hrefuse _ { m with infSource := .hostKcs, infTarget := .bmcIpmb }
              fault hsend
            split
            · next heq => rwa [heq] at hrefused
            · next heq => rwa [heq] at hrefused

/-! ### Transmitting -/

/-- Telling an originator of a failure reports nothing too long: the response has no data. -/
theorem fits_reportFailure (s : Stack) (m : Message) : ReportsFit s (s.reportFailure m) := by
  rw [reportFailure]
  split
  · exact (ReportsFit.refl s).emit rfl
  · split
    · exact (ReportsFit.refl s).emit rfl
    · split
      · split
        · refine .orEmit ?_ fun _ => ?_
          · exact .refl s
          · rfl
        · exact (ReportsFit.refl s).emit rfl
      · split
        · exact (ReportsFit.refl s).emit rfl
        · refine .orEmit ?_ fun _ => ?_
          · exact fits_trySendResponse s _ _
          · rfl

/-- Taking an envelope in hand may report a dump of its frame, and nothing too long. -/
theorem fits_takeInHand (s : Stack) (i : Nat) (e : Envelope) :
    ReportsFit s (s.takeInHand i e) := by
  rw [takeInHand]
  split
  · exact .trans (.of_journal rfl) ((ReportsFit.refl _).report (Event.isOversize_dump _ _ _ _))
  · exact .of_journal rfl

/-- The first half of a write looks at no length. -/
theorem fits_transmitBegin (s : Stack) (i : Nat) : ReportsFit s (s.transmitBegin i).1 := by
  rw [transmitBegin]
  split
  · exact .refl s
  · split
    · exact .refl s
    · split
      · exact .refl s
      · simp only
        split
        · rw [beginResponse]
          split
          · exact (ReportsFit.refl s).emit rfl
          · exact .trans (.of_journal rfl) (fits_takeInHand _ _ _)
        · exact .trans (.of_journal rfl) (fits_takeInHand _ _ _)

/-- A link does not look at the length of what is written. -/
theorem write_ne_frameOverflow {l : Link} {addr : UInt8} {payload : List UInt8} {fault : Fault}
    (h : (l.write addr payload).2 = .error fault) : fault ≠ .frameOverflow := by
  rw [Link.write] at h
  split at h
  · cases h
    decide
  · split at h
    · cases h
      decide
    · cases h

/-- **The write of an envelope does not fail because of its frame.** -/
theorem writeFrame_ne_frameOverflow {fault : Fault}
    (h : (s.writeFrame i b m).2 = .error fault) : fault ≠ .frameOverflow := by
  rw [writeFrame, Frame.encode_eq] at h
  exact write_ne_frameOverflow h

/-- An envelope that is not put back is dropped for want of room, not for its length. -/
theorem fits_requeue (s : Stack) (i : Nat) (b : Bus) (e : Envelope) :
    ReportsFit s (s.requeue i b e) := by
  have hqueue : ReportsFit s (s.enqueue i b e).1 := .refl s
  rw [requeue]
  split
  · next heq =>
      rw [heq] at hqueue
      exact hqueue
  · next heq =>
      rw [heq] at hqueue
      exact hqueue.emit rfl

/-- **The end of a write reports nothing too long**: every message has a frame, so only the link can
have refused it. -/
theorem fits_finishWrite (s : Stack) (i : Nat) (b : Bus) (e : Envelope) :
    ReportsFit s (s.finishWrite i b e) := by
  have hwrite : ReportsFit s
      ((s.onBus i fun b => { b with inHand := none }).writeFrame i b e.msg).1 := by
    rw [writeFrame, Frame.encode_eq]
    exact .of_journal rfl
  rw [finishWrite]
  split
  · next t _ heq =>
      rw [heq] at hwrite
      refine ReportsFit.emit ?_ rfl
      split
      · exact hwrite
      · exact hwrite.report (Event.isOversize_evictions _ _ _)
  · next t fault heq =>
      have hfault := writeFrame_ne_frameOverflow (congrArg Prod.snd heq)
      have hevent : (Event.writeFailed i e.failed.msg e.failed.retries fault).isOversize = false :=
        decide_eq_false hfault
      rw [heq] at hwrite
      simp only
      split
      · exact (hwrite.emit hevent).trans (fits_requeue _ i b e.failed)
      · have hfailed : ReportsFit s
            ((t.onBus i fun b => { b with ledger := (b.ledger.withdraw e.msg).1 }).emit
              (.writeFailed i e.failed.msg e.failed.retries fault)) := hwrite.emit hevent
        split
        · exact (hfailed.emit rfl).trans (fits_reportFailure _ e.failed.msg)
        · exact hfailed.trans (fits_requeue _ i b e.failed)

/-- What becomes of the write in hand, if there is one, reports nothing too long. -/
theorem fits_of_finishes (h : Finishes i s t) : ReportsFit s t := by
  cases h with
  | idle => exact .refl s
  | ends => exact fits_finishWrite s i _ _

/-! ### Receiving -/

/-- A response is queued for a reader whatever its length. -/
theorem fits_answerReader (s : Stack) (i : Nat) (m : Message) :
    ReportsFit s (s.answerReader i m) := by
  rw [answerReader]
  split
  · exact .refl s
  · split
    · exact .refl s
    · exact (ReportsFit.refl s).emit rfl

/-- A response is written to the host whatever its length. -/
theorem fits_answerHost (s : Stack) (i : Nat) (m : Message) :
    ReportsFit s (s.answerHost i m) := by
  rw [answerHost]
  split
  · refine .orEmit ?_ fun _ => ?_
    · exact .refl s
    · rfl
  · exact (ReportsFit.refl s).emit rfl

/-- A response is sent to the engine whatever its length. -/
theorem fits_answerMe (s : Stack) (i : Nat) (m : Message) : ReportsFit s (s.answerMe i m) := by
  rw [answerMe]
  split
  · exact (ReportsFit.refl s).emit rfl
  · refine .orEmit ?_ fun _ => ?_
    · exact fits_sendResponse s _ _
    · rfl

/-- **Nothing that has been received is too long to be wrapped.** -/
theorem fits_answerBridge (s : Stack) (i : Nat) (channel : Channel) {entry : Message}
    (hm : m.data.length ≤ Frame.dataMax) :
    ReportsFit s (s.answerBridge i channel (m.answering entry)) := by
  obtain ⟨data, hdata⟩ := exists_bridgedData (m := m.answering entry) channel hm
  rw [answerBridge]
  split
  · exact (ReportsFit.refl s).emit rfl
  · simp only [hdata]
    refine .orEmit ?_ fun _ => ?_
    · exact fits_sendResponse s _ _
    · rfl

/-- A response with no more data than a frame carries is routed, wrapped or not, without a report of
something too long. -/
theorem fits_routeResponse (s : Stack) (i : Nat) (b : Bus) (hm : m.data.length ≤ Frame.dataMax) :
    ReportsFit s (s.routeResponse i b m) := by
  have hdeliver : ∀ (t : Stack) (entry : Message), ReportsFit s t →
      ReportsFit s (t.deliverResponse i b.config.channel (m.answering entry)) := by
    intro t entry ht
    rw [deliverResponse]
    split
    · exact ht.trans (fits_answerReader t i _)
    · split
      · exact ht.trans (fits_answerHost t i _)
      · split
        · exact ht.trans (fits_answerMe t i _)
        · exact ht.trans (fits_answerBridge t i _ hm)
  rw [routeResponse]
  split
  · exact (ReportsFit.refl s).emit rfl
  · next ledger answer heq =>
      have hfound := congrArg Prod.snd heq
      obtain ⟨entry, -, rfl⟩ := Option.map_eq_some_iff.mp hfound
      exact hdeliver _ entry (.of_journal rfl)

/-- A request of the engine is passed on or answered with a timeout, and not for its length. -/
theorem fits_bridgeMeRequest (s : Stack) (i : Nat) (m : Message) :
    ReportsFit s (s.bridgeMeRequest i m) := by
  have hreply : ∀ t : Stack, ReportsFit s t → ReportsFit s
      (match (t.emit (.frameDropped i .meRequestNotBridged)).sendResponse (notBridged m) i with
        | (u, .ok _) => u
        | (u, .error _) => u.emit (.frameDropped i .meTimeoutNotQueued)) := by
    intro t ht
    refine .orEmit ?_ fun _ => ?_
    · exact (ht.emit rfl).trans (fits_sendResponse _ (notBridged m) i)
    · rfl
  cases hbmc : s.busFor .bmcIpmb with
  | none =>
      simp only [bridgeMeRequest, hbmc]
      exact hreply s (.refl s)
  | some bmc =>
      have hsend := fits_sendRequest s (bridged m) bmc
      simp only [bridgeMeRequest, hbmc]
      split
      · exact hsend
      · exact hreply _ hsend

/-- A request is routed whatever its length. -/
theorem fits_routeRequest (s : Stack) (i : Nat) (b : Bus) (m : Message) :
    ReportsFit s (s.routeRequest i b m) := by
  rw [routeRequest]
  split
  · exact fits_bridgeMeRequest s i m
  · refine .orEmit ?_ fun _ => ?_
    · exact fits_notify s _
    · rfl

/-- Whatever a frame holds, its data are short enough to be wrapped. -/
theorem fits_handleFrame (s : Stack) (i : Nat) (b : Bus) (raw : List UInt8) :
    ReportsFit s (s.handleFrame i b raw) := by
  rw [handleFrame]
  split
  · exact (ReportsFit.refl s).emit rfl
  · next frame _ =>
      have hdump := (ReportsFit.refl s).report (Event.isOversize_dump s.dumping i "rx" frame)
      simp only
      split
      · exact hdump.emit rfl
      · split
        · exact hdump.emit rfl
        · next m hm =>
            have hheard : ReportsFit s
                ((s.report (Event.dump s.dumping i "rx" frame)).emit (.frameReceived i m)) :=
              hdump.emit rfl
            split
            · exact hheard.trans (fits_routeResponse _ i b (Frame.eq_layout_of_decode hm).2)
            · exact hheard.trans (fits_routeRequest _ i b m)

/-- A look at a link reports nothing too long. -/
theorem fits_receive (s : Stack) (i : Nat) : ReportsFit s (s.receive i).1 := by
  rw [receive]
  split
  · exact .refl s
  · simp only
    split
    · exact (ReportsFit.refl s).emit rfl
    · exact .refl s
    · exact .trans (.of_journal rfl) (fits_handleFrame _ i _ _)

/-! ### Dispatching -/

/-- What a request to bridge carries is forwarded whatever its length. -/
theorem fits_forward (s : Stack) (m : Message) : ReportsFit s (s.forward m).1 := by
  rw [forward]
  split
  · simp only
    split
    · exact (ReportsFit.refl s).emit rfl
    · next i _ =>
        have hsend := fun m => fits_sendRequest s m i
        split
        · next t _ heq =>
            obtain rfl : _ = t := congrArg Prod.fst heq
            exact hsend _
        · next t fault heq =>
            obtain rfl : _ = t := congrArg Prod.fst heq
            exact (hsend _).emit rfl
  · exact .refl s

/-- A refusal of the bridge reports nothing too long: it has no data. -/
theorem fits_refuseBridge (s : Stack) (m : Message) : ReportsFit s (s.refuseBridge m) := by
  cases hbus : s.busFor m.infSource with
  | none =>
      simp only [refuseBridge, hbus]
      exact (ReportsFit.refl s).emit rfl
  | some i =>
      simp only [refuseBridge, hbus]
      split
      · exact fits_sendResponse s m i
      · exact (fits_sendResponse s m i).emit rfl

/-- A request to bridge is forwarded or refused, and not for the length of what it carries. -/
theorem fits_messageOut (s : Stack) (m : Message) : ReportsFit s (s.messageOut m).1 := by
  have hconclude : ∀ (t : Stack) (code : UInt8), ReportsFit s t →
      ReportsFit s (if code = CompletionCode.success then (t, { m with completionCode := code })
        else (t.refuseBridge { m.clearData with completionCode := code },
          { m.clearData with completionCode := code })).1 := by
    intro t code ht
    split
    · exact ht
    · exact ht.trans (fits_refuseBridge t _)
  rw [messageOut]
  by_cases hiana : m.completionCode = CompletionCode.invalidIana
  · simp only [hiana, if_true]
    exact hconclude s _ (.refl s)
  · simp only [hiana, if_false]
    exact hconclude _ _ (fits_forward s m)

/-- A request is served by a handler or by the bridge, and neither reports anything too long. -/
theorem fits_serve (s : Stack) (handler : Handler) (m : Message) :
    ReportsFit s (s.serve handler m).1 := by
  rcases serve_cases s handler m with ⟨n, -, h, -⟩ | ⟨-, -, n, -, h, -⟩
  · rw [h]
    exact .refl s
  · rw [h]
    exact fits_messageOut s n

/-- The dispatcher sends a response whatever its length. -/
theorem fits_respond (s : Stack) (m : Message) : ReportsFit s (s.respond m) := by
  rw [respond]
  split
  · split
    · refine .orEmit ?_ fun _ => ?_
      · exact .refl s
      · rfl
    · exact (ReportsFit.refl s).emit rfl
  · cases hbus : s.busFor m.infSource with
    | none => exact (ReportsFit.refl s).emit rfl
    | some i =>
        have hsend := fits_sendResponse s m i
        simp only
        split
        · exact hsend
        · exact hsend.emit rfl

/-- The dispatcher calls the handler and sends its response, and reports nothing too long. -/
theorem fits_dispatch (s : Stack) (handler : Handler) (m : Message) :
    ReportsFit s (s.dispatch handler m).1 := by
  have hserve : ∀ t, ReportsFit s t →
      ReportsFit s (conclude (t.serve handler m)) := by
    intro t ht
    rw [conclude]
    split
    · exact ht.trans (fits_serve t handler m)
    · exact (ht.trans (fits_serve t handler m)).trans (fits_respond _ _)
  have hbegin : ReportsFit s (if s.dumping then s.emit (.dispatching m) else s) := by
    split
    · exact (ReportsFit.refl s).emit rfl
    · exact .refl s
  have hdispatch : (s.dispatch handler m).1 =
      conclude ((if s.dumping then s.emit (.dispatching m) else s).serve handler m) := by
    simp only [dispatch, conclude]
    generalize (if s.dumping then s.emit (.dispatching m) else s).serve handler m = r
    split
    · rfl
    · rfl
  rw [hdispatch]
  exact hserve _ hbegin

/-- The sweep of one ledger may report evictions, and nothing too long. -/
theorem fits_sweepBus (s : Stack) (i : Nat) : ReportsFit s (s.sweepBus i).1 := by
  rw [sweepBus]
  split
  · exact .refl s
  · exact (ReportsFit.refl s).report (Event.isOversize_evictions _ _ _)

/-- The sweep of all ledgers reports what the sweeps of each report. -/
theorem fits_sweep (s : Stack) : ReportsFit s s.sweep.1 := by
  have hfirst : ∀ k, ReportsFit s (s.sweepFirst k).1 := by
    intro k
    induction k with
    | zero => exact .refl s
    | succ k ih =>
        rw [sweepFirst_succ]
        exact ih.trans (fits_sweepBus _ k)
  exact hfirst s.buses.length

/-! ### Calls -/

/-- A step of a call reports nothing of something too long, and only to the journal. -/
structure ServesFit (s : Stack) (c : Call) (r : Stack × Call) : Prop where
  reports : ReportsFit s r.1
  events : r.2.events = c.events

namespace ServesFit

/-- A call that waits, or goes on waiting. -/
theorem of_state {state : CallState} (h : ReportsFit s t) :
    ServesFit s c (t, { c with state }) := ⟨h, rfl⟩

/-- What a step reports after something else that has been reported. -/
theorem after {r : Stack × Call} (h : ReportsFit s t) (hr : ServesFit t c r) : ServesFit s c r :=
  ⟨h.trans hr.reports, hr.events⟩

end ServesFit

/-- A read that ends is reported with its outcome, which is nothing too long. -/
theorem fits_endCall (s : Stack) (c : Call) (outcome : Except Fault Message) :
    ServesFit s c (s.endCall c outcome) := by
  simp only [endCall]
  refine .of_state ?_
  split
  · split
    · exact (ReportsFit.refl s).emit rfl
    · exact (ReportsFit.refl s).emit rfl
  · exact .refl s

/-- A call that leaves gives back its lock and ends. -/
theorem fits_leaveCall (s : Stack) (c : Call) (outcome : Except Fault Message) :
    ServesFit s c (s.leaveCall c outcome) := by
  rw [leaveCall]
  split
  · exact .after ((ReportsFit.refl s).onBus c.bus _) (fits_endCall _ c outcome)
  · exact fits_endCall s c outcome

/-- A call whose message is queued ends or waits for its response. -/
theorem fits_callSent (s : Stack) (c : Call) (ticket : Nat) :
    ServesFit s c (s.callSent c ticket) := by
  rw [callSent]
  split
  · exact .of_state (.refl s)
  · exact fits_leaveCall s c _

/-- An offer to the queue is accepted, refused or waits, whatever its length. -/
theorem fits_callQueue (s : Stack) (c : Call) (b : Bus) (e : Envelope) (ticket : Nat) :
    ServesFit s c (s.callQueue c b e ticket) := by
  have hqueue : ReportsFit s (s.enqueue c.bus b e).1 := .refl s
  rw [callQueue]
  split
  · next heq =>
      rw [heq] at hqueue
      exact .after hqueue (fits_callSent _ c ticket)
  · next heq =>
      rw [heq] at hqueue
      exact .after hqueue (fits_leaveCall _ c _)
  · next heq =>
      rw [heq] at hqueue
      exact .of_state hqueue

/-- A call that sends may report a draw, and nothing too long. -/
theorem fits_callSend (s : Stack) (c : Call) (ticket : Nat) :
    ServesFit s c (s.callSend c ticket) := by
  rw [callSend]
  split
  · exact fits_leaveCall s c _
  · next b _ =>
      have henvelope : ReportsFit s (s.callEnvelope c b).1 := by
        rw [callEnvelope]
        split
        · exact .refl s
        · exact (ReportsFit.refl s).report (Event.isOversize_draw _)
      split
      · exact .of_state (.refl s)
      · exact .after henvelope (fits_callQueue _ c b _ ticket)

/-- A call that has waited for room is not told that its message is too long. -/
theorem fits_callRoom (s : Stack) (c : Call) (e : Envelope) (ticket : Nat) :
    ServesFit s c (s.callRoom c e ticket) := by
  rw [callRoom]
  split
  · exact .of_state (.refl s)
  · next b _ =>
      have hqueue : ReportsFit s (s.enqueue c.bus b e).1 := .refl s
      split
      · next heq =>
          rw [heq] at hqueue
          exact .after (hqueue.onBus c.bus _) (fits_callSent _ c ticket)
      · next heq =>
          rw [heq] at hqueue
          exact .after (hqueue.onBus c.bus _) (fits_leaveCall _ c _)
      · next heq =>
          rw [heq] at hqueue
          exact .of_state hqueue

/-- A reader that begins may report a purge, and nothing too long. -/
theorem fits_callRead (s : Stack) (c : Call) (ticket : Nat) :
    ServesFit s c (s.callRead c ticket) := by
  rw [callRead]
  split
  · exact .of_state (.refl s)
  · next b _ =>
      have hpurge : ReportsFit s ((s.onBus c.bus fun b' =>
          { b'.take .read with responses := b.responses.purge.1 }).report
            (Event.purge .response b.responses.purge.2)) :=
        (ReportsFit.of_journal rfl).report (Event.isOversize_purge _ _)
      have hsend := fun t => fits_callSend t (c.asReader b.config.channel) ticket
      exact ⟨hpurge.trans (hsend _).reports, (hsend _).events⟩

/-- A reader takes its response whatever its length. -/
theorem fits_callResponse (s : Stack) (c : Call) : ServesFit s c (s.callResponse c) := by
  rw [callResponse]
  split
  · exact .of_state (.refl s)
  · split
    · exact .after ((ReportsFit.refl s).onBus c.bus _) (fits_leaveCall _ c _)
    · split
      · exact fits_leaveCall s c _
      · exact .of_state (.refl s)

/-- **No call reports something too long when it begins.** -/
theorem fits_beginCall (s : Stack) (c : Call) (ticket : Nat) :
    ServesFit s c (s.beginCall c ticket) := by
  rw [beginCall]
  split
  · exact fits_endCall s c _
  · split
    · exact fits_callSend s c ticket
    · split
      · exact .of_state (.refl s)
      · exact fits_callRead s c ticket

/-- **No call reports something too long when it goes on.** -/
theorem fits_resumeCall (s : Stack) (c : Call) (ticket : Nat) :
    ServesFit s c (s.resumeCall c ticket) := by
  rw [resumeCall]
  split
  · exact .of_state (.refl s)
  · split
    · exact fits_callRead s c ticket
    · exact fits_callSend s c ticket
    · exact fits_callRoom s c _ ticket
    · exact fits_callResponse s c

/-- **No call reports something too long when it gives up.** -/
theorem fits_abandonCall (s : Stack) (c : Call) : ServesFit s c (s.abandonCall c) := by
  rw [abandonCall]
  split
  · exact .of_state (.refl s)
  · split
    · exact .after ((ReportsFit.refl s).emit rfl) (fits_endCall _ c _)
    · exact .after ((ReportsFit.refl s).emit rfl) (fits_leaveCall _ c _)
    · exact .after ((ReportsFit.refl s).onBus c.bus _) (fits_leaveCall _ c _)
    · exact fits_leaveCall s c _

/-- What a step of a call reports goes to the call. -/
theorem events_aside {step : Stack → Stack × Call} (h : ∀ t, ServesFit t c (step t))
    (hc : ∀ e ∈ c.events, e.isOversize = false) :
    ∀ e ∈ (s.aside step).2.events, e.isOversize = false := by
  obtain ⟨⟨es, hjournal, hes⟩, hevents⟩ := h { s with journal := [] }
  intro e he
  have haside : (s.aside step).2.events = c.events ++ es := by
    simp only [aside, hevents, hjournal, List.nil_append]
  rw [haside] at he
  rcases List.mem_append.mp he with he | he
  · exact hc e he
  · exact hes e he

end Stack

/-! ### Every action -/

namespace Scheduler

open Stack

variable {s : Scheduler} {a : Action} {as : List Action} {i : Nat} {e : Envelope}

/-- Nothing that has been reported is of something too long. -/
structure Fits (s : Scheduler) : Prop where
  log : ∀ ev ∈ s.log, ev.isOversize = false
  journal : ∀ ev ∈ s.stack.journal, ev.isOversize = false
  calls : ∀ c ∈ s.calls, ∀ ev ∈ c.events, ev.isOversize = false

/-- None of the events is of something too long, wherever it is kept. -/
theorem Fits.allEvents (h : s.Fits) : ∀ ev ∈ s.allEvents, ev.isOversize = false := by
  intro ev hev
  rcases List.mem_append.mp hev with hev | hev
  · rcases List.mem_append.mp hev with hev | hev
    · exact h.log ev hev
    · exact h.journal ev hev
  · obtain ⟨c, hc, hev⟩ := List.mem_flatMap.mp hev
    exact h.calls c hc ev hev

/-- An operation of the stack that reports nothing too long keeps the scheduler so. -/
theorem Fits.withStack {t : Stack} (h : s.Fits) (ht : ReportsFit s.stack t) :
    ({ s with stack := t } : Scheduler).Fits where
  log := h.log
  journal := by
    obtain ⟨es, hjournal, hes⟩ := ht
    intro ev hev
    rw [hjournal] at hev
    rcases List.mem_append.mp hev with hev | hev
    · exact h.journal ev hev
    · exact hes ev hev
  calls := h.calls

/-- A step of a call that reports nothing too long keeps the scheduler so. -/
theorem Fits.stepCall {step : Stack → Call → Stack × Call} (h : s.Fits)
    (hstep : ∀ t c, ServesFit t c (step t c)) (k : Nat) : (s.stepCall k step).Fits := by
  rcases stepCall_cases s k step with ⟨-, heq⟩ | ⟨c, hc, heq⟩
  · rw [heq]
    exact h
  · rw [heq]
    refine ⟨h.log, h.journal, ?_⟩
    intro d hd
    rcases List.mem_or_eq_of_mem_set hd with hd | rfl
    · exact h.calls d hd
    · exact events_aside (fun t => hstep t c) (h.calls c (List.mem_of_getElem? hc))

/-- **No action reports anything too long.** -/
theorem fits_perform (h : s.Fits) (a : Action) : (s.perform a).Fits := by
  cases a with
  | begin kind bus m =>
      refine ⟨h.log, h.journal, ?_⟩
      intro d hd
      rcases List.mem_append.mp hd with hd | hd
      · exact h.calls d hd
      · obtain rfl := List.mem_singleton.mp hd
        exact events_aside (fun t => fits_beginCall t (Call.new kind bus m) s.tickets)
          (by simp [Call.new])
  | resume k =>
      rw [perform]
      split
      · exact h.stepCall (fun t c => fits_resumeCall t c s.tickets) k
      · exact h
  | abandon k =>
      rw [perform]
      split
      · exact h.stepCall fits_abandonCall k
      · exact h
  | transmitBegin i => exact h.withStack (fits_transmitBegin s.stack i)
  | transmitEnd i => exact h.withStack (fits_of_finishes (finishes_transmitEnd s.stack i))
  | receive i => exact h.withStack (fits_receive s.stack i)
  | relink i link => exact h.withStack (.of_journal rfl)
  | submitFromHost m => exact h.withStack (fits_submitFromHost s.stack m)
  | notify m => exact h.withStack (fits_notify s.stack m)
  | dispatch handler =>
      have hserved : ReportsFit s.stack (dispatchUpTo handler 1 s.stack).1 := by
        rcases dispatchUpTo_one s.stack handler with ⟨-, heq⟩ | ⟨m, rest, -, heq⟩
        · rw [heq]
          exact .refl _
        · rw [heq]
          exact fits_dispatch (s.stack.withRequests rest) handler m
      exact h.withStack hserved
  | sweep => exact h.withStack (fits_sweep s.stack)
  | advance ms => exact h.withStack (.of_journal rfl)
  | stop => exact h.withStack (.of_journal rfl)
  | finish i => exact h.withStack (fits_of_finishes (finishes_finishInHand s.stack i))

/-- **In no run is anything too long reported.** -/
theorem fits_after (h : s.Fits) (as : List Action) : (s.after as).Fits :=
  after_induction h fun _ a _ ht => fits_perform ht a

/-- What arrives of a write that is brought to its end is the frame of its envelope. -/
theorem delivered_of_ends (h : s.stack.ends? i a = some e) :
    ∃ b c frame, s.stack.buses[i]? = some b ∧ (s.perform a).stack.buses[i]? = some c ∧
      Frame.encode e.msg = .ok frame ∧
      c.link = (b.link.write e.msg.destAddr (Frame.wirePayload frame)).1 ∧
      ∀ raw ∈ s.stack.deliveredOn (s.perform a).stack i,
        raw = Frame.delivered e.msg.destAddr frame := by
  obtain ⟨b, c, -, -, hb, -, hc, -, -, hlink, -⟩ := exists_ends h
  rw [Bus.attempt, Frame.encode_eq] at hlink
  refine ⟨b, c, _, hb, hc, Frame.encode_eq e.msg, hlink, ?_⟩
  intro raw hraw
  rw [deliveredOn_eq hb hc, hlink] at hraw
  rcases b.link.inbox_write e.msg.destAddr (Frame.wirePayload _) with hinbox | hinbox
  · rw [hinbox, List.drop_length] at hraw
    cases hraw
  · rw [hinbox, List.drop_left] at hraw
    exact List.mem_singleton.mp hraw

end Scheduler

/-- **Nothing is ever too long.** In no run of a stack that has been built does a worker report that
a frame has overflowed, or that a response was too long to be wrapped. Every write that is brought
to its end has tried the link with the frame of its envelope, and what has arrived is short enough
for the other end. The reason is in the sizes: data of up to 527 bytes are a payload with a frame of
seven or eight bytes more, the data of whatever can be decoded fit behind the header of a bridge,
and what a request to bridge carries is a payload. -/
theorem nothing_too_long {setup : Setup} {stack : Stack} (hbuild : setup.build = .ok stack)
    (as : List Action) :
    (∀ ev ∈ ((Scheduler.atRest stack).after as).allEvents, ev.isOversize = false) ∧
      (∀ a i e, ((Scheduler.atRest stack).after as).stack.ends? i a = some e →
        ∃ b c frame, ((Scheduler.atRest stack).after as).stack.buses[i]? = some b ∧
          (((Scheduler.atRest stack).after as).perform a).stack.buses[i]? = some c ∧
          Frame.encode e.msg = .ok frame ∧
          c.link = (b.link.write e.msg.destAddr (Frame.wirePayload frame)).1 ∧
          ∀ raw ∈ ((Scheduler.atRest stack).after as).stack.deliveredOn
              (((Scheduler.atRest stack).after as).perform a).stack i,
            raw.length ≤ 535 ∧ ∃ back, Frame.normalizeInbound raw = .ok back) ∧
      (∀ (m : Message) (bytes : List UInt8), bytes.length ≤ 527 →
        ∃ data frame, Payload.ofBytes? bytes = some data ∧
          Frame.encode { m with data } = .ok frame ∧
          frame.length = (if m.isResponse then 8 else 7) + bytes.length ∧ frame.length ≤ 535) ∧
      (∀ (frame : List UInt8) (m entry : Message) (channel : Channel),
        Frame.decode frame = .ok m →
          ∃ data, Payload.ofBytes? (Stack.bridgedData channel (m.answering entry)) = some data) ∧
      (∀ (m n : Message), (n.setData (m.data.bytes.drop 3)).2 = .ok ()) ∧
      ∀ (s : Stack) (m : Message), s.forwardChecked m = s.forward m := by
  refine ⟨?_, ?_, ?_, ?_, ?_, Stack.forwardChecked_eq⟩
  · have hfits : (Scheduler.atRest stack).Fits := by
      rw [Setup.eq_of_build hbuild]
      exact ⟨by simp [Scheduler.atRest], by simp [Scheduler.atRest], by simp [Scheduler.atRest]⟩
    exact (Scheduler.fits_after hfits as).allEvents
  · intro a i e hends
    obtain ⟨b, c, frame, hb, hc, hframe, hlink, hraw⟩ := Scheduler.delivered_of_ends hends
    refine ⟨b, c, frame, hb, hc, hframe, hlink, ?_⟩
    intro raw hmem
    rw [hraw raw hmem]
    exact Frame.exists_normalizeInbound_delivered hframe
  · intro m bytes hbytes
    refine ⟨⟨bytes, hbytes⟩, _, Payload.ofBytes?_eq_some_iff.mpr rfl, Frame.encode_eq _, ?_,
      Frame.length_layout_le _ _ _⟩
    exact Frame.length_layout _ _ _
  · intro frame m entry channel hm
    exact Stack.exists_bridgedData (m := m.answering entry) channel
      (Frame.eq_layout_of_decode hm).2
  · intro m n
    rw [Message.setData_drop]

/-- A response with as much data as a payload holds. -/
def fullResponse : Message :=
  { netFn := 0x2C, cmd := 0x02, seq := 9
    data := ⟨List.replicate 527 0x5A, Nat.le_of_eq List.length_replicate⟩ }

/-- That response has been queued, and is in hand. -/
def fullRun : List Action := [.begin .sendResponse 0 fullResponse, .transmitBegin 0]

/-- The write of that response fills a frame. -/
theorem nothing_too_long_fullRun :
    Setup.build { rows := [bmcRow] } = .ok (bmcStack {} .absent) ∧
      (∃ e, ((Scheduler.atRest (bmcStack {} .absent)).after fullRun).stack.ends? 0
        (.transmitEnd 0) = some e ∧ e.msg.data.length = 527) ∧
      (((Scheduler.atRest (bmcStack {} .absent)).after fullRun).stack.deliveredOn
        (((Scheduler.atRest (bmcStack {} .absent)).after fullRun).perform (.transmitEnd 0)).stack
          0).map List.length = [535] ∧
      (∀ raw ∈ ((Scheduler.atRest (bmcStack {} .absent)).after fullRun).stack.deliveredOn
          (((Scheduler.atRest (bmcStack {} .absent)).after fullRun).perform (.transmitEnd 0)).stack
            0,
        raw.length ≤ 535 ∧ ∃ back, Frame.normalizeInbound raw = .ok back) ∧
      ∀ ev ∈ ((Scheduler.atRest (bmcStack {} .absent)).after fullRun).allEvents,
        ev.isOversize = false := by
  obtain ⟨hevents, hwrites, -⟩ := nothing_too_long (build_bmcStack {} .absent) fullRun
  have hends : ((Scheduler.atRest (bmcStack {} .absent)).after fullRun).stack.ends? 0
      (.transmitEnd 0) =
        some { msg := (Bus.new bmcRow.config bmcRow.link {}).responseFor fullResponse } := by
    decide +kernel
  obtain ⟨b, c, frame, -, -, -, -, hraw⟩ := hwrites _ _ _ hends
  exact ⟨build_bmcStack {} .absent, ⟨_, hends, List.length_replicate⟩, by decide +kernel, hraw,
    hevents⟩

end ManagementBus
