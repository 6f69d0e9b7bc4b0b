import Mathlib.Data.List.Induction
import ManagementBus.Proofs.Numbers

/-!
# Requests that wait for their write

A number that is drawn is free while the ledger has fewer than sixty-four entries, and it stays
free until a request is recorded under it. So while the requests that wait on a bus have different
numbers none of them waits under the number of a pending request, and it makes no difference in
which order they are written, how often that fails, and which answers arrive meanwhile.

## Main results

* `LeavesFree.perform`: an action keeps the numbers free with which requests wait.
* `ledgers_exact_iff`: the ledgers of a run are exact just where no request is recorded under a
  pending number; and they are while the numbers that wait are different.
-/

namespace ManagementBus

open EnvelopeProperty SequenceNumber

/-! ### Ledgers with free numbers -/

namespace Ledger

variable {l : Ledger} {m : Message}

/-- A ledger with fewer than sixty-four entries leaves a number free. -/
theorem Tidy.hasFree (h : l.Tidy) (hlength : l.entries.length < 64) : HasFree l.numbers.busy :=
  h.accounted.exists_free hlength

/-- A tidy ledger from which a request is withdrawn has no entry with its number any more, where the
entries with its number are records of it. -/
theorem Tidy.seqTarget_ne_of_withdraw (h : l.Tidy)
    (hrecords : ∀ x ∈ l.entries, x.seqTarget = m.seqTarget → isRequest m x = true) :
    ∀ x ∈ (l.withdraw m).1.entries, x.seqTarget ≠ m.seqTarget := by
  intro x hx heq
  rw [entries_withdraw] at hx
  have hrecord := hrecords x (List.mem_of_mem_eraseP hx) heq
  obtain ⟨y, hfind⟩ : ∃ y, l.entries.find? (isRequest m) = some y := by
    rw [← Option.isSome_iff_exists, List.find?_isSome]
    exact ⟨x, List.mem_of_mem_eraseP hx, hrecord⟩
  obtain ⟨before, after, hentries, herase, -, hy⟩ := exists_split_of_find? hfind
  have hytarget : y.seqTarget = m.seqTarget := by
    simp only [isRequest, Bool.and_eq_true, beq_iff_eq] at hy
    exact hy.2
  have hperm : l.entries.Perm (y :: (before ++ after)) := by
    rw [hentries]
    exact List.perm_middle
  have hnodup := (hperm.map Message.seqTarget).nodup_iff.mp h.nodup
  rw [List.map_cons, List.nodup_cons] at hnodup
  rw [herase] at hx
  refine hnodup.1 ?_
  rw [hytarget, ← heq]
  exact List.mem_map_of_mem hx

end Ledger

/-! ### Numbers left free -/

namespace Bus

variable {P : EnvelopeProperty} {now : UInt32} {b c : Bus} {e f : Envelope}

/-- The number of a request is not in flight. -/
def Frees (b : Bus) (e : Envelope) : Prop :=
  e.msg.isResponse = false → b.ledger.numbers.isBusy (ofByte e.msg.seq) = false

/-- Whether an entry has the number of the request in hand. -/
def isInHand (b : Bus) (entry : Message) : Bool :=
  b.inHand.any fun e => !e.msg.isResponse && entry.seqTarget == e.msg.seq

/-- The requests in the queue of a bus have free numbers, what is recorded under the number of the
request in hand is that request, and the ledger holds no more besides than it has room for. -/
structure LeavesFree (b : Bus) : Prop where
  queued : ∀ e ∈ b.outbound.items, b.Frees e
  recorded : ∀ e, b.inHand = some e → e.msg.isResponse = false →
    ∀ entry ∈ b.ledger.entries, entry.seqTarget = e.msg.seq → Ledger.isRequest e.msg entry = true
  size : b.ledger.entries.countP (fun entry => !b.isInHand entry) ≤ b.ledger.capacity
  capacity : b.ledger.capacity < 63

/-- A number that is not in flight is not in flight in a ledger that holds no more. -/
theorem Frees.within (h : b.Frees e) (hwithin : c.ledger.Within b.ledger) : c.Frees e := by
  intro hrequest
  rw [← Bool.not_eq_true]
  intro hbusy
  have hfree := h hrequest
  rw [hwithin.busy _ hbusy] at hfree
  cases hfree

/-- Of a response nothing is asked. -/
theorem Frees.of_response (hresponse : e.msg.isResponse = true) : b.Frees e := by
  intro hrequest
  rw [hresponse] at hrequest
  cases hrequest

/-- A number drawn for a request is free where a number is. -/
theorem Frees.of_from {channel : Channel} (hfree : HasFree b.ledger.numbers.busy)
    (h : From channel b.ledger.numbers.busy e) : b.Frees e := by
  intro hrequest
  rcases h.2 with hresponse | ⟨-, n, hseq, hn⟩
  · rw [hresponse] at hrequest
    cases hrequest
  · rw [hseq, ofByte_toByte]
    exact hn hfree

/-- A tidy ledger leaves the number free that no entry has. -/
theorem frees_of_ne (htidy : b.ledger.Tidy) (he : e.IsNumbered)
    (hne : ∀ entry ∈ b.ledger.entries, entry.seqTarget ≠ e.msg.seq) : b.Frees e := by
  intro hrequest
  rw [← Bool.not_eq_true, htidy.busy]
  rintro ⟨entry, hentry, hslot⟩
  refine hne entry hentry ?_
  rw [(htidy.slot_eq_iff hentry _).mp hslot]
  exact toByte_ofByte (he hrequest)

/-- Recording a request leaves every other number as it is. -/
theorem frees_staging {rest : List Envelope} {f : Envelope} (he : e.IsNumbered) (hf : f.IsNumbered)
    (h : b.Frees f) (hrequest : e.msg.isResponse = false)
    (hdiffer : f.msg.isResponse = false → f.msg.seq ≠ e.msg.seq) :
    ((b.withItems rest).staging e.staged now).Frees f := by
  intro hrequest'
  have hbusy : ((b.withItems rest).staging e.staged now).ledger.numbers =
      b.ledger.numbers.register (ofByte e.msg.seq) := rfl
  have hne : ofByte f.msg.seq ≠ ofByte e.msg.seq := by
    intro heq
    refine hdiffer hrequest' ?_
    rw [← toByte_ofByte (hf hrequest'), heq, toByte_ofByte (he hrequest)]
  rw [hbusy, SequenceTable.isBusy_register, h hrequest']
  simpa using hne

/-- No entry has the number that is left free. -/
theorem Frees.ne (htidy : b.ledger.Tidy) (h : b.Frees e) (hrequest : e.msg.isResponse = false) :
    ∀ entry ∈ b.ledger.entries, entry.seqTarget ≠ e.msg.seq := by
  intro entry hentry heq
  have hbusy : b.ledger.numbers.isBusy (ofByte e.msg.seq) = true := by
    rw [htidy.busy]
    exact ⟨entry, hentry, by rw [Ledger.slot, heq]⟩
  rw [h hrequest] at hbusy
  cases hbusy

/-- While nothing is in hand no entry is. -/
theorem isInHand_of_idle (hidle : b.inHand = none) (entry : Message) :
    b.isInHand entry = false := by
  rw [isInHand, hidle]
  rfl

/-- No entry is in hand while a response is. -/
theorem isInHand_of_response (hhand : b.inHand = some e) (hresponse : e.msg.isResponse = true)
    (entry : Message) : b.isInHand entry = false := by
  simp [isInHand, hhand, hresponse]

/-- The entry in hand is told by its number. -/
theorem isInHand_of_request (hhand : b.inHand = some e) (hrequest : e.msg.isResponse = false)
    (entry : Message) : b.isInHand entry = true ↔ entry.seqTarget = e.msg.seq := by
  simp [isInHand, hhand, hrequest]

/-- The ledger holds its capacity while no request is in hand. -/
theorem LeavesFree.length_le (h : b.LeavesFree) (hnone : ∀ entry, b.isInHand entry = false) :
    b.ledger.entries.length ≤ b.ledger.capacity := by
  have hcount : b.ledger.entries.countP (fun entry => !b.isInHand entry) =
      b.ledger.entries.length := by
    rw [List.countP_eq_length]
    intro entry _
    rw [hnone]
    rfl
  rw [← hcount]
  exact h.size

/-- At most one entry has the number of the request in hand. -/
theorem countP_isInHand_le (htidy : b.ledger.Tidy) :
    b.ledger.entries.countP b.isInHand ≤ 1 := by
  cases hhand : b.inHand with
  | none =>
      have hzero : b.ledger.entries.countP b.isInHand = 0 := by
        rw [List.countP_eq_zero]
        intro entry _
        simp [isInHand_of_idle hhand]
      omega
  | some e =>
      by_cases hresponse : e.msg.isResponse = true
      · have hzero : b.ledger.entries.countP b.isInHand = 0 := by
          rw [List.countP_eq_zero]
          intro entry _
          simp [isInHand_of_response hhand hresponse]
        omega
      · have hcount : b.ledger.entries.countP b.isInHand =
            (b.ledger.entries.map Message.seqTarget).count e.msg.seq := by
          rw [List.count, List.countP_map]
          refine List.countP_congr fun entry _ => ?_
          rw [isInHand_of_request hhand (by simpa using hresponse)]
          simp
        rw [hcount]
        exact List.nodup_iff_count_le_one.mp htidy.nodup _

/-- **Where numbers are left free, one is free to be drawn.** -/
theorem LeavesFree.hasFree (h : b.LeavesFree) (htidy : b.ledger.Tidy) :
    HasFree b.ledger.numbers.busy := by
  refine htidy.hasFree ?_
  have hlength := List.length_eq_countP_add_countP b.isInHand (l := b.ledger.entries)
  have hone := countP_isInHand_le htidy
  have hsize := h.size
  have hcapacity := h.capacity
  simp only [Bool.not_eq_true, Bool.decide_eq_false] at hlength
  omega

/-! ### What keeps numbers free -/

/-- A failed write adds nothing to the ledger. -/
theorem undelivered_within (b : Bus) (e : Envelope) : (b.undelivered e).ledger.Within b.ledger := by
  rw [undelivered]
  split
  · exact Ledger.Within.refl _
  · exact Ledger.within_extract _ _

/-- After a failed write no entry has the number of the request that was in hand. -/
theorem LeavesFree.ne_of_undelivered (h : b.LeavesFree) (hb : b.IsNumbered)
    (hhand : b.inHand = some e) (hrequest : e.msg.isResponse = false) :
    ∀ entry ∈ (b.undelivered e).ledger.entries, entry.seqTarget ≠ e.msg.seq := by
  have hseq := (hb.hand e hhand).2 hrequest
  have hledger : (b.undelivered e).ledger = (b.ledger.withdraw e.msg).1 := by
    rw [undelivered, hrequest]
    rfl
  rw [hledger, ← hseq]
  refine hb.tidy.seqTarget_ne_of_withdraw ?_
  intro entry hentry heq
  exact h.recorded e hhand hrequest entry hentry (heq.trans hseq)

/-- A bus whose ledger holds no more and has room, with no request in hand. -/
theorem LeavesFree.of_within (h : b.LeavesFree) (hwithin : c.ledger.Within b.ledger)
    (hitems : ∀ e ∈ c.outbound.items, e ∈ b.outbound.items ∨ c.Frees e)
    (hhand : ∀ e, c.inHand = some e → e.msg.isResponse = true)
    (hlength : c.ledger.entries.length ≤ b.ledger.capacity) : c.LeavesFree := by
  refine ⟨?_, ?_, ?_, ?_⟩
  · intro e he
    rcases hitems e he with hqueued | hfree
    · exact (h.queued e hqueued).within hwithin
    · exact hfree
  · intro e he hrequest
    rw [hhand e he] at hrequest
    cases hrequest
  · rw [hwithin.capacity]
    exact Nat.le_trans List.countP_le_length hlength
  · rw [hwithin.capacity]
    exact h.capacity

/-- After a failed write the ledger is within its capacity again, since the entry over it was the
one in hand. -/
theorem LeavesFree.length_undelivered_le (h : b.LeavesFree) (hb : b.IsNumbered)
    (hhand : b.inHand = some e) :
    (b.undelivered e).ledger.entries.length ≤ b.ledger.capacity := by
  have hnothing : ∀ entry ∈ (b.undelivered e).ledger.entries, b.isInHand entry = false := by
    intro entry hentry
    by_cases hresponse : e.msg.isResponse = true
    · exact isInHand_of_response hhand hresponse entry
    · have hrequest : e.msg.isResponse = false := by simpa using hresponse
      rw [← Bool.not_eq_true, isInHand_of_request hhand hrequest]
      exact h.ne_of_undelivered hb hhand hrequest entry hentry
  have hcount : (b.undelivered e).ledger.entries.countP (fun entry => !b.isInHand entry) =
      (b.undelivered e).ledger.entries.length := by
    rw [List.countP_eq_length]
    intro entry hentry
    rw [hnothing entry hentry]
    rfl
  rw [← hcount]
  exact Nat.le_trans (b.undelivered_within e).entries.countP_le h.size

/-- A failed write leaves the numbers of the waiting requests free. -/
theorem LeavesFree.undelivered (h : b.LeavesFree) (hb : b.IsNumbered)
    (hhand : b.inHand = some e) : (b.undelivered e).LeavesFree := by
  refine h.of_within (b.undelivered_within e) (fun f hf => .inl hf) ?_
    (h.length_undelivered_le hb hhand)
  intro f hf
  cases hf

/-- A request that is to be tried again waits under a free number. -/
theorem LeavesFree.retrying (h : b.LeavesFree) (hb : b.IsNumbered)
    (hhand : b.inHand = some e) : (b.retrying e).LeavesFree := by
  have hfree : (b.undelivered e).Frees e.failed := by
    by_cases hresponse : e.msg.isResponse = true
    · exact Frees.of_response hresponse
    · have hrequest : e.msg.isResponse = false := by simpa using hresponse
      refine frees_of_ne (hb.undelivered e).tidy (hb.hand e hhand).1 ?_
      exact h.ne_of_undelivered hb hhand hrequest
  refine h.of_within (b.undelivered_within e) ?_ ?_ (h.length_undelivered_le hb hhand)
  · intro f hf
    rcases mem_offered hf with hf | rfl
    · exact .inl hf
    · exact .inr hfree
  · intro f hf
    cases hf

/-- A bus that has written the envelope in hand: its ledger is cut to its capacity. -/
theorem LeavesFree.delivered (h : b.LeavesFree) (hhand : b.inHand = some e) :
    (b.delivered e).LeavesFree := by
  have hidle : ∀ f, (b.delivered e).inHand = some f → f.msg.isResponse = true := by
    intro f hf
    cases hf
  by_cases hresponse : e.msg.isResponse = true
  · have hledger : (b.delivered e).ledger = b.ledger := if_pos hresponse
    refine h.of_within ?_ (fun f hf => .inl hf) hidle ?_
    · rw [hledger]
      exact Ledger.Within.refl _
    · rw [hledger]
      exact h.length_le (isInHand_of_response hhand hresponse)
  · have hledger : (b.delivered e).ledger = b.ledger.commit.1 := if_neg hresponse
    refine h.of_within ?_ (fun f hf => .inl hf) hidle ?_
    · rw [hledger]
      exact Ledger.within_commit _
    · rw [hledger, Ledger.entries_commit, List.length_drop]
      omega

/-- A bus that has grown by envelopes with free numbers. -/
theorem LeavesFree.grows (h : b.LeavesFree) (hP : ∀ l : Ledger, l.Within b.ledger →
    ∀ e, P l.numbers.busy e → Frees { b with ledger := l } e) (hc : b.Grows P c) :
    c.LeavesFree := by
  obtain ⟨l, hloses, hext⟩ := hc
  have hl := hloses.within
  have hwithin : c.ledger.Within l := by
    obtain ⟨cursor, hledger⟩ := hext.ledger
    rw [hledger]
    exact ⟨List.Sublist.refl _, fun _ hn => hn, rfl⟩
  have hhand : c.inHand = b.inHand := hext.inHand
  refine ⟨?_, ?_, ?_, ?_⟩
  · obtain ⟨added, hadded, hPadded⟩ := hext.outbound
    rw [hadded]
    intro e he
    rcases List.mem_append.mp he with he | he
    · exact (h.queued e he).within (hwithin.trans hl)
    · exact (hP l hl e (hPadded e he)).within (b := { b with ledger := l }) hwithin
  · intro e he hrequest entry hentry
    rw [hhand] at he
    exact h.recorded e he hrequest entry ((hwithin.trans hl).entries.subset hentry)
  · have hsame : (fun entry => !c.isInHand entry) = fun entry => !b.isInHand entry := by
      funext entry
      rw [isInHand, isInHand, hhand]
    rw [hsame, (hwithin.trans hl).capacity]
    exact Nat.le_trans (hwithin.trans hl).entries.countP_le h.size
  · rw [(hwithin.trans hl).capacity]
    exact h.capacity

/-- A request whose number is free and that nobody else waits with is recorded. -/
theorem LeavesFree.staging {rest : List Envelope} (h : b.LeavesFree) (hb : b.IsNumbered)
    (hidle : b.inHand = none) (hitems : b.outbound.items = e :: rest)
    (hrequest : e.msg.isResponse = false)
    (hdiffer : ∀ f ∈ rest, f.msg.isResponse = false → f.msg.seq ≠ e.msg.seq) :
    ((b.withItems rest).staging e.staged now).LeavesFree := by
  have hentries : ((b.withItems rest).staging e.staged now).ledger.entries =
      b.ledger.entries ++ [{ e.staged.msg with timestamp := now }] := rfl
  have hhead : e ∈ b.outbound.items := by
    rw [hitems]
    exact List.mem_cons_self
  have hfree := h.queued e hhead
  have hne := hfree.ne hb.tidy hrequest
  have hrecord : Ledger.isRequest e.staged.msg { e.staged.msg with timestamp := now } = true := by
    simp [Ledger.isRequest]
  have hmem : ∀ f ∈ rest, f ∈ b.outbound.items := by
    intro f hf
    rw [hitems]
    exact List.mem_cons_of_mem _ hf
  refine ⟨?_, ?_, ?_, h.capacity⟩
  · intro f hf hresponse
    exact frees_staging (hb.queued e hhead) (hb.queued f (hmem f hf)) (h.queued f (hmem f hf))
      hrequest (hdiffer f hf) hresponse
  -- Of the entries only the new one has the number of the request in hand.
  · intro f hf _ entry hentry heq
    obtain rfl : e.staged = f := Option.some.inj hf
    rw [hentries] at hentry
    rcases List.mem_append.mp hentry with hentry | hentry
    · exact absurd heq (hne entry hentry)
    · obtain rfl := List.mem_singleton.mp hentry
      exact hrecord
  -- The new entry is in hand, so it does not count against the capacity.
  · have hlength := h.length_le (isInHand_of_idle hidle)
    have hnew : ((b.withItems rest).staging e.staged now).isInHand
        { e.staged.msg with timestamp := now } = true := by
      rw [isInHand_of_request rfl (by exact hrequest)]
      rfl
    rw [hentries, List.countP_append, List.countP_singleton, hnew]
    have hcount := List.countP_le_length (l := b.ledger.entries)
      (p := fun entry => !((b.withItems rest).staging e.staged now).isInHand entry)
    have hcapacity : ((b.withItems rest).staging e.staged now).ledger.capacity =
        b.ledger.capacity := rfl
    simp only [Bool.not_true, Bool.false_eq_true, if_false]
    omega

/-- The ledger of a bus after an action holds no more, or a request has been recorded. -/
theorem Changes.within_or_stages (hc : b.Changes P now c) :
    c.ledger.Within b.ledger ∨ ∃ e rest, b.inHand = none ∧ b.outbound.items = e :: rest ∧
      e.msg.isResponse = false ∧ c = (b.withItems rest).staging e.staged now := by
  have hcursor : ∀ (l : Ledger) (n : SequenceNumber),
      Ledger.Within { l with numbers := { l.numbers with cursor := n } } l :=
    fun _ _ => ⟨List.Sublist.refl _, fun _ hn => hn, rfl⟩
  cases hc with
  | grows hgrows =>
      obtain ⟨l, hloses, hext⟩ := hgrows
      obtain ⟨cursor, hledger⟩ := hext.ledger
      rw [hledger]
      exact .inl ((hcursor l cursor).trans hloses.within)
  | drops | holds | closes => exact .inl (Ledger.Within.refl _)
  | stages hidle hitems hrequest => exact .inr ⟨_, _, hidle, hitems, hrequest, rfl⟩
  | delivers =>
      rw [delivered]
      split
      · exact .inl (Ledger.Within.refl _)
      · exact .inl (Ledger.within_commit _)
  | @retries e _ => exact .inl (b.undelivered_within e)
  | @gives e c _ hext =>
      obtain ⟨cursor, hledger⟩ := hext.ledger
      rw [hledger]
      exact .inl ((hcursor _ cursor).trans (b.undelivered_within e))

/-- **A change of a bus keeps the numbers free with which requests wait in its queue**, while they
are different. -/
theorem LeavesFree.changes (h : b.LeavesFree) (hb : b.IsNumbered)
    (hP : ∀ l : Ledger, l.Within b.ledger → ∀ e, P l.numbers.busy e →
      Frees { b with ledger := l } e)
    (hdiffer : ∀ e rest, b.outbound.items = e :: rest → e.msg.isResponse = false →
      ∀ f ∈ rest, f.msg.isResponse = false → f.msg.seq ≠ e.msg.seq)
    (hc : b.Changes P now c) : c.LeavesFree := by
  cases hc with
  | grows hgrows => exact h.grows hP hgrows
  | @drops e rest hidle hitems hresponse =>
      refine h.of_within (Ledger.Within.refl _) ?_ ?_ (h.length_le (isInHand_of_idle hidle))
      · intro f hf
        rw [hitems]
        exact .inl (List.mem_cons_of_mem _ hf)
      · intro f hf
        have hnone : b.inHand = some f := hf
        rw [hidle] at hnone
        cases hnone
  | @holds e rest hidle hitems hresponse =>
      refine h.of_within (Ledger.Within.refl _) ?_ ?_ (h.length_le (isInHand_of_idle hidle))
      · intro f hf
        rw [hitems]
        exact .inl (List.mem_cons_of_mem _ hf)
      · intro f hf
        obtain rfl : e.addressed b = f := Option.some.inj hf
        exact hresponse
  | stages hidle hitems hrequest =>
      exact h.staging hb hidle hitems hrequest (hdiffer _ _ hitems hrequest)
  | delivers hhand => exact h.delivered hhand
  | retries hhand => exact h.retrying hb hhand
  | gives hhand hext =>
      refine (h.undelivered hb hhand).grows (P := Reply) ?_ hext.grows
      intro l _ f hf
      exact Frees.of_response hf.2
  | closes => exact ⟨h.queued, h.recorded, h.size, h.capacity⟩

/-- A new bus is tidy and leaves all numbers free. -/
theorem IsNumbered.new (config : BusConfig) (link : Link) (timing : Timing) :
    (Bus.new config link timing).IsNumbered where
  tidy := Ledger.Tidy.new _
  queued := by
    intro e he
    cases he
  hand := by
    intro e he
    cases he

/-- On a new bus every number is free. -/
theorem LeavesFree.new (config : BusConfig) (link : Link) {timing : Timing}
    (hcapacity : max timing.ledgerCapacity 1 < 63) :
    (Bus.new config link timing).LeavesFree where
  queued := by
    intro e he
    cases he
  recorded := by
    intro e he
    cases he
  size := Nat.zero_le _
  capacity := hcapacity

end Bus

/-! ### Actions -/

namespace Scheduler

variable {s : Scheduler} {a : Action} {i : Nat} {b : Bus} {e : Envelope}

/-- The requests that wait on a bus, in its queue or with a caller, have free numbers. -/
structure LeavesFree (s : Scheduler) : Prop where
  buses : ∀ (i : Nat) (b : Bus), s.stack.buses[i]? = some b → b.LeavesFree
  rooms : ∀ (i : Nat) (b : Bus), s.stack.buses[i]? = some b → ∀ e ∈ s.rooms i, b.Frees e

/-- Behind the oldest envelope of a queue nobody waits under its number. -/
theorem NumbersDiffer.ne (h : s.NumbersDiffer) (hb : s.stack.buses[i]? = some b)
    {rest : List Envelope} (hitems : b.outbound.items = e :: rest)
    (hrequest : e.msg.isResponse = false) {f : Envelope} (hf : f ∈ rest ∨ f ∈ s.rooms i)
    (hrequest' : f.msg.isResponse = false) : f.msg.seq ≠ e.msg.seq := by
  have hnodup := h i
  have hwaiting : s.waitingRequests i =
      e :: (rest ++ s.rooms i).filter fun e => !e.msg.isResponse := by
    rw [waitingRequests, hb, Option.map_some, Option.getD_some, hitems, List.cons_append,
      List.filter_cons_of_pos]
    simpa using hrequest
  rw [hwaiting, List.map_cons, List.nodup_cons] at hnodup
  intro heq
  refine hnodup.1 ?_
  rw [← heq]
  refine List.mem_map_of_mem (List.mem_filter.mpr ⟨List.mem_append.mpr hf, ?_⟩)
  simpa using hrequest'

/-- **No request is recorded under the number of a pending one** while the requests that wait have
free numbers. -/
theorem LeavesFree.not_recordsPending (h : s.LeavesFree) (hs : s.IsNumbered) :
    ¬s.RecordsPending (s.perform a) := by
  rintro ⟨i, b, c, e, hb, hc, hidle, hhand, hrequest, entry, hentry, heq⟩
  obtain ⟨c', hc', hchanges⟩ := s.perform_changes a hb
  obtain rfl : c = c' := Option.some.inj (hc.symm.trans hc')
  obtain ⟨f, rest, hitems, rfl⟩ := hchanges.exists_staged hidle hhand hrequest
  obtain rfl : f.staged = e := Option.some.inj hhand
  have hfree : b.Frees f := by
    refine (h.buses i b hb).queued f ?_
    rw [hitems]
    exact List.mem_cons_self
  exact hfree.ne (hs.buses i b hb).tidy hrequest entry hentry heq

/-! ### Orderly traffic -/

/-- The calls answer requests only. -/
def Orderly (s : Scheduler) : Prop :=
  ∀ c ∈ s.calls, c.kind = .sendResponse → c.msg.isResponse = false

/-- The calls of which an action takes a step answer requests only. -/
theorem Orderly.call (h : s.Orderly) (ha : a.IsOrderly) {c : Call}
    (hc : c ∈ s.calls ∨ ∃ kind bus m, a = .begin kind bus m ∧ c = Call.new kind bus m) :
    c.kind = .sendResponse → c.msg.isResponse = false := by
  rcases hc with hc | ⟨kind, bus, m, rfl, rfl⟩
  · exact h c hc
  · exact ha

/-- An orderly action keeps the calls orderly. -/
theorem Orderly.perform (h : s.Orderly) (ha : a.IsOrderly) : (s.perform a).Orderly := by
  intro d hd
  rcases mem_calls_perform hd with hd | ⟨c, r, hserves, rfl, hc⟩
  · exact h d hd
  · intro hkind
    rw [(isResponse_of_serves hserves).1]
    exact h.call ha hc (hserves.kind ▸ hkind)

/-- What a call queues that gets its send lock is a reply, or a request under a number drawn now. -/
theorem from_of_sends {busy : BitVec 64} {c : Call}
    (hc : c.kind = .sendResponse → c.msg.isResponse = false) (h : c.Sends busy e) :
    From c.msg.infSource busy e := by
  rw [Call.Sends] at h
  split at h
  · next hkind => exact (Reply.of_responseTo (hc hkind) h).from _
  · exact From.of_requestOf h

/-- What a call queues is the envelope with which it has waited, or drawn now. -/
theorem from_of_supplies {busy : BitVec 64} {c : Call}
    (hc : c.kind = .sendResponse → c.msg.isResponse = false) (h : c.Supplies busy e) :
    c.room? = some e ∨ ∃ channel, From channel busy e := by
  rcases h with hroom | hsends | ⟨channel, hsends⟩
  · exact .inl hroom
  · exact .inr ⟨_, from_of_sends hc hsends⟩
  · exact .inr ⟨_, from_of_sends (c := c.asReader channel) hc hsends⟩

/-- What an action queues is a reply, or drawn now, or it is what a caller has waited with. -/
theorem Orderly.supplied {busy : BitVec 64} (h : s.Orderly) (ha : a.IsOrderly)
    (he : s.Supplied i a busy e) : e ∈ s.rooms i ∨ ∃ channel, From channel busy e := by
  cases a with
  | begin kind bus m =>
      rcases from_of_supplies (c := Call.new kind bus m) ha he.2 with hroom | hfrom
      · cases hroom
      · exact .inr hfrom
  | resume k =>
      obtain ⟨c, hc, hi, hsupplies⟩ := he
      have hmem := List.mem_of_getElem? hc
      rcases from_of_supplies (h c hmem) hsupplies with hroom | hfrom
      · exact .inl (List.mem_filterMap.mpr ⟨c, hmem, by rw [if_pos hi, hroom]⟩)
      · exact .inr hfrom
  | transmitEnd | finish => exact .inr ⟨.self, Reply.from _ he⟩
  | receive | submitFromHost => exact .inr ⟨_, he⟩
  | dispatch handler => exact ha.elim
  | abandon | transmitBegin | relink | notify | sweep | advance | stop => exact he.elim

/-- What an action queues has a free number, if it has not waited with it. -/
theorem LeavesFree.frees_of_supplied (h : s.LeavesFree) (hs : s.IsNumbered) (ho : s.Orderly)
    (ha : a.IsOrderly) (hb : s.stack.buses[i]? = some b) {l : Ledger} (hwithin : l.Within b.ledger)
    (he : s.Supplied i a l.numbers.busy e) : Bus.Frees { b with ledger := l } e := by
  rcases ho.supplied ha he with hroom | ⟨channel, hfrom⟩
  · exact (h.rooms i b hb e hroom).within hwithin
  · obtain ⟨n, hn⟩ := (h.buses i b hb).hasFree (hs.buses i b hb).tidy
    refine Bus.Frees.of_from (b := { b with ledger := l }) ⟨n, ?_⟩ hfrom
    rw [← Bool.not_eq_true]
    intro hbusy
    have hbusy' := hwithin.busy n hbusy
    rw [SequenceTable.isBusy, hn] at hbusy'
    cases hbusy'

/-- A caller waits after an action as it did before, or with a number drawn now. -/
theorem Orderly.rooms_perform (ho : s.Orderly) (ha : a.IsOrderly)
    (he : e ∈ (s.perform a).rooms i) :
    e ∈ s.rooms i ∨ ∃ channel b, s.stack.buses[i]? = some b ∧
      From channel b.ledger.numbers.busy e := by
  obtain ⟨d, hd, hroom⟩ := List.mem_filterMap.mp he
  split at hroom
  · next hi =>
      rcases mem_calls_perform hd with hd | ⟨c, r, hserves, rfl, hc⟩
      · exact .inl (List.mem_filterMap.mpr ⟨d, hd, by rw [if_pos hi, hroom]⟩)
      · have hci : c.bus = i := hserves.bus ▸ hi
        have hold : c.room? = some e → e ∈ s.rooms i := by
          intro hc'
          rcases hc with hc | ⟨kind, bus, m, rfl, rfl⟩
          · exact List.mem_filterMap.mpr ⟨c, hc, by rw [if_pos hci, hc']⟩
          · cases hc'
        rcases hserves.room e hroom with hc' | ⟨b, hb, hsupplies⟩
        · exact .inl (hold hc')
        · rcases from_of_supplies (ho.call ha hc) hsupplies with hc' | ⟨channel, hfrom⟩
          · exact .inl (hold hc')
          · exact .inr ⟨channel, b, hci ▸ hb, hfrom⟩
  · cases hroom

/-- The worker of a bus leaves the callers alone. -/
theorem calls_perform_of_touches (ha : a.touches i = true) : (s.perform a).calls = s.calls := by
  cases a with
  | transmitBegin | transmitEnd | finish | stop => rfl
  | begin | resume | abandon | receive | relink | submitFromHost | notify | dispatch | sweep
    | advance => cases ha

/-- **An action keeps the numbers free with which requests wait**, while they are different. -/
theorem LeavesFree.perform (h : s.LeavesFree) (hs : s.IsNumbered) (ho : s.Orderly)
    (hdiffer : s.NumbersDiffer) (ha : a.IsOrderly) : (s.perform a).LeavesFree where
  buses := by
    intro i c hc
    obtain ⟨b, hb, hchanges⟩ := exists_bus_before_perform hc
    refine (h.buses i b hb).changes (hs.buses i b hb) ?_ ?_ hchanges
    · intro l hwithin e he
      exact h.frees_of_supplied hs ho ha hb hwithin he
    · intro e rest hitems hrequest f hf hrequest'
      exact hdiffer.ne hb hitems hrequest (.inl hf) hrequest'
  rooms := by
    intro i c hc e he
    obtain ⟨b, hb, hchanges⟩ := exists_bus_before_perform hc
    rcases hchanges.within_or_stages with hwithin | ⟨f, rest, hidle, hitems, hrequest, rfl⟩
    · rcases ho.rooms_perform ha he with hroom | ⟨channel, b', hb', hfrom⟩
      · exact (h.rooms i b hb e hroom).within hwithin
      · obtain rfl : b = b' := Option.some.inj (hb.symm.trans hb')
        have hfree := (h.buses i b hb).hasFree (hs.buses i b hb).tidy
        exact (Bus.Frees.of_from hfree hfrom).within hwithin
    · -- A request is recorded by the worker, and the callers have not moved.
      have htouches : a.touches i = true := by
        rw [← Bool.not_eq_false]
        intro hfalse
        obtain ⟨c, hc', hgrows⟩ := s.perform_grows hb hfalse
        obtain rfl := Option.some.inj (hc.symm.trans hc')
        have hhand := hgrows.inHand
        rw [hidle] at hhand
        cases hhand
      have hroom : e ∈ s.rooms i := by
        rw [Scheduler.rooms, calls_perform_of_touches htouches] at he
        exact he
      have hhead : f ∈ b.outbound.items := by
        rw [hitems]
        exact List.mem_cons_self
      refine Bus.frees_staging ((hs.buses i b hb).queued f hhead) (hs.of_rooms hroom)
        (h.rooms i b hb e hroom) hrequest ?_
      exact hdiffer.ne hb hitems hrequest (.inr hroom)

/-! ### Runs -/

variable {setup : Setup} {stack : Stack} {as : List Action}

/-- A stack that has been built has no requests. -/
theorem isNumbered_atRest (hbuild : setup.build = .ok stack) : (atRest stack).IsNumbered where
  buses := by
    intro i b hb
    obtain ⟨config, link, rfl⟩ := Setup.exists_new_of_build hbuild hb
    exact .new config link stack.timing
  calls := by
    intro c hc
    cases hc

/-- At rest nobody waits under a number in flight. -/
theorem leavesFree_atRest (hbuild : setup.build = .ok stack)
    (hcapacity : max setup.timing.ledgerCapacity 1 < 63) : (atRest stack).LeavesFree where
  buses := by
    intro i b hb
    have htiming : stack.timing = setup.timing := by rw [Setup.eq_of_build hbuild]
    obtain ⟨config, link, rfl⟩ := Setup.exists_new_of_build hbuild hb
    exact .new config link (htiming ▸ hcapacity)
  rooms := by
    intro i b _ e he
    cases he

/-- The requests of a run are numbered where none is recorded under a pending number. -/
theorem isNumbered_after (hbuild : setup.build = .ok stack) (htraffic : ∀ a ∈ as, a.IsTraffic)
    (hrecords : ∀ p a, p ++ [a] <+: as →
      ¬((atRest stack).after p).RecordsPending ((atRest stack).after (p ++ [a]))) :
    ((atRest stack).after as).IsNumbered := by
  induction as using List.reverseRecOn with
  | nil => exact isNumbered_atRest hbuild
  | append_singleton p a ih =>
      have hp : p <+: p ++ [a] := List.prefix_append p [a]
      have hlast := hrecords p a (List.prefix_refl _)
      rw [after_concat] at hlast ⊢
      refine (ih ?_ ?_).perform (htraffic a (by simp)) hlast
      · intro b hb
        exact htraffic b (hp.subset hb)
      · intro q b hq
        exact hrecords q b (hq.trans hp)

/-- The requests of a run are numbered, and wait under free numbers, while these are different. -/
theorem leavesFree_after (hbuild : setup.build = .ok stack)
    (hcapacity : max setup.timing.ledgerCapacity 1 < 63) (horderly : ∀ a ∈ as, a.IsOrderly)
    (hdiffer : ∀ p, p <+: as → ((atRest stack).after p).NumbersDiffer) :
    ((atRest stack).after as).IsNumbered ∧ ((atRest stack).after as).Orderly ∧
      ((atRest stack).after as).LeavesFree := by
  induction as using List.reverseRecOn with
  | nil =>
      refine ⟨isNumbered_atRest hbuild, ?_, leavesFree_atRest hbuild hcapacity⟩
      intro c hc
      cases hc
  | append_singleton p a ih =>
      have hp : p <+: p ++ [a] := List.prefix_append p [a]
      have ha : a.IsOrderly := horderly a (by simp)
      obtain ⟨hnumbered, hanswers, hfree⟩ := ih (fun b hb => horderly b (hp.subset hb))
        fun q hq => hdiffer q (hq.trans hp)
      rw [after_concat]
      exact ⟨hnumbered.perform ha.isTraffic (hfree.not_recordsPending hnumbered),
        hanswers.perform ha, hfree.perform hnumbered hanswers (hdiffer p hp) ha⟩

/-- **When the numbers in flight are those of the pending requests.** Through a run of senders,
readers and workers the ledgers are exact just where no request is taken in hand under the number of
a pending one. Where only requests are answered that is so while the requests that wait on a bus
have different numbers, whatever the number of retries, the writes that fail and the answers that
arrive. -/
theorem ledgers_exact_iff (hbuild : setup.build = .ok stack)
    (hsize : max setup.timing.ledgerCapacity 1 + max setup.timing.transmitLength 1 ≤ 60)
    (htraffic : ∀ a ∈ as, a.IsTraffic) :
    ((∀ p, p <+: as → ((atRest stack).after p).LedgersExact) ↔
        ∀ p a, p ++ [a] <+: as →
          ¬((atRest stack).after p).RecordsPending ((atRest stack).after (p ++ [a]))) ∧
      ((∀ a ∈ as, a.IsOrderly) → (∀ p, p <+: as → ((atRest stack).after p).NumbersDiffer) →
        ∀ p, p <+: as → ((atRest stack).after p).LedgersExact) := by
  refine ⟨⟨?_, ?_⟩, ?_⟩
  · intro hexact p a hp hrecords
    have hlast := hexact (p ++ [a]) hp
    rw [after_concat] at hrecords hlast
    exact not_ledgersExact_of_recordsPending hrecords hlast
  · intro hrecords p hp
    refine (isNumbered_after hbuild ?_ ?_).ledgersExact
    · intro a ha
      exact htraffic a (hp.subset ha)
    · intro q a hq
      exact hrecords q a (hq.trans hp)
  · intro horderly hdiffer p hp
    refine (leavesFree_after hbuild (by omega) ?_ ?_).1.ledgersExact
    · intro a ha
      exact horderly a (hp.subset ha)
    · intro q hq
      exact hdiffer q (hq.trans hp)

/-! ### A number that comes round -/

/-- Eight requests are queued behind one whose write then fails, and are written. -/
def overtakingRound : List Action :=
  List.replicate 8 (.begin .sendRequest 0 { netFn := 0x06, cmd := 0x01 }) ++
    .relink 0 (bmcRow.link.fail (.next 1)) ::
      (List.replicate 9 [Action.transmitBegin 0, .transmitEnd 0]).flatten

/-- A request that fails while all numbers are drawn once, and is then written. -/
def overtakenRun : List Action :=
  .begin .sendRequest 0 { netFn := 0x06, cmd := 0x01 } ::
    (List.replicate 8 overtakingRound).flatten ++ [.transmitBegin 0, .transmitEnd 0]

/-- The stack of one bus on which a write is tried again twenty times. -/
def patientStack : Scheduler := atRest (bmcStack { maxRetries := 20 } .memory)

/-- The run is orderly traffic, with nothing in it but requests. -/
theorem isOrderly_overtakenRun : ∀ a ∈ overtakenRun, a.IsOrderly := by
  have hround : ∀ a ∈ overtakingRound, a.IsOrderly := by
    simp [overtakingRound, Action.IsOrderly]
  intro a ha
  rcases List.mem_append.mp ha with ha | ha
  · rcases List.mem_cons.mp ha with rfl | ha
    · simp [Action.IsOrderly]
    · obtain ⟨as, has, ha⟩ := List.mem_flatten.mp ha
      rw [List.eq_of_mem_replicate has] at ha
      exact hround a ha
  · rcases List.mem_cons.mp ha with rfl | ha
    · trivial
    · obtain rfl := List.mem_singleton.mp ha
      trivial

/-- At its end the number of the request is that of the last of the others, too. -/
theorem shared_after_overtakenRun :
    ((patientStack.after overtakenRun).stack.ledger 0).map
        (fun l => l.entries.countP fun m => m.seqTarget = 1) = some 2 := by
  decide +kernel

/-- **After this run a ledger is not exact**: while a request was tried again and again its number
came round, and two requests are pending under it. -/
theorem not_ledgersExact_overtakenRun : ¬(patientStack.after overtakenRun).LedgersExact := by
  intro hexact
  obtain ⟨l, hl, htwo⟩ := Option.map_eq_some_iff.mp shared_after_overtakenRun
  have hone : (l.entries.map Message.seqTarget).count 1 ≤ 1 :=
    List.nodup_iff_count_le_one.mp (hexact 0 l hl).1 1
  rw [List.count, List.countP_map] at hone
  have hcongr : l.entries.countP ((fun b => b == 1) ∘ Message.seqTarget) =
      l.entries.countP fun m => m.seqTarget = 1 := List.countP_congr fun m _ => by simp
  omega

/-- In this run a request is taken in hand under the number of a pending one. -/
theorem exists_recordsPending_overtakenRun :
    ∃ p a, p ++ [a] <+: overtakenRun ∧
      (patientStack.after p).RecordsPending (patientStack.after (p ++ [a])) := by
  have hiff := (ledgers_exact_iff (build_bmcStack { maxRetries := 20 } .memory) (by decide)
    fun a ha => (isOrderly_overtakenRun a ha).isTraffic).1
  by_contra hnone
  refine not_ledgersExact_overtakenRun (hiff.mpr ?_ overtakenRun (List.prefix_refl _))
  intro p a hp hrecords
  exact hnone ⟨p, a, hp, hrecords⟩

/-- **Two pending requests share a number** on a bus of the default sizes. -/
theorem number_shared_after_overtaking :
    (max Ledger.defaultCapacity 1 + max ({} : Timing).transmitLength 1 ≤ 60) ∧
      (∀ a ∈ overtakenRun, a.IsOrderly) ∧
      ((patientStack.after overtakenRun).stack.ledger 0).map
        (fun l => l.entries.countP fun m => m.seqTarget = 1) = some 2 ∧
      ¬(patientStack.after overtakenRun).LedgersExact :=
  ⟨by decide, isOrderly_overtakenRun, shared_after_overtakenRun, not_ledgersExact_overtakenRun⟩

end Scheduler

end ManagementBus
