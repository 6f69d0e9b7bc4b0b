import ManagementBus.Proofs.Arriving

/-!
# What becomes of the envelopes of a bus

A `Manifest` is the account of one bus: which envelopes its queue has accepted, and which of these
wait, are in hand, or have reached the peer. It names an envelope by its number in the order of
acceptance, so that equal envelopes are told apart, and it is read off the states before and after
each action: what has come to the end of the queue, whether the worker has taken or finished an
envelope, and what has arrived at the peer.

A write that fails puts its envelope back behind the others, so the order is that of acceptance only
as long as no write has failed. What holds in every run is that an envelope is in one place at a
time; so what has been delivered is not queued again.

The manifest is about the bus and not only about itself: its failures are the writes that the link
has refused, and what it has delivered is what has arrived at the peer.

## Main results

* `Manifest.tracks_step`, `Manifest.tracks_along`: every action keeps the account right.
* `Manifest.failures_along`, `Manifest.delivered_along`: failures and deliveries are those at the
  link.
* `transmit_path_in_order`: on a bus that has been built nothing is delivered twice, and without
  failures nothing is lost or overtaken.
-/

namespace ManagementBus

open EnvelopeProperty

namespace Envelope

/-- The envelope as the worker has it in hand: a request is staged under its own number. -/
def prepared (e : Envelope) : Envelope := if e.msg.isResponse then e else e.staged

/-- The envelope may have been tried since, and a request has been staged. -/
def CopyOf (e f : Envelope) : Prop := e.msg = { f.msg with seqTarget := e.msg.seqTarget }

/-- What has arrived at a peer is the frame of an envelope, and the peer has that frame when it has
moved the address back to its place. -/
def Reaches (e : Envelope) (raw : List UInt8) : Prop :=
  ∃ frame, Frame.encode e.msg = .ok frame ∧ raw = Frame.delivered e.msg.destAddr frame ∧
    Frame.normalizeInbound raw = .ok frame

variable {e f : Envelope} {raw : List UInt8} {b : Bus}

/-- An envelope is a copy of itself. -/
theorem CopyOf.refl (e : Envelope) : e.CopyOf e := rfl

/-- A request that is staged is still a copy; it has its number now. -/
theorem CopyOf.staged (h : e.CopyOf f) : e.staged.CopyOf f := by
  rw [CopyOf] at h ⊢
  rw [Envelope.staged, h]

/-- What is in hand is a copy of what has been taken. -/
theorem CopyOf.prepared (h : e.CopyOf f) : e.prepared.CopyOf f := by
  rw [Envelope.prepared]
  split
  · exact h
  · exact h.staged

/-- What goes back to the queue is a copy, tried once more. -/
theorem CopyOf.failed (h : e.CopyOf f) : e.failed.CopyOf f := h

/-- A response that goes to the other end of the bus goes there when it is in hand. -/
theorem addressed_eq (h : e.msg.destAddr = b.config.targetAddr) : e.addressed b = e := by
  rw [addressed, ← h]

/-- The frame of an envelope is that of a copy. -/
theorem CopyOf.reaches (h : e.CopyOf f) (hraw : e.Reaches raw) : f.Reaches raw := by
  obtain ⟨frame, hframe, rfl, hback⟩ := hraw
  rw [CopyOf] at h
  rw [h] at hframe hback ⊢
  exact ⟨frame, hframe, rfl, hback⟩

end Envelope

/-- What has become of the envelopes of a bus. -/
structure Manifest where
  /-- The envelopes that the queue has accepted, as they were then, in order. -/
  accepted : List Envelope := []
  /-- The numbers of those that wait, oldest first. -/
  waiting : List Nat := []
  /-- The number of the one whose write has begun. -/
  inHand : Option Nat := none
  /-- The numbers of those that have been written, in order, each with what has arrived at the
  peer. -/
  delivered : List (Nat × List UInt8) := []
  /-- The number of writes that have failed. -/
  failures : Nat := 0
deriving DecidableEq

namespace Manifest

/-- Some envelopes have come to the end of the queue. -/
def accept (x : Manifest) (es : List Envelope) : Manifest :=
  { x with
    accepted := x.accepted ++ es
    waiting := x.waiting ++ List.range' x.accepted.length es.length }

/-- The oldest envelope has left the queue; it is in hand, or it has been dropped. -/
def take (x : Manifest) (held : Bool) : Manifest :=
  { x with waiting := x.waiting.tail, inHand := if held then x.waiting.head? else none }

/-- The envelope in hand has been written, or its write has failed. -/
def finish (x : Manifest) (arrived : List (List UInt8)) : Manifest :=
  if arrived = [] then { x with inHand := none, failures := x.failures + 1 }
  else
    { x with
      inHand := none
      delivered := x.delivered ++ arrived.flatMap fun raw => x.inHand.toList.map fun n => (n, raw) }

/-- An envelope is back at the end of the queue. -/
def putBack (x : Manifest) (n : Option Nat) : Manifest :=
  { x with waiting := x.waiting ++ n.toList }

/-- The manifest of a bus after an action between two states. -/
def step (x : Manifest) (i : Nat) (s : Stack) (a : Action) (t : Stack) : Manifest :=
  match s.takes? i a, s.ends? i a with
  | some _, _ => x.take (t.buses[i]?.any fun b => b.inHand.isSome)
  | none, some e =>
    if s.queuedOn t i = [e.failed] then (x.finish (s.deliveredOn t i)).putBack x.inHand
    else (x.finish (s.deliveredOn t i)).accept (s.queuedOn t i)
  | none, none => x.accept (s.queuedOn t i)

/-- The manifest after a run. -/
def along (x : Manifest) (i : Nat) (s : Scheduler) : List Action → Manifest
  | [] => x
  | a :: as => (x.step i s.stack a (s.perform a).stack).along i (s.perform a) as

/-- The accepted envelope with a number is the one of which another is a copy. -/
def Names (x : Manifest) (n : Nat) (e : Envelope) : Prop :=
  ∃ f, x.accepted[n]? = some f ∧ e.CopyOf f

/-- The accepted envelopes are, in order, those whose frames have reached the peer, the one in hand,
and those that wait. -/
def InOrder (x : Manifest) (b : Bus) : Prop :=
  ∃ (written : List Envelope) (held : Option Envelope),
    x.accepted = written ++ held.toList ++ b.outbound.items ∧
      b.inHand = held.map Envelope.prepared ∧
      List.Forall₂ Envelope.Reaches written (x.delivered.map Prod.snd)

/-- A manifest agrees with a bus. -/
structure Tracks (b : Bus) (x : Manifest) : Prop where
  issued : ∀ e ∈ x.accepted, e.retries = 0 ∧ e.msg.destAddr = b.config.targetAddr
  places : (x.delivered.map Prod.fst ++ x.inHand.toList ++ x.waiting).Nodup
  waiting : List.Forall₂ x.Names x.waiting b.outbound.items
  inHand : List.Forall₂ x.Names x.inHand.toList b.inHand.toList
  delivered : ∀ p ∈ x.delivered, ∃ e, x.accepted[p.1]? = some e ∧ e.Reaches p.2
  inOrder : x.failures = 0 → x.InOrder b

variable {b c : Bus} {x : Manifest} {e f : Envelope} {n : Nat} {rest added : List Envelope}

/-! ### What the end of a write leaves -/

/-- The end of a write accepts nothing. -/
theorem accepted_finish (x : Manifest) (arrived : List (List UInt8)) :
    (x.finish arrived).accepted = x.accepted := by
  rw [finish]
  split
  · rfl
  · rfl

/-- The end of a write does not move anything in the queue. -/
theorem waiting_finish (x : Manifest) (arrived : List (List UInt8)) :
    (x.finish arrived).waiting = x.waiting := by
  rw [finish]
  split
  · rfl
  · rfl

/-- After the end of a write nothing is in hand. -/
theorem inHand_finish (x : Manifest) (arrived : List (List UInt8)) :
    (x.finish arrived).inHand = none := by
  rw [finish]
  split
  · rfl
  · rfl

/-! ### Numbers beside envelopes -/

section Beside

variable {P : Nat → Envelope → Prop}

/-- What a number has from the envelope that it stands beside, all the numbers have. -/
theorem forall_mem_of_beside {p : Nat → Prop} {ns : List Nat} {es : List Envelope}
    (h : List.Forall₂ P ns es) (hp : ∀ n e, P n e → p n) : ∀ n ∈ ns, p n :=
  ((List.forall₂_and_left ns es).mp (h.imp fun n e hn => ⟨hp n e hn, hn⟩)).1

/-- The envelope in hand has a number. -/
theorem exists_held (h : List.Forall₂ P x.inHand.toList b.inHand.toList)
    (hhand : b.inHand = some e) : ∃ n, P n e ∧ x.inHand = some n := by
  rw [hhand, Option.toList_some, List.forall₂_cons_right_iff] at h
  obtain ⟨n, ns, hn, hns, hxs⟩ := h
  rw [List.forall₂_nil_right_iff] at hns
  subst hns
  exact ⟨n, hn, by simpa using hxs⟩

/-- Where no envelope is in hand, no number is. -/
theorem inHand_eq_none (h : List.Forall₂ P x.inHand.toList b.inHand.toList)
    (hidle : b.inHand = none) : x.inHand = none := by
  rw [hidle, Option.toList_none, List.forall₂_nil_right_iff] at h
  simpa using h

end Beside

/-! ### Names -/

/-- A number that names an envelope names its copies. -/
theorem Names.copy (h : x.Names n e) (hcopy : ∀ g, e.CopyOf g → f.CopyOf g) : x.Names n f := by
  obtain ⟨g, hg, he⟩ := h
  exact ⟨g, hg, hcopy g he⟩

/-- What a bus has accepted goes to its other end. -/
theorem Tracks.destAddr_eq (h : Tracks b x) (hn : x.Names n e) :
    e.msg.destAddr = b.config.targetAddr := by
  obtain ⟨g, hg, hcopy⟩ := hn
  rw [Envelope.CopyOf] at hcopy
  rw [hcopy]
  exact (h.issued g (List.mem_of_getElem? hg)).2

/-- An accepted envelope keeps its number. -/
theorem Names.accept (h : x.Names n e) (es : List Envelope) : (x.accept es).Names n e := by
  obtain ⟨g, hg, he⟩ := h
  obtain ⟨hlt, -⟩ := List.getElem?_eq_some_iff.mp hg
  exact ⟨g, (List.getElem?_append_left hlt).trans hg, he⟩

/-- The envelopes that have just been accepted have the next numbers. -/
theorem names_range' (x : Manifest) (es : List Envelope) :
    List.Forall₂ (x.accept es).Names (List.range' x.accepted.length es.length) es := by
  refine List.forall₂_iff_get.mpr ⟨List.length_range', ?_⟩
  intro k hk hk'
  refine ⟨es.get ⟨k, hk'⟩, ?_, .refl _⟩
  simp [Manifest.accept, List.getElem?_append_right (Nat.le_add_right _ k)]

/-- A number that names anything has been given. -/
theorem Names.lt_length (h : x.Names n e) : n < x.accepted.length := by
  obtain ⟨g, hg, -⟩ := h
  exact (List.getElem?_eq_some_iff.mp hg).1

/-- Every number in use is that of an accepted envelope. -/
theorem Tracks.lt_length (h : Tracks b x)
    (hn : n ∈ x.delivered.map Prod.fst ++ x.inHand.toList ++ x.waiting) :
    n < x.accepted.length := by
  rcases List.mem_append.mp hn with hn | hn
  · rcases List.mem_append.mp hn with hn | hn
    · obtain ⟨p, hp, rfl⟩ := List.mem_map.mp hn
      obtain ⟨e, he, -⟩ := h.delivered p hp
      exact (List.getElem?_eq_some_iff.mp he).1
    · exact forall_mem_of_beside h.inHand (fun _ _ hnames => hnames.lt_length) n hn
  · exact forall_mem_of_beside h.waiting (fun _ _ hnames => hnames.lt_length) n hn

/-! ### One action on the bus -/

/-- Envelopes that the bus issues are accepted. -/
theorem Tracks.accept (h : Tracks b x) (hconfig : c.config = b.config)
    (hhand : c.inHand = b.inHand) (hitems : c.outbound.items = b.outbound.items ++ added)
    (hissued : ∀ e ∈ added, e.retries = 0 ∧ e.msg.destAddr = b.config.targetAddr) :
    Tracks c (x.accept added) where
  issued := by
    intro e he
    rw [hconfig]
    rcases List.mem_append.mp he with he | he
    · exact h.issued e he
    · exact hissued e he
  places := by
    have hnew : ∀ n ∈ x.delivered.map Prod.fst ++ x.inHand.toList ++ x.waiting,
        ∀ k ∈ List.range' x.accepted.length added.length, n ≠ k := by
      intro n hn k hk
      have hlt := h.lt_length hn
      obtain ⟨i, -, rfl⟩ := List.mem_range'.mp hk
      omega
    have hplaces := List.nodup_append.mpr ⟨h.places, List.nodup_range' 1, hnew⟩
    rw [List.append_assoc] at hplaces
    exact hplaces
  waiting := by
    rw [hitems]
    exact List.rel_append (h.waiting.imp fun _ _ hnames => hnames.accept added)
      (x.names_range' added)
  inHand := by
    rw [hhand]
    exact h.inHand.imp fun _ _ hnames => hnames.accept added
  delivered := by
    intro p hp
    obtain ⟨e, he, hreaches⟩ := h.delivered p hp
    obtain ⟨hlt, -⟩ := List.getElem?_eq_some_iff.mp he
    exact ⟨e, (List.getElem?_append_left hlt).trans he, hreaches⟩
  inOrder := by
    intro hfailures
    obtain ⟨written, held, haccepted, hheld, hreach⟩ := h.inOrder hfailures
    refine ⟨written, held, ?_, hhand.trans hheld, hreach⟩
    simp only [Manifest.accept, haccepted, hitems, List.append_assoc]

/-- The oldest envelope leaves the queue. Without failures it has not been tried, so that it is in
hand and not dropped. -/
theorem Tracks.take (h : Tracks b x) (hconfig : c.config = b.config) (hidle : b.inHand = none)
    (hitems : b.outbound.items = e :: rest) (hrest : c.outbound.items = rest)
    (hhand : c.inHand = none ∧ e.retries ≠ 0 ∨
      (e.msg.destAddr = b.config.targetAddr → c.inHand = some e.prepared)) :
    Tracks c (x.take c.inHand.isSome) := by
  have hwaiting := h.waiting
  rw [hitems, List.forall₂_cons_right_iff] at hwaiting
  obtain ⟨n, ns, hnames, hns, hxs⟩ := hwaiting
  have hxhand := inHand_eq_none h.inHand hidle
  have hplaces := h.places
  rw [hxhand, hxs] at hplaces
  have hhand' : c.inHand = none ∧ e.retries ≠ 0 ∨ c.inHand = some e.prepared :=
    hhand.imp id fun hprepared => hprepared (h.destAddr_eq hnames)
  refine
    { issued := by rw [hconfig]; exact h.issued
      places := ?_
      waiting := by rw [hrest, Manifest.take, hxs]; exact hns
      inHand := ?_
      delivered := h.delivered
      inOrder := ?_ }
  · simp only [Manifest.take, hxs, List.tail_cons, List.head?_cons]
    split
    · simpa using hplaces
    · refine List.Nodup.sublist ?_ hplaces
      simp
  · rcases hhand' with ⟨hnone, -⟩ | hprepared
    · rw [hnone]
      exact .nil
    · rw [hprepared, Manifest.take, hxs]
      exact .cons (hnames.copy fun _ hcopy => hcopy.prepared) .nil
  · intro hfailures
    obtain ⟨written, held, haccepted, hheld, hreach⟩ := h.inOrder hfailures
    obtain rfl : held = none := by simpa [hidle] using hheld.symm
    rcases hhand' with ⟨-, htried⟩ | hprepared
    · exact absurd (h.issued e (by simp [haccepted, hitems])).1 htried
    · refine ⟨written, some e, ?_, hprepared, hreach⟩
      have haccepted' : (x.take c.inHand.isSome).accepted = x.accepted := rfl
      rw [haccepted', haccepted, hitems, hrest]
      simp

/-- The envelope in hand has reached the peer. -/
theorem Tracks.deliver {raw : List UInt8} (h : Tracks b x) (hconfig : c.config = b.config)
    (hhand : b.inHand = some e) (hidle : c.inHand = none)
    (hitems : c.outbound.items = b.outbound.items)
    (hreaches : e.msg.destAddr = b.config.targetAddr → e.Reaches raw) :
    Tracks c (x.finish [raw]) := by
  obtain ⟨n, hnames, hxhand⟩ := exists_held h.inHand hhand
  have hdest := h.destAddr_eq hnames
  obtain ⟨g, hg, hcopy⟩ := hnames
  have hraw := hcopy.reaches (hreaches hdest)
  have hfinish : x.finish [raw] =
      { x with inHand := none, delivered := x.delivered ++ [(n, raw)] } := by
    simp [finish, hxhand]
  rw [hfinish]
  refine
    { issued := by rw [hconfig]; exact h.issued
      places := ?_
      waiting := by rw [hitems]; exact h.waiting
      inHand := by rw [hidle]; exact .nil
      delivered := ?_
      inOrder := ?_ }
  · have hplaces := h.places
    rw [hxhand] at hplaces
    simpa using hplaces
  · intro p hp
    rcases List.mem_append.mp hp with hp | hp
    · exact h.delivered p hp
    · obtain rfl := List.mem_singleton.mp hp
      exact ⟨g, hg, hraw⟩
  · intro hfailures
    obtain ⟨written, held, haccepted, hheld, hreach⟩ := h.inOrder hfailures
    rw [hhand] at hheld
    obtain ⟨k, rfl, hk⟩ := Option.map_eq_some_iff.mp hheld.symm
    refine ⟨written ++ [k], none, ?_, hidle, ?_⟩
    · simp [haccepted, hitems]
    · have hkcopy : e.CopyOf k := hk ▸ (Envelope.CopyOf.refl k).prepared
      rw [List.map_append]
      exact List.rel_append hreach (.cons (hkcopy.reaches (hreaches hdest)) .nil)

/-- The write of the envelope in hand has failed, and the envelope is in no place for a while. -/
theorem Tracks.fail (h : Tracks b x) (hconfig : c.config = b.config) (hidle : c.inHand = none)
    (hitems : c.outbound.items = b.outbound.items) : Tracks c (x.finish []) where
  issued := by rw [hconfig]; exact h.issued
  places := by
    refine List.Nodup.sublist ?_ h.places
    simp [finish]
  waiting := by rw [hitems]; exact h.waiting
  inHand := by rw [hidle]; exact .nil
  delivered := h.delivered
  inOrder := by
    intro hfailures
    simp [finish] at hfailures

/-- The write of the envelope in hand has failed, and the envelope waits again. -/
theorem Tracks.retry (h : Tracks b x) (hconfig : c.config = b.config) (hhand : b.inHand = some e)
    (hidle : c.inHand = none) (hitems : c.outbound.items = b.outbound.items ++ [e.failed]) :
    Tracks c ((x.finish []).putBack x.inHand) := by
  obtain ⟨n, hnames, hxhand⟩ := exists_held h.inHand hhand
  refine
    { issued := by rw [hconfig]; exact h.issued
      places := ?_
      waiting := ?_
      inHand := by rw [hidle]; exact .nil
      delivered := h.delivered
      inOrder := ?_ }
  · have hperm : (x.delivered.map Prod.fst ++ x.inHand.toList ++ x.waiting).Perm
        (x.delivered.map Prod.fst ++ (x.waiting ++ x.inHand.toList)) := by
      rw [List.append_assoc]
      exact List.perm_append_comm.append_left _
    have hplaces := hperm.nodup h.places
    simpa [finish, putBack] using hplaces
  · rw [hitems, hxhand]
    exact List.rel_append h.waiting (.cons (hnames.copy fun _ hcopy => hcopy.failed) .nil)
  · intro hfailures
    simp [finish, putBack] at hfailures

end Manifest

/-! ### What has reached the peer -/

namespace Bus

variable {e : Envelope}

/-- What reaches the peer is the frame of the envelope. -/
theorem reaches_delivered (haddr : e.msg.destAddr ≤ 0x7F) :
    e.Reaches (Frame.delivered e.msg.destAddr
      (Frame.layout e.msg (Frame.headerSum e.msg) (Frame.messageSum e.msg))) := by
  have hwired : Frame.wired e.msg = e.msg := by
    have hseven : ∀ a : UInt8, a ≤ 0x7F → a &&& 0x7F = a :=
      Frame.forall_byte (p := fun a => a ≤ 0x7F → a &&& 0x7F = a) (by decide)
    rw [Frame.wired, hseven _ haddr]
  refine ⟨_, Frame.encode_eq e.msg, rfl, ?_⟩
  rw [Frame.normalizeInbound_delivered, hwired]

end Bus

/-! ### Every action -/

namespace Manifest

open Stack

variable {s : Scheduler} {a : Action} {as : List Action} {i : Nat} {b c : Bus} {x : Manifest}
  {e f : Envelope}

/-- **The worker takes an envelope.** -/
theorem tracks_takes (h : Tracks b x) (hb : s.stack.buses[i]? = some b)
    (htakes : s.stack.takes? i a = some e) :
    ∃ c, (s.perform a).stack.buses[i]? = some c ∧ c.config = b.config ∧
      Tracks c (x.take c.inHand.isSome) := by
  obtain ⟨b', rest, hb', hidle, hitems, hcases⟩ := Scheduler.takes_cases htakes
  obtain rfl : b = b' := Option.some.inj (hb.symm.trans hb')
  rcases hcases with ⟨-, hretries, ht⟩ | ⟨hresponse, -, ht⟩ | ⟨hrequest, ht⟩
  · refine ⟨_, ht.getElem?_self hb, rfl, h.take rfl hidle hitems rfl (.inl ⟨hidle, ?_⟩)⟩
    intro hzero
    rw [hzero] at hretries
    exact absurd hretries (UInt32.not_lt_zero)
  · refine ⟨_, ht.getElem?_self hb, rfl, h.take rfl hidle hitems rfl (.inr ?_)⟩
    intro haddr
    rw [Bus.holding, Envelope.addressed_eq haddr, Envelope.prepared, if_pos hresponse]
  · refine ⟨_, ht.getElem?_self hb, rfl, h.take rfl hidle hitems rfl (.inr ?_)⟩
    intro _
    rw [Bus.staging, Envelope.prepared, if_neg (by simp [hrequest])]

/-- The manifest after the end of a write. -/
theorem step_of_ends {u t : Stack} (htakes : u.takes? i a = none) (hends : u.ends? i a = some e) :
    x.step i u a t =
      if u.queuedOn t i = [e.failed] then (x.finish (u.deliveredOn t i)).putBack x.inHand
      else (x.finish (u.deliveredOn t i)).accept (u.queuedOn t i) := by
  simp only [step, htakes, hends]

/-- What is queued when a request is given up is not that request. -/
theorem ne_failed_of_untried {R : UInt32} (hretries : R < e.failed.retries) (hf : f.retries = 0) :
    f ≠ e.failed := by
  rintro rfl
  rw [hf] at hretries
  exact absurd hretries UInt32.not_lt_zero

/-- What is queued when a request is given up is not that request alone. -/
theorem ne_singleton_of_untried {R : UInt32} {added : List Envelope}
    (hretries : R < e.failed.retries) (hadded : ∀ f ∈ added, f.retries = 0) :
    added ≠ [e.failed] := by
  rintro rfl
  exact ne_failed_of_untried hretries (hadded e.failed (List.mem_singleton_self _)) rfl

/-- **The worker finishes an envelope.** -/
theorem tracks_ends (h : Tracks b x) (hb : s.stack.buses[i]? = some b)
    (haddr : b.config.targetAddr ≤ 0x7F) (htakes : s.stack.takes? i a = none)
    (hends : s.stack.ends? i a = some e) :
    ∃ c, (s.perform a).stack.buses[i]? = some c ∧ c.config = b.config ∧
      Tracks c (x.step i s.stack a (s.perform a).stack) := by
  obtain ⟨b', c, queued, arrived, hb', hhand, hc, hconfig, hidle, -, hqueued, harrived, hend⟩ :=
    Scheduler.exists_ends hends
  obtain rfl : b = b' := Option.some.inj (hb.symm.trans hb')
  refine ⟨c, hc, hconfig, ?_⟩
  rw [step_of_ends htakes hends, hqueued, harrived]
  cases hend with
  | delivered _ houtbound =>
      rw [if_neg (by simp)]
      have hdeliver := h.deliver hconfig hhand hidle (congrArg Queue.items houtbound) fun hdest =>
        Bus.reaches_delivered (hdest ▸ haddr)
      exact hdeliver.accept rfl rfl (List.append_nil _).symm (by simp)
  | putBack _ _ houtbound =>
      rw [if_pos rfl]
      exact h.retry hconfig hhand hidle (congrArg Queue.items houtbound)
  | crowdedOut _ _ _ houtbound =>
      rw [if_neg (by simp)]
      have hfail := h.fail hconfig hidle (congrArg Queue.items houtbound)
      exact hfail.accept rfl rfl (List.append_nil _).symm (by simp)
  | givenUp _ _ hretries houtbound hadded =>
      rw [if_neg (ne_singleton_of_untried hretries fun f hf => (hadded f hf).1)]
      have hfail := h.fail (c := { b with inHand := none }) rfl rfl rfl
      exact hfail.accept hconfig hidle (congrArg Queue.items houtbound) fun f hf =>
        ⟨(hadded f hf).1, (hadded f hf).2.2⟩

/-- **Every action keeps the account of a bus right.** -/
theorem tracks_step (h : Tracks b x) (hs : s.RoomIssued) (hb : s.stack.buses[i]? = some b)
    (haddr : b.config.targetAddr ≤ 0x7F) (a : Action) :
    ∃ c, (s.perform a).stack.buses[i]? = some c ∧ c.config = b.config ∧
      Tracks c (x.step i s.stack a (s.perform a).stack) := by
  cases htakes : s.stack.takes? i a with
  | some e =>
      obtain ⟨c, hc, hconfig, htracks⟩ := tracks_takes h hb htakes
      refine ⟨c, hc, hconfig, ?_⟩
      simp only [step, htakes, hc, Option.any_some]
      exact htracks
  | none =>
      cases hends : s.stack.ends? i a with
      | some e => exact tracks_ends h hb haddr htakes hends
      | none =>
          obtain ⟨c, added, hc, hconfig, hhand, hitems, -, hissued⟩ :=
            Scheduler.exists_added_of_neither hs hb htakes hends
          have hqueued : s.stack.queuedOn (s.perform a).stack i = added :=
            queuedOn_eq (by rw [waitingOn_eq hc, waitingOn_eq hb, hitems])
          refine ⟨c, hc, hconfig, ?_⟩
          simp only [step, htakes, hends, hqueued]
          exact h.accept hconfig hhand hitems hissued

/-- **In every run the account of a bus stays right.** -/
theorem tracks_along (h : Tracks b x) (hs : s.RoomIssued) (hb : s.stack.buses[i]? = some b)
    (haddr : b.config.targetAddr ≤ 0x7F) (as : List Action) :
    ∃ c, (s.after as).stack.buses[i]? = some c ∧ Tracks c (x.along i s as) := by
  induction as generalizing s b x with
  | nil => exact ⟨b, hb, h⟩
  | cons a as ih =>
      obtain ⟨c, hc, hconfig, htracks⟩ := tracks_step h hs hb haddr a
      exact ih htracks (Scheduler.roomIssued_perform hs a) hc (hconfig ▸ haddr)

/-! ### Failures and arrivals at the link -/

/-- Envelopes that come to the queue are no failure. -/
@[simp] theorem failures_accept (x : Manifest) (es : List Envelope) :
    (x.accept es).failures = x.failures := rfl

/-- An envelope that leaves the queue is no failure. -/
@[simp] theorem failures_take (x : Manifest) (held : Bool) :
    (x.take held).failures = x.failures := rfl

/-- A failure is counted when a write comes to its end, not when its envelope is put back. -/
@[simp] theorem failures_putBack (x : Manifest) (n : Option Nat) :
    (x.putBack n).failures = x.failures := rfl

/-- A write that brings nothing to the peer has failed. -/
theorem failures_finish (x : Manifest) (arrived : List (List UInt8)) :
    (x.finish arrived).failures = x.failures + if arrived = [] then 1 else 0 := by
  rw [finish]
  split
  · rfl
  · rfl

/-- **An action adds to the failures of a manifest what the link counts**: one for a write that it
refuses. -/
theorem failures_step (x : Manifest) (s : Scheduler) (a : Action) (i : Nat) :
    (x.step i s.stack a (s.perform a).stack).failures =
      x.failures + if s.stack.writeFails i a then 1 else 0 := by
  cases htakes : s.stack.takes? i a with
  | some e =>
      have hnone := ends?_eq_none_of_takes? htakes
      simp [step, htakes, Scheduler.writeFails_of_none hnone]
  | none =>
      cases hends : s.stack.ends? i a with
      | none => simp [step, htakes, hends, Scheduler.writeFails_of_none hends]
      | some e =>
          obtain ⟨b, c, queued, arrived, hb, -, -, -, -, -, -, harrived, hend⟩ :=
            Scheduler.exists_ends hends
          have hfailures : (x.step i s.stack a (s.perform a).stack).failures =
              (x.finish arrived).failures := by
            rw [step_of_ends htakes hends, harrived]
            split
            · rfl
            · rfl
          rw [hfailures, failures_finish, Scheduler.writeFails_of_ends hb hends]
          cases hend with
          | delivered hdelivers => simp [hdelivers]
          | putBack hfails | crowdedOut hfails | givenUp hfails => simp [hfails]

/-- **The failures of a manifest are the writes that the link has refused**, in every run. -/
theorem failures_along (x : Manifest) (i : Nat) (s : Scheduler) (as : List Action) :
    (x.along i s as).failures = x.failures + s.writesFailed i as := by
  induction as generalizing s x with
  | nil => rfl
  | cons a as ih => rw [along, ih, failures_step, Scheduler.writesFailed, Nat.add_assoc]

/-- Envelopes that come to the queue are not delivered yet. -/
@[simp] theorem delivered_accept (x : Manifest) (es : List Envelope) :
    (x.accept es).delivered = x.delivered := rfl

/-- An envelope that is put back is not delivered. -/
@[simp] theorem delivered_putBack (x : Manifest) (n : Option Nat) :
    (x.putBack n).delivered = x.delivered := rfl

/-- The end of the write of a numbered envelope delivers what has arrived. -/
theorem delivered_finish (hhand : x.inHand = some n) (arrived : List (List UInt8)) :
    (x.finish arrived).delivered.map Prod.snd = x.delivered.map Prod.snd ++ arrived := by
  rw [finish, hhand]
  split
  · next hnil => simp [hnil]
  · simp [List.map_flatMap]

/-- **What an action delivers is what arrives at the peer**, unless the link is changed from
outside. -/
theorem delivered_step (h : Tracks b x) (hb : s.stack.buses[i]? = some b)
    (houtside : ∀ link, a ≠ .relink i link) :
    (x.step i s.stack a (s.perform a).stack).delivered.map Prod.snd =
      x.delivered.map Prod.snd ++ s.stack.deliveredOn (s.perform a).stack i := by
  cases htakes : s.stack.takes? i a with
  | some e =>
      rw [Scheduler.deliveredOn_perform hb houtside, ends?_eq_none_of_takes? htakes]
      simp [step, htakes, take]
  | none =>
      cases hends : s.stack.ends? i a with
      | none =>
          rw [Scheduler.deliveredOn_perform hb houtside, hends]
          simp [step, htakes, hends]
      | some e =>
          obtain ⟨b', -, -, -, hb', hhand, -⟩ := Scheduler.exists_ends hends
          obtain rfl : b = b' := Option.some.inj (hb.symm.trans hb')
          obtain ⟨n, -, hxhand⟩ := exists_held h.inHand hhand
          -- Whether the envelope is put back or given up, the manifest has what has arrived.
          rw [step_of_ends htakes hends]
          split
          · rw [delivered_putBack, delivered_finish hxhand]
          · rw [delivered_accept, delivered_finish hxhand]

/-- **What arrives at the peer in a run is what has been delivered**, in that order, unless the link
is changed from outside. -/
theorem delivered_along (h : Tracks b x) (hs : s.RoomIssued) (hb : s.stack.buses[i]? = some b)
    (haddr : b.config.targetAddr ≤ 0x7F) (houtside : ∀ link, Action.relink i link ∉ as) :
    ∃ arrived, (s.after as).stack.arrivedAt i = s.stack.arrivedAt i ++ arrived ∧
      (x.along i s as).delivered.map Prod.snd = x.delivered.map Prod.snd ++ arrived := by
  induction as generalizing s b x with
  | nil => exact ⟨[], by simp, by simp [along]⟩
  | cons a as ih =>
      have hnow : ∀ link, a ≠ .relink i link := by
        rintro link rfl
        exact houtside link List.mem_cons_self
      obtain ⟨c, hc, hconfig, htracks⟩ := tracks_step h hs hb haddr a
      obtain ⟨arrived, harrived, hdelivered⟩ := ih htracks (Scheduler.roomIssued_perform hs a) hc
        (hconfig ▸ haddr) fun link hmem => houtside link (List.mem_cons_of_mem a hmem)
      refine ⟨s.stack.deliveredOn (s.perform a).stack i ++ arrived, ?_, ?_⟩
      · rw [Scheduler.after_cons, harrived, Scheduler.arrivedAt_append hb hnow, List.append_assoc]
      · rw [along, hdelivered, delivered_step h hb hnow, List.append_assoc]

/-- A bus at rest has no envelopes. -/
theorem tracks_new (config : BusConfig) (link : Link) (timing : Timing) :
    Tracks (Bus.new config link timing) {} where
  issued := by simp
  places := by simp
  waiting := .nil
  inHand := .nil
  delivered := by simp
  inOrder := fun _ => ⟨[], none, rfl, rfl, .nil⟩

/-- A bus that has been built is at rest. -/
theorem tracks_of_build {setup : Setup} {stack : Stack} (hbuild : setup.build = .ok stack)
    (hb : stack.buses[i]? = some b) : Tracks b {} := by
  obtain ⟨config, link, hnew⟩ := Setup.exists_new_of_build hbuild hb
  rw [hnew]
  exact tracks_new config link stack.timing

end Manifest

/-- The account of a bus since the stack was at rest. -/
def Stack.manifest (stack : Stack) (i : Nat) (as : List Action) : Manifest :=
  Manifest.along {} i (Scheduler.atRest stack) as

/-- The failures that a manifest counts are the writes that the link of the bus has refused since.
-/
theorem Stack.failures_manifest (stack : Stack) (i : Nat) (as : List Action) :
    (stack.manifest i as).failures = (Scheduler.atRest stack).writesFailed i as := by
  rw [manifest, Manifest.failures_along]
  exact Nat.zero_add _

/-- What the peer of a bus has been sent, as the manifest has it, is what has arrived there in a run
in which nobody but the stack has to do with the link. -/
theorem Stack.arrivedAt_manifest {setup : Setup} {stack : Stack} (hbuild : setup.build = .ok stack)
    {i : Nat} (hi : i < stack.buses.length) {as : List Action}
    (houtside : ∀ link, Action.relink i link ∉ as) :
    ((Scheduler.atRest stack).after as).stack.arrivedAt i =
      stack.arrivedAt i ++ (stack.manifest i as).delivered.map Prod.snd := by
  have hb : stack.buses[i]? = some stack.buses[i] := List.getElem?_eq_getElem hi
  obtain ⟨arrived, harrived, hdelivered⟩ := Manifest.delivered_along
    (s := Scheduler.atRest stack) (Manifest.tracks_of_build hbuild hb)
    (Scheduler.roomIssued_atRest stack) hb (Setup.targetAddr_le_of_build hbuild hb) houtside
  rw [manifest, hdelivered, harrived]
  rfl

/-- **The transmit path of a bus neither loses nor repeats nor reorders.** After every run of a
stack that has been built, no envelope that a queue has accepted has been delivered twice, nor does
one that has been delivered wait or stand to be written again, and what has arrived at the peer is
the frame of its envelope. As long as no write of the bus has failed, the envelopes accepted are, in
order, those whose frames have arrived, the one in hand, and those in the queue. -/
theorem transmit_path_in_order {setup : Setup} {stack : Stack} (hbuild : setup.build = .ok stack)
    {i : Nat} (hi : i < stack.buses.length) (as : List Action) :
    ∃ b, ((Scheduler.atRest stack).after as).stack.buses[i]? = some b ∧
      ((stack.manifest i as).delivered.map Prod.fst ++ (stack.manifest i as).inHand.toList ++
        (stack.manifest i as).waiting).Nodup ∧
      (∀ n raw, (n, raw) ∈ (stack.manifest i as).delivered →
        ∃ e, (stack.manifest i as).accepted[n]? = some e ∧ e.Reaches raw) ∧
      ((stack.manifest i as).failures = 0 →
        ∃ (written : List Envelope) (held : Option Envelope),
          (stack.manifest i as).accepted = written ++ held.toList ++ b.outbound.items ∧
            b.inHand = held.map Envelope.prepared ∧
            List.Forall₂ Envelope.Reaches written
              ((stack.manifest i as).delivered.map Prod.snd)) := by
  have hb : stack.buses[i]? = some stack.buses[i] := List.getElem?_eq_getElem hi
  obtain ⟨b, hb', h⟩ := Manifest.tracks_along (s := Scheduler.atRest stack)
    (Manifest.tracks_of_build hbuild hb) (Scheduler.roomIssued_atRest stack) hb
    (Setup.targetAddr_le_of_build hbuild hb) as
  exact ⟨b, hb', h.places, fun n raw hmem => h.delivered (n, raw) hmem, h.inOrder⟩

/-- Two requests and a response are queued, the first request is written, and the response is in
hand. -/
def mixedRun : List Action :=
  [.begin .sendRequest 0 { netFn := 0x06, cmd := 0x01 },
    .begin .sendResponse 0 { netFn := 0x2C, cmd := 0x02, seq := 9 },
    .transmitBegin 0, .begin .sendRequest 0 { netFn := 0x06, cmd := 0x03 }, .transmitEnd 0,
    .transmitBegin 0]

/-- In this run the first of three envelopes has arrived, the second one is in hand, and the third
one waits. -/
theorem transmit_path_in_order_mixedRun :
    Setup.build { rows := [bmcRow] } = .ok (bmcStack {} .absent) ∧
      0 < (bmcStack {} .absent).buses.length ∧
      ((bmcStack {} .absent).manifest 0 mixedRun).failures = 0 ∧
      (∃ (b : Bus) (written : List Envelope) (held : Option Envelope),
        ((Scheduler.atRest (bmcStack {} .absent)).after mixedRun).stack.buses[0]? = some b ∧
          ((bmcStack {} .absent).manifest 0 mixedRun).accepted =
            written ++ held.toList ++ b.outbound.items ∧
          b.inHand = held.map Envelope.prepared ∧
          List.Forall₂ Envelope.Reaches written
            (((bmcStack {} .absent).manifest 0 mixedRun).delivered.map Prod.snd)) ∧
      ((bmcStack {} .absent).manifest 0 mixedRun).accepted.map (·.msg.cmd) = [0x01, 0x02, 0x03] ∧
      ((bmcStack {} .absent).manifest 0 mixedRun).delivered =
        [(0, [0x40, 0x18, 0xA8, 0x20, 0x04, 0x01, 0xDB])] ∧
      ((bmcStack {} .absent).manifest 0 mixedRun).inHand = some 1 ∧
      ((bmcStack {} .absent).manifest 0 mixedRun).waiting = [2] := by
  have hfailures : ((bmcStack {} .absent).manifest 0 mixedRun).failures = 0 := by decide +kernel
  obtain ⟨b, hb, -, -, hinOrder⟩ :=
    transmit_path_in_order (build_bmcStack {} .absent) (i := 0) (by decide) mixedRun
  obtain ⟨written, held, haccepted, hhand, hreaches⟩ := hinOrder hfailures
  exact ⟨build_bmcStack {} .absent, by decide, hfailures,
    ⟨b, written, held, hb, haccepted, hhand, hreaches⟩, by decide +kernel, by decide +kernel,
    by decide +kernel, by decide +kernel⟩

end ManagementBus
