import ManagementBus.Proofs.Interleaving
import ManagementBus.Proofs.Pending
import ManagementBus.Proofs.Receiving

/-!
# What other workers and callers do to a bus

The transmit worker of a bus is the only one to take envelopes from its queue. Whatever else
happens, the queue of the bus *grows*: envelopes are added behind the others, the envelope in hand
stays there, and of the pending requests one is answered or some expire. `Bus.Grows` states that of
a bus, and `Bus.Extends` states it where no pending request goes. `Stack.Spares` states of one bus
that not even its link, its locks or its readers are concerned.

## Main results

* `Loses.within`: a ledger that loses entries has no new ones.
* `Bus.Extends.trans`, `Stack.Extends.trans`: growth adds up.
* `Stack.Extends.of_sends`: a stack grows by what is queued.
-/

namespace ManagementBus

/-- What can happen to the pending requests of a bus while nothing is written there. -/
inductive Ledger.Loses (l : Ledger) : Ledger → Prop where
  | nothing : Loses l l
  /-- A request has been answered. -/
  | answered {k : Ledger} (p : Message → Bool) : Loses l k → Loses l (k.extract p).1
  /-- Some have grown too old. -/
  | expired {k : Ledger} (now timeout : UInt32) : Loses l k → Loses l (k.expire now timeout).1

/-! ### Ledgers that hold no more -/

namespace Ledger

variable {j k l : Ledger}

/-- A ledger has no other entries than another one, and no other numbers in flight. -/
structure Within (k l : Ledger) : Prop where
  entries : k.entries.Sublist l.entries
  busy : ∀ n, k.numbers.isBusy n = true → l.numbers.isBusy n = true
  capacity : k.capacity = l.capacity

/-- A ledger holds no more than itself. -/
theorem Within.refl (l : Ledger) : l.Within l := ⟨List.Sublist.refl _, fun _ h => h, rfl⟩

/-- Holding no more is transitive. -/
theorem Within.trans (hjk : j.Within k) (hkl : k.Within l) : j.Within l :=
  ⟨hjk.entries.trans hkl.entries, fun n h => hkl.busy n (hjk.busy n h),
    hjk.capacity.trans hkl.capacity⟩

/-- Whatever a ledger drops, it holds no more afterwards. -/
theorem Drops.within {dropped : List Message} (h : l.Drops k dropped) : k.Within l :=
  ⟨h.kept, fun n hbusy => ((h.busy n).mp hbusy).1, h.capacity⟩

/-- The removal of an entry adds nothing. -/
theorem within_extract (l : Ledger) (p : Message → Bool) : (l.extract p).1.Within l :=
  (l.drops_extract p).within

/-- A sweep adds nothing to a ledger. -/
theorem within_expire (l : Ledger) (now timeout : UInt32) : (l.expire now timeout).1.Within l :=
  (l.drops_expire now timeout).within

/-- The commit of a write adds nothing to a ledger. -/
theorem within_commit (l : Ledger) : l.commit.1.Within l := l.drops_commit.within

/-- **A ledger that loses entries has no new ones**, and no new numbers in flight. -/
theorem Loses.within (h : l.Loses k) : k.Within l := by
  induction h with
  | nothing => exact Within.refl l
  | answered p _ ih => exact (within_extract _ p).trans ih
  | expired now timeout _ ih => exact (within_expire _ now timeout).trans ih

end Ledger

/-! ### Buses that grow -/

namespace Bus

/-- Envelopes with a property have been added to the queue of a bus, and numbers perhaps drawn;
its link, its locks and what waits for its readers are left open. -/
structure Extends (P : EnvelopeProperty) (b c : Bus) : Prop where
  config : c.config = b.config
  inHand : c.inHand = b.inHand
  ledger : ∃ cursor, c.ledger = { b.ledger with numbers := { b.ledger.numbers with cursor } }
  outbound : ∃ added, c.outbound = { b.outbound with items := b.outbound.items ++ added } ∧
    ∀ e ∈ added, P b.ledger.numbers.busy e

/-- A bus has grown: pending requests perhaps have gone, and then it has been extended. -/
def Grows (P : EnvelopeProperty) (b d : Bus) : Prop :=
  ∃ l, b.ledger.Loses l ∧ Extends P { b with ledger := l } d

variable {P Q : EnvelopeProperty} {b c d : Bus}

namespace Extends

/-- A bus to which nothing is added. -/
theorem refl (P : EnvelopeProperty) (b : Bus) : Extends P b b where
  config := rfl
  inHand := rfl
  ledger := ⟨b.ledger.numbers.cursor, rfl⟩
  outbound := ⟨[], by simp, by simp⟩

/-- Numbers may be drawn for what is added, but none becomes busy. -/
theorem busy (h : Extends P b c) : c.ledger.numbers.busy = b.ledger.numbers.busy := by
  obtain ⟨cursor, hledger⟩ := h.ledger
  rw [hledger]

/-- What is pending stays as it is. -/
theorem entries (h : Extends P b c) : c.ledger.entries = b.ledger.entries := by
  obtain ⟨cursor, hledger⟩ := h.ledger
  rw [hledger]

/-- What is added in two steps is added in one after the other. That the property may depend on the
busy numbers does no harm, since these stay the same. -/
theorem trans (hbc : Extends P b c) (hcd : Extends P c d) : Extends P b d := by
  obtain ⟨es, hes, hP⟩ := hbc.outbound
  obtain ⟨fs, hfs, hP'⟩ := hcd.outbound
  obtain ⟨k, hk⟩ := hbc.ledger
  obtain ⟨n, hn⟩ := hcd.ledger
  refine ⟨hcd.config.trans hbc.config, hcd.inHand.trans hbc.inHand, ⟨n, by rw [hn, hk]⟩, es ++ fs,
    ?_, ?_⟩
  · rw [hfs, hes]
    simp
  · intro e he
    rcases List.mem_append.mp he with he | he
    · exact hP e he
    · rw [← hbc.busy]
      exact hP' e he

/-- A property of what is added may be weakened. -/
theorem mono (h : Extends P b c) (hPQ : ∀ busy e, P busy e → Q busy e) : Extends Q b c := by
  obtain ⟨es, hes, hP⟩ := h.outbound
  exact ⟨h.config, h.inHand, h.ledger, es, hes, fun e he => hPQ _ e (hP e he)⟩

/-- Queueing extends a bus; it leaves the link alone besides. -/
theorem of_queues (h : Queues P b c) : Extends P b c := by
  obtain ⟨cursor, added, rfl, hP⟩ := h
  exact ⟨rfl, rfl, ⟨cursor, rfl⟩, added, rfl, hP⟩

/-- A change of the link, of the locks or of what waits for the readers. -/
theorem of_eq (hconfig : c.config = b.config) (hhand : c.inHand = b.inHand)
    (hledger : c.ledger = b.ledger) (houtbound : c.outbound = b.outbound) : Extends P b c := by
  refine ⟨hconfig, hhand, ⟨b.ledger.numbers.cursor, hledger⟩, [], ?_, by simp⟩
  rw [houtbound]
  simp

/-- Where nothing has been added the queue is the same. -/
theorem outbound_eq (h : Extends EnvelopeProperty.Nothing b c) : c.outbound = b.outbound := by
  obtain ⟨added, hadded, hnothing⟩ := h.outbound
  have hnil : added = [] := List.eq_nil_iff_forall_not_mem.mpr hnothing
  rw [hadded, hnil]
  simp

/-- A bus that is extended has grown without losing a request. -/
theorem grows (h : Extends P b c) : Grows P b c :=
  ⟨b.ledger, .nothing, h⟩

end Extends

namespace Grows

/-- A bus that grows keeps its row of the table. -/
theorem config (h : Grows P b c) : c.config = b.config := by
  obtain ⟨l, -, hext⟩ := h
  exact hext.config

/-- A bus that grows keeps its envelope in hand. -/
theorem inHand (h : Grows P b c) : c.inHand = b.inHand := by
  obtain ⟨l, -, hext⟩ := h
  exact hext.inHand

/-- A bus that grows has its envelopes in the same order, and new ones behind them. -/
theorem outbound (h : Grows P b c) :
    ∃ added, c.outbound = { b.outbound with items := b.outbound.items ++ added } := by
  obtain ⟨l, -, hext⟩ := h
  obtain ⟨added, hadded, -⟩ := hext.outbound
  exact ⟨added, hadded⟩

/-- A property of the envelopes that come may be weakened. -/
theorem mono (h : Grows P b c) (hPQ : ∀ busy e, P busy e → Q busy e) : Grows Q b c := by
  obtain ⟨l, hloses, hext⟩ := h
  exact ⟨l, hloses, hext.mono hPQ⟩

end Grows

end Bus

namespace Stack

open EnvelopeProperty

/-- Envelopes have been queued on the buses of a stack, and these are otherwise as they were. -/
def Queues (P : EnvelopeProperty) (s t : Stack) : Prop :=
  List.Forall₂ (Bus.Queues P) s.buses t.buses

/-- Every bus of a stack has been extended. -/
def Extends (P : EnvelopeProperty) (s t : Stack) : Prop :=
  List.Forall₂ (Bus.Extends P) s.buses t.buses

variable {P Q : EnvelopeProperty} {s t u : Stack} {i : Nat} {b : Bus} {f : Bus → Bus}

namespace Queues

/-- Queueing twice is queueing. -/
theorem trans (h₁ : Queues P s t) (h₂ : Queues P t u) : Queues P s u := by
  have htrans : ∀ b c d, Bus.Queues P b c → Bus.Queues P c d → Bus.Queues P b d :=
    fun _ _ _ => Bus.Queues.trans
  exact forall₂_trans htrans h₁ h₂

/-- A step that does not concern the buses queues nothing. -/
theorem of_buses (h : t.buses = s.buses) : Queues P s t := by
  rw [Queues, h]
  exact List.forall₂_same.mpr fun b _ => Bus.Queues.refl P b

/-- Queueing on the buses extends them. -/
theorem toExtends (h : Queues P s t) : Extends P s t :=
  h.imp fun _ _ hb => .of_queues hb

end Queues

namespace Extends

/-- A stack to which nothing is added. -/
theorem refl (P : EnvelopeProperty) (s : Stack) : Extends P s s :=
  List.forall₂_same.mpr fun b _ => Bus.Extends.refl P b

/-- A stack that is extended twice is extended. -/
theorem trans (h₁ : Extends P s t) (h₂ : Extends P t u) : Extends P s u := by
  have htrans : ∀ b c d, Bus.Extends P b c → Bus.Extends P c d → Bus.Extends P b d :=
    fun _ _ _ => Bus.Extends.trans
  exact forall₂_trans htrans h₁ h₂

/-- A property of what is added to a stack may be weakened. -/
theorem mono (h : Extends P s t) (hPQ : ∀ busy e, P busy e → Q busy e) : Extends Q s t :=
  h.imp fun _ _ hb => hb.mono hPQ

/-- **A stack grows by what is queued.** -/
theorem of_sends (h : Sends P s t) : Extends P s t :=
  h.buses.imp fun _ _ hb => .of_queues hb

/-- A step that does not concern the buses extends them by nothing. -/
theorem of_buses (h : t.buses = s.buses) : Extends P s t := by
  rw [Extends, h]
  exact Extends.refl P s

/-- A change of one bus that extends it. -/
theorem onBus (hf : ∀ b, s.buses[i]? = some b → Bus.Extends P b (f b)) :
    Extends P s (s.onBus i f) :=
  forall₂_modify (Bus.Extends.refl P) hf

/-- Each bus is still there, extended. -/
theorem exists_bus (h : Extends P s t) (hb : s.buses[i]? = some b) :
    ∃ c, t.buses[i]? = some c ∧ Bus.Extends P b c :=
  exists_getElem?_of_forall₂ h hb

/-- Each bus was there before. -/
theorem exists_bus_before {c : Bus} (h : Extends P s t) (hc : t.buses[i]? = some c) :
    ∃ b, s.buses[i]? = some b ∧ Bus.Extends P b c := by
  have hflip : List.Forall₂ (flip (Bus.Extends P)) t.buses s.buses := List.Forall₂.flip h
  obtain ⟨b, hb, hext⟩ := exists_getElem?_of_forall₂ hflip hc
  exact ⟨b, hb, hext⟩

end Extends

/-- The links of the buses. -/
def links (s : Stack) : List Link := s.buses.map Bus.link

/-- A change of one bus that does not concern its link. -/
theorem links_onBus (hf : ∀ b, (f b).link = b.link) : (s.onBus i f).links = s.links := by
  refine List.ext_getElem? fun j => ?_
  simp only [links, onBus, List.getElem?_map, List.getElem?_modify]
  cases s.buses[j]? with
  | none => rfl
  | some b => by_cases hij : i = j <;> simp [hij, hf]

/-- One bus of a stack has been extended, but for its link, and the others are as they were. -/
structure ExtendsOn (i : Nat) (P : EnvelopeProperty) (s t : Stack) : Prop where
  toExtends : Extends P s t
  others : ∀ j, i ≠ j → t.buses[j]? = s.buses[j]?
  links : t.links = s.links

namespace ExtendsOn

/-- One bus to which nothing is added. -/
theorem refl (i : Nat) (P : EnvelopeProperty) (s : Stack) : ExtendsOn i P s s :=
  ⟨Extends.refl P s, fun _ _ => rfl, rfl⟩

/-- One bus that is extended twice is extended. -/
theorem trans (h₁ : ExtendsOn i P s t) (h₂ : ExtendsOn i P t u) : ExtendsOn i P s u :=
  ⟨h₁.toExtends.trans h₂.toExtends, fun j hij => (h₂.others j hij).trans (h₁.others j hij),
    h₂.links.trans h₁.links⟩

/-- A property of what is added to the one bus may be weakened. -/
theorem mono (h : ExtendsOn i P s t) (hPQ : ∀ busy e, P busy e → Q busy e) : ExtendsOn i Q s t :=
  ⟨h.toExtends.mono hPQ, h.others, h.links⟩

/-- A step that does not concern the buses extends the one bus by nothing. -/
theorem of_buses (h : t.buses = s.buses) : ExtendsOn i P s t :=
  ⟨Extends.of_buses h, fun j _ => by rw [h], by rw [Stack.links, h, Stack.links]⟩

/-- A change of one bus that extends it and does not concern its link. -/
theorem onBus (hf : ∀ b, s.buses[i]? = some b → Bus.Extends P b (f b))
    (hlink : ∀ b, (f b).link = b.link) : ExtendsOn i P s (s.onBus i f) :=
  ⟨Extends.onBus hf, fun _ hij => s.buses_onBus f hij, links_onBus hlink⟩

/-- A report after the extension makes no difference. -/
theorem report (h : ExtendsOn i P s t) (es : List Event) : ExtendsOn i P s (t.report es) :=
  ⟨h.toExtends, h.others, h.links⟩

end ExtendsOn

/-- A bus is as it was, but for envelopes with a property that are queued there and numbers drawn
for them. -/
def Spares (P : EnvelopeProperty) (j : Nat) (s t : Stack) : Prop :=
  ∀ b, s.buses[j]? = some b → ∃ c, t.buses[j]? = some c ∧ Bus.Queues P b c

namespace Spares

variable {j : Nat}

/-- A bus that is as it was is spared. -/
theorem of_eq (h : t.buses[j]? = s.buses[j]?) : Spares P j s t :=
  fun b hb => ⟨b, h.trans hb, Bus.Queues.refl P b⟩

/-- A step that does nothing spares every bus. -/
theorem refl (P : EnvelopeProperty) (j : Nat) (s : Stack) : Spares P j s s := of_eq rfl

/-- A bus that is spared twice is spared. -/
theorem trans (h₁ : Spares P j s t) (h₂ : Spares P j t u) : Spares P j s u := by
  intro b hb
  obtain ⟨c, hc, hbc⟩ := h₁ b hb
  obtain ⟨d, hd, hcd⟩ := h₂ c hc
  exact ⟨d, hd, hbc.trans hcd⟩

/-- A property of what is queued on a spared bus may be weakened. -/
theorem mono (h : Spares P j s t) (hPQ : ∀ busy e, P busy e → Q busy e) : Spares Q j s t := by
  intro b hb
  obtain ⟨c, hc, hbc⟩ := h b hb
  exact ⟨c, hc, hbc.mono hPQ⟩

/-- Where all buses are only queued on, each is spared. -/
theorem of_queues (h : Queues P s t) (j : Nat) : Spares P j s t :=
  fun _ hb => exists_getElem?_of_forall₂ h hb

/-- Another bus has been replaced. -/
theorem of_replaces (h : Replaces i b s t) (hij : i ≠ j) : Spares P j s t :=
  of_eq (h.getElem?_ne hij)

/-- A bus that is spared is still there, extended. -/
theorem exists_bus (h : Spares P j s t) (hb : s.buses[j]? = some b) :
    ∃ c, t.buses[j]? = some c ∧ Bus.Extends P b c := by
  obtain ⟨c, hc, hqueues⟩ := h b hb
  exact ⟨c, hc, .of_queues hqueues⟩

end Spares

end Stack

end ManagementBus
