import ManagementBus.Proofs.Registering

/-!
# Pending requests and their numbers

A ledger is *tidy* when its entries have different numbers and just these numbers are in flight.
Entries may go in any way: a tidy ledger stays tidy, since the number of an entry is made free with
it. A new entry keeps it tidy where its number is free.

## Main results

* `Tidy.drops`: a ledger that drops entries stays tidy.
* `Tidy.stage`: a ledger in which a request with a free number is recorded stays tidy.
* `Tidy.isExact`: in a tidy ledger a number is in flight just where exactly one entry has it.
-/

namespace ManagementBus

/-! ### Numbers and bytes -/

namespace SequenceNumber

/-- A sequence number is carried in a byte as it is. -/
theorem toNat_toByte (n : SequenceNumber) : n.toByte.toNat = n.val := by
  have hlt := n.is_lt
  rw [toByte, UInt8.toNat_ofNat']
  omega

/-- The number is read back from its byte. -/
theorem ofByte_toByte (n : SequenceNumber) : ofByte n.toByte = n := by
  ext
  have hlt := n.is_lt
  rw [ofByte, Fin.val_ofNat, toNat_toByte]
  omega

/-- A byte below sixty-four is the byte of its number. -/
theorem toByte_ofByte {b : UInt8} (h : b.toNat < 64) : (ofByte b).toByte = b := by
  rw [← UInt8.toNat_inj, toNat_toByte, ofByte, Fin.val_ofNat]
  omega

end SequenceNumber

namespace Ledger

open SequenceNumber

variable {l k : Ledger} {m entry : Message} {p : Message → Bool} {now : UInt32}

/-! ### Entries that go -/

/-- What counts of the entries that stay, when the oldest with a property goes. -/
theorem countP_eraseP {entries : List Message} (q : Message → Bool)
    (h : entries.find? p = some entry) :
    (entries.eraseP p).countP q + (if q entry then 1 else 0) = entries.countP q := by
  obtain ⟨before, after, hentries, herase, -⟩ := exists_split_of_find? h
  rw [herase, hentries, List.countP_append, List.countP_append, List.countP_cons]
  omega

/-! ### Tidy ledgers -/

/-- The entries have different numbers, and just these are in flight. -/
structure Tidy (l : Ledger) : Prop where
  small : ∀ m ∈ l.entries, m.seqTarget.toNat < 64
  nodup : (l.entries.map Message.seqTarget).Nodup
  busy : ∀ n, l.numbers.isBusy n = true ↔ ∃ m ∈ l.entries, slot m = n

/-- A number is in flight just where exactly one entry has it, and no two entries share one. -/
def IsExact (l : Ledger) : Prop :=
  (l.entries.map Message.seqTarget).Nodup ∧
    ∀ n : SequenceNumber, l.numbers.isBusy n = true ↔
      l.entries.countP (fun m => m.seqTarget = n.toByte) = 1

namespace Tidy

/-- In a tidy ledger an entry is under a number just when it carries its byte. -/
theorem slot_eq_iff (h : l.Tidy) (hm : m ∈ l.entries) (n : SequenceNumber) :
    slot m = n ↔ m.seqTarget = n.toByte := by
  constructor
  · rintro rfl
    exact (toByte_ofByte (h.small m hm)).symm
  · intro heq
    rw [slot, heq, ofByte_toByte]

/-- A new ledger is tidy. -/
theorem new (capacity : Nat) : (Ledger.new capacity).Tidy where
  small := by simp
  nodup := by simp
  busy := by
    intro n
    have hfree : (Ledger.new capacity).numbers.isBusy n = false := SequenceTable.isBusy_empty n
    simp [hfree]

/-- **In a tidy ledger a number is in flight just where exactly one entry has it.** -/
theorem isExact (h : l.Tidy) : l.IsExact := by
  refine ⟨h.nodup, ?_⟩
  intro n
  have hcount : l.entries.countP (fun m => m.seqTarget = n.toByte) =
      (l.entries.map Message.seqTarget).count n.toByte := by
    rw [List.count, List.countP_map]
    exact List.countP_congr fun m _ => by simp
  rw [hcount, h.busy]
  constructor
  · rintro ⟨m, hm, hslot⟩
    refine List.count_eq_one_of_mem h.nodup (List.mem_map.mpr ⟨m, hm, ?_⟩)
    exact (h.slot_eq_iff hm n).mp hslot
  · intro hone
    have hmem : n.toByte ∈ l.entries.map Message.seqTarget := by
      rw [← List.count_pos_iff, hone]
      exact Nat.one_pos
    obtain ⟨m, hm, hseq⟩ := List.mem_map.mp hmem
    exact ⟨m, hm, (h.slot_eq_iff hm n).mpr hseq⟩

/-- Of numbers below sixty-four the low six bits differ where the bytes do. -/
theorem distinct (h : l.Tidy) : l.Distinct where
  nodup := by
    have hslots : l.entries.map slot = (l.entries.map Message.seqTarget).map ofByte :=
      List.map_map.symm
    rw [hslots]
    refine List.Nodup.map_on ?_ h.nodup
    intro x hx y hy heq
    obtain ⟨m, hm, rfl⟩ := List.mem_map.mp hx
    obtain ⟨m', hm', rfl⟩ := List.mem_map.mp hy
    rw [← toByte_ofByte (h.small m hm), heq, toByte_ofByte (h.small m' hm')]
  busy := fun m hm => (h.busy _).mpr ⟨m, hm, rfl⟩

/-- In a tidy ledger every number in flight is that of an entry. -/
theorem accounted (h : l.Tidy) : l.Accounted := fun n => (h.busy n).mp

/-- A ledger is tidy where its numbers are below sixty-four, have an entry each, and differ. -/
theorem of_distinct (hsmall : ∀ m ∈ l.entries, m.seqTarget.toNat < 64) (hdistinct : l.Distinct)
    (haccounted : l.Accounted) : l.Tidy where
  small := hsmall
  nodup := by
    have hslots : l.entries.map slot = (l.entries.map Message.seqTarget).map ofByte :=
      List.map_map.symm
    have hnodup := hdistinct.nodup
    rw [hslots] at hnodup
    exact hnodup.of_map
  busy := by
    intro n
    refine ⟨haccounted n, ?_⟩
    rintro ⟨m, hm, rfl⟩
    exact hdistinct.busy m hm

/-- **A ledger that drops entries stays tidy**, whichever they are. -/
theorem drops {dropped : List Message} (h : l.Tidy) (hdrops : l.Drops k dropped) : k.Tidy :=
  of_distinct (fun m hm => h.small m (hdrops.kept.subset hm)) (h.distinct.drops hdrops)
    (h.accounted.drops hdrops)

/-- A write that succeeds keeps a ledger tidy. -/
theorem commit (h : l.Tidy) : l.commit.1.Tidy := h.drops l.drops_commit

/-- The removal of an entry keeps a ledger tidy. -/
theorem extract (h : l.Tidy) (p : Message → Bool) : (l.extract p).1.Tidy :=
  h.drops (l.drops_extract p)

/-- A sweep keeps a ledger tidy. -/
theorem expire (h : l.Tidy) (now timeout : UInt32) : (l.expire now timeout).1.Tidy :=
  h.drops (l.drops_expire now timeout)

/-- The numbers drawn make no difference. -/
theorem draw (h : l.Tidy) (cursor : SequenceNumber) :
    Tidy { l with numbers := { l.numbers with cursor } } :=
  h.drops (l.drops_draw cursor)

/-- **A ledger in which a request with a free number is recorded stays tidy.** -/
theorem stage (h : l.Tidy) (hsmall : m.seqTarget.toNat < 64)
    (hfree : l.numbers.isBusy (slot m) = false) (now : UInt32) : (l.stage m now).Tidy := by
  refine of_distinct ?_ (h.distinct.stage ?_ now) (h.accounted.stage m now)
  · intro entry hentry
    rcases mem_stage.mp hentry with hentry | rfl
    · exact h.small entry hentry
    · exact hsmall
  · intro entry hentry heq
    have hbusy := h.distinct.busy entry hentry
    rw [heq, hfree] at hbusy
    cases hbusy

end Tidy

end Ledger

end ManagementBus
