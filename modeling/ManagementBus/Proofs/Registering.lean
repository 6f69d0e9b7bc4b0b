import Mathlib.Data.List.Nodup
import Mathlib.Data.List.Perm.Subperm
import ManagementBus.Proofs.Numbering

/-!
# The entries of a ledger and the numbers in flight

An operation on a ledger records a request, drops entries, or draws a number. Commit, lookup,
withdrawal and expiry choose their entries in different ways, but each of them frees the numbers of
the entries that it drops, and no other number. `Ledger.Drops` says that once; what all operations
keep follows from it and from the effect of recording a request.

So a number in flight always has an entry. The converse needs more, because of two entries with one
number the first to go frees the number of both: it holds as long as no request is recorded under
the number of an entry.

## Main results

* `apply_cases`: an operation may record a request, and then it may drop entries.
* `Accounted.run`, `Distinct.run`: what every sequence of operations keeps.
* `numbers_match_entries`: which numbers are in flight after any operations on a new ledger.
-/

namespace ManagementBus.Ledger

/-! ### Entries that go -/

section Entries

variable {l : Ledger} {entry : Message} {p : Message → Bool} {entries : List Message}

/-- The oldest entry with a property stands behind entries without it. -/
theorem exists_split_of_find? (h : entries.find? p = some entry) :
    ∃ before after, entries = before ++ entry :: after ∧ entries.eraseP p = before ++ after ∧
      (∀ x ∈ before, ¬p x = true) ∧ p entry = true := by
  obtain ⟨hp, before, after, rfl, hbefore⟩ := List.find?_eq_some_iff_append.mp h
  have hnone : ∀ x ∈ before, ¬p x = true := fun x hx => by simpa using hbefore x hx
  refine ⟨before, after, rfl, ?_, hnone, hp⟩
  rw [List.eraseP_append_right _ hnone, List.eraseP_cons_of_pos hp]

/-- Which numbers are in flight after those of some entries have been made free. -/
theorem isBusy_releaseAll (t : SequenceTable) (dropped : List Message) (n : SequenceNumber) :
    (releaseAll t dropped).isBusy n = true ↔ t.isBusy n = true ∧ ∀ m ∈ dropped, slot m ≠ n := by
  induction dropped generalizing t with
  | nil => simp [releaseAll]
  | cons m dropped ih =>
      have hcons : releaseAll t (m :: dropped) = releaseAll (t.release (slot m)) dropped := rfl
      have hsymm : ¬n = slot m ↔ slot m ≠ n := by rw [eq_comm]
      rw [hcons, ih, SequenceTable.isBusy_release, Bool.and_eq_true, Bool.not_eq_true',
        decide_eq_false_iff_not, hsymm, List.forall_mem_cons, and_assoc]

end Entries

/-- A ledger has dropped some entries and kept the others in order; just the numbers of those
dropped have become free. -/
structure Drops (l k : Ledger) (dropped : List Message) : Prop where
  perm : (k.entries ++ dropped).Perm l.entries
  kept : k.entries.Sublist l.entries
  busy : ∀ n, k.numbers.isBusy n = true ↔ l.numbers.isBusy n = true ∧ ∀ m ∈ dropped, slot m ≠ n
  capacity : k.capacity = l.capacity

section Drops

variable {l k : Ledger} {m : Message} {dropped : List Message}

/-- An entry of the ledger has stayed or has been dropped. -/
theorem Drops.mem_iff (h : l.Drops k dropped) : m ∈ l.entries ↔ m ∈ k.entries ∨ m ∈ dropped := by
  rw [← h.perm.mem_iff, List.mem_append]

/-- Under distinct numbers no number that has been dropped is still in use. -/
theorem Drops.nodup (h : l.Drops k dropped) (hnodup : (l.entries.map slot).Nodup) :
    (k.entries.map slot ++ dropped.map slot).Nodup := by
  rw [← List.map_append]
  exact (h.perm.map slot).nodup_iff.mpr hnodup

/-- Where the numbers differ, an entry that goes does not have the number of one that stays. -/
theorem Drops.slot_ne (h : l.Drops k dropped) (hnodup : (l.entries.map slot).Nodup)
    (hm : m ∈ k.entries) : ∀ d ∈ dropped, slot d ≠ slot m := by
  obtain ⟨-, -, hapart⟩ := List.nodup_append.mp (h.nodup hnodup)
  intro d hd heq
  exact hapart _ (List.mem_map_of_mem hm) _ (List.mem_map_of_mem hd) heq.symm

/-- A number drawn makes no difference. -/
theorem drops_draw (l : Ledger) (cursor : SequenceNumber) :
    l.Drops { l with numbers := { l.numbers with cursor } } [] where
  perm := by rw [List.append_nil]
  kept := List.Sublist.refl _
  busy := fun n => ⟨fun h => ⟨h, List.forall_mem_nil _⟩, And.left⟩
  capacity := rfl

/-- A commit drops what it returns. -/
theorem drops_commit (l : Ledger) : l.Drops l.commit.1 l.commit.2 where
  perm := List.perm_append_comm.trans (List.Perm.of_eq (List.take_append_drop _ _))
  kept := List.drop_sublist _ _
  busy := isBusy_releaseAll _ _
  capacity := rfl

/-- The removal of an entry drops that entry, if there is one to remove. -/
theorem drops_extract (l : Ledger) (p : Message → Bool) :
    l.Drops (l.extract p).1 (l.extract p).2.toList := by
  rw [extract]
  split
  · next entry hentry =>
      obtain ⟨before, after, hentries, herase, -⟩ := exists_split_of_find? hentry
      refine ⟨?_, List.eraseP_sublist, isBusy_releaseAll l.numbers [entry], rfl⟩
      rw [Option.toList_some, herase, hentries, List.append_assoc]
      exact List.Perm.append_left before (List.perm_append_singleton entry after)
  · exact l.drops_draw l.numbers.cursor

/-- A sweep returns the stale entries. -/
theorem expire_snd (l : Ledger) (now timeout : UInt32) :
    (l.expire now timeout).2 = l.entries.filter (isStale now timeout) := rfl

/-- A sweep drops what it returns. -/
theorem drops_expire (l : Ledger) (now timeout : UInt32) :
    l.Drops (l.expire now timeout).1 (l.expire now timeout).2 where
  perm := List.perm_append_comm.trans (List.filter_append_perm (isStale now timeout) l.entries)
  kept := List.filter_sublist
  busy := isBusy_releaseAll _ _
  capacity := rfl

end Drops

/-! ### Numbers that have an entry, entries that have their number -/

/-- Every number in flight is that of an entry. -/
def Accounted (l : Ledger) : Prop :=
  ∀ n, l.numbers.isBusy n = true → ∃ m ∈ l.entries, slot m = n

/-- The entries have different numbers, and all of these are in flight. -/
structure Distinct (l : Ledger) : Prop where
  nodup : (l.entries.map slot).Nodup
  busy : ∀ m ∈ l.entries, l.numbers.isBusy (slot m) = true

section Invariants

variable {l k : Ledger} {m : Message} {dropped : List Message}

/-- A newly recorded request is an entry, and its number is in flight. -/
theorem mem_stage {now : UInt32} {entry : Message} :
    entry ∈ (l.stage m now).entries ↔ entry ∈ l.entries ∨ entry = { m with timestamp := now } := by
  rw [entries_stage, List.mem_append, List.mem_singleton]

/-- A request that is staged makes its number busy. -/
theorem isBusy_stage {now : UInt32} {n : SequenceNumber} :
    (l.stage m now).numbers.isBusy n = true ↔ l.numbers.isBusy n = true ∨ n = slot m := by
  have hnumbers : (l.stage m now).numbers = l.numbers.register (slot m) := rfl
  rw [hnumbers, SequenceTable.isBusy_register, Bool.or_eq_true, decide_eq_true_eq]

/-- No number of a new ledger is in flight. -/
theorem accounted_new (capacity : Nat) : (new capacity).Accounted := by
  intro n hbusy
  have hfree : (new capacity).numbers.isBusy n = false := SequenceTable.isBusy_empty n
  rw [hfree] at hbusy
  cases hbusy

/-- A number that becomes busy is that of the new entry. -/
theorem Accounted.stage (h : l.Accounted) (m : Message) (now : UInt32) :
    (l.stage m now).Accounted := by
  intro n hbusy
  rcases isBusy_stage.mp hbusy with hbusy | rfl
  · obtain ⟨entry, hentry, hslot⟩ := h n hbusy
    exact ⟨entry, mem_stage.mpr (.inl hentry), hslot⟩
  · exact ⟨_, mem_stage.mpr (.inr rfl), rfl⟩

/-- **No number stays in flight when its entries have gone.** -/
theorem Accounted.drops (h : l.Accounted) (hdrops : l.Drops k dropped) : k.Accounted := by
  intro n hbusy
  obtain ⟨hbefore, hother⟩ := (hdrops.busy n).mp hbusy
  obtain ⟨m, hm, hslot⟩ := h n hbefore
  rcases hdrops.mem_iff.mp hm with hkept | hdropped
  · exact ⟨m, hkept, hslot⟩
  · exact absurd hslot (hother m hdropped)

/-- Fewer than sixty-four entries leave a number free. -/
theorem Accounted.exists_free (h : l.Accounted) (hlength : l.entries.length < 64) :
    ∃ n, l.numbers.isBusy n = false := by
  by_contra hnone
  have hall : List.finRange 64 ⊆ l.entries.map slot := by
    intro n _
    have hbusy : l.numbers.isBusy n = true := by
      rw [← Bool.not_eq_false]
      exact fun hfree => hnone ⟨n, hfree⟩
    obtain ⟨m, hm, hslot⟩ := h n hbusy
    exact List.mem_map.mpr ⟨m, hm, hslot⟩
  have hcard := (List.subperm_of_subset (List.nodup_finRange 64) hall).length_le
  rw [List.length_finRange, List.length_map] at hcard
  omega

/-- A new ledger has no entries that could share a number. -/
theorem distinct_new (capacity : Nat) : (new capacity).Distinct where
  nodup := List.nodup_nil
  busy := by
    intro m hm
    cases hm

/-- A request whose number no entry has is recorded. -/
theorem Distinct.stage (h : l.Distinct) (hfresh : ∀ entry ∈ l.entries, slot entry ≠ slot m)
    (now : UInt32) : (l.stage m now).Distinct where
  nodup := by
    rw [entries_stage, List.map_append, List.nodup_append]
    refine ⟨h.nodup, List.nodup_singleton _, ?_⟩
    intro n hn n' hn' heq
    obtain ⟨entry, hentry, rfl⟩ := List.mem_map.mp hn
    obtain rfl : n' = slot m := List.mem_singleton.mp hn'
    exact hfresh entry hentry heq
  busy := by
    intro entry hentry
    rcases mem_stage.mp hentry with hentry | rfl
    · exact isBusy_stage.mpr (.inl (h.busy entry hentry))
    · exact isBusy_stage.mpr (.inr rfl)

/-- **Where the numbers differ, an entry that goes takes no other's number along.** -/
theorem Distinct.drops (h : l.Distinct) (hdrops : l.Drops k dropped) : k.Distinct where
  nodup := (List.nodup_append.mp (hdrops.nodup h.nodup)).1
  busy := fun m hm =>
    (hdrops.busy _).mpr ⟨h.busy m (hdrops.mem_iff.mpr (.inl hm)), hdrops.slot_ne h.nodup hm⟩

end Invariants

/-! ### Operations -/

/-- An operation on a ledger. -/
inductive Operation where
  | insert (m : Message) (now : UInt32)
  | stage (m : Message) (now : UInt32)
  | commit
  | find (query : Message) (how : Correlation)
  | withdraw (m : Message)
  | expire (now timeout : UInt32)
  | draw

/-- The request that an operation records. -/
def Operation.recorded? : Operation → Option Message
  | .insert m _ | .stage m _ => some m
  | .commit | .find _ _ | .withdraw _ | .expire _ _ | .draw => none

/-- The ledger after an operation. -/
def apply (l : Ledger) : Operation → Ledger
  | .insert m now => (l.insert m now).1
  | .stage m now => l.stage m now
  | .commit => l.commit.1
  | .find query how => (l.findAndRemove query how).1
  | .withdraw m => (l.withdraw m).1
  | .expire now timeout => (l.expire now timeout).1
  | .draw => l.nextSequence.1

/-- The ledger after some operations. -/
def run (l : Ledger) (ops : List Operation) : Ledger :=
  ops.foldl apply l

/-- Every request is recorded under a number that no entry has at that time. -/
def RecordsFresh : Ledger → List Operation → Prop
  | _, [] => True
  | l, op :: ops =>
    (∀ m ∈ op.recorded?, ∀ entry ∈ l.entries, slot entry ≠ slot m) ∧ (l.apply op).RecordsFresh ops

instance decidableRecordsFresh : ∀ (ops : List Operation) (l : Ledger),
    Decidable (l.RecordsFresh ops)
  | [], _ => .isTrue trivial
  | op :: ops, l =>
    have := decidableRecordsFresh ops (l.apply op)
    inferInstanceAs (Decidable (_ ∧ _))

section Operations

variable {l : Ledger} {op : Operation} {ops : List Operation}

/-- **What an operation does.** It records a request and then perhaps drops entries, or it drops
some at most. -/
theorem apply_cases (l : Ledger) (op : Operation) :
    (∃ m now dropped, op.recorded? = some m ∧ (l.stage m now).Drops (l.apply op) dropped) ∨
      ∃ dropped, l.Drops (l.apply op) dropped := by
  cases op with
  | insert m now => exact .inl ⟨m, now, _, rfl, drops_commit _⟩
  | stage m now => exact .inl ⟨m, now, [], rfl, drops_draw _ _⟩
  | commit => exact .inr ⟨_, l.drops_commit⟩
  | find query how => exact .inr ⟨_, l.drops_extract _⟩
  | withdraw m => exact .inr ⟨_, l.drops_extract _⟩
  | expire now timeout => exact .inr ⟨_, l.drops_expire now timeout⟩
  | draw => exact .inr ⟨_, l.drops_draw _⟩

/-- Every operation keeps each number in flight with an entry. -/
theorem Accounted.apply (h : l.Accounted) (op : Operation) : (l.apply op).Accounted := by
  rcases l.apply_cases op with ⟨m, now, dropped, -, hdrops⟩ | ⟨dropped, hdrops⟩
  · exact (h.stage m now).drops hdrops
  · exact h.drops hdrops

/-- In every sequence of operations each number in flight has an entry. -/
theorem Accounted.run (h : l.Accounted) (ops : List Operation) : (l.run ops).Accounted := by
  induction ops generalizing l with
  | nil => exact h
  | cons op ops ih => exact ih (h.apply op)

/-- An operation that records only under a free number keeps the numbers distinct and in flight. -/
theorem Distinct.apply (h : l.Distinct)
    (hfresh : ∀ m ∈ op.recorded?, ∀ entry ∈ l.entries, slot entry ≠ slot m) :
    (l.apply op).Distinct := by
  rcases l.apply_cases op with ⟨m, now, dropped, hm, hdrops⟩ | ⟨dropped, hdrops⟩
  · exact (h.stage (hfresh m hm) now).drops hdrops
  · exact h.drops hdrops

/-- A sequence of operations that records only under free numbers keeps the entries distinct. -/
theorem Distinct.run (h : l.Distinct) (hfresh : l.RecordsFresh ops) : (l.run ops).Distinct := by
  induction ops generalizing l with
  | nil => exact h
  | cons op ops ih => exact ih (h.apply hfresh.1) hfresh.2

/-- **The numbers in flight are those of the entries.** After any operations on a new ledger a
number in flight has an entry, so an empty ledger has every number free. As long as each request has
been recorded under a number that no entry had, the converse holds as well: the entries have
different numbers, these are in flight, and while there are fewer than sixty-four entries the number
drawn next is free and no entry has it. -/
theorem numbers_match_entries (capacity : Nat) (ops : List Operation) :
    let l := (new capacity).run ops
    (∀ n, l.numbers.isBusy n = true → ∃ m ∈ l.entries, slot m = n) ∧
      (l.entries = [] → ∀ n, l.numbers.isBusy n = false) ∧
      ((new capacity).RecordsFresh ops →
        (∀ m ∈ l.entries, l.numbers.isBusy (slot m) = true) ∧
          (l.entries.map slot).Nodup ∧
          (l.entries.length < 64 →
            l.numbers.isBusy l.nextSequence.2 = false ∧
              ∀ m ∈ l.entries, slot m ≠ l.nextSequence.2)) := by
  intro l
  have haccounted : l.Accounted := (accounted_new capacity).run ops
  refine ⟨haccounted, ?_, ?_⟩
  · intro hempty n
    rw [← Bool.not_eq_true]
    intro hbusy
    obtain ⟨m, hm, -⟩ := haccounted n hbusy
    rw [hempty] at hm
    cases hm
  · intro hfresh
    have hdistinct : l.Distinct := (distinct_new capacity).run hfresh
    refine ⟨hdistinct.busy, hdistinct.nodup, ?_⟩
    intro hlength
    obtain ⟨n, hn⟩ := haccounted.exists_free hlength
    have hfree : l.numbers.isBusy l.nextSequence.2 = false :=
      SequenceTable.isBusy_next_of_free hn
    refine ⟨hfree, ?_⟩
    intro m hm heq
    have hbusy := hdistinct.busy m hm
    rw [heq, hfree] at hbusy
    cases hbusy

/-- A request that is recorded under a byte. -/
def requestUnder (number : UInt8) : Message :=
  { netFn := 0x06, cmd := 0x01, seqTarget := number }

/-- A number comes back into use after a response, an eviction and an expiry; two bytes stand for
it. -/
def reuse : List Operation :=
  [.draw, .insert (requestUnder 1) 0, .insert (requestUnder 66) 10, .stage (requestUnder 3) 20,
    .commit, .find { netFn := 0x07, cmd := 0x01, seqTarget := 66 } .response,
    .insert (requestUnder 65) 40, .expire 90 60, .stage (requestUnder 2) 95,
    .withdraw (requestUnder 2), .insert (requestUnder 131) 100]

/-- A number is recorded anew after its entry has gone, and at the end both entries have theirs. -/
theorem numbers_match_entries_reuse :
    let l := (new 2).run reuse
    (new 2).RecordsFresh reuse ∧ l.entries.map slot = [1, 3] ∧
      (∀ m ∈ l.entries, l.numbers.isBusy (slot m) = true) ∧ (l.entries.map slot).Nodup ∧
      l.numbers.isBusy l.nextSequence.2 = false ∧ ∀ m ∈ l.entries, slot m ≠ l.nextSequence.2 := by
  have hfresh : (new 2).RecordsFresh reuse := by decide +kernel
  have hentries : ((new 2).run reuse).entries.map slot = [1, 3] := by decide +kernel
  have hlength : ((new 2).run reuse).entries.length < 64 := by decide +kernel
  obtain ⟨-, -, hmatch⟩ := numbers_match_entries 2 reuse
  obtain ⟨hbusy, hnodup, hnext⟩ := hmatch hfresh
  exact ⟨hfresh, hentries, hbusy, hnodup, hnext hlength⟩

end Operations

end ManagementBus.Ledger
