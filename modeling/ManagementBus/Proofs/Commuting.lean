import ManagementBus.Proofs.Registering

/-!
# Recording during a sweep

A sweep reads the clock once, before it comes to any ledger, and a request is recorded at a reading
of its own. So a sweep may find a request that was recorded after the sweep's own reading: this
request comes from the future, its age has wrapped around, and the sweep drops it.

The order of the two operations therefore matters, unless the request is at the sweep's reading no
older than the timeout. What carries the proof is that both orders treat the entries that were
there alike, and that none of these has the number of the new one: freeing theirs and taking its own
are independent.

## Main results

* `expire_stage_of_kept`, `expire_stage_of_stale`: an expiry that follows the recording, in terms of
  an expiry alone.
* `expire_stage_comm_iff`: when the order of the two makes no difference.
-/

namespace ManagementBus

/-! ### Numbers freed and taken -/

/-- A table is told by the numbers in flight and the one given last. -/
theorem SequenceTable.eq_of_isBusy {t u : SequenceTable}
    (hbusy : ∀ n, t.isBusy n = true ↔ u.isBusy n = true) (hcursor : t.cursor = u.cursor) :
    t = u := by
  obtain ⟨busy, cursor⟩ := t
  obtain ⟨busy', cursor'⟩ := u
  obtain rfl : cursor = cursor' := hcursor
  obtain rfl : busy = busy' := by
    refine BitVec.eq_of_getLsbD_eq fun i hi => ?_
    exact Bool.eq_iff_iff.mpr (hbusy ⟨i, hi⟩)
  rfl

namespace Ledger

variable {l : Ledger} {m : Message} {tick now timeout : UInt32}

section Numbers

variable {t : SequenceTable} {n : SequenceNumber} {dropped : List Message}

/-- Numbers that become free do not move the cursor. -/
theorem cursor_releaseAll (t : SequenceTable) (dropped : List Message) :
    (releaseAll t dropped).cursor = t.cursor := by
  induction dropped generalizing t with
  | nil => rfl
  | cons m dropped ih => exact ih (t.release (slot m))

/-- A number that no dropped entry has may be taken before or after theirs are freed. -/
theorem releaseAll_register (h : ∀ d ∈ dropped, slot d ≠ n) :
    releaseAll (t.register n) dropped = (releaseAll t dropped).register n := by
  refine SequenceTable.eq_of_isBusy (fun k => ?_) ?_
  · simp only [isBusy_releaseAll, SequenceTable.isBusy_register, Bool.or_eq_true,
      decide_eq_true_eq]
    constructor
    · rintro ⟨hbusy | rfl, hother⟩
      · exact .inl ⟨hbusy, hother⟩
      · exact .inr rfl
    · rintro (⟨hbusy, hother⟩ | rfl)
      · exact ⟨.inl hbusy, hother⟩
      · exact ⟨.inr rfl, h⟩
  · exact (cursor_releaseAll _ _).trans (cursor_releaseAll t dropped).symm

/-- A number that is freed last need not have been taken. -/
theorem releaseAll_register_concat (t : SequenceTable) (dropped : List Message) (m : Message) :
    releaseAll (t.register (slot m)) (dropped ++ [m]) =
      (releaseAll t dropped).release (slot m) := by
  refine SequenceTable.eq_of_isBusy (fun k => ?_) ?_
  · simp only [isBusy_releaseAll, SequenceTable.isBusy_register, SequenceTable.isBusy_release,
      Bool.or_eq_true, Bool.and_eq_true, Bool.not_eq_true', decide_eq_true_eq,
      decide_eq_false_iff_not, List.forall_mem_append, List.forall_mem_singleton]
    constructor
    · rintro ⟨hbusy | rfl, hother, hne⟩
      · exact ⟨⟨hbusy, hother⟩, Ne.symm hne⟩
      · exact absurd rfl hne
    · rintro ⟨⟨hbusy, hother⟩, hne⟩
      exact ⟨.inl hbusy, hother, Ne.symm hne⟩
  · exact (cursor_releaseAll _ _).trans (cursor_releaseAll t dropped).symm

end Numbers

/-! ### Ages of a tick -/

/-- With a timeout below 2^31, an entry stays just if its age, wrapped around, is no more than the
timeout. -/
theorem isStale_eq_false_iff {entry : Message} (htimeout : timeout < 0x80000000) :
    isStale now timeout entry = false ↔ now - entry.timestamp ≤ timeout := by
  simp only [isStale, Bool.or_eq_false_iff, decide_eq_false_iff_not, UInt32.not_lt, UInt32.not_le]
  exact ⟨And.left, fun hle => ⟨hle, UInt32.lt_of_le_of_lt hle htimeout⟩⟩

/-- Of two different ticks less than 2^31 apart, one is in the other's future. -/
theorem eq_of_sub_le_of_sub_le (htimeout : timeout < 0x80000000) (hlater : tick - now ≤ timeout)
    (hearlier : now - tick ≤ timeout) : tick = now := by
  rw [UInt32.lt_iff_toNat_lt] at htimeout
  rw [UInt32.le_iff_toNat_le, UInt32.toNat_sub] at hlater hearlier
  have hsign : (0x80000000 : UInt32).toNat = 2 ^ 31 := rfl
  have := tick.toNat_lt
  have := now.toNat_lt
  apply UInt32.toNat_inj.mp
  omega

/-! ### The two orders -/

/-- The recorded request is the last of those that a filter lets pass. -/
theorem filter_entries_stage (l : Ledger) (m : Message) (tick : UInt32) (p : Message → Bool) :
    (l.stage m tick).entries.filter p =
      l.entries.filter p ++ if p { m with timestamp := tick } then [{ m with timestamp := tick }]
        else [] := by
  rw [entries_stage, List.filter_append, List.filter_cons, List.filter_nil]

/-- **A request that the sweep keeps** might as well be recorded after the sweep. -/
theorem expire_stage_of_kept (hfresh : ∀ entry ∈ l.entries, slot entry ≠ slot m)
    (hkept : isStale now timeout { m with timestamp := tick } = false) :
    (l.stage m tick).expire now timeout =
      ((l.expire now timeout).1.stage m tick, (l.expire now timeout).2) := by
  have hdropped : (l.stage m tick).entries.filter (isStale now timeout) =
      l.entries.filter (isStale now timeout) := by
    rw [filter_entries_stage, hkept]
    exact List.append_nil _
  have hentries : (l.stage m tick).entries.filter (fun entry => !isStale now timeout entry) =
      l.entries.filter (fun entry => !isStale now timeout entry) ++
        [{ m with timestamp := tick }] := by
    rw [filter_entries_stage, hkept]
    rfl
  have hnumbers : releaseAll (l.stage m tick).numbers (l.entries.filter (isStale now timeout)) =
      (releaseAll l.numbers (l.entries.filter (isStale now timeout))).register (slot m) :=
    releaseAll_register fun d hd => hfresh d (List.mem_of_mem_filter hd)
  rw [expire, hdropped, hentries, hnumbers]
  rfl

/-- **A request that the sweep finds stale** goes after the others and leaves its number free. -/
theorem expire_stage_of_stale (l : Ledger)
    (hstale : isStale now timeout { m with timestamp := tick } = true) :
    (l.stage m tick).expire now timeout =
      ({ (l.expire now timeout).1 with
          numbers := (l.expire now timeout).1.numbers.release (slot m) },
        (l.expire now timeout).2 ++ [{ m with timestamp := tick }]) := by
  have hdropped : (l.stage m tick).entries.filter (isStale now timeout) =
      l.entries.filter (isStale now timeout) ++ [{ m with timestamp := tick }] := by
    rw [filter_entries_stage, hstale]
    rfl
  have hentries : (l.stage m tick).entries.filter (fun entry => !isStale now timeout entry) =
      l.entries.filter (fun entry => !isStale now timeout entry) := by
    rw [filter_entries_stage, hstale]
    exact List.append_nil _
  have hnumbers : releaseAll (l.stage m tick).numbers
        (l.entries.filter (isStale now timeout) ++ [{ m with timestamp := tick }]) =
      (releaseAll l.numbers (l.entries.filter (isStale now timeout))).release (slot m) :=
    releaseAll_register_concat _ _ { m with timestamp := tick }
  rw [expire, hdropped, hentries, hnumbers]
  rfl

/-- **When recording and sweeping commute.** A request whose number no entry has is recorded at one
tick, and the ledger is swept at another. Both orders end in the same ledger just if the request is
at the sweep's tick no older than the timeout. So where it is recorded at the sweep's tick or at
most the timeout later, they do just if the two ticks are the same; at a later tick the sweep that
follows the recording drops the request besides the others, and makes its number free. -/
theorem expire_stage_comm_iff (l : Ledger) (m : Message) (tick now timeout : UInt32)
    (hfresh : ∀ entry ∈ l.entries, slot entry ≠ slot m) (htimeout : timeout < 0x80000000) :
    (((l.stage m tick).expire now timeout).1 = (l.expire now timeout).1.stage m tick ↔
        now - tick ≤ timeout) ∧
      (tick - now ≤ timeout → (now - tick ≤ timeout ↔ tick = now)) ∧
      (¬now - tick ≤ timeout →
        (l.stage m tick).expire now timeout =
          ({ (l.expire now timeout).1 with
              numbers := (l.expire now timeout).1.numbers.release (slot m) },
            (l.expire now timeout).2 ++ [{ m with timestamp := tick }])) := by
  have hkept_iff : isStale now timeout { m with timestamp := tick } = false ↔
      now - tick ≤ timeout := isStale_eq_false_iff htimeout
  have hstale : ¬now - tick ≤ timeout →
      isStale now timeout { m with timestamp := tick } = true := fun hold => by
    rwa [← hkept_iff, Bool.not_eq_false] at hold
  refine ⟨⟨fun hsame => ?_, fun hyoung => ?_⟩, fun hlater => ⟨fun hyoung => ?_, ?_⟩,
    fun hold => l.expire_stage_of_stale (hstale hold)⟩
  · -- Otherwise one of the two equal ledgers has the request and the other has not.
    by_contra hold
    have hlengths := congrArg (fun k : Ledger => k.entries.length) hsame
    rw [l.expire_stage_of_stale (hstale hold)] at hlengths
    simp at hlengths
  · rw [expire_stage_of_kept hfresh (hkept_iff.mpr hyoung)]
  · exact eq_of_sub_le_of_sub_le htimeout hlater hyoung
  · rintro rfl
    rw [UInt32.sub_self]
    exact UInt32.zero_le

/-- A request is recorded shortly before the clock wraps around, and the sweep after that keeps
it. -/
theorem expire_stage_comm_iff_wrapping :
    let l := (new 2).stage (requestUnder 1) 0xFFFFFF00
    let m := requestUnder 5
    (∀ entry ∈ l.entries, slot entry ≠ slot m) ∧ (1000 : UInt32) < 0x80000000 ∧
      ((l.stage m 0xFFFFFFF0).expire 10 1000).1 = (l.expire 10 1000).1.stage m 0xFFFFFFF0 := by
  have hfresh : ∀ entry ∈ ((new 2).stage (requestUnder 1) 0xFFFFFF00).entries,
      slot entry ≠ slot (requestUnder 5) := by decide +kernel
  have htimeout : (1000 : UInt32) < 0x80000000 := by decide
  have hyoung : (10 : UInt32) - 0xFFFFFFF0 ≤ 1000 := by decide
  exact ⟨hfresh, htimeout,
    (expire_stage_comm_iff _ _ 0xFFFFFFF0 10 1000 hfresh htimeout).1.mpr hyoung⟩

/-- A request that is recorded a millisecond after the sweep's reading is swept. -/
theorem expire_drops_staged_later :
    let l := new 15
    let m := requestUnder 5
    (∀ entry ∈ l.entries, slot entry ≠ slot m) ∧ (1000 : UInt32) < 0x80000000 ∧
      (101 : UInt32) - 100 ≤ 1000 ∧
      ((l.stage m 101).expire 100 1000).1 ≠ (l.expire 100 1000).1.stage m 101 ∧
      ((l.stage m 101).expire 100 1000).2 = [{ m with timestamp := 101 }] := by
  decide +kernel

end Ledger

end ManagementBus
