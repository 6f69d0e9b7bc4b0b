import ManagementBus.Ledger

/-!
# Numbers given out

A table tries every number once before it gives up, so the number that it gives out is in flight
only where all sixty-four are.

## Main results

* `mem_turn`: every number has its turn.
* `isBusy_next_of_free`: where a number is free, the number given out is free.
-/

namespace ManagementBus.SequenceTable

/-- In one turn every number has its place. -/
theorem mem_turn (t : SequenceTable) (n : SequenceNumber) : n ∈ t.turn := by
  refine List.mem_map.mpr ⟨(n - t.cursor - 1).val, List.mem_range.mpr (Fin.is_lt _), ?_⟩
  ext
  simp only [Fin.val_add, Fin.val_sub, Fin.val_ofNat]
  have := n.is_lt
  have := t.cursor.is_lt
  omega

/-- **Where a number is free, the number given out is free.** -/
theorem isBusy_next_of_free {t : SequenceTable} {n : SequenceNumber} (h : t.isBusy n = false) :
    t.isBusy t.next.2 = false := by
  have hsome : t.nextFree?.isSome := by
    rw [nextFree?, List.find?_isSome]
    exact ⟨n, t.mem_turn n, by simp [h]⟩
  obtain ⟨k, hk⟩ := Option.isSome_iff_exists.mp hsome
  have hfree := List.find?_some hk
  simpa [next, hk] using hfree

end ManagementBus.SequenceTable
