import ManagementBus.Proofs.Building
import ManagementBus.Proofs.Recording

/-!
# How many requests a ledger holds

A ledger may hold one entry over its capacity, from the staging of a request until its write has
ended. Meanwhile responses and sweeps may take entries, the staged one among them, and then there is
room again. So what is true all the time is `Bus.HoldsCapacity`: the ledger holds its capacity, or
it holds one entry more and the newest is the request in hand. A commit then evicts the oldest entry
and not the one that has just been written; a withdrawal finds the newest entry, or an older one
that cannot be told from it, and makes room as well.

## Main results

* `HoldsCapacity.step`: what every action keeps.
* `Scheduler.ledger_holds_capacity`: how many entries a ledger has in all states of a run, and which
  entry may be evicted when.
-/

namespace ManagementBus

namespace Bus

variable {s : Stack} {i : Nat} {a : Action} {b c : Bus} {e : Envelope} {evicted : List Message}

/-- The ledger holds its capacity, or it is full but for the request in hand, its newest entry. -/
def HoldsCapacity (b : Bus) : Prop :=
  b.ledger.entries.length ≤ b.ledger.capacity ∨
    ∃ e old tick, b.requestInHand? = some e ∧
      b.ledger.entries = old ++ [e.msg.recordedAt tick] ∧
        old.length = b.ledger.capacity

/-- A ledger that is full but for its newest entry holds one more than its capacity. -/
theorem length_of_full {old : List Message} {newest : Message}
    (hentries : b.ledger.entries = old ++ [newest]) (hold : old.length = b.ledger.capacity) :
    b.ledger.entries.length = b.ledger.capacity + 1 := by
  rw [hentries, List.length_append, hold, List.length_singleton]

/-- A bus never has more than one request over capacity. -/
theorem HoldsCapacity.length_le (h : b.HoldsCapacity) :
    b.ledger.entries.length ≤ b.ledger.capacity + 1 := by
  rcases h with hle | ⟨e, old, tick, -, hentries, hold⟩
  · omega
  · exact Nat.le_of_eq (length_of_full hentries hold)

/-- While no request is in hand there is none over capacity. -/
theorem HoldsCapacity.length_le_of_none (h : b.HoldsCapacity) (hnone : b.requestInHand? = none) :
    b.ledger.entries.length ≤ b.ledger.capacity := by
  rcases h with hle | ⟨e, old, tick, hhand, -, -⟩
  · exact hle
  · rw [hnone] at hhand
    cases hhand

/-- Entries go, or none does, and the same request stays in hand. -/
theorem HoldsCapacity.of_sublist (h : b.HoldsCapacity)
    (hentries : c.ledger.entries.Sublist b.ledger.entries)
    (hcapacity : c.ledger.capacity = b.ledger.capacity)
    (hhand : c.requestInHand? = b.requestInHand?) : c.HoldsCapacity := by
  by_cases hle : c.ledger.entries.length ≤ c.ledger.capacity
  · exact .inl hle
  · rcases h with hb | ⟨e, old, tick, hin, hold, hlength⟩
    · have hshorter := hentries.length_le
      omega
    · -- nothing can have gone
      have hall : c.ledger.entries = b.ledger.entries := by
        refine hentries.eq_of_length_le ?_
        have hfull := length_of_full hold hlength
        omega
      exact .inr ⟨e, old, tick, hhand.trans hin, hall.trans hold, hlength.trans hcapacity.symm⟩

/-- A request is staged while none is in hand. -/
theorem HoldsCapacity.of_staged {now : UInt32} (h : b.HoldsCapacity)
    (hidle : b.requestInHand? = none)
    (hentries : c.ledger.entries = b.ledger.entries ++ [e.msg.recordedAt now])
    (hcapacity : c.ledger.capacity = b.ledger.capacity) (hhand : c.requestInHand? = some e) :
    c.HoldsCapacity := by
  have hlength := h.length_le_of_none hidle
  by_cases hroom : b.ledger.entries.length < b.ledger.capacity
  · refine .inl ?_
    rw [hentries, List.length_append, List.length_singleton, hcapacity]
    exact hroom
  · refine .inr ⟨e, b.ledger.entries, now, hhand, hentries, ?_⟩
    omega

/-- A request in hand is withdrawn: it is there, if the ledger is over capacity. -/
theorem HoldsCapacity.length_withdraw_le (h : b.HoldsCapacity) (hhand : b.requestInHand? = some e) :
    (b.ledger.withdraw e.msg).1.entries.length ≤ b.ledger.capacity := by
  rw [Ledger.entries_withdraw]
  rcases h with hle | ⟨f, old, tick, hf, hentries, hold⟩
  · exact Nat.le_trans List.eraseP_sublist.length_le hle
  · obtain rfl : e = f := Option.some.inj (hhand.symm.trans hf)
    have hrequest : Ledger.isRequest e.msg (e.msg.recordedAt tick) = true := by
      simp [Ledger.isRequest, Message.recordedAt]
    have hmem : e.msg.recordedAt tick ∈ b.ledger.entries := by
      rw [hentries]
      exact List.mem_append_right _ (List.mem_singleton_self _)
    have hlength := length_of_full hentries hold
    have herased := List.length_eraseP_of_mem hmem hrequest
    omega

/-- **Every action keeps to the capacity.** -/
theorem HoldsCapacity.step (h : b.HoldsCapacity) (hstep : LedgerStep s i a b c evicted) :
    c.HoldsCapacity ∧ c.ledger.capacity = b.ledger.capacity := by
  cases hstep with
  | keeps hledger hhand =>
      refine ⟨h.of_sublist ?_ hledger.capacity hhand, hledger.capacity⟩
      rw [hledger.entries]
  | stages _ _ hidle hledger hhand =>
      exact ⟨h.of_staged hidle hledger.entries hledger.capacity hhand, hledger.capacity⟩
  | @settles m entry _ _ _ _ hledger hhand =>
      have hdrops := b.ledger.drops_extract m.answers
      have hcapacity := hledger.capacity.trans hdrops.capacity
      refine ⟨h.of_sublist ?_ hcapacity hhand, hcapacity⟩
      rw [hledger.entries]
      exact hdrops.kept
  | expires _ _ hledger hhand =>
      refine ⟨h.of_sublist ?_ hledger.capacity hhand, hledger.capacity⟩
      rw [hledger.entries]
      exact List.filter_sublist
  | @withdraws e _ hbefore _ hledger hhand =>
      have hdrops := b.ledger.drops_extract (Ledger.isRequest e.msg)
      have hcapacity := hledger.capacity.trans hdrops.capacity
      refine ⟨.inl ?_, hcapacity⟩
      rw [hledger.entries, hcapacity]
      exact h.length_withdraw_le hbefore
  | commits _ _ _ hledger hhand =>
      refine ⟨.inl ?_, hledger.capacity⟩
      rw [hledger.entries, hledger.capacity, Ledger.entries_commit, List.length_drop]
      have hcapacity : b.ledger.commit.1.capacity = b.ledger.capacity := rfl
      omega

/-- **Only a write that has succeeded evicts an entry**: the oldest, where the ledger is over
capacity, and not the request that has been written. -/
theorem HoldsCapacity.evicts (h : b.HoldsCapacity) (hpos : 0 < b.ledger.capacity)
    (hstep : LedgerStep s i a b c evicted) :
    evicted = [] ∨ ∃ e oldest kept tick, evicted = [oldest] ∧ s.ends? i a = some e ∧
      b.requestInHand? = some e ∧ b.delivers e = true ∧
        b.ledger.entries.length = b.ledger.capacity + 1 ∧
          b.ledger.entries = oldest :: (kept ++ [e.msg.recordedAt tick]) ∧
            c.ledger.entries = kept ++ [e.msg.recordedAt tick] := by
  cases hstep with
  | keeps | stages | settles | expires | withdraws => exact .inl rfl
  | @commits e hends hbefore hdelivers hledger _ =>
      have hdropped : b.ledger.commit.2 = b.ledger.entries.take b.ledger.excess := rfl
      rcases h with hle | ⟨f, old, tick, hf, hentries, hold⟩
      · left
        rw [hdropped, Ledger.excess, Nat.sub_eq_zero_of_le hle, List.take_zero]
      · right
        obtain rfl : e = f := Option.some.inj (hbefore.symm.trans hf)
        have hlength := length_of_full hentries hold
        have hexcess : b.ledger.excess = 1 := by
          rw [Ledger.excess, hlength, Nat.add_sub_cancel_left]
        obtain ⟨oldest, kept, rfl⟩ := List.exists_cons_of_length_pos (hold ▸ hpos)
        refine ⟨e, oldest, kept, tick, ?_, hends, hbefore, hdelivers, hlength, hentries, ?_⟩
        · rw [hdropped, hexcess, hentries]
          rfl
        · rw [hledger.entries, Ledger.entries_commit, ← Ledger.excess, hexcess, hentries]
          rfl

/-- A new bus has nothing pending. -/
theorem holdsCapacity_new (config : BusConfig) (link : Link) (timing : Timing) :
    (Bus.new config link timing).HoldsCapacity :=
  .inl (Nat.zero_le _)

end Bus

namespace Scheduler

variable {setup : Setup} {stack : Stack} {as : List Action} {i : Nat} {b : Bus}

/-- The ledger of each bus holds its capacity all the time, and that stays the same. -/
theorem holdsCapacity_after (hbuild : setup.build = .ok stack) (as : List Action) :
    ∀ b, ((atRest stack).after as).stack.buses[i]? = some b →
      b.HoldsCapacity ∧ b.ledger.capacity = max stack.timing.ledgerCapacity 1 := by
  refine after_induction (P := fun s => ∀ b, s.stack.buses[i]? = some b →
    b.HoldsCapacity ∧ b.ledger.capacity = max stack.timing.ledgerCapacity 1) ?_ ?_
  · intro b hb
    obtain ⟨config, link, rfl⟩ := Setup.exists_new_of_build hbuild hb
    exact ⟨Bus.holdsCapacity_new config link stack.timing, rfl⟩
  · intro s a _ hs c hc
    obtain ⟨b, evicted, hb, hstep⟩ := exists_ledgerStep hc
    obtain ⟨hholds, hcapacity⟩ := hs b hb
    obtain ⟨hholds', hcapacity'⟩ := hholds.step hstep
    exact ⟨hholds', hcapacity'.trans hcapacity⟩

/-- **A ledger holds as many requests as it has been configured for**, and at least one; while a
request is in hand it may hold one more. In whatever state of whatever run, the next action evicts
no entry for want of room, unless it ends a write of a request that succeeds, and the ledger is over
capacity. It then evicts one, the oldest, and keeps the others and the request that it has written.
Entries that go otherwise have been settled, are overdue, or are withdrawn. -/
theorem ledger_holds_capacity (hbuild : setup.build = .ok stack)
    (hb : ((atRest stack).after as).stack.buses[i]? = some b) :
    let s := (atRest stack).after as
    let capacity := max stack.timing.ledgerCapacity 1
    (b.requestInHand? = none → b.ledger.entries.length ≤ capacity) ∧
      b.ledger.entries.length ≤ capacity + 1 ∧
      ∀ a, ∃ c evicted, (s.perform a).stack.buses[i]? = some c ∧
        LedgerStep s.stack i a b c evicted ∧
        (evicted = [] ∨ ∃ e oldest kept tick, evicted = [oldest] ∧ s.stack.ends? i a = some e ∧
          b.requestInHand? = some e ∧ b.delivers e = true ∧
            b.ledger.entries.length = capacity + 1 ∧
              b.ledger.entries = oldest :: (kept ++ [e.msg.recordedAt tick]) ∧
                c.ledger.entries = kept ++ [e.msg.recordedAt tick]) := by
  intro s capacity
  obtain ⟨hholds, hcapacity⟩ : b.HoldsCapacity ∧ b.ledger.capacity = capacity :=
    holdsCapacity_after hbuild as b hb
  have hpos : 0 < b.ledger.capacity := by
    rw [hcapacity]
    exact Nat.le_max_right _ _
  refine ⟨?_, ?_, ?_⟩
  · intro hnone
    rw [← hcapacity]
    exact hholds.length_le_of_none hnone
  · rw [← hcapacity]
    exact hholds.length_le
  · intro a
    obtain ⟨c, evicted, hc, hstep⟩ := s.ledgerStep a hb
    have hevicts := hholds.evicts hpos hstep
    rw [hcapacity] at hevicts
    exact ⟨c, evicted, hc, hstep, hevicts⟩

/-- A ledger that is configured for no request at all. -/
def narrowTiming : Timing := { ledgerCapacity := 0 }

/-- Two requests are written one after the other, and the write of the second has begun. -/
def crowdedRun : List Action :=
  [.begin .sendRequest 0 { netFn := 0x06, cmd := 0x01 },
    .begin .sendRequest 0 { netFn := 0x06, cmd := 0x08 },
    .transmitBegin 0, .transmitEnd 0, .transmitBegin 0]

/-- The second request pushes the first one out. -/
theorem ledger_holds_capacity_crowded :
    let s := (atRest (bmcStack narrowTiming .absent)).after crowdedRun
    ∃ b, s.stack.buses[0]? = some b ∧ b.ledger.entries.map Message.cmd = [0x01, 0x08] ∧
      b.ledger.entries.length ≤ max narrowTiming.ledgerCapacity 1 + 1 ∧
      ∃ c evicted, (s.perform (.transmitEnd 0)).stack.buses[0]? = some c ∧
        LedgerStep s.stack 0 (.transmitEnd 0) b c evicted ∧ evicted.length ≤ 1 ∧
          c.ledger.entries.map Message.cmd = [0x08] := by
  intro s
  have hbefore : s.stack.buses[0]?.map (fun b => b.ledger.entries.map Message.cmd) =
      some [0x01, 0x08] := by decide +kernel
  have hafter : (s.perform (.transmitEnd 0)).stack.buses[0]?.map
      (fun c => c.ledger.entries.map Message.cmd) = some [0x08] := by decide +kernel
  obtain ⟨b, hb, hentries⟩ := Option.map_eq_some_iff.mp hbefore
  obtain ⟨-, hlength, hstep⟩ := ledger_holds_capacity (build_bmcStack narrowTiming .absent) hb
  obtain ⟨c, evicted, hc, hledger, hevicts⟩ := hstep (.transmitEnd 0)
  refine ⟨b, hb, hentries, hlength, c, evicted, hc, hledger, ?_, ?_⟩
  · rcases hevicts with rfl | ⟨e, oldest, kept, tick, rfl, -⟩
    · exact Nat.zero_le 1
    · exact Nat.le_refl 1
  · exact Option.some.inj ((congrArg _ hc).symm.trans hafter)

end Scheduler

end ManagementBus
