import Mathlib.Algebra.BigOperators.Group.List.Basic
import Mathlib.Data.List.Induction
import ManagementBus.Proofs.Building
import ManagementBus.Proofs.Recording

/-!
# Sweeps and true time

The clock of a stack has thirty-two bits, and a tick says when a request was recorded only up to a
multiple of 2^32 milliseconds. Beside the clock we count the *true time* of a run, which does not
wrap around. A tick is enough to tell the true age of a request as long as this age is less than
2^32, and sweeps see to that: what one sweep leaves is no older than the timeout, so that it cannot
grow past 2^32 before the next one, if this comes in less than 2^31 milliseconds.

`Scheduler.PendingSince` states since when a request has been pending. It is read off the states of
the run: the request was recorded at that moment and has been among the entries ever since.

## Main results

* `Ledger.isStale_iff`: a tick tells whether a request is overdue.
* `PendingSince.age_le`: the age of a request that is pending.
* `sweep_exact`: a sweep drops just the requests whose true age exceeds the timeout.
-/

namespace ManagementBus

/-! ### Ticks -/

/-- **A tick tells whether a request is overdue**, if its true age is less than 2^32. -/
theorem Ledger.isStale_iff {entry : Message} {moment now : Nat} {timeout : UInt32}
    (htick : entry.timestamp = UInt32.ofNat moment) (hle : moment ≤ now)
    (hage : now - moment < 2 ^ 32) (htimeout : timeout.toNat < 2 ^ 31) :
    isStale (UInt32.ofNat now) timeout entry = true ↔ timeout.toNat < now - moment := by
  have hticks : (UInt32.ofNat now - entry.timestamp).toNat = now - moment := by
    rw [htick, ← UInt32.ofNat_sub hle, UInt32.toNat_ofNat_of_lt' hage]
  simp only [isStale, Bool.or_eq_true, decide_eq_true_eq, UInt32.lt_iff_toNat_lt,
    UInt32.le_iff_toNat_le, hticks]
  have hsign : (0x80000000 : UInt32).toNat = 2 ^ 31 := rfl
  omega

/-! ### What one sweep leaves to the next -/

/-- Where nothing is stale an expiry changes nothing. -/
theorem Ledger.expire_eq_self {l : Ledger} {now timeout : UInt32}
    (h : (l.expire now timeout).2 = []) : l.expire now timeout = (l, []) := by
  have hnone : l.entries.filter (isStale now timeout) = [] :=
    (l.expire_snd now timeout).symm.trans h
  have hall : l.entries.filter (fun entry => !isStale now timeout entry) = l.entries := by
    rw [List.filter_eq_self]
    intro entry hentry
    simpa using List.filter_eq_nil_iff.mp hnone entry hentry
  simp only [expire, hnone, hall]
  rfl

namespace Bus

variable {now timeout : UInt32}

/-- A sweep does not change the row of a bus. -/
theorem config_sweptAt (b : Bus) : (b.sweptAt now timeout).config = b.config := by
  rw [sweptAt]
  split <;> rfl

/-- A sweep leaves nothing that is overdue. -/
theorem overdueAt_sweptAt (b : Bus) : (b.sweptAt now timeout).overdueAt now timeout = [] := by
  rw [overdueAt, config_sweptAt]
  split
  · next husable =>
      rw [sweptAt, if_pos husable, Ledger.expire_snd, Ledger.entries_expire, List.filter_filter,
        List.filter_eq_nil_iff]
      simp
  · rfl

/-- What a sweep of a bus leaves and what it drops are the requests that were pending. -/
theorem length_sweptAt_add (b : Bus) :
    (b.sweptAt now timeout).ledger.entries.length + (b.overdueAt now timeout).length =
      b.ledger.entries.length := by
  rw [sweptAt, overdueAt]
  split
  · rw [← List.length_append]
    exact (b.ledger.drops_expire now timeout).perm.length_eq
  · rfl

end Bus

namespace Stack

variable {s : Stack} {i : Nat}

/-- The sweep of a bus where nothing is overdue. -/
theorem sweepBus_eq_self (h : ∀ b, s.buses[i]? = some b →
    b.overdueAt s.clock.now s.timing.requestTimeoutTicks = []) : s.sweepBus i = (s, 0) := by
  rw [sweepBus]
  split
  · rfl
  · next b hbus =>
      obtain ⟨hb, husable⟩ := getElem?_of_usableBus hbus
      have hnone := h b hb
      rw [Bus.overdueAt, if_pos husable] at hnone
      rw [Ledger.expire_eq_self hnone]
      have hsame : s.onBus i (fun b' => { b' with ledger := b.ledger }) = s := by
        have hset := Replaces.of_onBus hb (f := fun b' => { b' with ledger := b.ledger })
        rw [Replaces] at hset
        rw [hset]
        obtain ⟨hlt, hget⟩ := List.getElem?_eq_some_iff.mp hb
        have hset' : s.buses.set i { b with ledger := b.ledger } = s.buses := by
          rw [← hget]
          exact List.set_getElem_self hlt
        rw [hset']
        rfl
      refine Prod.ext ?_ rfl
      simp only [hsame, Event.evictions, List.map_nil, report, List.append_nil]

/-- **A sweep that follows at once drops nothing.** -/
theorem sweep_sweep (s : Stack) : s.sweep.1.sweep = (s.sweep.1, 0) := by
  have hclock : s.sweep.1.clock = s.clock := by rw [s.sweep_eq.1]
  have htiming : s.sweep.1.timing = s.timing := by rw [s.sweep_eq.1]
  have hnone : ∀ (i : Nat) (b : Bus), s.sweep.1.buses[i]? = some b →
      b.overdueAt s.sweep.1.clock.now s.sweep.1.timing.requestTimeoutTicks = [] := by
    intro i c hc
    rw [hclock, htiming]
    rw [s.sweep_eq.1, List.getElem?_map] at hc
    obtain ⟨b, -, rfl⟩ := Option.map_eq_some_iff.mp hc
    exact b.overdueAt_sweptAt
  suffices h : ∀ k, s.sweep.1.sweepFirst k = (s.sweep.1, 0) from h _
  intro k
  induction k with
  | zero => rfl
  | succ k ih =>
      rw [sweepFirst_succ, ih, sweepBus_eq_self (hnone k)]
      rfl

/-- **A sweep says how many requests it has dropped.** -/
theorem length_sweep_add (s : Stack) :
    (s.sweep.1.buses.map fun b => b.ledger.entries.length).sum + s.sweep.2 =
      (s.buses.map fun b => b.ledger.entries.length).sum := by
  obtain ⟨hstack, hcount⟩ := s.sweep_eq
  rw [hcount, hstack, List.map_map, ← List.sum_map_add]
  exact congrArg List.sum (List.map_congr_left fun b _ => b.length_sweptAt_add)

end Stack

/-! ### The time of a run -/

/-- Whether an action is a sweep. -/
def Action.isSweep : Action → Bool
  | .sweep => true
  | _ => false

namespace Scheduler

open Stack

/-- The true time, in milliseconds, after a run that has begun at some time. -/
def trueTime (start : Nat) (as : List Action) : Nat :=
  start + (as.map fun a => a.elapsed.toNat).sum

/-- The true time that has passed in a run since its last sweep, or else since its beginning. -/
def sinceSweep (as : List Action) : Nat :=
  as.foldl (fun span a => if a.isSweep then 0 else span + a.elapsed.toNat) 0

/-- Every sweep of a run comes in less than a span of time after the sweep before, and the first one
after the beginning. -/
def SweepsWithin (span : Nat) (as : List Action) : Prop :=
  ∀ k, (h : k < as.length) → as[k].isSweep = true → sinceSweep (as.take k) < span

instance (span : Nat) (as : List Action) : Decidable (SweepsWithin span as) :=
  inferInstanceAs (Decidable (∀ k, (h : k < as.length) → as[k].isSweep = true →
    sinceSweep (as.take k) < span))

variable {s : Scheduler} {start span i : Nat} {as : List Action} {a : Action} {r : Message}
  {moment : Nat}

/-- The true time after one more action. -/
theorem trueTime_concat (start : Nat) (as : List Action) (a : Action) :
    trueTime start (as ++ [a]) = trueTime start as + a.elapsed.toNat := by
  rw [trueTime, trueTime, List.map_append, List.sum_append, Nat.add_assoc]
  rfl

/-- A sweep begins the span anew, and any other action adds its time. -/
theorem sinceSweep_concat (as : List Action) (a : Action) :
    sinceSweep (as ++ [a]) =
      if a.isSweep then 0 else sinceSweep as + a.elapsed.toNat := by
  rw [sinceSweep, List.foldl_append]
  rfl

/-- A shorter run is swept as often. -/
theorem SweepsWithin.of_concat (h : SweepsWithin span (as ++ [a])) : SweepsWithin span as := by
  intro k hk hsweep
  have hk' : k < (as ++ [a]).length := by
    rw [List.length_append]
    omega
  have hget : (as ++ [a])[k] = as[k] := List.getElem_append_left hk
  have hspan := h k hk' (by rw [hget, hsweep])
  rwa [List.take_append_of_le_length (Nat.le_of_lt hk)] at hspan

/-- At the time of a sweep less than the span has passed since the last one. -/
theorem SweepsWithin.sinceSweep_lt (h : SweepsWithin span (as ++ [.sweep])) :
    sinceSweep as < span := by
  have hlength : as.length < (as ++ [Action.sweep]).length := by
    rw [List.length_append, List.length_singleton]
    exact Nat.lt_succ_self _
  have hspan := h as.length hlength (by rw [List.getElem_concat_length rfl]; rfl)
  rwa [List.take_left] at hspan

/-- **The clock has the low thirty-two bits of the true time.** -/
theorem clock_after (hclock : s.stack.clock.now = UInt32.ofNat start) (as : List Action) :
    (s.after as).stack.clock.now = UInt32.ofNat (trueTime start as) := by
  induction as using List.reverseRecOn with
  | nil => exact hclock
  | append_singleton as a ih =>
      have hperform : ((s.after as).perform a).stack.clock =
          ((s.after as).stack.clock.advance a.elapsed) := ((s.after as).tells_perform a).clock
      rw [after_concat, hperform, Clock.advance, ih, trueTime_concat, UInt32.ofNat_add,
        UInt32.ofNat_toNat]

/-- No run changes the settings of the stack. -/
theorem timing_after (s : Scheduler) (as : List Action) :
    (s.after as).stack.timing = s.stack.timing :=
  after_induction (P := fun t => t.stack.timing = s.stack.timing) rfl
    fun t a _ ht => Eq.trans (t.tells_perform a).timing ht

/-! ### Since when a request is pending -/

/-- A request has been pending on a bus since a moment of true time: a worker has recorded it then,
and it has been among the entries after every action since. -/
inductive PendingSince (s : Scheduler) (start i : Nat) : List Action → Message → Nat → Prop
  | recorded {as : List Action} {r : Message}
      (h : (s.after (as ++ [.transmitBegin i])).stack.pendingOn i =
        (s.after as).stack.pendingOn i ++ [r]) :
      PendingSince s start i (as ++ [.transmitBegin i]) r (trueTime start as)
  | still {as : List Action} {r : Message} {moment : Nat} (a : Action)
      (h : PendingSince s start i as r moment)
      (hpending : r ∈ (s.after (as ++ [a])).stack.pendingOn i) :
      PendingSince s start i (as ++ [a]) r moment

variable {setup : Setup} {stack : Stack} {config : BusConfig} {b : Bus}

/-- What has been pending since a moment is pending. -/
theorem PendingSince.mem (h : PendingSince s start i as r moment) :
    r ∈ (s.after as).stack.pendingOn i := by
  cases h with
  | recorded h =>
      rw [h]
      exact List.mem_append_right _ (List.mem_singleton_self _)
  | still _ _ hpending => exact hpending

/-- What an action does to the requests that are pending on a bus. -/
theorem pendingOn_perform (s : Scheduler) (a : Action) (i : Nat) :
    ((s.perform a).stack.pendingOn i).Sublist (s.stack.pendingOn i) ∨
      a = .transmitBegin i ∧ ∃ m : Message, (s.perform a).stack.pendingOn i =
        s.stack.pendingOn i ++ [m.recordedAt s.stack.clock.now] := by
  cases hc : (s.perform a).stack.buses[i]? with
  | none =>
      left
      rw [pendingOn, hc]
      exact List.nil_sublist _
  | some c =>
      obtain ⟨b, evicted, hb, hstep⟩ := exists_ledgerStep hc
      rw [pendingOn_eq hc, pendingOn_eq hb]
      rcases hstep.entries_cases with hkept | ⟨e, htakes, -, hentries⟩
      · exact .inl hkept
      · exact .inr ⟨(eq_transmitBegin_of_takes? htakes).1, _, hentries⟩

/-- **Every pending request has been pending since some moment.** -/
theorem exists_pendingSince (hbuild : setup.build = .ok stack) (start i : Nat) (as : List Action) :
    ∀ r ∈ ((atRest stack).after as).stack.pendingOn i,
      ∃ moment, PendingSince (atRest stack) start i as r moment := by
  induction as using List.reverseRecOn with
  | nil =>
      intro r hr
      rw [after_nil, pendingOn] at hr
      cases hb : stack.buses[i]? with
      | none =>
          simp [atRest, hb] at hr
      | some b =>
          obtain ⟨config, link, rfl⟩ := Setup.exists_new_of_build hbuild hb
          simp [atRest, hb, Bus.new] at hr
  | append_singleton as a ih =>
      intro r hr
      have hr' := hr
      rw [after_concat] at hr'
      rcases pendingOn_perform ((atRest stack).after as) a i with hkept | ⟨rfl, m, hentries⟩
      · obtain ⟨moment, hmoment⟩ := ih r (hkept.subset hr')
        exact ⟨moment, hmoment.still a hr⟩
      · rw [hentries] at hr'
        rcases List.mem_append.mp hr' with hold | hnew
        · obtain ⟨moment, hmoment⟩ := ih r hold
          exact ⟨moment, hmoment.still _ hr⟩
        · obtain rfl := List.mem_singleton.mp hnew
          refine ⟨_, .recorded ?_⟩
          rw [after_concat]
          exact hentries

/-- The requests pending on a usable bus after a sweep are not overdue. -/
theorem not_isStale_of_mem_sweep (hconfig : s.stack.busConfig i = some config)
    (husable : config.isUsable = true) (h : r ∈ (s.perform .sweep).stack.pendingOn i) :
    ¬Ledger.isStale s.stack.clock.now s.stack.timing.requestTimeoutTicks r = true := by
  obtain ⟨b, hb, rfl⟩ := Option.map_eq_some_iff.mp hconfig
  have hswept : (s.perform .sweep).stack.buses[i]? = _ := getElem?_sweep hb
  rw [pendingOn_eq hswept, Bus.sweptAt, if_pos husable, Ledger.entries_expire, List.mem_filter] at h
  simpa using h.2

/-- **A request that is pending has the tick of its moment, and it is not older than the timeout and
the time since the last sweep allow**, if the sweeps have not been too far apart. -/
theorem PendingSince.age_le (hclock : s.stack.clock.now = UInt32.ofNat start)
    (htimeout : s.stack.timing.requestTimeoutTicks.toNat < 2 ^ 31)
    (hconfig : s.stack.busConfig i = some config) (husable : config.isUsable = true)
    (h : PendingSince s start i as r moment) (hsweeps : SweepsWithin (2 ^ 31) as) :
    r.timestamp = UInt32.ofNat moment ∧ moment ≤ trueTime start as ∧
      trueTime start as ≤ moment + s.stack.timing.requestTimeoutTicks.toNat + sinceSweep as := by
  induction h with
  | @recorded as r h =>
      -- The moment of the record is now.
      have hnow : trueTime start (as ++ [.transmitBegin i]) = trueTime start as :=
        trueTime_concat start as _
      rw [hnow]
      refine ⟨?_, Nat.le_refl _, by omega⟩
      rw [after_concat] at h
      rcases pendingOn_perform (s.after as) (.transmitBegin i) i with hkept | ⟨-, m, hentries⟩
      · have hlength := hkept.length_le
        rw [h, List.length_append, List.length_singleton] at hlength
        omega
      · obtain rfl : r = m.recordedAt (s.after as).stack.clock.now := by
          rw [h] at hentries
          exact List.singleton_inj.mp (List.append_cancel_left hentries)
        exact clock_after hclock as
  | @still as r moment a h hpending ih =>
      obtain ⟨htick, hle, hage⟩ := ih hsweeps.of_concat
      rw [trueTime_concat, sinceSweep_concat]
      refine ⟨htick, by omega, ?_⟩
      by_cases hsweep : a.isSweep = true
      · -- the request has survived a sweep, so it is no older than the timeout
        obtain rfl : a = .sweep := by
          cases a with
          | sweep => rfl
          | _ => cases hsweep
        have hspan := hsweeps.sinceSweep_lt
        rw [after_concat] at hpending
        have hfresh := not_isStale_of_mem_sweep
          ((s.busConfig_after as i).trans hconfig) husable hpending
        rw [clock_after hclock, timing_after,
          Ledger.isStale_iff htick hle (by omega) htimeout] at hfresh
        have helapsed : (Action.elapsed .sweep).toNat = 0 := rfl
        rw [if_pos hsweep]
        omega
      · rw [if_neg hsweep]
        omega

/-! ### A sweep -/

/-- A request that is pending when a sweep comes is stale just if its true age exceeds the
timeout. -/
theorem PendingSince.isStale_iff (hclock : s.stack.clock.now = UInt32.ofNat start)
    (htimeout : s.stack.timing.requestTimeoutTicks.toNat < 2 ^ 31)
    (hconfig : s.stack.busConfig i = some config) (husable : config.isUsable = true)
    (hsweeps : SweepsWithin (2 ^ 31) (as ++ [.sweep])) (h : PendingSince s start i as r moment) :
    Ledger.isStale (s.after as).stack.clock.now (s.after as).stack.timing.requestTimeoutTicks r =
        true ↔
      moment + s.stack.timing.requestTimeoutTicks.toNat < trueTime start as := by
  obtain ⟨htick, hle, hage⟩ := h.age_le hclock htimeout hconfig husable hsweeps.of_concat
  have hspan := hsweeps.sinceSweep_lt
  rw [clock_after hclock, timing_after, Ledger.isStale_iff htick hle (by omega) htimeout]
  omega

/-- **A sweep is exact**, however often the clock has wrapped around. Let the clock have the low
bits of a true time, and let less than 2^31 milliseconds pass from sweep to sweep, the timeout being
below that. The requests pending on a usable bus when a sweep comes are those that have been pending
since some moment. The sweep drops those whose age exceeds the timeout, keeps the others in order,
and makes free just the numbers of those dropped; where the entries have different numbers those
kept stay in flight. It says how many requests it has dropped, and another one at the same tick
would drop nothing. -/
theorem sweep_exact (hbuild : setup.build = .ok stack) {start : Nat}
    (hclock : stack.clock.now = UInt32.ofNat start)
    (htimeout : stack.timing.requestTimeoutTicks.toNat < 2 ^ 31) {as : List Action}
    (hsweeps : SweepsWithin (2 ^ 31) (as ++ [.sweep])) :
    let s := ((atRest stack).after as).stack
    let now := trueTime start as
    let timeout := stack.timing.requestTimeoutTicks.toNat
    (∀ i b, s.buses[i]? = some b → b.config.isUsable = true →
      (∀ r, r ∈ b.ledger.entries ↔ ∃ moment, PendingSince (atRest stack) start i as r moment) ∧
        ∃ c, ∃ overdue : Message → Bool, s.sweep.1.buses[i]? = some c ∧
          (∀ r moment, PendingSince (atRest stack) start i as r moment →
            (overdue r = true ↔ moment + timeout < now)) ∧
          c.ledger.entries = b.ledger.entries.filter (fun r => !overdue r) ∧
          (∀ n, c.ledger.numbers.isBusy n = true ↔ b.ledger.numbers.isBusy n = true ∧
            ∀ r ∈ b.ledger.entries, overdue r = true → Ledger.slot r ≠ n) ∧
          ((b.ledger.entries.map Ledger.slot).Nodup → ∀ r ∈ c.ledger.entries,
            c.ledger.numbers.isBusy (Ledger.slot r) =
              b.ledger.numbers.isBusy (Ledger.slot r))) ∧
      (s.sweep.1.buses.map fun b => b.ledger.entries.length).sum + s.sweep.2 =
        (s.buses.map fun b => b.ledger.entries.length).sum ∧
      s.sweep.1.sweep = (s.sweep.1, 0) := by
  intro s now timeout
  refine ⟨?_, s.length_sweep_add, s.sweep_sweep⟩
  intro i b hb husable
  have hconfig : (atRest stack).stack.busConfig i = some b.config := by
    rw [← busConfig_after (atRest stack) as i]
    exact busConfig_eq hb
  have hpending : ((atRest stack).after as).stack.pendingOn i = b.ledger.entries := pendingOn_eq hb
  have hdrops := b.ledger.drops_expire s.clock.now s.timing.requestTimeoutTicks
  have hswept : b.sweptAt s.clock.now s.timing.requestTimeoutTicks =
      { b with ledger := (b.ledger.expire s.clock.now s.timing.requestTimeoutTicks).1 } :=
    if_pos husable
  refine ⟨?_, _, Ledger.isStale s.clock.now s.timing.requestTimeoutTicks,
    (getElem?_sweep hb).trans (congrArg some hswept), ?_, rfl, ?_, ?_⟩
  · intro r
    rw [← hpending]
    refine ⟨exists_pendingSince hbuild start i as r, ?_⟩
    rintro ⟨moment, hr⟩
    exact hr.mem
  · intro r moment hr
    exact hr.isStale_iff hclock htimeout hconfig husable hsweeps
  · intro n
    rw [hdrops.busy]
    have hoverdue : (∀ r ∈ (b.ledger.expire s.clock.now s.timing.requestTimeoutTicks).2,
        Ledger.slot r ≠ n) ↔ ∀ r ∈ b.ledger.entries,
          Ledger.isStale s.clock.now s.timing.requestTimeoutTicks r = true →
            Ledger.slot r ≠ n := List.forall_mem_filter
    rw [hoverdue]
  · intro hnodup r hr
    refine Bool.eq_iff_iff.mpr ((hdrops.busy _).trans ⟨And.left, ?_⟩)
    intro hbusy
    exact ⟨hbusy, hdrops.slot_ne hnodup hr⟩

/-- The clock is swept up to its highest ticks; a request is recorded just before it wraps around,
and another one after that. -/
def wrappingRun : List Action :=
  [.advance 0x7FFFFFFF, .sweep, .advance 0x7FFFFFFF, .sweep,
    .begin .sendRequest 0 { netFn := 0x06, cmd := 0x01 }, .transmitBegin 0, .transmitEnd 0,
    .advance 600,
    .begin .sendRequest 0 { netFn := 0x06, cmd := 0x08 }, .transmitBegin 0, .transmitEnd 0,
    .advance 500]

/-- The first request is overdue, though its tick is the higher one. -/
theorem sweep_exact_wrapping :
    let s := ((atRest (bmcStack {} .absent)).after wrappingRun).stack
    SweepsWithin (2 ^ 31) (wrappingRun ++ [.sweep]) ∧
      s.clock.now = 1098 ∧ trueTime (7 * 2 ^ 32) wrappingRun = 8 * 2 ^ 32 + 1098 ∧
      (∃ b c, ∃ overdue : Message → Bool, s.buses[0]? = some b ∧ s.sweep.1.buses[0]? = some c ∧
        b.ledger.entries.map (fun r => (r.cmd, r.timestamp)) = [(0x01, 0xFFFFFFFE), (0x08, 598)] ∧
        c.ledger.entries.map Message.cmd = [0x08] ∧
        c.ledger.entries = b.ledger.entries.filter (fun r => !overdue r) ∧
        (∀ r ∈ b.ledger.entries, ∃ moment,
          PendingSince (atRest (bmcStack {} .absent)) (7 * 2 ^ 32) 0 wrappingRun r moment ∧
            (overdue r = true ↔ moment + 1000 < 8 * 2 ^ 32 + 1098)) ∧
        ∀ r ∈ c.ledger.entries, c.ledger.numbers.isBusy (Ledger.slot r) =
          b.ledger.numbers.isBusy (Ledger.slot r)) ∧
      s.sweep.2 = 1 ∧ s.sweep.1.sweep = (s.sweep.1, 0) := by
  intro s
  have hsweeps : SweepsWithin (2 ^ 31) (wrappingRun ++ [.sweep]) := by decide +kernel
  have hnow : trueTime (7 * 2 ^ 32) wrappingRun = 8 * 2 ^ 32 + 1098 := by decide +kernel
  have hbefore : s.buses[0]?.map (fun b =>
      b.ledger.entries.map fun r => (r.cmd, r.timestamp)) =
        some [(0x01, 0xFFFFFFFE), (0x08, 598)] := by decide +kernel
  have hslots : s.buses[0]?.map (fun b => decide (b.ledger.entries.map Ledger.slot).Nodup) =
      some true := by decide +kernel
  have husable : s.buses[0]?.map (fun b => b.config.isUsable) = some true := by decide +kernel
  have hafter : s.sweep.1.buses[0]?.map (fun c => c.ledger.entries.map Message.cmd) =
      some [0x08] := by decide +kernel
  obtain ⟨b, hb, hentries⟩ := Option.map_eq_some_iff.mp hbefore
  rw [hb] at hslots husable
  have hnodup : (b.ledger.entries.map Ledger.slot).Nodup :=
    of_decide_eq_true (Option.some.inj hslots)
  have hclock : (bmcStack {} .absent).clock.now = UInt32.ofNat (7 * 2 ^ 32) := by decide +kernel
  have htimeout : (bmcStack {} .absent).timing.requestTimeoutTicks.toNat < 2 ^ 31 := by
    decide +kernel
  obtain ⟨hbuses, -, hagain⟩ :=
    sweep_exact (build_bmcStack {} .absent) hclock htimeout hsweeps
  obtain ⟨hmoments, c, overdue, hc, hoverdue, hkept, -, hbusy⟩ :=
    hbuses 0 b hb (Option.some.inj husable)
  rw [hc] at hafter
  refine ⟨hsweeps, by decide +kernel, hnow, ⟨b, c, overdue, hb, hc, hentries,
    Option.some.inj hafter, hkept, ?_, hbusy hnodup⟩, by decide +kernel, hagain⟩
  intro r hr
  obtain ⟨moment, hmoment⟩ := (hmoments r).mp hr
  have hiff := hoverdue r moment hmoment
  rw [hnow] at hiff
  exact ⟨moment, hmoment, hiff⟩

end Scheduler

end ManagementBus
