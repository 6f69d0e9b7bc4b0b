import ManagementBus.Proofs.Interleaving
import ManagementBus.Stack.Peer

/-!
# Stacks at rest

A stack that has been built is at rest: nothing is pending, nothing waits, no lock is taken.

## Main results

* `exists_build_iff_sorted`: a stack is built where the sorted table has every row in its place.
* `exists_new_of_build`: every bus of a stack that has been built is new.
* `build_bmcStack`, `build_pairStack`: tables of one row and of two rows are admissible.
-/

namespace ManagementBus

namespace Setup

variable {setup : Setup} {stack : Stack}

/-- There is nothing wrong with a row that is in its place and has addresses of seven bits. -/
theorem rowFault_eq_none_iff {config : BusConfig} {i : Nat} :
    rowFault config i = none ↔
      config.index = i ∧ config.selfAddr ≤ 0x7F ∧ config.targetAddr ≤ 0x7F := by
  rw [rowFault]
  by_cases hindex : config.index = i
  · rw [if_neg (not_not_intro hindex)]
    simp [hindex, ← UInt8.not_lt]
  · simp [hindex]

/-- A stack is built where every row of the sorted table is in its place. -/
theorem exists_build_iff_sorted :
    (∃ stack, setup.build = .ok stack) ↔
      setup.sortedRows ≠ [] ∧
        ∀ i row, setup.sortedRows[i]? = some row → rowFault row.config i = none := by
  simp only [build]
  split
  · next hempty => simp [List.isEmpty_iff.mp hempty]
  · next hrows =>
      rw [List.isEmpty_iff] at hrows
      split
      · next fault hfault =>
          obtain ⟨⟨row, i⟩, hmem, hrow⟩ := List.exists_of_findSome?_eq_some hfault
          simp only [reduceCtorEq, exists_false, false_iff, not_and]
          intro _ hplaces
          rw [hplaces i row (List.mem_zipIdx_iff_getElem?.mp hmem)] at hrow
          cases hrow
      · next hnone =>
          refine ⟨fun _ => ⟨hrows, fun i row hrow => ?_⟩, fun _ => ⟨_, rfl⟩⟩
          exact List.findSome?_eq_none_iff.mp hnone (row, i) (List.mem_zipIdx_iff_getElem?.mpr hrow)

/-- A table that is admissible gives a stack of new buses. -/
theorem eq_of_build (h : setup.build = .ok stack) :
    stack =
      { buses := setup.sortedRows.map fun row => Bus.new row.config row.link setup.timing
        requests := Queue.new setup.timing.requestLength
        kcs := setup.kcs
        clock := setup.clock
        timing := setup.timing
        policy := setup.policy
        dumping := setup.dumping } := by
  simp only [build] at h
  split at h
  · cases h
  · split at h
    · cases h
    · exact (Except.ok.inj h).symm

/-- **Every bus of a stack that has been built is new.** -/
theorem exists_new_of_build (h : setup.build = .ok stack) {i : Nat} {b : Bus}
    (hb : stack.buses[i]? = some b) :
    ∃ config link, b = Bus.new config link stack.timing := by
  obtain rfl := eq_of_build h
  obtain ⟨row, -, hrow⟩ := List.mem_map.mp (List.mem_of_getElem? hb)
  exact ⟨row.config, row.link, hrow.symm⟩

/-- Every row of a table that is admissible is in its place, with addresses of seven bits. -/
theorem rowFault_of_build (h : setup.build = .ok stack) {i : Nat} {b : Bus}
    (hb : stack.buses[i]? = some b) : rowFault b.config i = none := by
  have hbuses := congrArg Stack.buses (eq_of_build h)
  rw [hbuses, List.getElem?_map] at hb
  obtain ⟨row, hrow, rfl⟩ := Option.map_eq_some_iff.mp hb
  exact (exists_build_iff_sorted.mp ⟨stack, h⟩).2 i row hrow

/-- The other end of every bus of a stack that has been built has a seven-bit address. -/
theorem targetAddr_le_of_build (h : setup.build = .ok stack) {i : Nat} {b : Bus}
    (hb : stack.buses[i]? = some b) : b.config.targetAddr ≤ 0x7F :=
  (rowFault_eq_none_iff.mp (rowFault_of_build h hb)).2.2

end Setup

/-! ### One bus -/

/-- A bus to the baseboard management controller. -/
def bmcRow : BusRow where
  config := BusConfig.new 0 .bmcIpmb 1 0x10 0x20
  link := Link.pair 0x10 0x20

/-- The link of that bus when a response to its first request waits there. -/
def answeredLink : Link :=
  (Stack.peerWrite bmcRow.link
    { destAddr := 0x10, netFn := 0x07, srcAddr := 0x40, seq := 1, cmd := 0x01 }).1

/-- The stack of that bus alone, at rest. -/
def bmcStack (timing : Timing) (kcs : KcsSink) : Stack where
  buses := [Bus.new bmcRow.config bmcRow.link timing]
  requests := Queue.new timing.requestLength
  kcs
  clock := ⟨0⟩
  timing
  policy := .default
  dumping := false

/-- A table of one row gives the stack of one bus. -/
theorem build_bmcStack (timing : Timing) (kcs : KcsSink) :
    Setup.build { rows := [bmcRow], timing, kcs } = .ok (bmcStack timing kcs) := by
  have hrow : Setup.rowFault bmcRow.config 0 = none := by decide
  simp [Setup.build, Setup.sortedRows, hrow, bmcStack]

/-- The stack of one bus, at rest. -/
def soloStack (row : BusRow) (policy : Policy) : Stack where
  buses := [Bus.new row.config row.link {}]
  requests := Queue.new ({} : Timing).requestLength
  kcs := .absent
  clock := ⟨0⟩
  timing := {}
  policy
  dumping := false

/-- A table of one row in its place gives the stack of one bus. -/
theorem build_soloStack {row : BusRow} (policy : Policy)
    (hrow : Setup.rowFault row.config 0 = none) :
    Setup.build { rows := [row], policy } = .ok (soloStack row policy) := by
  simp [Setup.build, Setup.sortedRows, hrow, soloStack]

/-! ### Two buses -/

/-- A bus to an expansion board. -/
def expanderRow : BusRow where
  config := BusConfig.new 1 ⟨0x05⟩ 2 0x10 0x30
  link := Link.pair 0x10 0x30

/-- A bus to the management engine. -/
def engineRow : BusRow where
  config := BusConfig.new 1 .meIpmb 3 0x10 0x16
  link := Link.pair 0x10 0x16

/-- The link of a bus when its peer has written a message there. -/
def BusRow.hearing (row : BusRow) (m : Message) : Link :=
  (Stack.peerWrite row.link m).1

/-- The stack of two buses, at rest. -/
def pairStack (first second : BusRow) (timing : Timing) : Stack where
  buses := [Bus.new first.config first.link timing, Bus.new second.config second.link timing]
  requests := Queue.new timing.requestLength
  kcs := .absent
  clock := ⟨0⟩
  timing
  policy := .default
  dumping := false

/-- A table of two rows in their places gives the stack of two buses. -/
theorem build_pairStack {first second : BusRow} (timing : Timing)
    (hfirst : Setup.rowFault first.config 0 = none)
    (hsecond : Setup.rowFault second.config 1 = none) :
    Setup.build { rows := [first, second], timing } = .ok (pairStack first second timing) := by
  have hsorted : ([first, second].mergeSort fun a b => a.config.index ≤ b.config.index) =
      [first, second] := by
    refine List.mergeSort_of_pairwise ?_
    simp [(Setup.rowFault_eq_none_iff.mp hfirst).1, (Setup.rowFault_eq_none_iff.mp hsecond).1]
  simp [Setup.build, Setup.sortedRows, hsorted, hfirst, hsecond, pairStack]

end ManagementBus
