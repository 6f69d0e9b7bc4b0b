import Mathlib.Order.Bounds.Defs
import ManagementBus.Proofs.Routing

/-!
# Tables in any order

The rows of a bus table may be given in any order. They are sorted by their indices and each is then
compared with its place, which comes to this: the indices are the positions from zero on, each once.
Of such a table there is only one sorted form, so that the order in which the rows were given leaves
no trace in the stack.

The channels of the rows may repeat. A map from channels to buses is made by entering the usable
rows in their order, where a channel that is there already keeps its bus. The stack searches its
buses instead, and finds the same: the usable bus of least index that serves the channel. The rows
do not change while the stack runs, and so neither does what is found.

## Main results

* `exists_build_iff`: which tables are admissible.
* `IsAdmissible.sortedRows_eq`: an admissible table has one sorted form.
* `busFor_eq_some_iff`: the bus of a channel is the least that serves it.
* `busFor_eq_lookup`: the search agrees with the map.
* `build_in_any_order`: what may be relied on when a stack is built.
-/

namespace ManagementBus.Setup

variable {setup : Setup} {stack : Stack} {rows : List BusRow} {row : BusRow} {channel : Channel}
  {i : Nat}

/-! ### Admissible tables -/

/-- What a bus table has to be: it has rows, their indices are the positions from zero on, each
once, and addresses have seven bits. -/
structure IsAdmissible (rows : List BusRow) : Prop where
  nonempty : rows ≠ []
  indices : (rows.map fun row => row.config.index).Perm (List.range rows.length)
  narrow : ∀ row ∈ rows, row.config.selfAddr ≤ 0x7F ∧ row.config.targetAddr ≤ 0x7F

/-! ### The sorted table -/

/-- Sorting keeps the rows, each as often as it is given. -/
theorem sortedRows_perm (setup : Setup) : setup.sortedRows.Perm setup.rows :=
  List.mergeSort_perm _ _

/-- The sorted rows are in the order of their indices. -/
theorem pairwise_sortedRows (setup : Setup) :
    setup.sortedRows.Pairwise fun a b => a.config.index ≤ b.config.index := by
  have htrans : ∀ a b c : BusRow, decide (a.config.index ≤ b.config.index) = true →
      decide (b.config.index ≤ c.config.index) = true →
      decide (a.config.index ≤ c.config.index) = true := by
    simp only [decide_eq_true_eq]
    exact fun a b c => Nat.le_trans
  have htotal : ∀ a b : BusRow, (decide (a.config.index ≤ b.config.index) ||
      decide (b.config.index ≤ a.config.index)) = true := by
    simpa using fun a b : BusRow => Nat.le_total a.config.index b.config.index
  exact (List.pairwise_mergeSort htrans htotal setup.rows).imp of_decide_eq_true

/-- A list of rows has the positions as its indices just if every row is in its place. -/
theorem map_index_eq_range_iff :
    rows.map (fun row => row.config.index) = List.range rows.length ↔
      ∀ (i : Nat) (row : BusRow), rows[i]? = some row → row.config.index = i := by
  constructor
  · intro h i row hrow
    obtain ⟨hlt, rfl⟩ := List.getElem?_eq_some_iff.mp hrow
    have hget := congrArg (·[i]?) h
    simpa [hlt] using hget
  · intro h
    refine List.ext_getElem (by simp) fun i hi _ => ?_
    rw [List.length_map] at hi
    rw [List.getElem_map, List.getElem_range]
    exact h i _ (List.getElem?_eq_getElem hi)

/-- **Sorting puts every row of a table in its place just if the indices are the positions, each
once.** -/
theorem map_index_sortedRows_iff :
    setup.sortedRows.map (fun row => row.config.index) = List.range setup.sortedRows.length ↔
      (setup.rows.map fun row => row.config.index).Perm (List.range setup.rows.length) := by
  have hlength : setup.sortedRows.length = setup.rows.length := setup.sortedRows_perm.length_eq
  have hperm := setup.sortedRows_perm.map fun row => row.config.index
  rw [hlength]
  constructor
  · intro h
    rw [← h]
    exact hperm.symm
  · intro h
    refine (hperm.trans h).eq_of_pairwise (fun a b _ _ => Nat.le_antisymm) ?_ List.pairwise_le_range
    exact List.pairwise_map.mpr setup.pairwise_sortedRows

/-- **Which tables are admissible.** -/
theorem exists_build_iff : (∃ stack, setup.build = .ok stack) ↔ IsAdmissible setup.rows := by
  have hempty : setup.sortedRows = [] ↔ setup.rows = [] := by
    rw [← List.length_eq_zero_iff, setup.sortedRows_perm.length_eq, List.length_eq_zero_iff]
  simp only [exists_build_iff_sorted, rowFault_eq_none_iff]
  constructor
  · rintro ⟨hrows, hplaces⟩
    refine ⟨fun h => hrows (hempty.mpr h), ?_, fun row hrow => ?_⟩
    · rw [← map_index_sortedRows_iff, map_index_eq_range_iff]
      exact fun i row hrow => (hplaces i row hrow).1
    · obtain ⟨i, hi⟩ := List.getElem?_of_mem (setup.sortedRows_perm.mem_iff.mpr hrow)
      exact (hplaces i row hi).2
  · rintro ⟨hrows, hindices, hnarrow⟩
    rw [← map_index_sortedRows_iff, map_index_eq_range_iff] at hindices
    refine ⟨fun h => hrows (hempty.mp h), fun i row hrow => ⟨hindices i row hrow, ?_⟩⟩
    exact hnarrow row (setup.sortedRows_perm.mem_iff.mp (List.mem_of_getElem? hrow))

/-- Every row of an admissible table stands in the sorted table at its index. -/
theorem IsAdmissible.getElem?_sortedRows (h : IsAdmissible setup.rows) (hrow : row ∈ setup.rows) :
    setup.sortedRows[row.config.index]? = some row := by
  obtain ⟨i, hi⟩ := List.getElem?_of_mem (setup.sortedRows_perm.mem_iff.mpr hrow)
  have hplaces := map_index_eq_range_iff.mp (map_index_sortedRows_iff.mpr h.indices)
  rwa [hplaces i row hi]

/-- **An admissible table has one sorted form**, in whatever order its rows are given. -/
theorem IsAdmissible.sortedRows_eq (h : IsAdmissible setup.rows) (hperm : rows.Perm setup.rows) :
    ({ setup with rows } : Setup).sortedRows = setup.sortedRows := by
  have hsame : ({ setup with rows } : Setup).sortedRows.Perm setup.sortedRows :=
    (sortedRows_perm _).trans (hperm.trans setup.sortedRows_perm.symm)
  refine hsame.eq_of_pairwise (fun a b ha hb hab hba => ?_) (pairwise_sortedRows _)
    setup.pairwise_sortedRows
  have hmem : ∀ {c}, c ∈ setup.sortedRows → setup.sortedRows[c.config.index]? = some c :=
    fun hc => h.getElem?_sortedRows (setup.sortedRows_perm.mem_iff.mp hc)
  have ha' := hmem (hsame.mem_iff.mp ha)
  rw [Nat.le_antisymm hab hba, hmem hb] at ha'
  exact (Option.some.inj ha').symm

/-- Whether rows are admissible does not depend on their order. -/
theorem IsAdmissible.of_perm (h : IsAdmissible setup.rows) (hperm : rows.Perm setup.rows) :
    IsAdmissible rows where
  nonempty := fun hnil => h.nonempty (List.nil_perm.mp (hnil ▸ hperm))
  indices := by
    rw [hperm.length_eq]
    exact (hperm.map _).trans h.indices
  narrow := fun row hrow => h.narrow row (hperm.mem_iff.mp hrow)

/-- **The order in which the rows are given leaves no trace in the stack**, and does not decide
whether there is one. -/
theorem toOption_build_of_perm (hperm : rows.Perm setup.rows) :
    ({ setup with rows } : Setup).build.toOption = setup.build.toOption := by
  by_cases h : IsAdmissible setup.rows
  · obtain ⟨stack, hstack⟩ := exists_build_iff.mpr h
    obtain ⟨other, hother⟩ : ∃ stack, ({ setup with rows } : Setup).build = .ok stack :=
      exists_build_iff.mpr (h.of_perm hperm)
    rw [hstack, hother, eq_of_build hstack, eq_of_build hother, h.sortedRows_eq hperm]
  · have hfails : ∀ {setup : Setup}, ¬IsAdmissible setup.rows → setup.build.toOption = none := by
      intro setup h
      cases hbuild : setup.build with
      | error fault => rfl
      | ok stack => exact absurd (exists_build_iff.mp ⟨stack, hbuild⟩) h
    rw [hfails h, hfails fun hrows => h (hrows.of_perm hperm.symm)]

/-! ### The bus of a channel -/

/-- The rows of a stack are those of the sorted table. -/
theorem getElem?_of_build (h : setup.build = .ok stack) (i : Nat) :
    stack.buses[i]? =
      setup.sortedRows[i]?.map fun row => Bus.new row.config row.link setup.timing := by
  have hbuses := congrArg Stack.buses (eq_of_build h)
  rw [hbuses, List.getElem?_map]

/-- A row of the table with an index carries the traffic of a channel. -/
def Carries (rows : List BusRow) (channel : Channel) (i : Nat) : Prop :=
  ∃ row ∈ rows, row.config.index = i ∧ row.config.enabled = true ∧
    row.config.interface ≠ .reserved ∧ row.config.channel = channel

/-- What it takes for a bus to serve a channel. -/
theorem serves_iff {config : BusConfig} :
    config.serves channel = true ↔
      config.enabled = true ∧ config.interface ≠ .reserved ∧ config.channel = channel := by
  simp [BusConfig.serves, BusConfig.isUsable, and_assoc]

/-- The places of the sorted table that serve a channel are the indices of the rows that do. -/
theorem IsAdmissible.carries_iff (h : IsAdmissible setup.rows) :
    Carries setup.rows channel i ↔
      ∃ row, setup.sortedRows[i]? = some row ∧ row.config.serves channel = true := by
  simp only [serves_iff]
  constructor
  · rintro ⟨row, hrow, rfl, hserves⟩
    exact ⟨row, h.getElem?_sortedRows hrow, hserves⟩
  · rintro ⟨row, hrow, hserves⟩
    have hplaces := map_index_eq_range_iff.mp (map_index_sortedRows_iff.mpr h.indices)
    exact ⟨row, setup.sortedRows_perm.mem_iff.mp (List.mem_of_getElem? hrow), hplaces i row hrow,
      hserves⟩

/-- The bus for a channel is the first that serves it, in the order of the indices. -/
theorem busFor_of_build (h : setup.build = .ok stack) (channel : Channel) :
    stack.busFor channel = setup.sortedRows.findIdx? fun row => row.config.serves channel := by
  rw [Stack.busFor, congrArg Stack.buses (eq_of_build h), List.findIdx?_map]
  rfl

/-- **The bus of a channel is the least that serves it.** -/
theorem busFor_eq_some_iff (h : setup.build = .ok stack) :
    stack.busFor channel = some i ↔ IsLeast {k | Carries setup.rows channel k} i := by
  have hadmissible : IsAdmissible setup.rows := exists_build_iff.mp ⟨stack, h⟩
  rw [busFor_of_build h, List.findIdx?_eq_some_iff_getElem]
  constructor
  · rintro ⟨hlt, hserves, hearlier⟩
    refine ⟨hadmissible.carries_iff.mpr ⟨_, List.getElem?_eq_getElem hlt, hserves⟩, ?_⟩
    intro k hk
    obtain ⟨row, hrow, hkServes⟩ := hadmissible.carries_iff.mp hk
    obtain ⟨_, rfl⟩ := List.getElem?_eq_some_iff.mp hrow
    exact Nat.le_of_not_lt fun hki => hearlier k hki hkServes
  · rintro ⟨hcarries, hleast⟩
    obtain ⟨row, hrow, hserves⟩ := hadmissible.carries_iff.mp hcarries
    obtain ⟨hlt, rfl⟩ := List.getElem?_eq_some_iff.mp hrow
    refine ⟨hlt, hserves, fun k hki hkServes => ?_⟩
    have hk : Carries setup.rows channel k :=
      hadmissible.carries_iff.mpr ⟨_, List.getElem?_eq_getElem (Nat.lt_trans hki hlt), hkServes⟩
    exact Nat.not_le.mpr hki (hleast hk)

/-- No bus is found for a channel just if none serves it. -/
theorem busFor_eq_none_iff (h : setup.build = .ok stack) :
    stack.busFor channel = none ↔ ∀ i, ¬Carries setup.rows channel i := by
  have hadmissible : IsAdmissible setup.rows := exists_build_iff.mp ⟨stack, h⟩
  rw [busFor_of_build h, List.findIdx?_eq_none_iff]
  constructor
  · intro hnone i hcarries
    obtain ⟨row, hrow, hserves⟩ := hadmissible.carries_iff.mp hcarries
    exact Bool.noConfusion ((hnone row (List.mem_of_getElem? hrow)).symm.trans hserves)
  · intro hnone row hrow
    obtain ⟨i, hi⟩ := List.getElem?_of_mem hrow
    exact eq_false_of_ne_true fun hserves =>
      hnone i (hadmissible.carries_iff.mpr ⟨row, hi, hserves⟩)

/-! ### The map from channels to buses -/

/-- Enters a row into a map from channels to buses, unless its channel is there. -/
def enter (map : List (Channel × Nat)) (row : BusRow) : List (Channel × Nat) :=
  if (map.lookup row.config.channel).isSome then map
  else map ++ [(row.config.channel, row.config.index)]

/-- The map from channels to buses: the usable rows of the sorted table are entered one by one. -/
def channelMap (setup : Setup) : List (Channel × Nat) :=
  (setup.sortedRows.filter fun row => row.config.isUsable).foldl enter []

/-- Only the channel of the row is entered, and only if it is not there. -/
theorem lookup_enter (map : List (Channel × Nat)) (row : BusRow) (channel : Channel) :
    (enter map row).lookup channel =
      (map.lookup channel).or
        (if row.config.channel = channel then some row.config.index else none) := by
  rw [enter]
  by_cases hsame : row.config.channel = channel
  · obtain rfl := hsame
    cases hthere : map.lookup row.config.channel with
    | none => simp [List.lookup_append, hthere]
    | some i => simp [hthere]
  · have hother : (channel == row.config.channel) = false := by
      simpa using fun h => hsame h.symm
    rw [if_neg hsame, Option.or_none]
    split
    · rfl
    · simp [List.lookup_append, List.lookup_cons, hother]

/-- **A channel keeps the bus with which it has been entered first.** -/
theorem lookup_foldl_enter (map : List (Channel × Nat)) (rows : List BusRow) (channel : Channel) :
    (rows.foldl enter map).lookup channel =
      (map.lookup channel).or
        ((rows.find? fun row => row.config.channel = channel).map fun row => row.config.index) := by
  induction rows generalizing map with
  | nil => simp
  | cons row rows ih =>
      rw [List.foldl_cons, ih, lookup_enter, Option.or_assoc, List.find?_cons]
      by_cases hsame : row.config.channel = channel
      · simp [hsame]
      · simp [hsame]

/-- **The search for the bus of a channel agrees with the map.** -/
theorem busFor_eq_lookup (h : setup.build = .ok stack) (channel : Channel) :
    stack.busFor channel = setup.channelMap.lookup channel := by
  have hadmissible : IsAdmissible setup.rows := exists_build_iff.mp ⟨stack, h⟩
  have hplaces := map_index_eq_range_iff.mp (map_index_sortedRows_iff.mpr hadmissible.indices)
  have hfirst : setup.channelMap.lookup channel =
      (setup.sortedRows.find? fun row => row.config.serves channel).map
        fun row => row.config.index := by
    rw [channelMap, lookup_foldl_enter, List.find?_filter, List.lookup_nil, Option.none_or]
    simp [BusConfig.serves, Bool.decide_and]
  rw [hfirst, busFor_of_build h]
  cases hfound : setup.sortedRows.find? fun row => row.config.serves channel with
  | none =>
      have hnone := List.find?_eq_none.mp hfound
      exact List.findIdx?_eq_none_iff.mpr fun row hrow => eq_false_of_ne_true (hnone row hrow)
  | some row =>
      obtain ⟨hserves, i, hlt, rfl, hearlier⟩ := List.find?_eq_some_iff_getElem.mp hfound
      rw [Option.map_some, hplaces i _ (List.getElem?_eq_getElem hlt)]
      refine List.findIdx?_eq_some_iff_getElem.mpr ⟨hlt, hserves, fun j hj hjServes => ?_⟩
      simpa [hjServes] using hearlier j hj

/-- **What may be relied on when a stack is built.** There is a stack just if the table is
admissible; the order of its rows does not decide this, and leaves no trace in the stack. Every row
of the table has its bus at its index, and there are no other buses. The bus of a channel is the one
that a map from channels to buses gives, into which the usable rows are entered in their order and
where the first to be entered stays: the least bus that is enabled, has an interface and serves the
channel, if there is one. It stays so, whatever the stack and its callers do. -/
theorem build_in_any_order (setup : Setup) :
    ((∃ stack, setup.build = .ok stack) ↔ IsAdmissible setup.rows) ∧
    (∀ rows, rows.Perm setup.rows →
      ({ setup with rows } : Setup).build.toOption = setup.build.toOption) ∧
    ∀ stack, setup.build = .ok stack →
      stack.buses.length = setup.rows.length ∧
      (∀ row ∈ setup.rows,
        stack.buses[row.config.index]? = some (Bus.new row.config row.link setup.timing)) ∧
      ∀ channel,
        (∀ i, stack.busFor channel = some i ↔ IsLeast {k | Carries setup.rows channel k} i) ∧
        (stack.busFor channel = none ↔ ∀ i, ¬Carries setup.rows channel i) ∧
        stack.busFor channel = setup.channelMap.lookup channel ∧
        ∀ as, ((Scheduler.atRest stack).after as).stack.busFor channel = stack.busFor channel := by
  refine ⟨exists_build_iff, fun rows hperm => toOption_build_of_perm hperm, fun stack hstack => ?_⟩
  have hadmissible : IsAdmissible setup.rows := exists_build_iff.mp ⟨stack, hstack⟩
  refine ⟨?length, fun row hrow => ?row, fun channel => ⟨fun i => busFor_eq_some_iff hstack,
    busFor_eq_none_iff hstack, busFor_eq_lookup hstack channel, fun as => ?stays⟩⟩
  case length =>
    rw [congrArg Stack.buses (eq_of_build hstack), List.length_map]
    exact setup.sortedRows_perm.length_eq
  case row =>
    rw [getElem?_of_build hstack, hadmissible.getElem?_sortedRows hrow]
    rfl
  case stays =>
    refine Stack.busFor_congr (List.ext_getElem? fun k => ?_) channel
    rw [List.getElem?_map, List.getElem?_map]
    exact Scheduler.busConfig_after (Scheduler.atRest stack) as k

/-- Three rows of one channel are given from the last to the second. The first is not enabled, so
that the second serves the channel. -/
theorem build_in_any_order_shuffled :
    let first : BusRow := { bmcRow with config.enabled := false }
    let second : BusRow := { expanderRow with config.channel := .bmcIpmb }
    let third : BusRow := { bmcRow with config.index := 2 }
    let setup : Setup := { rows := [third, first, second] }
    ∃ stack, setup.build = .ok stack ∧
      ({ setup with rows := [first, second, third] } : Setup).build.toOption = some stack ∧
      stack.busFor .bmcIpmb = some 1 := by
  intro first second third setup
  have hadmissible : IsAdmissible setup.rows := ⟨by decide, by decide, by decide⟩
  have hsorted : [first, second, third].Perm setup.rows := by decide
  obtain ⟨hiff, hperm, hbuilt⟩ := build_in_any_order setup
  obtain ⟨stack, hstack⟩ := hiff.mpr hadmissible
  refine ⟨stack, hstack, ?_, ?_⟩
  · rw [hperm _ hsorted, hstack]
    rfl
  · have hsecond : Carries setup.rows .bmcIpmb 1 := ⟨second, by decide, rfl, rfl, by decide, rfl⟩
    refine (((hbuilt stack hstack).2.2 .bmcIpmb).1 1).mpr ⟨hsecond, ?_⟩
    rintro k ⟨row, hrow, rfl, henabled, -, -⟩
    have hothers : ∀ row ∈ setup.rows, row.config.enabled = true → 1 ≤ row.config.index := by
      decide
    exact hothers row hrow henabled

end ManagementBus.Setup
