import ManagementBus.Stack

/-!
# Setting up a stack

A stack is built from a bus table, in any order of its rows, and from the parts around it. The
indices of the rows have to be the positions from zero on, each once, and addresses have seven
bits.
-/

namespace ManagementBus

/-- A row of the bus table with the link that carries the bus. -/
structure BusRow where
  config : BusConfig
  link : Link
deriving DecidableEq

/-- What a stack is built from. -/
structure Setup where
  rows : List BusRow
  kcs : KcsSink := .absent
  timing : Timing := {}
  policy : Policy := .default
  clock : Clock := ⟨0⟩
  dumping : Bool := false

namespace Setup

/-- What is wrong with a row at a position of the sorted table. -/
def rowFault (config : BusConfig) (position : Nat) : Option Fault :=
  if config.index ≠ position then some .indexGap
  else if 0x7F < config.selfAddr || 0x7F < config.targetAddr then some .wideAddress
  else none

/-- The rows in the order of their indices. -/
def sortedRows (setup : Setup) : List BusRow :=
  setup.rows.mergeSort fun a b => a.config.index ≤ b.config.index

/-- The stack at rest, unless the table is not admissible; of several faults the first counts. -/
def build (setup : Setup) : Except Fault Stack :=
  let rows := setup.sortedRows
  if rows.isEmpty then .error .noBuses
  else match rows.zipIdx.findSome? fun (row, position) => rowFault row.config position with
    | some fault => .error fault
    | none =>
      .ok
        { buses := rows.map fun row => Bus.new row.config row.link setup.timing
          requests := Queue.new setup.timing.requestLength
          kcs := setup.kcs
          clock := setup.clock
          timing := setup.timing
          policy := setup.policy
          dumping := setup.dumping }

end Setup

end ManagementBus
