import Mathlib.Data.List.FinRange
import Mathlib.Data.List.Infix
import Mathlib.Data.List.Rotate
import ManagementBus.Proofs.Pending

/-!
# Numbers take turns

The free numbers of a table stand in a line, in the order in which they are tried. The number at the
head of the line is the next to be given out, and with that it goes to the end of the line. So the
line is turned by one place with every draw, and what many draws give out is read off a list that
has been turned by as many places.

A machine keeps a table in a word and a byte, and finds a free number by probing: it moves the
cursor on by one number at a time, at most sixty-four times, until it stands on a number that is
free. The byte is cut to six bits at each step. Such a table is written down here as it is kept, and
however the two are used they give out the same numbers.

## Main results

* `next_of_free`: the first free number after the cursor is given out.
* `line_next`: a draw turns the line by one place.
* `given_eq`: which number each draw gives out.
* `probe_pack`: where probing ends.
* `run_pack`: a word and a byte do what the table does.
* `numbers_take_turns`: what a table guarantees to those who draw from it.
-/

namespace ManagementBus

namespace SequenceNumber

/-- The number some places after another, counting around. -/
def ahead (n : SequenceNumber) (k : Nat) : SequenceNumber :=
  ⟨(n.val + k) % 64, Nat.mod_lt _ (Nat.succ_pos 63)⟩

/-- Counting around is counting modulo 64. -/
theorem val_ahead (n : SequenceNumber) (k : Nat) : (n.ahead k).val = (n.val + k) % 64 := rfl

/-- No places after a number is the number. -/
theorem ahead_zero (n : SequenceNumber) : n.ahead 0 = n := by
  ext
  exact Nat.mod_eq_of_lt n.is_lt

/-- Places ahead add up. -/
theorem ahead_ahead (n : SequenceNumber) (j k : Nat) : (n.ahead j).ahead k = n.ahead (j + k) := by
  ext
  simp only [val_ahead]
  omega

/-- All the way around leads back. -/
theorem ahead_around (n : SequenceNumber) : n.ahead 64 = n := by
  ext
  rw [val_ahead, Nat.add_mod_right]
  exact Nat.mod_eq_of_lt n.is_lt

/-- The byte of the next number, in six bits. -/
theorem toByte_ahead (n : SequenceNumber) : (n.toByte + 1) &&& 63 = (n.ahead 1).toByte := by
  revert n
  decide

end SequenceNumber

namespace SequenceTable

variable {t : SequenceTable} {n : SequenceNumber} {front back : List SequenceNumber}

/-! ### The line of free numbers -/

/-- The free numbers. -/
def free (t : SequenceTable) : List SequenceNumber :=
  (List.finRange 64).filter fun n => !t.isBusy n

/-- The free numbers in the order in which they are tried. -/
def line (t : SequenceTable) : List SequenceNumber :=
  t.turn.filter fun n => !t.isBusy n

/-- The numbers are tried in their own order, beginning after the cursor. -/
theorem turn_eq_rotate (t : SequenceTable) :
    t.turn = (List.finRange 64).rotate (t.cursor.val + 1) := by
  refine List.ext_getElem (by simp [turn]) fun k hk _ => ?_
  rw [turn, List.length_map, List.length_range] at hk
  rw [List.getElem_rotate]
  ext
  simp only [turn, List.getElem_map, List.getElem_range, List.getElem_finRange, Fin.val_add,
    Fin.val_ofNat, Fin.val_cast, List.length_finRange]
  omega

/-- The number in a place of the order. -/
theorem turn_getElem {k : Nat} (hk : k < t.turn.length) :
    t.turn[k] = t.cursor.ahead (k + 1) := by
  ext
  simp [turn, SequenceNumber.val_ahead, Fin.val_add]

/-- The line is made of the free numbers, each of them once. -/
theorem line_perm_free (t : SequenceTable) : t.line.Perm t.free := by
  rw [line, turn_eq_rotate]
  exact (List.rotate_perm _ _).filter _

/-- The line is as long as there are free numbers. -/
theorem length_line (t : SequenceTable) : t.line.length = t.free.length :=
  t.line_perm_free.length_eq

/-- With the cursor on a number, those after it are tried first, and it is tried last. -/
theorem turn_of_split (hsplit : t.turn = front ++ n :: back) :
    ({ t with cursor := n } : SequenceTable).turn = back ++ (front ++ [n]) := by
  have hplace : n = t.cursor.ahead (front.length + 1) := by
    have hget := turn_getElem (t := t) (k := front.length) (by simp [hsplit])
    simpa [hsplit] using hget
  have hcursor : (n.val + 1) % 64 = (t.cursor.val + 1 + (front ++ [n]).length) % 64 := by
    rw [hplace]
    simp only [SequenceNumber.val_ahead, List.length_append, List.length_singleton]
    omega
  have hsame : (List.finRange 64).rotate (n.val + 1) =
      (List.finRange 64).rotate (t.cursor.val + 1 + (front ++ [n]).length) := by
    rw [← List.rotate_mod, ← List.rotate_mod _ (t.cursor.val + 1 + _), List.length_finRange,
      hcursor]
  calc ({ t with cursor := n } : SequenceTable).turn
      = (List.finRange 64).rotate (n.val + 1) := turn_eq_rotate _
    _ = t.turn.rotate (front ++ [n]).length := by
        rw [hsame, ← List.rotate_rotate, ← turn_eq_rotate]
    _ = back ++ (front ++ [n]) := by
        rw [hsplit, List.append_cons, List.rotate_append_length_eq]

/-- With every number in flight a draw changes nothing. -/
theorem next_of_busy (h : ∀ n, t.isBusy n = true) : t.next = (t, t.cursor) := by
  have hnone : t.nextFree? = none := List.find?_eq_none.mpr fun n _ => by simp [h n]
  rw [next, hnone]
  rfl

/-- The number at the head of the line is given out. -/
theorem head?_line (t : SequenceTable) : t.line.head? = t.nextFree? :=
  List.head?_filter

/-- Nobody is in line just if every number is in flight. -/
theorem line_eq_nil_iff : t.line = [] ↔ ∀ n, t.isBusy n = true := by
  rw [line, List.filter_eq_nil_iff]
  exact ⟨fun h n => by simpa using h n (t.mem_turn n), fun h n _ => by simp [h n]⟩

/-- **A draw sends the head of the line to its end.** -/
theorem line_next (t : SequenceTable) : t.next.1.line = t.line.rotate 1 := by
  cases hfound : t.nextFree? with
  | none =>
      have hnil : t.line = [] := by rwa [← List.head?_eq_none_iff, head?_line]
      rw [next_of_busy (line_eq_nil_iff.mp hnil), hnil, List.rotate_nil]
  | some n =>
      obtain ⟨hfree, front, back, hsplit, hbusy⟩ := List.find?_eq_some_iff_append.mp hfound
      have hfront : front.filter (fun n => !t.isBusy n) = [] :=
        List.filter_eq_nil_iff.mpr fun k hk => by simpa using hbusy k hk
      -- All that stands before the number drawn is in flight, so the line begins with that number.
      have hturn : t.next.1.turn = back ++ (front ++ [n]) := by
        rw [next, hfound]
        exact turn_of_split hsplit
      have hone : [n].filter (fun n => !t.isBusy n) = [n] :=
        List.filter_eq_self.mpr (by simpa using hfree)
      calc t.next.1.line
          = back.filter (fun n => !t.isBusy n) ++ [n] := by
            rw [line, hturn]
            simp only [isBusy_next, List.filter_append, hfront, hone, List.nil_append]
        _ = (n :: back.filter fun n => !t.isBusy n).rotate 1 := by
            rw [List.rotate_cons_succ, List.rotate_zero]
        _ = t.line.rotate 1 := by
            rw [line, hsplit, List.append_cons, List.filter_append, List.filter_append, hfront,
              hone]
            rfl

/-! ### Many draws -/

/-- The table after a number of draws. -/
def drawn (t : SequenceTable) (k : Nat) : SequenceTable :=
  (fun t => t.next.1)^[k] t

/-- The number that a draw gives out, after a number of earlier ones. -/
def given (t : SequenceTable) (k : Nat) : SequenceNumber :=
  (t.drawn k).next.2

/-- One draw more is a draw from the table that the others leave. -/
theorem drawn_succ (t : SequenceTable) (k : Nat) : t.drawn (k + 1) = (t.drawn k).next.1 :=
  Function.iterate_succ_apply' _ k t

/-- **Many draws turn the line by as many places.** -/
theorem line_drawn (t : SequenceTable) (k : Nat) : (t.drawn k).line = t.line.rotate k := by
  induction k with
  | zero => rw [List.rotate_zero, drawn, Function.iterate_zero_apply]
  | succ k ih => rw [drawn_succ, line_next, ih, List.rotate_rotate]

/-- **Which number a draw gives out.** -/
theorem given_eq (hfree : 0 < t.free.length) (k : Nat) :
    t.line[k % t.free.length]? = some (t.given k) := by
  have hplace : k % t.line.length < t.line.length := by
    rw [length_line]
    exact Nat.mod_lt k hfree
  have hhead : (t.drawn k).nextFree? = t.line[k % t.line.length]? := by
    rw [← head?_line, line_drawn, ← List.rotate_mod, List.head?_rotate hplace]
  rw [← length_line, ← hhead, given, next]
  rw [List.getElem?_eq_getElem hplace] at hhead
  rw [hhead, Option.getD_some]

/-! ### The next number -/

/-- A number is the first free one after the cursor: only numbers in flight are passed over on the
way there. -/
def IsFirstFree (t : SequenceTable) (n : SequenceNumber) : Prop :=
  t.isBusy n = false ∧ ∃ k, 0 < k ∧ k ≤ 64 ∧ n = t.cursor.ahead k ∧
    ∀ j, 0 < j → j < k → t.isBusy (t.cursor.ahead j) = true

/-- **Where a number is free, the first free one after the cursor is given out.** -/
theorem next_of_free (h : t.isBusy n = false) :
    t.IsFirstFree t.next.2 ∧ t.next.1 = { t with cursor := t.next.2 } := by
  refine ⟨⟨isBusy_next_of_free h, ?_⟩, rfl⟩
  have hline : t.line ≠ [] := fun hnil => by simpa [h] using line_eq_nil_iff.mp hnil n
  obtain ⟨k, hk⟩ := Option.isSome_iff_exists.mp (List.isSome_head?.mpr hline)
  rw [head?_line] at hk
  obtain ⟨-, i, hi, rfl, hearlier⟩ := List.find?_eq_some_iff_getElem.mp hk
  have hlength : t.turn.length = 64 := by simp [turn]
  refine ⟨i + 1, Nat.succ_pos i, by omega, ?_, ?_⟩
  · rw [next, hk, Option.getD_some, turn_getElem]
  · intro j hpos hj
    have hbusy := hearlier (j - 1) (by omega)
    rw [turn_getElem, Nat.sub_add_cancel hpos] at hbusy
    simpa using hbusy

end SequenceTable

/-! ### A table in a word and a byte -/

/-- A table as a machine keeps it, with a bit for each number. -/
structure PackedTable where
  busy : UInt64
  cursor : UInt8
deriving DecidableEq

namespace PackedTable

/-- The bit of a number, of which six bits count. -/
def bit (seq : UInt8) : UInt64 := 1 <<< (seq &&& 63).toUInt64

def isBusy (p : PackedTable) (seq : UInt8) : Bool :=
  p.busy &&& bit seq ≠ 0

def register (p : PackedTable) (seq : UInt8) : PackedTable :=
  { p with busy := p.busy ||| bit seq }

def release (p : PackedTable) (seq : UInt8) : PackedTable :=
  { p with busy := p.busy &&& ~~~bit seq }

/-- Moves the cursor on, for a number of steps at most, until it stands on a free number. -/
def probe : Nat → PackedTable → PackedTable
  | 0, p => p
  | k + 1, p =>
    let p := { p with cursor := (p.cursor + 1) &&& 63 }
    if p.isBusy p.cursor then probe k p else p

/-- Gives out the number on which the cursor comes to stand. -/
def next (p : PackedTable) : PackedTable × UInt8 :=
  let p := p.probe 64
  (p, p.cursor)

end PackedTable

namespace SequenceTable

open SequenceNumber

variable {t : SequenceTable}

/-- The table in a word and a byte. -/
def pack (t : SequenceTable) : PackedTable :=
  { busy := ⟨t.busy⟩, cursor := t.cursor.toByte }

/-- The bit of a number as a power of two. -/
theorem toBitVec_bit (seq : UInt8) :
    (PackedTable.bit seq).toBitVec = BitVec.twoPow 64 (SequenceNumber.ofByte seq) := by
  have hmask : seq.toNat &&& 63 = seq.toNat % 64 := Nat.and_two_pow_sub_one_eq_mod seq.toNat 6
  rw [PackedTable.bit, UInt64.toBitVec_shiftLeft, BitVec.twoPow, BitVec.shiftLeft_eq']
  simp [hmask, SequenceNumber.ofByte]

/-- To set the bit of a number is to register it. -/
theorem register_pack (t : SequenceTable) (seq : UInt8) :
    t.pack.register seq = (t.register (.ofByte seq)).pack := by
  simp [PackedTable.register, register, pack, ← UInt64.toBitVec_inj, toBitVec_bit]

/-- To clear the bit of a number is to release it. -/
theorem release_pack (t : SequenceTable) (seq : UInt8) :
    t.pack.release seq = (t.release (.ofByte seq)).pack := by
  simp [PackedTable.release, release, pack, ← UInt64.toBitVec_inj, toBitVec_bit]

/-- To test the bit of a number is to ask whether it is in flight. -/
theorem isBusy_pack (t : SequenceTable) (seq : UInt8) :
    t.pack.isBusy seq = t.isBusy (.ofByte seq) := by
  set n := SequenceNumber.ofByte seq with hn
  have hbit : BitVec.twoPow 64 n ≠ 0#64 := fun hzero => by
    have hone := congrArg (fun w => w.getLsbD n) hzero
    simp at hone
  have hword : (t.pack.busy &&& PackedTable.bit seq).toBitVec =
      if t.isBusy n then BitVec.twoPow 64 n else 0#64 := by
    rw [UInt64.toBitVec_and, toBitVec_bit, ← hn, BitVec.and_twoPow]
    rfl
  have hzero : t.pack.busy &&& PackedTable.bit seq = 0 ↔ t.isBusy n = false := by
    rw [← UInt64.toBitVec_inj, hword]
    cases t.isBusy n
    · simp
    · simpa using hbit
  simp [PackedTable.isBusy, hzero]

/-! ### Probing -/

/-- Where the cursor comes to stand when it is moved on by a number of steps at most: on the first
free number on the way, or where the last step leads. -/
def landing (t : SequenceTable) (k : Nat) : SequenceNumber :=
  let way := (List.range k).map fun i => t.cursor.ahead (i + 1)
  (way.find? fun n => !t.isBusy n).getD (t.cursor.ahead k)

/-- The cursor stays where it is if it is not moved. -/
theorem landing_zero (t : SequenceTable) : t.landing 0 = t.cursor := by
  simp [landing, ahead_zero]

/-- One step is taken; where it leads to a number in flight, the others are left. -/
theorem landing_succ (t : SequenceTable) (k : Nat) :
    t.landing (k + 1) =
      if t.isBusy (t.cursor.ahead 1) then
        ({ t with cursor := t.cursor.ahead 1 } : SequenceTable).landing k
      else t.cursor.ahead 1 := by
  have hstep : ∀ i, (t.cursor.ahead 1).ahead i = t.cursor.ahead (i + 1) := by
    intro i
    rw [ahead_ahead, Nat.add_comm]
  have hway : (List.range (k + 1)).map (fun i => t.cursor.ahead (i + 1)) =
      t.cursor.ahead 1 :: (List.range k).map fun i => (t.cursor.ahead 1).ahead (i + 1) := by
    rw [List.range_succ_eq_map, List.map_cons, List.map_map]
    exact congrArg _ (List.map_congr_left fun i _ => (hstep (i + 1)).symm)
  rw [landing, hway, ← hstep k]
  cases hbusy : t.isBusy (t.cursor.ahead 1) with
  | false => rw [List.find?_cons_of_pos (by simp [hbusy])]; rfl
  | true => rw [List.find?_cons_of_neg (by simp [hbusy])]; rfl

/-- With a step for every number the cursor comes to stand where a draw moves it. -/
theorem landing_eq_next (t : SequenceTable) : t.landing 64 = t.next.2 := by
  have hway : (List.range 64).map (fun i => t.cursor.ahead (i + 1)) = t.turn := by
    refine List.ext_getElem (by simp [turn]) fun i _ hi => ?_
    rw [turn_getElem, List.getElem_map, List.getElem_range]
  rw [landing, hway, ahead_around]
  rfl

/-- A step of probing; where it leads to a number in flight, probing goes on. -/
theorem probe_succ_pack (t : SequenceTable) (k : Nat) :
    t.pack.probe (k + 1) =
      if t.isBusy (t.cursor.ahead 1) then
        ({ t with cursor := t.cursor.ahead 1 } : SequenceTable).pack.probe k
      else ({ t with cursor := t.cursor.ahead 1 } : SequenceTable).pack := by
  have hcursor : (t.pack.cursor + 1) &&& 63 = (t.cursor.ahead 1).toByte := toByte_ahead t.cursor
  have hlooked : ({ t with cursor := t.cursor.ahead 1 } : SequenceTable).pack.isBusy
      (t.cursor.ahead 1).toByte = t.isBusy (t.cursor.ahead 1) := by
    rw [isBusy_pack, ofByte_toByte]
    rfl
  simp only [PackedTable.probe, hcursor]
  rw [← hlooked]
  rfl

/-- **Probing moves the cursor to its landing, and changes nothing else.** -/
theorem probe_pack (t : SequenceTable) (k : Nat) :
    t.pack.probe k = ({ t with cursor := t.landing k } : SequenceTable).pack := by
  induction k generalizing t with
  | zero =>
      rw [landing_zero]
      rfl
  | succ k ih =>
      rw [probe_succ_pack, landing_succ]
      split
      · exact ih _
      · rfl

/-- **Probing finds the number that the table gives out.** -/
theorem next_pack (t : SequenceTable) : t.pack.next = (t.next.1.pack, t.next.2.toByte) := by
  rw [PackedTable.next, probe_pack, landing_eq_next]
  rfl

/-! ### Runs -/

/-- What is done with a table. -/
inductive Use where
  | draw
  | register (seq : UInt8)
  | release (seq : UInt8)
deriving DecidableEq

/-- The table after some uses, with the numbers that were drawn. -/
def run (t : SequenceTable) : List Use → SequenceTable × List SequenceNumber
  | [] => (t, [])
  | .draw :: uses => ((t.next.1.run uses).1, t.next.2 :: (t.next.1.run uses).2)
  | .register seq :: uses => (t.register (.ofByte seq)).run uses
  | .release seq :: uses => (t.release (.ofByte seq)).run uses

end SequenceTable

/-- The table in a word and a byte after some uses, with the numbers that were drawn. -/
def PackedTable.run (p : PackedTable) : List SequenceTable.Use → PackedTable × List UInt8
  | [] => (p, [])
  | .draw :: uses => ((p.next.1.run uses).1, p.next.2 :: (p.next.1.run uses).2)
  | .register seq :: uses => (p.register seq).run uses
  | .release seq :: uses => (p.release seq).run uses

namespace SequenceTable

variable {t : SequenceTable} {uses : List Use}

/-- **However a table is used, a word and a byte do what the table does.** -/
theorem run_pack (t : SequenceTable) (uses : List Use) :
    t.pack.run uses = ((t.run uses).1.pack, (t.run uses).2.map SequenceNumber.toByte) := by
  induction uses generalizing t with
  | nil => rfl
  | cons use uses ih =>
      cases use with
      | draw =>
          rw [PackedTable.run, next_pack, ih, run, List.map_cons]
      | register seq => rw [PackedTable.run, register_pack, ih, run]
      | release seq => rw [PackedTable.run, release_pack, ih, run]

/-- A word and a byte below sixty-four are a table. -/
theorem exists_pack {p : PackedTable} (h : p.cursor < 64) : ∃ t : SequenceTable, p = t.pack := by
  refine ⟨{ busy := p.busy.toBitVec, cursor := .ofByte p.cursor }, ?_⟩
  rw [pack, SequenceNumber.toByte_ofByte (UInt8.lt_iff_toNat_lt.mp h)]

/-- The cursor of a packed table is below 64. -/
theorem cursor_pack_lt (t : SequenceTable) : t.pack.cursor < 64 := by
  rw [UInt8.lt_iff_toNat_lt, pack, SequenceNumber.toNat_toByte]
  exact t.cursor.is_lt

/-- A run gives out one number for each draw. -/
theorem length_run (t : SequenceTable) (uses : List Use) :
    (t.run uses).2.length = uses.count .draw := by
  induction uses generalizing t with
  | nil => rfl
  | cons use uses ih =>
      cases use with
      | draw => simp [run, ih]
      | register seq => simp [run, ih]
      | release seq => simp [run, ih]

/-- The draws after a first one are the later draws. -/
theorem given_next (t : SequenceTable) (k : Nat) : t.next.1.given k = t.given (k + 1) := by
  rw [given, given, drawn, drawn, Function.iterate_succ_apply]

/-- The same numbers are in flight all through a run. -/
def IsSteady (t : SequenceTable) (uses : List Use) : Prop :=
  ∀ earlier, earlier <+: uses → (t.run earlier).1.busy = t.busy

/-- What follows the first use of such a run is such a run. -/
theorem IsSteady.tail {u : SequenceTable} {use : Use} (h : t.IsSteady (use :: uses))
    (hrun : ∀ later, (t.run (use :: later)).1 = (u.run later).1) :
    u.busy = t.busy ∧ u.IsSteady uses := by
  have hbusy : u.busy = t.busy := by
    have hfirst := h [use] (List.prefix_append [use] uses)
    rwa [hrun] at hfirst
  refine ⟨hbusy, fun earlier hearlier => ?_⟩
  rw [← hrun, hbusy]
  exact h _ (List.cons_prefix_cons.mpr ⟨rfl, hearlier⟩)

/-- **In such a run the numbers given out are those of draws one after the other.** -/
theorem IsSteady.run_eq (h : t.IsSteady uses) :
    (t.run uses).2 = (List.range (uses.count .draw)).map t.given := by
  induction uses generalizing t with
  | nil => rfl
  | cons use uses ih =>
      cases use with
      | draw =>
          have hlater : t.next.1.IsSteady uses := (h.tail fun _ => rfl).2
          rw [List.count_cons_self, List.range_succ_eq_map, List.map_cons, List.map_map, run,
            ih hlater]
          exact congrArg _ (List.map_congr_left fun k _ => t.given_next k)
      | register seq =>
          obtain ⟨hbusy, hlater⟩ := h.tail fun _ => rfl
          have hsame : t.register (.ofByte seq) = t := by
            rw [register] at hbusy ⊢
            exact congrArg (SequenceTable.mk · t.cursor) hbusy
          rw [hsame] at hlater
          rw [run, hsame, ih hlater, List.count_cons_of_ne (by simp)]
      | release seq =>
          obtain ⟨hbusy, hlater⟩ := h.tail fun _ => rfl
          have hsame : t.release (.ofByte seq) = t := by
            rw [release] at hbusy ⊢
            exact congrArg (SequenceTable.mk · t.cursor) hbusy
          rw [hsame] at hlater
          rw [run, hsame, ih hlater, List.count_cons_of_ne (by simp)]

/-- The number that the draw in some place of such a run gives out. -/
theorem IsSteady.getElem?_run (h : t.IsSteady uses) {k : Nat} (hk : k < uses.count .draw) :
    (t.run uses).2[k]? = some (t.given k) := by
  rw [h.run_eq, List.getElem?_map, List.getElem?_range hk]
  rfl

/-- As many numbers given out in turn as there are free ones are the line, turned to where they
begin. -/
theorem IsSteady.window_eq (h : t.IsSteady uses) {k : Nat}
    (hk : k + t.free.length ≤ uses.count .draw) :
    ((t.run uses).2.drop k).take t.free.length = t.line.rotate k := by
  refine List.ext_getElem? fun i => ?_
  rw [List.getElem?_take, List.getElem?_drop]
  split
  · next hi =>
      have hplace : i < t.line.length := by rwa [length_line]
      rw [h.getElem?_run (by omega), List.getElem?_rotate hplace, length_line, Nat.add_comm i k,
        given_eq (by omega)]
  · next hi =>
      rw [List.getElem?_eq_none]
      rw [List.length_rotate, length_line]
      omega

/-- **What a table guarantees to those who draw from it.** Where a number is free, the first free
one after the cursor is given out and the cursor is left there; where none is free, the number at
the cursor is given out once more. In a run in which the same numbers stay in flight, as many draws
one after the other as there are free numbers give out each free number once, and then the same
numbers follow in the same order. A word and a byte that are probed do all this likewise, and the
byte stays below sixty-four. -/
theorem numbers_take_turns (t : SequenceTable) :
    ((∃ n, t.isBusy n = false) →
      t.IsFirstFree t.next.2 ∧ t.next.1 = { t with cursor := t.next.2 }) ∧
    ((∀ n, t.isBusy n = true) → t.next = (t, t.cursor)) ∧
    (∀ uses, t.free ≠ [] → t.IsSteady uses →
      let drawn := (t.run uses).2
      drawn.length = uses.count .draw ∧
      (∀ k, k + t.free.length ≤ drawn.length →
        ((drawn.drop k).take t.free.length).Perm t.free) ∧
      ∀ k, k + t.free.length < drawn.length → drawn[k + t.free.length]? = drawn[k]?) ∧
    (∀ uses, t.pack.run uses = ((t.run uses).1.pack, (t.run uses).2.map SequenceNumber.toByte)) ∧
    ∀ p : PackedTable, p.cursor < 64 →
      (∃ u : SequenceTable, p = u.pack) ∧ ∀ uses, (p.run uses).1.cursor < 64 := by
  refine ⟨fun ⟨n, hfree⟩ => next_of_free hfree, next_of_busy,
    fun uses hfree hsteady => ?turns, t.run_pack,
    fun p hcursor => ⟨exists_pack hcursor, fun uses => ?range⟩⟩
  case turns =>
    have hpos : 0 < t.free.length := List.length_pos_iff.mpr hfree
    have hlength := t.length_run uses
    refine ⟨hlength, fun k hk => ?_, fun k hk => ?_⟩
    · rw [hsteady.window_eq (hlength ▸ hk)]
      exact (t.line.rotate_perm k).trans t.line_perm_free
    · rw [hlength] at hk
      rw [hsteady.getElem?_run hk, hsteady.getElem?_run (by omega), ← given_eq hpos,
        ← given_eq hpos, Nat.add_mod_right]
  case range =>
    obtain ⟨u, rfl⟩ := exists_pack hcursor
    rw [run_pack]
    exact cursor_pack_lt _

/-- Three numbers are free. Past the end of the table the draws go on from its beginning, whatever
number in flight is registered again and whatever free one released. -/
theorem numbers_take_turns_three :
    let t : SequenceTable := { busy := ~~~0x9000000000000020#64, cursor := 61 }
    let uses : List Use := [.draw, .register 7, .draw, .release 5, .draw, .draw]
    t.free = [5, 60, 63] ∧ t.IsSteady uses ∧ t.IsFirstFree 63 ∧
      (((t.run uses).2.drop 1).take 3).Perm [5, 60, 63] ∧
      (t.run uses).2[3]? = (t.run uses).2[0]? ∧ (t.pack.run uses).1.cursor < 64 := by
  intro t uses
  have hfree : t.free = [5, 60, 63] := by decide +kernel
  have hnext : t.next.2 = 63 := by decide +kernel
  have hbusy : ∀ earlier ∈ uses.inits, (t.run earlier).1.busy = t.busy := by decide +kernel
  have hsteady : t.IsSteady uses := fun earlier h => hbusy earlier ((List.mem_inits _ _).mpr h)
  have hsome : t.isBusy 5 = false := by decide +kernel
  have hdraws : uses.count .draw = 4 := by decide
  obtain ⟨hfirst, -, hturns, -, hpacked⟩ := numbers_take_turns t
  obtain ⟨hlength, hwindow, hagain⟩ := hturns uses (by rw [hfree]; simp) hsteady
  rw [hdraws] at hlength
  rw [hlength, hfree] at hwindow hagain
  have hmoved := (hfirst ⟨5, hsome⟩).1
  rw [hnext] at hmoved
  exact ⟨hfree, hsteady, hmoved, hwindow 1 (by decide), hagain 0 (by decide),
    (hpacked t.pack (cursor_pack_lt t)).2 uses⟩

end SequenceTable

end ManagementBus
