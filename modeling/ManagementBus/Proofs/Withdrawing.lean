import ManagementBus.Proofs.Registering

/-!
# A request that is withdrawn

A request is staged ahead of its write and withdrawn when the write fails. Between the two the
ledger goes on: responses look their requests up, old entries expire, numbers are drawn. The proof
runs the ledger with the request beside the ledger without it. The first is `Ledger.Beside` the
second as long as nothing looks the request up: it has that request as its newest entry and one
number more in flight, or the request has expired and nothing is left of it.

## Main results

* `Beside.apply`: what each operation keeps, and that lookups have the same answers.
* `withdraw_leaves_no_trace`: a request that is staged and withdrawn leaves the ledger as if it had
  never been there.
-/

namespace ManagementBus.Ledger

/-! ### Lookups -/

/-- What an operation answers, if it is a lookup: the query completed from the request that it
names, or nothing where none is pending. -/
def answer? (l : Ledger) : Operation → Option (Option Message)
  | .find query how => some (l.findAndRemove query how).2
  | .insert _ _ | .stage _ _ | .commit | .withdraw _ | .expire _ _ | .draw => none

/-- The answers of the lookups among some operations. -/
def answers : Ledger → List Operation → List (Option Message)
  | _, [] => []
  | l, op :: ops => (l.answer? op).toList ++ (l.apply op).answers ops

/-- An operation that may come between the staging of a request and its withdrawal: a lookup that
does not name the request, an expiry, or the drawing of a number. -/
def Operation.Passes (m : Message) : Operation → Prop
  | .find query how => how.names query m = false
  | .expire _ _ | .draw => True
  | .insert _ _ | .stage _ _ | .commit | .withdraw _ => False

instance (m : Message) : ∀ op : Operation, Decidable (op.Passes m)
  | .find query how => inferInstanceAs (Decidable (how.names query m = false))
  | .expire _ _ | .draw => .isTrue trivial
  | .insert _ _ | .stage _ _ | .commit | .withdraw _ => .isFalse id

/-! ### Two ledgers side by side -/

/-- Two ledgers have the same entries and the same numbers in flight. -/
structure Same (k l : Ledger) : Prop where
  entries : k.entries = l.entries
  busy : ∀ n, k.numbers.isBusy n = true ↔ l.numbers.isBusy n = true

/-- A ledger has what another one has, and besides, as its newest entry, one request. -/
structure HasBesides (r : Message) (k l : Ledger) : Prop where
  entries : k.entries = l.entries ++ [r]
  busy : ∀ n, k.numbers.isBusy n = true ↔ l.numbers.isBusy n = true ∨ n = slot r

/-- Of two ledgers the first has a request besides or is the same; the second one does not have the
number of that request. -/
structure Beside (r : Message) (k l : Ledger) : Prop where
  absent : ∀ entry ∈ l.entries, slot entry ≠ slot r
  free : l.numbers.isBusy (slot r) = false
  cases : HasBesides r k l ∨ Same k l

section Beside

variable {r : Message} {k l k' l' : Ledger} {op : Operation} {ops : List Operation}
  {p : Message → Bool} {dropped : List Message}

/-- Two ledgers that are the same stay so when they drop the same entries. -/
theorem Same.drops (h : Same k l) (hk : k.Drops k' dropped) (hl : l.Drops l' dropped)
    (hentries : k'.entries = l'.entries) : Same k' l' where
  entries := hentries
  busy := by
    intro n
    rw [hk.busy, hl.busy, h.busy]

/-- Both ledgers drop the same entries, and the request stays. -/
theorem HasBesides.drops (h : HasBesides r k l) (habsent : ∀ entry ∈ l.entries, slot entry ≠ slot r)
    (hk : k.Drops k' dropped) (hl : l.Drops l' dropped)
    (hentries : k'.entries = l'.entries ++ [r]) : HasBesides r k' l' where
  entries := hentries
  busy := by
    intro n
    rw [hk.busy, hl.busy, h.busy, or_and_right]
    refine or_congr Iff.rfl ⟨And.left, ?_⟩
    rintro rfl
    exact ⟨rfl, fun d hd => habsent d (hl.mem_iff.mpr (.inr hd))⟩

/-- The first ledger drops the request as well: its number is free in both. -/
theorem HasBesides.drops_request (h : HasBesides r k l)
    (hfree : l.numbers.isBusy (slot r) = false) (hk : k.Drops k' (dropped ++ [r]))
    (hl : l.Drops l' dropped) (hentries : k'.entries = l'.entries) : Same k' l' where
  entries := hentries
  busy := by
    intro n
    rw [hk.busy, hl.busy, h.busy, List.forall_mem_append, List.forall_mem_singleton]
    constructor
    · rintro ⟨hbusy | rfl, hdropped, hne⟩
      · exact ⟨hbusy, hdropped⟩
      · exact absurd rfl hne
    · rintro ⟨hbusy, hdropped⟩
      refine ⟨.inl hbusy, hdropped, ?_⟩
      rintro rfl
      rw [hfree] at hbusy
      cases hbusy

/-- What the second ledger drops does not bring the number of the request back. -/
theorem Beside.of_drops (h : Beside r k l) (hl : l.Drops l' dropped)
    (hcases : HasBesides r k' l' ∨ Same k' l') : Beside r k' l' where
  absent := fun entry hentry => h.absent entry (hl.kept.subset hentry)
  free := by
    rw [← Bool.not_eq_true, hl.busy]
    rintro ⟨hbusy, -⟩
    rw [h.free] at hbusy
    cases hbusy
  cases := hcases

/-- **A lookup that does not name the request** finds the same in both ledgers. -/
theorem Beside.extract (h : Beside r k l) (hp : ¬p r = true) :
    (k.extract p).2 = (l.extract p).2 ∧ Beside r (k.extract p).1 (l.extract p).1 := by
  have hfind : k.entries.find? p = l.entries.find? p := by
    rcases h.cases with hbesides | hsame
    · rw [hbesides.entries, List.find?_append, List.find?_singleton, if_neg hp, Option.or_none]
    · rw [hsame.entries]
  have hfound : (k.extract p).2 = (l.extract p).2 := by rw [extract_snd, extract_snd, hfind]
  have hk := k.drops_extract p
  rw [hfound] at hk
  have hl := l.drops_extract p
  refine ⟨hfound, h.of_drops hl ?_⟩
  rcases h.cases with hbesides | hsame
  · refine .inl (hbesides.drops h.absent hk hl ?_)
    rw [entries_extract, entries_extract, hbesides.entries, List.eraseP_append]
    split
    · rfl
    · next hnone =>
        have hnot : ∀ x ∈ l.entries, ¬p x = true := by simpa using hnone
        rw [List.eraseP_of_forall_not hnot, List.eraseP_cons_of_neg hp, List.eraseP_nil]
  · refine .inr (hsame.drops hk hl ?_)
    rw [entries_extract, entries_extract, hsame.entries]

/-- **An expiry** drops the same entries from both ledgers, and perhaps the request. -/
theorem Beside.expire (h : Beside r k l) (now timeout : UInt32) :
    Beside r (k.expire now timeout).1 (l.expire now timeout).1 := by
  have hk := k.drops_expire now timeout
  have hl := l.drops_expire now timeout
  refine h.of_drops hl ?_
  rcases h.cases with hbesides | hsame
  · by_cases hstale : isStale now timeout r = true
    · rw [expire_snd, hbesides.entries, List.filter_append, List.filter_cons_of_pos hstale,
        List.filter_nil] at hk
      refine .inr (hbesides.drops_request h.free hk hl ?_)
      rw [entries_expire, entries_expire, hbesides.entries, List.filter_append]
      simp [hstale]
    · rw [expire_snd, hbesides.entries, List.filter_append, List.filter_cons_of_neg hstale,
        List.filter_nil, List.append_nil] at hk
      refine .inl (hbesides.drops h.absent hk hl ?_)
      rw [entries_expire, entries_expire, hbesides.entries, List.filter_append]
      simp [hstale]
  · rw [expire_snd, hsame.entries] at hk
    refine .inr (hsame.drops hk hl ?_)
    rw [entries_expire, entries_expire, hsame.entries]

/-- **What may come between the two** keeps the ledgers beside each other, and has the same answer
in both. -/
theorem Beside.apply (h : Beside r k l) (hop : op.Passes r) :
    k.answer? op = l.answer? op ∧ Beside r (k.apply op) (l.apply op) := by
  cases op with
  | find query how =>
      have hnot : ¬how.names query r = true := ne_true_of_eq_false hop
      obtain ⟨hfound, hbeside⟩ := h.extract hnot
      refine ⟨?_, hbeside⟩
      exact congrArg (fun found => some (Option.map (how.complete query) found)) hfound
  | expire now timeout => exact ⟨rfl, h.expire now timeout⟩
  | draw =>
      have hk := k.drops_draw k.nextSequence.2
      have hl := l.drops_draw l.nextSequence.2
      refine ⟨rfl, h.of_drops hl ?_⟩
      rcases h.cases with hbesides | hsame
      · exact .inl (hbesides.drops h.absent hk hl hbesides.entries)
      · exact .inr (hsame.drops hk hl hsame.entries)
  | insert | stage | commit | withdraw => exact hop.elim

/-- **A sequence of operations answers the same on both ledgers**, as long as it passes the request
by. -/
theorem Beside.run (h : Beside r k l) (hops : ∀ op ∈ ops, op.Passes r) :
    k.answers ops = l.answers ops ∧ Beside r (k.run ops) (l.run ops) := by
  induction ops generalizing k l with
  | nil => exact ⟨rfl, h⟩
  | cons op ops ih =>
      obtain ⟨hop, hops⟩ := List.forall_mem_cons.mp hops
      obtain ⟨hanswer, happly⟩ := h.apply hop
      obtain ⟨hanswers, hrun⟩ := ih happly hops
      exact ⟨by rw [answers, answers, hanswer, hanswers], hrun⟩

/-- **To withdraw the request** takes it away, if it is still there, and nothing else. -/
theorem Beside.withdraw (h : Beside r k l) : Same (k.withdraw r).1 l := by
  have hnot : ∀ entry ∈ l.entries, ¬isRequest r entry = true := by
    intro entry hentry hrequest
    simp only [isRequest, Bool.and_eq_true, beq_iff_eq] at hrequest
    exact h.absent entry hentry (by rw [slot, slot, hrequest.2])
  have hnone : l.entries.find? (isRequest r) = none := List.find?_eq_none.mpr hnot
  have hself : isRequest r r = true := by simp [isRequest]
  have hl : l.Drops l [] := l.drops_draw l.numbers.cursor
  have hk := k.drops_extract (isRequest r)
  rw [extract_snd] at hk
  rcases h.cases with hbesides | hsame
  · rw [hbesides.entries, List.find?_append, hnone, Option.none_or,
      List.find?_cons_of_pos hself] at hk
    have hdrops : k.Drops (k.withdraw r).1 ([] ++ [r]) := hk
    refine hbesides.drops_request h.free hdrops hl ?_
    rw [entries_withdraw, hbesides.entries, List.eraseP_append_right _ hnot,
      List.eraseP_cons_of_pos hself, List.append_nil]
  · rw [hsame.entries, hnone] at hk
    refine hsame.drops hk hl ?_
    rw [entries_withdraw, hsame.entries, List.eraseP_of_forall_not hnot]

end Beside

/-! ### The ledger without the request -/

section Withdrawing

variable {l : Ledger} {m : Message} {op : Operation}

/-- A request whose number no entry has is staged beside the ledger as it was. -/
theorem beside_stage (haccounted : l.Accounted) (hfresh : ∀ entry ∈ l.entries, slot entry ≠ slot m)
    (now : UInt32) : Beside { m with timestamp := now } (l.stage m now) l where
  absent := hfresh
  free := by
    rw [← Bool.not_eq_true]
    intro hbusy
    obtain ⟨entry, hentry, hslot⟩ := haccounted _ hbusy
    exact hfresh entry hentry hslot
  cases := .inl ⟨rfl, fun _ => isBusy_stage⟩

/-- The tick at which a request is recorded plays no part in what names it. -/
theorem Operation.Passes.at_tick (h : op.Passes m) (now : UInt32) :
    op.Passes { m with timestamp := now } := by
  cases op with
  | find query how =>
      have hnames : how.names query { m with timestamp := now } = how.names query m := by
        cases how <;> rfl
      exact hnames.trans h
  | expire | draw => trivial
  | insert | stage | commit | withdraw => exact h

/-- **A request that is staged and withdrawn leaves no trace.** In whatever state operations have
brought a ledger, let a request be staged whose number no entry has, let lookups that do not name
it, expiries and draws of numbers follow, and let it be withdrawn. The ledger then has the entries,
in order and with their ticks, and the numbers in flight that it would have without the request,
and each lookup on the way has found what it would have found. -/
theorem withdraw_leaves_no_trace (capacity : Nat) (before ops : List Operation) (m : Message)
    (now : UInt32)
    (hfresh : ∀ entry ∈ ((new capacity).run before).entries, slot entry ≠ slot m)
    (hops : ∀ op ∈ ops, op.Passes m) :
    let l := (new capacity).run before
    let k := (((l.stage m now).run ops).withdraw m).1
    k.entries = (l.run ops).entries ∧
      (∀ n, k.numbers.isBusy n = (l.run ops).numbers.isBusy n) ∧
      (l.stage m now).answers ops = l.answers ops := by
  intro l k
  have haccounted : l.Accounted := (accounted_new capacity).run before
  obtain ⟨hanswers, hbeside⟩ := (beside_stage haccounted hfresh now).run fun op hop =>
    (hops op hop).at_tick now
  have hsame : Same k (l.run ops) := hbeside.withdraw
  refine ⟨hsame.entries, ?_, hanswers⟩
  intro n
  exact Bool.eq_iff_iff.mpr (hsame.busy n)

/-- Three requests fill a ledger. -/
def filling : List Operation :=
  [.insert (requestUnder 7) 0, .insert (requestUnder 8) 20, .insert (requestUnder 10) 22]

/-- Meanwhile a response arrives, the oldest request expires, and a number is drawn. -/
def meanwhile : List Operation :=
  [.draw, .find { netFn := 0x07, cmd := 0x01, seqTarget := 8 } .response, .expire 80 60,
    .find { netFn := 0x06, cmd := 0x02 } .bridgeSource]

/-- A request is withdrawn from a full ledger. -/
theorem withdraw_leaves_no_trace_full :
    let l := (new 3).run filling
    let k := (((l.stage (requestUnder 73) 25).run meanwhile).withdraw (requestUnder 73)).1
    (∀ entry ∈ l.entries, slot entry ≠ slot (requestUnder 73)) ∧
      (∀ op ∈ meanwhile, op.Passes (requestUnder 73)) ∧
      (l.stage (requestUnder 73) 25).entries.length = 4 ∧
      k.entries = [{ requestUnder 10 with timestamp := 22 }] ∧
      (∀ n, k.numbers.isBusy n = (l.run meanwhile).numbers.isBusy n) ∧
      (l.stage (requestUnder 73) 25).answers meanwhile =
        [some { netFn := 0x07, cmd := 0x01, seqTarget := 8 }, none] := by
  have hfresh : ∀ entry ∈ ((new 3).run filling).entries,
      slot entry ≠ slot (requestUnder 73) := by decide +kernel
  have hops : ∀ op ∈ meanwhile, op.Passes (requestUnder 73) := by decide +kernel
  obtain ⟨hentries, hbusy, hanswers⟩ :=
    withdraw_leaves_no_trace 3 filling meanwhile (requestUnder 73) 25 hfresh hops
  refine ⟨hfresh, hops, by decide +kernel, ?_, hbusy, ?_⟩
  · rw [hentries]
    decide +kernel
  · rw [hanswers]
    decide +kernel

end Withdrawing

end ManagementBus.Ledger
