import ManagementBus.Proofs.Routing

/-!
# Which request a lookup takes

A lookup gives a key: a function, a command and a number, which is the number on the wire for a
response and the originator's number otherwise. Nothing keeps two pending requests from having one
key, so it can be seen which of them a lookup takes. `Correlation.Matches` states when an entry has
the key of a query, apart from how the ledger finds out.

Lookups for one key take the entries that have it one after the other, oldest first, whatever other
lookups come between, as long as none of these takes such an entry. The proof follows the entries
with the key: a lookup for the key takes the first of them, and another lookup leaves all of them.

## Main results

* `findAndRemove_of_matches`, `findAndRemove_of_unmatched`: what one lookup does.
* `found_eq`: what the lookups for one key find.
* `lookups_take_oldest`: both, for every ledger and every sequence of lookups.
-/

namespace ManagementBus

namespace Correlation

/-- An entry has the key of a query. -/
def Matches (how : Correlation) (query entry : Message) : Prop :=
  match how with
  | response =>
    (entry.netFn.toNat + 1) % 256 = query.netFn.toNat ∧ entry.cmd = query.cmd ∧
      entry.seqTarget = query.seqTarget
  | bridgeSource =>
    entry.netFn = query.netFn ∧ entry.cmd = query.cmd ∧ entry.seqSource = query.seqSource

instance (query entry : Message) : ∀ how : Correlation, Decidable (how.Matches query entry)
  | .response => inferInstanceAs (Decidable (_ ∧ _))
  | .bridgeSource => inferInstanceAs (Decidable (_ ∧ _))

/-- The number by which a query names its request. -/
def number (how : Correlation) (query : Message) : UInt8 :=
  match how with
  | response => query.seqTarget
  | bridgeSource => query.seqSource

/-- A function is the one before another, counting around. -/
theorem eq_sub_one_iff (a b : UInt8) : a = b - 1 ↔ (a.toNat + 1) % 256 = b.toNat := by
  have hsucc : (a + 1).toNat = (a.toNat + 1) % 256 := UInt8.toNat_add a 1
  constructor
  · rintro rfl
    rw [← hsucc, UInt8.sub_add_cancel]
  · intro h
    rw [← hsucc, UInt8.toNat_inj] at h
    rw [← h, UInt8.add_sub_cancel]

/-- What the ledger compares is the key. -/
theorem names_iff_matches (how : Correlation) (query entry : Message) :
    how.names query entry = true ↔ how.Matches query entry := by
  cases how with
  | response =>
      simp only [names, Matches, Bool.and_eq_true, beq_iff_eq, and_assoc, eq_sub_one_iff]
  | bridgeSource => simp only [names, Matches, Bool.and_eq_true, beq_iff_eq, and_assoc]

end Correlation

namespace Ledger

/-- A lookup: a query, and how it names its request. -/
structure Lookup where
  query : Message
  how : Correlation

namespace Lookup

/-- How a lookup names its request, and the function, command and number that it gives. -/
def key (q : Lookup) : Correlation × UInt8 × UInt8 × UInt8 :=
  (q.how, q.query.netFn, q.query.cmd, q.how.number q.query)

/-- Whether an entry has the key of a lookup. -/
def names (q : Lookup) (entry : Message) : Bool := q.how.names q.query entry

/-- The query of a lookup, completed from an entry. -/
def complete (q : Lookup) (entry : Message) : Message := q.how.complete q.query entry

/-- Lookups with one key ask for the same entries. -/
theorem names_congr {p q : Lookup} (h : p.key = q.key) : p.names = q.names := by
  obtain ⟨query, how⟩ := p
  obtain ⟨query', how'⟩ := q
  simp only [key, Prod.mk.injEq] at h
  obtain ⟨rfl, hfunction, hcmd, hnumber⟩ := h
  funext entry
  cases how with
  | response =>
      simp only [Correlation.number] at hnumber
      simp only [names, Correlation.names, hfunction, hcmd, hnumber]
  | bridgeSource =>
      simp only [Correlation.number] at hnumber
      simp only [names, Correlation.names, hfunction, hcmd, hnumber]

end Lookup

/-- The ledger after a lookup, and the completed query if the lookup has found its request. -/
def lookUp (l : Ledger) (q : Lookup) : Ledger × Option Message := l.findAndRemove q.query q.how

/-- The ledger after some lookups. -/
def lookUpAll (l : Ledger) (qs : List Lookup) : Ledger := qs.foldl (fun k q => (k.lookUp q).1) l

/-- The entries that have the key of a lookup, oldest first. -/
def entriesFor (l : Ledger) (p : Lookup) : List Message :=
  l.entries.filter fun entry => p.how.Matches p.query entry

/-- The lookups for one key among some lookups, each with what it finds. -/
def found (p : Lookup) : Ledger → List Lookup → List (Lookup × Option Message)
  | _, [] => []
  | l, q :: qs =>
    (if q.key = p.key then [(q, (l.lookUp q).2)] else []) ++ found p (l.lookUp q).1 qs

/-- No lookup for another key takes an entry with the key. -/
def SparesKey (p : Lookup) : Ledger → List Lookup → Prop
  | _, [] => True
  | l, q :: qs =>
    (q.key ≠ p.key → ∀ entry ∈ (l.extract q.names).2, ¬p.how.Matches p.query entry) ∧
      SparesKey p (l.lookUp q).1 qs

instance decidableSparesKey (p : Lookup) : ∀ (qs : List Lookup) (l : Ledger),
    Decidable (SparesKey p l qs)
  | [], _ => .isTrue trivial
  | q :: qs, l =>
    have := decidableSparesKey p qs (l.lookUp q).1
    inferInstanceAs (Decidable (_ ∧ _))

variable {l : Ledger} {p q : Lookup} {qs : List Lookup} {query : Message} {how : Correlation}

/-! ### One lookup -/

/-- A lookup takes the oldest entry that has its key. -/
theorem findAndRemove_of_matches (h : ∃ entry ∈ l.entries, how.Matches query entry) :
    ∃ before entry after, l.entries = before ++ entry :: after ∧
      (∀ e ∈ before, ¬how.Matches query e) ∧ how.Matches query entry ∧
        l.findAndRemove query how =
          (l.closingUp before after entry, some (how.complete query entry)) := by
  obtain ⟨witness, hmem, hwitness⟩ := h
  have hsome : (l.entries.find? (how.names query)).isSome = true :=
    List.find?_isSome.mpr ⟨witness, hmem, (how.names_iff_matches _ _).mpr hwitness⟩
  obtain ⟨entry, hfind⟩ := Option.isSome_iff_exists.mp hsome
  obtain ⟨before, after, hentries, hbefore, hentry, hledger⟩ := extract_of_find? hfind
  refine ⟨before, entry, after, hentries, ?_, (how.names_iff_matches _ _).mp hentry, ?_⟩
  · intro e he
    rw [← how.names_iff_matches]
    exact hbefore e he
  · refine Prod.ext hledger ?_
    simp only [findAndRemove, extract_snd, hfind, Option.map_some]

/-- A lookup whose key no entry has finds nothing. -/
theorem findAndRemove_of_unmatched (h : ¬∃ entry ∈ l.entries, how.Matches query entry) :
    l.findAndRemove query how = (l, none) := by
  have hnone : l.entries.find? (how.names query) = none := by
    rw [List.find?_eq_none]
    intro entry hentry hnames
    exact h ⟨entry, hentry, (how.names_iff_matches _ _).mp hnames⟩
  simp only [findAndRemove, extract, hnone, Option.map_none]

/-! ### The entries with a key -/

/-- The entries that a lookup may find are those that it names, in the order of the ledger. -/
theorem entriesFor_eq (l : Ledger) (p : Lookup) : l.entriesFor p = l.entries.filter p.names := by
  refine List.filter_congr ?_
  intro entry _
  rw [Bool.eq_iff_iff, decide_eq_true_iff]
  exact (p.how.names_iff_matches p.query entry).symm

/-- A lookup for the key takes the first entry with the key. -/
theorem lookUp_of_key (h : q.key = p.key) :
    (l.lookUp q).2 = (l.entriesFor p).head?.map q.complete ∧
      (l.lookUp q).1.entriesFor p = (l.entriesFor p).tail := by
  have hnames : q.how.names q.query = p.names := Lookup.names_congr h
  simp only [entriesFor_eq]
  constructor
  · simp only [lookUp, findAndRemove, extract_snd, hnames, List.head?_filter]
    rfl
  · rw [lookUp, entries_findAndRemove, hnames]
    cases hfind : l.entries.find? p.names with
    | none =>
        have hnot : ∀ entry ∈ l.entries, ¬p.names entry = true := List.find?_eq_none.mp hfind
        rw [List.eraseP_of_forall_not hnot, List.filter_eq_nil_iff.mpr hnot, List.tail_nil]
    | some entry =>
        obtain ⟨before, after, hentries, herase, hbefore, hentry⟩ := exists_split_of_find? hfind
        have hnil : before.filter p.names = [] := List.filter_eq_nil_iff.mpr hbefore
        rw [herase, hentries, List.filter_append, List.filter_append, hnil,
          List.filter_cons_of_pos hentry]
        rfl

/-- A lookup that takes no entry with the key leaves all of them. -/
theorem lookUp_of_spared (h : ∀ entry ∈ (l.extract q.names).2, ¬p.how.Matches p.query entry) :
    (l.lookUp q).1.entriesFor p = l.entriesFor p := by
  have herased : (l.lookUp q).1.entries = l.entries.eraseP q.names := entries_findAndRemove ..
  rw [entriesFor_eq, entriesFor_eq, herased]
  cases hfind : l.entries.find? q.names with
  | none => rw [List.eraseP_of_forall_not (List.find?_eq_none.mp hfind)]
  | some entry =>
      have hother : ¬p.names entry = true := by
        rw [Lookup.names, p.how.names_iff_matches]
        exact h entry (by rw [extract_snd, hfind]; rfl)
      obtain ⟨before, after, hentries, herase, -, -⟩ := exists_split_of_find? hfind
      rw [herase, hentries, List.filter_append, List.filter_append,
        List.filter_cons_of_neg hother]

/-- **Lookups for one key find the entries with the key in order**, each lookup the next one, and
nothing when there are no more. The induction carries which of the entries are left. -/
theorem found_eq (hspares : SparesKey p l qs) :
    (∀ (j : Nat) (q : Lookup) (answer : Option Message),
        (found p l qs)[j]? = some (q, answer) →
          answer = (l.entriesFor p)[j]?.map q.complete) ∧
      (l.lookUpAll qs).entriesFor p = (l.entriesFor p).drop (found p l qs).length := by
  induction qs generalizing l with
  | nil =>
      refine ⟨?_, rfl⟩
      intro j q answer hj
      rw [found, List.getElem?_nil] at hj
      cases hj
  | cons q qs ih =>
      obtain ⟨hspared, hrest⟩ := hspares
      obtain ⟨ihfound, ihleft⟩ := ih hrest
      have hall : l.lookUpAll (q :: qs) = (l.lookUp q).1.lookUpAll qs := rfl
      by_cases hkey : q.key = p.key
      -- The first lookup takes the head of what is left under the key, the others its tail.
      · obtain ⟨hanswer, hleft⟩ := lookUp_of_key (l := l) hkey
        have hfound : found p l (q :: qs) =
            (q, (l.lookUp q).2) :: found p (l.lookUp q).1 qs := by
          rw [found, if_pos hkey]
          rfl
        rw [hfound, hall, ihleft, hleft, List.drop_tail, List.length_cons]
        refine ⟨?_, rfl⟩
        intro j q' answer hj
        cases j with
        | zero =>
            simp only [List.getElem?_cons_zero, Option.some.injEq, Prod.mk.injEq] at hj
            obtain ⟨rfl, rfl⟩ := hj
            rw [hanswer, List.head?_eq_getElem?]
        | succ j =>
            have hnext := ihfound j q' answer hj
            rw [hleft, List.getElem?_tail] at hnext
            exact hnext
      -- A lookup under another key leaves what is under this one.
      · have hfound : found p l (q :: qs) = found p (l.lookUp q).1 qs := by
          rw [found, if_neg hkey]
          rfl
        rw [lookUp_of_spared (hspared hkey)] at ihfound ihleft
        rw [hfound, hall]
        exact ⟨ihfound, ihleft⟩

/-- **A lookup takes the oldest request with its key, and nothing else.** It succeeds exactly when
an entry has its key. It then removes the oldest such entry, with its number, and keeps the others
in order; the query gets the two channels and the other sequence number of that entry, and is
otherwise as it was. Where no entry has its key nothing changes. So, whatever lookups follow one
another, as long as no lookup for another key takes an entry with a key, the lookups for that key
find the entries that have it, oldest first, and nothing when these are used up. -/
theorem lookups_take_oldest :
    (∀ (l : Ledger) (query : Message) (how : Correlation),
      ((l.findAndRemove query how).2.isSome = true ↔
          ∃ entry ∈ l.entries, how.Matches query entry) ∧
        ((∃ entry ∈ l.entries, how.Matches query entry) →
          ∃ before entry after, l.entries = before ++ entry :: after ∧
            (∀ e ∈ before, ¬how.Matches query e) ∧ how.Matches query entry ∧
            (l.findAndRemove query how).1 =
              { l with entries := before ++ after, numbers := l.numbers.release (slot entry) } ∧
            (l.findAndRemove query how).2 = some (match how with
              | .response => { query with
                  infSource := entry.infSource
                  infTarget := entry.infTarget
                  seqSource := entry.seqSource }
              | .bridgeSource => { query with
                  infSource := entry.infSource
                  infTarget := entry.infTarget
                  seqTarget := entry.seqTarget })) ∧
        ((¬∃ entry ∈ l.entries, how.Matches query entry) →
          l.findAndRemove query how = (l, none))) ∧
      ∀ (l : Ledger) (p : Lookup) (qs : List Lookup), SparesKey p l qs →
        (∀ (j : Nat) (q : Lookup) (answer : Option Message),
          (found p l qs)[j]? = some (q, answer) →
            (answer.isSome = true ↔ j < (l.entriesFor p).length) ∧
              answer = (l.entriesFor p)[j]?.map q.complete) ∧
          (l.lookUpAll qs).entriesFor p = (l.entriesFor p).drop (found p l qs).length := by
  constructor
  · intro l query how
    refine ⟨?_, ?_, findAndRemove_of_unmatched⟩
    · by_cases h : ∃ entry ∈ l.entries, how.Matches query entry
      · obtain ⟨before, entry, after, -, -, -, hfound⟩ := findAndRemove_of_matches h
        simp only [hfound, h, Option.isSome_some]
      · simp only [findAndRemove_of_unmatched h, h, Option.isSome_none, Bool.false_eq_true]
    · intro h
      obtain ⟨before, entry, after, hentries, hbefore, hentry, hfound⟩ :=
        findAndRemove_of_matches h
      refine ⟨before, entry, after, hentries, hbefore, hentry, by rw [hfound]; rfl, ?_⟩
      rw [hfound]
      cases how <;> rfl
  · intro l p qs hspares
    obtain ⟨hfound, hleft⟩ := found_eq hspares
    refine ⟨?_, hleft⟩
    intro j q answer hj
    have hanswer := hfound j q answer hj
    refine ⟨?_, hanswer⟩
    rw [hanswer, Option.isSome_map, isSome_getElem?]

/-- A response to a request that has been recorded under a number. -/
def responseUnder (number : UInt8) : Lookup :=
  ⟨{ netFn := 0x07, cmd := 0x01, seqTarget := number, data := ⟨[0xAA], by decide⟩ }, .response⟩

/-- Two requests under one number, and between them one under another number. -/
def twins : Ledger :=
  (new 3).run
    [.stage { requestUnder 5 with seqSource := 1, infSource := .hostKcs } 10,
      .stage { requestUnder 6 with seqSource := 2 } 20,
      .stage { requestUnder 5 with seqSource := 3, infSource := .meIpmb } 30]

/-- Three responses under that number; another lookup comes between the first two. -/
def responses : List Lookup :=
  [responseUnder 5, ⟨{ netFn := 0x06, cmd := 0x01, seqSource := 2 }, .bridgeSource⟩,
    responseUnder 5, responseUnder 5]

/-- Two entries under one key, and three responses to them: the first two find the entries in their
order, and the third finds nothing. -/
theorem lookups_take_oldest_twins :
    SparesKey (responseUnder 5) twins responses ∧
      (found (responseUnder 5) twins responses).map Prod.snd =
        [some { (responseUnder 5).query with seqSource := 1, infSource := .hostKcs },
          some { (responseUnder 5).query with seqSource := 3, infSource := .meIpmb }, none] ∧
      (twins.lookUpAll responses).entriesFor (responseUnder 5) = [] ∧
      (twins.findAndRemove (responseUnder 5).query .response).2.isSome = true ∧
      (twins.findAndRemove (responseUnder 5).query .response).1.entries.map (·.seqSource) =
        [2, 3] := by
  have hspares : SparesKey (responseUnder 5) twins responses := by decide +kernel
  have hpresent : ∃ entry ∈ twins.entries,
      Correlation.response.Matches (responseUnder 5).query entry := by decide +kernel
  obtain ⟨hone, hmany⟩ := lookups_take_oldest
  obtain ⟨hsucceeds, -⟩ := hone twins (responseUnder 5).query .response
  obtain ⟨-, hleft⟩ := hmany twins (responseUnder 5) responses hspares
  refine ⟨hspares, by decide +kernel, ?_, hsucceeds.mpr hpresent, by decide +kernel⟩
  rw [hleft]
  decide +kernel

end Ledger

end ManagementBus
