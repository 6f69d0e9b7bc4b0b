import Mathlib.Data.List.Flatten
import ManagementBus.Proofs.Delivery
import ManagementBus.Proofs.HostAccount
import ManagementBus.Proofs.Manifest

/-!
# How often an envelope is tried

A request is given up after the write whose failure exceeds the limit, and a response is dropped
when it comes to its turn with a count over the limit. The two rules come to the same: every
envelope is written once and then once for each retry, until a write succeeds.

`Trials` is the record of that on one bus. Beside the manifest, which names the envelopes, it has
the writes that have been tried, as the link counts them, and the reports of failure, as the host
and the buses get them, each with the number of the envelope in hand. The invariant that carries the
count through the queue ties the counter of every envelope that waits or is in hand to the number of
its writes that have failed.

## Main results

* `Stack.told_finishWrite`: the end of one write tells one originator at most.
* `Trials.counted_step`, `Trials.counted_along`: every counter is the number of failed writes, and
  no envelope is tried beyond the limit.
-/

namespace ManagementBus

open EnvelopeProperty

/-! ### What is tried and what is told -/

/-- A link counts every write, whatever comes of it. -/
theorem Link.writes_write (l : Link) (addr : UInt8) (payload : List UInt8) :
    (l.write addr payload).1.near.writes = l.near.writes + 1 := by
  rw [write]
  split
  · rfl
  · split
    · rfl
    · rfl

/-- Every attempt writes to the link once. -/
theorem Bus.writes_attempt (b : Bus) (m : Message) :
    (b.attempt m).1.near.writes = b.link.near.writes + 1 := by
  rw [attempt, Frame.encode_eq]
  exact Link.writes_write _ _ _

namespace Stack

variable {s t u : Stack} {i : Nat} {b c : Bus} {e : Envelope} {m : Message}

/-- The number of writes that have been tried on the link of a bus. -/
def triedOn (s : Stack) (i : Nat) : Nat := (s.buses[i]?.map fun b => b.link.near.writes).getD 0

/-- How many originators have been told of a failure between two states: by buffers for the host,
and by envelopes queued on any bus. The envelope itself, back in its queue, is not one of these. -/
def told (s t : Stack) (e : Envelope) : Nat :=
  (t.answers - s.answers) +
    ((List.range s.buses.length).flatMap fun j =>
      (s.queuedOn t j).filter fun f => f ≠ e.failed).length

/-- The writes tried on a bus that there is. -/
theorem triedOn_eq (hb : s.buses[i]? = some b) : s.triedOn i = b.link.near.writes := by
  rw [triedOn, hb]
  rfl

/-- **A report that a request could not be delivered** is one buffer for the host, or one response
on one bus, or nothing at all. -/
theorem reportFailure_one (s : Stack) (m : Message) :
    TellsHost s (s.reportFailure m) ∨ Sends Nothing s (s.reportFailure m) ∨
      ∃ j, SendsOne j Reply s (s.reportFailure m) := by
  by_cases hsource : m.infSource = .hostKcs
  · rcases reportFailure_cases s m with ⟨-, hhost⟩ | ⟨habsurd, -⟩
    · exact .inl hhost
    · exact absurd hsource habsurd
  · refine .inr ?_
    rw [reportFailure]
    simp only [hsource, if_false]
    split
    · exact .inl ((Sends.refl _ s).emit _)
    · split
      · exact .inl ((Sends.refl _ s).emit _)
      · split
        · exact .inl ((Sends.refl _ s).emit _)
        · next target _ =>
            have hreply : ∀ busy e, responseTo (nodeBusyReport m) busy e → Reply busy e :=
              fun _ _ => Reply.of_responseTo (Message.isResponse_of_enterprise rfl)
            rcases trySendResponse_outcome s (nodeBusyReport m) target with
              ⟨hok, hone⟩ | ⟨⟨fault, hfault⟩, hnothing⟩
            · split
              · next heq =>
                  rw [heq] at hone
                  exact .inr ⟨target, hone.mono hreply⟩
              · next heq =>
                  rw [heq] at hok
                  cases hok
            · exact .inl (Sends.orEmit (f := fun fault => _) hnothing)

/-- Of some lists only one may have an element. -/
theorem length_flatMap_le_one {α : Type} {l : List Nat} {f : Nat → List α} {j : Nat} (hl : l.Nodup)
    (hj : (f j).length ≤ 1) (hothers : ∀ k, k ≠ j → f k = []) : (l.flatMap f).length ≤ 1 := by
  induction l with
  | nil => exact Nat.zero_le 1
  | cons k l ih =>
      obtain ⟨hk, hl⟩ := List.nodup_cons.mp hl
      rw [List.flatMap_cons, List.length_append]
      by_cases hkj : k = j
      · subst hkj
        have hrest : l.flatMap f = [] := by
          refine List.flatMap_eq_nil_iff.mpr fun n hn => hothers n ?_
          rintro rfl
          exact hk hn
        rw [hrest]
        exact hj
      · rw [hothers k hkj, List.length_nil, Nat.zero_add]
        exact ih hl

/-- Nobody is told where nothing is written to the host, and nothing queued but the envelope. -/
theorem told_eq_zero (hkcs : t.kcs = s.kcs)
    (hqueued : ∀ j, ∀ f ∈ s.queuedOn t j, f = e.failed) : s.told t e = 0 := by
  have hnil : ((List.range s.buses.length).flatMap fun j =>
      (s.queuedOn t j).filter fun f => f ≠ e.failed) = [] := by
    refine List.flatMap_eq_nil_iff.mpr fun j _ => List.filter_eq_nil_iff.mpr fun f hf => ?_
    simp [hqueued j f hf]
  rw [told, hnil, answers_of_kcs hkcs, Nat.sub_self, List.length_nil]

/-- A report tells one originator at most. -/
theorem told_reportFailure_le (hkcs : u.kcs = s.kcs) (hwaiting : ∀ j, u.waitingOn j = s.waitingOn j)
    (m : Message) (e : Envelope) : s.told (u.reportFailure m) e ≤ 1 := by
  have hanswers : u.answers = s.answers := answers_of_kcs hkcs
  have hqueued : ∀ j, s.queuedOn (u.reportFailure m) j = u.queuedOn (u.reportFailure m) j :=
    fun j => (queuedOn_congr (hwaiting j)).symm
  rcases reportFailure_one u m with hhost | hnothing | ⟨target, hone⟩
  · have hnil : ((List.range s.buses.length).flatMap fun j =>
        (s.queuedOn (u.reportFailure m) j).filter fun f => f ≠ e.failed) = [] := by
      refine List.flatMap_eq_nil_iff.mpr fun j _ => ?_
      have hsame : (u.reportFailure m).waitingOn j = u.waitingOn j :=
        waitingOn_congr (by rw [hhost.buses])
      rw [hqueued, queuedOn_eq (by rw [hsame, List.append_nil]), List.filter_nil]
    have hle := hhost.answers_le
    rw [told, hnil, List.length_nil]
    omega
  · have hzero : s.told (u.reportFailure m) e = 0 := by
      refine told_eq_zero (hnothing.kcs.trans hkcs) fun j f hf => ?_
      rw [hqueued] at hf
      obtain ⟨_, hfalse⟩ := hnothing.queuedOn j f hf
      exact hfalse.elim
    omega
  · obtain ⟨f, -, -, hself, hothers⟩ := hone.waitingOn
    have hsame : (u.reportFailure m).answers = s.answers :=
      (answers_of_kcs hone.sends.kcs).trans hanswers
    rw [told, hsame, Nat.sub_self, Nat.zero_add]
    refine length_flatMap_le_one (j := target) List.nodup_range ?_ fun k hk => ?_
    · rw [hqueued, queuedOn_eq hself]
      exact List.length_filter_le _ [f]
    · rw [hqueued, queuedOn_eq (by rw [hothers k hk, List.append_nil]), List.filter_nil]

/-- **The end of one write tells one originator at most**, and only of a request that is given
up. -/
theorem told_finishWrite (hb : s.buses[i]? = some b) (e : Envelope) :
    s.told (s.finishWrite i b e) e = 0 ∨
      s.told (s.finishWrite i b e) e = 1 ∧ b.delivers e = false ∧ e.msg.isResponse = false ∧
        s.timing.maxRetries < e.failed.retries := by
  have hreplaces : ∀ {c : Bus} {added : List Envelope}, Replaces i c s (s.finishWrite i b e) →
      c.outbound.items = b.outbound.items ++ added → (∀ f ∈ added, f = e.failed) →
      s.told (s.finishWrite i b e) e = 0 := by
    intro c added ht hitems hadded
    refine told_eq_zero ht.kcs fun j f hf => ?_
    rw [queuedOn_eq (ht.waitingOn hb hitems j)] at hf
    split at hf
    · exact hadded f hf
    · cases hf
  rcases finishWrite_cases hb e with ⟨-, ht⟩ | ⟨-, -, ht⟩ | ⟨hfails, hrequest, hretries, u, hu, ht⟩
  · exact .inl (hreplaces ht (List.append_nil _).symm (by simp))
  · have hoffered : (b.retrying e).outbound = (b.outbound.put e.failed).1 := rfl
    rcases b.outbound.put_cases e.failed with ⟨-, hput⟩ | ⟨-, hput⟩
    · exact .inl (hreplaces ht (by rw [hoffered, hput]) (fun f hf => List.mem_singleton.mp hf))
    · exact .inl (hreplaces ht (by rw [hoffered, hput, List.append_nil]) (by simp))
  · have hle := told_reportFailure_le hu.kcs (fun j => hu.waitingOn_of_eq hb rfl j) e.msg e
    rw [← ht] at hle
    rcases Nat.le_one_iff_eq_zero_or_eq_one.mp hle with hzero | hone
    · exact .inl hzero
    · exact .inr ⟨hone, hfails, hrequest, hretries⟩

/-- Whoever has been told by an envelope on one bus has been told. -/
theorem length_queuedOn_le_told (hb : s.buses[i]? = some b)
    (hothers : ∀ f ∈ s.queuedOn t i, f ≠ e.failed) : (s.queuedOn t i).length ≤ s.told t e := by
  obtain ⟨hlt, -⟩ := List.getElem?_eq_some_iff.mp hb
  have hfilter : ((s.queuedOn t i).filter fun f => f ≠ e.failed) = s.queuedOn t i :=
    List.filter_eq_self.mpr fun f hf => by simpa using hothers f hf
  have hsub := (List.singleton_sublist.mpr (List.mem_range.mpr hlt)).flatMap fun j =>
    (s.queuedOn t j).filter fun f => f ≠ e.failed
  have hle := hsub.length_le
  rw [List.flatMap_singleton, hfilter] at hle
  rw [told]
  omega

end Stack

/-! ### The two ends of a write -/

/-- Two envelopes agree in all that decides how often they are tried and under what number. -/
structure Envelope.Alike (e f : Envelope) : Prop where
  retries : f.retries = e.retries
  isResponse : f.msg.isResponse = e.msg.isResponse
  seq : f.msg.seq = e.msg.seq

/-- **What becomes of an envelope that the worker takes**: a response that has used up its retries
is dropped, and any other envelope is in hand. -/
inductive Bus.Takes (maxRetries : UInt32) (e : Envelope) (c : Bus) : Prop
  | dropped (hresponse : e.msg.isResponse = true) (hretries : maxRetries < e.retries)
      (hhand : c.inHand = none)
  | taken {f : Envelope} (hhand : c.inHand = some f) (halike : e.Alike f)
      (hretries : e.msg.isResponse = true → ¬maxRetries < e.retries)

namespace Scheduler

open Stack

variable {s : Scheduler} {a : Action} {i : Nat} {e : Envelope}

/-- **An action by which the worker takes an envelope.** -/
theorem exists_takes (h : s.stack.takes? i a = some e) :
    ∃ b c rest, s.stack.buses[i]? = some b ∧ b.inHand = none ∧ b.outbound.items = e :: rest ∧
      Replaces i c s.stack (s.perform a).stack ∧ c.config = b.config ∧ c.link = b.link ∧
      c.outbound = { b.outbound with items := rest } ∧
      Bus.Takes s.stack.timing.maxRetries e c := by
  obtain ⟨b, rest, hb, hidle, hitems, hcases⟩ := takes_cases h
  refine ⟨b, ?_⟩
  rcases hcases with ⟨hresponse, hover, ht⟩ | ⟨-, hleft, ht⟩ | ⟨hrequest, ht⟩
  · exact ⟨_, rest, hb, hidle, hitems, ht, rfl, rfl, rfl, .dropped hresponse hover hidle⟩
  · exact ⟨_, rest, hb, hidle, hitems, ht, rfl, rfl, rfl,
      .taken rfl ⟨rfl, rfl, rfl⟩ fun _ => hleft⟩
  · refine ⟨_, rest, hb, hidle, hitems, ht, rfl, rfl, rfl, .taken rfl ⟨rfl, rfl, rfl⟩ ?_⟩
    intro hresponse
    rw [hrequest] at hresponse
    cases hresponse

/-- The end of a write is one write on the link. -/
theorem triedOn_of_ends (h : s.stack.ends? i a = some e) :
    (s.perform a).stack.triedOn i - s.stack.triedOn i = 1 := by
  obtain ⟨b, c, -, -, hb, -, hc, -, -, hlink, -⟩ := exists_ends h
  rw [triedOn_eq hc, triedOn_eq hb, hlink, Bus.writes_attempt]
  omega

/-- The end of a write queues one report at most on its bus. -/
theorem length_queuedOn_le_of_ends (h : s.stack.ends? i a = some e)
    (hothers : ∀ f ∈ s.stack.queuedOn (s.perform a).stack i, f ≠ e.failed) :
    (s.stack.queuedOn (s.perform a).stack i).length ≤ 1 := by
  obtain ⟨b, hb, -, hfinish⟩ := perform_of_ends h
  have hle := length_queuedOn_le_told hb hothers
  have htold := told_finishWrite hb e
  rw [← hfinish] at htold
  omega

end Scheduler

/-! ### The record -/

/-- How often each envelope of a bus has been tried. -/
structure Trials where
  manifest : Manifest := {}
  /-- The writes that have been tried, in order: the number of the envelope, and whether the write
  has succeeded. -/
  writes : List (Nat × Bool) := []
  /-- For each originator that has been told of a failure, the number of the envelope. -/
  reports : List Nat := []
deriving DecidableEq

namespace Trials

/-- Whether each write of an envelope has succeeded, in order. -/
def triesOf (x : Trials) (n : Nat) : List Bool := (x.writes.filter fun p => p.1 = n).map Prod.snd

/-- How many reports of failure an envelope has caused. -/
def reportsOf (x : Trials) (n : Nat) : Nat := x.reports.count n

/-- Some writes of the envelope in hand have been tried, and some originators told. -/
def tried (x : Trials) (count : Nat) (success : Bool) (told : Nat) : Trials :=
  { x with
    writes :=
      x.writes ++ x.manifest.inHand.toList.flatMap fun n => List.replicate count (n, success)
    reports := x.reports ++ x.manifest.inHand.toList.flatMap fun n => List.replicate told n }

/-- The record with another manifest. -/
def withManifest (x : Trials) (manifest : Manifest) : Trials := { x with manifest }

/-- The record of a bus after an action between two states. -/
def step (x : Trials) (i : Nat) (s : Stack) (a : Action) (t : Stack) : Trials :=
  (match s.ends? i a with
    | some e => x.tried (t.triedOn i - s.triedOn i) (s.deliveredOn t i ≠ []) (s.told t e)
    | none => x).withManifest (x.manifest.step i s a t)

/-- The record after a run. -/
def along (x : Trials) (i : Nat) (s : Scheduler) : List Action → Trials
  | [] => x
  | a :: as => (x.step i s.stack a (s.perform a).stack).along i (s.perform a) as

/-- The tries on record do not depend on the manifest. -/
@[simp] theorem triesOf_withManifest (x : Trials) (manifest : Manifest) (n : Nat) :
    (x.withManifest manifest).triesOf n = x.triesOf n := rfl

/-- The reports on record do not depend on the manifest. -/
@[simp] theorem reportsOf_withManifest (x : Trials) (manifest : Manifest) (n : Nat) :
    (x.withManifest manifest).reportsOf n = x.reportsOf n := rfl

/-- The record has the manifest that it is given. -/
@[simp] theorem manifest_withManifest (x : Trials) (manifest : Manifest) :
    (x.withManifest manifest).manifest = manifest := rfl

variable {x : Trials} {n k : Nat}

/-- A write is recorded for the envelope in hand. -/
theorem triesOf_tried_self (success : Bool) (told : Nat) (hhand : x.manifest.inHand = some n) :
    (x.tried 1 success told).triesOf n = x.triesOf n ++ [success] := by
  simp [triesOf, tried, hhand]

/-- A write is recorded for no envelope but the one in hand. -/
theorem triesOf_tried_ne (success : Bool) (told : Nat) (hhand : x.manifest.inHand = some n)
    (hk : k ≠ n) : (x.tried 1 success told).triesOf k = x.triesOf k := by
  simp [triesOf, tried, hhand, Ne.symm hk]

/-- The originators that are told are recorded for the envelope in hand. -/
theorem reportsOf_tried_self (success : Bool) (told : Nat) (hhand : x.manifest.inHand = some n) :
    (x.tried 1 success told).reportsOf n = x.reportsOf n + told := by
  simp [reportsOf, tried, hhand]

/-- The originators that are told are recorded for no other envelope. -/
theorem reportsOf_tried_ne (success : Bool) (told : Nat) (hhand : x.manifest.inHand = some n)
    (hk : k ≠ n) : (x.tried 1 success told).reportsOf k = x.reportsOf k := by
  simp [reportsOf, tried, hhand, List.count_replicate, Ne.symm hk]

/-- One write is recorded. -/
theorem length_writes_tried (success : Bool) (told : Nat) (hhand : x.manifest.inHand = some n) :
    (x.tried 1 success told).writes.length = x.writes.length + 1 := by
  simp [tried, hhand]

/-- What is recorded of the envelope with a number is the same in two records. -/
structure Keeps (x y : Trials) (n : Nat) : Prop where
  accepted : ∀ f, x.manifest.accepted[n]? = some f → y.manifest.accepted[n]? = some f
  tries : y.triesOf n = x.triesOf n
  reports : y.reportsOf n = x.reportsOf n

/-! ### The count -/

/-- An envelope that waits, under its number: all its writes have failed, as many as it has counted,
nobody has been told, and the count is within the limit. The limit of a response is one more, for it
is looked at before the next write and not after the last. -/
structure Pending (R : Nat) (x : Trials) (n : Nat) (e : Envelope) : Prop where
  accepted : ∃ f, x.manifest.accepted[n]? = some f ∧ f.msg.isResponse = e.msg.isResponse
  tries : x.triesOf n = List.replicate e.retries.toNat false
  reports : x.reportsOf n = 0
  count : e.retries.toNat ≤ if e.msg.isResponse then R + 1 else R

/-- An envelope in hand, under its number: it has a write left. -/
structure Held (R : Nat) (x : Trials) (n : Nat) (e : Envelope) : Prop
    extends Pending R x n e where
  left : e.retries.toNat ≤ R

/-- What may have become of the envelope with a number: its writes have failed, no more than one
over the limit; or they have failed until one has succeeded. One originator has been told at most,
of a request, and after its last write. -/
structure Bounded (R : Nat) (x : Trials) (n : Nat) : Prop where
  tries : (∃ k ≤ R + 1, x.triesOf n = List.replicate k false) ∨
    ∃ k ≤ R, x.triesOf n = List.replicate k false ++ [true]
  reports : x.reportsOf n ≤ 1
  reported : x.reportsOf n = 1 → x.triesOf n = List.replicate (R + 1) false ∧
    ∃ f, x.manifest.accepted[n]? = some f ∧ f.msg.isResponse = false

/-- A record agrees with a bus: every envelope there is under a number of its own, and the counters
are the numbers of failed writes. -/
structure Counted (R : Nat) (b : Bus) (x : Trials) : Prop where
  places : (x.manifest.inHand.toList ++ x.manifest.waiting).Nodup
  waiting : List.Forall₂ (x.Pending R) x.manifest.waiting b.outbound.items
  inHand : List.Forall₂ (x.Held R) x.manifest.inHand.toList b.inHand.toList
  bounded : ∀ n, x.Bounded R n
  fresh : ∀ n, x.manifest.accepted.length ≤ n → x.triesOf n = [] ∧ x.reportsOf n = 0

section Count

variable {R : Nat} {x y : Trials} {b c : Bus} {e f : Envelope} {n : Nat}
  {rest added : List Envelope}

/-- What is recorded of an envelope that waits depends on its own record only. -/
theorem Pending.keeps (h : x.Pending R n e) (hxy : x.Keeps y n) : y.Pending R n e := by
  obtain ⟨f, hf, hresponse⟩ := h.accepted
  exact ⟨⟨f, hxy.accepted f hf, hresponse⟩, hxy.tries.trans h.tries, hxy.reports.trans h.reports,
    h.count⟩

/-- What is recorded of an envelope in hand depends on its own record only. -/
theorem Held.keeps (h : x.Held R n e) (hxy : x.Keeps y n) : y.Held R n e :=
  ⟨h.toPending.keeps hxy, h.left⟩

/-- The bound on the tries of an envelope depends on its own record only. -/
theorem Bounded.keeps (h : x.Bounded R n) (hxy : x.Keeps y n) : y.Bounded R n := by
  obtain ⟨haccepted, htries, hreports⟩ := hxy
  refine ⟨by rw [htries]; exact h.tries, by rw [hreports]; exact h.reports, ?_⟩
  rw [hreports, htries]
  intro hone
  obtain ⟨hall, f, hf, hrequest⟩ := h.reported hone
  exact ⟨hall, f, haccepted f hf, hrequest⟩

/-- An envelope that waits has been accepted. -/
theorem Pending.lt_length (h : x.Pending R n e) : n < x.manifest.accepted.length := by
  obtain ⟨f, hf, -⟩ := h.accepted
  exact (List.getElem?_eq_some_iff.mp hf).1

/-- Every number in use is that of an accepted envelope. -/
theorem Counted.lt_length (h : Counted R b x)
    (hn : n ∈ x.manifest.inHand.toList ++ x.manifest.waiting) :
    n < x.manifest.accepted.length := by
  rcases List.mem_append.mp hn with hn | hn
  · exact Manifest.forall_mem_of_beside h.inHand (fun _ _ hheld => hheld.lt_length) n hn
  · exact Manifest.forall_mem_of_beside h.waiting (fun _ _ hpending => hpending.lt_length) n hn

/-! ### One action on the bus -/

/-- Envelopes that have not been tried are accepted. -/
theorem Counted.accept (h : Counted R b x) (hhand : c.inHand = b.inHand)
    (hitems : c.outbound.items = b.outbound.items ++ added)
    (hadded : ∀ e ∈ added, e.retries = 0) :
    Counted R c (x.withManifest (x.manifest.accept added)) := by
  have hkeeps : ∀ n, x.Keeps (x.withManifest (x.manifest.accept added)) n := by
    refine fun n => ⟨fun f hf => ?_, rfl, rfl⟩
    obtain ⟨hlt, -⟩ := List.getElem?_eq_some_iff.mp hf
    exact (List.getElem?_append_left hlt).trans hf
  have hnew : List.Forall₂ ((x.withManifest (x.manifest.accept added)).Pending R)
      (List.range' x.manifest.accepted.length added.length) added := by
    refine List.forall₂_iff_get.mpr ⟨List.length_range', fun k hk hk' => ?_⟩
    have hzero := hadded _ (List.get_mem added ⟨k, hk'⟩)
    obtain ⟨htries, hreports⟩ := h.fresh (x.manifest.accepted.length + k) (Nat.le_add_right _ k)
    refine ⟨⟨added.get ⟨k, hk'⟩, ?_, rfl⟩, ?_, ?_, ?_⟩
    · simp [Manifest.accept, List.getElem?_append_right (Nat.le_add_right _ k)]
    · rw [hzero]
      simpa using htries
    · simpa using hreports
    · rw [hzero]
      exact Nat.zero_le _
  refine
    { places := ?_
      waiting := ?_
      inHand := ?_
      bounded := fun n => (h.bounded n).keeps (hkeeps n)
      fresh := fun n hn => h.fresh n (Nat.le_trans ?_ hn) }
  · have hapart : ∀ n ∈ x.manifest.inHand.toList ++ x.manifest.waiting,
        ∀ k ∈ List.range' x.manifest.accepted.length added.length, n ≠ k := by
      intro n hn k hk
      have hlt := h.lt_length hn
      obtain ⟨i, -, rfl⟩ := List.mem_range'.mp hk
      omega
    have hplaces := List.nodup_append.mpr ⟨h.places, List.nodup_range' 1, hapart⟩
    rw [List.append_assoc] at hplaces
    exact hplaces
  · rw [hitems]
    exact List.rel_append (h.waiting.imp fun n _ hn => hn.keeps (hkeeps n)) hnew
  · rw [hhand]
    exact h.inHand.imp fun n _ hn => hn.keeps (hkeeps n)
  · simp [Manifest.accept]

/-- The oldest envelope leaves the queue. A request is in hand; a response is in hand if it has a
write left, and is dropped otherwise. -/
theorem Counted.take (h : Counted R b x) (hidle : b.inHand = none)
    (hitems : b.outbound.items = e :: rest) (hrest : c.outbound.items = rest)
    (hhand : c.inHand = none ∨ ∃ f, c.inHand = some f ∧ f.retries = e.retries ∧
      f.msg.isResponse = e.msg.isResponse ∧ (e.msg.isResponse = true → e.retries.toNat ≤ R)) :
    Counted R c (x.withManifest (x.manifest.take c.inHand.isSome)) := by
  let y := x.withManifest (x.manifest.take c.inHand.isSome)
  have hkeeps : ∀ n, x.Keeps y n := fun n => ⟨fun _ hf => hf, rfl, rfl⟩
  have hwaiting := h.waiting
  rw [hitems, List.forall₂_cons_right_iff] at hwaiting
  obtain ⟨n, ns, hpending, hns, hxs⟩ := hwaiting
  have hplaces := h.places
  rw [Manifest.inHand_eq_none h.inHand hidle, hxs, Option.toList_none, List.nil_append] at hplaces
  have hmoved : y.manifest.waiting = ns := by
    simp only [y, manifest_withManifest, Manifest.take, hxs, List.tail_cons]
  have htaken : y.manifest.inHand = if c.inHand.isSome then some n else none := by
    simp only [y, manifest_withManifest, Manifest.take, hxs, List.head?_cons]
  have hheld : List.Forall₂ (y.Held R) y.manifest.inHand.toList c.inHand.toList := by
    rw [htaken]
    rcases hhand with hnone | ⟨f, hsome, hretries, hresponse, hleft⟩
    · rw [hnone]
      exact .nil
    · obtain ⟨haccepted, htries, hreports, hcount⟩ := hpending
      rw [← hresponse] at haccepted hcount hleft
      rw [← hretries] at htries hcount hleft
      have hf : f.retries.toNat ≤ R := by
        by_cases hkind : f.msg.isResponse = true
        · exact hleft hkind
        · rw [if_neg hkind] at hcount
          exact hcount
      have hxheld : x.Held R n f := ⟨⟨haccepted, htries, hreports, hcount⟩, hf⟩
      rw [hsome]
      exact .cons (hxheld.keeps (hkeeps n)) .nil
  refine
    { places := ?_
      waiting := ?_
      inHand := hheld
      bounded := fun n => (h.bounded n).keeps (hkeeps n)
      fresh := h.fresh }
  · rw [hmoved, htaken]
    split
    · exact hplaces
    · exact (List.nodup_cons.mp hplaces).2
  · rw [hrest, hmoved]
    exact hns.imp fun n _ hn => hn.keeps (hkeeps n)

/-- The envelope in hand has been tried once more, and is in no place. An originator has been told
only of a request, after its last write. -/
theorem Counted.written {success : Bool} {told : Nat} {arrived : List (List UInt8)}
    (h : Counted R b x) (hhand : b.inHand = some e) (hidle : c.inHand = none)
    (hitems : c.outbound.items = b.outbound.items)
    (htold : told = 0 ∨
      told = 1 ∧ success = false ∧ e.msg.isResponse = false ∧ e.retries.toNat = R) :
    Counted R c ((x.tried 1 success told).withManifest (x.manifest.finish arrived)) := by
  obtain ⟨n, hheld, hxhand⟩ := Manifest.exists_held h.inHand hhand
  have haccepted : (x.manifest.finish arrived).accepted = x.manifest.accepted :=
    x.manifest.accepted_finish arrived
  have hkeeps : ∀ k, k ≠ n →
      x.Keeps ((x.tried 1 success told).withManifest (x.manifest.finish arrived)) k := by
    intro k hk
    refine ⟨fun f hf => ?_, triesOf_tried_ne success told hxhand hk,
      reportsOf_tried_ne success told hxhand hk⟩
    rw [manifest_withManifest, haccepted]
    exact hf
  have hplaces := h.places
  rw [hxhand, Option.toList_some, List.singleton_append, List.nodup_cons] at hplaces
  -- Only the record of the number in hand changes, and that number does not wait.
  have hwaits := (List.forall₂_and_left (p := (· ≠ n)) _ _).mpr
    ⟨fun k hk => by rintro rfl; exact hplaces.1 hk, h.waiting⟩
  have htries := triesOf_tried_self success told hxhand
  have hreports := reportsOf_tried_self success told hxhand
  rw [hheld.tries] at htries
  rw [hheld.reports, Nat.zero_add] at hreports
  refine
    { places := ?_
      waiting := ?_
      inHand := ?_
      bounded := fun k => ?_
      fresh := fun k hk => ?_ }
  · rw [manifest_withManifest, Manifest.inHand_finish, Manifest.waiting_finish]
    exact hplaces.2
  · rw [manifest_withManifest, Manifest.waiting_finish, hitems]
    exact hwaits.imp fun k _ hk => hk.2.keeps (hkeeps k hk.1)
  · rw [manifest_withManifest, Manifest.inHand_finish, hidle]
    exact .nil
  · by_cases hk : k = n
    · subst hk
      refine ⟨?_, ?_, fun hone => ?_⟩
      · rw [triesOf_withManifest, htries]
        cases success with
        | true => exact .inr ⟨_, hheld.left, rfl⟩
        | false =>
            refine .inl ⟨e.retries.toNat + 1, Nat.succ_le_succ hheld.left, ?_⟩
            rw [List.replicate_succ']
      · rw [reportsOf_withManifest, hreports]
        omega
      · rw [reportsOf_withManifest, hreports] at hone
        rcases htold with hzero | ⟨-, rfl, hrequest, hlast⟩
        · omega
        · obtain ⟨f, hf, hsame⟩ := hheld.accepted
          refine ⟨?_, f, ?_, hsame.trans hrequest⟩
          · rw [triesOf_withManifest, htries, hlast, List.replicate_succ']
          · rw [manifest_withManifest, haccepted]
            exact hf
    · exact (h.bounded k).keeps (hkeeps k hk)
  · rw [manifest_withManifest, haccepted] at hk
    have hne : k ≠ n := by
      rintro rfl
      exact absurd hheld.lt_length (Nat.not_lt.mpr hk)
    obtain ⟨htries', hreports'⟩ := h.fresh k hk
    exact ⟨(hkeeps k hne).tries.trans htries', (hkeeps k hne).reports.trans hreports'⟩

/-- The envelope in hand has been tried for the last time, and others are perhaps accepted. -/
theorem Counted.leave {success : Bool} {told : Nat} {arrived : List (List UInt8)}
    (h : Counted R b x) (hhand : b.inHand = some e) (hidle : c.inHand = none)
    (hitems : c.outbound.items = b.outbound.items ++ added) (hadded : ∀ f ∈ added, f.retries = 0)
    (htold : told = 0 ∨
      told = 1 ∧ success = false ∧ e.msg.isResponse = false ∧ e.retries.toNat = R) :
    Counted R c
      ((x.tried 1 success told).withManifest ((x.manifest.finish arrived).accept added)) := by
  have hwritten : Counted R { b with inHand := none }
      ((x.tried 1 success told).withManifest (x.manifest.finish arrived)) :=
    h.written hhand rfl rfl htold
  exact hwritten.accept hidle hitems hadded

/-- The write of the envelope in hand has failed, and the envelope waits again with its count. -/
theorem Counted.retry (h : Counted R b x) (hhand : b.inHand = some e) (hidle : c.inHand = none)
    (hitems : c.outbound.items = b.outbound.items ++ [e.failed])
    (hfailed : e.failed.retries.toNat = e.retries.toNat + 1)
    (hlimit : e.msg.isResponse = true ∨ e.failed.retries.toNat ≤ R) :
    Counted R c
      ((x.tried 1 false 0).withManifest ((x.manifest.finish []).putBack x.manifest.inHand)) := by
  obtain ⟨n, hheld, hxhand⟩ := Manifest.exists_held h.inHand hhand
  have hwritten : Counted R { b with inHand := none }
      ((x.tried 1 false 0).withManifest (x.manifest.finish [])) :=
    h.written hhand rfl rfl (.inl rfl)
  let y := (x.tried 1 false 0).withManifest ((x.manifest.finish []).putBack x.manifest.inHand)
  have hkeeps : ∀ k, ((x.tried 1 false 0).withManifest (x.manifest.finish [])).Keeps y k :=
    fun k => ⟨fun _ hf => hf, rfl, rfl⟩
  have hplaces := h.places
  rw [hxhand, Option.toList_some, List.singleton_append] at hplaces
  have hmoved : y.manifest.waiting = (x.manifest.finish []).waiting ++ [n] := by
    simp only [y, manifest_withManifest, Manifest.putBack, hxhand, Option.toList_some]
  have hback : y.Pending R n e.failed := by
    obtain ⟨f, hf, hsame⟩ := hheld.accepted
    refine ⟨⟨f, hf, hsame⟩, ?_, ?_, ?_⟩
    · rw [triesOf_withManifest, triesOf_tried_self _ _ hxhand, hheld.tries, hfailed,
        List.replicate_succ']
    · rw [reportsOf_withManifest, reportsOf_tried_self _ _ hxhand, hheld.reports]
    · rcases hlimit with hresponse | hle
      · have hresponse' : e.failed.msg.isResponse = true := hresponse
        rw [if_pos hresponse', hfailed]
        exact Nat.succ_le_succ hheld.left
      · split
        · exact Nat.le_succ_of_le hle
        · exact hle
  refine
    { places := ?_
      waiting := ?_
      inHand := ?_
      bounded := fun k => (hwritten.bounded k).keeps (hkeeps k)
      fresh := hwritten.fresh }
  · have hnone : y.manifest.inHand = none := x.manifest.inHand_finish []
    rw [hmoved, hnone, Manifest.waiting_finish, Option.toList_none, List.nil_append]
    exact List.perm_append_comm.nodup hplaces
  · rw [hmoved, hitems]
    exact List.rel_append (hwritten.waiting.imp fun k _ hk => hk.keeps (hkeeps k))
      (.cons hback .nil)
  · rw [hidle]
    exact .nil

/-- A bus without envelopes. -/
theorem counted_of_empty (R : Nat) (hidle : b.inHand = none) (hempty : b.outbound.items = []) :
    Counted R b {} where
  places := List.nodup_nil
  waiting := by
    rw [hempty]
    exact .nil
  inHand := by
    rw [hidle]
    exact .nil
  bounded := fun n => ⟨.inl ⟨0, Nat.zero_le _, rfl⟩, Nat.zero_le 1, fun h => by cases h⟩
  fresh := fun _ _ => ⟨rfl, rfl⟩

end Count

/-! ### Every action -/

section Steps

open Stack

variable {s : Scheduler} {a : Action} {as : List Action} {i : Nat} {b : Bus} {x : Trials}
  {e : Envelope} {R : UInt32}

/-- The record after an action that brings no write to its end. -/
theorem step_of_not_ends {u t : Stack} (hends : u.ends? i a = none) :
    x.step i u a t = x.withManifest (x.manifest.step i u a t) := by
  simp only [step, hends]

/-- The record after an action that brings a write to its end. -/
theorem step_of_ends {u t : Stack} (hends : u.ends? i a = some e) :
    x.step i u a t =
      (x.tried (t.triedOn i - u.triedOn i) (u.deliveredOn t i ≠ []) (u.told t e)).withManifest
        (x.manifest.step i u a t) := by
  simp only [step, hends]

/-- The record after an action by which the worker takes an envelope. -/
theorem step_of_takes {u t : Stack} {c : Bus} (htakes : u.takes? i a = some e)
    (hc : t.buses[i]? = some c) :
    x.step i u a t = x.withManifest (x.manifest.take c.inHand.isSome) := by
  rw [step_of_not_ends (ends?_eq_none_of_takes? htakes)]
  simp only [Manifest.step, htakes, hc, Option.any_some]

/-- **The worker takes an envelope.** -/
theorem counted_takes (h : Counted R.toNat b x) (hb : s.stack.buses[i]? = some b)
    (hR : s.stack.timing.maxRetries = R) (htakes : s.stack.takes? i a = some e) :
    ∃ c, (s.perform a).stack.buses[i]? = some c ∧
      Counted R.toNat c (x.step i s.stack a (s.perform a).stack) := by
  obtain ⟨b', c, rest, hb', hidle, hitems, ht, -, -, houtbound, htaken⟩ :=
    Scheduler.exists_takes htakes
  obtain rfl : b = b' := Option.some.inj (hb.symm.trans hb')
  have hc := ht.getElem?_self hb
  refine ⟨c, hc, ?_⟩
  rw [step_of_takes htakes hc]
  refine h.take hidle hitems (congrArg Queue.items houtbound) ?_
  rw [hR] at htaken
  cases htaken with
  | dropped _ _ hnone => exact .inl hnone
  | @taken f hhand halike hleft =>
      refine .inr ⟨f, hhand, halike.retries, halike.isResponse, fun hresponse => ?_⟩
      exact Nat.le_of_not_lt fun hlt => hleft hresponse (UInt32.lt_iff_toNat_lt.mpr hlt)

/-- An envelope whose failure exceeds the limit has had all its retries. -/
theorem Held.last {n : Nat} (h : x.Held R.toNat n e) (hmax : R < 0xFFFFFFFF)
    (hretries : R < e.failed.retries) : e.retries.toNat = R.toNat := by
  have hlt := UInt32.lt_iff_toNat_lt.mp hretries
  have hfailed := Journey.toNat_retries_failed hmax h.left
  have hleft := h.left
  omega

/-- **The worker finishes an envelope.** The count of its failed writes cannot wrap around, for the
limit is below the largest number. -/
theorem counted_ends (h : Counted R.toNat b x) (hb : s.stack.buses[i]? = some b)
    (hR : s.stack.timing.maxRetries = R) (hmax : R < 0xFFFFFFFF)
    (htakes : s.stack.takes? i a = none) (hends : s.stack.ends? i a = some e) :
    ∃ c, (s.perform a).stack.buses[i]? = some c ∧
      Counted R.toNat c (x.step i s.stack a (s.perform a).stack) := by
  obtain ⟨b', c, queued, arrived, hb', hhand, hc, -, hidle, -, hqueued, harrived, hend⟩ :=
    Scheduler.exists_ends hends
  obtain rfl : b = b' := Option.some.inj (hb.symm.trans hb')
  obtain ⟨b'', hb'', -, hfinish⟩ := Scheduler.perform_of_ends hends
  obtain rfl : b = b'' := Option.some.inj (hb.symm.trans hb'')
  obtain ⟨n, hheld, -⟩ := Manifest.exists_held h.inHand hhand
  have hfailed := Journey.toNat_retries_failed hmax hheld.left
  have htold := told_finishWrite hb e
  rw [← hfinish, hR] at htold
  rw [hR] at hend
  refine ⟨c, hc, ?_⟩
  rw [step_of_ends hends, Manifest.step_of_ends htakes hends, Scheduler.triedOn_of_ends hends,
    hqueued, harrived]
  have hretry : e.msg.isResponse = true ∨ ¬R < e.failed.retries →
      s.stack.told (s.perform a).stack e = 0 := by
    rintro hretries
    rcases htold with hzero | ⟨-, -, hrequest, hlt⟩
    · exact hzero
    · rcases hretries with hresponse | hle
      · rw [hrequest] at hresponse
        cases hresponse
      · exact absurd hlt hle
  cases hend with
  | delivered hdelivers houtbound =>
      rw [if_neg (by simp)]
      have hzero : s.stack.told (s.perform a).stack e = 0 := by
        rcases htold with hzero | ⟨-, hfails, -⟩
        · exact hzero
        · rw [hdelivers] at hfails
          cases hfails
      exact h.leave hhand hidle (by rw [houtbound, List.append_nil]) (by simp) (.inl hzero)
  | putBack _ hretries houtbound =>
      rw [if_pos rfl, hretry hretries]
      refine h.retry hhand hidle (congrArg Queue.items houtbound) hfailed (hretries.imp id ?_)
      intro hle
      exact Nat.le_of_not_lt fun hlt => hle (UInt32.lt_iff_toNat_lt.mpr hlt)
  | crowdedOut _ hretries _ houtbound =>
      rw [if_neg (by simp)]
      exact h.leave hhand hidle (by rw [houtbound, List.append_nil]) (by simp)
        (.inl (hretry hretries))
  | givenUp hfails hrequest hretries houtbound hadded =>
      rw [if_neg (Manifest.ne_singleton_of_untried hretries fun f hf => (hadded f hf).1)]
      have hlast := hheld.last hmax hretries
      exact h.leave hhand hidle (congrArg Queue.items houtbound) (fun f hf => (hadded f hf).1)
        (htold.imp id fun htold => ⟨htold.1, rfl, hrequest, hlast⟩)

/-- **Every action keeps the count right.** -/
theorem counted_step (h : Counted R.toNat b x) (hs : s.RoomIssued)
    (hb : s.stack.buses[i]? = some b) (hR : s.stack.timing.maxRetries = R) (hmax : R < 0xFFFFFFFF)
    (a : Action) :
    ∃ c, (s.perform a).stack.buses[i]? = some c ∧
      Counted R.toNat c (x.step i s.stack a (s.perform a).stack) := by
  cases htakes : s.stack.takes? i a with
  | some e => exact counted_takes h hb hR htakes
  | none =>
      cases hends : s.stack.ends? i a with
      | some e => exact counted_ends h hb hR hmax htakes hends
      | none =>
          obtain ⟨c, added, hc, -, hhand, hitems, -, hissued⟩ :=
            Scheduler.exists_added_of_neither hs hb htakes hends
          have hqueued : s.stack.queuedOn (s.perform a).stack i = added :=
            queuedOn_eq (by rw [waitingOn_eq hc, waitingOn_eq hb, hitems])
          refine ⟨c, hc, ?_⟩
          rw [step_of_not_ends hends]
          simp only [Manifest.step, htakes, hends, hqueued]
          exact h.accept hhand hitems fun e he => (hissued e he).1

/-- **In every run the count stays right.** -/
theorem counted_along (h : Counted R.toNat b x) (hs : s.RoomIssued)
    (hb : s.stack.buses[i]? = some b) (hR : s.stack.timing.maxRetries = R) (hmax : R < 0xFFFFFFFF)
    (as : List Action) :
    ∃ c, (s.after as).stack.buses[i]? = some c ∧ Counted R.toNat c (x.along i s as) := by
  induction as generalizing s b x with
  | nil => exact ⟨b, hb, h⟩
  | cons a as ih =>
      obtain ⟨c, hc, hcounted⟩ := counted_step h hs hb hR hmax a
      exact ih hcounted (Scheduler.roomIssued_perform hs a) hc
        (Eq.trans (congrArg Timing.maxRetries (s.tells_perform a).timing) hR)

end Steps

end Trials

/-- The record of a bus since the stack was at rest. -/
def Stack.trials (stack : Stack) (i : Nat) (as : List Action) : Trials :=
  Trials.along {} i (Scheduler.atRest stack) as

end ManagementBus
