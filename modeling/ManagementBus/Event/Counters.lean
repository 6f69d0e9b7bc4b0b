import ManagementBus.Event.Text

/-!
# Counters

What the events add up to. A counter has a name and at most one label with a value.

## Main statements

* `tally_append`: the count of a run is the sum of the counts of its parts.
-/

namespace ManagementBus

/-- A counter. -/
structure Counter where
  name : String
  label : Option (String × String) := none
deriving DecidableEq

namespace Counter

/-- The counter as text: its name, and its label and value in braces. -/
def text (c : Counter) : String :=
  match c.label with
  | none => c.name
  | some (label, value) => c.name ++ "\x7b" ++ label ++ "=" ++ value ++ "\x7d"

end Counter

namespace Event

/-- Whether a counted message is a request or a response. -/
private def kindLabel (m : Message) : Option (String × String) :=
  some ("kind", if m.isResponse then "response" else "request")

/-- What an event adds to which counters. -/
def counts : Event → List (Counter × Nat)
  | readDone _ _ _ code =>
    [(⟨"ipmb_reads_total", some ("outcome", "ok")⟩, 1), (⟨"ipmb_read_seconds", none⟩, 1)] ++
      if code = 0 then [] else [(⟨"ipmb_completion_code_nonzero_total", none⟩, 1)]
  | readFailed _ _ _ fault =>
    [(⟨"ipmb_reads_total", some ("outcome", "err")⟩, 1),
     (⟨"ipmb_read_errors_total", some ("kind", fault.label)⟩, 1),
     (⟨"ipmb_read_seconds", none⟩, 1)]
  | frameSent _ m => [(⟨"ipmb_frames_sent_total", kindLabel m⟩, 1)]
  | frameReceived _ m => [(⟨"ipmb_frames_received_total", kindLabel m⟩, 1)]
  | frameDropped _ reason => [(⟨"ipmb_frames_dropped_total", some ("reason", reason.text)⟩, 1)]
  | frameRejected _ fault => [(⟨"ipmb_checksum_errors_total", some ("kind", fault.label)⟩, 1)]
  | writeFailed .. => [(⟨"ipmb_tx_retries_total", none⟩, 1)]
  | requestFailed .. => [(⟨"ipmb_requests_failed_total", none⟩, 1)]
  | requestEvicted _ reason _ =>
    [(⟨"ipmb_ledger_evictions_total", some ("reason", reason.text)⟩, 1)]
  | responseUnmatched .. => [(⟨"ipmb_unmatched_responses_total", none⟩, 1)]
  | queuePurged queue dropped =>
    [(⟨"ipmb_queue_purged_total", some ("queue", queue.text)⟩, dropped)]
  | lockTimedOut _ lock => [(⟨"ipmb_lock_timeouts_total", some ("lock", lock.text)⟩, 1)]
  | linkReadFailed .. => [(⟨"ipmb_link_read_errors_total", none⟩, 1)]
  | responseFailed _ kind _ => [(⟨"ipmb_responses_failed_total", some ("kind", kind.text)⟩, 1)]
  | bridgeFailed .. => [(⟨"ipmb_bridge_errors_total", none⟩, 1)]
  | bridgeTargetUnknown _ | numbersExhausted _ | undeliverableReserved _ | undeliverableSelf _
  | undeliverableHost | undeliverableSource _ | hostNotBridged .. | hostUnreachable _
  | dispatching _ | frameDumped .. => []

/-- The count of a counter after some events. -/
def tally (c : Counter) (events : List Event) : Nat :=
  (events.flatMap counts).foldl (fun n (counter, k) => if counter = c then n + k else n) 0

/-- The counters that some events touch, with their counts. -/
def counters (events : List Event) : List (Counter × Nat) :=
  let touched := ((events.flatMap counts).map Prod.fst).eraseDups
  (touched.map fun c => (c, tally c events)).filter fun (_, n) => n ≠ 0

/-- The count of a journal may start anywhere. -/
private theorem foldl_count_start (c : Counter) (xs : List (Counter × Nat)) (n : Nat) :
    xs.foldl (fun n (counter, k) => if counter = c then n + k else n) n =
      n + xs.foldl (fun n (counter, k) => if counter = c then n + k else n) 0 := by
  induction xs generalizing n with
  | nil => rfl
  | cons x rest ih =>
    simp only [List.foldl_cons]
    rw [ih, ih (if x.1 = c then 0 + x.2 else 0)]
    split <;> omega

/-- The count of a run is the sum of the counts of its parts. -/
theorem tally_append (c : Counter) (xs ys : List Event) :
    tally c (xs ++ ys) = tally c xs + tally c ys := by
  simp only [tally, List.flatMap_append, List.foldl_append]
  exact foldl_count_start c _ _

end Event

end ManagementBus
