import ManagementBus.Proofs.Building
import ManagementBus.Proofs.Checking
import ManagementBus.Proofs.Receiving

/-!
# What is refused at the door

A link may deliver any bytes. Those that are too many, that fail a checksum or that have no known
form go no further: the stack stays as it is, but for the report. Three things are shown of that.

First, nothing is read where there is nothing. The checks and the decoding are written here a second
time, with every byte and every stretch of bytes looked up by its position and with a look-up that
fails outside of the frame; none of them ever fails, and the outcome is the same. Second, what is
refused changes nothing. Third, a frame that has been damaged in one byte on its way is refused, by
the checksum of the block in which the byte stands. The lowest bit of the first byte is no part of
the frame, and the address counts twice, so that it takes a change above that bit.

## Main results

* `validateByIndex_eq`, `decodeByIndex_eq`: no look-up is out of range.
* `handleFrame_of_rejected`: what is refused changes nothing.
* `validate_of_damaged`: which checksum catches a damaged byte.
* `bad_input_changes_nothing`: the three together.
-/

namespace ManagementBus

namespace Frame

/-! ### Look-ups by position -/

/-- The bytes from one position up to another, if both are in range and in order. -/
def slice? (f : List UInt8) (start stop : Nat) : Option (List UInt8) :=
  if start ≤ stop ∧ stop ≤ f.length then some ((f.take stop).drop start) else none

/-- The position of the last byte, if there is one. -/
def lastIndex? (f : List UInt8) : Option Nat :=
  if 0 < f.length then some (f.length - 1) else none

/-- Validation by position; `none` says that a look-up was out of range. -/
def validateByIndex (f : List UInt8) : Option (Except Fault Unit) :=
  if f.length ≤ 3 then some (.error .frameTooShort)
  else do
    let header ← f[2]?
    let front ← slice? f 0 2
    if header ≠ checksum front then some (.error .headerChecksum)
    else do
      let last ← lastIndex? f
      let message ← f[last]?
      let front ← slice? f 0 last
      if message ≠ checksum front then some (.error .messageChecksum)
      else some (.ok ())

/-- The data and the last byte of a frame whose header ends at a position. -/
def bodyByIndex (f : List UInt8) (m : Message) (consumed : Nat) : Option (Except Fault Message) :=
  let length := f.length - (consumed + 1)
  if dataMax < length then some (.error .dataTooLong)
  else do
    let bytes ← slice? f consumed (consumed + length)
    match Payload.ofBytes? bytes with
    | none => some (.error .payloadTooLong)
    | some data => do
      let last ← lastIndex? f
      let messageChecksum ← f[last]?
      some (.ok { m with data, messageChecksum })

/-- Decoding by position; `none` says that a look-up was out of range. -/
def decodeByIndex (f : List UInt8) : Option (Except Fault Message) :=
  if f.length < 7 then some (.error .frameTooShort)
  else do
    let destAddr ← f[0]?
    let function ← f[1]?
    let headerChecksum ← f[2]?
    let srcAddr ← f[3]?
    let sequence ← f[4]?
    let cmd ← f[5]?
    let m := head destAddr function headerChecksum srcAddr sequence cmd 0
    if m.isResponse then
      if f.length < 8 then some (.error .responseTooShort)
      else do
        let completionCode ← f[6]?
        bodyByIndex f { m with completionCode } 7
    else bodyByIndex f m 6

variable {f front rest bytes : List UInt8} {m : Message} {mc : UInt8}

/-- What stands between two parts of a list is found between their lengths. -/
theorem slice?_of_append (front middle back : List UInt8) :
    slice? (front ++ (middle ++ back)) front.length (front.length + middle.length) =
      some middle := by
  have hbound : front.length ≤ front.length + middle.length ∧
      front.length + middle.length ≤ (front ++ (middle ++ back)).length := by
    simp only [List.length_append]
    omega
  rw [slice?, if_pos hbound, List.take_length_add_append, List.take_left', List.drop_left']
  · rfl
  · rfl

/-- The look-up of the last byte, and of all before it. -/
theorem lookUp_last (front : List UInt8) (b : UInt8) :
    lastIndex? (front ++ [b]) = some front.length ∧ (front ++ [b])[front.length]? = some b ∧
      slice? (front ++ [b]) 0 front.length = some front := by
  have hslice := slice?_of_append [] front [b]
  rw [List.nil_append, List.length_nil, Nat.zero_add] at hslice
  exact ⟨by simp [lastIndex?], List.getElem?_concat_length, hslice⟩

/-- **No look-up of the checks is out of range.** -/
theorem validateByIndex_eq (f : List UInt8) : validateByIndex f = some (validate f) := by
  match f with
  | [] | [_] | [_, _] | [_, _, _] => rfl
  | addr :: function :: hc :: b :: tail =>
    obtain ⟨body, mc, htail⟩ := List.eq_nil_or_concat (b :: tail) |>.resolve_left (by simp)
    rw [List.concat_eq_append] at htail
    obtain ⟨hindex, hlast, hfront⟩ := lookUp_last (addr :: function :: hc :: body) mc
    have hheader : slice? (addr :: function :: hc :: (body ++ [mc])) 0 2 = some [addr, function] :=
      slice?_of_append [] [addr, function] (hc :: (body ++ [mc]))
    have hlong : ¬(addr :: function :: hc :: (body ++ [mc])).length ≤ 3 := by simp
    rw [List.cons_append, List.cons_append, List.cons_append] at hindex hlast hfront
    rw [htail, validateByIndex, if_neg hlong, validate_concat]
    simp only [List.getElem?_cons_succ, List.getElem?_cons_zero, hheader, hindex, hlast, hfront,
      Option.bind_eq_bind, Option.bind_some]
    split
    · rfl
    · split <;> rfl

/-- Every look-up behind the front of a frame is within the frame, down to its last byte. -/
theorem bodyByIndex_eq (front : List UInt8) (data : List UInt8) (mc : UInt8) (m : Message) :
    bodyByIndex (front ++ (data ++ [mc])) m front.length =
      some (withData { m with messageChecksum := mc } data) := by
  have hlength : (front ++ (data ++ [mc])).length - (front.length + 1) = data.length := by
    simp only [List.length_append, List.length_singleton]
    omega
  obtain ⟨hindex, hlast, -⟩ := lookUp_last (front ++ data) mc
  rw [List.append_assoc] at hindex hlast
  simp only [bodyByIndex, hlength, slice?_of_append, hindex, hlast, Option.bind_eq_bind,
    Option.bind_some, withData]
  by_cases hfits : data.length ≤ dataMax
  · have hpayload : Payload.ofBytes? data = some ⟨data, Nat.le_trans hfits (by decide)⟩ :=
      Payload.ofBytes?_eq_some_iff.mpr rfl
    rw [if_neg (Nat.not_lt.mpr hfits), dif_pos hfits, hpayload]
  · rw [if_pos (Nat.not_le.mp hfits), dif_neg hfits]

/-- **No look-up of the decoding is out of range.** -/
theorem decodeByIndex_eq (f : List UInt8) : decodeByIndex f = some (decode f) := by
  match f with
  | [] | [_] | [_, _] | [_, _, _] | [_, _, _, _] | [_, _, _, _, _] | [_, _, _, _, _, _] => rfl
  | destAddr :: function :: hc :: srcAddr :: sequence :: cmd :: b :: tail =>
    obtain ⟨rest, mc, htail⟩ := List.eq_nil_or_concat (b :: tail) |>.resolve_left (by simp)
    rw [List.concat_eq_append] at htail
    have hlong : ¬(destAddr :: function :: hc :: srcAddr :: sequence :: cmd ::
        (rest ++ [mc])).length < 7 := by simp
    rw [htail, decodeByIndex, if_neg hlong, decode_concat]
    simp only [List.getElem?_cons_succ, List.getElem?_cons_zero, Option.bind_eq_bind,
      Option.bind_some]
    have hdirection : (head destAddr function hc srcAddr sequence cmd mc).isResponse =
        (head destAddr function hc srcAddr sequence cmd 0).isResponse := rfl
    rw [hdirection]
    split
    · match rest with
      | [] => rfl
      | completionCode :: data =>
        have hlonger : ¬(destAddr :: function :: hc :: srcAddr :: sequence :: cmd ::
            (completionCode :: data ++ [mc])).length < 8 := by simp
        rw [if_neg hlonger]
        exact bodyByIndex_eq [destAddr, function, hc, srcAddr, sequence, cmd, completionCode] data
          mc { head destAddr function hc srcAddr sequence cmd 0 with completionCode }
    · exact bodyByIndex_eq [destAddr, function, hc, srcAddr, sequence, cmd] rest mc
        (head destAddr function hc srcAddr sequence cmd 0)

/-! ### Damage -/

/-- Bytes are refused: they are too many, a checksum is wrong, or they have no known form. -/
def Rejected (raw : List UInt8) : Prop :=
  (∃ fault, normalizeInbound raw = .error fault) ∨
    ∃ f, normalizeInbound raw = .ok f ∧
      ((∃ fault, validate f = .error fault) ∨ ∃ fault, decode f = .error fault)

/-- Input that is rejected holds no message. -/
theorem message?_of_rejected {raw : List UInt8} (h : Rejected raw) : message? raw = none := by
  rw [message?]
  rcases h with ⟨fault, hlong⟩ | ⟨f, hf, ⟨fault, hwrong⟩ | ⟨fault, hmalformed⟩⟩
  · rw [hlong]
    rfl
  · rw [hf]
    show (validate f).toOption.bind _ = none
    rw [hwrong]
    rfl
  · rw [hf]
    show (validate f).toOption.bind (fun _ => (decode f).toOption) = none
    rw [hmalformed]
    exact Option.bind_fun_none _

/-- Another byte in the place of one changes the sum by the difference. -/
theorem total_set {k : Nat} {old : UInt8} (new : UInt8) (h : bytes[k]? = some old) :
    total (bytes.set k new) + old.toNat = total bytes + new.toNat := by
  induction bytes generalizing k with
  | nil => cases h
  | cons b bytes ih =>
      cases k with
      | zero =>
          obtain rfl : b = old := Option.some.inj h
          rw [List.set_cons_zero, total_cons, total_cons]
          omega
      | succ k =>
          have hrest := ih (k := k) h
          rw [List.set_cons_succ, total_cons, total_cons]
          omega

/-- A frame that is not too long is taken, with the address in its first byte shifted back. -/
theorem normalizeInbound_cons (addr : UInt8) (h : (addr :: rest).length ≤ maxLength) :
    normalizeInbound (addr :: rest) = .ok (addr >>> 1 :: rest) := by
  rw [normalizeInbound, if_neg (Nat.not_lt.mpr h)]

/-- A header whose sum is not zero is rejected for its checksum. -/
theorem validate_of_headerTotal {addr function hc : UInt8} (hne : rest ≠ [])
    (h : headerTotal addr function hc % 256 ≠ 0) :
    validate (addr :: function :: hc :: rest) = .error .headerChecksum := by
  rw [validate_cons hne, if_pos h]

/-- **A damaged byte is noticed**, in the header by the first checksum and after it by the second.
-/
theorem validate_of_damaged {addr function hc : UInt8} {k : Nat} {old new : UInt8}
    (hne : rest ≠ []) (hheader : headerTotal (addr >>> 1) function hc % 256 = 0)
    (hrest : total rest % 256 = 0) (hlength : (addr :: function :: hc :: rest).length ≤ maxLength)
    (hold : (addr :: function :: hc :: rest)[k]? = some old) (hnew : new ≠ old)
    (haddr : k = 0 → new >>> 1 ≠ old >>> 1) :
    ∃ f, normalizeInbound ((addr :: function :: hc :: rest).set k new) = .ok f ∧
      validate f = .error (if k < 3 then .headerChecksum else .messageChecksum) := by
  have hdiffers : new.toNat ≠ old.toNat := fun h => hnew (UInt8.toNat_inj.mp h)
  have hnewlt := new.toNat_lt
  have holdlt := old.toNat_lt
  rw [headerTotal] at hheader
  rcases k with _ | _ | _ | k
  -- The lowest bit of the first byte is lost, so the damage must show above it.
  · obtain rfl : addr = old := Option.some.inj hold
    have hhalf : ∀ b : UInt8, (b >>> 1).toNat < 128 :=
      forall_byte (p := fun b => (b >>> 1).toNat < 128) (by decide)
    have hnewhalf := hhalf new
    have holdhalf := hhalf addr
    have hhalves : (new >>> 1).toNat ≠ (addr >>> 1).toNat :=
      fun h => haddr rfl (UInt8.toNat_inj.mp h)
    refine ⟨_, normalizeInbound_cons new hlength, validate_of_headerTotal hne ?_⟩
    rw [headerTotal]
    omega
  · obtain rfl : function = old := Option.some.inj hold
    refine ⟨_, normalizeInbound_cons addr hlength, validate_of_headerTotal hne ?_⟩
    rw [headerTotal]
    omega
  · obtain rfl : hc = old := Option.some.inj hold
    refine ⟨_, normalizeInbound_cons addr hlength, validate_of_headerTotal hne ?_⟩
    rw [headerTotal]
    omega
  -- The header is right still, and the sum of the rest is off by the damage, which is below 256.
  · have hrest' : rest[k]? = some old := hold
    have hsum := total_set new hrest'
    have hlength' : (addr :: function :: hc :: rest.set k new).length ≤ maxLength := by
      simpa only [List.length_cons, List.length_set] using hlength
    have hne' : rest.set k new ≠ [] := mt (List.set_eq_nil_iff k new).mp hne
    have hdamaged : total (rest.set k new) % 256 ≠ 0 := by omega
    have hsame : ¬headerTotal (addr >>> 1) function hc % 256 ≠ 0 := by
      rw [headerTotal]
      omega
    refine ⟨addr >>> 1 :: function :: hc :: rest.set k new,
      normalizeInbound_cons addr hlength', ?_⟩
    rw [validate_cons hne', if_neg hsame, if_pos hdamaged]
    rfl

/-- What a link delivers of a message, in its two blocks, which are both right. -/
theorem exists_blocks_delivered (m : Message) :
    ∃ function hc rest, rest ≠ [] ∧
      m.destAddr <<< 1 :: wirePayload (layout m (headerSum m) (messageSum m)) =
        m.destAddr <<< 1 :: function :: hc :: rest ∧
      headerTotal (m.destAddr <<< 1 >>> 1) function hc % 256 = 0 ∧ total rest % 256 = 0 := by
  obtain ⟨function, hc, body, -, hfront, hheader, hbody⟩ := exists_blocks m
  refine ⟨function, hc, body ++ [messageSum m], List.append_ne_nil_of_right_ne_nil _ (by simp), ?_,
    ?_, hbody⟩
  · rw [layout, hfront]
    rfl
  · have haddr : 2 * (m.destAddr <<< 1 >>> 1).toNat % 256 = 2 * m.destAddr.toNat % 256 :=
      forall_byte (p := fun b => 2 * (b <<< 1 >>> 1).toNat % 256 = 2 * b.toNat % 256) (by decide)
        m.destAddr
    rw [headerTotal] at hheader ⊢
    omega

end Frame

namespace Stack

variable {s : Stack} {i : Nat} {b : Bus} {raw frame : List UInt8} {m : Message}

/-! ### Handling -/

/-- The handling of a frame with its look-ups by position; `none` says that one was out of range. -/
def handleFrameByIndex (s : Stack) (i : Nat) (bus : Bus) (raw : List UInt8) : Option Stack :=
  match Frame.normalizeInbound raw with
  | .error _ => some (s.emit (.frameDropped i .oversizeFrame))
  | .ok frame => do
    let s := s.report (Event.dump s.dumping i "rx" frame)
    match ← Frame.validateByIndex frame with
    | .error fault => some (s.emit (.frameRejected i fault))
    | .ok _ =>
      match ← Frame.decodeByIndex frame with
      | .error _ => some (s.emit (.frameDropped i .malformedFrame))
      | .ok m =>
        let s := s.emit (.frameReceived i m)
        some (if m.isResponse then s.routeResponse i bus m else s.routeRequest i bus m)

/-- **No index is out of range**: whatever is received is handled, and as before. -/
theorem handleFrameByIndex_eq (s : Stack) (i : Nat) (b : Bus) (raw : List UInt8) :
    s.handleFrameByIndex i b raw = some (s.handleFrame i b raw) := by
  rw [handleFrameByIndex, handleFrame]
  cases Frame.normalizeInbound raw with
  | error => rfl
  | ok frame =>
      simp only [Frame.validateByIndex_eq, Option.bind_eq_bind, Option.bind_some]
      cases Frame.validate frame with
      | error => rfl
      | ok =>
          simp only [Frame.decodeByIndex_eq, Option.bind_some]
          cases Frame.decode frame with
          | error => rfl
          | ok m => rfl

/-- **What is refused changes nothing**, but that it is reported. -/
theorem handleFrame_of_rejected (s : Stack) (i : Nat) (b : Bus) (h : Frame.Rejected raw) :
    ∃ es, s.handleFrame i b raw = s.report es := by
  obtain ⟨es, ⟨-, hsame⟩ | ⟨m, hm, -⟩⟩ := handleFrame_cases s i b raw
  · exact ⟨es, hsame⟩
  · rw [Frame.message?_of_rejected h] at hm
    cases hm

/-- A frame that is not valid is dumped and reported, and changes nothing else. -/
theorem handleFrame_of_invalid {fault : Fault} (s : Stack) (i : Nat) (b : Bus)
    (hnormal : Frame.normalizeInbound raw = .ok frame)
    (hwrong : Frame.validate frame = .error fault) :
    s.handleFrame i b raw =
      (s.report (Event.dump s.dumping i "rx" frame)).emit (.frameRejected i fault) := by
  simp only [handleFrame, hnormal, hwrong]

/-- **Bad input changes nothing.** Whatever bytes a link delivers, none of the look-ups that
handling them takes is out of range. If they are refused, then the stack is what it was, with all
its ledgers, queues and links and with what has been written to the host, but for the report. That
is so in particular for the frame of any message that has been damaged in one byte on its way: the
damage is reported as a wrong checksum, of the header in the first three bytes and of the message in
the others. -/
theorem bad_input_changes_nothing (s : Stack) (i : Nat) (b : Bus) :
    (∀ raw, s.handleFrameByIndex i b raw = some (s.handleFrame i b raw)) ∧
    (∀ raw, Frame.Rejected raw → ∃ es, s.handleFrame i b raw = s.report es) ∧
    ∀ (m : Message) (frame : List UInt8), Frame.encode m = .ok frame →
      ∀ (k : Nat) (old new : UInt8), (m.destAddr <<< 1 :: Frame.wirePayload frame)[k]? = some old →
        new ≠ old → (k = 0 → new >>> 1 ≠ old >>> 1) →
        let raw := (m.destAddr <<< 1 :: Frame.wirePayload frame).set k new
        Frame.Rejected raw ∧ ∃ es, s.handleFrame i b raw =
          (s.report es).emit
            (.frameRejected i (if k < 3 then .headerChecksum else .messageChecksum)) := by
  refine ⟨handleFrameByIndex_eq s i b, fun raw => handleFrame_of_rejected s i b, ?_⟩
  intro m frame hframe k old new hold hnew haddr raw
  obtain rfl : Frame.layout m (Frame.headerSum m) (Frame.messageSum m) = frame :=
    Except.ok.inj ((Frame.encode_eq m).symm.trans hframe)
  have hlength : (m.destAddr <<< 1 :: Frame.wirePayload
      (Frame.layout m (Frame.headerSum m) (Frame.messageSum m))).length ≤ Frame.maxLength :=
    Frame.length_layout_le m (Frame.headerSum m) (Frame.messageSum m)
  obtain ⟨function, hc, rest, hne, hraw, hheader, hrest⟩ := Frame.exists_blocks_delivered m
  have hraw' : raw = (m.destAddr <<< 1 :: function :: hc :: rest).set k new := by rw [← hraw]
  rw [hraw] at hold hlength
  obtain ⟨f, hnormal, hwrong⟩ :=
    Frame.validate_of_damaged hne hheader hrest hlength hold hnew haddr
  rw [hraw']
  exact ⟨.inr ⟨f, hnormal, .inl ⟨_, hwrong⟩⟩, _, handleFrame_of_invalid s i b hnormal hwrong⟩

/-- The response to the first request on the bus of the baseboard management controller. -/
def firstResponse : Message where
  destAddr := 0x10
  netFn := 0x07
  srcAddr := 0x40
  seq := 1
  cmd := 0x01

/-- The response with another address, and with another completion code. The lowest bit of the first
byte makes no difference. -/
theorem bad_input_changes_nothing_response :
    let s := bmcStack {} .memory
    let b := Bus.new bmcRow.config bmcRow.link {}
    Frame.encode firstResponse = .ok [0x10, 0x1C, 0xC4, 0x40, 0x04, 0x01, 0x00, 0xBB] ∧
      Frame.normalizeInbound [0x21, 0x1C, 0xC4, 0x40, 0x04, 0x01, 0x00, 0xBB] =
        .ok [0x10, 0x1C, 0xC4, 0x40, 0x04, 0x01, 0x00, 0xBB] ∧
      (∃ es, s.handleFrame 0 b [0x22, 0x1C, 0xC4, 0x40, 0x04, 0x01, 0x00, 0xBB] =
        (s.report es).emit (.frameRejected 0 .headerChecksum)) ∧
      ∃ es, s.handleFrame 0 b [0x20, 0x1C, 0xC4, 0x40, 0x04, 0x01, 0xC1, 0xBB] =
        (s.report es).emit (.frameRejected 0 .messageChecksum) := by
  intro s b
  have hframe : Frame.encode firstResponse =
      .ok [0x10, 0x1C, 0xC4, 0x40, 0x04, 0x01, 0x00, 0xBB] := by decide
  obtain ⟨-, -, hdamaged⟩ := bad_input_changes_nothing s 0 b
  obtain ⟨-, haddr⟩ := hdamaged _ _ hframe 0 0x20 0x22 rfl (by decide) (by decide)
  obtain ⟨-, hcode⟩ := hdamaged _ _ hframe 6 0x00 0xC1 rfl (by decide) (by decide)
  exact ⟨hframe, by decide, haddr, hcode⟩

end Stack

end ManagementBus
