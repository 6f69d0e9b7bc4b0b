import ManagementBus.Frame
import ManagementBus.Link

/-!
# Frames and messages

Every frame that can be decoded is a *layout*: the fields of its message in their places, with two
checksums that may be right or wrong. Encoding writes the layout with the right ones, decoding
reads any layout back, and validation accepts just those that encoding writes. The laws between the
three functions come from these facts.

On the way over a link a frame loses the top bit of its address and nothing else: that bit has no
place on the wire, and the checksums do not count it.

## Main results

* `encode_eq`, `decode_layout`, `validate_layout_iff`: what each function does with a layout.
* `eq_layout_of_decode`: every frame that can be decoded is a layout.
* `receive_delivered`: what a link delivers of a message is received as that message.
* `frame_received_unaltered`, `frames_are_encodings`: the laws that follow.
-/

namespace ManagementBus.Frame

/-! ### Bytes -/

/-- What holds of all patterns of eight bits holds of a byte. -/
theorem forall_byte {p : UInt8 → Prop} (h : ∀ x : BitVec 8, p ⟨x⟩) (b : UInt8) : p b :=
  h b.toBitVec

/-- An address loses its top bit on the wire. -/
theorem shiftLeft_shiftRight_one (b : UInt8) : b <<< 1 >>> 1 = b &&& 0x7F :=
  forall_byte (p := fun b => b <<< 1 >>> 1 = b &&& 0x7F) (by decide) b

/-- The wire has no place for that bit. -/
theorem and_shiftLeft_one (b : UInt8) : (b &&& 0x7F) <<< 1 = b <<< 1 :=
  forall_byte (p := fun b => (b &&& 0x7F) <<< 1 = b <<< 1) (by decide) b

/-- A mask goes through an or. -/
theorem or_and_distrib (a b c : UInt8) : (a ||| b) &&& c = a &&& c ||| b &&& c := by
  rw [← UInt8.toNat_inj]
  simp only [UInt8.toNat_and, UInt8.toNat_or]
  exact Nat.and_or_distrib_right ..

/-- The upper six bits of a packed field are the number. -/
theorem packField_shiftRight (number lun : UInt8) :
    packField number lun >>> 2 = number &&& 0x3F := by
  have hnumber := forall_byte (p := fun b => b <<< 2 >>> 2 = b &&& 0x3F) (by decide) number
  have hlun := forall_byte (p := fun b => (b &&& 3) >>> 2 = 0) (by decide) lun
  rw [packField, UInt8.shiftRight_or, hnumber, hlun, UInt8.or_zero]

/-- The lower two are the logical unit. -/
theorem packField_and (number lun : UInt8) : packField number lun &&& 3 = lun &&& 3 := by
  have hnumber := forall_byte (p := fun b => b <<< 2 &&& 3 = 0) (by decide) number
  have hlun := forall_byte (p := fun b => b &&& 3 &&& 3 = b &&& 3) (by decide) lun
  rw [packField, or_and_distrib, hnumber, hlun, UInt8.zero_or]

/-- A byte is made of its upper six bits and its lower two. -/
theorem packField_split (b : UInt8) : packField (b >>> 2) (b &&& 3) = b :=
  forall_byte (p := fun b => packField (b >>> 2) (b &&& 3) = b) (by decide) b

/-- The direction of a message is in the low six bits of its function. -/
theorem and_and_one (b : UInt8) : b &&& 0x3F &&& 1 = b &&& 1 :=
  forall_byte (p := fun b => b &&& 0x3F &&& 1 = b &&& 1) (by decide) b

/-! ### Layouts -/

/-- The completion code, where a frame has a place for it. -/
def codeBytes (m : Message) : List UInt8 := if m.isResponse then [m.completionCode] else []

/-- The fields of a message in their places, with a checksum of the header and none at the end. -/
def front (m : Message) (headerChecksum : UInt8) : List UInt8 :=
  [m.destAddr, packField m.netFn m.destLun, headerChecksum, m.srcAddr, packField m.seq m.srcLun,
    m.cmd] ++ (codeBytes m ++ m.data.bytes)

/-- The fields of a message in their places, with two checksums. -/
def layout (m : Message) (headerChecksum messageChecksum : UInt8) : List UInt8 :=
  front m headerChecksum ++ [messageChecksum]

/-- The checksum of the header of a message. -/
def headerSum (m : Message) : UInt8 := checksum [m.destAddr, packField m.netFn m.destLun]

/-- The checksum of the whole frame of a message. -/
def messageSum (m : Message) : UInt8 := checksum (front m (headerSum m))

/-- The message that is read from a layout: fields of six and two bits are cut to these, and what
has no place in a frame has its default. -/
def reading (m : Message) (headerChecksum messageChecksum : UInt8) : Message where
  destAddr := m.destAddr
  netFn := m.netFn &&& 0x3F
  destLun := m.destLun &&& 3
  headerChecksum
  srcAddr := m.srcAddr
  seq := m.seq &&& 0x3F
  srcLun := m.srcLun &&& 3
  cmd := m.cmd
  completionCode := if m.isResponse then m.completionCode else 0
  data := m.data
  messageChecksum

variable {m n : Message} {f g : List UInt8} {hc mc : UInt8}

/-- Seven bytes at most stand before the data, the completion code among them. -/
theorem length_front_le (m : Message) (hc : UInt8) : (front m hc).length ≤ 7 + m.data.length := by
  have hcode : (codeBytes m).length ≤ 1 := by
    rw [codeBytes]
    split <;> simp
  simp only [front, List.length_append, List.length_cons, List.length_nil, Payload.length]
  omega

/-- No frame of a message is longer than the longest frame. -/
theorem length_layout_le (m : Message) (hc mc : UInt8) : (layout m hc mc).length ≤ maxLength := by
  have hfront := length_front_le m hc
  have hdata : m.data.length ≤ Payload.maxLength := m.data.length_le
  simp only [layout, List.length_append, List.length_cons, List.length_nil, maxLength]
  omega

/-- **Encoding writes the layout with the right checksums**, and it never fails. -/
theorem encode_eq (m : Message) : encode m = .ok (layout m (headerSum m) (messageSum m)) := by
  have hfront : header m ++ m.data.bytes = front m (headerSum m) := by
    simp only [header, front, codeBytes, headerSum, List.append_assoc]
  have hlength := length_layout_le m (headerSum m) (messageSum m)
  rw [layout, List.length_append, List.length_singleton] at hlength
  simp only [encode, hfront, if_neg (Nat.not_lt.mpr hlength)]
  rfl

/-! ### Decoding -/

/-- What the first six bytes of a frame and its last byte say. -/
def head (destAddr function headerChecksum srcAddr sequence cmd messageChecksum : UInt8) :
    Message where
  destAddr
  netFn := function >>> 2
  destLun := function &&& 3
  headerChecksum
  srcAddr
  seq := sequence >>> 2
  srcLun := sequence &&& 3
  cmd
  messageChecksum

/-- Decoding, with the last byte told apart. -/
theorem decode_concat (destAddr function hc srcAddr sequence cmd : UInt8) (rest : List UInt8)
    (mc : UInt8) :
    decode (destAddr :: function :: hc :: srcAddr :: sequence :: cmd :: (rest ++ [mc])) =
      if (head destAddr function hc srcAddr sequence cmd mc).isResponse then
        match rest with
        | [] => .error .responseTooShort
        | completionCode :: data =>
          withData { head destAddr function hc srcAddr sequence cmd mc with completionCode } data
      else withData (head destAddr function hc srcAddr sequence cmd mc) rest := by
  simp only [decode, List.getLast?_concat, List.dropLast_concat]
  rfl

/-- A receiver refuses data that are too long for it, and otherwise takes them as they are. -/
theorem withData_payload (m : Message) (data : Payload) :
    withData m data.bytes =
      if data.length ≤ dataMax then .ok { m with data } else .error .dataTooLong := by
  rw [withData]
  split
  · next h => rw [if_pos (show data.length ≤ dataMax from h)]
  · next h => rw [if_neg (show ¬data.length ≤ dataMax from h)]

/-- Data that can be received are the bytes of a short payload. -/
theorem exists_payload_of_withData {bytes : List UInt8} (h : withData m bytes = .ok n) :
    ∃ data : Payload, data.bytes = bytes ∧ data.length ≤ dataMax ∧ n = { m with data } := by
  rw [withData] at h
  split at h
  · next hlength =>
      have hmax : bytes.length ≤ Payload.maxLength := Nat.le_trans hlength (by decide)
      exact ⟨⟨bytes, hmax⟩, rfl, hlength, (Except.ok.inj h).symm⟩
  · cases h

/-- What the fixed places of a layout say is what has been put there. -/
theorem head_layout (m : Message) (hc mc : UInt8) :
    head m.destAddr (packField m.netFn m.destLun) hc m.srcAddr (packField m.seq m.srcLun) m.cmd
        mc =
      { reading m hc mc with completionCode := 0, data := Payload.empty } := by
  simp only [head, reading, packField_shiftRight, packField_and]

/-- Reading a frame does not turn a request into a response. -/
theorem isResponse_reading (m : Message) (hc mc : UInt8) :
    (reading m hc mc).isResponse = m.isResponse := by
  rw [Message.isResponse, Message.isResponse, reading, and_and_one]

/-- **Decoding reads every layout back**, whatever its checksums, unless it has too much data. -/
theorem decode_layout (m : Message) (hc mc : UInt8) :
    decode (layout m hc mc) =
      if m.data.length ≤ dataMax then .ok (reading m hc mc) else .error .dataTooLong := by
  have hdirection : (head m.destAddr (packField m.netFn m.destLun) hc m.srcAddr
      (packField m.seq m.srcLun) m.cmd mc).isResponse = m.isResponse := by
    rw [head_layout]
    exact isResponse_reading m hc mc
  simp only [layout, front, List.cons_append, List.nil_append, decode_concat, hdirection]
  cases hresponse : m.isResponse with
  | true =>
      simp only [codeBytes, hresponse, if_true, List.cons_append, List.nil_append,
        withData_payload, head_layout, reading]
  | false =>
      simp only [codeBytes, hresponse, Bool.false_eq_true, if_false, List.nil_append,
        withData_payload, head_layout, reading]

/-- What is read from six bytes goes back to the places of these. -/
theorem layout_head (destAddr function hc srcAddr sequence cmd mc completionCode : UInt8)
    (data : Payload)
    (h : n = { head destAddr function hc srcAddr sequence cmd mc with completionCode, data }) :
    layout n n.headerChecksum n.messageChecksum =
      destAddr :: function :: hc :: srcAddr :: sequence :: cmd ::
        (codeBytes n ++ data.bytes ++ [mc]) := by
  subst h
  simp only [layout, front, head, packField_split, List.cons_append, List.nil_append]

/-- **Every frame that can be decoded is the layout of its message**, with the checksums that the
message has kept. -/
theorem eq_layout_of_decode (h : decode f = .ok m) :
    f = layout m m.headerChecksum m.messageChecksum ∧ m.data.length ≤ dataMax := by
  match f with
  | [] | [_] | [_, _] | [_, _, _] | [_, _, _, _] | [_, _, _, _, _] => cases h
  | destAddr :: function :: hc :: srcAddr :: sequence :: cmd :: tail =>
    cases hlast : tail.getLast? with
    | none =>
        simp only [decode, hlast] at h
        cases h
    | some mc =>
        obtain ⟨rest, rfl⟩ := List.getLast?_eq_some_iff.mp hlast
        rw [decode_concat] at h
        split at h
        · next hresponse =>
            match rest with
            | [] => cases h
            | completionCode :: bytes =>
              obtain ⟨data, rfl, hlength, hm⟩ := exists_payload_of_withData h
              have hcode : codeBytes m = [completionCode] := by
                rw [codeBytes, hm]
                exact if_pos hresponse
              have hdata : m.data = data := by rw [hm]
              rw [layout_head _ _ _ _ _ _ _ _ _ hm, hcode, hdata]
              exact ⟨rfl, hlength⟩
        · next hrequest =>
            obtain ⟨data, rfl, hlength, hm⟩ := exists_payload_of_withData h
            have hcode : codeBytes m = [] := by
              rw [codeBytes, hm]
              exact if_neg hrequest
            have hdata : m.data = data := by rw [hm]
            rw [layout_head _ _ _ _ _ _ _ 0 _ hm, hcode, hdata]
            exact ⟨rfl, hlength⟩

/-! ### Validation -/

/-- A layout is valid just when both its checksums are right; the header is checked first. -/
theorem validate_layout (m : Message) (hc mc : UInt8) :
    validate (layout m hc mc) =
      if hc ≠ headerSum m then .error .headerChecksum
      else if mc ≠ checksum (front m hc) then .error .messageChecksum
      else .ok () := by
  have hcons : layout m hc mc = m.destAddr :: packField m.netFn m.destLun :: hc :: m.srcAddr ::
      (packField m.seq m.srcLun :: m.cmd :: (codeBytes m ++ m.data.bytes ++ [mc])) := by
    simp only [layout, front, List.cons_append, List.nil_append]
  have hlast : (layout m hc mc).getLast? = some mc := List.getLast?_concat
  have hinit : (layout m hc mc).dropLast = front m hc := List.dropLast_concat
  rw [hcons] at hlast hinit ⊢
  simp only [validate, hlast, hinit, headerSum, ne_eq, Option.some.injEq]
  rfl

/-- A layout determines its checksums. -/
theorem checksums_of_layout_eq {hc' mc' : UInt8} (h : layout m hc mc = layout m hc' mc') :
    hc = hc' ∧ mc = mc' := by
  simp only [layout, front, List.cons_append, List.nil_append, List.cons.injEq, true_and] at h
  exact ⟨h.1, (List.append_inj' h.2 rfl).2 |> List.singleton_inj.mp⟩

/-- **A layout is valid just if it is what encoding writes.** -/
theorem validate_layout_iff (m : Message) (hc mc : UInt8) :
    validate (layout m hc mc) = .ok () ↔ encode m = .ok (layout m hc mc) := by
  rw [validate_layout, encode_eq]
  constructor
  · intro h
    split at h
    · cases h
    · next hheader =>
        obtain rfl : hc = headerSum m := Classical.not_not.mp hheader
        split at h
        · cases h
        · next hmessage =>
            obtain rfl : mc = messageSum m := Classical.not_not.mp hmessage
            rfl
  · intro h
    have hlayout : layout m (headerSum m) (messageSum m) = layout m hc mc := Except.ok.inj h
    obtain ⟨hheader, hmessage⟩ := checksums_of_layout_eq hlayout
    rw [← hheader, ← hmessage, messageSum, if_neg (Classical.not_not.mpr rfl),
      if_neg (Classical.not_not.mpr rfl)]

/-! ### Over a link -/

/-- What a link delivers of a frame that is written to an address. -/
def delivered (addr : UInt8) (frame : List UInt8) : List UInt8 :=
  addr <<< 1 :: wirePayload frame

/-- A message with the seven bits of its address that the wire carries. -/
def wired (m : Message) : Message := { m with destAddr := m.destAddr &&& 0x7F }

/-- A write that succeeds puts one frame behind those that wait at the far end. -/
theorem write_delivers {l : Link} {addr : UInt8} (frame : List UInt8)
    (h : (l.write addr (wirePayload frame)).2 = .ok ()) :
    (l.write addr (wirePayload frame)).1.far.inbox = l.far.inbox ++ [delivered addr frame] := by
  rw [Link.write] at h ⊢
  split at h
  · cases h
  · next hworks =>
      split at h
      · cases h
      · next haddr => rw [if_neg haddr, delivered]

/-- The receiver restores the frame, but for the top bit of the address. -/
theorem normalizeInbound_delivered (m : Message) (hc mc : UInt8) :
    normalizeInbound (delivered m.destAddr (layout m hc mc)) = .ok (layout (wired m) hc mc) := by
  have hlength := length_layout_le m hc mc
  have hsame : (delivered m.destAddr (layout m hc mc)).length = (layout m hc mc).length := rfl
  have hfits : ¬maxLength < (delivered m.destAddr (layout m hc mc)).length := by omega
  rw [delivered] at hfits ⊢
  simp only [normalizeInbound, if_neg hfits, shiftLeft_shiftRight_one]
  rfl

/-- A checksum does not count the bit that an address loses. -/
theorem checksum_and_cons (addr : UInt8) (rest : List UInt8) :
    checksum ((addr &&& 0x7F) :: rest) = checksum (addr :: rest) := by
  rw [checksum, checksum, and_shiftLeft_one]

/-- The top bit of an address does not show in the checksum of the header, which is made for the
address on the wire. -/
theorem headerSum_wired (m : Message) : headerSum (wired m) = headerSum m :=
  checksum_and_cons ..

/-- The top bit of an address does not show in the checksum of the message either. -/
theorem messageSum_wired (m : Message) : messageSum (wired m) = messageSum m := by
  rw [messageSum, headerSum_wired]
  exact checksum_and_cons ..

/-- What a link delivers of a message is a frame with both checksums right. -/
theorem validate_wired (m : Message) :
    validate (layout (wired m) (headerSum m) (messageSum m)) = .ok () := by
  rw [validate_layout_iff, encode_eq, headerSum_wired, messageSum_wired]

/-- **What a link delivers of a message is received as that message**, unless it has too much
data. -/
theorem receive_delivered (m : Message) :
    receive (delivered m.destAddr (layout m (headerSum m) (messageSum m))) =
      if m.data.length ≤ dataMax then .ok (reading (wired m) (headerSum m) (messageSum m))
      else .error .dataTooLong := by
  rw [receive, normalizeInbound_delivered]
  show (validate _ >>= fun _ => decode _) = _
  rw [validate_wired]
  exact decode_layout ..

/-- **A message survives the way over a link.** Its frame exists; a link that does not fail delivers
the frame with the address moved to its place; what is delivered passes both checks. It is then
decoded just if the data are short enough, to the message that was sent: the address, the function
and the sequence number keep the bits that the wire has for them, the logical units two, the
completion code is there in a response, and nothing else is set but the two checksums. -/
theorem frame_received_unaltered (m : Message) :
    ∃ frame inbound headerChecksum messageChecksum,
      encode m = .ok frame ∧
      frame[2]? = some headerChecksum ∧ frame.getLast? = some messageChecksum ∧
      (∀ l : Link, (l.write m.destAddr (wirePayload frame)).2 = .ok () →
        (l.write m.destAddr (wirePayload frame)).1.far.inbox =
          l.far.inbox ++ [m.destAddr <<< 1 :: wirePayload frame]) ∧
      normalizeInbound (m.destAddr <<< 1 :: wirePayload frame) = .ok inbound ∧
      validate inbound = .ok () ∧
      decode inbound =
        if m.data.length ≤ 520 then
          .ok {
            destAddr := m.destAddr &&& 0x7F, netFn := m.netFn &&& 0x3F, destLun := m.destLun &&& 3,
            headerChecksum, srcAddr := m.srcAddr, seq := m.seq &&& 0x3F, srcLun := m.srcLun &&& 3,
            cmd := m.cmd, completionCode := if m.netFn % 2 = 1 then m.completionCode else 0,
            data := m.data, messageChecksum }
        else .error (.protocol "IPMB payload exceeds IPMI_DATA_MAX_LENGTH") := by
  refine ⟨layout m (headerSum m) (messageSum m), layout (wired m) (headerSum m) (messageSum m),
    headerSum m, messageSum m, encode_eq m, ?_, List.getLast?_concat,
    fun l h => write_delivers _ h, normalizeInbound_delivered .., validate_wired m, ?_⟩
  · simp only [layout, front, List.cons_append, List.getElem?_cons_succ, List.getElem?_cons_zero]
  · rw [decode_layout]
    have hdirection : (wired m).isResponse = decide (m.netFn % 2 = 1) :=
      forall_byte (p := fun b => (b &&& 1 != 0) = decide (b % 2 = 1)) (by decide) m.netFn
    simp only [reading, hdirection, decide_eq_true_eq]
    rfl

/-! ### Received frames -/

/-- The fields of a message that a frame carries, without the two checksums. -/
def fields (m : Message) : Message := { m with headerChecksum := 0, messageChecksum := 0 }

/-- A frame is made from the fields of a message, not from the checksums that came with it. -/
theorem encode_fields (m : Message) : encode (fields m) = encode m := rfl

/-- A frame that decodes is the encoding of its message just when its checksums are right. -/
theorem decode_encode_iff (h : decode f = .ok m) : encode m = .ok f ↔ validate f = .ok () := by
  obtain ⟨hf, -⟩ := eq_layout_of_decode h
  rw [hf]
  exact (validate_layout_iff ..).symm

/-- **The valid frames that decode are the encodings** of the messages that are short enough. -/
theorem valid_frame_iff (f : List UInt8) :
    (validate f = .ok () ∧ ∃ m, decode f = .ok m) ↔
      ∃ m, m.data.length ≤ dataMax ∧ encode m = .ok f := by
  constructor
  · rintro ⟨hvalid, m, hm⟩
    exact ⟨m, (eq_layout_of_decode hm).2, (decode_encode_iff hm).mpr hvalid⟩
  · rintro ⟨m, hlength, hm⟩
    obtain rfl : layout m (headerSum m) (messageSum m) = f :=
      Except.ok.inj ((encode_eq m).symm.trans hm)
    refine ⟨(validate_layout_iff ..).mpr hm, reading m (headerSum m) (messageSum m), ?_⟩
    rw [decode_layout, if_pos hlength]

/-- **The frames that are received are those that are sent.** A frame passes the checks and is
decoded just if it is the frame of a message whose data may be received; what is decoded from a
frame, checked or not, has that very frame again just if the frame passes the checks. So no two
frames that pass carry the same fields. -/
theorem frames_are_encodings :
    (∀ f, (validate f = .ok () ∧ ∃ m, decode f = .ok m) ↔
      ∃ m, m.data.length ≤ 520 ∧ encode m = .ok f) ∧
    (∀ f m, decode f = .ok m → (encode m = .ok f ↔ validate f = .ok ())) ∧
    ∀ f g m n, validate f = .ok () → validate g = .ok () →
      decode f = .ok m → decode g = .ok n → fields m = fields n → f = g := by
  refine ⟨valid_frame_iff, fun f m => decode_encode_iff, ?_⟩
  intro f g m n hf hg hm hn hsame
  have hencode : encode m = encode n := by rw [← encode_fields m, hsame, encode_fields]
  rw [(decode_encode_iff hm).mpr hf, (decode_encode_iff hn).mpr hg] at hencode
  exact Except.ok.inj hencode

end ManagementBus.Frame
