import ManagementBus.Code
import ManagementBus.Message

/-!
# Frames

The wire form of a message: receiver, function and logical unit, a checksum over those two, then
sender, sequence number and logical unit, command, in a response the completion code, the data,
and a checksum over everything before it.

The first byte of a frame is the seven-bit address of the receiver. On the wire a link puts that
address into the upper seven bits, so what arrives is `normalizeInbound` away from a frame, and the
checksums count the address twice over.

## Main statements

* `checksum_cons`: a checksum is the negated sum of the doubled address and the other bytes.
-/

namespace ManagementBus.Frame

/-- The most data that a received message may carry. -/
def dataMax : Nat := 520

/-- The longest frame: a header of eight bytes and a full payload. -/
def maxLength : Nat := 8 + Payload.maxLength

/-- The two's complement checksum over an address and the bytes that follow it, with the address
shifted to its place on the wire. -/
def checksum : List UInt8 → UInt8
  | [] => 0
  | addr :: rest => rest.foldl (· - ·) (-(addr <<< 1))

/-! ### Validation -/

/-- Checks both checksums, that of the header first. -/
def validate (frame : List UInt8) : Except Fault Unit :=
  match frame with
  | addr :: function :: header :: _ :: _ =>
    if header ≠ checksum [addr, function] then .error .headerChecksum
    else if frame.getLast? ≠ some (checksum frame.dropLast) then .error .messageChecksum
    else .ok ()
  | _ => .error .frameTooShort

/-! ### Encoding -/

/-- Six bits in the upper part of a byte and two in the lower. -/
def packField (number lun : UInt8) : UInt8 :=
  (number <<< 2) ||| (lun &&& 3)

/-- The frame of a message up to its data. -/
def header (m : Message) : List UInt8 :=
  let function := packField m.netFn m.destLun
  [m.destAddr, function, checksum [m.destAddr, function], m.srcAddr, packField m.seq m.srcLun,
    m.cmd] ++ if m.isResponse then [m.completionCode] else []

/-- The frame of a message, where it fits. -/
def encode (m : Message) : Except Fault (List UInt8) :=
  let body := header m ++ m.data.bytes
  if maxLength < body.length + 1 then .error .frameOverflow
  else .ok (body ++ [checksum body])

/-- The part of a frame that a link carries behind the address. -/
def wirePayload (frame : List UInt8) : List UInt8 :=
  frame.drop 1

/-! ### Decoding -/

/-- The message with the given head and data, where received data may be that long. -/
def withData (m : Message) (bytes : List UInt8) : Except Fault Message :=
  if h : bytes.length ≤ dataMax then
    .ok { m with data := ⟨bytes, Nat.le_trans h (by decide)⟩ }
  else .error .dataTooLong

/-- The message in a frame; neither checksum is checked. -/
def decode (frame : List UInt8) : Except Fault Message :=
  match frame with
  | destAddr :: function :: headerChecksum :: srcAddr :: sequence :: cmd :: tail =>
    match tail.getLast? with
    | none => .error .frameTooShort
    | some messageChecksum =>
      let m : Message :=
        { destAddr, netFn := function >>> 2, destLun := function &&& 3, headerChecksum, srcAddr,
          seq := sequence >>> 2, srcLun := sequence &&& 3, cmd, messageChecksum }
      if m.isResponse then
        match tail.dropLast with
        | [] => .error .responseTooShort
        | completionCode :: data => withData { m with completionCode } data
      else withData m tail.dropLast
  | _ => .error .frameTooShort

/-- The frame in what a link delivers: the address comes back to its seven bits. -/
def normalizeInbound (raw : List UInt8) : Except Fault (List UInt8) :=
  if maxLength < raw.length then .error .inboundTooLong
  else match raw with
    | [] => .ok []
    | addr :: rest => .ok (addr >>> 1 :: rest)

/-- The message in what a link delivers, if it is a frame with both checksums right. -/
def receive (raw : List UInt8) : Except Fault Message := do
  let frame ← normalizeInbound raw
  validate frame
  decode frame

/-! ### Dumps -/

/-- A frame as a line of a trace: bus, direction, length, and the bytes in hexadecimal. -/
def dumpText (bus : Nat) (direction : String) (frame : List UInt8) : String :=
  "ipmb[" ++ toString bus ++ "] " ++ direction ++ " (" ++ toString frame.length ++ "):" ++
    String.join (frame.map fun b => " " ++ hexByte b)

/-- Whether the setting for frame dumps asks for them: it is there, and neither empty nor `0`. -/
def dumpsEnabled : Option String → Bool
  | none => false
  | some setting => setting ≠ "" && setting ≠ "0"

/-! ### Small facts -/

/-- Taking bytes off one by one is taking off their sum. -/
theorem foldl_sub (start : UInt8) (bytes : List UInt8) :
    bytes.foldl (· - ·) start = start - bytes.foldr (· + ·) 0 := by
  induction bytes generalizing start with
  | nil => simp
  | cons b rest ih =>
    rw [List.foldl_cons, ih, List.foldr_cons]
    grind

/-- A checksum is the negated sum of the doubled address and the other bytes. -/
theorem checksum_cons (addr : UInt8) (rest : List UInt8) :
    checksum (addr :: rest) = -(addr <<< 1) - rest.foldr (· + ·) 0 :=
  foldl_sub _ _

end ManagementBus.Frame
