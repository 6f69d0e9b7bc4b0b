/-!
# Hexadecimal bytes

The two-digit lower-case form in which bytes appear in names, in debug forms and in frame dumps.
-/

namespace ManagementBus

/-- A byte as two lower-case hexadecimal digits, the high half first. -/
def hexByte (b : UInt8) : String :=
  String.ofList [Nat.digitChar (b.toNat / 16), Nat.digitChar (b.toNat % 16)]

/-- A byte as a hexadecimal literal, such as `0x0a`. -/
def hexLiteral (b : UInt8) : String :=
  "0x" ++ hexByte b

/-- The bytes of a string of data, two digits each, with nothing between them. -/
def hexBytes (bytes : List UInt8) : String :=
  String.join (bytes.map hexByte)

end ManagementBus
