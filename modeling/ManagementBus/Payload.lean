/-!
# Payloads

The data of a message: at most `Payload.maxLength` bytes. The bound is part of the type, so
whatever carries a payload fits where a payload fits.

## Main statements

* `Payload.ofBytes?_eq_some_iff`: a string of bytes is a payload exactly when it is short enough.
-/

namespace ManagementBus

/-- The most data that a payload holds: 520 bytes of message data and the seven bytes of a
response header, which bridging may put in front of them. -/
def Payload.maxLength : Nat := 527

/-- The data of a message. -/
structure Payload where
  bytes : List UInt8
  length_le : bytes.length ≤ Payload.maxLength
deriving DecidableEq

namespace Payload

/-- The payload without bytes. -/
def empty : Payload := ⟨[], Nat.zero_le _⟩

instance : Inhabited Payload := ⟨empty⟩

/-- The bytes as a payload, where they fit. -/
def ofBytes? (bytes : List UInt8) : Option Payload :=
  if h : bytes.length ≤ maxLength then some ⟨bytes, h⟩ else none

/-- The number of bytes. -/
def length (p : Payload) : Nat := p.bytes.length

/-- The payload without its first `n` bytes. -/
def drop (p : Payload) (n : Nat) : Payload :=
  ⟨p.bytes.drop n, by
    have h := p.length_le
    simp only [List.length_drop]
    omega⟩

/-- The payload in reverse order. -/
def reverse (p : Payload) : Payload :=
  ⟨p.bytes.reverse, by simpa using p.length_le⟩

/-- The empty payload has no bytes. -/
@[simp] theorem bytes_empty : empty.bytes = [] := rfl

/-- Bytes are dropped from the front. -/
@[simp] theorem bytes_drop (p : Payload) (n : Nat) : (p.drop n).bytes = p.bytes.drop n := rfl

/-- A string of bytes is a payload exactly when it is short enough. -/
theorem ofBytes?_eq_some_iff {bytes : List UInt8} {p : Payload} :
    ofBytes? bytes = some p ↔ bytes = p.bytes := by
  constructor
  · intro h
    unfold ofBytes? at h
    split at h
    · cases h
      rfl
    · cases h
  · rintro rfl
    simp [ofBytes?, p.length_le]

/-- Bytes are refused as a payload just when there are too many of them. -/
theorem ofBytes?_eq_none_iff {bytes : List UInt8} :
    ofBytes? bytes = none ↔ maxLength < bytes.length := by
  simp [ofBytes?]

end Payload

end ManagementBus
