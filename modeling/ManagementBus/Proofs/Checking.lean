import Mathlib.Algebra.GroupWithZero.Nat
import ManagementBus.Proofs.Framing

/-!
# Checksums as sums

The standard divides a frame into two blocks that share no byte: the header, with the address in the
form that it has on the wire, and everything after it. Each block closes with the byte that brings
its sum to a multiple of 256, and a frame is right if both sums are. The codec computes the second
checksum over the whole frame instead. That is the same byte, because a header that is right adds
nothing to the sum; and where the header is wrong, that is what is reported.

Sums are taken of numbers here, and reduced at the end, so that the wrapping subtractions of the
codec are compared with something that does not wrap.

## Main results

* `eq_checksum_iff`: a checksum is the byte that completes a sum.
* `validate_cons`: validation as a rule on the two blocks.
* `checksums_are_standard`: validation is the rule of the standard, and encoding follows it.
-/

namespace ManagementBus.Frame

/-! ### Sums -/

/-- The sum of some bytes, as numbers. -/
def total (bytes : List UInt8) : Nat := (bytes.map UInt8.toNat).sum

/-- The sum over the header: the address, doubled, the function, and the checksum. -/
def headerTotal (addr function checksum : UInt8) : Nat :=
  2 * addr.toNat + function.toNat + checksum.toNat

/-- The checksum that the standard gives to a block: the byte that is missing to a multiple of
256. -/
def blockChecksum (bytes : List UInt8) : UInt8 := UInt8.ofNat (256 - total bytes % 256)

/-- No bytes have no sum. -/
@[simp] theorem total_nil : total [] = 0 := rfl

/-- The first byte adds its value. -/
@[simp] theorem total_cons (b : UInt8) (bytes : List UInt8) :
    total (b :: bytes) = b.toNat + total bytes := by
  rw [total, List.map_cons, List.sum_cons, total]

/-- The sum of two blocks is that of their sums. -/
@[simp] theorem total_append (bytes more : List UInt8) :
    total (bytes ++ more) = total bytes + total more := by
  rw [total, List.map_append, List.sum_append, total, total]

variable {x addr function hc mc : UInt8} {bytes rest : List UInt8} {m : Message}

/-- Bytes are added modulo 256. -/
theorem toNat_foldr_add (bytes : List UInt8) :
    (bytes.foldr (· + ·) 0).toNat = total bytes % 256 := by
  induction bytes with
  | nil => rfl
  | cons b bytes ih =>
      rw [List.foldr_cons, UInt8.toNat_add, ih, total_cons]
      omega

/-- The address is doubled modulo 256. -/
theorem toNat_shiftLeft_one (b : UInt8) : (b <<< 1).toNat = 2 * b.toNat % 256 :=
  forall_byte (p := fun b => (b <<< 1).toNat = 2 * b.toNat % 256) (by decide) b

/-- **A checksum is the byte that completes a sum**: that of the bytes that it is over, with the
first of them doubled, to a multiple of 256. -/
theorem eq_checksum_iff :
    x = checksum (addr :: rest) ↔ (2 * addr.toNat + total rest + x.toNat) % 256 = 0 := by
  have hsum : (x + (addr <<< 1 + rest.foldr (· + ·) 0)).toNat =
      (2 * addr.toNat + total rest + x.toNat) % 256 := by
    rw [UInt8.toNat_add, UInt8.toNat_add, toNat_foldr_add, toNat_shiftLeft_one]
    omega
  have hzero : x = checksum (addr :: rest) ↔ x + (addr <<< 1 + rest.foldr (· + ·) 0) = 0 := by
    rw [checksum_cons]
    grind
  rw [hzero, ← UInt8.toNat_inj, hsum]
  rfl

/-- The checksum of a block is the one byte that makes its sum zero. -/
theorem eq_blockChecksum_iff : x = blockChecksum bytes ↔ (total bytes + x.toNat) % 256 = 0 := by
  have hlt := x.toNat_lt
  rw [blockChecksum, ← UInt8.toNat_inj, UInt8.toNat_ofNat']
  omega

/-! ### The two blocks -/

/-- The checksum of a header is right just if the header with it has the sum zero. -/
theorem header_right_iff :
    hc = checksum [addr, function] ↔ headerTotal addr function hc % 256 = 0 := by
  rw [eq_checksum_iff, headerTotal, total_cons, total_nil, Nat.add_zero]

/-- The second checksum does not count a header that is right. -/
theorem message_right_iff (hheader : headerTotal addr function hc % 256 = 0) :
    mc = checksum (addr :: function :: hc :: rest) ↔ total (rest ++ [mc]) % 256 = 0 := by
  rw [eq_checksum_iff, total_cons, total_cons, total_append, total_cons, total_nil]
  rw [headerTotal] at hheader
  omega

/-- Validation, with the last byte told apart. -/
theorem validate_concat (addr function hc : UInt8) (body : List UInt8) (mc : UInt8) :
    validate (addr :: function :: hc :: (body ++ [mc])) =
      if hc ≠ checksum [addr, function] then .error .headerChecksum
      else if mc ≠ checksum (addr :: function :: hc :: body) then .error .messageChecksum
      else .ok () := by
  obtain ⟨b, tail, hcons⟩ := List.exists_cons_of_ne_nil (List.append_ne_nil_of_right_ne_nil body
    (List.cons_ne_nil mc []))
  have hblocks : addr :: function :: hc :: (body ++ [mc]) =
      (addr :: function :: hc :: body) ++ [mc] := rfl
  have hlast : (addr :: function :: hc :: (body ++ [mc])).getLast? = some mc := by
    rw [hblocks, List.getLast?_concat]
  have hinit : (addr :: function :: hc :: (body ++ [mc])).dropLast =
      addr :: function :: hc :: body := by
    rw [hblocks, List.dropLast_concat]
  rw [hcons] at hlast hinit ⊢
  simp only [validate, hlast, hinit, ne_eq, Option.some.injEq]

/-- **Validation is a rule on the two blocks**: that of the header comes first. -/
theorem validate_cons (hrest : rest ≠ []) :
    validate (addr :: function :: hc :: rest) =
      if headerTotal addr function hc % 256 ≠ 0 then .error .headerChecksum
      else if total rest % 256 ≠ 0 then .error .messageChecksum
      else .ok () := by
  obtain ⟨body, mc, rfl⟩ := List.eq_nil_or_concat rest |>.resolve_left hrest
  rw [List.concat_eq_append, validate_concat]
  by_cases hheader : headerTotal addr function hc % 256 = 0
  · simp only [ne_eq, header_right_iff, message_right_iff hheader]
  · simp only [ne_eq, header_right_iff, hheader, not_false_eq_true, if_true]

/-- The frame of a message in its two blocks, which are both right. -/
theorem exists_blocks (m : Message) :
    ∃ function hc body, 3 ≤ body.length ∧
      front m (headerSum m) = m.destAddr :: function :: hc :: body ∧
      headerTotal m.destAddr function hc % 256 = 0 ∧
      total (body ++ [messageSum m]) % 256 = 0 := by
  have hheader : headerTotal m.destAddr (packField m.netFn m.destLun) (headerSum m) % 256 = 0 :=
    header_right_iff.mp rfl
  refine ⟨packField m.netFn m.destLun, headerSum m,
    m.srcAddr :: packField m.seq m.srcLun :: m.cmd :: (codeBytes m ++ m.data.bytes), ?_, rfl,
    hheader, (message_right_iff hheader).mp rfl⟩
  simp only [List.length_cons]
  omega

/-- **The checksums are those of the standard.** A frame passes the check just if the sum of its
header, with the address doubled, and the sum of all bytes after it are multiples of 256; a header
that is wrong is reported as such whatever comes after it. Every frame that is encoded passes, and
its last byte, computed over the whole frame, is the one that the standard computes over the second
block alone. -/
theorem checksums_are_standard :
    (∀ (f : List UInt8) (_ : 4 ≤ f.length),
      let header := 2 * f[0].toNat + f[1].toNat + f[2].toNat
      let rest := ((f.drop 3).map UInt8.toNat).sum
      (validate f = .ok () ↔ header % 256 = 0 ∧ rest % 256 = 0) ∧
      (validate f = .error .headerChecksum ↔ header % 256 ≠ 0) ∧
      (validate f = .error .messageChecksum ↔ header % 256 = 0 ∧ rest % 256 ≠ 0)) ∧
    ∀ m : Message, ∃ front last, encode m = .ok (front ++ [last]) ∧
      last = checksum front ∧ last = blockChecksum (front.drop 3) ∧
      ∃ addr function headerChecksum rest,
        front ++ [last] = addr :: function :: headerChecksum :: rest ∧
        headerTotal addr function headerChecksum % 256 = 0 ∧ total rest % 256 = 0 := by
  constructor
  · intro f hlength
    match f, hlength with
    | addr :: function :: hc :: b :: rest, _ =>
      show (_ ↔ headerTotal addr function hc % 256 = 0 ∧ total (b :: rest) % 256 = 0) ∧
        (_ ↔ headerTotal addr function hc % 256 ≠ 0) ∧
        (_ ↔ headerTotal addr function hc % 256 = 0 ∧ total (b :: rest) % 256 ≠ 0)
      rw [validate_cons (List.cons_ne_nil b rest)]
      generalize headerTotal addr function hc % 256 = header
      generalize total (b :: rest) % 256 = sum
      by_cases hheader : header = 0
      · by_cases hsum : sum = 0
        · simp [hheader, hsum]
        · simp [hheader, hsum]
      · simp [hheader]
  · intro m
    obtain ⟨function, hc, body, -, hfront, hheader, hbody⟩ := exists_blocks m
    refine ⟨front m (headerSum m), messageSum m, encode_eq m, rfl, ?_, m.destAddr, function, hc,
      body ++ [messageSum m], by rw [hfront]; rfl, hheader, hbody⟩
    rw [total_append, total_cons, total_nil, Nat.add_zero] at hbody
    rw [hfront]
    exact eq_blockChecksum_iff.mpr hbody

/-- Sums that pass 256: a frame that is right, one with another last byte, and one with another
address. -/
theorem checksums_are_standard_carrying :
    4 ≤ [0x90, 0x1C, 0xC4, 0xFF, (0x01 : UInt8)].length ∧
      validate [0x90, 0x1C, 0xC4, 0xFF, 0x01] = .ok () ∧
      validate [0x90, 0x1C, 0xC4, 0xFF, 0x02] = .error .messageChecksum ∧
      validate [0x91, 0x1C, 0xC4, 0xFF, 0x02] = .error .headerChecksum := by
  obtain ⟨hrule, -⟩ := checksums_are_standard
  exact ⟨by decide, (hrule _ (by decide)).1.mpr (by decide),
    (hrule _ (by decide)).2.2.mpr (by decide), (hrule _ (by decide)).2.1.mpr (by decide)⟩

end ManagementBus.Frame
