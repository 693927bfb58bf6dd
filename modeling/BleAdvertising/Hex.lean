import BleAdvertising.Octets

/-!
# Hexadecimal text

Every octet is written as two lower-case digits. Reading accepts either letter
case, takes the digits in pairs, and either stops at an octet that is no digit
or passes over it.
-/
namespace BleAdvertising.Hex

/-! ## Digits -/

/-- The lower-case octet that spells a digit. -/
def spell (digit : Fin 16) : UInt8 :=
  if digit.val < 10 then UInt8.ofNat (0x30 + digit.val) else UInt8.ofNat (0x61 + (digit.val - 10))

/-- The digit an octet spells, in either letter case. -/
def digit? (octet : UInt8) : Option (Fin 16) :=
  if 0x30 ≤ octet ∧ octet ≤ 0x39 then some (Fin.ofNat 16 (octet.toNat - 0x30))
  else if 0x61 ≤ octet ∧ octet ≤ 0x66 then some (Fin.ofNat 16 (octet.toNat - 0x61 + 10))
  else if 0x41 ≤ octet ∧ octet ≤ 0x46 then some (Fin.ofNat 16 (octet.toNat - 0x41 + 10))
  else none

/-- The octet of a high and a low digit. -/
def join (high low : Fin 16) : UInt8 := UInt8.ofNat (16 * high.val + low.val)

@[simp] theorem digit?_spell (digit : Fin 16) : digit? (spell digit) = some digit := by
  revert digit; decide

/-! ## Writing -/

def encodeOctet (octet : UInt8) : Octets :=
  [spell (Fin.ofNat 16 (octet.toNat / 16)), spell (Fin.ofNat 16 octet.toNat)]

/-- Two lower-case digits for every octet, in order. -/
def encode (octets : Octets) : Octets := octets.flatMap encodeOctet

@[simp] theorem length_encode (octets : Octets) : (encode octets).length = 2 * octets.length := by
  induction octets with
  | nil => rfl
  | cons octet rest ih =>
    have both : (encodeOctet octet).length = 2 := rfl
    simp only [encode] at ih
    rw [encode, List.flatMap_cons, List.length_append, ih, both, List.length_cons]
    omega

/-! ## Reading -/

/-- What reading does at an octet that is no digit. -/
inductive NonDigit where
  | stop
  | skip
  deriving DecidableEq, Repr

/-- A reader between two octets: a high digit that still waits for its low
    digit, and the octets read so far. -/
structure Reader where
  pending : Option (Fin 16) := none
  output : Octets
  deriving DecidableEq, Repr

/-- A first digit waits; a second one completes an octet. -/
def Reader.push (reader : Reader) (digit : Fin 16) : Reader :=
  match reader.pending with
  | none => { reader with pending := some digit }
  | some high => { pending := none, output := reader.output ++ [join high digit] }

/-- The number of octets consumed, with the reader after them. -/
def Reader.run (nonDigit : NonDigit) : Reader → Octets → Nat × Reader
  | reader, [] => (0, reader)
  | reader, octet :: rest =>
    match digit? octet with
    | some digit =>
      let after := (reader.push digit).run nonDigit rest
      (after.1 + 1, after.2)
    | none =>
      match nonDigit with
      | .stop => (0, reader)
      | .skip =>
        let after := reader.run nonDigit rest
        (after.1 + 1, after.2)

/-- The octets consumed by a reading, and the output after it. -/
structure Decoded where
  consumed : Nat
  output : Octets
  deriving DecidableEq, Repr

/-- Reads digit pairs onto the end of an output. A last digit without a partner
    is consumed and gives nothing. -/
def decode (nonDigit : NonDigit) (input output : Octets) : Decoded :=
  let after := ({ output := output } : Reader).run nonDigit input
  { consumed := after.1, output := after.2.output }

end BleAdvertising.Hex
