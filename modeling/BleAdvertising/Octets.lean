/-!
# Octets

Names, texts and payloads are sequences of octets. A number that takes several
octets stands least significant octet first.
-/
namespace BleAdvertising

abbrev Octets := List UInt8

namespace Octets

/-- The number the octets denote, least significant octet first. -/
def littleEndian : Octets → Nat
  | [] => 0
  | octet :: rest => octet.toNat + 256 * littleEndian rest

/-- The low `count` octets of a number, least significant octet first. -/
def ofNat : Nat → Nat → Octets
  | 0, _ => []
  | count + 1, value => UInt8.ofNat value :: ofNat count (value / 256)

@[simp] theorem length_ofNat (count value : Nat) : (ofNat count value).length = count := by
  induction count generalizing value with
  | zero => rfl
  | succ count ih => simp [ofNat, ih]

end Octets
end BleAdvertising
