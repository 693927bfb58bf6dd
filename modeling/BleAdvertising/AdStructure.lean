import BleAdvertising.AssignedNumbers

/-!
# AD structures

A payload is a sequence of AD structures, with nothing between them and nothing
around them: a length octet that counts the type octet and the value, the type
octet, the value. A value of more than 254 octets is written all the same, under
a length octet taken modulo 256.
-/
namespace BleAdvertising

/-- One typed value of a payload. -/
structure AdStructure where
  kind : DataType
  value : Octets
  deriving DecidableEq, Repr

namespace AdStructure

/-! ## Writing -/

/-- The length octet can count the type octet and the value. -/
def Fits (entry : AdStructure) : Prop := 1 + entry.value.length ≤ 255

instance (entry : AdStructure) : Decidable entry.Fits := inferInstanceAs (Decidable (_ ≤ _))

/-- A payload with one more AD structure, whose value comes in two parts. -/
def appendParts (payload : Octets) (kind : DataType) (leading trailing : Octets) : Octets :=
  payload ++ UInt8.ofNat (1 + leading.length + trailing.length) :: kind.code :: (leading ++ trailing)

def append (payload : Octets) (kind : DataType) (value : Octets) : Octets :=
  appendParts payload kind [] value

def octets (entry : AdStructure) : Octets :=
  UInt8.ofNat (1 + entry.value.length) :: entry.kind.code :: entry.value

/-- The octets of AD structures, one after the other. -/
def write (entries : List AdStructure) : Octets := entries.flatMap octets

/-- Where the first part ends leaves no trace. -/
theorem appendParts_eq (payload : Octets) (kind : DataType) (leading trailing : Octets) :
    appendParts payload kind leading trailing = payload ++ octets ⟨kind, leading ++ trailing⟩ := by
  simp [appendParts, octets, Nat.add_assoc]

theorem append_eq (payload : Octets) (kind : DataType) (value : Octets) :
    append payload kind value = payload ++ octets ⟨kind, value⟩ := by
  rw [append, appendParts_eq, List.nil_append]

/-! ## Reading -/

/-- The AD structures of a payload. None where a length octet is zero, or counts
    octets that the payload does not have. -/
def walk? : Octets → Option (List AdStructure)
  | [] => some []
  | [_] => none
  | length :: kind :: rest =>
    if length = 0 then none
    else if rest.length < length.toNat - 1 then none
    else (walk? (rest.drop (length.toNat - 1))).map (⟨⟨kind⟩, rest.take (length.toNat - 1)⟩ :: ·)
termination_by payload => payload.length
decreasing_by simp only [List.length_drop, List.length_cons]; omega

/-- A structure that fits is read back, whatever follows it. -/
theorem walk?_octets_append {entry : AdStructure} (fits : entry.Fits) (rest : Octets) :
    walk? (entry.octets ++ rest) = (walk? rest).map (entry :: ·) := by
  obtain ⟨⟨kind⟩, value⟩ := entry
  have bounded : 1 + value.length < 256 := by simp only [Fits] at fits; omega
  have counted : (UInt8.ofNat (1 + value.length)).toNat = 1 + value.length := UInt8.toNat_ofNat_of_lt' bounded
  have positive : UInt8.ofNat (1 + value.length) ≠ 0 := by
    intro zero
    have := congrArg UInt8.toNat zero
    rw [counted, UInt8.toNat_zero] at this
    omega
  simp only [octets, List.cons_append]
  rw [walk?, if_neg positive, counted, Nat.add_sub_cancel_left, if_neg (by simp), List.drop_left, List.take_left]

end AdStructure
end BleAdvertising
