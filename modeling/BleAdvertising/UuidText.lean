import BleAdvertising.Hex
import BleAdvertising.Uuid

/-!
# The canonical text of a UUID

Thirty-six octets: the 128-bit expansion from its most significant octet on, in
lower-case hexadecimal digits, with hyphens between the groups of 8, 4, 4, 4 and
12 digits. Reading accepts either letter case and gives the narrowest UUID that
has the text.
-/
namespace BleAdvertising.Uuid

def hyphen : UInt8 := 0x2D

/-- The number of octets of a text. -/
def textLength : Nat := 36

def hyphens : List Nat := [8, 13, 18, 23]

/-- Where the groups of digits begin, and how many digits each one has. -/
def digitGroups : List (Nat × Nat) := [(0, 8), (9, 4), (14, 4), (19, 4), (24, 12)]

/-! ## Writing -/

/-- Where the octets of a narrow UUID stand in its 128-bit expansion. -/
def shortOffset : Nat := 12

/-- The 128-bit expansion: the base UUID with the octets of a narrow UUID in
    their place, and a 128-bit UUID itself. -/
def expand (uuid : Uuid) : Octets :=
  match uuid.width with
  | .bits128 => uuid.octets
  | width => baseUuid.take shortOffset ++ uuid.octets ++ baseUuid.drop (shortOffset + width.octets)

@[simp] theorem length_expand (uuid : Uuid) : uuid.expand.length = 16 := by
  rw [expand]
  split
  · rename_i wide
    simp [wide, Width.octets]
  · cases width : uuid.width <;> simp_all [Width.octets, baseUuid, shortOffset]

def text (uuid : Uuid) : Octets :=
  let digits := Hex.encode uuid.expand.reverse
  digits.take 8 ++ hyphen :: (digits.drop 8).take 4 ++ hyphen :: (digits.drop 12).take 4 ++
    hyphen :: (digits.drop 16).take 4 ++ hyphen :: digits.drop 20

/-! ## Reading -/

/-- The length and the hyphens of a text are in order. -/
def Hyphenated (text : Octets) : Prop := text.length = textLength ∧ ∀ place ∈ hyphens, text[place]? = some hyphen

instance (text : Octets) : Decidable (Hyphenated text) := inferInstanceAs (Decidable (_ ∧ _))

/-- The digit groups of a text read one after the other onto the same output. -/
def readGroups (text : Octets) : Hex.Decoded :=
  digitGroups.foldl
    (fun before group =>
      let read := Hex.decode .stop ((text.drop group.1).take group.2) before.output
      { consumed := before.consumed + read.consumed, output := read.output })
    { consumed := 0, output := [] }

/-- The narrowest UUID with a given expansion. -/
def narrowest (expanded : Octets) (sized : expanded.length = 16) : Uuid :=
  if expanded.take shortOffset = baseUuid.take shortOffset then
    if expanded.drop 14 = [0, 0] then
      ofBuffer .bits16 (expanded.drop shortOffset) (by simp [sized, shortOffset, Width.octets])
    else ofBuffer .bits32 (expanded.drop shortOffset) (by simp [sized, shortOffset, Width.octets])
  else of128 expanded sized

/-- The UUID of a text in either letter case, none for any other text. -/
def parse? (text : Octets) : Option Uuid :=
  if Hyphenated text then
    let read := readGroups text
    if complete : read.consumed = 32 ∧ read.output.length = 16 then
      some (narrowest read.output.reverse (by rw [List.length_reverse]; exact complete.2))
    else none
  else none

/-- Reads a text into a target. The target keeps its value when the text is
    refused. -/
def parseInto (text : Octets) (target : Uuid) : Bool × Uuid :=
  match parse? text with
  | some uuid => (true, uuid)
  | none => (false, target)

/-- The UUID of a text, and the default UUID for a text that is refused. -/
def ofText (text : Octets) : Uuid := (parseInto text default).2

end BleAdvertising.Uuid
