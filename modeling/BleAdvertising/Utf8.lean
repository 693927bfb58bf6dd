import BleAdvertising.Octets

/-!
# Well-formed UTF-8

A check of the first octets of a buffer: every character in its shortest form
of one to four octets, no surrogates, nothing above U+10FFFF. The check reads
the buffer by index, and a read outside of the buffer is a fault of its own,
apart from the verdict that the octets are ill-formed.
-/
namespace BleAdvertising.Utf8

/-- Why a check ends without accepting. -/
inductive Fault where
  /-- The octets are no well-formed UTF-8. -/
  | illFormed
  /-- The buffer has no octet of that index. -/
  | outside (index : Nat)
  deriving DecidableEq, Repr

/-- The octets of a buffer by index, none beyond its end. -/
abbrev Buffer := Nat → Option UInt8

/-! ## One character -/

/-- What the first octet of a character announces: the number of octets that
    follow, its own share of the code point, and the least code point that needs
    so many octets. -/
structure Lead where
  follow : Nat
  bits : UInt32
  least : UInt32
  deriving DecidableEq, Repr

/-- None for continuation octets and for octets from `0xF8`. -/
def lead? (octet : UInt8) : Option Lead :=
  if octet < 0x80 then some ⟨0, octet.toUInt32, 0⟩
  else if octet &&& 0xE0 = 0xC0 then some ⟨1, (octet &&& 0x1F).toUInt32, 0x80⟩
  else if octet &&& 0xF0 = 0xE0 then some ⟨2, (octet &&& 0x0F).toUInt32, 0x800⟩
  else if octet &&& 0xF8 = 0xF0 then some ⟨3, (octet &&& 0x07).toUInt32, 0x10000⟩
  else none

/-- Octets `0x80` to `0xBF`, which never begin a character. -/
def isContinuation (octet : UInt8) : Bool := octet &&& 0xC0 == 0x80

/-- The code point with the six bits of a continuation octet put behind it. -/
def extend (code : UInt32) (octet : UInt8) : UInt32 := (code <<< 6) ||| (octet &&& 0x3F).toUInt32

/-- The code point after `count` continuation octets, read from an index on. -/
def continuations (buffer : Buffer) : Nat → Nat → UInt32 → Except Fault UInt32
  | _, 0, code => .ok code
  | index, count + 1, code =>
    match buffer index with
    | none => .error (.outside index)
    | some octet =>
      if isContinuation octet then continuations buffer (index + 1) count (extend code octet)
      else .error .illFormed

/-- Code points that may stand in so many octets: not shorter to write, not
    above U+10FFFF, no surrogate. -/
def allowed (least code : UInt32) : Bool :=
  least ≤ code && code ≤ 0x10FFFF && !(0xD800 ≤ code && code ≤ 0xDFFF)

/-- The number of octets after the first one in the character at an offset. -/
def character (buffer : Buffer) (length offset : Nat) : Except Fault Nat :=
  match buffer offset with
  | none => .error (.outside offset)
  | some octet =>
    match lead? octet with
    | none => .error .illFormed
    | some lead =>
      if length - offset ≤ lead.follow then .error .illFormed
      else
        match continuations buffer (offset + 1) lead.follow lead.bits with
        | .error fault => .error fault
        | .ok code => if allowed lead.least code then .ok lead.follow else .error .illFormed

/-! ## The whole buffer -/

/-- Checks character after character from an offset to the length. -/
def check (buffer : Buffer) (length offset : Nat) : Except Fault Unit :=
  if offset < length then
    match character buffer length offset with
    | .error fault => .error fault
    | .ok follow => check buffer length (offset + follow + 1)
  else .ok ()
termination_by length - offset

/-- The first `length` octets are well-formed UTF-8. -/
def wellFormedFirst (length : Nat) (octets : Octets) : Bool :=
  let stored := octets.toArray
  match check (fun index => stored[index]?) length 0 with
  | .ok _ => true
  | .error _ => false

def wellFormed (octets : Octets) : Bool := wellFormedFirst octets.length octets

/-! ## The encoding of characters -/

/-- The shortest forms of the characters, one after the other. Characters are
    exactly the Unicode scalar values. -/
def encode (characters : List Char) : Octets := characters.flatMap String.utf8EncodeChar

/-- The octets are the shortest forms of some characters. -/
def WellFormed (octets : Octets) : Prop := ∃ characters, encode characters = octets

end BleAdvertising.Utf8
