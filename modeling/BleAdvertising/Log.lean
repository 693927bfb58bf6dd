import BleAdvertising.Utf8

/-!
# Log lines

A message goes to the log when its level is at most the level of information.
It passes through a line buffer of fixed capacity on its way to the sink, which
puts a newline behind it.
-/
namespace BleAdvertising.Log

/-- How much a message matters, most important first. Any number is a level. -/
structure Level where
  number : Int32
  deriving DecidableEq, Repr

namespace Level

def error : Level := ⟨1⟩
def info : Level := ⟨3⟩

end Level

/-- The octets of the line buffer, one of which ends the text. -/
def capacity : Nat := 4096

def newline : UInt8 := 0x0A

/-- What the sink writes for the first `size` octets of a buffer: nothing unless
    there are any, else the octets and a newline. -/
def sink (buffer : Octets) (size : Int32) : Octets :=
  if size ≤ 0 then [] else buffer.take size.toInt.toNat ++ [newline]

/-- The line buffer for a text: the octets before the first NUL, as far as they
    fit. -/
def lineBuffer (text : Octets) : Octets := (text.takeWhile (· ≠ 0)).take (capacity - 1)

/-- What is written for a text at a level. -/
def write (level : Level) (text : Octets) : Octets :=
  if level.number ≤ Level.info.number then
    let line := lineBuffer text
    sink line (Int32.ofNat line.length)
  else []

/-- What the library has to say of its own accord. -/
inductive Notice where
  /-- A name is left out because it is no well-formed UTF-8. -/
  | nameEncoding
  deriving DecidableEq, Repr

namespace Notice

def level : Notice → Level
  | nameEncoding => .error

def message : Notice → String
  | nameEncoding => "Can't include name - encoding error!"

/-- What is written for a notice. -/
def write (notice : Notice) : Octets := Log.write notice.level (Utf8.encode notice.message.toList)

/-- What is written for notices, first notice first. -/
def writeAll (notices : List Notice) : Octets := notices.flatMap write

@[simp] theorem writeAll_append (first second : List Notice) :
    writeAll (first ++ second) = writeAll first ++ writeAll second := List.flatMap_append

end Notice

end BleAdvertising.Log
