import BleAdvertising.Octets

/-!
# Assigned numbers

The octets and codes that the air interface and the controller fix: data types
of AD structures, UUID widths, the base UUID, event properties, transmit power
codes and the unit of advertising intervals.
-/
namespace BleAdvertising

/-! ## Data types -/

/-- The type octet of an AD structure. Every octet may stand on the air; the
    assigned ones have names. -/
structure DataType where
  code : UInt8
  deriving DecidableEq, Repr

namespace DataType

def serviceUuids16 : DataType := ⟨0x03⟩
def serviceUuids32 : DataType := ⟨0x05⟩
def serviceUuids128 : DataType := ⟨0x07⟩
/-- Leading octets of the local name. -/
def nameShort : DataType := ⟨0x08⟩
def nameComplete : DataType := ⟨0x09⟩
def txPowerLevel : DataType := ⟨0x0A⟩
def serviceData16 : DataType := ⟨0x16⟩
def serviceData32 : DataType := ⟨0x20⟩
def serviceData128 : DataType := ⟨0x21⟩
/-- A company identifier, then its data. -/
def manufacturerData : DataType := ⟨0xFF⟩

/-- The assigned data types, by ascending code. -/
def assigned : List DataType :=
  [serviceUuids16, serviceUuids32, serviceUuids128, nameShort, nameComplete, txPowerLevel, serviceData16,
    serviceData32, serviceData128, manufacturerData]

end DataType

/-! ## UUIDs -/

/-- The three sizes a UUID may have on the air. -/
inductive Width where
  | bits16
  | bits32
  | bits128
  deriving DecidableEq, Repr

namespace Width

/-- The number of octets on the air. -/
def octets : Width → Nat
  | bits16 => 2
  | bits32 => 4
  | bits128 => 16

/-- The widths, narrowest first. -/
def all : List Width := [bits16, bits32, bits128]

theorem octets_inj {a b : Width} (same : a.octets = b.octets) : a = b := by
  cases a <;> cases b <;> simp_all [octets]

@[simp] theorem octets_le (width : Width) : width.octets ≤ 16 := by
  cases width <;> decide

/-- The data type of a list of service UUIDs of that width. -/
def uuidList : Width → DataType
  | bits16 => .serviceUuids16
  | bits32 => .serviceUuids32
  | bits128 => .serviceUuids128

/-- The data type of the data of a service with a UUID of that width. -/
def serviceData : Width → DataType
  | bits16 => .serviceData16
  | bits32 => .serviceData32
  | bits128 => .serviceData128

end Width

/-- `00000000-0000-1000-8000-00805f9b34fb`, least significant octet first. -/
def baseUuid : Octets :=
  [0xFB, 0x34, 0x9B, 0x5F, 0x80, 0x00, 0x00, 0x80, 0x00, 0x10, 0x00, 0x00, 0x00, 0x00, 0x00, 0x00]

def companyOctets : Nat := 2

/-! ## Controller codes -/

/-- How an advertisement answers to scanners and to connection requests. -/
inductive EventProperties where
  | nonConnectable
  | scannable
  | connectable
  deriving DecidableEq, Repr

namespace EventProperties

/-- The legacy advertising event bits. -/
def code : EventProperties → UInt8
  | nonConnectable => 0x10
  | scannable => 0x12
  | connectable => 0x13

/-- By ascending code. -/
def all : List EventProperties := [nonConnectable, scannable, connectable]

end EventProperties

inductive PowerCode where
  | minimum
  | low
  | middle
  | upper
  deriving DecidableEq, Repr

namespace PowerCode

/-- The number handed to the controller. -/
def code : PowerCode → Int32
  | minimum => 0
  | low => 1
  | middle => 2
  | upper => 3

/-- By ascending code. -/
def all : List PowerCode := [minimum, low, middle, upper]

end PowerCode

/-- Microseconds in one unit of the advertising interval. -/
def intervalUnitMicroseconds : Int64 := 625

end BleAdvertising
