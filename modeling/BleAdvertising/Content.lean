import BleAdvertising.AdStructure
import BleAdvertising.Description
import BleAdvertising.Proofs.Utf8Characters

/-!
# Content

The AD structures that a description calls for, in the order in which a payload
holds them, said without a word on how a payload is put together.
-/
namespace BleAdvertising.Content

/-! ## Single structures -/

/-- The name has a structure when it is to be included and is well-formed as a
    whole. Under a limit shorter than the name, its first octets are the short
    name. -/
def name? (limit : Option Nat) (included : Bool) (deviceName : Octets) : Option AdStructure :=
  if included ∧ Utf8.WellFormed deviceName then
    match limit.filter (· < deviceName.length) with
    | some most => some ⟨.nameShort, deviceName.take most⟩
    | none => some ⟨.nameComplete, deviceName⟩
  else none

def manufacturerEntry (entry : ManufacturerEntry) : AdStructure :=
  ⟨.manufacturerData, entry.company.toUInt8 :: (entry.company >>> 8).toUInt8 :: entry.payload⟩

def txPower? (included : Bool) : Option AdStructure := if included then some ⟨.txPowerLevel, [0]⟩ else none

/-- The list of service UUIDs of one width, where there are any. -/
def uuidList? (width : Width) (uuids : List Uuid) : Option AdStructure :=
  if uuids = [] then none else some ⟨width.uuidList, uuids.flatMap (·.octets)⟩

def serviceDataEntry (entry : Uuid × Octets) : AdStructure :=
  ⟨entry.1.width.serviceData, entry.1.octets ++ entry.2⟩

/-! ## The parts of a payload -/

def name (limit : Option Nat) (description : Description) (deviceName : Octets) : List AdStructure :=
  (name? limit description.includeName deviceName).toList

/-- One structure for every entry, equal entries included. -/
def manufacturer (description : Description) : List AdStructure := description.manufacturer.map manufacturerEntry

def txPower (description : Description) : List AdStructure := (txPower? description.includeTxPower).toList

/-- The service UUIDs of one width, in the order they were added. -/
def uuidsOf (width : Width) (description : Description) : List Uuid :=
  description.serviceUuids.filter (fun uuid => uuid.width = width)

/-- One structure for every one of the widths that a service UUID has. -/
def uuidLists (widths : List Width) (description : Description) : List AdStructure :=
  widths.filterMap fun width => uuidList? width (uuidsOf width description)

def serviceUuids (description : Description) : List AdStructure := uuidLists Width.all description

/-- One structure for every UUID with data, in the order of the UUIDs. -/
def serviceData (description : Description) : List AdStructure :=
  description.serviceData.entries.map serviceDataEntry

def unnamed (description : Description) : List AdStructure :=
  manufacturer description ++ txPower description ++ serviceUuids description ++ serviceData description

def structures (limit : Option Nat) (description : Description) (deviceName : Octets) : List AdStructure :=
  name limit description deviceName ++ unnamed description

end BleAdvertising.Content
