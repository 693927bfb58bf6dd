import BleAdvertising.AdStructure
import BleAdvertising.Configuration
import BleAdvertising.Description
import BleAdvertising.Log
import BleAdvertising.Utf8

/-!
# Payloads

The octets of a description: the name, manufacturer data, transmit power, the
lists of service UUIDs and the service data, in this order. Every part is put
behind the parts before it. A name that is no well-formed UTF-8 is left out with
a notice, and everything else stays.
-/
namespace BleAdvertising

/-- Octets for the air, and the notices given while they were made. -/
structure Payload where
  octets : Octets := []
  notices : List Log.Notice := []
  deriving DecidableEq, Repr

namespace Payload

/-! ## The device name -/

/-- The name with its data type: whole, or the octets within the limit, even
    where the limit splits a character. -/
def nameStructure (limit : Option Nat) (name : Octets) : AdStructure :=
  match limit with
  | some most => if most < name.length then ⟨.nameShort, name.take most⟩ else ⟨.nameComplete, name⟩
  | none => ⟨.nameComplete, name⟩

/-- The name is checked as a whole, also beyond the limit. -/
def appendName (limit : Option Nat) (name : Octets) (payload : Payload) : Payload :=
  if Utf8.wellFormed name then
    let entry := nameStructure limit name
    { payload with octets := AdStructure.append payload.octets entry.kind entry.value }
  else { payload with notices := payload.notices ++ [.nameEncoding] }

/-! ## Manufacturer data and transmit power -/

/-- The company identifier stands before the data, low octet first. -/
def appendManufacturer (octets : Octets) (entry : ManufacturerEntry) : Octets :=
  AdStructure.appendParts octets .manufacturerData (Octets.ofNat companyOctets entry.company.toNat) entry.payload

/-- A zero stands for the level, which lower layers put in. -/
def appendTxPower (octets : Octets) : Octets := AdStructure.append octets .txPowerLevel [0]

/-! ## Service UUIDs -/

/-- Service UUIDs side by side, apart by width. -/
structure UuidLists where
  bits16 : Octets := []
  bits32 : Octets := []
  bits128 : Octets := []
  deriving DecidableEq, Repr

namespace UuidLists

def get (lists : UuidLists) : Width → Octets
  | .bits16 => lists.bits16
  | .bits32 => lists.bits32
  | .bits128 => lists.bits128

/-- One UUID more behind those of its width. -/
def add (lists : UuidLists) (uuid : Uuid) : UuidLists :=
  match uuid.width with
  | .bits16 => { lists with bits16 := lists.bits16 ++ uuid.octets }
  | .bits32 => { lists with bits32 := lists.bits32 ++ uuid.octets }
  | .bits128 => { lists with bits128 := lists.bits128 ++ uuid.octets }

def collect (uuids : List Uuid) : UuidLists := uuids.foldl add {}

end UuidLists

/-- Widths without a UUID have no AD structure. -/
def appendUuidList (lists : UuidLists) (octets : Octets) (width : Width) : Octets :=
  if lists.get width = [] then octets else AdStructure.append octets width.uuidList (lists.get width)

/-- One list for every width, narrowest first. -/
def appendServiceUuids (octets : Octets) (uuids : List Uuid) : Octets :=
  Width.all.foldl (appendUuidList (UuidLists.collect uuids)) octets

/-! ## Service data -/

/-- The UUID stands before its data. -/
def appendServiceData (octets : Octets) (entry : Uuid × Octets) : Octets :=
  AdStructure.appendParts octets entry.1.width.serviceData entry.1.octets entry.2

/-! ## The whole payload -/

def appendContent (octets : Octets) (description : Description) : Octets :=
  let withManufacturer := description.manufacturer.foldl appendManufacturer octets
  let withTxPower := if description.includeTxPower then appendTxPower withManufacturer else withManufacturer
  let withServiceUuids := appendServiceUuids withTxPower description.serviceUuids
  description.serviceData.entries.foldl appendServiceData withServiceUuids

/-- The payload of a description for a device of a given name. -/
def encode (configuration : Configuration) (description : Description) (name : Octets) : Payload :=
  let start : Payload := if description.includeName then appendName configuration.nameLimit name {} else {}
  { start with octets := appendContent start.octets description }

def encode? (configuration : Configuration) (description : Option Description) (name : Octets) : Payload :=
  match description with
  | some description => encode configuration description name
  | none => {}

def log (payload : Payload) : Octets := Log.Notice.writeAll payload.notices

end Payload
end BleAdvertising
