import BleAdvertising.Proofs.OctetNumbers
import BleAdvertising.Proofs.PayloadWalk

/-!
# Nothing on the air is lost

The data type of a structure tells which part of the description calls for it
(`part?_of_mem`), so the parts are known from the structures, and what is said
in a part is known from its structures. With the walk: two payloads of the same
octets say the same.
-/
namespace BleAdvertising

/-- The width tells where a UUID ends, whatever follows it. -/
theorem Uuid.append_inj {uuid other : Uuid} {rest rest' : Octets} (widths : uuid.width = other.width)
    (same : uuid.octets ++ rest = other.octets ++ rest') : uuid = other ∧ rest = rest' := by
  have lengths : uuid.octets.length = other.octets.length := by simp [widths]
  obtain ⟨octets, rests⟩ := List.append_inj same lengths
  exact ⟨Uuid.ext widths octets, rests⟩

namespace Content

/-! ## The parts of a payload -/

/-- What the structures of a payload are about. -/
inductive Part where
  | name
  | manufacturer
  | txPower
  | serviceUuids
  | serviceData
  deriving DecidableEq

def Part.all : List Part := [name, manufacturer, txPower, serviceUuids, serviceData]

def part? (kind : DataType) : Option Part :=
  if kind ∈ [.nameShort, .nameComplete] then some .name
  else if kind = .manufacturerData then some .manufacturer
  else if kind = .txPowerLevel then some .txPower
  else if kind ∈ Width.all.map Width.uuidList then some .serviceUuids
  else if kind ∈ Width.all.map Width.serviceData then some .serviceData
  else none

def structuresOf (limit : Option Nat) (description : Description) (deviceName : Octets) : Part → List AdStructure
  | .name => name limit description deviceName
  | .manufacturer => manufacturer description
  | .txPower => txPower description
  | .serviceUuids => serviceUuids description
  | .serviceData => serviceData description

variable {limit : Option Nat} {description : Description} {deviceName : Octets}

theorem structures_eq :
    structures limit description deviceName = Part.all.flatMap (structuresOf limit description deviceName) := by
  simp [structures, unnamed, Part.all, structuresOf]

/-- No two parts share a data type. -/
theorem part?_of_mem {part : Part} {entry : AdStructure}
    (member : entry ∈ structuresOf limit description deviceName part) : part? entry.kind = some part := by
  cases part with
  | name =>
    simp only [structuresOf, name, name?, Option.mem_toList] at member
    split at member
    · split at member <;> cases member <;> rfl
    · cases member
  | manufacturer =>
    obtain ⟨_, _, rfl⟩ := List.mem_map.mp member
    rfl
  | txPower =>
    simp only [structuresOf, txPower, txPower?, Option.mem_toList] at member
    split at member <;> cases member
    rfl
  | serviceUuids =>
    obtain ⟨width, -, listed⟩ := List.mem_filterMap.mp member
    rw [uuidList?] at listed
    split at listed <;> cases listed
    cases width <;> rfl
  | serviceData =>
    obtain ⟨⟨uuid, _⟩, _, rfl⟩ := List.mem_map.mp member
    cases kind : uuid.width <;> simp only [serviceDataEntry, kind] <;> rfl

theorem filter_structuresOf (part other : Part) :
    (structuresOf limit description deviceName other).filter (fun entry => part? entry.kind = some part) =
      if other = part then structuresOf limit description deviceName other else [] := by
  split
  · rename_i same
    rw [List.filter_eq_self]
    intro entry member
    simp [part?_of_mem member, same]
  · rename_i different
    rw [List.filter_eq_nil_iff]
    intro entry member
    simp [part?_of_mem member, different]

/-- A part is what has its data types. -/
theorem filter_structures (part : Part) :
    (structures limit description deviceName).filter (fun entry => part? entry.kind = some part) =
      structuresOf limit description deviceName part := by
  rw [structures_eq, List.filter_flatMap]
  simp only [filter_structuresOf]
  cases part <;> simp [Part.all]

/-! ## What a part says -/

theorem manufacturer_injective {first second : Description} (same : manufacturer first = manufacturer second) :
    first.manufacturer = second.manufacturer := by
  refine (List.map_inj_right ?_).mp same
  rintro ⟨company, payload⟩ ⟨company', payload'⟩ equal
  simp only [manufacturerEntry, AdStructure.mk.injEq, List.cons.injEq, true_and] at equal
  obtain ⟨low, high, rfl⟩ := equal
  have octets : Octets.ofNat companyOctets company.toNat = Octets.ofNat companyOctets company'.toNat := by
    rw [Payload.company_octets, Payload.company_octets, low, high]
  have numbers : company.toNat = company'.toNat := Octets.ofNat_inj company.toNat_lt company'.toNat_lt octets
  rw [UInt16.toNat_inj.mp numbers]

theorem txPower_injective {first second : Description} (same : txPower first = txPower second) :
    first.includeTxPower = second.includeTxPower := by
  simp only [txPower, txPower?] at same
  split at same <;> split at same <;> simp_all

theorem uuidList_injective {width other : Width} (same : width.uuidList = other.uuidList) : width = other := by
  revert same
  cases width <;> cases other <;> decide

theorem serviceData_kind_injective {width other : Width} (same : width.serviceData = other.serviceData) :
    width = other := by
  revert same
  cases width <;> cases other <;> decide

theorem filter_serviceUuids (description : Description) (width : Width) :
    (serviceUuids description).filter (fun entry => entry.kind = width.uuidList) =
      (uuidList? width (uuidsOf width description)).toList := by
  have one (other : Width) :
      (uuidList? other (uuidsOf other description)).toList.filter (fun entry => entry.kind = width.uuidList) =
      if other = width then (uuidList? width (uuidsOf width description)).toList else [] := by
    by_cases same : other = width
    · subst same
      rw [uuidList?]
      split <;> simp
    · have different : other.uuidList ≠ width.uuidList := fun equal => same (uuidList_injective equal)
      rw [uuidList?]
      rw [if_neg same]
      split <;> simp [different]
  rw [serviceUuids, uuidLists, List.filterMap_eq_flatMap_toList, List.filter_flatMap]
  simp only [one]
  cases width <;> simp [Width.all]

/-- UUIDs of one width are known from their octets side by side. -/
theorem flatMap_octets_injective {width : Width} {first second : List Uuid}
    (firstWidth : ∀ uuid ∈ first, uuid.width = width) (secondWidth : ∀ uuid ∈ second, uuid.width = width)
    (same : first.flatMap (·.octets) = second.flatMap (·.octets)) : first = second := by
  -- Without the widths the octets of one long UUID could be those of several short ones.
  induction first generalizing second with
  | nil => exact ((Payload.flatMap_octets_eq_nil_iff second).mp same.symm).symm
  | cons uuid rest ih =>
    cases second with
    | nil => exact (Payload.flatMap_octets_eq_nil_iff (uuid :: rest)).mp same
    | cons other others =>
      have widths : uuid.width = other.width :=
        (firstWidth uuid List.mem_cons_self).trans (secondWidth other List.mem_cons_self).symm
      obtain ⟨heads, tails⟩ := Uuid.append_inj widths same
      rw [heads, ih (fun later member => firstWidth later (List.mem_cons_of_mem _ member))
        (fun later member => secondWidth later (List.mem_cons_of_mem _ member)) tails]

theorem serviceUuids_injective {first second : Description} (same : serviceUuids first = serviceUuids second)
    (width : Width) : uuidsOf width first = uuidsOf width second := by
  have ofWidth (description : Description) : ∀ uuid ∈ uuidsOf width description, uuid.width = width := by
    intro uuid member
    exact of_decide_eq_true (List.mem_filter.mp member).2
  have value (uuids : List Uuid) : (uuidList? width uuids).toList.flatMap (·.value) = uuids.flatMap (·.octets) := by
    rw [uuidList?]
    split <;> simp_all
  apply flatMap_octets_injective (ofWidth first) (ofWidth second)
  rw [← value, ← value, ← filter_serviceUuids, ← filter_serviceUuids, same]

theorem serviceData_injective {first second : Description} (same : serviceData first = serviceData second) :
    first.serviceData = second.serviceData := by
  apply ServiceData.ext
  refine (List.map_inj_right ?_).mp same
  rintro ⟨uuid, payload⟩ ⟨uuid', payload'⟩ equal
  simp only [serviceDataEntry, AdStructure.mk.injEq] at equal
  obtain ⟨kinds, values⟩ := equal
  obtain ⟨uuids, payloads⟩ := Uuid.append_inj (serviceData_kind_injective kinds) values
  rw [uuids, payloads]

end Content

namespace Payload

/-- Payloads of the same octets say the same wherever all structures fit: the
    same manufacturer data in the same order, the same transmit power, the same
    service UUIDs of each width, the same service data, and the same name
    structure. -/
theorem encode_injective (configuration configuration' : Configuration) {description description' : Description}
    {name name' : Octets} (fits : ∀ entry ∈ Content.structures configuration.nameLimit description name, entry.Fits)
    (fits' : ∀ entry ∈ Content.structures configuration'.nameLimit description' name', entry.Fits)
    (same : (encode configuration description name).octets = (encode configuration' description' name').octets) :
    description.manufacturer = description'.manufacturer ∧
      description.includeTxPower = description'.includeTxPower ∧
      (∀ width, Content.uuidsOf width description = Content.uuidsOf width description') ∧
      description.serviceData = description'.serviceData ∧
      Content.name configuration.nameLimit description name = Content.name configuration'.nameLimit description' name' := by
  rw [encode_octets, encode_octets] at same
  -- From here on the two lists of structures are one, and every part is filtered out of it.
  have structures := AdStructure.write_injective fits fits' same
  have part (part : Content.Part) : Content.structuresOf configuration.nameLimit description name part =
      Content.structuresOf configuration'.nameLimit description' name' part := by
    rw [← Content.filter_structures, ← Content.filter_structures, structures]
  refine ⟨?_, ?_, ?_, ?_, ?_⟩
  · exact Content.manufacturer_injective (part .manufacturer)
  · exact Content.txPower_injective (part .txPower)
  · exact Content.serviceUuids_injective (part .serviceUuids)
  · exact Content.serviceData_injective (part .serviceData)
  · exact part .name

def apart : Description := Description.build
  [.includeName true, .addServiceUuid (Uuid.ofUInt16 1), .addServiceUuid (Uuid.ofUInt16 2),
    .addServiceUuid (Uuid.ofUInt32 1), .addServiceData (Uuid.ofUInt16 2) [3], .addServiceData (Uuid.ofUInt16 1) []]

/-- The same service UUIDs with the widths in turn. -/
def inTurn : Description := Description.build
  [.addServiceData (Uuid.ofUInt16 1) [], .addServiceUuid (Uuid.ofUInt16 1), .addServiceUuid (Uuid.ofUInt32 1),
    .addServiceUuid (Uuid.ofUInt16 2), .addServiceData (Uuid.ofUInt16 2) [3], .includeName true]

theorem structures_apart : Content.structures (some 1) apart (Utf8.encode ['A', 'B']) =
    [⟨.nameShort, [0x41]⟩, ⟨.serviceUuids16, [1, 0, 2, 0]⟩, ⟨.serviceUuids32, [1, 0, 0, 0]⟩, ⟨.serviceData16, [1, 0]⟩,
      ⟨.serviceData16, [2, 0, 3]⟩] := by
  rw [Content.structures, Content.name, name?_eq_some ⟨by decide, ['A', 'B'], rfl⟩]
  decide

theorem structures_inTurn : Content.structures (some 1) inTurn (Utf8.encode ['A', 'C', 'D']) =
    Content.structures (some 1) apart (Utf8.encode ['A', 'B']) := by
  rw [structures_apart, Content.structures, Content.name, name?_eq_some ⟨by decide, ['A', 'C', 'D'], rfl⟩]
  decide

/-- Neither the descriptions nor the names have to be the same. -/
theorem encode_injective_apart_inTurn :
    (∀ entry ∈ Content.structures (some 1) apart (Utf8.encode ['A', 'B']), entry.Fits) ∧
      (∀ entry ∈ Content.structures (some 1) inTurn (Utf8.encode ['A', 'C', 'D']), entry.Fits) ∧
      (encode { nameMaximum := 1 } apart (Utf8.encode ['A', 'B'])).octets =
        (encode { nameMaximum := 1 } inTurn (Utf8.encode ['A', 'C', 'D'])).octets ∧
      apart ≠ inTurn ∧ apart.serviceData = inTurn.serviceData ∧
      (∀ width, Content.uuidsOf width apart = Content.uuidsOf width inTurn) := by
  have fits : ∀ entry ∈ Content.structures (some 1) apart (Utf8.encode ['A', 'B']), entry.Fits := by
    rw [structures_apart]
    decide
  have fits' : ∀ entry ∈ Content.structures (some 1) inTurn (Utf8.encode ['A', 'C', 'D']), entry.Fits := by
    rw [structures_inTurn]
    exact fits
  have same : (encode { nameMaximum := 1 } apart (Utf8.encode ['A', 'B'])).octets =
      (encode { nameMaximum := 1 } inTurn (Utf8.encode ['A', 'C', 'D'])).octets := by
    rw [encode_octets, encode_octets]
    exact congrArg AdStructure.write structures_inTurn.symm
  obtain ⟨_, _, uuids, data, _⟩ := encode_injective { nameMaximum := 1 } { nameMaximum := 1 } fits fits' same
  exact ⟨fits, fits', same, by decide, data, uuids⟩

end Payload
end BleAdvertising
