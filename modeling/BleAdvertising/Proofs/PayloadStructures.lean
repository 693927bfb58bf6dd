import BleAdvertising.Content
import BleAdvertising.Payload

/-!
# Payloads are the structures of their descriptions

Every part of a payload is put behind what is there already. `encode_octets`
says which octets that makes: those of the structures of `Content`, for
structures of any size. `encode_notices` says when there is a notice.
-/
namespace BleAdvertising

/-! ## One structure after the other -/

namespace AdStructure

@[simp] theorem write_nil : write [] = [] := rfl

@[simp] theorem write_append (front back : List AdStructure) : write (front ++ back) = write front ++ write back :=
  List.flatMap_append

@[simp] theorem write_cons (entry : AdStructure) (rest : List AdStructure) :
    write (entry :: rest) = entry.octets ++ write rest := List.flatMap_cons

/-- At most one structure. -/
theorem write_toList (optional : Option AdStructure) : write optional.toList = optional.elim [] octets := by
  cases optional <;> simp

/-- Steps that each put structures behind the octets put all of them there. -/
theorem foldl_eq_append_write {α : Type} {step : Octets → α → Octets} {entries : α → List AdStructure}
    (one : ∀ octets item, step octets item = octets ++ write (entries item)) (octets : Octets) (items : List α) :
    items.foldl step octets = octets ++ write (items.flatMap entries) := by
  induction items generalizing octets with
  | nil => simp
  | cons item items ih => simp [ih, one]

end AdStructure

namespace Payload
open AdStructure

/-! ## The name -/

/-- Without its sign a negative number is beyond all that have one. -/
theorem unsigned_cases (number : Int32) :
    number < 0 ∧ 2 ^ 63 ≤ number.toInt64.toUInt64.toNat ∨
      ¬ number < 0 ∧ number.toInt64.toUInt64.toNat = number.toInt.toNat := by
  have widened : number.toInt64.toBitVec.toInt = number.toInt := Int32.toInt_toInt64 number
  have bits : number.toInt64.toUInt64.toNat = number.toInt64.toBitVec.toNat := rfl
  have bounded := number.toInt64.toBitVec.isLt
  rw [bits, Int32.lt_iff_toInt_lt, Int32.toInt_zero]
  rw [BitVec.toInt_eq_toNat_cond] at widened
  split at widened <;> omega

/-- The maximum is taken for a number of 64 bits without a sign. A negative one is
    then more than a name can have octets. -/
theorem nameStructure_nameLimit (configuration : Configuration) {name : Octets} (short : name.length < 2 ^ 63) :
    let most := configuration.nameMaximum.toInt64.toUInt64.toNat
    nameStructure configuration.nameLimit name =
      if most < name.length then ⟨⟨0x08⟩, name.take most⟩ else ⟨⟨0x09⟩, name⟩ := by
  intro most
  rcases unsigned_cases configuration.nameMaximum with ⟨negative, large⟩ | ⟨natural, same⟩
  · have whole : ¬ most < name.length := Nat.not_lt.mpr (Nat.le_trans (Nat.le_of_lt short) large)
    rw [Configuration.nameLimit_of_neg negative, if_neg whole]
    rfl
  · rw [Configuration.nameLimit, if_neg natural, ← same]
    rfl

theorem name?_eq_none {limit : Option Nat} {included : Bool} {name : Octets}
    (left : ¬ (included ∧ Utf8.WellFormed name)) : Content.name? limit included name = none := if_neg left

theorem name?_eq_some {limit : Option Nat} {included : Bool} {name : Octets}
    (kept : included ∧ Utf8.WellFormed name) :
    Content.name? limit included name = some (nameStructure limit name) := by
  rw [Content.name?, if_pos kept]
  cases limit with
  | none => rfl
  | some most => by_cases clipped : most < name.length <;> simp [nameStructure, Option.filter, clipped]

def nameNotices (description : Description) (name : Octets) : List Log.Notice :=
  if description.includeName ∧ ¬ Utf8.WellFormed name then [.nameEncoding] else []

theorem start_eq (limit : Option Nat) (description : Description) (name : Octets) :
    (if description.includeName then appendName limit name {} else {}) =
      { octets := write (Content.name limit description name), notices := nameNotices description name : Payload } := by
  by_cases included : description.includeName
  · by_cases passed : Utf8.wellFormed name
    · have wellFormed := (Utf8.wellFormed_iff name).mp passed
      rw [if_pos included, appendName, if_pos passed, Content.name, name?_eq_some ⟨included, wellFormed⟩, nameNotices,
        if_neg (fun both => both.2 wellFormed)]
      simp [append_eq]
    · have illFormed := mt (Utf8.wellFormed_iff name).mpr passed
      rw [if_pos included, appendName, if_neg passed, Content.name, name?_eq_none (fun both => illFormed both.2),
        nameNotices, if_pos ⟨included, illFormed⟩]
      simp
  · rw [if_neg included, Content.name, name?_eq_none (fun both => included both.1), nameNotices,
      if_neg (fun both => included both.1)]
    simp

/-! ## Manufacturer data -/

theorem company_octets (company : UInt16) :
    Octets.ofNat companyOctets company.toNat = [company.toUInt8, (company >>> 8).toUInt8] := by
  have low : UInt8.ofNat company.toNat = company.toUInt8 := rfl
  have high : UInt8.ofNat (company.toNat / 256) = (company >>> 8).toUInt8 := by
    apply UInt8.toNat_inj.mp
    simp [Nat.shiftRight_eq_div_pow]
  simp only [companyOctets, Octets.ofNat, low, high]

theorem foldl_appendManufacturer (octets : Octets) (description : Description) :
    description.manufacturer.foldl appendManufacturer octets = octets ++ write (Content.manufacturer description) := by
  rw [Content.manufacturer, List.map_eq_flatMap]
  apply foldl_eq_append_write
  intro octets entry
  simp [appendManufacturer, appendParts_eq, company_octets, Content.manufacturerEntry]

/-! ## Service UUIDs -/

theorem UuidLists.get_foldl_add (width : Width) (lists : UuidLists) (uuids : List Uuid) :
    (uuids.foldl add lists).get width =
      lists.get width ++ (uuids.filter (fun uuid => uuid.width = width)).flatMap (·.octets) := by
  induction uuids generalizing lists with
  | nil => simp
  | cons uuid uuids ih =>
    rw [List.foldl_cons, ih]
    cases kind : uuid.width <;> cases width <;> simp [add, get, kind]

theorem UuidLists.get_collect (width : Width) (description : Description) :
    (collect description.serviceUuids).get width = (Content.uuidsOf width description).flatMap (·.octets) := by
  rw [collect, get_foldl_add]
  cases width <;> rfl

theorem octets_ne_nil (uuid : Uuid) : uuid.octets ≠ [] := by
  intro empty
  have sized := uuid.sized
  rw [empty] at sized
  cases kind : uuid.width <;> rw [kind] at sized <;> cases sized

theorem flatMap_octets_eq_nil_iff (uuids : List Uuid) : uuids.flatMap (·.octets) = [] ↔ uuids = [] := by
  cases uuids with
  | nil => simp
  | cons uuid uuids => simp [octets_ne_nil]

theorem appendServiceUuids_eq (octets : Octets) (description : Description) :
    appendServiceUuids octets description.serviceUuids = octets ++ write (Content.serviceUuids description) := by
  rw [appendServiceUuids, Content.serviceUuids, Content.uuidLists, List.filterMap_eq_flatMap_toList]
  apply foldl_eq_append_write
  intro octets width
  simp only [appendUuidList, Content.uuidList?, UuidLists.get_collect, flatMap_octets_eq_nil_iff]
  by_cases empty : Content.uuidsOf width description = [] <;> simp [empty, append_eq]

/-! ## Service data -/

theorem foldl_appendServiceData (octets : Octets) (description : Description) :
    description.serviceData.entries.foldl appendServiceData octets =
      octets ++ write (Content.serviceData description) := by
  rw [Content.serviceData, List.map_eq_flatMap]
  apply foldl_eq_append_write
  intro octets entry
  simp [appendServiceData, appendParts_eq, Content.serviceDataEntry]

/-! ## The whole payload -/

theorem appendContent_eq (octets : Octets) (description : Description) :
    appendContent octets description = octets ++ write (Content.unnamed description) := by
  have power (octets : Octets) : (if description.includeTxPower then appendTxPower octets else octets) =
      octets ++ write (Content.txPower description) := by
    rw [Content.txPower, Content.txPower?]
    split <;> simp [appendTxPower, append_eq]
  simp only [appendContent, foldl_appendManufacturer, power, appendServiceUuids_eq, foldl_appendServiceData,
    Content.unnamed, write_append, List.append_assoc]

theorem encode_eq (configuration : Configuration) (description : Description) (name : Octets) :
    encode configuration description name =
      { octets := write (Content.structures configuration.nameLimit description name)
        notices := nameNotices description name } := by
  simp only [encode, start_eq, appendContent_eq, Content.structures, write_append]

/-- A payload holds the octets of the structures that its description calls for,
    and nothing else. -/
theorem encode_octets (configuration : Configuration) (description : Description) (name : Octets) :
    (encode configuration description name).octets =
      write (Content.structures configuration.nameLimit description name) := by
  rw [encode_eq]

theorem encode_notices (configuration : Configuration) (description : Description) (name : Octets) :
    (encode configuration description name).notices = nameNotices description name := by
  rw [encode_eq]

end Payload
end BleAdvertising
