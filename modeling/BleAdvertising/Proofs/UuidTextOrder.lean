import BleAdvertising.Proofs.PayloadRecovery
import BleAdvertising.Proofs.UuidOrder
import BleAdvertising.Proofs.UuidTexts

/-!
# UUIDs in the order of their texts

The most significant octet of a UUID stands first in its text, and the digits
stand in the order of the numbers they are (`encode_lt_encode_iff`). What all
texts of a width have in common has no part in their order. So at one width the
order of UUIDs is that of their texts (`text_lt_text_iff`), and a payload has
service data of each width in that order.
-/
namespace BleAdvertising

/-! ## Octets in order -/

namespace Octets

/-- The first parts decide, and the second ones where the first are the same. -/
theorem append_lt_append_iff {front front' back back' : Octets} (counted : front.length = front'.length) :
    front ++ back < front' ++ back' ↔ front < front' ∨ front = front' ∧ back < back' := by
  induction front generalizing front' with
  | nil =>
    obtain rfl := List.length_eq_zero_iff.mp counted.symm
    simp
  | cons octet front ih =>
    obtain ⟨octet', front', rfl⟩ := List.exists_cons_of_length_eq_add_one counted.symm
    rw [List.cons_append, List.cons_append, List.cons_lt_cons_iff, List.cons_lt_cons_iff, ih (Nat.succ.inj counted),
      List.cons.injEq]
    tauto

/-- What stands around two rows of octets does not count. -/
theorem between_lt_between_iff (front back : Octets) {row row' : Octets} (counted : row.length = row'.length) :
    front ++ (row ++ back) < front ++ (row' ++ back) ↔ row < row' := by
  rw [append_lt_append_iff rfl, append_lt_append_iff counted]
  simp [List.lt_irrefl]

/-- One octet that is put into both rows at one place changes nothing. -/
theorem insertIdx_lt_insertIdx_iff (octet : UInt8) (place : Nat) (row row' : Octets) :
    row.insertIdx place octet < row'.insertIdx place octet ↔ row < row' := by
  induction place generalizing row row' with
  | zero => simp
  | succ place ih =>
    cases row <;> cases row' <;> simp [List.cons_lt_cons_iff, ih]

end Octets

/-! ## Digits in order -/

namespace Hex

theorem spell_lt_spell_iff (first second : Fin 16) : spell first < spell second ↔ first < second := by
  revert first second
  decide

theorem spell_inj (first second : Fin 16) : spell first = spell second ↔ first = second := by
  revert first second
  decide

theorem encodeOctet_lt_encodeOctet_iff (first second : UInt8) :
    encodeOctet first < encodeOctet second ↔ first < second := by
  rw [← join_halves first, ← join_halves second]
  generalize Fin.ofNat 16 (first.toNat / 16) = high, Fin.ofNat 16 first.toNat = low
  generalize Fin.ofNat 16 (second.toNat / 16) = high', Fin.ofNat 16 second.toNat = low'
  rw [encodeOctet_join, encodeOctet_join, UInt8.lt_iff_toNat_lt, toNat_join, toNat_join]
  simp only [List.cons_lt_cons_iff, spell_lt_spell_iff, spell_inj, List.lt_irrefl, and_false, or_false]
  omega

theorem encodeOctet_inj (first second : UInt8) : encodeOctet first = encodeOctet second ↔ first = second := by
  constructor
  · intro same
    have whole : encode [first] = encode [second] := by simp [same]
    exact List.head_eq_of_cons_eq (encode_inj whole)
  · exact congrArg encodeOctet

theorem encode_lt_encode_iff (first second : Octets) : encode first < encode second ↔ first < second := by
  induction first generalizing second with
  | nil => cases second <;> simp [encode, encodeOctet]
  | cons octet first ih =>
    cases second with
    | nil => simp [encode]
    | cons octet' second =>
      have both : (encodeOctet octet).length = (encodeOctet octet').length := rfl
      rw [encode_cons, encode_cons, Octets.append_lt_append_iff both, encodeOctet_lt_encodeOctet_iff, encodeOctet_inj,
        ih, List.cons_lt_cons_iff]

end Hex

/-! ## Texts in order -/

namespace Uuid
open Hex

theorem hyphenate_eq_insertIdx {digits : Octets} (sized : digits.length = 32) : hyphenate digits =
    (((digits.insertIdx 20 hyphen).insertIdx 16 hyphen).insertIdx 12 hyphen).insertIdx 8 hyphen := by
  obtain ⟨entry, rfl⟩ := exists_ofFn sized
  rfl

theorem hyphenate_lt_hyphenate_iff {digits digits' : Octets} (sized : digits.length = 32) (sized' : digits'.length = 32) :
    hyphenate digits < hyphenate digits' ↔ digits < digits' := by
  simp only [hyphenate_eq_insertIdx sized, hyphenate_eq_insertIdx sized', Octets.insertIdx_lt_insertIdx_iff]

/-- At one width, expansions differ only where the octets stand. -/
theorem reverse_expand_lt_iff {a b : Uuid} (width : a.width = b.width) :
    a.expand.reverse < b.expand.reverse ↔ a.octets.reverse < b.octets.reverse := by
  have counted : a.octets.reverse.length = b.octets.reverse.length := by
    simp [width]
  cases kind : a.width with
  | bits16 =>
    rw [expand_bits16 kind, expand_bits16 (width ▸ kind)]
    simp only [List.reverse_append, List.append_assoc]
    exact Octets.between_lt_between_iff _ _ counted
  | bits32 =>
    rw [expand_bits32 kind, expand_bits32 (width ▸ kind), List.reverse_append, List.reverse_append]
    exact Octets.between_lt_between_iff [] _ counted
  | bits128 => rw [expand_bits128 kind, expand_bits128 (width ▸ kind)]

theorem text_lt_text_iff {a b : Uuid} (width : a.width = b.width) : a.text < b.text ↔ a < b := by
  rw [text_eq_hyphenate, text_eq_hyphenate,
    hyphenate_lt_hyphenate_iff (length_encode_expand a) (length_encode_expand b), encode_lt_encode_iff,
    reverse_expand_lt_iff width, lt_def]
  simp [width]

theorem text_inj_of_width {a b : Uuid} (width : a.width = b.width) : a.text = b.text ↔ a = b := by
  constructor
  · intro same
    exact eq_of_expand_of_width width ((text_eq_iff a b).mp same)
  · exact congrArg Uuid.text

end Uuid

/-! ## Service data in order -/

namespace Content

/-- The service data of the UUIDs of one width, in the order of a payload. -/
def serviceDataOf (width : Width) (description : Description) : List (Uuid × Octets) :=
  description.serviceData.entries.filter (fun entry => entry.1.width = width)

theorem filter_serviceData (description : Description) (width : Width) :
    (serviceData description).filter (fun entry => entry.kind = width.serviceData) =
      (serviceDataOf width description).map fun entry => ⟨width.serviceData, entry.1.octets ++ entry.2⟩ := by
  have kinds (entry : Uuid × Octets) : (serviceDataEntry entry).kind = width.serviceData ↔ entry.1.width = width :=
    ⟨serviceData_kind_injective, congrArg Width.serviceData⟩
  rw [serviceData, serviceDataOf, List.filter_map]
  simp only [Function.comp_def, kinds]
  apply List.map_congr_left
  intro entry member
  rw [serviceDataEntry, of_decide_eq_true (List.mem_filter.mp member).2]

/-- The data types of service data are found in no other part. -/
theorem filter_structures_serviceData (limit : Option Nat) (description : Description) (deviceName : Octets)
    (width : Width) :
    (structures limit description deviceName).filter (fun entry => entry.kind = width.serviceData) =
      (serviceDataOf width description).map fun entry => ⟨width.serviceData, entry.1.octets ++ entry.2⟩ := by
  have part : part? width.serviceData = some .serviceData := by cases width <;> rfl
  have inPart : (structures limit description deviceName).filter (fun entry => part? entry.kind = some .serviceData) =
      serviceData description := filter_structures .serviceData
  rw [← filter_serviceData, ← inPart, List.filter_filter]
  apply List.filter_congr
  intro entry _
  by_cases kind : entry.kind = width.serviceData <;> simp [kind, part]

theorem serviceDataOf_ascending (description : Description) (width : Width) :
    (serviceDataOf width description).Pairwise (fun first second => first.1.text < second.1.text) := by
  have ascending : (serviceDataOf width description).Pairwise (fun first second => first.1 < second.1) :=
    description.serviceData.ascending.filter _
  refine ascending.imp_of_mem ?_
  intro first second firstMember secondMember before
  have firstWidth := of_decide_eq_true (List.mem_filter.mp firstMember).2
  have secondWidth := of_decide_eq_true (List.mem_filter.mp secondMember).2
  exact (Uuid.text_lt_text_iff (firstWidth.trans secondWidth.symm)).mpr before

end Content

namespace Payload

/-- At one width the order of UUIDs in storage is the order of their texts, octet
    by octet, and UUIDs are equal where their texts are. A payload is a row of
    structures of which those with service data of one width stand in ascending
    order of the texts of their UUIDs. -/
theorem encode_ascending_texts (configuration : Configuration) (description : Description) (name : Octets) :
    (∀ a b : Uuid.Stored, a.width = b.width →
        (a.before b ↔ a.uuid.text < b.uuid.text) ∧ (a.equal b ↔ a.uuid.text = b.uuid.text)) ∧
      (encode configuration description name).octets =
        AdStructure.write (Content.structures configuration.nameLimit description name) ∧
      ∀ width, (Content.structures configuration.nameLimit description name).filter
            (fun entry => entry.kind = width.serviceData) =
          (Content.serviceDataOf width description).map (fun entry => ⟨width.serviceData, entry.1.octets ++ entry.2⟩) ∧
        (Content.serviceDataOf width description).Pairwise (fun first second => first.1.text < second.1.text) := by
  refine ⟨?_, encode_octets configuration description name, ?_⟩
  · intro a b width
    rw [Uuid.Stored.before_iff, Uuid.Stored.equal_iff, Uuid.text_lt_text_iff width, Uuid.text_inj_of_width width]
    exact ⟨Iff.rfl, Iff.rfl⟩
  · intro width
    exact ⟨Content.filter_structures_serviceData _ description name width,
      Content.serviceDataOf_ascending description width⟩

/-- Three UUIDs of 16 bits, the greatest of them added first and with the least low
    octet, and one UUID of 32 bits between them. -/
def shuffled : Description := Description.build
  [.addServiceData (Uuid.ofUInt16 0x0200) [1], .addServiceData (Uuid.ofUInt32 0x7) [2],
    .addServiceData (Uuid.ofUInt16 0x01FF) [3], .addServiceData (Uuid.ofUInt16 0x00AB) []]

theorem encode_ascending_texts_shuffled :
    Uuid.Stored.low.width = Uuid.Stored.high.width ∧ Uuid.Stored.low.before Uuid.Stored.high ∧
      Uuid.Stored.low.uuid.text < Uuid.Stored.high.uuid.text ∧
      (encode {} shuffled []).octets = [3, 0x16, 0xAB, 0x00, 4, 0x16, 0xFF, 0x01, 3, 4, 0x16, 0x00, 0x02, 1,
        6, 0x20, 0x07, 0, 0, 0, 2] ∧
      (Content.serviceDataOf .bits16 shuffled).map (·.1) =
        [Uuid.ofUInt16 0x00AB, Uuid.ofUInt16 0x01FF, Uuid.ofUInt16 0x0200] ∧
      (Content.serviceDataOf .bits16 shuffled).Pairwise (fun first second => first.1.text < second.1.text) := by
  obtain ⟨alike, -, parts⟩ := encode_ascending_texts {} shuffled []
  have width : Uuid.Stored.low.width = Uuid.Stored.high.width := rfl
  have before : Uuid.Stored.low.before Uuid.Stored.high := by decide
  exact ⟨width, before, (alike _ _ width).1.mp before, by decide, by decide, (parts .bits16).2⟩

end Payload
end BleAdvertising
