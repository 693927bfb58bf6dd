import BleAdvertising.AdvertisingSet
import BleAdvertising.Proofs.PayloadStructures
import BleAdvertising.Proofs.Utf8Characters

/-!
# Device names

Whether a name is included changes the front of a payload alone. A name that is
no well-formed UTF-8 leaves what the description without the name says, and one
line in the log for every description that wanted it (`make_drops_name`). A name
beyond the limit is cut at an octet, and the short name is well-formed where the
cut falls between characters (`encode_clipped`). The octet behind the cut tells
whether it does, and at most three octets at the end of the short name are of a
character that goes on behind it.
-/
namespace BleAdvertising

namespace Payload
open AdStructure

/-- Without its name a description gives everything but the name, for a device
    of any name. -/
theorem encode_unnamed_octets (configuration : Configuration) (description : Description) (other : Octets) :
    (encode configuration (description.edit (.includeName false)) other).octets =
      write (Content.unnamed description) := by
  have left : Content.name? configuration.nameLimit false other = none :=
    name?_eq_none fun both => Bool.false_ne_true both.1
  rw [encode_octets, Content.structures, Content.name]
  simp only [Description.edit, left, Option.toList_none, List.nil_append]
  rfl

theorem write_name (limit : Option Nat) (description : Description) (name : Octets) :
    write (Content.name limit description name) =
      if description.includeName ∧ Utf8.WellFormed name then (nameStructure limit name).octets else [] := by
  rw [Content.name, write_toList]
  by_cases kept : description.includeName ∧ Utf8.WellFormed name
  · rw [name?_eq_some kept, if_pos kept, Option.elim_some]
  · rw [name?_eq_none kept, if_neg kept, Option.elim_none]

theorem encode_octets_eq_name_append (configuration : Configuration) (description : Description)
    (name other : Octets) : (encode configuration description name).octets =
      (if description.includeName ∧ Utf8.WellFormed name then (nameStructure configuration.nameLimit name).octets
        else []) ++
        (encode configuration (description.edit (.includeName false)) other).octets := by
  rw [encode_octets, Content.structures, write_append, write_name, encode_unnamed_octets]

/-- The line on a name that cannot be included. -/
def encodingErrorLine : Octets := Utf8.encode "Can't include name - encoding error!\n".toList

theorem write_nameEncoding : Log.Notice.write .nameEncoding = encodingErrorLine := by decide

theorem writeAll_nameNotices (description : Description) (name : Octets) :
    Log.Notice.writeAll (nameNotices description name) =
      if description.includeName ∧ ¬ Utf8.WellFormed name then encodingErrorLine else [] := by
  rw [nameNotices]
  split <;> simp [Log.Notice.writeAll, write_nameEncoding]

theorem encode_log (configuration : Configuration) (description : Description) (name : Octets) :
    (encode configuration description name).log =
      if description.includeName ∧ ¬ Utf8.WellFormed name then encodingErrorLine else [] := by
  rw [log, encode_notices, writeAll_nameNotices]

end Payload

namespace AdvertisingSet
open Payload

theorem make_log (configuration : Configuration) (settings : Settings) (data : Description)
    (scanResponse : Option Description) (name : Octets) :
    (make configuration settings data scanResponse name).log =
      (data :: scanResponse.toList).flatMap (fun description =>
        if description.includeName ∧ ¬ Utf8.WellFormed name then encodingErrorLine else []) := by
  cases scanResponse with
  | none => simp [make, Made.log, encode_notices, writeAll_nameNotices]
  | some response => simp [make, Made.log, encode_notices, writeAll_nameNotices]

theorem make_set (configuration : Configuration) (settings : Settings) (data : Description)
    (scanResponse : Option Description) (name : Octets) :
    (make configuration settings data scanResponse name).set =
      { settings
        data := (encode configuration data name).octets
        scanResponse := scanResponse.map fun response => (encode configuration response name).octets } := by
  cases scanResponse <;> rfl

theorem make_set_of_illFormed {name : Octets} (illFormed : ¬ Utf8.WellFormed name) (configuration : Configuration)
    (settings : Settings) (data : Description) (scanResponse : Option Description) (other : Octets) :
    (make configuration settings data scanResponse name).set =
      { settings
        data := (encode configuration (data.edit (.includeName false)) other).octets
        scanResponse := scanResponse.map fun response =>
          (encode configuration (response.edit (.includeName false)) other).octets } := by
  have dropped (description : Description) : (encode configuration description name).octets =
      (encode configuration (description.edit (.includeName false)) other).octets := by
    rw [encode_octets_eq_name_append configuration description name other, if_neg (fun both => illFormed both.2),
      List.nil_append]
  rw [make_set]
  simp only [dropped]

/-- A name stands in front of all that its description says without it, or is
    dropped with a line in the log. The payloads of a set for an ill-formed name
    are those of the descriptions without the name, and the log has one line for
    each description that includes it. -/
theorem make_drops_name (configuration : Configuration) (settings : Settings) (data : Description)
    (scanResponse : Option Description) (name other : Octets) :
    (encode configuration data name).octets =
        (if data.includeName ∧ Utf8.WellFormed name then (nameStructure configuration.nameLimit name).octets else []) ++
          (encode configuration (data.edit (.includeName false)) other).octets ∧
      (encode configuration data name).log =
        (if data.includeName ∧ ¬ Utf8.WellFormed name then encodingErrorLine else []) ∧
      (make configuration settings data scanResponse name).log =
        (data :: scanResponse.toList).flatMap (fun description =>
          if description.includeName ∧ ¬ Utf8.WellFormed name then encodingErrorLine else []) ∧
      (¬ Utf8.WellFormed name →
        (make configuration settings data scanResponse name).set =
          { settings
            data := (encode configuration (data.edit (.includeName false)) other).octets
            scanResponse := scanResponse.map fun response =>
              (encode configuration (response.edit (.includeName false)) other).octets }) := by
  refine ⟨?_, ?_, ?_, ?_⟩
  · exact encode_octets_eq_name_append configuration data name other
  · exact encode_log configuration data name
  · exact make_log configuration settings data scanResponse name
  · intro illFormed
    exact make_set_of_illFormed illFormed configuration settings data scanResponse other

/-- The octets beyond a limit of one are ill-formed. -/
def misspelt : Octets := [0x41, 0xC3, 0x28]

def namedBeacon : Description := Description.build [.addManufacturer 0x1234 [7], .includeName true]

def namedResponse : Description := Description.build [.includeName true, .addServiceUuid (Uuid.ofUInt16 0x180D)]

theorem make_drops_misspelt : ¬ Utf8.WellFormed misspelt ∧
    (make { nameMaximum := 1 } {} namedBeacon (some namedResponse) misspelt).log =
      encodingErrorLine ++ encodingErrorLine ∧
    (make { nameMaximum := 1 } {} namedBeacon (some namedResponse) misspelt).set =
      { settings := {}, data := [4, 0xFF, 0x34, 0x12, 7], scanResponse := some [3, 0x03, 0x0D, 0x18] } := by
  have illFormed : ¬ Utf8.WellFormed misspelt := by decide +kernel
  obtain ⟨-, -, logged, dropped⟩ :=
    make_drops_name { nameMaximum := 1 } {} namedBeacon (some namedResponse) misspelt []
  refine ⟨illFormed, ?_, ?_⟩
  · rw [logged]
    have included : namedBeacon.includeName ∧ namedResponse.includeName := by decide
    simp [included, illFormed]
  · rw [dropped illFormed]
    rfl

end AdvertisingSet

/-! ## Names that are clipped -/

namespace Payload

theorem isContinuation_iff_range (octet : UInt8) : Utf8.isContinuation octet ↔ 0x80 ≤ octet ∧ octet ≤ 0xBF := by
  revert octet
  decide +kernel

/-- A well-formed name with more octets than the limit stands in front as a short
    name, the octets within the limit. These and the octets beyond them are both
    well-formed where the first octet beyond is no continuation, and neither are
    where it is one. Without three octets at most the short name is well-formed. -/
theorem encode_clipped {configuration : Configuration} {description : Description} {name : Octets} {most : Nat}
    (included : description.includeName) (accepted : Utf8.wellFormed name)
    (limit : configuration.nameMaximum.toInt = most) (longer : most < name.length) (other : Octets) :
    (encode configuration description name).octets =
        UInt8.ofNat (1 + most) :: 0x08 :: name.take most ++
          (encode configuration (description.edit (.includeName false)) other).octets ∧
      (Utf8.wellFormed (name.take most) ↔ ¬ (0x80 ≤ name[most] ∧ name[most] ≤ 0xBF)) ∧
      (Utf8.wellFormed (name.drop most) ↔ ¬ (0x80 ≤ name[most] ∧ name[most] ≤ 0xBF)) ∧
      ∃ torn ≤ 3, torn ≤ most ∧ Utf8.wellFormed (name.take (most - torn)) := by
  simp only [Utf8.wellFormed_iff, ← isContinuation_iff_range] at accepted ⊢
  have parts : name = name.take most ++ name[most] :: name.drop (most + 1) := by
    rw [← List.drop_eq_getElem_cons longer, List.take_append_drop]
  have sized : (name.take most).length = most := List.length_take_of_le (Nat.le_of_lt longer)
  have whole := parts ▸ accepted
  refine ⟨?_, ?_, ?_, ?_⟩
  · have kind : nameStructure (some most) name = ⟨.nameShort, name.take most⟩ := if_pos longer
    rw [encode_octets_eq_name_append configuration description name other, if_pos ⟨included, accepted⟩,
      Configuration.nameLimit_of_toInt limit, kind, AdStructure.octets, sized]
    rfl
  · exact whole.cut_iff.1
  · rw [List.drop_eq_getElem_cons longer]
    exact whole.cut_iff.2
  · obtain ⟨kept, torn, cut, wellKept, short, -⟩ := whole.tear
    have counted : kept.length + torn.length = most := by
      rw [← List.length_append, ← cut, sized]
    refine ⟨torn.length, short, by omega, ?_⟩
    have front : name.take (most - torn.length) = kept := by
      have inside : most - torn.length ≤ most := Nat.sub_le most torn.length
      have rest : most - torn.length = kept.length := by omega
      rw [← Nat.min_eq_left inside, ← List.take_take, cut, rest, List.take_left]
    rw [front]
    exact wellKept

/-- A character of one octet, one of four octets, and one of one octet. -/
def smiling : Octets := [0x41, 0xF0, 0x9F, 0x98, 0x80, 0x42]

theorem encode_clipped_smiling : Utf8.wellFormed smiling ∧ 4 < smiling.length ∧
    (encode { nameMaximum := 4 } { includeName := true, includeTxPower := true } smiling).octets =
      [5, 0x08, 0x41, 0xF0, 0x9F, 0x98, 2, 0x0A, 0] ∧
    ¬ Utf8.wellFormed (smiling.take 4) ∧ ¬ Utf8.wellFormed (smiling.drop 4) ∧
    ∃ torn ≤ 3, torn ≤ 4 ∧ Utf8.wellFormed (smiling.take (4 - torn)) := by
  have accepted : Utf8.wellFormed smiling := by decide +kernel
  obtain ⟨octets, front, back, short⟩ := @encode_clipped { nameMaximum := 4 }
    { includeName := true, includeTxPower := true } smiling 4 rfl accepted rfl (by decide) []
  have continued : (0x80 : UInt8) ≤ smiling[4] ∧ smiling[4] ≤ (0xBF : UInt8) := by decide
  refine ⟨accepted, by decide, ?_, ?_, ?_, short⟩
  · rw [octets]
    rfl
  · rw [front]
    exact not_not_intro continued
  · rw [back]
    exact not_not_intro continued

end Payload
end BleAdvertising
