import BleAdvertising.Proofs.PayloadStructures

/-!
# Payloads are read back

A walk over structures that fit finds each of them again, whatever their values
look like, and it gives structures that fit, only where their octets are the whole
payload (`walk?_eq_some_iff`). So a walk over a payload gives the structures of its
description (`walk?_encode`). The structures of a sequence of appends are read
back exactly where all of them fit (`walk?_applyAll`): a length octet taken modulo
256 never leads back to the structure it was written for, whatever the octets of
its value are taken for instead.
-/
namespace BleAdvertising

namespace AdStructure

/-- After every structure that fits the walk stands at the next one. -/
theorem walk?_write {entries : List AdStructure} (fits : ∀ entry ∈ entries, entry.Fits) :
    walk? (write entries) = some entries := by
  induction entries with
  | nil => simp [walk?]
  | cons entry rest ih =>
    have first : entry.Fits := fits entry List.mem_cons_self
    have later : ∀ other ∈ rest, other.Fits := fun other member => fits other (List.mem_cons_of_mem _ member)
    simp [walk?_octets_append first, ih later]

theorem write_injective {first second : List AdStructure} (firstFits : ∀ entry ∈ first, entry.Fits)
    (secondFits : ∀ entry ∈ second, entry.Fits) (same : write first = write second) : first = second := by
  have walked := congrArg walk? same
  rw [walk?_write firstFits, walk?_write secondFits] at walked
  exact Option.some.inj walked

/-! ## What a walk can give -/

/-- The length octet of a structure is the number of the octets that were taken
    for it, so there are at most 255 of them. -/
theorem fits_and_write_of_walk? {payload : Octets} {entries : List AdStructure}
    (walked : walk? payload = some entries) : (∀ entry ∈ entries, entry.Fits) ∧ write entries = payload := by
  induction payload using walk?.induct generalizing entries with
  | case1 =>
    rw [walk?, Option.some.injEq] at walked
    subst walked
    exact ⟨by simp, rfl⟩
  | case2 octet =>
    rw [walk?] at walked
    cases walked
  | case3 kind rest =>
    rw [walk?, if_pos rfl] at walked
    cases walked
  | case4 length kind rest positive missing =>
    rw [walk?, if_neg positive, if_pos missing] at walked
    cases walked
  | case5 length kind rest positive enough ih =>
    rw [walk?, if_neg positive, if_neg enough] at walked
    obtain ⟨later, walkedLater, rfl⟩ := Option.map_eq_some_iff.mp walked
    obtain ⟨laterFits, laterOctets⟩ := ih walkedLater
    have bounded := length.toNat_lt
    have counted : 1 + (rest.take (length.toNat - 1)).length = length.toNat := by
      have nonzero : length.toNat ≠ 0 := fun zero => positive (UInt8.toNat_inj.mp zero)
      rw [List.length_take]
      omega
    constructor
    · intro entry member
      rcases List.mem_cons.mp member with rfl | member
      · simp only [Fits, counted]
        omega
      · exact laterFits entry member
    · rw [write_cons, laterOctets, octets, counted, UInt8.ofNat_toNat, List.cons_append, List.cons_append,
        List.take_append_drop]

/-- Exactly the structures that fit and fill the payload are read. -/
theorem walk?_eq_some_iff {payload : Octets} {entries : List AdStructure} :
    walk? payload = some entries ↔ (∀ entry ∈ entries, entry.Fits) ∧ write entries = payload := by
  constructor
  · exact fits_and_write_of_walk?
  · rintro ⟨fits, rfl⟩
    exact walk?_write fits

/-! ## Sequences of appends -/

/-- A structure to put behind a payload. Its value comes as a whole, or in two
    parts where there is a leading part, which may be empty. -/
structure Addition where
  kind : DataType
  leading : Option Octets
  trailing : Octets
  deriving DecidableEq, Repr

namespace Addition

def value (addition : Addition) : Octets := addition.leading.getD [] ++ addition.trailing

def entry (addition : Addition) : AdStructure := ⟨addition.kind, addition.value⟩

/-- The payload after the addition. -/
def apply (payload : Octets) (addition : Addition) : Octets :=
  match addition.leading with
  | some leading => appendParts payload addition.kind leading addition.trailing
  | none => append payload addition.kind addition.trailing

def applyAll (payload : Octets) (additions : List Addition) : Octets := additions.foldl apply payload

/-- The parts of a value and the way they are given leave no trace. -/
theorem apply_eq (payload : Octets) (addition : Addition) :
    addition.apply payload = payload ++ addition.entry.octets := by
  obtain ⟨kind, leading, trailing⟩ := addition
  cases leading with
  | some leading => exact appendParts_eq payload kind leading trailing
  | none => exact append_eq payload kind trailing

theorem applyAll_eq (payload : Octets) (additions : List Addition) :
    applyAll payload additions = payload ++ write (additions.map entry) := by
  rw [applyAll, List.map_eq_flatMap]
  apply foldl_eq_append_write
  intro payload addition
  simp [apply_eq]

/-- The structures of a sequence of additions are read back, all of them and in
    order, exactly where no value is too long for its length octet. Of any size,
    an addition keeps the octets that are there, and what it puts behind them
    depends on its data type and its value as a whole. -/
theorem walk?_applyAll (additions : List Addition) :
    (walk? (applyAll [] additions) = some (additions.map entry) ↔
      ∀ addition ∈ additions, 1 + (addition.leading.getD []).length + addition.trailing.length ≤ 255) ∧
    (∀ (payload : Octets) (addition : Addition), addition.apply payload =
      payload ++ UInt8.ofNat ((1 + addition.value.length) % 256) :: addition.kind.code :: addition.value) := by
  constructor
  · have sizes (addition : Addition) : addition.entry.Fits ↔
        1 + (addition.leading.getD []).length + addition.trailing.length ≤ 255 := by
      rw [Fits, entry, value, List.length_append, Nat.add_assoc]
    rw [applyAll_eq, List.nil_append, walk?_eq_some_iff, List.forall_mem_map]
    simp only [sizes, and_true]
  · intro payload addition
    have counted : UInt8.ofNat ((1 + addition.value.length) % 256) = UInt8.ofNat (1 + addition.value.length) :=
      UInt8.ofNat_mod_size
    rw [apply_eq, counted, octets, entry]

/-- A value of 256 octets under a length octet of one can look like well-formed
    structures throughout, and gives none of its own. -/
example : walk? (applyAll [] [⟨.manufacturerData, some [1], 2 :: (List.replicate 127 [1, 2]).flatten⟩]) =
    some (⟨.manufacturerData, []⟩ :: List.replicate 128 ⟨⟨2⟩, []⟩) := by
  decide +kernel

end Addition

end AdStructure

namespace Payload
open AdStructure

/-- Where every structure fits, a walk over the payload meets no zero length and
    no missing octet, ends with the payload, and gives the structures that the
    description calls for. -/
theorem walk?_encode (configuration : Configuration) (description : Description) (name : Octets)
    (fits : ∀ entry ∈ Content.structures configuration.nameLimit description name, entry.Fits) :
    AdStructure.walk? (encode configuration description name).octets =
      some (Content.structures configuration.nameLimit description name) := by
  rw [encode_octets]
  exact AdStructure.walk?_write fits

/-- A UUID of 128 bits, with the base UUID in no part of it. -/
def wide : Uuid := Uuid.of128 [0xF0, 0xE1, 0xD2, 0xC3, 0xB4, 0xA5, 0x96, 0x87, 8, 9, 10, 11, 12, 13, 14, 15] rfl

/-- Every part is there for every width, and the manufacturer data, given twice,
    looks like a transmit power structure. -/
def crowded : Description := Description.build
  [.includeName true, .includeTxPower true, .addServiceUuid (Uuid.ofUInt32 0x12345), .addManufacturer 0x1234 [2, 10, 0],
    .addServiceUuid wide, .addServiceUuid (Uuid.ofUInt16 0x180D), .addManufacturer 0x1234 [2, 10, 0],
    .addServiceUuid (Uuid.ofUInt32 7), .addServiceData wide [1], .addServiceData (Uuid.ofUInt32 9) [],
    .addServiceData (Uuid.ofUInt16 0x180F) [100]]

/-- All structures but that of the name. -/
def crowdedStructures : List AdStructure :=
  [⟨⟨0xFF⟩, [0x34, 0x12, 2, 10, 0]⟩, ⟨⟨0xFF⟩, [0x34, 0x12, 2, 10, 0]⟩, ⟨⟨0x0A⟩, [0]⟩, ⟨⟨0x03⟩, [0x0D, 0x18]⟩,
    ⟨⟨0x05⟩, [0x45, 0x23, 0x01, 0, 7, 0, 0, 0]⟩,
    ⟨⟨0x07⟩, [0xF0, 0xE1, 0xD2, 0xC3, 0xB4, 0xA5, 0x96, 0x87, 8, 9, 10, 11, 12, 13, 14, 15]⟩,
    ⟨⟨0x16⟩, [0x0F, 0x18, 100]⟩, ⟨⟨0x20⟩, [9, 0, 0, 0]⟩,
    ⟨⟨0x21⟩, [0xF0, 0xE1, 0xD2, 0xC3, 0xB4, 0xA5, 0x96, 0x87, 8, 9, 10, 11, 12, 13, 14, 15, 1]⟩]

def crowdedOctets : Octets :=
  [6, 0xFF, 0x34, 0x12, 2, 10, 0, 6, 0xFF, 0x34, 0x12, 2, 10, 0, 2, 0x0A, 0, 3, 0x03, 0x0D, 0x18,
    9, 0x05, 0x45, 0x23, 0x01, 0, 7, 0, 0, 0,
    17, 0x07, 0xF0, 0xE1, 0xD2, 0xC3, 0xB4, 0xA5, 0x96, 0x87, 8, 9, 10, 11, 12, 13, 14, 15,
    4, 0x16, 0x0F, 0x18, 100, 5, 0x20, 9, 0, 0, 0,
    18, 0x21, 0xF0, 0xE1, 0xD2, 0xC3, 0xB4, 0xA5, 0x96, 0x87, 8, 9, 10, 11, 12, 13, 14, 15, 1]

theorem structures_crowded (limit : Option Nat) : Content.structures limit crowded (Utf8.encode ['A', 'é']) =
    nameStructure limit (Utf8.encode ['A', 'é']) :: crowdedStructures := by
  have unnamed : Content.unnamed crowded = crowdedStructures := by decide
  rw [Content.structures, Content.name, name?_eq_some ⟨by decide, ['A', 'é'], rfl⟩, unnamed]
  rfl

/-- Under a limit that splits the second character of the name, and under a
    negative one, with which the name is complete. -/
theorem walk?_encode_crowded :
    (∀ entry ∈ Content.structures (some 2) crowded (Utf8.encode ['A', 'é']), entry.Fits) ∧
      AdStructure.walk? (encode { nameMaximum := 2 } crowded (Utf8.encode ['A', 'é'])).octets =
        some (⟨⟨0x08⟩, [0x41, 0xC3]⟩ :: crowdedStructures) ∧
      (encode { nameMaximum := 2 } crowded (Utf8.encode ['A', 'é'])).octets =
        [3, 0x08, 0x41, 0xC3] ++ crowdedOctets ∧
      (∀ entry ∈ Content.structures none crowded (Utf8.encode ['A', 'é']), entry.Fits) ∧
      AdStructure.walk? (encode { nameMaximum := -1 } crowded (Utf8.encode ['A', 'é'])).octets =
        some (⟨⟨0x09⟩, [0x41, 0xC3, 0xA9]⟩ :: crowdedStructures) ∧
      (encode { nameMaximum := -1 } crowded (Utf8.encode ['A', 'é'])).octets =
        [4, 0x09, 0x41, 0xC3, 0xA9] ++ crowdedOctets := by
  have clipped : ∀ entry ∈ Content.structures (some 2) crowded (Utf8.encode ['A', 'é']), entry.Fits := by
    rw [structures_crowded]
    decide
  have complete : ∀ entry ∈ Content.structures none crowded (Utf8.encode ['A', 'é']), entry.Fits := by
    rw [structures_crowded]
    decide
  have walked := walk?_encode { nameMaximum := 2 } crowded (Utf8.encode ['A', 'é']) clipped
  have walked' := walk?_encode { nameMaximum := -1 } crowded (Utf8.encode ['A', 'é']) complete
  refine ⟨clipped, walked.trans ?_, ?_, complete, walked'.trans ?_, ?_⟩
  · exact congrArg some (structures_crowded (some 2))
  · rw [encode_octets]
    exact congrArg write (structures_crowded (some 2))
  · exact congrArg some (structures_crowded none)
  · rw [encode_octets]
    exact congrArg write (structures_crowded none)

end Payload
end BleAdvertising
