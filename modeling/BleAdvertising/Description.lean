import BleAdvertising.Uuid

/-!
# Descriptions

What a payload is to say, apart from how it is laid out: whether the device name
and the transmit power belong to it, manufacturer data and service UUIDs in the
order they were added, and service data by UUID. A description comes about by
edits of the empty one. Service data has at most one payload for every UUID, in
ascending order of the UUIDs; a payload for a UUID that has one already takes its
place.
-/
namespace BleAdvertising

/-! ## Service data -/

structure ServiceData where
  entries : List (Uuid × Octets) := []
  ascending : entries.Pairwise (fun a b => a.1 < b.1) := by exact .nil
  deriving DecidableEq

namespace ServiceData

theorem ext {a b : ServiceData} (entries : a.entries = b.entries) : a = b := by
  cases a; cases b; simp_all

/-- An entry put in its place among ascending entries; an entry of the same UUID
    makes way. -/
def insertEntry (uuid : Uuid) (payload : Octets) : List (Uuid × Octets) → List (Uuid × Octets)
  | [] => [(uuid, payload)]
  | head :: rest =>
    if uuid < head.1 then (uuid, payload) :: head :: rest
    else if head.1 < uuid then head :: insertEntry uuid payload rest
    else (uuid, payload) :: rest

theorem mem_insertEntry {uuid : Uuid} {payload : Octets} {entries : List (Uuid × Octets)} {entry : Uuid × Octets}
    (member : entry ∈ insertEntry uuid payload entries) : entry = (uuid, payload) ∨ entry ∈ entries := by
  induction entries with
  | nil => simpa [insertEntry] using member
  | cons head rest ih =>
    rw [insertEntry] at member
    split at member
    · simpa using member
    · split at member
      · rcases List.mem_cons.mp member with first | later
        · exact .inr (first ▸ List.mem_cons_self)
        · rcases ih later with new | old
          · exact .inl new
          · exact .inr (List.mem_cons_of_mem _ old)
      · rcases List.mem_cons.mp member with new | old
        · exact .inl new
        · exact .inr (List.mem_cons_of_mem _ old)

theorem insertEntry_ascending (uuid : Uuid) (payload : Octets) {entries : List (Uuid × Octets)}
    (ascending : entries.Pairwise (fun a b => a.1 < b.1)) :
    (insertEntry uuid payload entries).Pairwise (fun a b => a.1 < b.1) := by
  induction entries with
  | nil => simp [insertEntry]
  | cons head rest ih =>
    obtain ⟨least, tail⟩ := List.pairwise_cons.mp ascending
    rw [insertEntry]
    split
    · rename_i before
      refine List.pairwise_cons.mpr ⟨?_, ascending⟩
      intro entry member
      rcases List.mem_cons.mp member with first | later
      · exact first ▸ before
      · exact Uuid.lt_trans before (least entry later)
    · split
      · rename_i after
        refine List.pairwise_cons.mpr ⟨?_, ih tail⟩
        intro entry member
        rcases mem_insertEntry member with new | old
        · exact new ▸ after
        · exact least entry old
      · rename_i notBefore notAfter
        have same := Uuid.eq_of_not_lt notBefore notAfter
        refine List.pairwise_cons.mpr ⟨?_, tail⟩
        intro entry member
        exact same ▸ least entry member

/-- Service data with a payload for a UUID, in place of an earlier one. -/
def insert (data : ServiceData) (uuid : Uuid) (payload : Octets) : ServiceData where
  entries := insertEntry uuid payload data.entries
  ascending := insertEntry_ascending uuid payload data.ascending

def get? (data : ServiceData) (uuid : Uuid) : Option Octets :=
  (data.entries.find? (fun entry => entry.1 = uuid)).map (·.2)

@[simp] theorem get?_insert_same (data : ServiceData) (uuid : Uuid) (payload : Octets) :
    (data.insert uuid payload).get? uuid = some payload := by
  simp only [get?, insert]
  generalize data.entries = entries
  induction entries with
  | nil => simp [insertEntry]
  | cons head rest ih =>
    rw [insertEntry]
    split
    · simp
    · split
      · rename_i after
        have different : head.1 ≠ uuid := by rintro rfl; exact Uuid.lt_irrefl _ after
        simpa [different] using ih
      · simp

/-- A payload for one UUID leaves every other one as it is. -/
@[simp] theorem get?_insert_other (data : ServiceData) {uuid other : Uuid} (different : other ≠ uuid)
    (payload : Octets) : (data.insert uuid payload).get? other = data.get? other := by
  simp only [get?, insert]
  generalize data.entries = entries
  induction entries with
  | nil => simp [insertEntry, Ne.symm different]
  | cons head rest ih =>
    rw [insertEntry]
    split
    · simp [Ne.symm different]
    · split
      · by_cases found : head.1 = other
        · simp [found]
        · simpa [found] using ih
      · rename_i notBefore notAfter
        have same := Uuid.eq_of_not_lt notBefore notAfter
        simp [Ne.symm different, same ▸ Ne.symm different]

end ServiceData

/-- Each of some UUIDs once, in ascending order. -/
def Uuid.ascending (uuids : List Uuid) : List Uuid :=
  (uuids.foldl (fun entries uuid => ServiceData.insertEntry uuid [] entries) []).map (·.1)

/-! ## Content and its changes -/

structure ManufacturerEntry where
  company : UInt16
  payload : Octets
  deriving DecidableEq, Repr

/-- The content of one payload. -/
structure Description where
  includeName : Bool := false
  includeTxPower : Bool := false
  manufacturer : List ManufacturerEntry := []
  serviceUuids : List Uuid := []
  serviceData : ServiceData := {}
  deriving DecidableEq

instance : Inhabited Description := ⟨{}⟩

namespace Description

/-- One change of a description. UUIDs may be named in any way `U` that leads to
    a UUID later. -/
inductive Edit (U : Type) where
  | includeName (included : Bool)
  | includeTxPower (included : Bool)
  | addManufacturer (company : UInt16) (payload : Octets)
  | addServiceUuid (uuid : U)
  | addServiceData (uuid : U) (payload : Octets)
  deriving DecidableEq, Repr

/-- The same change with its UUID named in another way. -/
def Edit.map {U V : Type} (name : U → V) : Edit U → Edit V
  | includeName included => .includeName included
  | includeTxPower included => .includeTxPower included
  | addManufacturer company payload => .addManufacturer company payload
  | addServiceUuid uuid => .addServiceUuid (name uuid)
  | addServiceData uuid payload => .addServiceData (name uuid) payload

/-- The description after one change. Manufacturer data and service UUIDs are
    kept however often they are added. -/
def edit (description : Description) : Edit Uuid → Description
  | .includeName included => { description with includeName := included }
  | .includeTxPower included => { description with includeTxPower := included }
  | .addManufacturer company payload =>
    { description with manufacturer := description.manufacturer ++ [{ company, payload }] }
  | .addServiceUuid uuid => { description with serviceUuids := description.serviceUuids ++ [uuid] }
  | .addServiceData uuid payload => { description with serviceData := description.serviceData.insert uuid payload }

def edits (description : Description) (changes : List (Edit Uuid)) : Description := changes.foldl edit description

/-- The description that changes of the empty one give. -/
def build (changes : List (Edit Uuid)) : Description := edits {} changes

end Description
end BleAdvertising
