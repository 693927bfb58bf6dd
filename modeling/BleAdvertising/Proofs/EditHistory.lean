import BleAdvertising.Proofs.PayloadStructures
import Mathlib.Data.List.Sort

/-!
# Descriptions by their histories

What a sequence of changes says is read off the sequence part by part: the last
value of each flag, the manufacturer data in order, the service UUIDs of each
width in order, and the last payload for each UUID. One change adds to each part
of a description what it says there, so the parts of a description are those of
its history, and sequences that say the same have the same payload
(`encode_build`). Entries of service data are in the order of their UUIDs, so
service data is known from what is found for each UUID, in whatever order it came
about (`ext_get?`). The same goes for UUIDs alone: in ascending order each of them
is there once (`mem_ascending`).
-/
namespace BleAdvertising.ServiceData

/-! ## Service data by its lookups -/

def EntryBefore (a b : Uuid × Octets) : Prop := a.1 < b.1

instance : Std.Irrefl EntryBefore := ⟨fun entry => Uuid.lt_irrefl entry.1⟩

instance : Std.Antisymm EntryBefore :=
  ⟨fun a _ before after => absurd (Uuid.lt_trans before after) (Uuid.lt_irrefl a.1)⟩

/-- Exactly the entries are found. -/
theorem get?_eq_some_iff (data : ServiceData) (uuid : Uuid) (payload : Octets) :
    data.get? uuid = some payload ↔ (uuid, payload) ∈ data.entries := by
  obtain ⟨entries, ascending⟩ := data
  simp only [get?]
  induction entries with
  | nil => simp
  | cons head rest ih =>
    obtain ⟨least, tail⟩ := List.pairwise_cons.mp ascending
    by_cases found : head.1 = uuid
    · rw [List.find?_cons_of_pos (by simpa using found), Option.map_some, Option.some.injEq, List.mem_cons]
      constructor
      · rintro rfl
        exact .inl (by rw [← found])
      · rintro (here | later)
        · rw [← here]
        · exact absurd (least _ later) (found ▸ Uuid.lt_irrefl head.1)
    · rw [List.find?_cons_of_neg (by simpa using found), ih tail, List.mem_cons]
      constructor
      · exact .inr
      · rintro (here | later)
        · exact absurd (congrArg Prod.fst here.symm) found
        · exact later

/-- Service data with the same lookups is the same. -/
theorem ext_get? {a b : ServiceData} (same : ∀ uuid, a.get? uuid = b.get? uuid) : a = b := by
  apply ext
  apply List.Pairwise.eq_of_mem_iff (r := EntryBefore) a.ascending b.ascending
  rintro ⟨uuid, payload⟩
  rw [← get?_eq_some_iff, ← get?_eq_some_iff, same]

theorem get?_insert (data : ServiceData) (uuid other : Uuid) (payload : Octets) :
    (data.insert uuid payload).get? other = if other = uuid then some payload else data.get? other := by
  by_cases same : other = uuid <;> simp [same]

theorem entries_foldl_insert (data : ServiceData) (uuids : List Uuid) (payload : Octets) :
    (uuids.foldl (fun data uuid => data.insert uuid payload) data).entries =
      uuids.foldl (fun entries uuid => insertEntry uuid payload entries) data.entries :=
  (List.foldl_hom entries fun _ _ => rfl).symm

theorem get?_foldl_insert (data : ServiceData) (uuids : List Uuid) (uuid : Uuid) (payload : Octets) :
    (uuids.foldl (fun data uuid => data.insert uuid payload) data).get? uuid =
      if uuid ∈ uuids then some payload else data.get? uuid := by
  induction uuids generalizing data with
  | nil => simp
  | cons first rest ih =>
    rw [List.foldl_cons, ih, get?_insert]
    by_cases later : uuid ∈ rest <;> simp [later]

end BleAdvertising.ServiceData

namespace BleAdvertising.Uuid

/-! ## UUIDs in ascending order -/

/-- The entries are those of service data with an empty payload for each UUID. -/
theorem ascending_eq (uuids : List Uuid) : ascending uuids =
    (uuids.foldl (fun data uuid => data.insert uuid []) ({} : ServiceData)).entries.map (·.1) := by
  rw [ServiceData.entries_foldl_insert]
  rfl

theorem ascending_pairwise (uuids : List Uuid) : (ascending uuids).Pairwise (· < ·) := by
  rw [ascending_eq]
  exact List.pairwise_map.mpr (ServiceData.ascending _)

/-- No UUID is lost and none comes in. -/
theorem mem_ascending (uuids : List Uuid) (uuid : Uuid) : uuid ∈ ascending uuids ↔ uuid ∈ uuids := by
  have found := ServiceData.get?_foldl_insert {} uuids uuid []
  have empty : ({} : ServiceData).get? uuid = none := rfl
  simp only [ascending_eq, List.mem_map, Prod.exists, exists_and_right, exists_eq_right,
    ← ServiceData.get?_eq_some_iff, found, empty]
  by_cases member : uuid ∈ uuids <;> simp [member]

end BleAdvertising.Uuid

namespace BleAdvertising.Description

/-! ## What changes say -/

namespace Edit

def includeName? : Edit Uuid → Option Bool
  | includeName included => some included
  | _ => none

def includeTxPower? : Edit Uuid → Option Bool
  | includeTxPower included => some included
  | _ => none

def manufacturer? : Edit Uuid → Option ManufacturerEntry
  | addManufacturer company payload => some { company, payload }
  | _ => none

def serviceUuid? (width : Width) : Edit Uuid → Option Uuid
  | addServiceUuid uuid => if uuid.width = width then some uuid else none
  | _ => none

def serviceData? (uuid : Uuid) : Edit Uuid → Option Octets
  | addServiceData other payload => if uuid = other then some payload else none
  | _ => none

end Edit

/-- Both sequences end with the same flags, add the same manufacturer data and,
    width by width, the same service UUIDs, each in the same order, and leave the
    same payload, or none, for every UUID. -/
structure SaySame (first second : List (Edit Uuid)) : Prop where
  includeName : (first.filterMap Edit.includeName?).getLast?.getD false =
    (second.filterMap Edit.includeName?).getLast?.getD false
  includeTxPower : (first.filterMap Edit.includeTxPower?).getLast?.getD false =
    (second.filterMap Edit.includeTxPower?).getLast?.getD false
  manufacturer : first.filterMap Edit.manufacturer? = second.filterMap Edit.manufacturer?
  serviceUuids : ∀ width, first.filterMap (Edit.serviceUuid? width) = second.filterMap (Edit.serviceUuid? width)
  serviceData : ∀ uuid, (first.filterMap (Edit.serviceData? uuid)).getLast? =
    (second.filterMap (Edit.serviceData? uuid)).getLast?

/-! ## One change -/

variable (description : Description) (change : Edit Uuid)

theorem includeName_edit :
    (description.edit change).includeName = change.includeName?.getD description.includeName := by
  cases change <;> rfl

theorem includeTxPower_edit :
    (description.edit change).includeTxPower = change.includeTxPower?.getD description.includeTxPower := by
  cases change <;> rfl

theorem manufacturer_edit :
    (description.edit change).manufacturer = description.manufacturer ++ change.manufacturer?.toList := by
  cases change <;> simp [edit, Edit.manufacturer?]

theorem uuidsOf_edit (width : Width) : Content.uuidsOf width (description.edit change) =
    Content.uuidsOf width description ++ (change.serviceUuid? width).toList := by
  cases change with
  | addServiceUuid uuid =>
    by_cases same : uuid.width = width <;> simp [Content.uuidsOf, edit, Edit.serviceUuid?, same]
  | _ => simp [Content.uuidsOf, edit, Edit.serviceUuid?]

theorem get?_edit (uuid : Uuid) : (description.edit change).serviceData.get? uuid =
    (change.serviceData? uuid).or (description.serviceData.get? uuid) := by
  cases change with
  | addServiceData other payload =>
    rw [edit, Edit.serviceData?, ServiceData.get?_insert]
    split <;> simp
  | _ => simp [edit, Edit.serviceData?]

/-! ## Many changes -/

section
variable {State Item Value : Type} (step : State → Item → State) (write : Item → Option Value)

/-- What each step may overwrite is in the end what was written last. -/
theorem foldl_last (read : State → Option Value)
    (one : ∀ state item, read (step state item) = (write item).or (read state)) (state : State) (items : List Item) :
    read (items.foldl step state) = (items.filterMap write).getLast?.or (read state) := by
  induction items generalizing state with
  | nil => rfl
  | cons item items ih =>
    rw [List.foldl_cons, ih, one, List.filterMap_cons]
    cases write item with
    | none => rfl
    | some value =>
      rw [List.getLast?_cons, Option.some_or, Option.some_or]
      cases (items.filterMap write).getLast? <;> rfl

theorem foldl_last_getD (read : State → Value)
    (one : ∀ state item, read (step state item) = (write item).getD (read state)) (state : State) (items : List Item) :
    read (items.foldl step state) = (items.filterMap write).getLast?.getD (read state) := by
  have present (state : State) (item : Item) : some (read (step state item)) = (write item).or (some (read state)) := by
    rw [one, Option.or_some]
  have last := foldl_last step write (fun state => some (read state)) present state items
  rw [Option.or_some] at last
  exact Option.some.inj last

/-- What each step may add to is in the end what was added, in order. -/
theorem foldl_added (read : State → List Value)
    (one : ∀ state item, read (step state item) = read state ++ (write item).toList) (state : State)
    (items : List Item) : read (items.foldl step state) = read state ++ items.filterMap write := by
  induction items generalizing state with
  | nil => simp
  | cons item items ih =>
    rw [List.foldl_cons, ih, one, List.filterMap_cons, List.append_assoc]
    cases write item <;> rfl

end

variable (changes : List (Edit Uuid))

theorem includeName_edits : (description.edits changes).includeName =
    (changes.filterMap Edit.includeName?).getLast?.getD description.includeName :=
  foldl_last_getD edit Edit.includeName? Description.includeName includeName_edit description changes

theorem includeTxPower_edits : (description.edits changes).includeTxPower =
    (changes.filterMap Edit.includeTxPower?).getLast?.getD description.includeTxPower :=
  foldl_last_getD edit Edit.includeTxPower? Description.includeTxPower includeTxPower_edit description changes

theorem manufacturer_edits : (description.edits changes).manufacturer =
    description.manufacturer ++ changes.filterMap Edit.manufacturer? :=
  foldl_added edit Edit.manufacturer? Description.manufacturer manufacturer_edit description changes

theorem uuidsOf_edits (width : Width) : Content.uuidsOf width (description.edits changes) =
    Content.uuidsOf width description ++ changes.filterMap (Edit.serviceUuid? width) :=
  foldl_added edit (Edit.serviceUuid? width) (Content.uuidsOf width)
    (fun description change => uuidsOf_edit description change width) description changes

theorem get?_edits (uuid : Uuid) : (description.edits changes).serviceData.get? uuid =
    (changes.filterMap (Edit.serviceData? uuid)).getLast?.or (description.serviceData.get? uuid) :=
  foldl_last edit (Edit.serviceData? uuid) (fun description => description.serviceData.get? uuid)
    (fun description change => get?_edit description change uuid) description changes

end BleAdvertising.Description

namespace BleAdvertising.Content

theorem structures_congr {first second : Description} (includeName : first.includeName = second.includeName)
    (includeTxPower : first.includeTxPower = second.includeTxPower)
    (sameManufacturer : first.manufacturer = second.manufacturer)
    (sameUuids : ∀ width, uuidsOf width first = uuidsOf width second)
    (sameData : first.serviceData = second.serviceData) (limit : Option Nat) (deviceName : Octets) :
    structures limit first deviceName = structures limit second deviceName := by
  simp only [structures, unnamed, name, manufacturer, txPower, serviceUuids, uuidLists, serviceData, includeName,
    includeTxPower, sameManufacturer, sameUuids, sameData]

end BleAdvertising.Content

namespace BleAdvertising.Payload
open Description

/-- Changes that say the same of the empty description give the same payload,
    whatever else they say on the way and in whatever order. -/
theorem encode_build {first second : List (Edit Uuid)} (same : SaySame first second) (configuration : Configuration)
    (name : Octets) : encode configuration (build first) name = encode configuration (build second) name := by
  have includeName : (build first).includeName = (build second).includeName := by
    rw [build, build, includeName_edits, includeName_edits]
    exact same.includeName
  have includeTxPower : (build first).includeTxPower = (build second).includeTxPower := by
    rw [build, build, includeTxPower_edits, includeTxPower_edits]
    exact same.includeTxPower
  have manufacturer : (build first).manufacturer = (build second).manufacturer := by
    rw [build, build, manufacturer_edits, manufacturer_edits, same.manufacturer]
  have uuids (width : Width) : Content.uuidsOf width (build first) = Content.uuidsOf width (build second) := by
    rw [build, build, uuidsOf_edits, uuidsOf_edits, same.serviceUuids]
  -- Entries are compared by lookups, since their order does not follow the changes.
  have data : (build first).serviceData = (build second).serviceData := by
    apply ServiceData.ext_get?
    intro uuid
    rw [build, build, get?_edits, get?_edits, same.serviceData]
  have structures := Content.structures_congr includeName includeTxPower manufacturer uuids data
    configuration.nameLimit name
  rw [encode_eq, encode_eq, structures, nameNotices, nameNotices, includeName]

/-- Service data and a flag are set more than once, and the widths come in turn. -/
def winding : List (Edit Uuid) :=
  [.includeName true, .addServiceData (Uuid.ofUInt32 1) [9], .addServiceUuid (Uuid.ofUInt16 1),
    .addServiceUuid (Uuid.ofUInt32 1), .addManufacturer 5 [1], .addServiceData (Uuid.ofUInt16 1) [7],
    .addServiceUuid (Uuid.ofUInt16 2), .includeName false, .addManufacturer 5 [2],
    .addServiceData (Uuid.ofUInt32 1) []]

/-- The same in fewer changes and in another order. -/
def straight : List (Edit Uuid) :=
  [.addServiceUuid (Uuid.ofUInt32 1), .addServiceUuid (Uuid.ofUInt16 1), .addServiceUuid (Uuid.ofUInt16 2),
    .addServiceData (Uuid.ofUInt16 1) [7], .addServiceData (Uuid.ofUInt32 1) [], .addManufacturer 5 [1],
    .addManufacturer 5 [2]]

theorem saySame_winding_straight : SaySame winding straight where
  includeName := by decide
  includeTxPower := by decide
  manufacturer := by decide
  serviceUuids := by
    intro width
    cases width <;> decide
  serviceData := by
    intro uuid
    by_cases narrow : uuid = Uuid.ofUInt16 1
    · subst narrow
      decide
    · by_cases wide : uuid = Uuid.ofUInt32 1
      · subst wide
        decide
      · have windingNone : winding.filterMap (Edit.serviceData? uuid) = [] := by
          simp [winding, Edit.serviceData?, narrow, wide]
        have straightNone : straight.filterMap (Edit.serviceData? uuid) = [] := by
          simp [straight, Edit.serviceData?, narrow, wide]
        rw [windingNone, straightNone]

theorem encode_build_winding_straight : SaySame winding straight ∧ build winding ≠ build straight ∧
    encode {} (build winding) [0x41] = encode {} (build straight) [0x41] :=
  ⟨saySame_winding_straight, by decide, encode_build saySame_winding_straight {} [0x41]⟩

end BleAdvertising.Payload
