import BleAdvertising.Proofs.EditHistory
import BleAdvertising.Proofs.UuidOrder

/-!
# What one change of a description does

A change takes effect at one place of a payload: at most one structure stands
there before it, and at most one after it. `Content.effect` says for each change
what these are, and what stands in front of the place and behind it;
`encode_edit` says that this is all that the change does. Service data is in the
order of the UUIDs and has one entry for each UUID that was given data, with the
data given last (`serviceData_build`). A change for one UUID leaves the entries of
the others in their places.
-/
namespace BleAdvertising

/-- The widths on both sides of a width, narrowest first. -/
def Width.narrower (width : Width) : List Width := all.filter (fun other => other.octets < width.octets)

def Width.wider (width : Width) : List Width := all.filter (fun other => width.octets < other.octets)

theorem Width.all_eq (width : Width) : all = width.narrower ++ width :: width.wider := by
  cases width <;> rfl

theorem Width.ne_of_mem_narrower {width other : Width} (member : other ∈ width.narrower) : other ≠ width := by
  rintro rfl
  simp [narrower] at member

theorem Width.ne_of_mem_wider {width other : Width} (member : other ∈ width.wider) : other ≠ width := by
  rintro rfl
  simp [wider] at member

/-! ## The place of an entry of service data -/

namespace ServiceData

variable {uuid : Uuid} {entries : List (Uuid × Octets)}

theorem filter_of_all_after (after : ∀ entry ∈ entries, uuid < entry.1) :
    entries.filter (fun entry => entry.1 < uuid) = [] ∧ entries.filter (fun entry => uuid < entry.1) = entries := by
  constructor
  · rw [List.filter_eq_nil_iff]
    intro entry member
    simpa using Uuid.lt_asymm (after entry member)
  · rw [List.filter_eq_self]
    intro entry member
    simpa using after entry member

theorem filter_of_before {head : Uuid × Octets} {rest : List (Uuid × Octets)} (before : uuid < head.1)
    (least : ∀ entry ∈ rest, head.1 < entry.1) :
    (head :: rest).filter (fun entry => entry.1 < uuid) = [] ∧
      (head :: rest).filter (fun entry => uuid < entry.1) = head :: rest :=
  filter_of_all_after
    (List.forall_mem_cons.mpr ⟨before, fun entry member => Uuid.lt_trans before (least entry member)⟩)

/-- An entry comes to stand between the entries of smaller UUIDs and those of
    greater ones. -/
theorem insertEntry_eq (payload : Octets) (ascending : entries.Pairwise (fun a b => a.1 < b.1)) :
    insertEntry uuid payload entries = entries.filter (fun entry => entry.1 < uuid) ++
      (uuid, payload) :: entries.filter (fun entry => uuid < entry.1) := by
  induction entries with
  | nil => rfl
  | cons head rest ih =>
    obtain ⟨least, tail⟩ := List.pairwise_cons.mp ascending
    rw [insertEntry]
    rcases Uuid.lt_trichotomy uuid head.1 with before | same | after
    · obtain ⟨smaller, greater⟩ := filter_of_before before least
      rw [if_pos before, smaller, greater, List.nil_append]
    · obtain ⟨smaller, greater⟩ := filter_of_all_after (same ▸ least)
      have notBefore : ¬ uuid < head.1 := same ▸ Uuid.lt_irrefl uuid
      have notAfter : ¬ head.1 < uuid := same ▸ Uuid.lt_irrefl uuid
      rw [if_neg notBefore, if_neg notAfter, List.filter_cons_of_neg (by simpa using notAfter),
        List.filter_cons_of_neg (by simpa using notBefore), smaller, greater, List.nil_append]
    · rw [if_neg (Uuid.lt_asymm after), if_pos after, ih tail, List.filter_cons_of_pos (by simpa using after),
        List.filter_cons_of_neg (by simpa using Uuid.lt_asymm after), List.cons_append]

theorem filter_append_filter_of_absent (absent : ∀ entry ∈ entries, entry.1 ≠ uuid)
    (ascending : entries.Pairwise (fun a b => a.1 < b.1)) :
    entries.filter (fun entry => entry.1 < uuid) ++ entries.filter (fun entry => uuid < entry.1) = entries := by
  induction entries with
  | nil => rfl
  | cons head rest ih =>
    obtain ⟨least, tail⟩ := List.pairwise_cons.mp ascending
    obtain ⟨different, absentTail⟩ := List.forall_mem_cons.mp absent
    rcases Uuid.lt_trichotomy uuid head.1 with before | same | after
    · obtain ⟨smaller, greater⟩ := filter_of_before before least
      rw [smaller, greater, List.nil_append]
    · exact absurd same.symm different
    · rw [List.filter_cons_of_pos (by simpa using after), List.filter_cons_of_neg (by simpa using Uuid.lt_asymm after),
        List.cons_append, ih absentTail tail]

theorem insert_of_get? {data : ServiceData} {payload : Octets} (found : data.get? uuid = some payload) :
    data.insert uuid payload = data := by
  apply ext_get?
  intro other
  rw [get?_insert]
  split
  · rename_i same
    rw [same, found]
  · rfl

/-- The entry of a UUID, if there is one, stands between those of smaller UUIDs
    and those of greater ones. -/
theorem entries_eq (data : ServiceData) (uuid : Uuid) :
    data.entries = data.entries.filter (fun entry => entry.1 < uuid) ++
      ((data.get? uuid).map (uuid, ·)).toList ++ data.entries.filter (fun entry => uuid < entry.1) := by
  cases found : data.get? uuid with
  | none =>
    have absent : ∀ entry ∈ data.entries, entry.1 ≠ uuid := by
      rintro ⟨other, payload⟩ member rfl
      rw [(get?_eq_some_iff data other payload).mpr member] at found
      cases found
    simpa using (filter_append_filter_of_absent absent data.ascending).symm
  | some payload =>
    have inserted : insertEntry uuid payload data.entries = _ := insertEntry_eq payload data.ascending
    have kept : insertEntry uuid payload data.entries = data.entries := congrArg entries (insert_of_get? found)
    simpa [← inserted] using kept.symm

end ServiceData

/-! ## The effect of a change -/

/-- What a change does to the structures of a payload: what stood `before`
    between `front` and `back`, if anything, gives way to what stands there
    `after`. -/
structure Effect where
  front : List AdStructure
  before : Option AdStructure
  after : Option AdStructure
  back : List AdStructure
  deriving DecidableEq

namespace Effect

def old (effect : Effect) : List AdStructure := effect.front ++ effect.before.toList ++ effect.back

def new (effect : Effect) : List AdStructure := effect.front ++ effect.after.toList ++ effect.back

end Effect

namespace Content
open Description Payload

variable (limit : Option Nat) (description : Description) (deviceName : Octets)

/-- A flag brings or takes its one structure. Manufacturer data comes behind all
    that is there. A service UUID comes behind the others in the list of its
    width, and begins the list where there is none. Service data for a UUID comes
    in place of what it had, or between its neighbours where it had none. -/
def effect : Edit Uuid → Effect
  | .includeName included =>
    { front := []
      before := name? limit description.includeName deviceName
      after := name? limit included deviceName
      back := unnamed description }
  | .includeTxPower included =>
    { front := name limit description deviceName ++ manufacturer description
      before := txPower? description.includeTxPower
      after := txPower? included
      back := serviceUuids description ++ serviceData description }
  | .addManufacturer company payload =>
    { front := name limit description deviceName ++ manufacturer description
      before := none
      after := some (manufacturerEntry { company, payload })
      back := txPower description ++ serviceUuids description ++ serviceData description }
  | .addServiceUuid uuid =>
    { front := name limit description deviceName ++ manufacturer description ++ txPower description ++
        uuidLists uuid.width.narrower description
      before := uuidList? uuid.width (uuidsOf uuid.width description)
      after := some ⟨uuid.width.uuidList, (uuidsOf uuid.width description).flatMap (·.octets) ++ uuid.octets⟩
      back := uuidLists uuid.width.wider description ++ serviceData description }
  | .addServiceData uuid payload =>
    { front := name limit description deviceName ++ manufacturer description ++ txPower description ++
        serviceUuids description ++
        (description.serviceData.entries.filter (fun entry => entry.1 < uuid)).map serviceDataEntry
      before := (description.serviceData.get? uuid).map (fun old => serviceDataEntry (uuid, old))
      after := some (serviceDataEntry (uuid, payload))
      back := (description.serviceData.entries.filter (fun entry => uuid < entry.1)).map serviceDataEntry }

theorem serviceUuids_eq (width : Width) : serviceUuids description =
    uuidLists width.narrower description ++ (uuidList? width (uuidsOf width description)).toList ++
      uuidLists width.wider description := by
  simp only [serviceUuids, uuidLists, width.all_eq, List.filterMap_eq_flatMap_toList, List.flatMap_append,
    List.flatMap_cons, List.append_assoc]

theorem serviceData_eq (uuid : Uuid) : serviceData description =
    (description.serviceData.entries.filter (fun entry => entry.1 < uuid)).map serviceDataEntry ++
      ((description.serviceData.get? uuid).map (fun old => serviceDataEntry (uuid, old))).toList ++
      (description.serviceData.entries.filter (fun entry => uuid < entry.1)).map serviceDataEntry := by
  have mapped : serviceData description = _ :=
    congrArg (List.map serviceDataEntry) (ServiceData.entries_eq description.serviceData uuid)
  rw [mapped]
  cases description.serviceData.get? uuid <;> simp

/-- Without the change, `before` stands in the place of the effect. -/
theorem structures_eq_old (change : Edit Uuid) :
    structures limit description deviceName = (effect limit description deviceName change).old := by
  cases change with
  | includeName included => simp only [structures, name, effect, Effect.old, List.nil_append]
  | includeTxPower included =>
    simp only [structures, unnamed, txPower, effect, Effect.old, List.append_assoc]
  | addManufacturer company payload =>
    simp only [structures, unnamed, effect, Effect.old, Option.toList_none, List.append_nil, List.append_assoc]
  | addServiceUuid uuid =>
    simp only [structures, unnamed, serviceUuids_eq description uuid.width, effect, Effect.old, List.append_assoc]
  | addServiceData uuid payload =>
    simp only [structures, unnamed, serviceData_eq description uuid, effect, Effect.old, List.append_assoc]

/-- A service UUID does not show in the lists of other widths. -/
theorem uuidLists_edit {uuid : Uuid} {widths : List Width} (others : ∀ width ∈ widths, width ≠ uuid.width) :
    uuidLists widths (description.edit (.addServiceUuid uuid)) = uuidLists widths description := by
  apply List.filterMap_congr
  intro width member
  rw [uuidsOf_edit, Edit.serviceUuid?, if_neg (others width member).symm, Option.toList_none, List.append_nil]

theorem serviceUuids_edit (uuid : Uuid) : serviceUuids (description.edit (.addServiceUuid uuid)) =
    uuidLists uuid.width.narrower description ++
      ⟨uuid.width.uuidList, (uuidsOf uuid.width description).flatMap (·.octets) ++ uuid.octets⟩ ::
      uuidLists uuid.width.wider description := by
  have longer : uuidsOf uuid.width (description.edit (.addServiceUuid uuid)) =
      uuidsOf uuid.width description ++ [uuid] := by
    rw [uuidsOf_edit, Edit.serviceUuid?, if_pos rfl, Option.toList_some]
  have narrower : uuidLists uuid.width.narrower (description.edit (.addServiceUuid uuid)) =
      uuidLists uuid.width.narrower description := uuidLists_edit description fun _ => Width.ne_of_mem_narrower
  have wider : uuidLists uuid.width.wider (description.edit (.addServiceUuid uuid)) =
      uuidLists uuid.width.wider description := uuidLists_edit description fun _ => Width.ne_of_mem_wider
  rw [serviceUuids_eq _ uuid.width, narrower, wider, uuidList?, longer, if_neg (by simp), Option.toList_some,
    List.flatMap_append, List.flatMap_singleton, List.append_assoc, List.singleton_append]

theorem serviceData_edit (uuid : Uuid) (payload : Octets) :
    serviceData (description.edit (.addServiceData uuid payload)) =
      (description.serviceData.entries.filter (fun entry => entry.1 < uuid)).map serviceDataEntry ++
        serviceDataEntry (uuid, payload) ::
        (description.serviceData.entries.filter (fun entry => uuid < entry.1)).map serviceDataEntry := by
  have mapped : serviceData (description.edit (.addServiceData uuid payload)) = _ :=
    congrArg (List.map serviceDataEntry) (ServiceData.insertEntry_eq payload description.serviceData.ascending)
  rw [mapped, List.map_append, List.map_cons]

/-- With the change, `after` stands there. Each case names the one part that
    reads what changed. -/
theorem structures_edit (change : Edit Uuid) : structures limit (description.edit change) deviceName =
    (effect limit description deviceName change).new := by
  cases change with
  | includeName included =>
    rfl
  | includeTxPower included =>
    have kept : structures limit (description.edit (.includeTxPower included)) deviceName =
      name limit description deviceName ++ (manufacturer description ++
        txPower (description.edit (.includeTxPower included)) ++ serviceUuids description ++
        serviceData description) := rfl
    rw [kept]
    simp only [txPower, effect, Effect.new, edit, List.append_assoc]
  | addManufacturer company payload =>
    have kept : structures limit (description.edit (.addManufacturer company payload)) deviceName =
      name limit description deviceName ++ (manufacturer (description.edit (.addManufacturer company payload)) ++
        txPower description ++ serviceUuids description ++ serviceData description) := rfl
    have added : manufacturer (description.edit (.addManufacturer company payload)) =
      manufacturer description ++ [manufacturerEntry { company, payload }] := List.map_append
    rw [kept, added]
    simp only [effect, Effect.new, Option.toList_some, List.append_assoc]
  | addServiceUuid uuid =>
    have kept : structures limit (description.edit (.addServiceUuid uuid)) deviceName =
      name limit description deviceName ++ (manufacturer description ++ txPower description ++
        serviceUuids (description.edit (.addServiceUuid uuid)) ++ serviceData description) := rfl
    rw [kept, serviceUuids_edit]
    simp only [effect, Effect.new, Option.toList_some, List.append_assoc, List.cons_append, List.nil_append]
  | addServiceData uuid payload =>
    have kept : structures limit (description.edit (.addServiceData uuid payload)) deviceName =
      name limit description deviceName ++ (manufacturer description ++ txPower description ++
        serviceUuids description ++ serviceData (description.edit (.addServiceData uuid payload))) := rfl
    rw [kept, serviceData_edit]
    simp only [effect, Effect.new, Option.toList_some, List.append_assoc, List.cons_append, List.nil_append]

end Content

namespace Payload
open AdStructure

/-- A change of a description of any size puts the octets of `after` in the place
    of those of `before`, and leaves every octet in front of them and behind them
    as it was. -/
theorem encode_edit (configuration : Configuration) (description : Description) (name : Octets)
    (change : Description.Edit Uuid) :
    let effect := Content.effect configuration.nameLimit description name change
    (encode configuration description name).octets =
        write effect.front ++ effect.before.elim [] AdStructure.octets ++ write effect.back ∧
      (encode configuration (description.edit change) name).octets =
        write effect.front ++ effect.after.elim [] AdStructure.octets ++ write effect.back := by
  intro effect
  constructor
  · rw [encode_octets, Content.structures_eq_old configuration.nameLimit description name change]
    simp [Effect.old, write_toList, effect]
  · rw [encode_octets, Content.structures_edit]
    simp [Effect.new, write_toList, effect]

/-- A second service UUID of a width joins the first one, in front of the wider
    one. -/
example : Content.effect none
    (Description.build [.addServiceUuid (Uuid.ofUInt32 1), .addServiceUuid (Uuid.ofUInt16 1)]) []
    (.addServiceUuid (Uuid.ofUInt16 2)) =
      { front := []
        before := some ⟨.serviceUuids16, [1, 0]⟩
        after := some ⟨.serviceUuids16, [1, 0, 2, 0]⟩
        back := [⟨.serviceUuids32, [1, 0, 0, 0]⟩] } := by
  decide

end Payload

/-! ## Service data after any changes -/

namespace ServiceData

/-- There is one entry for a UUID that is found, and none for any other. -/
theorem filter_same (data : ServiceData) (uuid : Uuid) :
    data.entries.filter (fun entry => entry.1 = uuid) = ((data.get? uuid).map (uuid, ·)).toList := by
  have smaller : (data.entries.filter (fun entry => entry.1 < uuid)).filter (fun entry => entry.1 = uuid) = [] := by
    simp only [List.filter_eq_nil_iff, List.mem_filter, decide_eq_true_iff]
    rintro entry ⟨_, before⟩
    exact Uuid.ne_of_lt before
  have greater : (data.entries.filter (fun entry => uuid < entry.1)).filter (fun entry => entry.1 = uuid) = [] := by
    simp only [List.filter_eq_nil_iff, List.mem_filter, decide_eq_true_iff]
    rintro entry ⟨_, after⟩
    exact (Uuid.ne_of_lt after).symm
  have own : ((data.get? uuid).map (uuid, ·)).toList.filter (fun entry => entry.1 = uuid) =
      ((data.get? uuid).map (uuid, ·)).toList := by
    cases data.get? uuid <;> simp
  conv_lhs => rw [entries_eq data uuid]
  rw [List.filter_append, List.filter_append, smaller, own, greater, List.nil_append, List.append_nil]

/-- Entries of other UUIDs stay as they are, in the order in which they are. -/
theorem filter_insert_other (data : ServiceData) (uuid : Uuid) (payload : Octets) :
    (data.insert uuid payload).entries.filter (fun entry => entry.1 ≠ uuid) =
      data.entries.filter (fun entry => entry.1 ≠ uuid) := by
  simp only [insert]
  generalize data.entries = entries
  induction entries with
  | nil => simp [insertEntry]
  | cons head rest ih =>
    rw [insertEntry]
    split
    · simp
    · split
      · rw [List.filter_cons, List.filter_cons, ih]
      · rename_i notBefore notAfter
        have same := Uuid.eq_of_not_lt notBefore notAfter
        simp [← same]

end ServiceData

namespace Description

theorem build_append (changes : List (Edit Uuid)) (change : Edit Uuid) :
    build (changes ++ [change]) = (build changes).edit change := by
  rw [build, edits, List.foldl_append]
  rfl

theorem get?_build (changes : List (Edit Uuid)) (uuid : Uuid) :
    (build changes).serviceData.get? uuid = (changes.filterMap (Edit.serviceData? uuid)).getLast? := by
  rw [build, get?_edits]
  exact Option.or_none

/-- After any changes the entries are in ascending order, and those of a UUID are
    one with the payload given last, or none where no payload was given. Service
    data for a UUID leaves alone what the other UUIDs have, and everything that is
    no service data. -/
theorem serviceData_build (changes : List (Edit Uuid)) :
    (build changes).serviceData.entries.Pairwise (fun first second => (Uuid.compare first.1 second.1).lt) ∧
      (∀ uuid, ((build changes).serviceData.entries.filter (fun entry => (Uuid.compare entry.1 uuid).eq)).map (·.2) =
        (changes.filterMap (Edit.serviceData? uuid)).getLast?.toList) ∧
      ∀ uuid payload, ∃ data,
        build (changes ++ [.addServiceData uuid payload]) = { build changes with serviceData := data } ∧
          data.entries.filter (fun entry => (Uuid.compare entry.1 uuid).ne) =
            (build changes).serviceData.entries.filter (fun entry => (Uuid.compare entry.1 uuid).ne) := by
  simp only [Uuid.compare_eq, decide_eq_true_iff]
  refine ⟨(build changes).serviceData.ascending, ?_, ?_⟩
  · intro uuid
    rw [ServiceData.filter_same, get?_build]
    cases (changes.filterMap (Edit.serviceData? uuid)).getLast? <;> rfl
  · intro uuid payload
    refine ⟨(build changes).serviceData.insert uuid payload, ?_, ?_⟩
    · rw [build_append, edit]
    · exact ServiceData.filter_insert_other _ uuid payload

/-- One number at two widths has two entries, and the payload given last stands
    in place of the first one. -/
example : (build [.addServiceData (Uuid.ofUInt32 0x180D) [1], .includeTxPower true,
      .addServiceData (Uuid.ofUInt16 0x180D) [2], .addServiceData (Uuid.ofUInt32 0x180D) [3]]).serviceData.entries =
    [(Uuid.ofUInt16 0x180D, [2]), (Uuid.ofUInt32 0x180D, [3])] := by
  decide

end Description
end BleAdvertising
