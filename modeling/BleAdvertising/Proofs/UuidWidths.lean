import BleAdvertising.Proofs.OctetNumbers
import BleAdvertising.UuidText
import Mathlib.Data.List.Basic

/-!
# The widths of one expansion

UUIDs of several widths can have one 128-bit expansion. `shorten` gives the
narrowest of them (`width_shorten_le`) and keeps the expansion
(`expand_shorten`). The UUIDs that it leaves as they are (`shorten_eq_self_iff`)
are those of 16 bits, those of 32 bits that need more than 16, and those of 128
bits that do not come from the base UUID; such a UUID is known from its expansion
(`Narrow.eq_of_expand`).
-/
namespace BleAdvertising.Uuid

/-! ## Expansions -/

theorem expand_bits16 {uuid : Uuid} (kind : uuid.width = .bits16) :
    uuid.expand = baseUuid.take shortOffset ++ (uuid.octets ++ [0, 0]) := by
  simp only [expand, kind, List.append_assoc]
  rfl

theorem expand_bits32 {uuid : Uuid} (kind : uuid.width = .bits32) :
    uuid.expand = baseUuid.take shortOffset ++ uuid.octets := by
  simp only [expand, kind, List.append_assoc]
  exact congrArg (baseUuid.take shortOffset ++ ·) (List.append_nil uuid.octets)

theorem expand_bits128 {uuid : Uuid} (kind : uuid.width = .bits128) : uuid.expand = uuid.octets := by
  simp only [expand, kind]

theorem exists_octets_bits16 {uuid : Uuid} (kind : uuid.width = .bits16) : ∃ a b, uuid.octets = [a, b] := by
  apply List.length_eq_two.mp
  simp [kind, Width.octets]

theorem exists_octets_bits32 {uuid : Uuid} (kind : uuid.width = .bits32) : ∃ a b c d, uuid.octets = [a, b, c, d] := by
  have sized : uuid.octets.length = 4 := by simp [kind, Width.octets]
  obtain ⟨a, rest, octets⟩ := List.exists_cons_of_length_eq_add_one sized
  rw [octets] at sized
  obtain ⟨b, c, d, rfl⟩ := List.length_eq_three.mp (Nat.succ.inj sized)
  exact ⟨a, b, c, d, octets⟩

theorem length_baseUuid_take : (baseUuid.take shortOffset).length = shortOffset := rfl

theorem take_expand {uuid : Uuid} (short : uuid.width ≠ .bits128) :
    uuid.expand.take shortOffset = baseUuid.take shortOffset := by
  cases kind : uuid.width with
  | bits16 => rw [expand_bits16 kind, List.take_left' length_baseUuid_take]
  | bits32 => rw [expand_bits32 kind, List.take_left' length_baseUuid_take]
  | bits128 => exact absurd kind short

/-! ## The narrowest UUID -/

theorem expand_narrowest (expanded : Octets) (sized : expanded.length = 16) :
    (narrowest expanded sized).expand = expanded := by
  rw [narrowest]
  split
  · rename_i based
    split
    · rename_i low
      calc (ofBuffer .bits16 (expanded.drop shortOffset) _).expand
          = baseUuid.take shortOffset ++ ((expanded.drop shortOffset).take 2 ++ [0, 0]) := expand_bits16 rfl
        _ = expanded.take shortOffset ++ ((expanded.drop shortOffset).take 2 ++ (expanded.drop shortOffset).drop 2) := by
          rw [based, List.drop_drop, shortOffset, low]
        _ = expanded := by rw [List.take_append_drop, List.take_append_drop]
    · have four : (expanded.drop shortOffset).length = 4 := by rw [List.length_drop, sized, shortOffset]
      calc (ofBuffer .bits32 (expanded.drop shortOffset) _).expand
          = baseUuid.take shortOffset ++ (expanded.drop shortOffset).take 4 := expand_bits32 rfl
        _ = expanded.take shortOffset ++ expanded.drop shortOffset := by
          rw [based, List.take_of_length_le (Nat.le_of_eq four)]
        _ = expanded := List.take_append_drop _ _
  · exact expand_bits128 rfl

/-- The narrowest UUID with the expansion of a UUID. -/
def shorten (uuid : Uuid) : Uuid := narrowest uuid.expand uuid.length_expand

theorem narrowest_eq_shorten {expanded : Octets} (sized : expanded.length = 16) {uuid : Uuid}
    (same : uuid.expand = expanded) : narrowest expanded sized = shorten uuid := by
  subst same
  rfl

@[simp] theorem expand_shorten (uuid : Uuid) : uuid.shorten.expand = uuid.expand := expand_narrowest _ _

theorem shorten_congr {first second : Uuid} (same : first.expand = second.expand) : first.shorten = second.shorten :=
  narrowest_eq_shorten _ same.symm

/-! ## UUIDs that cannot be shortened -/

/-- No narrower UUID has the expansion: 16 bits, 32 bits with a value above
    `0xFFFF`, or 128 bits apart from the base UUID. -/
def Narrow (uuid : Uuid) : Prop :=
  uuid.width = .bits16 ∨
    uuid.width = .bits32 ∧ 0xFFFF < Octets.littleEndian uuid.octets ∨
    uuid.width = .bits128 ∧ uuid.octets.take shortOffset ≠ baseUuid.take shortOffset

theorem shorten_bits16 {uuid : Uuid} (kind : uuid.width = .bits16) : uuid.shorten = uuid := by
  have short : uuid.width ≠ .bits128 := by simp [kind]
  have behind : uuid.expand.drop shortOffset = uuid.octets ++ [0, 0] := by
    rw [expand_bits16 kind, List.drop_left' length_baseUuid_take]
  obtain ⟨a, b, octets⟩ := exists_octets_bits16 kind
  have low : uuid.expand.drop 14 = [0, 0] := by
    rw [show 14 = shortOffset + 2 from rfl, ← List.drop_drop, behind, octets]
    rfl
  rw [shorten, narrowest, if_pos (take_expand short), if_pos low]
  apply ext
  · exact kind.symm
  · simp only [ofBuffer, behind, octets, Width.octets]
    rfl

theorem drop_expand_bits32 {uuid : Uuid} (kind : uuid.width = .bits32) :
    uuid.expand.drop shortOffset = uuid.octets := by
  rw [expand_bits32 kind, List.drop_left' length_baseUuid_take]

/-- The two octets that a UUID of 16 bits has no room for. -/
theorem drop_expand_bits32_eq_zero_iff {uuid : Uuid} (kind : uuid.width = .bits32) :
    uuid.expand.drop 14 = [0, 0] ↔ Octets.littleEndian uuid.octets ≤ 0xFFFF := by
  obtain ⟨a, b, c, d, octets⟩ := exists_octets_bits32 kind
  have high : uuid.expand.drop 14 = [c, d] := by
    rw [show 14 = shortOffset + 2 from rfl, ← List.drop_drop, drop_expand_bits32 kind, octets]
    rfl
  have boundA := a.toNat_lt
  have boundB := b.toNat_lt
  rw [high, octets]
  simp only [Octets.littleEndian, List.cons.injEq, and_true, ← UInt8.toNat_inj, UInt8.toNat_zero]
  omega

theorem width_shorten_bits32 {uuid : Uuid} (kind : uuid.width = .bits32)
    (small : Octets.littleEndian uuid.octets ≤ 0xFFFF) : uuid.shorten.width = .bits16 := by
  have short : uuid.width ≠ .bits128 := by simp [kind]
  rw [shorten, narrowest, if_pos (take_expand short), if_pos ((drop_expand_bits32_eq_zero_iff kind).mpr small)]
  rfl

theorem shorten_bits32 {uuid : Uuid} (kind : uuid.width = .bits32)
    (large : 0xFFFF < Octets.littleEndian uuid.octets) : uuid.shorten = uuid := by
  have short : uuid.width ≠ .bits128 := by simp [kind]
  have high : uuid.expand.drop 14 ≠ [0, 0] := by
    rw [Ne, drop_expand_bits32_eq_zero_iff kind]
    omega
  rw [shorten, narrowest, if_pos (take_expand short), if_neg high]
  apply ext
  · exact kind.symm
  · have four : uuid.octets.length = Width.bits32.octets := by simp [kind]
    simp only [ofBuffer, drop_expand_bits32 kind, List.take_of_length_le (Nat.le_of_eq four)]

theorem width_shorten_bits128 {uuid : Uuid} (kind : uuid.width = .bits128)
    (based : uuid.octets.take shortOffset = baseUuid.take shortOffset) : uuid.shorten.width ≠ .bits128 := by
  rw [← expand_bits128 kind] at based
  rw [shorten, narrowest, if_pos based]
  split <;> simp [ofBuffer]

theorem shorten_bits128 {uuid : Uuid} (kind : uuid.width = .bits128)
    (apart : uuid.octets.take shortOffset ≠ baseUuid.take shortOffset) : uuid.shorten = uuid := by
  rw [shorten, narrowest, if_neg (by rwa [expand_bits128 kind]), of128]
  apply ext
  · exact kind.symm
  · exact expand_bits128 kind

theorem shorten_eq_self_iff (uuid : Uuid) : uuid.shorten = uuid ↔ uuid.Narrow := by
  constructor
  · intro same
    have width : uuid.shorten.width = uuid.width := congrArg Uuid.width same
    cases kind : uuid.width with
    | bits16 => exact .inl kind
    | bits32 =>
      refine .inr (.inl ⟨kind, Nat.lt_of_not_le ?_⟩)
      intro small
      rw [width_shorten_bits32 kind small, kind] at width
      cases width
    | bits128 =>
      refine .inr (.inr ⟨kind, ?_⟩)
      intro based
      exact width_shorten_bits128 kind based (width.trans kind)
  · rintro (kind | ⟨kind, large⟩ | ⟨kind, apart⟩)
    · exact shorten_bits16 kind
    · exact shorten_bits32 kind large
    · exact shorten_bits128 kind apart

theorem narrow_narrowest (expanded : Octets) (sized : expanded.length = 16) : (narrowest expanded sized).Narrow := by
  rw [← shorten_eq_self_iff]
  exact (narrowest_eq_shorten sized (expand_narrowest expanded sized)).symm

/-- UUIDs of one expansion that cannot be shortened are the same. -/
theorem Narrow.eq_of_expand {first second : Uuid} (firstNarrow : first.Narrow) (secondNarrow : second.Narrow)
    (same : first.expand = second.expand) : first = second := by
  rw [← (shorten_eq_self_iff first).mpr firstNarrow, ← (shorten_eq_self_iff second).mpr secondNarrow]
  exact shorten_congr same

/-- No UUID of the same expansion is narrower. -/
theorem width_shorten_le {uuid other : Uuid} (same : other.expand = uuid.expand) :
    uuid.shorten.width.octets ≤ other.width.octets := by
  rw [← shorten_congr same]
  cases kind : other.width with
  | bits16 => exact Nat.le_of_eq (by rw [shorten_bits16 kind, kind])
  | bits32 =>
    by_cases small : Octets.littleEndian other.octets ≤ 0xFFFF
    · rw [width_shorten_bits32 kind small]
      decide
    · exact Nat.le_of_eq (by rw [shorten_bits32 kind (Nat.lt_of_not_le small), kind])
  | bits128 => cases other.shorten.width <;> decide

/-- At one width, UUIDs are known from their expansions. -/
theorem eq_of_expand_of_width {first second : Uuid} (width : first.width = second.width)
    (same : first.expand = second.expand) : first = second := by
  apply ext width
  cases kind : first.width with
  | bits16 =>
    rw [expand_bits16 kind, expand_bits16 (width ▸ kind), List.append_cancel_left_eq, List.append_cancel_right_eq] at same
    exact same
  | bits32 =>
    rw [expand_bits32 kind, expand_bits32 (width ▸ kind), List.append_cancel_left_eq] at same
    exact same
  | bits128 =>
    rw [expand_bits128 kind, expand_bits128 (width ▸ kind)] at same
    exact same

end BleAdvertising.Uuid
