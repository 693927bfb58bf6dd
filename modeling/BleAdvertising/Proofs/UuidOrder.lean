import BleAdvertising.Proofs.OctetNumbers
import BleAdvertising.Uuid

/-!
# The order of UUIDs

UUIDs in storage are compared octet by octet, from the most significant one down
to the first difference. This is the order of the UUIDs (`before_iff`), and at one
width the order of the numbers they denote (`lt_iff`). What storage holds behind
a UUID has no part in it.
-/
namespace BleAdvertising.Uuid

/-- Narrower first; at one width the smaller number. -/
theorem lt_iff {a b : Uuid} : a < b ↔ a.width.octets < b.width.octets ∨
    a.width = b.width ∧ Octets.littleEndian a.octets < Octets.littleEndian b.octets := by
  rw [lt_def]
  refine or_congr_right (and_congr_right ?_)
  intro same
  have counted : a.octets.reverse.length = b.octets.reverse.length := by
    simp [same]
  rw [Octets.lt_iff_littleEndian_lt counted, List.reverse_reverse, List.reverse_reverse]

namespace Stored

theorem reverse_take_succ (storage : Vector UInt8 16) {place : Nat} (inside : place < 16) :
    (storage.toList.take (place + 1)).reverse = storage[place] :: (storage.toList.take place).reverse := by
  have here : place < storage.toList.length := by simpa using inside
  rw [List.take_succ_eq_append_getElem here, List.reverse_append, List.reverse_singleton, List.singleton_append,
    Vector.getElem_toList]

/-- Going down from a place is going on in the reversed octets before it. -/
theorem lower_iff (a b : Vector UInt8 16) {count : Nat} (inside : count ≤ 16) :
    lower a b count inside ↔ (a.toList.take count).reverse < (b.toList.take count).reverse := by
  induction count with
  | zero => simp [lower]
  | succ place ih =>
    have here : place < 16 := inside
    rw [lower, reverse_take_succ a here, reverse_take_succ b here, List.cons_lt_cons_iff, ← ih (Nat.le_of_lt here)]
    by_cases same : a[place] = b[place]
    · simp [same, UInt8.lt_irrefl]
    · simp [same]

@[simp] theorem octets_uuid (stored : Stored) : stored.uuid.octets = stored.octets := rfl

@[simp] theorem width_uuid (stored : Stored) : stored.uuid.width = stored.width := rfl

theorem before_iff (a b : Stored) : a.before b ↔ a.uuid < b.uuid := by
  rw [before, lt_def]
  by_cases same : a.width = b.width
  · simp [lower_iff, octets, same]
  · simp [same]

theorem equal_iff (a b : Stored) : a.equal b ↔ a.uuid = b.uuid := by
  rw [equal, Bool.and_eq_true, decide_eq_true_iff, decide_eq_true_iff]
  constructor
  · rintro ⟨width, octets⟩
    exact Uuid.ext width octets
  · intro same
    exact ⟨congrArg Uuid.width same, congrArg Uuid.octets same⟩

/-- The comparison of two UUIDs is told by the UUIDs alone. -/
theorem compared_congr {a a' b b' : Stored} (first : a'.uuid = a.uuid) (second : b'.uuid = b.uuid) :
    a'.before b' = a.before b ∧ a'.equal b' = a.equal b := by
  constructor
  · rw [Bool.eq_iff_iff, before_iff, before_iff, first, second]
  · rw [Bool.eq_iff_iff, equal_iff, equal_iff, first, second]

/-- One comes before the other, or they are equal, and never two of these. -/
theorem count_comparisons (a b : Stored) : [a.before b, a.equal b, b.before a].count true = 1 := by
  rcases lt_trichotomy a.uuid b.uuid with before | same | after
  · have different := ne_of_lt before
    have notAfter := lt_asymm before
    rw [← before_iff] at before notAfter
    rw [ne_eq, ← equal_iff] at different
    simp [before, different, notAfter]
  · have notBefore : ¬ a.uuid < b.uuid := same ▸ lt_irrefl a.uuid
    have notAfter : ¬ b.uuid < a.uuid := same ▸ lt_irrefl a.uuid
    rw [← before_iff] at notBefore notAfter
    rw [← equal_iff] at same
    simp [same, notBefore, notAfter]
  · have different := (ne_of_lt after).symm
    have notBefore := lt_asymm after
    rw [← before_iff] at after notBefore
    rw [ne_eq, ← equal_iff] at different
    simp [after, different, notBefore]

/-- The comparison of UUIDs in storage is a strict total order, together with
    equality: the narrower UUID is first, and at one width the smaller number.
    Storage behind the UUIDs changes nothing. -/
theorem before_total (a b c : Stored) :
    [a.before b, a.equal b, b.before a].count true = 1 ∧
      (a.before b → b.before c → a.before c) ∧
      (a.before b ↔ a.width.octets < b.width.octets ∨
        a.width = b.width ∧ Octets.littleEndian a.octets < Octets.littleEndian b.octets) ∧
      ∀ a' b' : Stored, a'.width = a.width → a'.octets = a.octets → b'.width = b.width → b'.octets = b.octets →
        a'.before b' = a.before b ∧ a'.equal b' = a.equal b := by
  refine ⟨count_comparisons a b, ?_, ?_, ?_⟩
  · intro first second
    rw [before_iff] at *
    exact lt_trans first second
  · rw [before_iff, lt_iff]
    rfl
  · intro a' b' widthA octetsA widthB octetsB
    exact compared_congr (Uuid.ext widthA octetsA) (Uuid.ext widthB octetsB)

/-- The UUID of 16 bits `0x01FF`, with octets left over behind it. -/
def low : Stored := ⟨.bits16, #v[0xFF, 0x01, 9, 9, 9, 9, 9, 9, 9, 9, 9, 9, 9, 9, 9, 9]⟩

/-- The UUID of 16 bits `0x0200`. -/
def high : Stored := ⟨.bits16, #v[0x00, 0x02, 0, 0, 0, 0, 0, 0, 0, 0, 0, 0, 0, 0, 0, 0]⟩

/-- The UUID of 32 bits `0x00000001`. -/
def wide : Stored := ⟨.bits32, #v[0x01, 0x00, 0, 0, 0, 0, 0, 0, 0, 0, 0, 0, 0, 0, 0, 7]⟩

theorem before_total_low_high_wide : low.before high ∧ high.before wide ∧ low.before wide ∧
    low.uuid.store ≠ low ∧ low.uuid.store.before high = low.before high := by
  obtain ⟨-, trans, -, alike⟩ := before_total low high wide
  have first : low.before high := by decide
  have second : high.before wide := by decide
  exact ⟨first, second, trans first second, by decide, (alike low.uuid.store high (by decide) (by decide) rfl rfl).1⟩

end Stored

/-! ## Comparisons -/

@[simp] theorem uuid_store (uuid : Uuid) : uuid.store.uuid = uuid := by
  refine ext rfl ?_
  rw [Stored.octets_uuid, Stored.octets, store]
  apply List.ext_getElem
  · simp
  · intro place _ inside
    simp [List.getElem?_eq_getElem inside]

/-- What is reported of two UUIDs is their equality and their order. -/
theorem compare_eq (a b : Uuid) : compare a b = { eq := a = b, ne := a ≠ b, lt := a < b, gt := b < a } := by
  have equal (a b : Uuid) : a.store.equal b.store = decide (a = b) := by
    rw [Bool.eq_iff_iff, Stored.equal_iff]
    simp
  have before (a b : Uuid) : a.store.before b.store = decide (a < b) := by
    rw [Bool.eq_iff_iff, Stored.before_iff]
    simp
  rw [compare, equal, before, before]
  simp

end BleAdvertising.Uuid
