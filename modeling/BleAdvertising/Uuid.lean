import BleAdvertising.AssignedNumbers

/-!
# UUIDs

A UUID is held as it stands on the air: two, four or sixteen octets, least
significant first. Narrower UUIDs come first in the order; among UUIDs of one
width the more significant octet decides. The same number at two widths gives
two UUIDs. In storage there may be other octets behind a UUID, which are not
compared.
-/
namespace BleAdvertising

structure Uuid where
  width : Width
  octets : Octets
  sized : octets.length = width.octets
  deriving DecidableEq

namespace Uuid

theorem ext {a b : Uuid} (width : a.width = b.width) (octets : a.octets = b.octets) : a = b := by
  cases a; cases b; simp_all

@[simp] theorem length_octets (uuid : Uuid) : uuid.octets.length = uuid.width.octets := uuid.sized

/-! ## Making UUIDs -/

/-- The UUID of a width in the first octets of a buffer. Later octets of the
    buffer do not matter. -/
def ofBuffer (width : Width) (buffer : Octets) (enough : width.octets ≤ buffer.length) : Uuid where
  width := width
  octets := buffer.take width.octets
  sized := by simp [Nat.min_eq_left enough]

def ofUInt16 (value : UInt16) : Uuid where
  width := .bits16
  octets := Octets.ofNat 2 value.toNat
  sized := Octets.length_ofNat ..

def ofUInt32 (value : UInt32) : Uuid where
  width := .bits32
  octets := Octets.ofNat 4 value.toNat
  sized := Octets.length_ofNat ..

/-- Sixteen octets, least significant first, are a 128-bit UUID as they are,
    whether or not a narrower UUID expands to them. -/
def of128 (octets : Octets) (sized : octets.length = 16) : Uuid where
  width := .bits128
  octets := octets
  sized := sized

/-- The UUID that stands where none was given. -/
instance : Inhabited Uuid := ⟨ofUInt16 0⟩

/-! ## Order -/

/-- Narrower first; at one width by the octets from the most significant on. -/
def Before (a b : Uuid) : Prop :=
  a.width.octets < b.width.octets ∨ a.width = b.width ∧ a.octets.reverse < b.octets.reverse

instance : LT Uuid := ⟨Before⟩

instance (a b : Uuid) : Decidable (a < b) := inferInstanceAs (Decidable (_ ∨ _ ∧ _))

theorem lt_def {a b : Uuid} :
    a < b ↔ a.width.octets < b.width.octets ∨ a.width = b.width ∧ a.octets.reverse < b.octets.reverse := Iff.rfl

theorem lt_irrefl (a : Uuid) : ¬ a < a := by
  rw [lt_def]
  rintro (narrower | ⟨_, smaller⟩)
  · exact Nat.lt_irrefl _ narrower
  · exact List.lt_irrefl _ smaller

theorem lt_trans {a b c : Uuid} (first : a < b) (second : b < c) : a < c := by
  rw [lt_def] at *
  rcases first with narrower | ⟨same, smaller⟩ <;> rcases second with narrower' | ⟨same', smaller'⟩
  · exact .inl (Nat.lt_trans narrower narrower')
  · exact .inl (same' ▸ narrower)
  · exact .inl (same ▸ narrower')
  · exact .inr ⟨same.trans same', List.lt_trans smaller smaller'⟩

theorem lt_asymm {a b : Uuid} (before : a < b) : ¬ b < a := fun after => lt_irrefl a (lt_trans before after)

theorem ne_of_lt {a b : Uuid} (before : a < b) : a ≠ b := by
  rintro rfl
  exact lt_irrefl a before

theorem lt_trichotomy (a b : Uuid) : a < b ∨ a = b ∨ b < a := by
  rw [lt_def, lt_def]
  rcases Nat.lt_trichotomy a.width.octets b.width.octets with narrower | same | wider
  · exact .inl (.inl narrower)
  · have same := Width.octets_inj same
    by_cases smaller : a.octets.reverse < b.octets.reverse
    · exact .inl (.inr ⟨same, smaller⟩)
    · by_cases greater : b.octets.reverse < a.octets.reverse
      · exact .inr (.inr (.inr ⟨same.symm, greater⟩))
      · have equal := List.le_antisymm (List.not_lt.mp greater) (List.not_lt.mp smaller)
        exact .inr (.inl (ext same (List.reverse_inj.mp equal)))
  · exact .inr (.inr (.inl wider))

theorem eq_of_not_lt {a b : Uuid} (notBefore : ¬ a < b) (notAfter : ¬ b < a) : a = b :=
  ((lt_trichotomy a b).resolve_left notBefore).resolve_right notAfter

/-! ## Storage -/

/-- A UUID in storage for the widest one. The first octets, as many as the width
    has, are the UUID, and what follows them is left over. -/
structure Stored where
  width : Width
  storage : Vector UInt8 16
  deriving DecidableEq

/-- A UUID put into storage of zeros. -/
def store (uuid : Uuid) : Stored where
  width := uuid.width
  storage := Vector.ofFn fun place => uuid.octets.getD place 0

namespace Stored

def octets (stored : Stored) : Octets := stored.storage.toList.take stored.width.octets

def uuid (stored : Stored) : Uuid :=
  ofBuffer stored.width stored.storage.toList (by simp)

/-- Equal widths, and equal octets as far as the width goes. -/
def equal (a b : Stored) : Bool := a.width = b.width && a.octets = b.octets

/-- Among the first `count` places the last one with a difference decides. -/
def lower (a b : Vector UInt8 16) : (count : Nat) → count ≤ 16 → Bool
  | 0, _ => false
  | place + 1, inside =>
    if a[place] ≠ b[place] then a[place] < b[place] else lower a b place (Nat.le_of_succ_le inside)

def before (a b : Stored) : Bool :=
  if a.width ≠ b.width then a.width.octets < b.width.octets
  else lower a.storage b.storage a.width.octets a.width.octets_le

end Stored

/-- What the two comparison operators and their counterparts say of two UUIDs. -/
structure Comparison where
  eq : Bool
  ne : Bool
  lt : Bool
  gt : Bool
  deriving DecidableEq, Repr

/-- The operators work on storage. -/
def compare (a b : Uuid) : Comparison where
  eq := a.store.equal b.store
  ne := !a.store.equal b.store
  lt := a.store.before b.store
  gt := b.store.before a.store

end Uuid
end BleAdvertising
