import BleAdvertising.Octets
import Mathlib.Data.Nat.Digits.Defs

/-!
# Numbers in octets

Octets and the numbers they denote determine each other as long as there are
enough octets: `ofNat_littleEndian` one way, `littleEndian_ofNat` the other. For
as many octets, the smaller number is the one whose octets come first from the
most significant octet on (`lt_iff_littleEndian_lt`).
-/
namespace BleAdvertising.Octets

/-- What is so for the octets of the numbers below 256 is so for every octet. -/
theorem forall_octet {P : UInt8 → Prop} (all : ∀ number : Fin 256, P (UInt8.ofNat number.val)) (octet : UInt8) :
    P octet := by
  have found := all ⟨octet.toNat, octet.toNat_lt⟩
  simpa using found

instance {P : UInt8 → Prop} [DecidablePred P] : Decidable (∀ octet, P octet) :=
  decidable_of_iff (∀ number : Fin 256, P (UInt8.ofNat number.val)) ⟨forall_octet, fun all _ => all _⟩

/-- Only the low `count` octets of the number are kept. -/
theorem littleEndian_ofNat (count value : Nat) : littleEndian (ofNat count value) = value % 256 ^ count := by
  induction count generalizing value with
  | zero => simp [ofNat, littleEndian, Nat.mod_one]
  | succ count ih =>
    have low : (UInt8.ofNat value).toNat = value % 256 := by simp
    rw [ofNat, littleEndian, ih, low, Nat.pow_succ, Nat.mul_comm (256 ^ count) 256, Nat.mod_mul]

theorem ofNat_inj {count first second : Nat} (firstSmall : first < 256 ^ count) (secondSmall : second < 256 ^ count)
    (same : ofNat count first = ofNat count second) : first = second := by
  have numbers := congrArg littleEndian same
  rw [littleEndian_ofNat, littleEndian_ofNat, Nat.mod_eq_of_lt firstSmall, Nat.mod_eq_of_lt secondSmall] at numbers
  exact numbers

theorem ofNat_littleEndian (octets : Octets) : ofNat octets.length (littleEndian octets) = octets := by
  induction octets with
  | nil => rfl
  | cons octet rest ih =>
    have bounded := octet.toNat_lt
    have low : UInt8.ofNat (octet.toNat + 256 * littleEndian rest) = octet := by
      apply UInt8.toNat_inj.mp
      simp only [UInt8.toNat_ofNat']
      omega
    have high : (octet.toNat + 256 * littleEndian rest) / 256 = littleEndian rest := by omega
    simp [ofNat, littleEndian, low, high, ih]

/-! ## Order -/

theorem littleEndian_eq_ofDigits (octets : Octets) :
    littleEndian octets = Nat.ofDigits 256 (octets.map UInt8.toNat) := by
  induction octets with
  | nil => rfl
  | cons octet rest ih => rw [littleEndian, ih, List.map_cons, Nat.ofDigits_cons]

theorem littleEndian_lt (octets : Octets) : littleEndian octets < 256 ^ octets.length := by
  have digits : ∀ digit ∈ octets.map UInt8.toNat, digit < 256 := by
    intro digit member
    obtain ⟨octet, -, rfl⟩ := List.mem_map.mp member
    exact octet.toNat_lt
  simpa [littleEndian_eq_ofDigits] using Nat.ofDigits_lt_base_pow_length (by decide) digits

/-- The induction follows the order from the most significant octet on. -/
theorem lt_iff_littleEndian_lt {first second : Octets} (counted : first.length = second.length) :
    first < second ↔ littleEndian first.reverse < littleEndian second.reverse := by
  induction first generalizing second with
  | nil =>
    obtain rfl := List.length_eq_zero_iff.mp counted.symm
    simp
  | cons x xs ih =>
    obtain ⟨y, ys, rfl⟩ := List.exists_cons_of_length_eq_add_one counted.symm
    have rest : xs.length = ys.length := Nat.succ.inj counted
    have lowX : littleEndian xs.reverse < 256 ^ xs.length := by simpa using littleEndian_lt xs.reverse
    have lowY : littleEndian ys.reverse < 256 ^ xs.length := by simpa [rest] using littleEndian_lt ys.reverse
    have top (octets : Octets) (octet : UInt8) : littleEndian (octet :: octets).reverse =
        littleEndian octets.reverse + 256 ^ octets.length * octet.toNat := by
      simp only [littleEndian_eq_ofDigits, List.map_reverse, List.map_cons, Nat.ofDigits_reverse_cons, List.length_map]
    rw [List.cons_lt_cons_iff, ih rest, top, top, ← rest]
    rcases Nat.lt_trichotomy x.toNat y.toNat with less | same | more
    · have step : 256 ^ xs.length * (x.toNat + 1) ≤ 256 ^ xs.length * y.toNat := Nat.mul_le_mul_left _ less
      have before : x < y := UInt8.lt_iff_toNat_lt.mpr less
      simp only [before, true_or, true_iff]
      rw [Nat.mul_add, Nat.mul_one] at step
      omega
    · obtain rfl := UInt8.toNat_inj.mp same
      simp [UInt8.lt_irrefl]
    · have step : 256 ^ xs.length * (y.toNat + 1) ≤ 256 ^ xs.length * x.toNat := Nat.mul_le_mul_left _ more
      have different : x ≠ y := by
        rintro rfl
        exact Nat.lt_irrefl _ more
      have notBefore : ¬ x < y := by
        rw [UInt8.lt_iff_toNat_lt]
        exact Nat.lt_asymm more
      simp only [notBefore, different, false_and, or_self, false_iff]
      rw [Nat.mul_add, Nat.mul_one] at step
      omega

end BleAdvertising.Octets
