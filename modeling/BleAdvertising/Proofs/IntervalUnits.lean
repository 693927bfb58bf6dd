import BleAdvertising.Settings
import Mathlib.Algebra.Group.Int.Defs

/-!
# Intervals in units

A unit is 625 microseconds, five eighths of a millisecond. As long as the
microseconds are an `Int64`, the units are the eighths of a fifth of the
milliseconds, cut off toward zero (`toInt_units`), and the order of intervals is
kept. Every configured interval is far within that range (`inRange_toInt64`).
-/
namespace BleAdvertising.Controller

/-! ## Units without overflow -/

/-- The microseconds are an `Int64`. -/
def InRange (milliseconds : Int64) : Prop :=
  -2 ^ 63 ≤ milliseconds.toInt * 1000 ∧ milliseconds.toInt * 1000 < 2 ^ 63

instance (milliseconds : Int64) : Decidable (InRange milliseconds) := inferInstanceAs (Decidable (_ ∧ _))

theorem toInt_microseconds {milliseconds : Int64} (inRange : InRange milliseconds) :
    (milliseconds * 1000).toInt = milliseconds.toInt * 1000 := by
  obtain ⟨low, high⟩ := inRange
  have thousand : (1000 : Int64).toInt = 1000 := by decide
  rw [Int64.toInt_mul, thousand]
  apply Int.bmod_eq_of_le <;> omega

/-- Cutting off 625 microseconds at a time is cutting off five at a time, eight for
    every millisecond. -/
theorem toInt_units {milliseconds : Int64} (inRange : InRange milliseconds) :
    (units milliseconds).toInt = (8 * milliseconds.toInt).tdiv 5 := by
  have product := toInt_microseconds inRange
  have divisor : intervalUnitMicroseconds.toInt = 625 := by decide
  have least : milliseconds * 1000 ≠ Int64.minValue := by
    intro same
    have number : milliseconds.toInt * 1000 = -2 ^ 63 := by rw [← product, same, Int64.toInt_minValue]
    omega
  have multiple : milliseconds.toInt * 1000 = 125 * (8 * milliseconds.toInt) := by omega
  calc (units milliseconds).toInt
      = (milliseconds.toInt * 1000).tdiv 625 := by
        rw [units, Int64.toInt_div_of_ne_left _ _ least, product, divisor]
    _ = (125 * (8 * milliseconds.toInt)).tdiv (125 * 5) := by rw [multiple]; rfl
    _ = (8 * milliseconds.toInt).tdiv 5 := Int.mul_tdiv_mul_of_pos _ _ (by decide)

theorem units_le_units {first second : Int64} (firstInRange : InRange first) (secondInRange : InRange second)
    (ordered : first ≤ second) : units first ≤ units second := by
  rw [Int64.le_iff_toInt_le] at *
  rw [toInt_units firstInRange, toInt_units secondInRange]
  exact Int.tdiv_le_tdiv (by decide) (by omega)

/-- The least `Int64` has no counterpart, and is not in range. -/
theorem toInt_neg {milliseconds : Int64} (inRange : InRange milliseconds) :
    (-milliseconds).toInt = -milliseconds.toInt := by
  obtain ⟨low, high⟩ := inRange
  rw [Int64.toInt_neg]
  apply Int.bmod_eq_of_le <;> omega

theorem toInt_units_neg {milliseconds : Int64} (inRange : InRange milliseconds) :
    (units (-milliseconds)).toInt = -(units milliseconds).toInt := by
  have opposite := toInt_neg inRange
  have oppositeInRange : InRange (-milliseconds) := by
    obtain ⟨low, high⟩ := inRange
    rw [InRange, opposite]
    omega
  rw [toInt_units oppositeInRange, toInt_units inRange, opposite, Int.mul_neg, Int.neg_tdiv]

/-- Less than one unit is cut off. -/
theorem units_bounds {milliseconds : Int64} (inRange : InRange milliseconds) (natural : 0 ≤ milliseconds) :
    (units milliseconds).toInt * 625 ≤ milliseconds.toInt * 1000 ∧
      milliseconds.toInt * 1000 < ((units milliseconds).toInt + 1) * 625 := by
  rw [Int64.le_iff_toInt_le, Int64.toInt_zero] at natural
  have dividend : 0 ≤ 8 * milliseconds.toInt := by omega
  rw [toInt_units inRange, Int.tdiv_eq_ediv_of_nonneg dividend]
  omega

theorem units_exact_iff {milliseconds : Int64} (inRange : InRange milliseconds) :
    (units milliseconds).toInt * 625 = milliseconds.toInt * 1000 ↔ 5 ∣ milliseconds.toInt := by
  rw [toInt_units inRange, Int.tdiv_eq_ediv]
  split <;> omega

/-! ## Configured intervals -/

theorem inRange_toInt64 (milliseconds : Int32) : InRange milliseconds.toInt64 := by
  have low := milliseconds.le_toInt
  have high := milliseconds.toInt_lt
  rw [InRange, Int32.toInt_toInt64]
  omega

theorem toInt64_le_toInt64 {first second : Int32} (ordered : first ≤ second) : first.toInt64 ≤ second.toInt64 := by
  rw [Int64.le_iff_toInt_le, Int32.toInt_toInt64, Int32.toInt_toInt64]
  exact Int32.le_iff_toInt_le.mp ordered

/-- Longer intervals are as many units or more. -/
theorem units_toInt64_le {first second : Int32} (ordered : first ≤ second) :
    units first.toInt64 ≤ units second.toInt64 :=
  units_le_units (inRange_toInt64 first) (inRange_toInt64 second) (toInt64_le_toInt64 ordered)

theorem milliseconds_of_unnamed (configuration : Configuration) {tier : IntervalTier}
    (unnamed : tier ∉ [IntervalTier.lowPower, .balanced, .lowLatency]) :
    milliseconds configuration tier = configuration.lowPowerMilliseconds := by
  simp only [List.mem_cons, List.not_mem_nil, or_false, not_or] at unnamed
  obtain ⟨notPower, notBalanced, notLatency⟩ := unnamed
  rw [milliseconds, if_neg notPower, if_neg notBalanced, if_neg notLatency]

/-- In range, the units are eight fifths of the milliseconds, cut off toward zero:
    longer intervals are no fewer units, opposite ones opposite units, less than
    one unit is lost, and none exactly for multiples of five milliseconds. All
    configured intervals are in range for every tier. A tier without a name has
    the units of the low power tier, and tiers in order of their intervals are in
    order of their units. -/
theorem intervalUnits_truncated :
    (∀ milliseconds, InRange milliseconds →
        (units milliseconds).toInt = (8 * milliseconds.toInt).tdiv 5 ∧
        (∀ other, InRange other → milliseconds ≤ other → units milliseconds ≤ units other) ∧
        (units (-milliseconds)).toInt = -(units milliseconds).toInt ∧
        (0 ≤ milliseconds → (units milliseconds).toInt * 625 ≤ milliseconds.toInt * 1000 ∧
          milliseconds.toInt * 1000 < ((units milliseconds).toInt + 1) * 625) ∧
        ((units milliseconds).toInt * 625 = milliseconds.toInt * 1000 ↔ 5 ∣ milliseconds.toInt)) ∧
      ∀ configuration : Configuration,
        (∀ tier, InRange (milliseconds configuration tier).toInt64 ∧
          (intervalUnits configuration tier).toInt = (8 * (milliseconds configuration tier).toInt).tdiv 5) ∧
        (∀ tier, tier ∉ [IntervalTier.lowPower, .balanced, .lowLatency] →
          intervalUnits configuration tier = intervalUnits configuration .lowPower) ∧
        (configuration.lowLatencyMilliseconds ≤ configuration.balancedMilliseconds →
          configuration.balancedMilliseconds ≤ configuration.lowPowerMilliseconds →
          intervalUnits configuration .lowLatency ≤ intervalUnits configuration .balanced ∧
            intervalUnits configuration .balanced ≤ intervalUnits configuration .lowPower) := by
  constructor
  · intro milliseconds inRange
    exact ⟨toInt_units inRange, fun other => units_le_units inRange, toInt_units_neg inRange, units_bounds inRange,
      units_exact_iff inRange⟩
  · intro configuration
    refine ⟨?_, ?_, ?_⟩
    · intro tier
      refine ⟨inRange_toInt64 _, ?_⟩
      rw [intervalUnits, toInt_units (inRange_toInt64 _), Int32.toInt_toInt64]
    · intro tier unnamed
      rw [intervalUnits, milliseconds_of_unnamed configuration unnamed]
      rfl
    · intro shorter longer
      exact ⟨units_toInt64_le shorter, units_toInt64_le longer⟩

/-- The most milliseconds in range, minus seven milliseconds, which are eleven units
    and a part of one, and a tier without a name. -/
theorem intervalUnits_truncated_extremes :
    InRange 9223372036854775 ∧ ¬ InRange 9223372036854776 ∧ (units 9223372036854775).toInt = 14757395258967640 ∧
      InRange (-7) ∧ (units (-7)).toInt = -11 ∧ units (-7) ≤ units 9223372036854775 ∧
      (units (-7)).toInt = -(units 7).toInt ∧
      (units 7).toInt * 625 ≤ 7000 ∧ 7000 < ((units 7).toInt + 1) * 625 ∧
      ⟨200⟩ ∉ [IntervalTier.lowPower, .balanced, .lowLatency] ∧
      intervalUnits {} ⟨200⟩ = intervalUnits {} .lowPower ∧
      intervalUnits {} .lowLatency ≤ intervalUnits {} .balanced ∧
      intervalUnits {} .balanced ≤ intervalUnits {} .lowPower := by
  obtain ⟨numbers, configured⟩ := intervalUnits_truncated
  obtain ⟨-, unnamed, ordered⟩ := configured {}
  have most : InRange 9223372036854775 := by decide
  have minusSeven : InRange (-7) := by decide
  have seven : InRange 7 := by decide
  obtain ⟨value, -⟩ := numbers _ most
  obtain ⟨value', monotone, -⟩ := numbers _ minusSeven
  obtain ⟨-, -, opposite, bounds, -⟩ := numbers _ seven
  obtain ⟨low, high⟩ := bounds (by decide)
  have apart : (⟨200⟩ : IntervalTier) ∉ [IntervalTier.lowPower, .balanced, .lowLatency] := by decide
  obtain ⟨shorter, longer⟩ := ordered (by decide) (by decide)
  exact ⟨most, by decide, value, minusSeven, value', monotone _ most (by decide), opposite, low, high, apart,
    unnamed _ apart, shorter, longer⟩

end BleAdvertising.Controller
