/-!
# Configuration

Four numbers that hold for all advertisements: the most octets of a device name
that a payload carries, and the advertising interval of each tier in milliseconds.
-/
namespace BleAdvertising

/-- The numbers as configured; negative ones are kept. -/
structure Configuration where
  nameMaximum : Int32 := 18
  lowPowerMilliseconds : Int32 := 1000
  balancedMilliseconds : Int32 := 250
  lowLatencyMilliseconds : Int32 := 100
  deriving DecidableEq, Repr

instance : Inhabited Configuration := ⟨{}⟩

namespace Configuration

/-- The most octets of a name, no limit for a negative number. -/
def nameLimit (configuration : Configuration) : Option Nat :=
  if configuration.nameMaximum < 0 then none else some configuration.nameMaximum.toInt.toNat

theorem nameLimit_of_neg {configuration : Configuration} (negative : configuration.nameMaximum < 0) :
    configuration.nameLimit = none := if_pos negative

theorem nameLimit_of_toInt {configuration : Configuration} {most : Nat}
    (natural : configuration.nameMaximum.toInt = most) : configuration.nameLimit = some most := by
  have notNegative : ¬ configuration.nameMaximum < 0 := by
    rw [Int32.lt_iff_toInt_lt, natural]
    exact Int.not_lt.mpr (Int.natCast_nonneg most)
  rw [nameLimit, if_neg notNegative, natural, Int.toNat_natCast]

/-! ## Changes -/

structure Change where
  nameMaximum : Option Int32 := none
  lowPowerMilliseconds : Option Int32 := none
  balancedMilliseconds : Option Int32 := none
  lowLatencyMilliseconds : Option Int32 := none
  deriving DecidableEq, Repr

/-- Numbers without a new value keep theirs. -/
def change (configuration : Configuration) (new : Change) : Configuration where
  nameMaximum := new.nameMaximum.getD configuration.nameMaximum
  lowPowerMilliseconds := new.lowPowerMilliseconds.getD configuration.lowPowerMilliseconds
  balancedMilliseconds := new.balancedMilliseconds.getD configuration.balancedMilliseconds
  lowLatencyMilliseconds := new.lowLatencyMilliseconds.getD configuration.lowLatencyMilliseconds

end Configuration
end BleAdvertising
