import BleAdvertising.AssignedNumbers
import BleAdvertising.Configuration

/-!
# Settings

What an application chooses for an advertisement besides its content: a tier of
transmit power, a tier of the advertising interval, and whether connections are
accepted. A tier is an octet; octets without a name are kept as they are. The
controller takes numbers in their place, those of medium power and of the low
power interval for tiers without a name.
-/
namespace BleAdvertising

structure PowerTier where
  octet : UInt8
  deriving DecidableEq, Repr

namespace PowerTier

def ultraLow : PowerTier := ⟨0⟩
def low : PowerTier := ⟨1⟩
def medium : PowerTier := ⟨2⟩
def high : PowerTier := ⟨3⟩

end PowerTier

structure IntervalTier where
  octet : UInt8
  deriving DecidableEq, Repr

namespace IntervalTier

/-- The longest interval. -/
def lowPower : IntervalTier := ⟨0⟩
def balanced : IntervalTier := ⟨1⟩
/-- The shortest interval. -/
def lowLatency : IntervalTier := ⟨2⟩

end IntervalTier

/-- Medium transmit power, low power interval and connectable, unless chosen
    otherwise. -/
structure Settings where
  power : PowerTier := .medium
  interval : IntervalTier := .lowPower
  connectable : Bool := true
  deriving DecidableEq, Repr

instance : Inhabited Settings := ⟨{}⟩

namespace Settings

inductive Edit where
  | power (tier : PowerTier)
  | interval (tier : IntervalTier)
  | connectable (accepted : Bool)
  deriving DecidableEq, Repr

def edit (settings : Settings) : Edit → Settings
  | .power tier => { settings with power := tier }
  | .interval tier => { settings with interval := tier }
  | .connectable accepted => { settings with connectable := accepted }

end Settings

namespace Controller

/-! ## Numbers for the controller -/

def power (tier : PowerTier) : PowerCode :=
  if tier = .ultraLow then .minimum
  else if tier = .low then .low
  else if tier = .medium then .middle
  else if tier = .high then .upper
  else .middle

/-- Connectable advertisements are scannable in any case. -/
def eventProperties (connectable hasScanResponse : Bool) : EventProperties :=
  if connectable then .connectable else if hasScanResponse then .scannable else .nonConnectable

/-! ## Intervals -/

def milliseconds (configuration : Configuration) (tier : IntervalTier) : Int32 :=
  if tier = .lowPower then configuration.lowPowerMilliseconds
  else if tier = .balanced then configuration.balancedMilliseconds
  else if tier = .lowLatency then configuration.lowLatencyMilliseconds
  else configuration.lowPowerMilliseconds

/-- Milliseconds in interval units of 0.625 ms. A fraction of a unit is cut off
    toward zero. -/
def units (milliseconds : Int64) : Int64 := milliseconds * 1000 / intervalUnitMicroseconds

def intervalUnits (configuration : Configuration) (tier : IntervalTier) : Int64 :=
  units (milliseconds configuration tier).toInt64

end Controller
end BleAdvertising
