import BleAdvertising.Settings
import BleAdvertising.Payload

/-!
# Advertising sets

Settings together with the payloads of a description and, where there is one, of
a scan response. The payloads are made once; the interval is looked up in the
configuration in force whenever it is asked for.
-/
namespace BleAdvertising

/-- What a controller needs to advertise. A scan response may be there and have
    no octets. -/
structure AdvertisingSet where
  settings : Settings
  data : Octets
  scanResponse : Option Octets
  deriving DecidableEq, Repr

namespace AdvertisingSet

/-! ## Making sets -/

/-- A set with the notices given while its payloads were made. -/
structure Made where
  set : AdvertisingSet
  notices : List Log.Notice
  deriving DecidableEq, Repr

/-- Both payloads carry the same device name. Notices on the data come first. -/
def make (configuration : Configuration) (settings : Settings) (data : Description) (scanResponse : Option Description)
    (name : Octets) : Made :=
  let payload := Payload.encode configuration data name
  match scanResponse with
  | none => { set := { settings, data := payload.octets, scanResponse := none }, notices := payload.notices }
  | some description =>
    let response := Payload.encode configuration description name
    { set := { settings, data := payload.octets, scanResponse := some response.octets },
      notices := payload.notices ++ response.notices }

/-- What is written to the log for the notices. -/
def Made.log (made : Made) : Octets := Log.Notice.writeAll made.notices

/-! ## Reading sets -/

/-- The octets of the scan response, none where there is no scan response. -/
def scanData (set : AdvertisingSet) : Octets := set.scanResponse.getD []

def hasScanResponse (set : AdvertisingSet) : Bool := set.scanResponse.isSome

inductive Field where
  | data
  | scanData
  deriving DecidableEq, Repr

def get (set : AdvertisingSet) : Field → Octets
  | .data => set.data
  | .scanData => set.scanData

def power (set : AdvertisingSet) : PowerCode := Controller.power set.settings.power

def eventProperties (set : AdvertisingSet) : EventProperties :=
  Controller.eventProperties set.settings.connectable set.hasScanResponse

def intervalUnits (set : AdvertisingSet) (configuration : Configuration) : Int64 :=
  Controller.intervalUnits configuration set.settings.interval

/-- All that a set shows under a configuration. -/
structure View where
  data : Octets
  dataSize : Nat
  scanData : Octets
  scanDataSize : Nat
  dataField : Octets
  scanDataField : Octets
  hasScanResponse : Bool
  settings : Settings
  power : PowerCode
  eventProperties : EventProperties
  intervalUnits : Int64
  deriving DecidableEq, Repr

/-- Only the interval depends on the configuration. -/
def view (set : AdvertisingSet) (configuration : Configuration) : View where
  data := set.data
  dataSize := set.data.length
  scanData := set.scanData
  scanDataSize := set.scanData.length
  dataField := set.get .data
  scanDataField := set.get .scanData
  hasScanResponse := set.hasScanResponse
  settings := set.settings
  power := set.power
  eventProperties := set.eventProperties
  intervalUnits := set.intervalUnits configuration

end AdvertisingSet
end BleAdvertising
