import BleAdvertising.Octets
import BleAdvertising.Hex
import BleAdvertising.Utf8
import BleAdvertising.AssignedNumbers
import BleAdvertising.AdStructure
import BleAdvertising.Uuid
import BleAdvertising.UuidText
import BleAdvertising.Description
import BleAdvertising.Configuration
import BleAdvertising.Settings
import BleAdvertising.Log
import BleAdvertising.Payload
import BleAdvertising.Content
import BleAdvertising.AdvertisingSet
import BleAdvertising.Session
import BleAdvertising.Proofs.OctetNumbers
import BleAdvertising.Proofs.Utf8Characters
import BleAdvertising.Proofs.Utf8Scalars
import BleAdvertising.Proofs.Utf8Reads
import BleAdvertising.Proofs.PayloadStructures
import BleAdvertising.Proofs.PayloadWalk
import BleAdvertising.Proofs.PayloadRecovery
import BleAdvertising.Proofs.EditHistory
import BleAdvertising.Proofs.EditEffect
import BleAdvertising.Proofs.DeviceNames
import BleAdvertising.Proofs.SetSnapshot
import BleAdvertising.Proofs.IntervalUnits
import BleAdvertising.Proofs.HexReading
import BleAdvertising.Proofs.UuidOrder
import BleAdvertising.Proofs.UuidWidths
import BleAdvertising.Proofs.UuidReading
import BleAdvertising.Proofs.UuidTexts
import BleAdvertising.Proofs.UuidTextOrder
