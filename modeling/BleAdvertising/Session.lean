import BleAdvertising.AdvertisingSet
import BleAdvertising.UuidText

/-!
# Sessions

A session holds descriptions, settings, UUIDs and advertising sets in slots with
names, and the configuration in force. Each step changes the session and gives
an answer. Descriptions, settings and UUIDs are there by default from the start;
an advertising set is there once it has been made.
-/
namespace BleAdvertising

abbrev Slots (α : Type) := String → α

def Slots.set {α : Type} (slots : Slots α) (slot : String) (content : α) : Slots α :=
  fun other => if other = slot then content else slots other

@[simp] theorem Slots.set_same {α : Type} (slots : Slots α) (slot : String) (content : α) :
    slots.set slot content slot = content := by
  simp [Slots.set]

@[simp] theorem Slots.set_other {α : Type} (slots : Slots α) {slot other : String} (different : other ≠ slot)
    (content : α) : slots.set slot content other = slots other := by
  simp [Slots.set, different]

/-- All that later steps depend on. -/
structure Session where
  configuration : Configuration := {}
  descriptions : Slots Description := fun _ => {}
  settings : Slots Settings := fun _ => {}
  uuids : Slots Uuid := fun _ => default
  sets : Slots (Option AdvertisingSet) := fun _ => none

namespace Session

/-- A UUID by its value, or by the slot that holds it at the time of the step. -/
inductive UuidName where
  | value (uuid : Uuid)
  | slot (name : String)
  deriving DecidableEq

inductive Step where
  | configure (new : Configuration.Change)
  | parseUuid (slot : String) (text : Octets)
  | setUuid (slot : String) (uuid : UuidName)
  | compareUuids (left right : String)
  | editSettings (slot : String) (change : Settings.Edit)
  | copySettings (source target : String)
  | parameters (slot : String)
  | newDescription (slot : String)
  | copyDescription (source target : String)
  | editDescription (slot : String) (change : Description.Edit UuidName)
  | encode (slot : String) (name : Octets)
  | advertise (slot settings data : String) (scanResponse : Option String) (name : Octets)
  | view (slot : String)
  | copySet (source target : String)

inductive Answer where
  | configuration (configuration : Configuration)
  | parsed (accepted : Bool) (uuid : Uuid)
  | uuid (uuid : Uuid)
  | comparison (comparison : Uuid.Comparison)
  | settings (settings : Settings)
  | parameters (power : PowerCode) (intervalUnits : Int64)
  | description (description : Description)
  | payload (payload : Payload)
  | made (view : AdvertisingSet.View) (log : Octets)
  | view (view : AdvertisingSet.View)
  /-- No advertising set was made in that slot. -/
  | noSet (slot : String)

def uuid (session : Session) : UuidName → Uuid
  | .value uuid => uuid
  | .slot name => session.uuids name

/-- The session after a step, with its answer. A slot that is copied or viewed
    without a set in it changes nothing. -/
def step (session : Session) : Step → Session × Answer
  | .configure new =>
    let configuration := session.configuration.change new
    ({ session with configuration }, .configuration configuration)
  | .parseUuid slot text =>
    let (accepted, uuid) := Uuid.parseInto text (session.uuids slot)
    ({ session with uuids := session.uuids.set slot uuid }, .parsed accepted uuid)
  | .setUuid slot name =>
    let uuid := session.uuid name
    ({ session with uuids := session.uuids.set slot uuid }, .uuid uuid)
  | .compareUuids left right => (session, .comparison (Uuid.compare (session.uuids left) (session.uuids right)))
  | .editSettings slot change =>
    let settings := (session.settings slot).edit change
    ({ session with settings := session.settings.set slot settings }, .settings settings)
  | .copySettings source target =>
    let settings := session.settings source
    ({ session with settings := session.settings.set target settings }, .settings settings)
  | .parameters slot =>
    let settings := session.settings slot
    (session, .parameters (Controller.power settings.power)
      (Controller.intervalUnits session.configuration settings.interval))
  | .newDescription slot =>
    ({ session with descriptions := session.descriptions.set slot default }, .description default)
  | .copyDescription source target =>
    let description := session.descriptions source
    ({ session with descriptions := session.descriptions.set target description }, .description description)
  | .editDescription slot change =>
    let description := (session.descriptions slot).edit (change.map session.uuid)
    ({ session with descriptions := session.descriptions.set slot description }, .description description)
  | .encode slot name => (session, .payload (Payload.encode session.configuration (session.descriptions slot) name))
  | .advertise slot settings data scanResponse name =>
    let made := AdvertisingSet.make session.configuration (session.settings settings) (session.descriptions data)
      (scanResponse.map session.descriptions) name
    ({ session with sets := session.sets.set slot (some made.set) },
      .made (made.set.view session.configuration) made.log)
  | .view slot =>
    match session.sets slot with
    | some set => (session, .view (set.view session.configuration))
    | none => (session, .noSet slot)
  | .copySet source target =>
    match session.sets source with
    | some set =>
      ({ session with sets := session.sets.set target (some set) }, .view (set.view session.configuration))
    | none => (session, .noSet source)

/-- The session after several steps, with an answer to each. -/
def run (session : Session) : List Step → Session × List Answer
  | [] => (session, [])
  | first :: rest =>
    let (next, answer) := session.step first
    let (last, answers) := next.run rest
    (last, answer :: answers)

end Session
end BleAdvertising
