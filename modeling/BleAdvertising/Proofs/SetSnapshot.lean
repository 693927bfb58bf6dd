import BleAdvertising.Proofs.DeviceNames
import BleAdvertising.Session

/-!
# Advertising sets over a session

A set is made once. Later steps may put another set into its slot or copy it to
other slots, and change everything that it was made from, but what it shows stays
what it was made with (`view_run`). Only the interval follows the configuration.
-/
namespace BleAdvertising

namespace AdvertisingSet

/-- What is shown of a set, told by what it was made from, by the configuration it
    was made under, and by the configuration in force. -/
def snapshot (madeUnder : Configuration) (settings : Settings) (data : Description) (scanResponse : Option Description)
    (name : Octets) (inForce : Configuration) : View where
  data := (Payload.encode madeUnder data name).octets
  dataSize := (Payload.encode madeUnder data name).octets.length
  scanData := (Payload.encode? madeUnder scanResponse name).octets
  scanDataSize := (Payload.encode? madeUnder scanResponse name).octets.length
  dataField := (Payload.encode madeUnder data name).octets
  scanDataField := (Payload.encode? madeUnder scanResponse name).octets
  hasScanResponse := scanResponse.isSome
  settings := settings
  power := Controller.power settings.power
  eventProperties := Controller.eventProperties settings.connectable scanResponse.isSome
  intervalUnits := Controller.intervalUnits inForce settings.interval

@[simp] theorem view_make (madeUnder : Configuration) (settings : Settings) (data : Description)
    (scanResponse : Option Description) (name : Octets) (inForce : Configuration) :
    (make madeUnder settings data scanResponse name).set.view inForce =
      snapshot madeUnder settings data scanResponse name inForce := by
  rw [make_set]
  cases scanResponse <;> rfl

end AdvertisingSet

namespace Session

@[simp] theorem step_view (session : Session) (slot : String) : (session.step (.view slot)).1 = session := by
  simp only [Session.step]
  split <;> rfl

/-! ## The configuration in force -/

def Step.configure? : Step → Option Configuration.Change
  | .configure new => some new
  | _ => none

theorem configuration_step (session : Session) (step : Step) :
    (session.step step).1.configuration = step.configure?.toList.foldl Configuration.change session.configuration := by
  cases step with
  | view slot => simp [Step.configure?]
  | copySet source target =>
    simp only [Session.step]
    split <;> rfl
  | _ => rfl

theorem configuration_run (session : Session) (steps : List Step) : (session.run steps).1.configuration =
    (steps.filterMap Step.configure?).foldl Configuration.change session.configuration := by
  induction steps generalizing session with
  | nil => rfl
  | cons step rest ih =>
    have one := configuration_step session step
    rw [run, ih, one, List.filterMap_cons]
    cases step.configure? <;> rfl

/-! ## The slots of a set -/

/-- The slots with a set or a copy of it after a step, where some have it before.
    Another set may take a slot of theirs, and copies of it take other slots. -/
def Step.holders (session : Session) (slots : List String) : Step → List String
  | .advertise slot _ _ _ _ => slots.filter (· ≠ slot)
  | .copySet source target =>
    if source ∈ slots then target :: slots
    else if (session.sets source).isSome then slots.filter (· ≠ target)
    else slots
  | _ => slots

/-- The slots with a set or a copy of it after several steps. -/
def holders (session : Session) (slots : List String) : List Step → List String
  | [] => slots
  | step :: rest => (session.step step).1.holders (step.holders session slots) rest

/-- The slot that a step puts a set into. -/
def Step.filled? : Step → Option String
  | .advertise slot _ _ _ _ => some slot
  | .copySet _ target => some target
  | _ => none

/-- A slot keeps its set through steps that put none into it. -/
theorem mem_holders {session : Session} {slots : List String} {slot : String} (member : slot ∈ slots)
    {later : List Step} (apart : ∀ step ∈ later, step.filled? ≠ some slot) : slot ∈ session.holders slots later := by
  induction later generalizing session slots with
  | nil => exact member
  | cons step rest ih =>
    obtain ⟨first, others⟩ := List.forall_mem_cons.mp apart
    refine ih ?_ others
    cases step with
    | advertise filled settings data scanResponse name =>
      have different : slot ≠ filled := fun same => first (congrArg some same.symm)
      exact List.mem_filter.mpr ⟨member, decide_eq_true different⟩
    | copySet source target =>
      have different : slot ≠ target := fun same => first (congrArg some same.symm)
      rw [Step.holders]
      split
      · exact List.mem_cons_of_mem _ member
      · split
        · exact List.mem_filter.mpr ⟨member, decide_eq_true different⟩
        · exact member
    | _ => exact member

/-- All of these slots hold the set. -/
def Hold (session : Session) (slots : List String) (set : AdvertisingSet) : Prop :=
  ∀ slot ∈ slots, session.sets slot = some set

theorem hold_set_other {slots : List String} {set : AdvertisingSet} {session : Session} (held : session.Hold slots set)
    (target : String) (content : Option AdvertisingSet) :
    ∀ slot ∈ slots.filter (· ≠ target), session.sets.set target content slot = some set := by
  intro slot member
  obtain ⟨member, different⟩ := List.mem_filter.mp member
  simp [of_decide_eq_true different, held slot member]

/-- One step hands a set on as it is. -/
theorem Hold.step {session : Session} {slots : List String} {set : AdvertisingSet} (held : session.Hold slots set)
    (step : Step) : (session.step step).1.Hold (step.holders session slots) set := by
  cases step with
  | advertise slot settings data scanResponse name => exact hold_set_other held slot _
  | view slot => simpa [Step.holders] using held
  | copySet source target =>
    -- A copy of the set is one holder more, and a copy of another set may be one less.
    rw [Step.holders]
    split
    · rename_i copied
      intro slot member
      simp only [Session.step, held source copied]
      by_cases here : slot = target
      · simp [here]
      · simp [here, held slot ((List.mem_cons.mp member).resolve_left here)]
    · split
      · rename_i present
        obtain ⟨other, found⟩ := Option.isSome_iff_exists.mp present
        simp only [Session.step, found]
        exact hold_set_other held target (some other)
      · rename_i absent
        rw [Option.not_isSome_iff_eq_none] at absent
        simp only [Session.step, absent]
        exact held
  | _ => exact held

theorem Hold.run {session : Session} {slots : List String} {set : AdvertisingSet} (held : session.Hold slots set)
    (steps : List Step) : (session.run steps).1.Hold (session.holders slots steps) set := by
  induction steps generalizing session slots with
  | nil => exact held
  | cons step rest ih => exact ih (held.step step)

/-! ## What is shown -/

theorem view_of_sets {session : Session} {slot : String} {set : AdvertisingSet} (held : session.sets slot = some set) :
    (session.step (.view slot)).2 = .view (set.view session.configuration) ∧
      ∀ target, (session.step (.copySet slot target)).2 = .view (set.view session.configuration) := by
  simp only [Session.step, held, implies_true, and_self]

/-- A set that is made in a slot shows what it was made with, at once and after
    whatever steps follow, in every slot that still has the set or a copy of it.
    The interval is that of the configuration in force when it is shown. The slot
    itself has the set until a step puts another one there. -/
theorem view_run (session : Session) (slot settings data : String) (scanResponse : Option String) (name : Octets)
    (later : List Step) :
    let begun := session.step (.advertise slot settings data scanResponse name)
    let reached := (begun.1.run later).1
    let shown := AdvertisingSet.snapshot session.configuration (session.settings settings) (session.descriptions data)
      (scanResponse.map session.descriptions) name
    let inForce := (later.filterMap Step.configure?).foldl Configuration.change session.configuration
    (∃ log, begun.2 = .made (shown session.configuration) log) ∧
      (∀ holder ∈ begun.1.holders [slot] later, (reached.step (.view holder)).2 = .view (shown inForce) ∧
        ∀ target, (reached.step (.copySet holder target)).2 = .view (shown inForce)) ∧
      ((∀ step ∈ later, step.filled? ≠ some slot) → slot ∈ begun.1.holders [slot] later) := by
  intro begun reached shown inForce
  let made := AdvertisingSet.make session.configuration (session.settings settings) (session.descriptions data)
    (scanResponse.map session.descriptions) name
  refine ⟨⟨made.log, ?_⟩, ?_, mem_holders (List.mem_singleton.mpr rfl)⟩
  · exact congrArg (Answer.made · made.log) (AdvertisingSet.view_make ..)
  · intro holder member
    have first : begun.1.Hold [slot] made.set := by
      intro other member
      rw [List.mem_singleton.mp member]
      exact Slots.set_same ..
    have held : reached.sets holder = some made.set := first.run later holder member
    have current : reached.configuration = inForce := configuration_run begun.1 later
    have view := view_of_sets held
    rw [current, AdvertisingSet.view_make] at view
    exact view

/-- Every description includes the name, under a limit of three octets. -/
def prepared : Session where
  configuration := { nameMaximum := 3 }
  descriptions := fun _ => Description.build [.includeName true]
  settings := fun _ => { interval := .balanced }

def making : Step := .advertise "set" "plain" "beacon" none [0x41, 0x42, 0x43, 0x44]

/-- The set is copied, and then all that it was made from changes. -/
def upheaval : List Step :=
  [.copySet "set" "copy", .configure { nameMaximum := some 1, balancedMilliseconds := some 500 },
    .editSettings "plain" (.interval .lowLatency), .newDescription "beacon",
    .advertise "other" "plain" "beacon" none []]

/-- What the set shows before and after, but for the interval. -/
def unmoved (intervalUnits : Int64) : AdvertisingSet.View where
  data := [4, 0x08, 0x41, 0x42, 0x43]
  dataSize := 5
  scanData := []
  scanDataSize := 0
  dataField := [4, 0x08, 0x41, 0x42, 0x43]
  scanDataField := []
  hasScanResponse := false
  settings := { interval := .balanced }
  power := .middle
  eventProperties := .connectable
  intervalUnits := intervalUnits

theorem view_run_upheaval :
    (∃ log, (prepared.step making).2 = .made (unmoved 400) log) ∧
      (((prepared.step making).1.run upheaval).1.step (.view "set")).2 = .view (unmoved 800) ∧
      (((prepared.step making).1.run upheaval).1.step (.view "copy")).2 = .view (unmoved 800) := by
  obtain ⟨made, kept, stays⟩ := view_run prepared "set" "plain" "beacon" none [0x41, 0x42, 0x43, 0x44] upheaval
  have before : AdvertisingSet.snapshot prepared.configuration (prepared.settings "plain")
      (prepared.descriptions "beacon") none [0x41, 0x42, 0x43, 0x44] prepared.configuration = unmoved 400 := by
    decide +kernel
  have after : AdvertisingSet.snapshot prepared.configuration (prepared.settings "plain")
      (prepared.descriptions "beacon") none [0x41, 0x42, 0x43, 0x44]
      ((upheaval.filterMap Step.configure?).foldl Configuration.change prepared.configuration) = unmoved 800 := by
    decide +kernel
  have apart : ∀ step ∈ upheaval, step.filled? ≠ some "set" := by decide +kernel
  have copied : "copy" ∈ (prepared.step making).1.holders ["set"] upheaval := by decide +kernel
  refine ⟨?_, ?_, ?_⟩
  · rw [← before]
    exact made
  · rw [← after]
    exact (kept "set" (stays apart)).1
  · rw [← after]
    exact (kept "copy" copied).1

end Session
end BleAdvertising
