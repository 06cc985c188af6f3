import SupplyGauge.Config.Settings
import SupplyGauge.Log.Entry
import SupplyGauge.Metric.Sample
import SupplyGauge.Supply.Device
import SupplyGauge.Supply.Vocabulary
/-! # Collection cycles

A cycle lists the devices, leaves out those that the exclusion test picks, and
reads eleven attributes and six labels of each. A label that cannot be read is
empty and a number that cannot be read is zero, so only a class that cannot be
listed makes a cycle fail. A failed cycle has an error and starts without samples.
-/

namespace SupplyGauge.Supply

open Files (Path Tree)
open SupplyGauge.Metric (Descriptor Description Sample)

/-- An attribute that is reported as a gauge. -/
structure Attribute where
  name : String
  help : String
  category : Option Category := none

/-- The reported attributes in the order of their samples. -/
def attributes : List Attribute := [
  { name := "alarm", help := "Alarm state." },
  { name := "charge_full", help := "Maximum charge in µAh." },
  { name := "charge_now", help := "Charge in µAh." },
  { name := "charge_type", help := "Charge category.", category := some .chargeType },
  { name := "current_now", help := "Current in µA." },
  { name := "cycle_count", help := "Cycles on supply." },
  { name := "health", help := "Health state.", category := some .health },
  { name := "online", help := "Device online." },
  { name := "present", help := "Device present." },
  { name := "status", help := "Status.", category := some .status },
  { name := "voltage_now", help := "Supply voltage in µV." }]

def subsystem : String := "power_supply"

def component : String := "collectors.power_supply"

def Attribute.description (namespace_ : String) (a : Attribute) : Description :=
  { name := Metric.qualifiedName [namespace_, subsystem, a.name], help := a.help }

/-- What a cycle gave: samples, and an error if it failed. -/
structure Result where
  samples : List Sample := []
  error : Option String := none

namespace Result

def available (r : Result) : Bool := r.error.isNone

def state (r : Result) : String := if r.available then "online" else "error"

def extend (r : Result) (samples : List Sample) : Result :=
  { r with samples := r.samples ++ samples }

/-- Marks the cycle as failed, which drops its samples. -/
def fail (_ : Result) (error : String) : Result := ⟨[], some error⟩

def summary (r : Result) : String :=
  let status := match r.error with
    | none => "OK"
    | some error => s!"ERROR: {error}"
  s!"CollectorResult({r.samples.length} records, state={r.state}, {status})"

end Result

/-- A collector of power supply readings. `excluded` tests texts: the path of a device, and its
name. -/
structure Collector where
  settings : Config.SupplySettings
  excluded : String → Bool

namespace Collector

/-- The collector that settings describe, if their exclusion pattern can be read. -/
def ofSettings (s : Config.SupplySettings) : Except Pattern.Error Collector := do
  let pattern ← Pattern.ofText s.ignoredDevices
  return ⟨s, pattern.search⟩

def root (c : Collector) : Path := .ofString c.settings.sysfs

def summary (c : Collector) : String :=
  s!"PowerSupplyCollector({Text.quoted c.settings.name}, {c.settings.updateInterval.text .plain}s)"

/-- Whether a device is left out: the test picks its path or its name. -/
def ignores (excluded : String → Bool) (device : Path) : Bool :=
  excluded device.toString || excluded device.name

/-- A label: the first line of its file, or nothing. -/
def label (files : Tree) (device : Path) (name : String) : Except Files.Failure String := do
  return (← attempt (readText files device name)).toOption.getD ""

/-- A number: the value of its file, or zero. -/
def number (files : Tree) (device : Path) (name : String) : Except Files.Failure Binary64 := do
  return (← attempt (readNumber files device name)).toOption.getD .zero

def descriptor (files : Tree) (device : Path) : Except Files.Failure Descriptor := do
  return {
    chargeFullDesign := ← label files device "charge_full_design"
    model := ← label files device "model_name"
    technology := ← label files device "technology"
    type := ← label files device "type"
    serial := ← label files device "serial_number"
    voltageMinDesign := ← label files device "voltage_min_design" }

/-- The gauge value of an attribute: a code for categories, a number otherwise. -/
def value (files : Tree) (device : Path) (a : Attribute) : Except Files.Failure Binary64 :=
  match a.category with
  | some k => do return k.code (← label files device a.name)
  | none => number files device a.name

def collectDevice (c : Collector) (files : Tree) (device : Path) :
    Except Files.Failure (List Sample) := do
  let labels ← descriptor files device
  attributes.mapM fun a => do
    return {
      description := a.description c.settings.namespace_
      value := ← value files device a
      descriptor := labels
      device := some device }

/-- The samples of devices in order, with a report of those left out. -/
def collectDevices (c : Collector) (files : Tree) :
    List Path → List Log.Entry × Except Fault (List Sample)
  | [] => ([], .ok [])
  | device :: rest =>
    if ignores c.excluded device then
      let (log, later) := c.collectDevices files rest
      (Log.note .debug component s!"Ignoring device: {device.toString}" :: log, later)
    else match c.collectDevice files device with
      | .error f => ([], .error (.system f))
      | .ok samples =>
        let (log, later) := c.collectDevices files rest
        (log, later.map (samples ++ ·))

/-- One cycle that may fail, with its report. -/
def collect (c : Collector) (files : Tree) : List Log.Entry × Except Fault Result :=
  match devices files c.root with
  | .error f => ([], .error f)
  | .ok found =>
    match c.collectDevices files found with
    | (log, .error f) => (log, .error f)
    | (log, .ok samples) =>
      let report := s!"Collected {samples.length} records from {found.length} devices"
      (log ++ [Log.note .debug component report], .ok { samples })

/-- One cycle whose failure is part of the result. -/
def safeCollect (c : Collector) (files : Tree) : List Log.Entry × Result :=
  match c.collect files with
  | (log, .ok r) => (log, r)
  | (log, .error f) => (log, Result.fail {} f.message)

end Collector

end SupplyGauge.Supply
