import SupplyGauge.Files.Path
import SupplyGauge.Json.Value
/-! # Samples

One collection cycle yields gauge samples. A sample is a value of one attribute of
one device, described by a metric name and labelled by the device's descriptor.
Samples are written as exposition lines and as JSON payloads.
-/

namespace SupplyGauge.Metric

/-- The label names, in the order in which they are written. -/
def labelNames : List String :=
  ["chargeFullDesign", "model", "tech", "type", "serial", "voltageMinDesign"]

/-- The texts that label every sample of a device. -/
structure Descriptor where
  chargeFullDesign : String := ""
  model : String := ""
  technology : String := ""
  type : String := ""
  serial : String := ""
  voltageMinDesign : String := ""
  deriving DecidableEq, Repr

/-- Label values in the order of the label names. -/
def Descriptor.values (d : Descriptor) : List String :=
  [d.chargeFullDesign, d.model, d.technology, d.type, d.serial, d.voltageMinDesign]

def Descriptor.labels (d : Descriptor) : List (String × String) := labelNames.zip d.values

/-- Name, help text and label names of a gauge. -/
structure Description where
  name : String
  help : String
  labelNames : List String := Metric.labelNames
  deriving DecidableEq, Repr

/-- Parts of a metric name joined by underscores, empty parts left out. -/
def qualifiedName (parts : List String) : String :=
  String.intercalate "_" (parts.filter (· ≠ ""))

/-- One gauge value of one device. The device's path serves for routing only. -/
structure Sample where
  description : Description
  value : Binary64
  descriptor : Descriptor
  device : Option Files.Path := none
  deriving DecidableEq

/-- Name of the sample's device, empty if it has none. -/
def Sample.deviceName (s : Sample) : String := (s.device.map Files.Path.name).getD ""

/-- One character of a label value: backslash, line feed and double quote are escaped. -/
def escapeLabelChar (c : Char) : List Char :=
  if c = '\\' then ['\\', '\\']
  else if c = '\n' then ['\\', 'n']
  else if c = '"' then ['\\', '"']
  else [c]

def quoteLabel (value : String) : List Char :=
  '"' :: (value.toList.flatMap escapeLabelChar ++ ['"'])

def labelText (label : String × String) : List Char :=
  label.1.toList ++ '=' :: quoteLabel label.2

def labelsText : List (String × String) → List Char
  | [] => []
  | [l] => labelText l
  | l :: rest => labelText l ++ ',' :: labelsText rest

/-- A sample value; whole numbers are written without a fraction. -/
def valueText (x : Binary64) : String :=
  match x with
  | .nan => "NaN"
  | .infinite true => "-Inf"
  | .infinite false => "+Inf"
  | x =>
    match x.integer? with
    | some n => String.ofList (Decimal.ofInt n)
    | none => x.text .plain

def Sample.line (s : Sample) : String :=
  String.ofList (s.description.name.toList ++
    '\x7b' :: (labelsText (s.description.labelNames.zip s.descriptor.values) ++
      ['\x7d', ' '])) ++ valueText s.value

def Sample.payload (s : Sample) : Json.Value :=
  .object [("value", .real s.value),
    ("labels", .object (s.descriptor.labels.map fun (name, text) => (name, .text text)))]

end SupplyGauge.Metric
