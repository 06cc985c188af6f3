/-! # Log entries

A log entry has a severity, the component that reports it, and a message; an entry
about an unexpected failure is followed by a trace of it. Severities are numbers;
five of them and zero have names. Components form a tree below one root, and their
names carry the path in it.
-/

namespace SupplyGauge.Log

abbrev Severity := Int

namespace Severity

/-- Details for finding errors. -/
def debug : Severity := 10

/-- Normal operation. -/
def info : Severity := 20

/-- Something unexpected that does not stop the work. -/
def warning : Severity := 30

/-- A failure. -/
def error : Severity := 40

/-- A failure that ends the program. -/
def critical : Severity := 50

def name (s : Severity) : String :=
  if s = debug then "DEBUG"
  else if s = info then "INFO"
  else if s = warning then "WARNING"
  else if s = error then "ERROR"
  else if s = critical then "CRITICAL"
  else if s = 0 then "NOTSET"
  else s!"Level {s}"

/-- The severity that a word in lower case stands for; other words stand for `info`. -/
def ofLowerWord : String → Severity
  | "debug" => debug
  | "info" => info
  | "warning" | "warn" => warning
  | "error" => error
  | "critical" => critical
  | _ => info

end Severity

def rootComponent : String := "power_supply_metrics"

/-- The full name of a component: names below the root are completed, names that begin with the
root's name are taken as they are. -/
def componentPath (component : String) : String :=
  if rootComponent.toList.isPrefixOf component.toList then component
  else s!"{rootComponent}.{component}"

/-- A message reported by a component. -/
structure Entry where
  severity : Severity
  component : String
  message : String
  traced : Bool := false
  deriving DecidableEq, Repr

def note (severity : Severity) (component message : String) : Entry :=
  ⟨severity, component, message, false⟩

end SupplyGauge.Log
