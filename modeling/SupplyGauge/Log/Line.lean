import SupplyGauge.Log.Entry
import SupplyGauge.Log.Template
import SupplyGauge.Text.LetterCase
/-! # Log lines

The line of an entry is its template filled in. The name of the severity may be
padded to a fixed width, and on a terminal it is painted, together with the
component when a word of its name has a color.
-/

namespace SupplyGauge.Log

/-- What a line shows of the moment it is written: the time, and the trace of a failure. -/
structure Stamp where
  time : String
  trace : String

/-- How the severity and the component are shown. -/
inductive Finish where
  | plain
  | padded
  | painted
  deriving DecidableEq, Repr

/-- A terminal sequence that selects a style. -/
def style (code : Nat) : String := s!"\x1b[{code}m"

def unstyled : String := style 0

/-- Style of a severity; only the five named severities have one. -/
def Severity.style (s : Severity) : String :=
  if s = debug then Log.style 2 ++ Log.style 36
  else if s = info then Log.style 32
  else if s = warning then Log.style 33
  else if s = error then Log.style 31
  else if s = critical then Log.style 1 ++ Log.style 91
  else ""

/-- Words in component names and the styles they select; the first word found decides. -/
def componentStyles : List (String × String) :=
  [("config", style 35), ("mqtt", style 34), ("collector", style 36), ("app", style 32)]

def occurs (part : List Char) : List Char → Bool
  | [] => part.isEmpty
  | c :: rest => part.isPrefixOf (c :: rest) || occurs part rest

def paintComponent (component : String) : String :=
  let lower := (Text.lowerAscii component).toList
  match componentStyles.find? fun (word, _) => occurs word.toList lower with
  | some (_, style) => style ++ component ++ unstyled
  | none => component

def severityWidth : Nat := 8

/-- The name of a severity, filled with spaces. -/
def Severity.padded (s : Severity) : String :=
  s.name ++ String.ofList (List.replicate (severityWidth - s.name.length) ' ')

def Finish.severity (f : Finish) (s : Severity) : String :=
  match f with
  | .plain => s.name
  | .padded => s.padded
  | .painted => s.style ++ s.padded ++ unstyled

def Finish.component (f : Finish) (component : String) : String :=
  match f with
  | .painted => paintComponent component
  | _ => component

/-- The fields of an entry. Entries do not know the place in the program that reports them, and
of the moment and the running program only what kind of number tells it. -/
def Entry.field? (e : Entry) (f : Finish) (stamp : Stamp) : String → Option FieldValue
  | "name" => some (.text (f.component e.component))
  | "levelname" => some (.text (f.severity e.severity))
  | "levelno" => some (.number e.severity)
  | "message" | "msg" => some (.text e.message)
  | "asctime" => some (.text stamp.time)
  | "args" => some (.other "tuple" "()")
  | "threadName" => some (.text "MainThread")
  | "processName" => some (.text "MainProcess")
  | "pathname" | "filename" | "module" => some (.text "")
  | "lineno" => some (.number 0)
  | "created" | "msecs" | "relativeCreated" => some (.other "float" "")
  | "thread" | "process" => some (.other "int" "")
  | "funcName" | "exc_info" | "exc_text" | "stack_info" => some .unset
  | _ => none

/-- All fields of an entry together, as far as they do not depend on the moment. -/
def Entry.allFields (e : Entry) (f : Finish) : FieldValue :=
  let name := Text.quoted (f.component e.component)
  let level := Text.quoted (f.severity e.severity)
  let fields := [s!"'name': {name}", s!"'msg': {Text.quoted e.message}", "'args': ()",
    s!"'levelname': {level}", s!"'levelno': {e.severity}", "'pathname': ''", "'filename': ''",
    "'module': ''", "'exc_info': None", "'exc_text': None", "'stack_info': None",
    "'lineno': 0", "'funcName': None", "'created': "]
  .other "dict" ("\x7b" ++ String.intercalate ", " fields)

/-- A line followed by the trace of a failure on lines of its own. -/
def withTrace (line trace : String) : String :=
  if line.toList.getLast? = some '\n' then line ++ trace else line ++ "\n" ++ trace

/-- The line of an entry, without the line feed at its end. -/
def Entry.line (e : Entry) (t : Template) (f : Finish) (stamp : Stamp) :
    Except FieldFault String := do
  let line ← t.write (e.allFields f) (e.field? f stamp)
  return if e.traced then withTrace line stamp.trace else line

end SupplyGauge.Log
