import SupplyGauge.Text.Digit
import SupplyGauge.Text.Quoted
/-! # Options of the command line

Words that begin with a dash are switches, and every other word is a path to a
settings file, of which there may be one. A long switch may be cut short as long as
one switch remains, short switches may be written together, and after two dashes
every word is a path. Two dashes joined to a switch as its value stand for no value.
Words are classified first, so an ambiguous switch is an error before anything else is
looked at. Where conventions differ, and in the wording of errors and of the help, the
option reader of release 3.11 is followed.
-/

namespace SupplyGauge.CommandLine

/-- What a switch asks for. -/
inductive Switch where
  | help
  | verbose
  | debug
  | quiet
  | logFile
  | noColor
  | validate
  | once
  | version
  deriving DecidableEq, Repr

def spellings : List (String × Switch) := [
  ("-h", .help), ("--help", .help), ("-v", .verbose), ("--verbose", .verbose),
  ("-d", .debug), ("--debug", .debug), ("-q", .quiet), ("--quiet", .quiet),
  ("--log-file", .logFile), ("--no-color", .noColor), ("--validate", .validate),
  ("--once", .once), ("--version", .version)]

def Switch.ofSpelling? (spelling : String) : Option Switch := spellings.lookup spelling

/-- All spellings of a switch as messages show them. -/
def Switch.title (s : Switch) : String :=
  String.intercalate "/" ((spellings.filter (·.2 = s)).map (·.1))

/-- Options of a run. -/
structure Options where
  config : Option String := none
  verbose : Bool := false
  debug : Bool := false
  quiet : Bool := false
  logFile : Option String := none
  noColor : Bool := false
  validate : Bool := false
  once : Bool := false
  deriving DecidableEq, Repr

/-- What a command line asks for. -/
inductive Request where
  | help
  | version
  | run (o : Options)
  deriving DecidableEq, Repr

/-- Why a command line cannot be understood. -/
inductive UsageError where
  | ambiguous (word : String) (candidates : List String)
  | missingValue (s : Switch)
  | unusedValue (s : Switch) (value : String)
  | unrecognized (words : List String)
  deriving DecidableEq, Repr

def UsageError.message : UsageError → String
  | .ambiguous word candidates =>
    let all := String.intercalate ", " candidates
    s!"ambiguous option: {word} could match {all}"
  | .missingValue s => s!"argument {s.title}: expected one argument"
  | .unusedValue s value =>
    s!"argument {s.title}: ignored explicit argument {Text.quoted value}"
  | .unrecognized words => "unrecognized arguments: " ++ String.intercalate " " words

/-- How a value is attached to a switch in one word. An equals sign after a short switch is no more
than a joint. -/
inductive Joint where
  | alone
  | equals (value : List Char)
  | direct (value : List Char)
  deriving DecidableEq, Repr

/-- What a word is: two dashes, a path, a known switch, or a switch that nobody knows. -/
inductive Word where
  | separator
  | plain (text : String)
  | known (s : Switch) (joint : Joint)
  | unknown (text : String)
  deriving DecidableEq, Repr

/-- The part of a word before an equals sign, and the part after it if there is one. -/
def splitEquals (word : List Char) : List Char × Option (List Char) :=
  (word.takeWhile (· != '='), match word.dropWhile (· != '=') with
    | _ :: value => some value
    | [] => none)

def isLong (spelling : List Char) : Bool := ['-', '-'].isPrefixOf spelling

/-- A value after an equals sign, if there is one. -/
def Joint.ofValue? : Option (List Char) → Joint
  | some value => .equals value
  | none => .alone

/-- Whether a word is a negative number; such words are no switches. -/
def isNegativeNumber (word : List Char) : Bool :=
  let text := if word.getLast? = some '\n' then word.dropLast else word
  match text with
  | '-' :: body =>
    let rest := body.dropWhile Text.isDigit
    match rest with
    | [] => !body.isEmpty
    | '.' :: places => !places.isEmpty && places.all Text.isDigit
    | _ => false
  | _ => false

/-- The switches that a word may stand for, with their spellings. -/
def candidates (word : List Char) : List (String × Word) :=
  if isLong word then
    let (start, value) := splitEquals word
    spellings.filterMap fun (spelling, s) =>
      if start.isPrefixOf spelling.toList then
        some (spelling, .known s (.ofValue? value))
      else none
  else
    spellings.filterMap fun (spelling, s) =>
      if spelling.toList = word.take 2 then
        some (spelling, .known s (.direct (word.drop 2)))
      else none

/-- What a word is, if no separator stands before it. -/
def Word.ofString (text : String) : Except UsageError Word :=
  let word := text.toList
  if word.head? ≠ some '-' then .ok (.plain text)
  else match Switch.ofSpelling? text with
    | some s => .ok (.known s .alone)
    | none =>
      if word.length = 1 then .ok (.plain text)
      else
        let (start, value) := splitEquals word
        match value, Switch.ofSpelling? (String.ofList start) with
        | some value, some s =>
          .ok (.known s (if isLong start then .equals value else .direct value))
        | _, _ =>
          match candidates word with
          | [(_, w)] => .ok w
          | [] =>
            if isNegativeNumber word || word.contains ' ' then .ok (.plain text)
            else .ok (.unknown text)
          | several => .error (.ambiguous text (several.map (·.1)))

/-- What the words are, up to a separator; after it all are paths. -/
def classify : List String → Except UsageError (List (String × Word))
  | [] => .ok []
  | "--" :: rest => .ok (("--", .separator) :: rest.map fun t => (t, .plain t))
  | t :: rest => do
    let w ← Word.ofString t
    let later ← classify rest
    return (t, w) :: later

/-- The short switches of a word that goes on after a first one; every letter has to be one. -/
def cluster (s : Switch) : List Char → Except UsageError (List Switch)
  | [] => .ok [s]
  | c :: rest =>
    match Switch.ofSpelling? (String.ofList ['-', c]) with
    | none => .error (.unusedValue s (String.ofList (c :: rest)))
    | some next => do return s :: (← cluster next rest)

/-- The switches of one word that need no value. -/
def switchesOf (s : Switch) : Joint → Except UsageError (List Switch)
  | .alone => .ok [s]
  | .equals value => .error (.unusedValue s (String.ofList value))
  | .direct [] => .error (.unusedValue s "")
  | .direct value => cluster s value

/-- Options so far, whether there has been a path, and words that nobody can use. -/
structure Reading where
  options : Options := {}
  hasConfig : Bool := false
  unused : List String := []

/-- Options with one more switch, or a request that comes before everything else. -/
def Options.apply (o : Options) : Switch → Except Request Options
  | .help => .error .help
  | .version => .error .version
  | .verbose => .ok { o with verbose := true }
  | .debug => .ok { o with debug := true }
  | .quiet => .ok { o with quiet := true }
  | .noColor => .ok { o with noColor := true }
  | .validate => .ok { o with validate := true }
  | .once => .ok { o with once := true }
  | .logFile => .ok o

/-- A reading with one more path; there is room for one. -/
def Reading.path (r : Reading) (text : String) : Reading :=
  if r.hasConfig then { r with unused := r.unused ++ [text] }
  else { r with hasConfig := true, options := { r.options with config := some text } }

/-- A reading with a word that nobody can use. -/
def Reading.leave (r : Reading) (text : String) : Reading :=
  { r with unused := r.unused ++ [text] }

/-- Reads what stands at the end, after the last switch. A separator next to the path belongs to
it. -/
def Reading.tail (r : Reading) (words : List (String × Word)) : Reading :=
  let leaveAll (r : Reading) (words : List (String × Word)) : Reading :=
    { r with unused := r.unused ++ words.map (·.1) }
  if r.hasConfig then leaveAll r words
  else match words with
    | (_, .separator) :: (t, .plain _) :: rest => leaveAll (r.path t) rest
    | (_, .separator) :: rest => leaveAll r rest
    | (t, .plain _) :: (_, .separator) :: rest => leaveAll (r.path t) rest
    | (t, .plain _) :: rest => leaveAll (r.path t) rest
    | rest => leaveAll r rest

def Word.isSwitch : Word → Bool
  | .known .. | .unknown _ => true
  | _ => false

def Reading.go (r : Reading) : List (String × Word) → Except UsageError Request
  | [] =>
    if r.unused.isEmpty then .ok (.run r.options) else .error (.unrecognized r.unused)
  | (t, w) :: rest =>
    if (w :: rest.map (·.2)).any Word.isSwitch then
      match w with
      | .known .logFile (.equals value) =>
        let logFile := if value = ['-', '-'] then none else some (String.ofList value)
        Reading.go { r with options := { r.options with logFile } } rest
      | .known .logFile _ =>
        match rest with
        | (value, .plain _) :: rest =>
          Reading.go { r with options := { r.options with logFile := some value } } rest
        | _ => .error (.missingValue .logFile)
      | .known s joint => do
        match (← switchesOf s joint).foldlM Options.apply r.options with
        | .error request => .ok request
        | .ok options => Reading.go { r with options } rest
      | .unknown _ => Reading.go (r.leave t) rest
      | _ => Reading.go (r.path t) rest
    else
      let r := r.tail ((t, w) :: rest)
      if r.unused.isEmpty then .ok (.run r.options) else .error (.unrecognized r.unused)

def Request.ofWords (words : List String) : Except UsageError Request := do
  Reading.go {} (← classify words)

end SupplyGauge.CommandLine
