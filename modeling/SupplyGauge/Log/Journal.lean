import SupplyGauge.Log.LogFile
import SupplyGauge.Log.Setup
/-! # The journal

The journal takes entries and writes them to its sinks, the console and possibly a
file. An entry is taken if its severity reaches the level of its component, which is
that of the nearest component above it that has one, and written by every sink whose
own level it reaches. Without a sink, warnings and worse are still shown on the
console, as bare messages.
-/

namespace SupplyGauge.Log

open Files (Path Tree)

/-- A console that lines are written to. -/
structure Console where
  level : Severity
  template : Template
  finish : Finish

/-- A place that entries are written to. -/
inductive Sink where
  | console (c : Console)
  | file (f : LogFile)

/-- Sinks, and the levels of components. -/
structure Journal where
  sinks : List Sink := []
  levels : List (String × Severity) := []

/-- What the sinks write on: the console's text and the files. -/
structure Paper where
  console : String := ""
  files : Tree

/-- Why a setup cannot be used. -/
inductive SetupError where
  | template (e : TemplateError)
  | pathNotText (typeName : String)
  | file (f : Files.Failure)
  deriving DecidableEq

def SetupError.message : SetupError → String
  | .template e => e.message
  | .pathNotText typeName => s!"expected str, bytes or os.PathLike object, not {typeName}"
  | .file f => f.message

def Paper.print (p : Paper) (line : String) : Paper :=
  { p with console := p.console ++ line ++ "\n" }

/-- Writes an entry if it reaches the level of a sink. An entry for which the template has no
line is left out. -/
def Sink.write (s : Sink) (stamp : Stamp) (e : Entry) (p : Paper) : Sink × Paper :=
  match s with
  | .console c =>
    if c.level ≤ e.severity then
      match e.line c.template c.finish stamp with
      | .ok line => (s, p.print line)
      | .error _ => (s, p)
    else (s, p)
  | .file f =>
    if f.level ≤ e.severity then
      match e.line f.template .padded stamp with
      | .ok line =>
        let (f, files) := f.append line p.files
        (.file f, { p with files })
      | .error _ => (s, p)
    else (s, p)

/-- Puts what a sink has gathered into the file tree. -/
def Sink.flush (s : Sink) (files : Tree) : Sink × Tree :=
  match s with
  | .console _ => (s, files)
  | .file f =>
    let (f, files) := f.flush files
    (.file f, files)

/-- A sink after a change of the file tree from outside. -/
def Sink.afterChange (files : Tree) : Sink → Sink
  | .console c => .console c
  | .file f => .file (f.afterChange files)

/-- Lets every sink do something in turn. -/
def throughSinks {σ : Type} (f : Sink → σ → Sink × σ) : List Sink → σ → List Sink × σ
  | [], x => ([], x)
  | s :: rest, x =>
    let (s, x) := f s x
    let (rest, x) := throughSinks f rest x
    (s :: rest, x)

/-- A component and the components above it, nearest first. -/
def lineage (component : List Char) : List (List Char) :=
  let rec above : List Char → List (List Char)
    | [] => []
    | c :: rest => if c = '.' then rest.reverse :: above rest else above rest
  component :: above component.reverse

/-- Whether a component is the root or below it. -/
def isBelowRoot (component : String) : Bool :=
  (lineage component.toList).contains rootComponent.toList

namespace Journal

def level? (j : Journal) (component : String) : Option Severity :=
  j.levels.lookup component

def setLevel (j : Journal) (component : String) (level : Severity) : Journal :=
  { j with levels := (component, level) :: j.levels.filter (·.1 != component) }

/-- The level that an entry of a component has to reach. -/
def levelOf (j : Journal) (component : String) : Severity :=
  ((lineage component.toList).findSome? fun c => j.level? (String.ofList c)).getD Severity.warning

/-- The console of last resort, which is there when no sink is. -/
def lastResort : Sink := .console ⟨.warning, .bare, .plain⟩

/-- Takes an entry. One of a component that is not below the root, or one that finds no sink, goes
to the last resort. -/
def record (j : Journal) (stamp : Stamp) (e : Entry) (p : Paper) : Journal × Paper :=
  let full := { e with component := componentPath e.component }
  if j.levelOf full.component ≤ full.severity then
    if isBelowRoot full.component && !j.sinks.isEmpty then
      let (sinks, p) := throughSinks (fun s p => s.write stamp full p) j.sinks p
      ({ j with sinks }, p)
    else (j, (lastResort.write stamp full p).2)
  else (j, p)

/-- Takes entries in order. What files have gathered is put into the tree at the end. -/
def recordAll (j : Journal) (stamp : Stamp) (entries : List Entry) (p : Paper) :
    Journal × Paper :=
  let (j, p) := entries.foldl (fun (j, p) e => j.record stamp e p) (j, p)
  let (sinks, files) := throughSinks Sink.flush j.sinks p.files
  ({ j with sinks }, { p with files })

/-- The journal after a change of the file tree from outside. -/
def afterChange (j : Journal) (files : Tree) : Journal :=
  { j with sinks := j.sinks.map (Sink.afterChange files) }

/-- The path of a file without `..`, from the root. -/
def absolute (files : Tree) (path : Path) : Path :=
  let start := match path.anchor with
    | .relative => files.home ++ path.names
    | _ => path.names
  let anchor := if path.anchor = .doubleRoot then Files.Anchor.doubleRoot else .root
  ⟨anchor, start.foldl (fun names n => if n = ".." then names.dropLast else names ++ [n]) []⟩

/-- The file that a setup describes, opened, and the files after that. Directories on the way
are made even if the file cannot be opened. -/
def openFile (s : Setup) (template : Template) (files : Tree) :
    Except SetupError LogFile × Tree :=
  match s.filePath with
  | .text text =>
    let path := Path.ofString text
    match files.ensureDirectory path.parent with
    | .error f => (.error (.file f), files)
    | .ok files =>
      let f : LogFile := {
        path := absolute files path
        level := .ofWord s.fileLevel
        template
        limit := s.fileLimit
        keep := s.fileKeep }
      match f.open_ files with
      | .error f => (.error (.file f), files)
      | .ok (f, files) => (.ok f, files)
  | v => (.error (.pathNotText v.typeName), files)

def console (s : Setup) (template : Template) (isTerminal : Bool) : Console :=
  ⟨.ofWord s.consoleLevel, template,
    if s.consoleColors && isTerminal then .painted else .plain⟩

/-- Other programs' components that only report warnings and worse. -/
def quietComponents : List String := ["aiomqtt", "paho"]

/-- Sets the levels that a setup gives to components, and those of the quiet ones. -/
def setLevels (j : Journal) (s : Setup) : Journal :=
  let j := (s.componentLevels.getD []).foldl
    (fun j (component, word) => j.setLevel (componentPath component) (.ofWord word)) j
  quietComponents.foldl (fun j c => j.setLevel c .warning) j

/-- Uses a setup. The sinks of the setup before are dropped first, so that a setup that fails
leaves those sinks that it came to. -/
def setUp (j : Journal) (s : Setup) (isTerminal : Bool) (files : Tree) :
    Except SetupError Unit × Journal × Tree :=
  let j := { j.setLevel rootComponent .debug with sinks := [] }
  match Template.ofScalar s.format with
  | .error e => (.error (.template e), j, files)
  | .ok template =>
    let j := { j with sinks := [.console (console s template isTerminal)] }
    if s.fileEnabled then
      match openFile s template files with
      | (.error e, files) => (.error e, j, files)
      | (.ok f, files) => (.ok (), { j with sinks := j.sinks ++ [Sink.file f] }.setLevels s, files)
    else (.ok (), j.setLevels s, files)

end Journal

end SupplyGauge.Log
