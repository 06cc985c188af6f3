import SupplyGauge.Config.Parser
import SupplyGauge.Config.Settings
import SupplyGauge.Files.Tree
import SupplyGauge.Text.Line
/-! # Loading settings

A loader reads settings from a text or a file and keeps the latest document that
could be parsed, also when its values were refused. Warnings about a document
name every construct that loading does not use.
-/

namespace SupplyGauge.Config

/-- Why settings cannot be loaded. -/
inductive LoadError where
  | notFound (path : String)
  | notFile (path : String)
  | syntax_ (e : SyntaxError)
  | invalid (e : SettingsError)
  | undecodable (f : Utf8.Failure)
  | unreadable (f : Files.Failure)
  deriving DecidableEq

/-- Whether an error counts as an error of the configuration. Numbers out of range, numerals
that cannot be read and files that cannot be decoded or looked up do not. -/
def LoadError.isConfiguration : LoadError → Bool
  | .notFound _ | .notFile _ => true
  | .syntax_ (.lexical ⟨.badNumber _, _⟩) => false
  | .syntax_ _ => true
  | .invalid e => !e.isOutOfRange
  | .undecodable _ | .unreadable _ => false

def LoadError.message : LoadError → String
  | .notFound path => s!"Configuration file not found: {path}"
  | .notFile path => s!"Not a file: {path}"
  | .syntax_ (.lexical ⟨.badNumber fault, _⟩) => fault.message
  | .syntax_ e => s!"Failed to parse configuration: {e.message}"
  | .invalid e => if e.isOutOfRange then e.message else s!"Invalid configuration: {e.message}"
  | .undecodable f => f.message
  | .unreadable f => f.message

/-- Something in a document or in settings that deserves attention. -/
inductive Warning where
  | unknownBlock (type : String) (line : Nat)
  | repeatedBlock (type : String) (line : Nat)
  | unknownDirective (name type : String) (line : Nat)
  | nestedBlock (nested type : String) (line : Nat)
  | strayDirective (name : String) (line : Nat)
  | noHost
  | emptyPattern
  deriving DecidableEq, Repr

def Warning.message : Warning → String
  | .unknownBlock type line => s!"Unknown block '{type}' (line {line})"
  | .repeatedBlock type line => s!"Duplicate '{type}' block (line {line}) is ignored"
  | .unknownDirective name type line =>
    s!"Unknown directive '{name}' in {type} block (line {line})"
  | .nestedBlock nested type line =>
    s!"Unexpected nested block '{nested}' in {type} block (line {line})"
  | .strayDirective name line => s!"Unknown top-level directive '{name}' (line {line})"
  | .noHost => "MQTT host is not configured"
  | .emptyPattern => "ignored_devices is empty; every device path matches it"

def knownDirectives? : String → Option (List String)
  | "mqtt" => some ["host", "port", "username", "password", "client_id", "topic_prefix", "qos",
      "retain", "keepalive"]
  | "logging" => some ["level", "file", "file_level", "file_max_size", "file_keep", "colors",
      "format"]
  | "power_supply" => some ["sysfs", "namespace", "ignored_devices", "update_interval"]
  | _ => none

/-- Warnings about one block, given the section types before it. -/
def Block.warnings (b : Block) (seen : List String) : List Warning :=
  match knownDirectives? b.type with
  | none => [.unknownBlock b.type b.line]
  | some known =>
    (if seen.contains b.type then [.repeatedBlock b.type b.line] else []) ++
    (b.directives.filter (!known.contains ·.name)).map
      (fun d => .unknownDirective d.name b.type d.line) ++
    b.blocks.map (fun n => .nestedBlock n.type b.type n.line)

def blockWarnings : List Block → List String → List Warning
  | [], _ => []
  | b :: rest, seen => b.warnings seen ++ blockWarnings rest (b.type :: seen)

/-- Warnings about everything in a document that loading does not use. -/
def Document.warnings (d : Document) : List Warning :=
  blockWarnings d.blocks [] ++ d.directives.map fun s => .strayDirective s.name s.line

/-- Warnings about settings, wherever they came from. -/
def Settings.warnings (s : Settings) : List Warning :=
  (if s.mqtt.host.isSet then [] else [.noHost]) ++
  (if s.supply.ignoredDevices.isEmpty then [.emptyPattern] else [])

/-- A loader and the latest document it has parsed. -/
structure Loader where
  document : Option Document

namespace Loader

def fresh : Loader := ⟨none⟩

/-- Takes over what parsing gave and turns it into settings. -/
def accept (l : Loader) : Except SyntaxError Document → Except LoadError Settings × Loader
  | .error e => (.error (.syntax_ e), l)
  | .ok d => ((Settings.ofDocument d).mapError .invalid, ⟨some d⟩)

def loadText (l : Loader) (text filename : String) : Except LoadError Settings × Loader :=
  l.accept (Document.ofText filename text.toList)

def readFile (files : Files.Tree) (path : Files.Path) : Except LoadError (List Char) := do
  unless ← (files.pathExists path).mapError .unreadable do throw (.notFound path.toString)
  unless ← (files.isFile path).mapError .unreadable do throw (.notFile path.toString)
  let bytes ← (files.read path).mapError .unreadable
  let text ← (Utf8.decode bytes).mapError .undecodable
  return Text.unifyLineEnds text

def loadFile (l : Loader) (files : Files.Tree) (path : Files.Path) :
    Except LoadError Settings × Loader :=
  match readFile files path with
  | .error e => (.error e, l)
  | .ok text => l.accept (Document.ofText path.toString text)

def validate (l : Loader) (s : Settings) : List Warning :=
  ((l.document.map Document.warnings).getD []) ++ s.warnings

end Loader

end SupplyGauge.Config
