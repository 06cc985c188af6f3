import SupplyGauge.Files.Tree
import SupplyGauge.Number.Numeral
import SupplyGauge.Text.Line
/-! # Devices and their attribute files

Devices are the numbered directories of the power supply class, and each attribute
is a file whose first line is its value. A device class that cannot be listed, an
attribute that cannot be read and a value that is no number are errors of their
own; a failure of the system in any other place is passed on as it is.
-/

namespace SupplyGauge.Supply

open Files (Path Tree)

/-- Errors of the device class and of attribute files. -/
inductive AccessError where
  | unlisted (path : Path) (cause : Files.Failure)
  | unreadable (path : Path) (cause : Files.Failure)
  | empty (path : Path)
  | malformed (text : String) (path : Path)
  deriving DecidableEq

def AccessError.message : AccessError → String
  | .unlisted path cause => s!"couldn't list {path.toString}: {cause.message}"
  | .unreadable path cause => s!"couldn't read {path.toString}: {cause.message}"
  | .empty path => s!"empty attribute {path.toString}"
  | .malformed text path => s!"invalid number {Text.quoted text} in {path.toString}"

def AccessError.path : AccessError → Path
  | .unlisted path _ | .unreadable path _ | .empty path | .malformed _ path => path

/-- A failed access: an error that callers handle, or a failure of the system in a place where
nobody expects it. -/
inductive Fault where
  | access (e : AccessError)
  | system (f : Files.Failure)
  deriving DecidableEq

def Fault.message : Fault → String
  | .access e => e.message
  | .system f => f.message

/-- The device class below the mount point of the attribute tree. -/
def classDirectory (root : Path) : Path := root.join ⟨.relative, ["class", "power_supply"]⟩

/-- Whether a name is the name of a numbered device. -/
def isNumbered (name : String) : Bool := name.toList.any fun c => '0' ≤ c && c ≤ '9'

/-- Whether a name comes before another one or is equal to it, by code points. -/
def nameLe (a b : String) : Bool := !decide (b < a)

/-- The device directories of the class in the order of their names. -/
def devices (files : Tree) (root : Path) : Except Fault (List Path) := do
  let directory := classDirectory root
  let names ← match files.list directory with
    | .ok names => pure names
    | .error .embeddedNul => throw (.system .embeddedNul)
    | .error cause => throw (.access (.unlisted directory cause))
  let numbered := ((names.mergeSort nameLe).filter isNumbered).map directory.child
  numbered.filterM fun device => (files.isDirectory device).mapError .system

def readText (files : Tree) (device : Path) (name : String) : Except Fault String := do
  let path := device.join (.ofString name)
  let bytes ← match files.read path with
    | .ok bytes => pure bytes
    | .error .embeddedNul => throw (.system .embeddedNul)
    | .error cause => throw (.access (.unreadable path cause))
  match Text.firstLine (Utf8.decodeLenient bytes) with
  | [] => throw (.access (.empty path))
  | line => return String.ofList line

/-- Whether a text is a bare numeral: without padding and without digit separators. -/
def isBare (text : String) : Bool :=
  Text.trim Text.isBlank text.toList == text.toList && !text.toList.contains '_'

/-- The number on the first line of an attribute file. -/
def readNumber (files : Tree) (device : Path) (name : String) : Except Fault Binary64 := do
  let text ← readText files device name
  let malformed := Fault.access (.malformed text (device.join (.ofString name)))
  if isBare text then (Numeral.real text).mapError fun _ => malformed
  else throw malformed

/-- A reading in which errors of attribute files are a result like any other. -/
def attempt {α : Type} : Except Fault α → Except Files.Failure (Except AccessError α)
  | .ok a => .ok (.ok a)
  | .error (.access e) => .ok (.error e)
  | .error (.system f) => .error f

end SupplyGauge.Supply
