import SupplyGauge.Files.Path
import SupplyGauge.Text.Utf8
/-! # File trees

A tree assigns files, directories and symbolic links to locations, a location
being the list of names from the root. Looking up a path follows links, at most
forty of them, and fails as the system does. Reading, listing, making and
removing are defined through the look-up. Names are texts, everybody may do
everything, and devices do not fail: names that are not UTF-8, permissions, and
errors of input and output are left out.
-/

namespace SupplyGauge.Files

/-- Names from the root to an entry. -/
abbrev Location := List String

/-- What a location holds. Contents can always be read. -/
inductive Node where
  | file (content : List UInt8)
  | directory
  | link (target : String)
  deriving DecidableEq

/-- Files, directories and links by location, and the working directory. The root is always a
directory. -/
structure Tree where
  nodes : List (Location × Node)
  home : Location

/-- Why the system refuses an operation. A lack of permission and a failing device are not among the
causes. -/
inductive Cause where
  | notFound
  | exists_
  | notDirectory
  | isDirectory
  | nameTooLong
  | tooManyLinks
  deriving DecidableEq, Repr

def Cause.number : Cause → Nat
  | .notFound => 2
  | .exists_ => 17
  | .notDirectory => 20
  | .isDirectory => 21
  | .nameTooLong => 36
  | .tooManyLinks => 40

def Cause.message : Cause → String
  | .notFound => "No such file or directory"
  | .exists_ => "File exists"
  | .notDirectory => "Not a directory"
  | .isDirectory => "Is a directory"
  | .nameTooLong => "File name too long"
  | .tooManyLinks => "Too many levels of symbolic links"

/-- A failed operation: refused by the system for a path, or never asked for because the path
holds a NUL character. -/
inductive Failure where
  | system (cause : Cause) (path : String)
  | embeddedNul
  deriving DecidableEq, Repr

def Failure.message : Failure → String
  | .system cause path => s!"[Errno {cause.number}] {cause.message}: {Text.quoted path}"
  | .embeddedNul => "embedded null byte"

/-- Longest name of an entry, in octets. -/
def nameLimit : Nat := 255

/-- Longest path, in octets. -/
def pathLimit : Nat := 4095

/-- Largest number of links followed by one look-up. -/
def linkLimit : Nat := 40

namespace Tree

/-- A tree with nothing but the working directory and what leads to it. -/
def empty (home : Location) : Tree :=
  ⟨(List.range home.length).map fun n => (home.take (n + 1), .directory), home⟩

def node? (t : Tree) (l : Location) : Option Node :=
  if l = [] then some .directory else (t.nodes.find? (·.1 == l)).map (·.2)

/-- The names in a directory, each of them once. -/
def children (t : Tree) (l : Location) : List String :=
  (t.nodes.filterMap fun (m, _) =>
    if m ≠ [] ∧ m.dropLast = l then m.getLast? else none).eraseDups

/-- Replaces whatever is at a location by one entry. -/
def put (t : Tree) (l : Location) (n : Node) : Tree :=
  { t with nodes := t.nodes.filter (fun e => !l.isPrefixOf e.1) ++ [(l, n)] }

/-- Gives a file new content, or makes it, without touching other entries. -/
def write (t : Tree) (l : Location) (content : List UInt8) : Tree :=
  if t.nodes.any (·.1 == l) then
    { t with nodes := t.nodes.map fun e => if e.1 = l then (l, .file content) else e }
  else { t with nodes := t.nodes ++ [(l, .file content)] }

/-- Removes what is at a location with everything below it. -/
def remove (t : Tree) (l : Location) : Tree :=
  { t with nodes := t.nodes.filter fun e => !l.isPrefixOf e.1 }

/-- Moves what is at a location, with everything below it, to another one. -/
def move (t : Tree) (source target : Location) : Tree :=
  let cleared := t.remove target
  { cleared with nodes := cleared.nodes.map fun (l, n) =>
      if source.isPrefixOf l then (target ++ l.drop source.length, n) else (l, n) }

/-- Where a path leads: to an entry, to a free name in a directory, or to a name with a slash after
it that is no directory. -/
inductive Target where
  | entry (l : Location) (n : Node)
  | free (l : Location)
  | barred (cause : Cause)

/-- Names in a path or a link target, `.` and `..` included. After a slash at the end stands an
empty name. -/
def steps (text : String) : List String :=
  match (splitSlashes text.toList).filter (· ≠ []) with
  | [] => []
  | names =>
    names.map String.ofList ++ if text.toList.getLast? = some '/' then [""] else []

def isAbsolute (text : String) : Bool := text.toList.head? == some '/'

/-- Whether a name is too long for an entry. -/
def tooLong (name : String) : Bool := nameLimit < name.utf8ByteSize

/-- Follows names from a directory up to a link that is to be followed, where `jump` goes on with
the names that are left. A link that is the last name is followed only on demand, but always if a
slash stands after it. -/
def along (t : Tree) (follow : Bool) (jump : Location → List String → Except Cause Target)
    (dir : Location) : List String → Except Cause Target
  | [] => .ok (.entry dir .directory)
  | name :: rest =>
    if name = "." ∨ name = "" then along t follow jump dir rest
    else if name = ".." then along t follow jump dir.dropLast rest
    else if tooLong name then .error .nameTooLong
    else
      let here := dir ++ [name]
      match t.node? here with
      | none =>
        if rest = [] then .ok (.free here)
        else if rest.all (· = "") then .ok (.barred .notFound)
        else .error .notFound
      | some .directory => along t follow jump here rest
      | some (.file content) =>
        if rest = [] then .ok (.entry here (.file content))
        else if rest.all (· = "") then .ok (.barred .notDirectory)
        else .error .notDirectory
      | some (.link target) =>
        if rest = [] && !follow then .ok (.entry here (.link target))
        else jump (if isAbsolute target then [] else dir) (steps target ++ rest)

/-- Follows names from a directory, and so many links at most. -/
def walk (t : Tree) (follow : Bool) : Nat → Location → List String → Except Cause Target
  | 0 => t.along follow fun _ _ => .error .tooManyLinks
  | links + 1 => t.along follow (t.walk follow links)

def look (t : Tree) (follow : Bool) (path : String) : Except Cause Target :=
  if pathLimit < path.utf8ByteSize then .error .nameTooLong
  else t.walk follow linkLimit (if isAbsolute path then [] else t.home) (steps path)

def hasNul (path : String) : Bool := path.toList.contains '\x00'

def status (t : Tree) (path : String) : Except Failure (Location × Node) :=
  if hasNul path then .error .embeddedNul
  else match t.look true path with
    | .ok (.entry l n) => .ok (l, n)
    | .ok (.free _) => .error (.system .notFound path)
    | .ok (.barred cause) | .error cause => .error (.system cause path)

/-- Whether a failed look-up only means that nothing is there. -/
def Failure.isAbsence : Failure → Bool
  | .embeddedNul => true
  | .system .notFound _ => true
  | .system .notDirectory _ => true
  | .system .tooManyLinks _ => true
  | .system _ _ => false

/-- A test on the entry of a path, false where nothing is there. -/
def test (t : Tree) (path : Path) (p : Node → Bool) : Except Failure Bool :=
  match t.status path.toString with
  | .ok (_, n) => .ok (p n)
  | .error f => if Failure.isAbsence f then .ok false else .error f

def pathExists (t : Tree) (path : Path) : Except Failure Bool := t.test path fun _ => true

def isDirectory (t : Tree) (path : Path) : Except Failure Bool :=
  t.test path fun
    | .directory => true
    | _ => false

def isFile (t : Tree) (path : Path) : Except Failure Bool :=
  t.test path fun
    | .file _ => true
    | _ => false

/-- The octets of the file that a path leads to. -/
def read (t : Tree) (path : Path) : Except Failure (List UInt8) :=
  match t.status path.toString with
  | .ok (_, .file content) => .ok content
  | .ok _ => .error (.system .isDirectory path.toString)
  | .error f => .error f

/-- The names in the directory that a path leads to. -/
def list (t : Tree) (path : Path) : Except Failure (List String) :=
  match t.status path.toString with
  | .ok (l, .directory) => .ok (t.children l)
  | .ok _ => .error (.system .notDirectory path.toString)
  | .error f => .error f

/-- Makes one directory; its parent must be there. -/
def makeDirectory (t : Tree) (path : Path) : Except Failure Tree :=
  let text := path.toString
  if hasNul text then .error .embeddedNul
  else match t.look false text with
    | .ok (.free l) => .ok { t with nodes := t.nodes ++ [(l, .directory)] }
    | .ok (.entry _ _) => .error (.system .exists_ text)
    | .ok (.barred cause) | .error cause => .error (.system cause text)

/-- Makes a directory unless it is there already. -/
def ensureOne (t : Tree) (path : Path) (absent : Failure → Except Failure Tree) :
    Except Failure Tree :=
  match t.makeDirectory path with
  | .ok t => .ok t
  | .error .embeddedNul => .error .embeddedNul
  | .error (.system .notFound text) => absent (.system .notFound text)
  | .error f => do if ← t.isDirectory path then return t else throw f

/-- Makes a directory and the directories that lead to it, unless they are there already. -/
def ensureDirectory (t : Tree) (path : Path) : Except Failure Tree :=
  t.ensureOne path fun f =>
    if _h : path.names = [] then .error f
    else do
      let t ← t.ensureDirectory path.parent
      t.ensureOne path .error
termination_by path.names.length
decreasing_by
  have : 0 < path.names.length := List.length_pos_iff.mpr _h
  simp only [Path.parent, List.length_dropLast]
  omega

/-- Opens a file for appending: makes it if it is not there. Gives its location. -/
def openAppend (t : Tree) (path : Path) : Except Failure (Tree × Location) :=
  let text := path.toString
  if hasNul text then .error .embeddedNul
  else match t.look true text with
    | .ok (.entry l (.file _)) => .ok (t, l)
    | .ok (.entry _ _) | .ok (.barred _) => .error (.system .isDirectory text)
    | .ok (.free l) => .ok (t.write l [], l)
    | .error cause => .error (.system cause text)

end Tree

end SupplyGauge.Files
