import SupplyGauge.Files.Tree
import SupplyGauge.Log.Line
/-! # Log files

Lines are added to a file that stays open. Whoever removes or replaces the file does not
stop the writing; what is written from then on is just not to be found any more. A file
that would reach its limit is moved aside before the line is written, and the files moved
aside before are kept up to a number. Lines are gathered and put into the file tree
together.
-/

namespace SupplyGauge.Log

open Files (Location Path Tree)

/-- An open file: not open at all, open at a location with its size and the octets that are not in
the tree yet, latest line first, or open but not in the tree any more. -/
inductive Stream where
  | closed
  | open_ (l : Location) (size : Nat) (unwritten : List (List UInt8))
  | stray (size : Nat)

/-- A file that lines are added to. -/
structure LogFile where
  path : Path
  level : Severity
  template : Template
  limit : Int
  keep : Int
  stream : Stream := .closed

/-- Adds octets at the end. -/
def Stream.add (octets : List UInt8) : Stream → Stream
  | .closed => .closed
  | .open_ l size unwritten => .open_ l (size + octets.length) (octets :: unwritten)
  | .stray size => .stray (size + octets.length)

/-- Number of octets. -/
def Stream.size : Stream → Nat
  | .closed => 0
  | .open_ _ size _ | .stray size => size

/-- Puts what has been gathered into the tree. -/
def Stream.flush (files : Tree) : Stream → Stream × Tree
  | .open_ l size (latest :: before) =>
    match files.node? l with
    | some (.file content) =>
      (.open_ l size [], files.write l (content ++ (latest :: before).reverse.flatten))
    | _ => (.stray size, files)
  | s => (s, files)

/-- A stream after a change of the tree from outside. -/
def Stream.afterChange (files : Tree) : Stream → Stream
  | .open_ l size unwritten =>
    match files.node? l with
    | some (.file content) => .open_ l (content.length + unwritten.flatten.length) unwritten
    | _ => .stray size
  | s => s

/-- Whether a path leads to anything, as far as that can be found out. -/
def isThere (files : Tree) (path : Path) : Bool := (files.pathExists path).toOption.getD false

/-- Removes a file or a link; not possible for a directory. -/
def discard (files : Tree) (path : Path) : Except Tree Tree :=
  match files.look false path.toString with
  | .ok (.entry _ .directory) => .error files
  | .ok (.entry l _) => .ok (files.remove l)
  | _ => .error files

/-- Gives an entry another path, over a file or link that is there. -/
def rename (files : Tree) (source target : Path) : Except Tree Tree :=
  match files.look false source.toString, files.look false target.toString with
  | .ok (.entry l _), .ok (.free m) => .ok (files.move l m)
  | .ok (.entry _ .directory), .ok (.entry _ _) => .error files
  | .ok (.entry l _), .ok (.entry m _) => .ok (files.move l m)
  | _, _ => .error files

/-- Moves a file to another path, over whatever is there, if there is such a file. Gives up with
the tree as it is by then. -/
def shift (files : Tree) (source target : Path) : Except Tree Tree := do
  if isThere files source then
    let files ← if isThere files target then discard files target else pure files
    rename files source target
  else return files

/-- The path of the `n`-th file moved aside. -/
def aside (path : Path) (n : Nat) : Path :=
  ⟨path.anchor, path.names.dropLast ++ [s!"{path.name}.{n}"]⟩

/-- Makes room for a new file: every file moved aside moves on by one place, the last one is
given up, and the present file takes the first place. -/
def rotate (files : Tree) (path : Path) (keep : Nat) : Except Tree Tree :=
  match keep with
  | 0 => .ok files
  | keep + 1 => do
    let files ← (List.range keep).reverse.foldlM
      (fun files n => shift files (aside path (n + 1)) (aside path (n + 2))) files
    let first := aside path 1
    let files ← if isThere files first then discard files first else pure files
    if isThere files path then rename files path first else return files

namespace LogFile

/-- Opens a file for adding lines, if possible. -/
def open_ (f : LogFile) (files : Tree) : Except Files.Failure (LogFile × Tree) := do
  let (files, l) ← files.openAppend f.path
  let size := match files.node? l with
    | some (.file content) => content.length
    | _ => 0
  return ({ f with stream := .open_ l size [] }, files)

def flush (f : LogFile) (files : Tree) : LogFile × Tree :=
  let (stream, files) := f.stream.flush files
  ({ f with stream }, files)

/-- A file that is open, if it can be opened. -/
def opened (f : LogFile) (files : Tree) : Except Files.Failure (LogFile × Tree) :=
  match f.stream with
  | .closed => f.open_ files
  | _ => .ok (f, files)

/-- Whether an open file has no room for a line. Only a file that is an ordinary one or missing in
the tree can be full. -/
def isFull (f : LogFile) (files : Tree) (line : String) : Bool :=
  0 < f.limit && f.limit ≤ ((f.stream.size + line.length + 1 : Nat) : Int) &&
    match files.status f.path.toString with
    | .ok (_, .file _) => true
    | .ok _ => false
    | .error _ => true

/-- Begins a new file. Gives up if the files before cannot be moved aside, or the new one cannot be
opened. -/
def renew (f : LogFile) (files : Tree) : Bool × LogFile × Tree :=
  let (f, files) := f.flush files
  let f := { f with stream := .closed }
  match rotate files f.path f.keep.toNat with
  | .error files => (false, f, files)
  | .ok files =>
    match f.open_ files with
    | .error _ => (false, f, files)
    | .ok (f, files) => (true, f, files)

/-- Adds a line, in a new file if the present one is full. A line for which there is no place is
left out. -/
def append (f : LogFile) (line : String) (files : Tree) : LogFile × Tree :=
  let add (f : LogFile) : LogFile :=
    { f with stream := f.stream.add (Utf8.encode (line ++ "\n")) }
  match f.opened files with
  | .error _ => (f, files)
  | .ok (f, files) =>
    if f.isFull files line then
      match f.renew files with
      | (true, f, files) => (add f, files)
      | (false, f, files) => (f, files)
    else (add f, files)

/-- A file after a change of the tree from outside. -/
def afterChange (f : LogFile) (files : Tree) : LogFile :=
  { f with stream := f.stream.afterChange files }

end LogFile

end SupplyGauge.Log
