import SupplyGauge.Files.Tree
/-! # Changes to a file tree

Changes made from outside: writing a file, making a directory or a link, removing.
Directories on the way are made as needed, and a change for which there is no
place leaves the tree as it is.
-/

namespace SupplyGauge.Files

/-- What to do at a path. -/
inductive Change where
  | file (content : List UInt8)
  | directory
  | link (target : String)
  | remove

/-- Location of the directory that is to hold a path's last name, made if need be. -/
def Tree.holder? (t : Tree) (path : Path) : Option (Tree × Location) :=
  match t.ensureDirectory path.parent with
  | .error _ => none
  | .ok t =>
    match t.status path.parent.toString with
    | .ok (l, .directory) => some (t, l)
    | _ => none

/-- Makes a change at a path. A file is written through a link. -/
def Tree.change (t : Tree) (path : Path) (c : Change) : Tree :=
  match c with
  | .directory => (t.ensureDirectory path).toOption.getD t
  | .remove =>
    match t.look false path.toString with
    | .ok (.entry l _) => t.remove l
    | _ => t
  | .link target =>
    match t.holder? path with
    | some (t, l) => t.put (l ++ [path.name]) (.link target)
    | none => t
  | .file content =>
    match t.holder? path with
    | none => t
    | some (t, l) =>
      match t.look true path.toString with
      | .ok (.entry target (.file _)) => t.write target content
      | .ok (.free target) => t.write target content
      | _ => t.put (l ++ [path.name]) (.file content)

def Tree.changes (t : Tree) (all : List (Path × Change)) : Tree :=
  all.foldl (fun t (path, c) => t.change path c) t

end SupplyGauge.Files
