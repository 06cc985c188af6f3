/-! # Paths

A path is a sequence of names below one of three starting points: the working
directory, the root, or the root written with two slashes. Empty names and `.`
are dropped when a path is read; `..` stays. A path prints with single slashes,
and the empty one as `.`.
-/

namespace SupplyGauge.Files

/-- Where a path begins. -/
inductive Anchor where
  | relative
  | root
  | doubleRoot
  deriving DecidableEq, Repr

/-- A path in normal form. -/
structure Path where
  anchor : Anchor
  names : List String
  deriving DecidableEq, Repr

def splitSlashes : List Char → List (List Char)
  | [] => [[]]
  | c :: rest =>
    match splitSlashes rest with
    | part :: parts => if c = '/' then [] :: part :: parts else (c :: part) :: parts
    | [] => [[c]]

/-- The names in a text between slashes, without empty ones and `.`. -/
def namesOf (text : List Char) : List String :=
  (splitSlashes text).filterMap fun part =>
    if part = [] ∨ part = ['.'] then none else some (String.ofList part)

namespace Path

def ofString (text : String) : Path :=
  let chars := text.toList
  let slashes := (chars.takeWhile (· == '/')).length
  let anchor := if slashes = 0 then Anchor.relative
    else if slashes = 2 then .doubleRoot else .root
  ⟨anchor, namesOf chars⟩

def toString (p : Path) : String :=
  let body := String.intercalate "/" p.names
  match p.anchor with
  | .relative => if p.names.isEmpty then "." else body
  | .root => "/" ++ body
  | .doubleRoot => "//" ++ body

/-- A path taken from another one: one that begins at the root stands for itself. -/
def join (p q : Path) : Path :=
  match q.anchor with
  | .relative => ⟨p.anchor, p.names ++ q.names⟩
  | _ => q

def child (p : Path) (name : String) : Path := ⟨p.anchor, p.names ++ [name]⟩

/-- The last name of a path, empty if there is none. -/
def name (p : Path) : String := p.names.getLast?.getD ""

def parent (p : Path) : Path := ⟨p.anchor, p.names.dropLast⟩

end Path

end SupplyGauge.Files
