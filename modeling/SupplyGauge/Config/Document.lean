import SupplyGauge.Config.Scalar
/-! # Settings documents

A document holds directives, each a name with values, and blocks, which hold
directives and blocks in turn. Directives and blocks are kept apart, each in the
order of the text, together with the line on which they begin.
-/

namespace SupplyGauge.Config

/-- A named list of values. -/
structure Directive where
  name : String
  values : List Scalar
  line : Nat
  deriving DecidableEq

/-- A typed, possibly labelled group of directives and blocks. -/
inductive Block where
  | mk (type : String) (label : Option String) (line : Nat)
      (directives : List Directive) (blocks : List Block)

namespace Block

/-- The word that introduces the block. -/
def type : Block → String
  | .mk t _ _ _ _ => t

/-- The block's own name. -/
def label : Block → Option String
  | .mk _ l _ _ _ => l

def line : Block → Nat
  | .mk _ _ n _ _ => n

def directives : Block → List Directive
  | .mk _ _ _ ds _ => ds

def blocks : Block → List Block
  | .mk _ _ _ _ bs => bs

def directive? (b : Block) (name : String) : Option Directive :=
  b.directives.find? (·.name == name)

/-- The first value of the first directive with a name. -/
def value? (b : Block) (name : String) : Option Scalar :=
  (b.directive? name).bind (·.values.head?)

end Block

/-- A whole settings text. -/
structure Document where
  filename : String
  directives : List Directive
  blocks : List Block

def Document.block? (d : Document) (type : String) : Option Block :=
  d.blocks.find? (·.type == type)

end SupplyGauge.Config
