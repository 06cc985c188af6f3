import SupplyGauge.Config.Document
import SupplyGauge.Config.Lexeme
/-! # From tokens to documents

A document is a sequence of items. An item is a name followed by values and
either a semicolon, which makes it a directive, or a braced sequence of items,
which makes it a block. The parser reads one token at a time and keeps the blocks
that are still open, so it stops at the first token with which no document can
go on. Blocks are nested to any depth: that a machine runs out of stack at some
hundreds of them is left out.
-/

namespace SupplyGauge.Config

/-- What a parse error points at. -/
inductive Found where
  | token (t : Token)
  | endOfText (place : Place)
  deriving DecidableEq

def Found.place : Found → Place
  | .token t => t.place
  | .endOfText place => place

/-- Why the tokens are no document. The argument names the item concerned. -/
inductive ParseFault where
  | itemExpected (block : Option String)
  | bodyExpected (name : String)
  | badLabel (name : String)
  | unclosed (name : String)
  deriving DecidableEq, Repr

/-- A fault and the token it is about. -/
structure ParseError where
  fault : ParseFault
  found : Found
  deriving DecidableEq

def ParseError.message (e : ParseError) : String :=
  e.found.place.locate <| match e.fault with
    | .itemExpected none => "Expected block or directive in document"
    | .itemExpected (some name) => s!"Expected block or directive in '{name}' block"
    | .bodyExpected name => s!"Expected '\x7b' or ';' after '{name}'"
    | .badLabel name => s!"Block '{name}' takes at most one string name"
    | .unclosed name => s!"Expected '\x7d' to close '{name}' block"

/-- Why a text is no document. -/
inductive SyntaxError where
  | lexical (e : LexError)
  | grammatical (e : ParseError)
  deriving DecidableEq

def SyntaxError.message : SyntaxError → String
  | .lexical e => e.message
  | .grammatical e => e.message

/-- An item whose name has been read but whose form is still open. -/
structure PendingItem where
  name : String
  token : Token
  values : List Scalar

/-- A block whose closing brace has not been read. -/
structure OpenBlock where
  type : String
  label : Option String
  line : Nat
  directives : List Directive
  blocks : List Block

/-- The block that an open block becomes when it is closed. -/
def OpenBlock.close (b : OpenBlock) : Block := .mk b.type b.label b.line b.directives b.blocks

/-- A parse in progress: the open blocks, innermost first, and the finished top-level items. -/
structure Parse where
  pending : Option PendingItem
  enclosing : List OpenBlock
  directives : List Directive
  blocks : List Block

namespace Parse

def start : Parse := ⟨none, [], [], []⟩

/-- Adds a finished directive to the innermost open block, or to the document. -/
def addDirective (p : Parse) (d : Directive) : Parse :=
  match p.enclosing with
  | [] => { p with directives := p.directives ++ [d] }
  | b :: outer => { p with enclosing := { b with directives := b.directives ++ [d] } :: outer }

/-- Adds a finished block to the innermost open block, or to the document. -/
def addBlock (p : Parse) (b : Block) : Parse :=
  match p.enclosing with
  | [] => { p with blocks := p.blocks ++ [b] }
  | o :: outer => { p with enclosing := { o with blocks := o.blocks ++ [b] } :: outer }

/-- The label that an item's values give to a block: none, or a single text. -/
def label? : List Scalar → Option (Option String)
  | [] => some none
  | [.text s] => some (some s)
  | _ => none

/-- One token at a place where an item may begin. -/
def stepItem (p : Parse) (t : Token) : Except ParseError Parse :=
  match t.symbol, p.enclosing with
  | .identifier name, _ => .ok { p with pending := some ⟨name, t, []⟩ }
  | .closeBrace, b :: outer => .ok (addBlock { p with enclosing := outer } b.close)
  | _, enclosing => .error ⟨.itemExpected (enclosing.head?.map (·.type)), .token t⟩

def stepBody (p : Parse) (item : PendingItem) (t : Token) : Except ParseError Parse :=
  match t.symbol.value?, t.symbol with
  | some v, _ => .ok { p with pending := some { item with values := item.values ++ [v] } }
  | none, .semicolon =>
    .ok (addDirective { p with pending := none } ⟨item.name, item.values, item.token.place.line⟩)
  | none, .openBrace =>
    match label? item.values with
    | some label =>
      let opened : OpenBlock := ⟨item.name, label, item.token.place.line, [], []⟩
      .ok { p with pending := none, enclosing := opened :: p.enclosing }
    | none => .error ⟨.badLabel item.name, .token item.token⟩
  | none, _ => .error ⟨.bodyExpected item.name, .token t⟩

def step (p : Parse) (t : Token) : Except ParseError Parse :=
  match p.pending with
  | none => p.stepItem t
  | some item => p.stepBody item t

/-- All tokens in turn, up to the first one that cannot stand where it does. -/
def run (p : Parse) : List Token → Except ParseError Parse
  | [] => .ok p
  | t :: rest => do (← p.step t).run rest

/-- What is missing at the end of the text, if anything is. -/
def endFault? (p : Parse) : Option ParseFault :=
  match p.pending, p.enclosing with
  | some item, _ => some (.bodyExpected item.name)
  | none, b :: _ => some (.unclosed b.type)
  | none, [] => none

end Parse

/-- The document that tokens form. An error in the text counts only once the parser needs the
token that it hides. -/
def Document.ofTokens (filename : String) (ts : Tokens) : Except SyntaxError Document := do
  let p ← (Parse.start.run ts.tokens).mapError .grammatical
  let place ← ts.ending.mapError .lexical
  match p.endFault? with
  | some fault => throw (.grammatical ⟨fault, .endOfText place⟩)
  | none => return ⟨filename, p.directives, p.blocks⟩

def Document.ofText (filename : String) (text : List Char) : Except SyntaxError Document :=
  ofTokens filename (Tokens.ofText text)

end SupplyGauge.Config
