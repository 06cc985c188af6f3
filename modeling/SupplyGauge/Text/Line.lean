/-! # Lines

A line ends at a line feed, a carriage return, or the two in that order. Texts
are read with all three turned into line feeds.
-/

namespace SupplyGauge.Text

/-- A text in which every line ending is a single line feed. -/
def unifyLineEnds : List Char → List Char
  | [] => []
  | '\r' :: '\n' :: rest => '\n' :: unifyLineEnds rest
  | c :: rest => (if c = '\r' then '\n' else c) :: unifyLineEnds rest

def firstLine (text : List Char) : List Char :=
  text.takeWhile fun c => c != '\n' && c != '\r'

end SupplyGauge.Text
