import SqlSelect.Literal
import SqlSelect.Text.Bytes

namespace SqlSelect

/-- A rendered statement. `marks` holds the byte offset of each marker that stands for a value of `params`, so a
    question mark that came in with a fragment is never taken for a marker. -/
structure Statement where
  sql : String
  params : List String
  marks : List Nat
deriving DecidableEq, Repr

namespace Statement

def ofText (text : String) : Statement :=
  ⟨text, [], []⟩

def append (q : Statement) (text : String) : Statement :=
  { q with sql := q.sql ++ text }

/-- Appends a marker and binds the value to it. -/
def bindValue (q : Statement) (value : String) : Statement where
  sql := q.sql ++ "?"
  params := q.params ++ [value]
  marks := q.marks ++ [Text.byteSize q.sql.toList]

/-- The byte ranges of the text that lie before, between and after the markers; a marker is one byte wide. -/
def ranges (q : Statement) : List (Nat × Nat) :=
  (0 :: q.marks.map (· + 1)).zip (q.marks ++ [Text.byteSize q.sql.toList])

/-- The text before, between and after the markers. The ranges of a compiled statement start and stop at
    boundaries, so each of them has its slice. -/
def segments (q : Statement) : List String :=
  q.ranges.map fun range => String.ofList ((Text.slice? q.sql.toList range.1 range.2).getD [])

/-- Alternates segments and fillings, beginning with a segment. -/
def weave : List String → List String → String
  | segment :: segments, filling :: fillings => segment ++ filling ++ weave segments fillings
  | segments, _ => String.join segments

/-- The text with every marker replaced by what `slot` makes of the marker's index and value. -/
def fill (q : Statement) (slot : Nat → String → String) : String :=
  weave q.segments (q.params.mapIdx slot)

def numbered (q : Statement) : String :=
  q.fill fun index _ => "$" ++ toString (index + 1)

def inlined (q : Statement) : String :=
  q.fill fun _ value => Literal.plain value

/-- The text with every value as an escape-string literal: the form that is sent to a server. -/
def escaped (q : Statement) : String :=
  q.fill fun _ value => Literal.escaped value

end Statement

end SqlSelect
