/-
**How values are written.**

The printed form of a record is its name and, in braces, its fields in order.  Nodes, lists and
addresses are written by name: `n3` is a node, `l0` a list, `m5` an offset into the memory, `abs7`
an absolute number and `null` the null address.

Main definitions:

* `SpanChain.Text.record`, `SpanChain.Text.tagged` — records and tagged values;
* `SpanChain.Text.node`, `SpanChain.Text.list`, `SpanChain.Text.address` — names;
* `SpanChain.Ends.text`, `SpanChain.Link.text`, `SpanChain.Cursor.text`, `SpanChain.Span.text`,
  `SpanChain.ByteCursor.text`, `SpanChain.Split.text` and `SpanChain.Event.fields` — values.
-/

import SpanChain.Buffer.Reshape

set_option relaxedAutoImplicit false
set_option autoImplicit false

namespace SpanChain

variable {n m : Nat}

namespace Text

/-! ### Shapes -/

/-- A record: its name and its fields. -/
def record (name : String) (fields : List (String × String)) : String :=
  name ++ " \x7b " ++ ", ".intercalate (fields.map fun (key, value) => key ++ ": " ++ value) ++
    " \x7d"

/-- A value with a tag in front. -/
def tagged (tag value : String) : String := tag ++ "(" ++ value ++ ")"

/-- A row of values in square brackets. -/
def row (values : List String) : String := "[" ++ ", ".intercalate values ++ "]"

/-- A value that may be missing. -/
def optional (value : Option String) : String :=
  match value with
  | some value => tagged "Some" value
  | none => "None"

/-! ### Names -/

/-- The name of a node. -/
def node (x : Fin n) : String := "n" ++ toString x.val

/-- The name of a list. -/
def list (l : Fin m) : String := "l" ++ toString l.val

/-- The name of a node that may be missing. -/
def node? (x : Option (Fin n)) : String := optional (x.map node)

/-- The name of an address. -/
def address (a : Address) : String :=
  match a with
  | .absolute x => if x = 0 then "null" else "abs" ++ toString a.toInt
  | .inMemory _ => "m" ++ toString a.toInt

end Text

/-! ### Values -/

open Text

/-- The printed form of a list. -/
def Ends.text (e : Ends n) : String :=
  record "LinkedList" [("first", node? e.first), ("last", node? e.last)]

/-- The printed form of a pair of links. -/
def Link.text (k : Link n) : String :=
  record "DoubleLink" [("next", node? k.next), ("prev", node? k.prev)]

/-- The name of a kind of cursor. -/
def Direction.cursorName : Direction → String
  | .forward => "ForwardIter"
  | .backward => "ReverseIter"

/-- The printed form of a cursor. -/
def Cursor.text {d : Direction} (c : Cursor d n m) : String :=
  record d.cursorName [("list", Text.list c.list), ("current", node? c.node)]

/-- The printed form of a span. -/
def Span.text (s : Span) : String :=
  record "Span" [("base", address s.base), ("len", toString s.len)]

/-- The printed form of a chain of spans. -/
def Pool.chainText (p : Pool Span n m) (l : Fin m) : String :=
  row ((p.spans l).map Span.text)

/-- The printed form of a node that carries a span. -/
def Pool.nodeText (p : Pool Span n m) (x : Fin n) : String :=
  record "IoBufNode" [("link", Link.text ⟨p.next x, p.prev x⟩), ("span", (p.data x).text)]

/-- The printed form of a byte cursor. -/
def ByteCursor.text (c : ByteCursor n m) : String :=
  record "IoBufFIter" [("iter", c.place.text), ("boff", toString c.offset)]

/-- The printed form of the result of a split. -/
def Split.text : Split n → String
  | .aligned extra => record "Aligned" [("extra", node? extra)]
  | .unaligned => "Unaligned"

/-- The name of the kind of a split. -/
def Split.name : Split n → String
  | .aligned _ => "Aligned"
  | .unaligned => "Unaligned"

/-! ### Events -/

/-- The fields of an event, its level and its message first. -/
def Event.fields : Event n → List (String × String)
  | .appending head tail =>
    [("level", "TRACE"), ("message", "merging buffer lists"), ("head", node? head),
      ("tail", node? tail)]
  | .splitBetween x =>
    [("level", "TRACE"), ("message", "splitting buffer list on a node boundary"),
      ("node", node? x)]
  | .splitDeclined offset =>
    [("level", "DEBUG"),
      ("message", "refusing to split inside a span without an extra node"),
      ("offset", toString offset)]
  | .splitInside span offset =>
    [("level", "TRACE"), ("message", "splitting buffer list inside a span"),
      ("span", span.text), ("offset", toString offset)]
  | .joined front added =>
    [("level", "TRACE"), ("message", "concatenated adjacent spans"), ("prev_span", front.text),
      ("merged", toString added)]

end SpanChain
