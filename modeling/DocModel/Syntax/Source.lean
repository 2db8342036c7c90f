import DocModel.Syntax.Declarations

/-!
# Sources and their block comments

A source is a text with its syntax tree. Its block comments are those comment nodes of the tree that
start with `/*`; line comments never document anything.
-/

namespace DocModel

/-- **A block comment** of a source. -/
structure BlockComment where
  /-- The comment with its delimiters. -/
  text : Text
  /-- The text between the delimiters. -/
  value : Text
  /-- The line on which it starts, counted from one. -/
  startLine : Nat
  /-- The line on which it ends. -/
  endLine : Nat
  /-- The byte where it starts. -/
  startByte : Nat
  /-- The byte where it ends. -/
  endByte : Nat

namespace BlockComment

/-- The text between the delimiters of a comment; the closing one may be missing. -/
def stripDelimiters (text : Text) : Text :=
  let value := text.drop 2
  if ("*/" : Text).isSuffixOf value then value.dropLast.dropLast else value

/-- The block comment between two bytes of a source, if one starts there. -/
def ofBytes? (source : Text) (start stop : Nat) : Option BlockComment :=
  let text := Text.sliceBytes start stop source
  if ("/*" : Text).isPrefixOf text then
    some ⟨text, stripDelimiters text, Text.rowAt start source + 1, Text.rowAt stop source + 1,
      start, stop⟩
  else none

mutual

/-- The block comments in a tree, from left to right. -/
def ofTree (source : Text) : SyntaxTree → List BlockComment
  | .node kind _ start stop _ children =>
    if kind == "comment" then (ofBytes? source start stop).toList else ofTrees source children

/-- The block comments in several trees. -/
def ofTrees (source : Text) : List SyntaxTree → List BlockComment
  | [] => []
  | t :: ts => ofTree source t ++ ofTrees source ts

end

end BlockComment

/-- **A source** with its graph and its block comments. -/
structure Source where
  /-- The text. -/
  text : Text
  /-- The graph of its syntax tree. -/
  graph : Graph
  /-- Its block comments, in the order of their first bytes. -/
  comments : List BlockComment

namespace Source

/-- The source with a given text and syntax tree. -/
def ofTree (text : Text) (tree : SyntaxTree) : Source :=
  { text
    graph := .ofTree text tree
    comments := (BlockComment.ofTree text tree).mergeSort (·.startByte ≤ ·.startByte) }

/-- **The source that a parser makes of a text.** -/
def parse (parse : ScriptParser) (text : Text) : Source := ofTree text (parse text).root

/-- The text of a node as it stands in the source. -/
def slice (s : Source) (n : NodeId) : Text :=
  Text.sliceBytes (s.graph.node n).start (s.graph.node n).stop s.text

/-- A text with its line ends written as single line feeds, as a file is read. -/
def normalizeLineEnds : Text → Text
  | '\r' :: '\n' :: cs => '\n' :: normalizeLineEnds cs
  | '\r' :: cs => '\n' :: normalizeLineEnds cs
  | c :: cs => c :: normalizeLineEnds cs
  | [] => []

end Source

end DocModel
