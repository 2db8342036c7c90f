import DocModel.Text.Basic

/-!
# Syntax trees

The parser of the script language is a parameter of the library: a function that gives for a text
a tree of nodes, each with its kind and its place in the text, and says whether the text has
errors. Places are numbers of bytes in the UTF-8 form of the text, which is how such parsers
count.
-/

namespace DocModel

/-! ## Bytes of a text -/

namespace Text

/-- The part of a text that starts after the given number of bytes. -/
def dropBytes : Nat → Text → Text
  | 0, t => t
  | _ + 1, [] => []
  | n + 1, c :: cs => dropBytes (n + 1 - c.utf8Size) cs

/-- The part of a text that takes up the given number of bytes. -/
def takeBytes : Nat → Text → Text
  | 0, _ => []
  | _ + 1, [] => []
  | n + 1, c :: cs => c :: takeBytes (n + 1 - c.utf8Size) cs

/-- The part of a text between two numbers of bytes. -/
def sliceBytes (start stop : Nat) (t : Text) : Text := takeBytes (stop - start) (dropBytes start t)

/-- The number of line feeds before a number of bytes. -/
def rowAt (byte : Nat) (t : Text) : Nat := (takeBytes byte t).count '\n'

end Text

/-! ## Trees -/

/-- **A syntax tree**: the kind of its root, whether that is a named kind or a mere mark, the bytes
where its text starts and stops, the role it plays in its parent, and its children. -/
inductive SyntaxTree where
  | node (kind : String) (named : Bool) (start stop : Nat) (role : Option String)
      (children : List SyntaxTree)
  deriving Inhabited

namespace SyntaxTree

/-- The kind of the root. -/
def kind : SyntaxTree → String
  | node kind .. => kind

/-- Whether the kind of the root is a named one. -/
def named : SyntaxTree → Bool
  | node _ named .. => named

/-- The byte where the text of a tree starts. -/
def start : SyntaxTree → Nat
  | node _ _ start .. => start

/-- The byte where the text of a tree stops. -/
def stop : SyntaxTree → Nat
  | node _ _ _ stop .. => stop

/-- The role of a tree in its parent. -/
def role : SyntaxTree → Option String
  | node _ _ _ _ role _ => role

/-- The children of the root. -/
def children : SyntaxTree → List SyntaxTree
  | node _ _ _ _ _ children => children

end SyntaxTree

/-- What the parser says about a text. -/
structure ParseResult where
  /-- Whether the text has errors. -/
  hasError : Bool
  /-- The tree of the text. -/
  root : SyntaxTree
  deriving Inhabited

/-- **The parser of the script language.** -/
abbrev ScriptParser := Text → ParseResult

namespace ScriptParser

/-- **Whether a text is a sequence of statements.** A blank text is none. -/
def acceptsProgram (parse : ScriptParser) (code : Text) : Bool :=
  !Text.blank code && !(parse code).hasError

/-- The text in which an expression is put to find out whether it is one. The line feed keeps
a comment at its end from swallowing the parenthesis. -/
def asExpression (code : Text) : Text := "(" ++ code ++ "\n)"

/-- **Whether a text is a single expression.** -/
def acceptsExpression (parse : ScriptParser) (code : Text) : Bool :=
  if Text.blank code then false
  else
    let result := parse (asExpression code)
    let statements := result.root.children.filter fun t => t.named && t.kind != "comment"
    !result.hasError && statements.map (·.kind) == ["expression_statement"]

end ScriptParser

end DocModel
