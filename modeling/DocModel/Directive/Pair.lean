import DocModel.Text.Basic

/-!
# Pairs

An example is a line of code with its expected value in a comment, `code // => value`. Such
a line is a *pair*: the code on the left and the value on the right. The arrow can be left out
when there is code on the line. Otherwise the value must be one that the reader of the examples
recognises by itself.

A line may hold several `//`. The one that counts is the last that has something after it that
is not blank, so code with addresses like `http://` in it is read as expected.
-/

namespace DocModel.Directive

/-- The two sides of a line, as they are found. -/
structure Sides where
  /-- The code before the comment. -/
  left : Text
  /-- The text of the comment. -/
  right : Text
  /-- Whether an arrow stands between them. -/
  arrow : Bool
  deriving DecidableEq

/-- The first line of a text, if the text ends there or with one line feed after it, and if it
does not start with a blank character. -/
def onlyLine? (t : Text) : Option Text :=
  match t.head?, t.dropWhile (· != '\n') with
  | some c, [] | some c, ['\n'] => if Text.isBlank c then none else some (t.takeWhile (· != '\n'))
  | _, _ => none

/-- The arrow before an expected value. -/
def arrow : Text := "=>"

/-- What stands after `//`: whether there is an arrow with a value after it, and the value. An
arrow with nothing after it is itself the value. -/
def comment? (t : Text) : Option (Bool × Text) :=
  let t := Text.stripLeft t
  match (arrow.isPrefixOf? t).bind fun after => onlyLine? (Text.stripLeft after) with
  | some value => some (true, value)
  | none => (onlyLine? t).map ((false, ·))

/-- The comment that follows the first `n` characters of a text, blank characters apart. -/
def commentAfter? (t : Text) (n : Nat) : Option (Text × Bool × Text) :=
  match Text.stripLeft (t.drop n) with
  | '/' :: '/' :: after => (comment? after).map (t.take n, ·)
  | _ => none

/-- **The two sides of a line**, with as much as possible on the left. -/
def sides? (line : Text) : Option Sides :=
  let t := Text.stripLeft line
  let width := (t.takeWhile (· != '\n')).length
  ((List.range (width + 1)).reverse.findSome? (commentAfter? t)).map fun (left, arrow, right) =>
    ⟨Text.strip left, Text.strip right, arrow⟩

/-- Whether neither code nor an arrow tells that a line is a pair. -/
def Sides.bare (s : Sides) : Bool := s.left.isEmpty && !s.arrow

/-- The two sides of a line that is a pair: a bare one only if its right side is recognised. -/
def pairSides? (recognises : Text → Bool) (line : Text) : Option Sides :=
  (sides? line).filter fun s => !s.bare || recognises s.right

/-- **A pair** of code and value. -/
structure Pair where
  /-- The code. -/
  left : Text
  /-- The value. -/
  right : Text
  /-- The number of the line, counted from the start of the block. -/
  line : Nat
  /-- Whether the value goes on over several lines. -/
  multiline : Bool
  deriving DecidableEq

/-- The pair on a single line. -/
def pair? (recognises : Text → Bool) (line : Text) : Option Pair :=
  (pairSides? recognises line).map fun s => ⟨s.left, s.right, 0, false⟩

end DocModel.Directive
