import DocModel.Directive.Pair
import DocModel.Text.Indentation

/-!
# Blocks of examples

The body of an `@examples` or `@benchmarks` tag is a block: lines of code, some of which are
pairs. What stands before the first pair is the *preamble*, shared by all pairs. Reading a block
goes once over its lines:

* a value can go on over several lines, as long as they are indented more than the line of the
  pair; one more line that is not blank then closes it;
* the code of a pair without code on its own line is gathered from the lines above, up to a
  blank line or to a line that belongs to another pair, leaving out lines of comment.
-/

namespace DocModel.Directive

/-- **A block**: its text, its preamble and its pairs. -/
structure Block where
  /-- The whole text. -/
  content : Text
  /-- The code before the first pair. -/
  preamble : Text
  /-- The pairs. -/
  pairs : List Pair
  deriving DecidableEq

/-- Whether a line holds nothing but a comment. -/
def isCommentLine (line : Text) : Bool := ("//" : Text).isPrefixOf (Text.stripLeft line)

/-- A line of a value, moved to the left by the indentation of its pair. -/
def relativeLine (indent : Nat) (line : Text) : Text :=
  let expanded := Text.expandTabs Text.tabWidth line
  if Text.blank (expanded.take indent) then expanded.drop indent else Text.stripLeft expanded

/-- The pair whose value may go on. -/
structure OpenPair where
  /-- The pair so far. -/
  pair : Pair
  /-- The indentation of its line. -/
  indent : Nat
  /-- Whether its value has ended. -/
  closed : Bool

/-- The pair with one more line added to its value. -/
def OpenPair.extend (p : OpenPair) (line : Text) : OpenPair :=
  { p with pair := { p.pair with right := p.pair.right ++ "\n" ++ relativeLine p.indent line } }

/-- **The state of reading a block** after some of its lines. -/
structure State where
  /-- The lines read so far that belong to no pair, back to the last line of a pair; the last
  one stands first. -/
  unclaimed : List Text
  /-- The pairs before the last one, the last of them first. -/
  finished : List Pair
  /-- The last pair. -/
  current : Option OpenPair
  /-- The lines of the preamble, once there is a pair. -/
  preamble : List Text

/-- The lines above a pair that make up its code, from the last one up. -/
def linesAbove (unclaimed : List Text) : List Text := unclaimed.takeWhile (!Text.blank ·)

/-- The code that lines above a pair make up; lines of comment are left out. -/
def codeAbove (unclaimed : List Text) : Text :=
  Text.unlines (((linesAbove unclaimed).filter (!isCommentLine ·)).reverse.map Text.strip)

/-- The pair that starts on line `index`. -/
def State.openPair (s : State) (index : Nat) (line : Text) (sides : Sides) : State :=
  let left := if sides.left.isEmpty then codeAbove s.unclaimed else sides.left
  let taken := if sides.left.isEmpty then (linesAbove s.unclaimed).length else 0
  { unclaimed := []
    finished := (s.current.map (·.pair)).toList ++ s.finished
    current := some ⟨⟨left, sides.right, index, false⟩, Text.indentWidth line, false⟩
    preamble := if s.current.isSome then s.preamble else (s.unclaimed.drop taken).reverse }

/-- A line that is no pair. It goes on with the value of the last pair, or ends it, or belongs to
no pair. -/
def State.plainLine (s : State) (line : Text) : State :=
  let unclaimed := line :: s.unclaimed
  match s.current with
  | none => { s with unclaimed }
  | some p =>
    if p.closed then { s with unclaimed }
    else if !Text.blank line && p.indent < Text.indentWidth line then
      let p := p.extend line
      let pair := { p.pair with multiline := true }
      { s with unclaimed := [], current := some { p with pair } }
    else if p.pair.multiline && !Text.blank line then
      { s with unclaimed := [], current := some { p.extend line with closed := true } }
    else { s with unclaimed, current := some { p with closed := true } }

/-- Reading one line. -/
def State.step (recognises : Text → Bool) (s : State) (index : Nat) (line : Text) : State :=
  match pairSides? recognises line with
  | some sides => s.openPair index line sides
  | none => s.plainLine line

/-- Reading lines, the first of which has number `index`. -/
def State.steps (recognises : Text → Bool) : State → Nat → List Text → State
  | s, _, [] => s
  | s, index, line :: ls => steps recognises (s.step recognises index line) (index + 1) ls

/-- The state before the first line. -/
def State.initial : State := ⟨[], [], none, []⟩

/-- The pairs that have been read. -/
def State.pairs (s : State) : List Pair := ((s.current.map (·.pair)).toList ++ s.finished).reverse

/-- The preamble of the lines that have been read: without a pair, all of them. -/
def State.preambleLines (s : State) : List Text :=
  if s.current.isSome then s.preamble else s.unclaimed.reverse

/-- **The block that a text holds.** -/
def Block.parse (recognises : Text → Bool) (text : Text) : Block :=
  let s := State.initial.steps recognises 0 (Text.lines text)
  ⟨text, Text.stripRight (Text.unlines s.preambleLines), s.pairs⟩

end DocModel.Directive
