import DocModel.Text.Basic

/-!
# Indentation

How far a line is indented is measured in columns, with tabulators reaching to the next
multiple of the tab width. The *margin* of a group of lines is the indentation that all of
its lines share, character for character, and `dedent` moves the group to the left edge.
-/

namespace DocModel.Text

/-- A text with each tabulator replaced by the spaces up to the next multiple of `width`.
Columns are counted from the last line feed or carriage return. -/
def expandTabs (width : Nat) (t : Text) : Text := go 0 t
where
  /-- The rest of a text, whose first character stands in column `column`. -/
  go (column : Nat) : Text → Text
    | [] => []
    | c :: cs =>
      if c == '\t' then
        let filling := width - column % width
        List.replicate filling ' ' ++ go (column + filling) cs
      else if c == '\n' || c == '\r' then c :: go 0 cs
      else c :: go (column + 1) cs

/-- The columns between two tab stops. -/
def tabWidth : Nat := 4

/-- The spaces and tabulators at the start of a line. -/
def indent (line : Text) : Text := line.takeWhile isIndent

/-- The column in which the first character of a line stands that does not indent it. -/
def indentWidth (line : Text) : Nat := (expandTabs tabWidth (indent line)).length

/-- The longest text with which both texts start. -/
def commonPrefix : Text → Text → Text
  | a :: as, b :: bs => if a == b then a :: commonPrefix as bs else []
  | _, _ => []

/-- The indentation that all lines share that hold more than indentation. -/
def margin (ls : List Text) : Text :=
  match (ls.filter (!·.all isIndent)).map indent with
  | [] => []
  | i :: is => is.foldl commonPrefix i

/-- Lines without their margin; a line of nothing but indentation becomes empty. -/
def dedent (ls : List Text) : List Text :=
  let m := margin ls
  ls.map fun line => if line.all isIndent then [] else line.drop m.length

example : dedent ["  a", "\t", "    b"] = (["a", "", "  b"] : List Text) := by decide
example : dedent ["\ta", "  b"] = (["\ta", "  b"] : List Text) := by decide

end DocModel.Text
