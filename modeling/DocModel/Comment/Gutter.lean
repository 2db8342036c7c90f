import DocModel.Text.Basic

/-!
# The gutter of a block comment

The lines of a block comment usually start with an asterisk that belongs to the frame and not
to the text. Taking the gutter off a line drops its indentation, one asterisk if there is one,
and one space or tabulator after the asterisk.
-/

namespace DocModel.Comment

/-- A line without its indentation, one asterisk, and one space or tabulator after that. -/
def dropGutter (line : Text) : Text :=
  match line.dropWhile Text.isIndent with
  | '*' :: c :: rest => if Text.isIndent c then rest else c :: rest
  | '*' :: [] => []
  | rest => rest

/-- **The lines of a comment without their gutter.** -/
def unwrap (value : Text) : List Text := (Text.lines value).map dropGutter

end DocModel.Comment
