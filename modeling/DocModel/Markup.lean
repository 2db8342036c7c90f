import DocModel.Name
import DocModel.Text.Quoted

/-!
# Descriptions as pages show them

A description is shown as it stands, or as the HTML that a Markdown converter makes of it. In the
second case a reference `{@link Name}` becomes a link to the place of that name on the same page.
The converter itself is a parameter.

Values of examples are also shown inside string literals of a script; `scriptEscape` writes
a text in that way.
-/

namespace DocModel

namespace Markup

/-- A link to the place of a name on the page. -/
def anchor (target : Text) : Text :=
  "<a href=\"#" ++ QualifiedName.toIdentifier target ++ "\">" ++ target ++ "</a>"

/-- The name in a reference at the front of a text, and the text after the reference. -/
def reference? (cs : Text) : Option (Text × Text) :=
  match ("\x7b@link " : Text).isPrefixOf? cs with
  | some rest => Text.cut? "\x7d" rest
  | none => none

/-- A text of at most `n` characters with its references turned into links. -/
def linkUpTo : Nat → Text → Text
  | 0, cs => cs
  | _ + 1, [] => []
  | n + 1, c :: cs =>
    match reference? (c :: cs) with
    | some (target, rest) => anchor target ++ linkUpTo n rest
    | none => c :: linkUpTo n cs

/-- **A text with its references turned into links.** -/
def link (t : Text) : Text := linkUpTo t.length t

/-- A text with every `old` replaced by `new`. -/
def replaceChar (old : Char) (new : Text) (t : Text) : Text :=
  t.flatMap fun c => if c == old then new else [c]

/-- **A text as it stands inside a quoted literal of a script**: backslashes, quotes and line
feeds are written with a backslash. The backslashes of the text come first, so those that are
added for the other characters are not doubled. -/
def scriptEscape (t : Text) : Text :=
  let slashed := replaceChar '\\' "\\\\" t
  let singled := replaceChar Text.singleQuote ['\\', Text.singleQuote] slashed
  let doubled := replaceChar Text.doubleQuote ['\\', Text.doubleQuote] singled
  replaceChar '\n' "\\n" doubled

end Markup

/-- **How descriptions are shown.** -/
inductive Renderer where
  /-- As they stand. -/
  | plain
  /-- As HTML made by the given Markdown converter. -/
  | markdown (convert : Text → Text)

/-- A description as it is shown. -/
def Renderer.render : Renderer → Text → Text
  | plain, t => t
  | markdown convert, t => if t.isEmpty then [] else Markup.link (convert t)

end DocModel
