import DocModel.Comment.Doclet
import DocModel.Comment.Gutter
import DocModel.Text.Indentation
import DocModel.TypeExpr.Parser

/-!
# Reading doc comments

A tag starts on a line whose first character that is not blank is an `@`, and reaches to the
next such line. What stands before the first tag is the description. How the text of a tag is
read depends on its title: parameters and properties have a type, a name and a description,
return values a type and a description, and so on. Code in examples and benchmarks is kept as
it stands, so that line numbers and indentation keep their meaning.
-/

namespace DocModel

namespace Comment

/-- **Why a comment is no doclet.** -/
inductive Problem where
  /-- A tag without a proper title, on a line counted from one. -/
  | badTitle (number : Nat) (line : Text)
  /-- The braces around a type are not closed. -/
  | openType (line : Text)
  /-- The brackets around the name of an optional parameter are not closed. -/
  | openName (line : Text)
  /-- The text in the braces is no type expression. -/
  | badType (source : Text) (problem : TypeExpr.Problem)
  deriving DecidableEq

/-- **The message for a problem** in a comment. -/
def Problem.message : Problem → Text
  | badTitle number line =>
    "Missing or invalid tag title on comment line " ++ Text.ofNat number ++ ": " ++ Text.quote line
  | openType line => "Unterminated type expression: " ++ Text.quote line
  | openName line => "Unterminated optional parameter name: " ++ Text.quote line
  | badType source problem => problem.message source

/-! ## Titles -/

/-- What the text of a tag consists of. -/
inductive TagKind where
  /-- A type, a name and a description. -/
  | parameter
  /-- A type and a description. -/
  | result
  /-- A type, a name and a description, without the marks of a parameter. -/
  | definition
  /-- A name, which is the description too. -/
  | namePath
  /-- Code that is kept as it stands. -/
  | verbatim
  /-- A description. -/
  | plain
  deriving DecidableEq

/-- The kind of the tags with a given title. -/
def TagKind.ofTitle (title : Text) : TagKind :=
  if title ∈ (["param", "arg", "argument", "property", "prop"] : List Text) then parameter
  else if title ∈ (["returns", "return"] : List Text) then result
  else if title = "typedef" then definition
  else if title ∈ (["memberOf", "memberof"] : List Text) then namePath
  else if title ∈ (["examples", "example", "benchmarks"] : List Text) then verbatim
  else plain

/-- The canonical spelling of a title. -/
def canonicalTitle (title : Text) : Text :=
  if title = "arg" ∨ title = "argument" then "param"
  else if title = "prop" then "property"
  else if title = "return" then "returns"
  else if title = "memberof" then "memberOf"
  else title

/-- A title is a word that does not start with a numeral or a letter beyond ASCII. -/
def isTitle : Text → Bool
  | [] => false
  | c :: cs => (c.isAlpha || c == '_') && cs.all Text.isWordChar

/-- The title and the remaining text of a line that starts a tag. -/
def tagLine? (line : Text) : Option (Text × Text) :=
  match Text.stripLeft line with
  | '@' :: rest =>
    let inTitle := fun c => !Text.isBlank c && c != '\x7b'
    some (rest.takeWhile inTitle, Text.stripLeft (rest.dropWhile inTitle))
  | _ => none

/-! ## Types and names -/

/-- What follows an opening brace: the text up to its closing brace, and the text after that.
`depth` counts the further braces that are open. -/
def matchBrace (depth : Nat) : Text → Option (Text × Text)
  | [] => none
  | c :: cs =>
    if c == '\x7b' then
      (matchBrace (depth + 1) cs).map fun (inside, after) => (c :: inside, after)
    else if c == '\x7d' then
      match depth with
      | 0 => some ([], cs)
      | depth + 1 => (matchBrace depth cs).map fun (inside, after) => (c :: inside, after)
    else (matchBrace depth cs).map fun (inside, after) => (c :: inside, after)

/-- The type in braces at the start of a text, if there is one, and the text after it. -/
def takeType (text : Text) : Except Problem (Option TypeExpr × Text) :=
  match text with
  | '\x7b' :: cs =>
    match matchBrace 0 cs with
    | none => .error (.openType (Text.firstLine text))
    | some (inside, after) =>
      let source := Text.strip inside
      match TypeExpr.parse source with
      | .error problem => .error (.badType source problem)
      | .ok type => .ok (some type, Text.strip after)
  | _ => .ok (none, text)

/-- The name at the start of a parameter's text. -/
structure NamePart where
  /-- The name; there is none in an empty text. -/
  name : Option Text
  /-- The text after the name. -/
  after : Text
  /-- Whether the name was written in brackets. -/
  optional : Bool
  /-- The default value in such brackets. -/
  default : Option Text

/-- The name at the start of a text: a word, or in brackets a name with an optional default
value. -/
def takeName (text : Text) : Except Problem NamePart :=
  match text with
  | [] => .ok ⟨none, [], false, none⟩
  | '[' :: cs =>
    match Text.cut? "]" cs with
    | none => .error (.openName (Text.firstLine text))
    | some (inside, after) =>
      let inner := Text.strip inside
      let (name, default) := (Text.cut? "=" inner).getD (inner, [])
      let default := Text.strip default
      .ok ⟨some (Text.strip name), Text.strip after, true,
        if default.isEmpty then none else some default⟩
  | _ =>
    match Text.firstWord? text with
    | none => .ok ⟨none, [], false, none⟩
    | some (word, after) => .ok ⟨some word, Text.strip after, false, none⟩

/-- A description without the hyphen that may set it off from a name. -/
def stripHyphen : Text → Text
  | '-' :: cs => Text.stripLeft cs
  | text => text

/-! ## Tags -/

/-- The lines that belong to one tag. -/
structure TagLines where
  /-- The number of the line on which the tag starts. -/
  start : Nat
  /-- That line. -/
  line : Text
  /-- The title on it. -/
  title : Text
  /-- The text after the title. -/
  text : Text
  /-- The lines that follow, up to the next tag. -/
  body : List Text

/-- **Lines, the first of which has number `start`, divided at the lines that start a tag**: the
lines before the first tag, and the lines of each tag. -/
def divideTags (start : Nat) : List Text → List Text × List TagLines
  | [] => ([], [])
  | line :: ls =>
    let (before, tags) := divideTags (start + 1) ls
    match tagLine? line with
    | some (title, text) => ([], ⟨start, line, title, text, before⟩ :: tags)
    | none => (line :: before, tags)

/-- A tag whose body is code: blank lines before the code are dropped and its margin is taken
off. -/
def verbatimTag (t : TagLines) : Tag :=
  let body := t.text :: t.body
  let skipped := (body.takeWhile Text.blank).length
  { title := t.title
    name := none
    type := none
    description := Text.stripRight (Text.unlines (Text.dedent (body.drop skipped)))
    line := t.start
    descriptionLine := t.start + skipped
    optional := false
    default := none }

/-- **The tag that some lines hold.** -/
def readTag (t : TagLines) : Except Problem Tag :=
  if !isTitle t.title then .error (.badTitle (t.start + 1) (Text.strip t.line))
  else
    let text := Text.strip (Text.unlines (t.text :: t.body))
    let tag : Tag :=
      { title := canonicalTitle t.title
        name := none
        type := none
        description := text
        line := t.start
        descriptionLine := t.start
        optional := false
        default := none }
    match TagKind.ofTitle t.title with
    | .verbatim => .ok (verbatimTag t)
    | .parameter => do
      let (type, text) ← takeType text
      let part ← takeName text
      return { tag with
        name := part.name
        type := if part.optional then type.map .optional else type
        description := stripHyphen part.after
        optional := part.optional
        default := part.default }
    | .result => do
      let (type, text) ← takeType text
      return { tag with type, description := text }
    | .definition => do
      let (type, text) ← takeType text
      let part ← takeName text
      return { tag with type, name := part.name, description := part.after }
    | .namePath => .ok { tag with name := (Text.firstWord? text).map (·.1) }
    | .plain => .ok tag

/-- The doclet that the lines of a comment hold. -/
def docletOfLines (ls : List Text) : Except Problem Doclet := do
  let (before, tags) := divideTags 0 ls
  let tags ← tags.mapM readTag
  return ⟨Text.strip (Text.unlines before), tags⟩

end Comment

/-- **The doclet of a comment**, whose gutter is taken off first. -/
def Doclet.parse (value : Text) : Except Comment.Problem Doclet :=
  Comment.docletOfLines (Comment.unwrap value)

/-- The doclet of a comment that has no gutter. -/
def Doclet.parseBare (value : Text) : Except Comment.Problem Doclet :=
  Comment.docletOfLines (Text.lines value)

end DocModel
