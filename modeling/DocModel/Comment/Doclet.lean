import DocModel.TypeExpr.Basic

/-!
# Doclets

What a doc comment says: a description in free text, followed by tags. A tag has a title and,
depending on the title, a type, a name, a default value and a description. Lines are counted
from the first line of the comment, which has number zero.
-/

namespace DocModel

/-- **A tag** of a doc comment. -/
structure Tag where
  /-- What the tag is, in its canonical spelling. -/
  title : Text
  /-- The name of what the tag describes. -/
  name : Option Text
  /-- The type of what the tag describes. -/
  type : Option TypeExpr
  /-- The text of the tag. -/
  description : Text
  /-- The line on which the tag starts. -/
  line : Nat
  /-- The line on which its description starts. -/
  descriptionLine : Nat
  /-- Whether the name was written in brackets. -/
  optional : Bool
  /-- The default value that follows such a name. -/
  default : Option Text

/-- **A doclet**: the content of a doc comment. -/
structure Doclet where
  /-- The text before the first tag. -/
  description : Text
  /-- The tags, in the order of the comment. -/
  tags : List Tag

namespace Doclet

/-- Whether some tag has the given title. -/
def hasTag (doclet : Doclet) (title : Text) : Bool := doclet.tags.any (·.title = title)

/-- The first tag with the first of the given titles that occurs at all. -/
def findTag (doclet : Doclet) (titles : List Text) : Option Tag :=
  titles.findSome? fun title => doclet.tags.find? (·.title = title)

/-- The tags that have one of the given titles, in the order of the comment. -/
def findTags (doclet : Doclet) (titles : List Text) : List Tag :=
  doclet.tags.filter fun tag => titles.contains tag.title

/-- The description of the tag that `findTag` finds, empty if there is none. -/
def tagDescription (doclet : Doclet) (titles : List Text) : Text :=
  match doclet.findTag titles with
  | some tag => tag.description
  | none => []

end Doclet

end DocModel
