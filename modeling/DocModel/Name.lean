import DocModel.Comment.Doclet

/-!
# Qualified names

The name of a documented function is a path of segments. A `.` joins a static member to its
owner and a `#` an instance member; the latter can also be spelled `.prototype.`, the way it is
written in code. Reading a name takes it apart into the *short name*, which is its last segment,
and the *namespace*, which is the path before it, and puts both together again in the canonical
spelling with at most one `#`, directly before the short name.

Tags may say where a function belongs in spite of its name: `@global` takes it out of every
namespace, and `@memberOf` puts it into a given one.
-/

namespace DocModel

/-- **A name taken apart.** -/
structure QualifiedName where
  /-- The whole name in its canonical spelling. -/
  name : Text
  /-- The last segment. -/
  shortName : Text
  /-- The name as it was given, with every `#` spelled out. -/
  longName : Text
  /-- The path before the last segment; a global function has none. -/
  owner? : Option Text
  /-- The name in a form that can be the target of a link. -/
  identifier : Text
  deriving DecidableEq

namespace QualifiedName

/-- The characters that separate the segments of a name. -/
def isSeparator (c : Char) : Bool := c == '.' || c == '#'

/-- A name as the target of a link: its segments are joined by hyphens. -/
def toIdentifier (name : Text) : Text := name.map fun c => if isSeparator c then '-' else c

/-- The first segment of a name, unless it is empty. -/
def firstSegment? (name : Text) : Option Text :=
  let segment := name.takeWhile (!isSeparator ·)
  if segment.isEmpty then none else some segment

/-- A name with every `#` spelled out. -/
def spellOut (name : Text) : Text :=
  name.flatMap fun c => if c == '#' then ".prototype." else [c]

/-- The segment that stands for the instances of its owner. -/
def prototypeSegment : Text := "prototype"

/-- A text unless it is empty. -/
def nonempty? (t : Text) : Option Text := if t.isEmpty then none else some t

/-- A short name in a namespace, joined by the given separator. -/
def qualify (owner? : Option Text) (separator : Char) (shortName : Text) : Text :=
  match owner? with
  | some path => path ++ separator :: shortName
  | none => shortName

/-- The name whose parts are given. -/
def ofParts (owner? : Option Text) (separator : Char) (shortName longName : Text) :
    QualifiedName :=
  let name := qualify owner? separator shortName
  ⟨name, shortName, longName, owner?, toIdentifier name⟩

/-- **A name taken apart.** Whether it is the name of an instance member is decided by what stands
right before the short name; the other segments `prototype` are dropped. -/
def parse (name : Text) : QualifiedName :=
  let segments := Text.splitWhere isSeparator name
  let shortName := segments.getLast?.getD []
  let path := segments.dropLast
  let ofInstance := ('#' :: shortName).isSuffixOf name || path.getLast? == some prototypeSegment
  ofParts (nonempty? (Text.join "." (path.filter (· ≠ prototypeSegment))))
    (if ofInstance then '#' else '.') shortName (spellOut name)

/-- A name under the tags of a doclet: `@global` and `@memberOf` replace the namespace, and
`@instance` says that the function belongs to the instances of the latter. -/
def underTags (q : QualifiedName) (doclet : Doclet) : QualifiedName :=
  if doclet.hasTag "global" then ofParts none '.' q.shortName q.longName
  else if doclet.hasTag "memberOf" then
    ofParts (nonempty? (Text.strip (doclet.tagDescription ["memberOf"])))
      (if doclet.hasTag "instance" then '#' else '.') q.shortName q.longName
  else q

end QualifiedName

/-- **The display signature of a function** with the given parameter names: a declaration if the
function is global, and an assignment to its namespace otherwise. -/
def signature (name shortName : Text) (owner? : Option Text) (params : List Text) : Text :=
  let arguments := "(" ++ Text.join ", " params ++ ")"
  let head :=
    if name = shortName then "function " ++ shortName ++ arguments
    else owner?.getD "None" ++ "." ++ shortName ++ " = function" ++ arguments
  head ++ " \x7b /*...*/ \x7d"

end DocModel
