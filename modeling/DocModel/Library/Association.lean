import DocModel.Comment.Parser
import DocModel.Example.Builder
import DocModel.Library.FunctionDoc
import DocModel.Syntax.Source

/-!
# Comments and what they document

A block comment documents the function that starts on the line after it. Comments that define
types, and the comment that describes the whole source, count wherever they stand. Each comment is
read once; one that cannot be read is reported once and otherwise passed over. The notebook of a
source remembers both.
-/

namespace DocModel

/-- **A comment that could not be read.** -/
structure CommentError where
  /-- The line on which the comment starts. -/
  line : Nat
  /-- Why it could not be read. -/
  problem : Comment.Problem
  deriving DecidableEq

/-- A documented type. -/
structure TypeInfo where
  /-- Its name. -/
  name : Text
  /-- Its description. -/
  description : Text
  /-- Its properties. -/
  properties : List ParameterInfo
  deriving DecidableEq

/-- What a source says about itself. -/
structure Summary where
  /-- The name of the library, empty if it is not given. -/
  name : Text
  /-- The description of the library. -/
  description : Text
  deriving DecidableEq

/-! ## Reading comments once -/

/-- **The notebook of a source**: the doclets of the comments that have been looked at, by their
first bytes, and the comments among them that could not be read. -/
structure Notebook where
  /-- The doclets; there is none for a comment that could not be read. -/
  doclets : List (Nat × Option Doclet)
  /-- The comments that could not be read, in the order in which they were looked at. -/
  errors : List CommentError

namespace Notebook

/-- The notebook before any comment has been looked at. -/
def empty : Notebook := ⟨[], []⟩

/-- The doclet of a comment, and the notebook with the comment in it. -/
def read (nb : Notebook) (c : BlockComment) : Option Doclet × Notebook :=
  match nb.doclets.lookup c.startByte with
  | some doclet => (doclet, nb)
  | none =>
    match Doclet.parse c.value with
    | .ok doclet => (some doclet, { nb with doclets := (c.startByte, some doclet) :: nb.doclets })
    | .error problem =>
      (none, ⟨(c.startByte, none) :: nb.doclets, nb.errors ++ [⟨c.startLine, problem⟩]⟩)

/-- The comments that can be read among the given ones, with their doclets. -/
def readAll (nb : Notebook) : List BlockComment → List (BlockComment × Doclet) × Notebook
  | [] => ([], nb)
  | c :: cs =>
    let (doclet, nb) := nb.read c
    let (rest, nb) := nb.readAll cs
    ((doclet.map (c, ·)).toList ++ rest, nb)

end Notebook

/-- **What is needed to make docs of comments**: the source, its functions by line, the builder of
examples, and the way in which descriptions are shown. -/
structure Associator where
  /-- The source. -/
  source : Source
  /-- Its functions by line. -/
  index : DeclarationIndex
  /-- The builder of examples. -/
  builder : ExampleBuilder
  /-- How descriptions are shown. -/
  renderer : Renderer

namespace Associator

/-! ## Functions -/

/-- The parameters that the tags with a given title describe. -/
def params (a : Associator) (doclet : Doclet) (title : Text) : List ParameterInfo :=
  (doclet.findTags [title]).map fun tag =>
    { name := tag.name.getD []
      type := TypeExpr.formatOption tag.type
      description := a.renderer.render tag.description
      optional := tag.optional
      default := tag.default }

/-- The return value that a doclet describes. -/
def returns (a : Associator) (doclet : Doclet) : Option ReturnInfo :=
  (doclet.findTag ["returns"]).map fun tag =>
    ⟨TypeExpr.formatOption tag.type, a.renderer.render tag.description⟩

/-- The doc of a function, with the given number, from its comment. A function whose name cannot
be found has none. -/
def functionDoc (a : Associator) (number : Nat) (c : BlockComment) (doclet : Doclet) (n : NodeId) :
    Except Handler.Fault (Option FunctionDoc) :=
  match Naming.resolve a.source.graph a.index.parents n with
  | none => .ok none
  | some resolved => do
    let name := (QualifiedName.parse resolved).underTags doclet
    let examples ← a.builder.examples doclet c.startLine
    let benchmarks ← a.builder.benchmarks doclet
    return some
      { name with
        number
        description := a.renderer.render doclet.description
        params := a.params doclet "param"
        returns := a.returns doclet
        isConstructor := doclet.hasTag "constructor"
        isStatic := !name.name.elem '#'
        isPublic := doclet.hasTag "public"
        isPrivate := doclet.hasTag "private"
        isGlobal := (a.index.parents.get? n).any fun p => a.source.graph.kind p == "program"
        examples, benchmarks
        tags := doclet.tags.map (·.title)
        source := a.source.slice n
        line := a.source.graph.line n }

/-- The function that a comment stands before. -/
def target? (a : Associator) (c : BlockComment) : Option NodeId := a.index.get? (c.endLine + 1)

/-- The docs that some comments make, numbered from `next`. -/
def functionDocs (a : Associator) :
    Nat → List (BlockComment × Doclet) → Except Handler.Fault (List FunctionDoc)
  | _, [] => .ok []
  | next, (c, doclet) :: rest =>
    match a.target? c with
    | none => a.functionDocs next rest
    | some n => do
      match ← a.functionDoc next c doclet n with
      | none => a.functionDocs next rest
      | some doc => return doc :: (← a.functionDocs (next + 1) rest)

/-- **The docs of the functions that comments stand before**, and the notebook with these
comments. -/
def associate (a : Associator) (nb : Notebook) :
    Except Handler.Fault (List FunctionDoc) × Notebook :=
  let (read, nb) := nb.readAll (a.source.comments.filter fun c => (a.target? c).isSome)
  (a.functionDocs 0 read, nb)

/-! ## Types and the library -/

/-- The type that a doclet defines, if it does. -/
def typeInfo? (a : Associator) (doclet : Doclet) : Option TypeInfo :=
  (doclet.findTag ["typedef"]).map fun tag =>
    { name := (tag.name.filter (!·.isEmpty)).getD tag.description
      description := a.renderer.render doclet.description
      properties := a.params doclet "property" }

/-- **The types that comments define**, wherever they stand. -/
def types (a : Associator) (nb : Notebook) : List TypeInfo × Notebook :=
  let (read, nb) := nb.readAll (a.source.comments.filter fun c => Text.occursIn "@typedef" c.value)
  (read.filterMap fun (_, doclet) => a.typeInfo? doclet, nb)

/-- **What a source says about itself**: the name and the description in the first comment with
a file overview or, without one, the description of the first comment that can be read. -/
def summary (a : Associator) (nb : Notebook) : Summary × Notebook :=
  let (read, nb) := nb.readAll a.source.comments
  let doclets := read.map (·.2)
  let summary : Summary :=
    match doclets.find? (·.hasTag "fileOverview"), doclets with
    | some overview, _ =>
      ⟨overview.tagDescription ["name"], overview.tagDescription ["fileOverview"]⟩
    | none, first :: _ => ⟨[], first.description⟩
    | none, [] => ⟨[], []⟩
  ({ summary with description := a.renderer.render summary.description }, nb)

end Associator

end DocModel
