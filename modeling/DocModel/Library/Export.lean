import DocModel.Library.Session

/-!
# Libraries as values

A library is exported as a structured value that holds every field of it. A doc is repeated wherever
the library refers to it, and a private doc holds its methods as whole docs. If a private doc is,
directly or through others, among its own methods, there is no such value.
-/

namespace DocModel

/-! ## Parts of a doc -/

/-- A parameter as a value. -/
def ParameterInfo.toValue (p : ParameterInfo) : Value :=
  .record
    [("name", p.name), ("type", p.type), ("description", p.description),
     ("optional", .bool p.optional), ("default", .ofText? p.default)]

/-- A return value as a value. -/
def ReturnInfo.toValue (r : ReturnInfo) : Value :=
  .record [("type", r.type), ("description", r.description)]

/-- The way in which an example is checked, as values. -/
def Check.entries (c : Check) : List (Text × Value) :=
  let fields (broken custom : Bool) (index template : Value) (data : List (Text × Value)) :
      List (Text × Value) :=
    [("broken", .bool broken), ("has_custom_handler", .bool custom), ("handler_index", index),
     ("handler_template", template), ("handler_data", .record data)]
  match c with
  | .test index => fields false true (.nat index) .null []
  | .template index t data => fields false false (.nat index) t data
  | .comparison => fields false false .null .null []
  | .broken => fields true false .null .null []

/-- An example as a value. -/
def Example.toValue (e : Example) : Value :=
  let sides : List (Text × Value) :=
    [("id", .nat e.id), ("line_number", .int e.line), ("actual", .text e.actual),
     ("actual_escaped", .text (Markup.scriptEscape e.actual)), ("expected", .text e.expected),
     ("expected_escaped", .text (Markup.scriptEscape e.expected)),
     ("is_multiline", .bool e.multiline)]
  .record (sides ++ e.check.entries)

/-- The examples of a comment as a value. -/
def Examples.toValue (e : Examples) : Value :=
  .record
    [("blocks", .list (e.blocks.map fun b => .record
        [("code", .text b.code), ("setup", .text b.setup),
         ("examples", .list (b.examples.map (·.toValue)))])),
     ("items", .list (e.items.map (·.toValue)))]

/-- A case of a benchmark as a value. -/
def BenchmarkCase.toValue (c : BenchmarkCase) : Value :=
  .record
    [("case_id", .nat c.id), ("impl", .text c.impl), ("name", .text c.name),
     ("label", .text c.label)]

/-- A benchmark as a value. -/
def Benchmark.toValue (b : Benchmark) : Value :=
  .record
    [("id", .nat b.id), ("name", .text b.name), ("cases", .list (b.cases.map (·.toValue)))]

/-- The benchmarks of a comment as a value. -/
def Benchmarks.toValue (b : Benchmarks) : Value :=
  .record
    [("blocks", .list (b.blocks.map fun block => .record
        [("code", .text block.code), ("setup", .text block.setup),
         ("benchmarks", .list (block.benchmarks.map (·.toValue)))])),
     ("items", .list (b.items.map (·.toValue)))]

/-! ## Docs -/

/-- The name of a section. -/
def SectionKind.name : SectionKind → Text
  | constructor => "constructor"
  | method => "method"

/-- A doc as a value, with the values of its methods. -/
def FunctionDoc.toValue (d : FunctionDoc) (sect : SectionKind) (methods : List Value) : Value :=
  .record
    [("name", .text d.name), ("short_name", .text d.shortName), ("long_name", .text d.longName),
     ("namespace", .ofText? d.owner?), ("identifier", .text d.identifier),
     ("description", .text d.description), ("params", .list (d.params.map (·.toValue))),
     ("returns", (d.returns.map (·.toValue)).getD .null),
     ("is_constructor", .bool d.isConstructor), ("is_static", .bool d.isStatic),
     ("is_public", .bool d.isPublic), ("is_private", .bool d.isPrivate),
     ("is_global", .bool d.isGlobal), ("has_signature", .bool d.hasSignature),
     ("signature", .text d.signature), ("examples", d.examples.toValue),
     ("has_examples", .bool d.hasExamples), ("benchmarks", d.benchmarks.toValue),
     ("has_benchmarks", .bool d.hasBenchmarks), ("tags", .texts d.tags),
     ("source", .text d.source), ("line_number", .nat d.line),
     ("exclude_from_docs", .bool d.excluded), ("section_type", .text sect.name),
     ("methods", .list methods)]

/-- A namespace as a value, with the values of its constructor and of its lists of docs. -/
def NamespaceInfo.toValue (info : NamespaceInfo)
    (constructor members privateMembers allMembers : Value) : Value :=
  .record
    [("namespace", .text info.name), ("constructor_method", constructor), ("members", members),
     ("private_members", privateMembers), ("all_members", allMembers),
     ("has_examples", .bool info.hasExamples), ("has_benchmarks", .bool info.hasBenchmarks),
     ("exclude_from_docs", .bool info.excluded)]

namespace Library

/-- The methods of a doc of a library; only private docs have any. -/
def methodsOf (l : Library) (d : FunctionDoc) : List FunctionDoc :=
  match l.privateDocs.find? (·.doc.number = d.number) with
  | some e => e.methods
  | none => []

/-- A doc of a library as a value, with methods inside methods at most `depth` deep. -/
def docValueUpTo (l : Library) : Nat → FunctionDoc → Option Value
  | 0, _ => none
  | depth + 1, d => do
    let methods ← (l.methodsOf d).mapM (l.docValueUpTo depth)
    return d.toValue (sectionOf l.namespaces d) methods

/-- **A doc of a library as a value.** Each doc that has methods is private, so the way from a doc
down through methods either has no more steps than there are private docs or repeats itself. -/
def docValue? (l : Library) (d : FunctionDoc) : Option Value :=
  l.docValueUpTo (l.privateDocs.length + 1) d

/-- Several docs of a library as a value. -/
def docValues? (l : Library) (docs : List FunctionDoc) : Option Value :=
  return .list (← docs.mapM l.docValue?)

/-- A namespace of a library as a value. -/
def namespaceValue? (l : Library) (info : NamespaceInfo) : Option Value := do
  let constructor ←
    match info.constructor? with
    | some d => l.docValue? d
    | none => some .null
  return info.toValue constructor (← l.docValues? info.members)
    (← l.docValues? info.privateMembers) (← l.docValues? info.allMembers)

end Library

/-- A type as a value. -/
def TypeInfo.toValue (t : TypeInfo) : Value :=
  .record
    [("name", .text t.name), ("identifier", .text t.name), ("description", .text t.description),
     ("properties", .list (t.properties.map (·.toValue)))]

/-- What was done when a comment could not be read. -/
def CommentError.stage : Text := "parsing comment"

/-- A comment that could not be read, as a value. -/
def CommentError.toValue (e : CommentError) : Value :=
  .record
    [("stage", .text CommentError.stage), ("line", .nat e.line),
     ("message", .text e.problem.message)]

namespace Library

/-- A library as a value, with or without its source, from the values of its namespaces and of its
lists of docs. -/
def toValue (l : Library) (includeCode : Bool) (namespaces : List Value)
    (docs privateDocs : Value) : Value :=
  let heading : List (Text × Value) :=
    [("name", .ofText? l.name), ("reference_name", .ofText? l.referenceName),
     ("description", .text l.description)]
  let code : List (Text × Value) := if includeCode then [("code", .text l.code)] else []
  let parts : List (Text × Value) :=
    [("namespaces", .list namespaces), ("docs", docs), ("private_members", privateDocs),
     ("types", .list (l.types.map (·.toValue))), ("errors", .list (l.errors.map (·.toValue)))]
  .record (heading ++ code ++ parts)

/-- **A library as a value**, with or without its source; there is none if a private doc is,
directly or through others, among its own methods. -/
def toValue? (l : Library) (includeCode : Bool) : Option Value := do
  let namespaces ← l.namespaces.mapM l.namespaceValue?
  let docs ← l.docValues? l.docs
  let privateDocs ← l.docValues? (l.privateDocs.map (·.doc))
  return l.toValue includeCode namespaces docs privateDocs

end Library

end DocModel
