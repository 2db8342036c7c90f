import DocModel.Library.FunctionDoc
import DocModel.Pattern.Basic

/-!
# Namespaces

The docs of a library are listed by namespace. A namespace has a constructor, which is the doc with
exactly its name, and members: the static ones first, then those of instances, each in the order of
their short names. Private docs form a group of their own, whatever their names say; each of them is
also listed with the docs of its own namespace, its *methods*.
-/

namespace DocModel

/-- The name of the group of private docs. -/
def privateGroup : Text := "[private]"

/-- The group to which a doc belongs: that of the private docs, or its namespace. A doc without
a namespace has a group of its own. -/
def FunctionDoc.groupKey (d : FunctionDoc) : Text :=
  if d.isPrivate then privateGroup
  else
    match d.owner? with
    | some path => if path.isEmpty then d.shortName else path
    | none => d.shortName

/-! ## Groups -/

/-- Docs by group, in the order in which the groups first appear. -/
abbrev Groups := List (Text × List FunctionDoc)

/-- Groups with one more doc. -/
def Groups.add (d : FunctionDoc) : Groups → Groups
  | [] => [(d.groupKey, [d])]
  | (key, docs) :: groups =>
    if key = d.groupKey then (key, docs ++ [d]) :: groups
    else (key, docs) :: Groups.add d groups

/-- **Docs by group.** -/
def Groups.ofDocs (docs : List FunctionDoc) : Groups := docs.foldl (fun g d => Groups.add d g) []

/-! ## Namespaces -/

/-- **A namespace** as it is listed. -/
structure NamespaceInfo where
  /-- Its name. -/
  name : Text
  /-- The doc with exactly this name. -/
  constructor? : Option FunctionDoc
  /-- The other docs, in order. -/
  members : List FunctionDoc
  /-- The private docs among all of them, in the order of their names. -/
  privateMembers : List FunctionDoc
  /-- The docs that are listed: the constructor, then the members. -/
  allMembers : List FunctionDoc
  /-- Whether some listed doc has examples. -/
  hasExamples : Bool
  /-- Whether some doc has benchmarks. -/
  hasBenchmarks : Bool
  /-- Whether the namespace is left out of the documentation. -/
  excluded : Bool

/-- The order of members: static ones first, then by short name. -/
def FunctionDoc.memberLe (d e : FunctionDoc) : Bool :=
  if d.isStatic == e.isStatic then Text.le d.shortName e.shortName else d.isStatic

/-- The order by name. -/
def FunctionDoc.nameLe (d e : FunctionDoc) : Bool := Text.le d.name e.name

/-- The docs in whose name a pattern is found. -/
def docsMatching (p : Finder) (docs : List FunctionDoc) : List FunctionDoc :=
  docs.filter fun d => p.foundIn d.name

namespace NamespaceInfo

/-- **The namespace with a given name.** -/
def build (groups : Groups) (name : Text) : NamespaceInfo :=
  let constructor? := (groups.flatMap (·.2)).find? (·.name = name)
  let members :=
    (((groups.lookup name).getD []).filter (·.name ≠ name)).mergeSort FunctionDoc.memberLe
  let all := constructor?.toList ++ members
  { name, constructor?, members
    privateMembers := (all.filter (·.isPrivate)).mergeSort FunctionDoc.nameLe
    allMembers := all
    hasExamples := all.any (·.hasExamples)
    hasBenchmarks := all.any (·.hasBenchmarks)
    excluded := name = privateGroup || all.all (·.excluded) }

/-- **The requested namespaces**, or all of them in the order of their names if none is
requested. -/
def aggregate (docs : List FunctionDoc) (requested : List Text) : List NamespaceInfo :=
  let groups := Groups.ofDocs docs
  let wanted := if requested.isEmpty then (groups.map (·.1)).mergeSort Text.le else requested
  wanted.map (build groups)

/-- A namespace of which only the docs are listed in whose name a pattern is found. -/
def restrict (p : Finder) (info : NamespaceInfo) : NamespaceInfo :=
  let all := docsMatching p info.allMembers
  { info with allMembers := all, hasExamples := all.any (·.hasExamples) }

/-- The name under which a library is referred to, as its namespaces suggest it: the first segment
of the first one that has members. -/
def guessReference (infos : List NamespaceInfo) : Option Text :=
  (infos.find? (!·.members.isEmpty)).bind fun info => QualifiedName.firstSegment? info.name

end NamespaceInfo

/-! ## Private docs -/

/-- A private doc with the docs of its own namespace. -/
structure ElevatedDoc where
  /-- The private doc. -/
  doc : FunctionDoc
  /-- The docs whose namespace is its short name. -/
  methods : List FunctionDoc

/-- Docs without those that stand further up already. -/
def distinctDocs : List FunctionDoc → List FunctionDoc
  | [] => []
  | d :: ds => d :: (distinctDocs ds).filter (·.number ≠ d.number)

/-- **The private docs of some namespaces**, each once, with their methods among `docs`. -/
def elevatePrivate (infos : List NamespaceInfo) (docs : List FunctionDoc) : List ElevatedDoc :=
  (distinctDocs (infos.flatMap (·.privateMembers))).map fun d =>
    ⟨d, docs.filter (·.owner? = some d.shortName)⟩

/-- The section of its namespace in which a doc stands. -/
inductive SectionKind where
  /-- Among the constructors. -/
  | constructor
  /-- Among the methods. -/
  | method
  deriving DecidableEq

/-- The section in which a doc stands: among the constructors if it is one and belongs to one of the
namespaces. -/
def sectionOf (infos : List NamespaceInfo) (d : FunctionDoc) : SectionKind :=
  let listed := infos.any fun info =>
    (info.constructor?.toList ++ info.members).any (·.number = d.number)
  if d.isConstructor && listed then .constructor else .method

end DocModel
