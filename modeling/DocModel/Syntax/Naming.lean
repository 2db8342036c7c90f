import DocModel.Syntax.Walk

/-!
# Names of functions

The name of a function is found by going up from its node: a function in an assignment has the name
of the target, a method the name of its class before it, a function in an object literal the name
of the object, and so on. On the way up each node is looked at only once; coming to a node for the
second time ends the search without a name, so the search ends on any table of parents.

The name of the target of an assignment is found by going down from it, through member accesses to
the name at their left end.
-/

namespace DocModel

namespace Naming

/-- A text unless it is absent or empty. -/
def solid? (t : Option Text) : Option Text := t.filter (!·.isEmpty)

/-- Two names with a dot between them; one that is absent or empty is left out. -/
def joinNames (left right : Option Text) : Option Text :=
  match solid? left, solid? right with
  | some l, some r => some (l ++ "." ++ r)
  | _, none => left
  | none, some r => some r

/-- A text without the quotation marks around it. -/
def stripQuotes : Text → Text
  | q :: cs =>
    if (q == '\x27' || q == '\x22' || q == '\x60') && cs.getLast? == some q then cs.dropLast
    else q :: cs
  | [] => []

/-- The name that a literal, computed or plain key stands for. A computed key has one only if it is
a literal. -/
def key? (g : Graph) (n : Option NodeId) : Option Text :=
  match n with
  | none => none
  | some n =>
    if isStringLiteral (g.kind n) then some (stripQuotes (g.textOf (some n)))
    else if g.kind n == "computed_property_name" then
      match (g.namedChildren n).head? with
      | some inner =>
        if isStringLiteral (g.kind inner) then some (stripQuotes (g.textOf (some inner))) else none
      | none => none
    else some (g.textOf (some n))

/-- The dotted name of the target of an assignment, at most `depth` accesses deep, and the nodes
that were looked at. `this` contributes nothing. -/
def qualifiedUpTo (g : Graph) : Nat → Option NodeId → Option Text × List NodeId
  | 0, _ => (none, [])
  | _, none => (none, [])
  | depth + 1, some n =>
    let kind := g.kind n
    if isIdentifier kind then (some (g.textOf (some n)), [n])
    else if kind == "member_expression" then
      let (owner, seen) := qualifiedUpTo g depth (g.role? n "object")
      (joinNames owner (some (g.textOf (g.role? n "property"))), n :: seen)
    else if kind == "subscript_expression" then
      let (owner, seen) := qualifiedUpTo g depth (g.role? n "object")
      let index := g.role? n "index"
      let key :=
        if index.any fun i => isStringLiteral (g.kind i) then key? g index
        else some (g.textOf index)
      (joinNames owner key, n :: seen)
    else if kind == "parenthesized_expression" then
      match (g.namedChildren n).head? with
      | some inner =>
        let (name, seen) := qualifiedUpTo g depth (some inner)
        (name, n :: seen)
      | none => (none, [n])
    else (none, [n])

/-- **The dotted name of the target of an assignment**, and the nodes that were looked at. A way
down without repetition has no more nodes than the graph. -/
def qualified (g : Graph) (n : Option NodeId) : Option Text × List NodeId :=
  qualifiedUpTo g (g.nodes.size + 1) n

/-- A set of nodes with more nodes added. -/
def markAll (visited : List NodeId) (more : List NodeId) : List NodeId :=
  more.foldl (fun v n => if v.contains n then v else n :: v) visited

/-- The name of a member with the key `key` in the owner that is reached from `container`. In the
body of a class `static` decides between the class and its instances, and the constructor has the
name of the class. -/
def memberName (inClass isConstructor isStatic : Bool) (owner : Option Text) (key : Text) :
    Option Text :=
  (solid? owner).map fun owner =>
    if !inClass then owner ++ "." ++ key
    else if isConstructor then owner
    else owner ++ (if isStatic then "." else "#") ++ key

/-- The next step of a search: an answer, with the nodes looked at for it, or a node to go on with
and what to do with the name found there. -/
inductive Step where
  /-- The search ends here. -/
  | answer (name : Option Text) (seen : List NodeId)
  /-- The search goes on at another node. -/
  | goOn (next : Option NodeId) (finish : Option Text → Option Text)

/-- The step for a member of a class or an object literal. -/
def memberStep (g : Graph) (parents : ParentTable) (n : NodeId) (keyNode : Option NodeId) : Step :=
  match parents.get? n, solid? (key? g keyNode) with
  | some container, some key =>
    let inClass := g.kind container == "class_body"
    let isConstructor := key = "constructor" ∧ g.kind n = "method_definition"
    let isStatic := (g.node n).children.any fun c => g.kind c == "static"
    .goOn (if inClass then parents.get? container else some container) fun owner =>
      memberName inClass isConstructor isStatic owner key
  | _, _ => .answer none []

/-- **The step at a node**, by its kind. -/
def step (g : Graph) (parents : ParentTable) (n : NodeId) : Step :=
  let kind := g.kind n
  let parent := parents.get? n
  let target := fun (n : Option NodeId) =>
    let (name, seen) := qualified g n
    Step.answer name seen
  if isIdentifier kind then .answer (some (g.textOf (some n))) []
  else if isFunctionDeclaration kind || kind == "class_declaration" then
    .answer (solid? (some (g.textOf (g.role? n "name")))) []
  else if kind == "method_definition" then memberStep g parents n (g.role? n "name")
  else if kind == "field_definition" then memberStep g parents n (g.role? n "property")
  else if isFunctionExpression kind then .goOn parent id
  else if isAssignment kind then target (g.role? n "left")
  else if kind == "variable_declarator" then target (g.role? n "name")
  else if kind == "pair" then
    let key := solid? (key? g (g.role? n "key"))
    .goOn parent fun owner => key.bind fun key => (solid? owner).map (· ++ "." ++ key)
  else if isMemberAccess kind then
    if parent.any fun p => isAssignment (g.kind p) then target (some n) else .answer none []
  else if kind == "expression_statement" then
    .goOn ((g.namedChildren n).filter fun c => g.kind c != "comment").head? id
  else .goOn parent id

/-- At most `budget` steps of the search for a name, with the nodes looked at so far. -/
def climb (g : Graph) (parents : ParentTable) :
    Nat → Option NodeId → List NodeId → Option Text × List NodeId
  | 0, _, visited => (none, visited)
  | _, none, visited => (none, visited)
  | budget + 1, some n, visited =>
    if visited.contains n then (none, visited)
    else
      let visited := n :: visited
      match step g parents n with
      | .answer name seen => (name, markAll visited seen)
      | .goOn next finish =>
        let (name, visited) := climb g parents budget next visited
        (finish name, visited)

/-- **The name of a function**, and the nodes looked at, those in `visited` included. The first
`.prototype.` is written `#`. A search that looks at each node once has no more steps than the
graph has nodes. -/
def resolveFrom (g : Graph) (parents : ParentTable) (n : Option NodeId) (visited : List NodeId) :
    Option Text × List NodeId :=
  let (name, visited) := climb g parents (g.nodes.size + 1) n visited
  ((solid? name).map (Text.replaceFirst ".prototype." "#"), visited)

/-- **The name of a function.** -/
def resolve (g : Graph) (parents : ParentTable) (n : NodeId) : Option Text :=
  (resolveFrom g parents (some n) []).1

end Naming

end DocModel
