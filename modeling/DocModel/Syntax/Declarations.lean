import DocModel.Syntax.Naming

/-!
# Declarations by line

A doc comment belongs to the function that starts on the line after it, so the functions of
a source are indexed by the lines on which they start. When several start on one line, the first one
that a walk meets counts and the others are shadowed. The same walk finds the name that the source
assigns to `module.exports`.
-/

namespace DocModel

/-- **The functions of a source by line.** -/
structure DeclarationIndex where
  /-- The first function on each line, counted from one, in the order of the walk. -/
  byLine : List (Nat × NodeId)
  /-- The other functions, in the order of the walk. -/
  shadowed : List NodeId
  /-- The name assigned to `module.exports`. -/
  referenceName : Option Text
  /-- The parents of the nodes. -/
  parents : ParentTable

namespace DeclarationIndex

/-- The function that starts on a line. -/
def get? (index : DeclarationIndex) (line : Nat) : Option NodeId := index.byLine.lookup line

/-- The name that a node assigns to `module.exports`, if it does. -/
def exportedName? (g : Graph) (n : NodeId) : Option Text :=
  match g.role? n "left", g.role? n "right" with
  | some left, some right =>
    match g.role? left "object" with
    | some object =>
      if g.kind left = "member_expression" ∧ g.kind object = "identifier"
          ∧ g.kind right = "identifier" ∧ g.textOf (some object) = "module"
          ∧ g.textOf (g.role? left "property") = "exports" then
        some (g.textOf (some right))
      else none
    | none => none
  | _, _ => none

/-- The index with one more node of the walk. -/
def add (g : Graph) (index : DeclarationIndex) (n : NodeId) : DeclarationIndex :=
  if isFunction (g.kind n) then
    if (index.get? (g.line n)).isSome then { index with shadowed := index.shadowed ++ [n] }
    else { index with byLine := index.byLine ++ [(g.line n, n)] }
  else if index.referenceName.isNone && g.kind n == "assignment_expression" then
    { index with referenceName := exportedName? g n }
  else index

/-- Why the functions of a graph cannot be indexed. -/
inductive Problem where
  /-- There is a node of an unknown kind. -/
  | unknownKind (report : UnknownKind)
  /-- There are cycles. -/
  | cyclic

/-- **The index of the functions below a node.** -/
def build (g : Graph) (table : ChildTable) (root : NodeId) : Except Problem DeclarationIndex :=
  let (trail, ending) := g.walk table (fun _ _ => .descend) root .empty
  match ending with
  | .finished => .ok (trail.visited.reverse.foldl (add g) ⟨[], [], none, trail.parents⟩)
  | .unknownKind n => .error (.unknownKind (g.unknownKind n))
  | .cyclic => .error .cyclic

end DeclarationIndex

end DocModel
