import DocModel.Syntax.Kinds

/-!
# Walks

A walk goes through a graph from a node down, visiting each node before what is below it and the
children of a node from left to right. A visitor decides at each node whether to go on below it.
On its way the walk notes in a table of parents from which node it came to which; the first
parent that is noted for a node stays.

The walk keeps a stack of the nodes still to be visited. If the children relation has no cycles,
the number of visits is at most the size of the tree into which the graph unfolds, and that size is
the budget of the walk.
-/

namespace DocModel

/-! ## Parents -/

/-- **A table of parents.** -/
structure ParentTable where
  /-- The pairs of child and parent, the last one first. -/
  entries : List (NodeId × NodeId)

namespace ParentTable

/-- The table without entries. -/
def empty : ParentTable := ⟨[]⟩

/-- The parent noted for a node. -/
def get? (t : ParentTable) (child : NodeId) : Option NodeId := t.entries.lookup child

/-- Notes a parent, unless there is one already. -/
def assign (t : ParentTable) (child parent : NodeId) : ParentTable :=
  if (t.get? child).isSome then t else ⟨(child, parent) :: t.entries⟩

/-- Notes a parent for several nodes. -/
def assignAll (t : ParentTable) (children : List NodeId) (parent : NodeId) : ParentTable :=
  children.foldl (fun t child => t.assign child parent) t

/-- The number of entries. -/
def size (t : ParentTable) : Nat := t.entries.length

/-- The entries in the order in which they were made. -/
def toList (t : ParentTable) : List (NodeId × NodeId) := t.entries.reverse

/-- The first `n` nodes on the way up from a node. -/
def ancestorsUpTo (t : ParentTable) : Nat → NodeId → List NodeId
  | 0, _ => []
  | n + 1, child =>
    match t.get? child with
    | none => []
    | some parent => parent :: t.ancestorsUpTo n parent

/-- **The nodes on the way up from a node**, the nearest first. A way without repetition has no
more steps than the table has entries. -/
def ancestors (t : ParentTable) (child : NodeId) : List NodeId := t.ancestorsUpTo t.size child

end ParentTable

/-! ## The walk -/

/-- What a visitor wants after a visit. -/
inductive Action where
  /-- Go on below the node. -/
  | descend
  /-- Leave out what is below the node. -/
  | skip
  /-- Stop the walk. -/
  | halt
  deriving DecidableEq

/-- A visitor: what to do at a node, given the nodes visited before it, the last one first. -/
abbrev Visitor := List NodeId → NodeId → Action

/-- How a walk ended. -/
inductive Ending where
  /-- Everything has been visited, or the visitor stopped. -/
  | finished
  /-- A node of an unknown kind was met. -/
  | unknownKind (node : NodeId)
  /-- There are cycles. -/
  | cyclic
  deriving DecidableEq

/-- **What a walk has done**: the nodes visited, the last one first, and the table of parents. -/
structure Trail where
  /-- The nodes visited, the last one first. -/
  visited : List NodeId
  /-- The table of parents. -/
  parents : ParentTable

/-- What some nodes cost together. -/
def totalCost (cost : NodeId → Nat) : List NodeId → Nat
  | [] => 0
  | n :: ns => cost n + totalCost cost ns

/-- The size of the tree into which a graph unfolds below a node, down to `depth` levels. -/
def unfoldedSize (slots? : NodeId → Option (List NodeId)) : Nat → NodeId → Nat
  | 0, _ => 1
  | depth + 1, n => 1 + totalCost (unfoldedSize slots? depth) ((slots? n).getD [])

/-- At most `budget` steps of a walk with the given stack. -/
def walkSteps (slots? : NodeId → Option (List NodeId)) (visit : Visitor) :
    Nat → List NodeId → Trail → Trail × Ending
  | _, [], t => (t, .finished)
  | 0, _ :: _, t => (t, .cyclic)
  | budget + 1, n :: stack, t =>
    match slots? n with
    | none => (t, .unknownKind n)
    | some children =>
      let action := visit t.visited n
      let t := { t with visited := n :: t.visited }
      match action with
      | .halt => (t, .finished)
      | .skip => walkSteps slots? visit budget stack t
      | .descend =>
        walkSteps slots? visit budget (children ++ stack)
          { t with parents := t.parents.assignAll children n }

/-- **A walk from a node**, which adds to a given table of parents. -/
def Graph.walk (g : Graph) (table : ChildTable) (visit : Visitor) (root : NodeId)
    (parents : ParentTable) : Trail × Ending :=
  walkSteps (g.slots? table) visit (unfoldedSize (g.slots? table) g.nodes.size root) [root]
    ⟨[], parents⟩

/-- **A node of an unknown kind.** -/
structure UnknownKind where
  /-- The kind. -/
  kind : String
  /-- The description of the node. -/
  description : Text

/-- The message for a node of an unknown kind. -/
def UnknownKind.message (u : UnknownKind) : Text :=
  "Unknown node type \"" ++ u.kind ++ "\"\nData: " ++ u.description

/-- The report for a node of an unknown kind. -/
def Graph.unknownKind (g : Graph) (n : NodeId) : UnknownKind := ⟨g.kind n, g.describe n⟩

end DocModel
