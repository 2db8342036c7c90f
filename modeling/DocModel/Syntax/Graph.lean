import DocModel.Syntax.Tree

/-!
# Graphs of nodes

Names are found by going from node to node, up and down, so nodes are numbered and a node refers
to others by their numbers. In the graph of a syntax tree the nodes are numbered in the order in
which a depth-first walk from the root meets them. In general a node may stand below several
others; what identifies it is its number.
-/

namespace DocModel

/-- The number of a node. -/
abbrev NodeId := Nat

/-- **A node.** -/
structure Node where
  /-- Its kind. -/
  kind : String
  /-- Whether the kind is a named one. -/
  named : Bool
  /-- The number of the line on which it starts, counted from zero. -/
  row : Nat
  /-- The byte where its text starts. -/
  start : Nat
  /-- The byte where its text stops. -/
  stop : Nat
  /-- Its text, if it has one. -/
  text : Option Text
  /-- Its children, in order. -/
  children : List NodeId
  /-- The nodes that play a role for it, with the role. -/
  roles : List (String × NodeId)

/-- **A graph of nodes.** -/
structure Graph where
  /-- The nodes by their numbers. -/
  nodes : Array Node

namespace Graph

/-- What stands for a number that no node has. -/
def missing : Node := ⟨"", false, 0, 0, 0, none, [], []⟩

/-- The node with a given number. -/
def node (g : Graph) (n : NodeId) : Node := g.nodes[n]?.getD missing

/-- The kind of a node. -/
def kind (g : Graph) (n : NodeId) : String := (g.node n).kind

/-- The node that plays a role for another. -/
def role? (g : Graph) (n : NodeId) (role : String) : Option NodeId := (g.node n).roles.lookup role

/-- The children of a node that are of a named kind. -/
def namedChildren (g : Graph) (n : NodeId) : List NodeId :=
  (g.node n).children.filter fun c => (g.node c).named

/-- The text of a node, empty if there is no node or no text. -/
def textOf (g : Graph) (n : Option NodeId) : Text := (n.bind fun n => (g.node n).text).getD []

/-- The number of the line on which a node starts, counted from one. -/
def line (g : Graph) (n : NodeId) : Nat := (g.node n).row + 1

/-- **A short description of a node** for messages: its kind and those of its named children, with
their roles if these have names. -/
def describe (g : Graph) (n : NodeId) : Text :=
  let children := (g.namedChildren n).map fun c =>
    let kind : Text := g.kind c
    match (g.node n).roles.find? fun (_, m) => m == c with
    | some (role, _) => if role.isEmpty then kind else role ++ ":" ++ kind
    | none => kind
  g.kind n ++ " (" ++ Text.join ", " children ++ ")"

/-! ## The graph of a syntax tree -/

mutual

/-- The nodes of a syntax tree of the text `source`; the root gets the number `n`, and `next` is the
first number after those that are used up. -/
def flatten (source : Text) (n : NodeId) : SyntaxTree → List Node × NodeId
  | .node kind named start stop _ children =>
    let (below, ids, next) := flattenEach source (n + 1) children
    let root : Node :=
      { kind, named, start, stop
        row := Text.rowAt start source
        text := some (Text.sliceBytes start stop source)
        children := ids.map (·.2)
        roles := ids.filterMap fun (role, id) => role.map (·, id) }
    (root :: below, next)

/-- The nodes of several trees, with the roles and the numbers of their roots. -/
def flattenEach (source : Text) (n : NodeId) :
    List SyntaxTree → List Node × List (Option String × NodeId) × NodeId
  | [] => ([], [], n)
  | t :: ts =>
    let (nodes, next) := flatten source n t
    let (more, ids, next) := flattenEach source next ts
    (nodes ++ more, (t.role, n) :: ids, next)

end

/-- **The graph of a syntax tree**; its root is node 0. -/
def ofTree (source : Text) (tree : SyntaxTree) : Graph := ⟨(flatten source 0 tree).1.toArray⟩

end Graph

end DocModel
