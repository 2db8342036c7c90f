import DocModel.Proofs.Syntax.Preorder
import DocModel.Syntax.Source

/-!
# The first function on a line

The functions of a source are found by a walk through the graph of its syntax tree. In that graph
nodes are numbered from the root down, so there are no cycles and the walk is the recursive one. On
each line the index keeps the first function that the walk meets (`DeclarationIndex.get?_of_build`),
whatever else starts there.
-/

namespace DocModel

namespace Graph

/-! ## The graph of a tree has no cycles -/

/-- Nodes, numbered from `n` on, that refer only to nodes with larger numbers than their own. -/
def Downward (n : NodeId) (nodes : List Node) : Prop :=
  ∀ i node, nodes[i]? = some node →
    (∀ c ∈ node.children, n + i < c) ∧ ∀ role c, (role, c) ∈ node.roles → n + i < c

theorem Downward.append {n : NodeId} {xs ys : List Node} (hxs : Downward n xs)
    (hys : Downward (n + xs.length) ys) : Downward n (xs ++ ys) := by
  intro i node hnode
  rw [List.getElem?_append] at hnode
  split at hnode
  · exact hxs i node hnode
  · next hi =>
    have hi : xs.length ≤ i := Nat.le_of_not_lt hi
    rw [← Nat.add_sub_of_le hi, ← Nat.add_assoc]
    exact hys _ node hnode

theorem Downward.cons {n : NodeId} {node : Node} {nodes : List Node}
    (hchildren : ∀ c ∈ node.children, n < c) (hroles : ∀ role c, (role, c) ∈ node.roles → n < c)
    (hnodes : Downward (n + 1) nodes) : Downward n (node :: nodes) := by
  show Downward n ([node] ++ nodes)
  refine Downward.append (fun i other hother => ?_) hnodes
  rw [List.getElem?_singleton] at hother
  split at hother
  · next hi =>
    cases hother
    rw [hi]
    exact ⟨hchildren, hroles⟩
  · cases hother

mutual

/-- The numbers of a tree run on from the number of its root. -/
theorem flatten_downward (source : Text) (n : NodeId) : ∀ tree : SyntaxTree,
    (flatten source n tree).2 = n + (flatten source n tree).1.length ∧
      n < (flatten source n tree).2 ∧ Downward n (flatten source n tree).1
  | .node kind named start stop role children => by
    obtain ⟨hnext, hids, hbelow⟩ := flattenEach_downward source (n + 1) children
    rw [flatten]
    refine ⟨?_, ?_, Downward.cons (fun c hc => ?_) (fun role c hc => ?_) hbelow⟩
    · rw [List.length_cons, hnext, Nat.add_assoc, Nat.add_comm 1]
    · rw [hnext]
      exact Nat.lt_of_lt_of_le (Nat.lt_succ_self n) (Nat.le_add_right _ _)
    · obtain ⟨⟨own, _⟩, hown, rfl⟩ := List.mem_map.mp hc
      exact hids own _ hown
    · obtain ⟨⟨own, _⟩, hown, hrole⟩ := List.mem_filterMap.mp hc
      obtain ⟨_, -, heq⟩ := Option.map_eq_some_iff.mp hrole
      cases heq
      exact hids own _ hown

theorem flattenEach_downward (source : Text) (n : NodeId) : ∀ trees : List SyntaxTree,
    (flattenEach source n trees).2.2 = n + (flattenEach source n trees).1.length ∧
      (∀ role id, (role, id) ∈ (flattenEach source n trees).2.1 → n ≤ id) ∧
      Downward n (flattenEach source n trees).1
  | [] => by
    rw [flattenEach]
    exact ⟨rfl, fun _ _ h => absurd h List.not_mem_nil, fun i node h => by simp at h⟩
  | t :: ts => by
    obtain ⟨hnext, hroot, hfirst⟩ := flatten_downward source n t
    obtain ⟨hlast, hids, hrest⟩ := flattenEach_downward source (flatten source n t).2 ts
    rw [flattenEach]
    refine ⟨?_, fun role id hid => ?_, hfirst.append (hnext ▸ hrest)⟩
    · rw [List.length_append, hlast, hnext, Nat.add_assoc]
    · cases hid with
      | head => exact Nat.le_refl n
      | tail _ hid => exact Nat.le_trans (Nat.le_of_lt hroot) (hids role id hid)

end

theorem getElem?_flatten (source : Text) (tree : SyntaxTree) {n : NodeId}
    (hn : n < (ofTree source tree).nodes.size) :
    (flatten source 0 tree).1[n]? = some ((ofTree source tree).node n) := by
  rw [node, Array.getElem?_eq_getElem hn, Option.getD_some]
  exact List.getElem?_eq_getElem hn

/-- In the graph of a syntax tree, what stands below a node has a larger number. -/
theorem lt_of_isBelow_ofTree {source : Text} {tree : SyntaxTree} {c n : NodeId}
    (h : (ofTree source tree).IsBelow c n) : n < c := by
  obtain ⟨-, -, hdown⟩ := flatten_downward source 0 tree
  obtain ⟨hchildren, hroles⟩ := hdown n _ (getElem?_flatten source tree (lt_size_of_isBelow h))
  rw [Nat.zero_add] at hchildren hroles
  obtain hc | ⟨role, hrole⟩ := h
  · exact hchildren c hc
  · exact hroles role c hrole

/-- **The graph of a syntax tree has no cycles.** -/
theorem acyclic_ofTree (source : Text) (tree : SyntaxTree) (table : ChildTable) :
    (ofTree source tree).Acyclic table :=
  acyclic_of_lt fun _ _ hc => lt_of_isBelow_ofTree (isBelow_of_isSlot hc)

/-- The recursive walk through everything below a node. -/
def Acyclic.walked {g : Graph} {table : ChildTable} (acyclic : g.Acyclic table) (root : NodeId) :
    Trail :=
  (preorder acyclic.wellFounded (fun _ _ => .descend) root ⟨[], .empty⟩).1

/-- The first function on a line, among nodes in the order in which they are met. -/
def firstFunction? (g : Graph) (order : List NodeId) (line : Nat) : Option NodeId :=
  order.find? fun n => isFunction (g.kind n) && g.line n == line

theorem line_of_firstFunction? {g : Graph} {order : List NodeId} {line : Nat} {n : NodeId}
    (h : g.firstFunction? order line = some n) : g.line n = line := by
  have hn := List.find?_some h
  rw [Bool.and_eq_true, beq_iff_eq] at hn
  exact hn.2

end Graph

/-! ## The index -/

namespace DeclarationIndex

theorem parents_foldl_add (g : Graph) (order : List NodeId) (index : DeclarationIndex) :
    (order.foldl (add g) index).parents = index.parents := by
  induction order generalizing index with
  | nil => rfl
  | cons n order ih =>
    rw [List.foldl_cons, ih]
    unfold add
    split
    · split <;> rfl
    · split <;> rfl

/-- A node counts for its line if it is a function and the line is still free. -/
theorem get?_add (g : Graph) (index : DeclarationIndex) (n : NodeId) (line : Nat) :
    (add g index n).get? line
      = (index.get? line).or (if isFunction (g.kind n) && g.line n == line then some n else none)
    := by
  unfold add
  split
  · next hfunction =>
    rw [hfunction, Bool.true_and]
    split
    · next htaken =>
      show index.get? line = _
      by_cases hline : g.line n = line
      · rw [hline] at htaken
        obtain ⟨m, hm⟩ := Option.isSome_iff_exists.mp htaken
        rw [hm, Option.some_or]
      · rw [if_neg (by simpa using hline), Option.or_none]
    · show (index.byLine ++ [(g.line n, n)]).lookup line = _
      rw [List.lookup_append]
      show (index.get? line).or _ = _
      congr 1
      rw [List.lookup_cons, List.lookup_nil, Bool.beq_comm (a := line)]
      cases g.line n == line <;> rfl
  · next hfunction =>
    rw [Bool.not_eq_true] at hfunction
    rw [hfunction, Bool.false_and, if_neg Bool.false_ne_true, Option.or_none]
    split <;> rfl

/-- **The first function on a line counts.** -/
theorem get?_foldl_add (g : Graph) (order : List NodeId) (index : DeclarationIndex) (line : Nat) :
    (order.foldl (add g) index).get? line
      = (index.get? line).or (g.firstFunction? order line) := by
  induction order generalizing index with
  | nil => exact Option.or_none.symm
  | cons n order ih =>
    rw [List.foldl_cons, ih, get?_add, Option.or_assoc]
    congr 1
    unfold Graph.firstFunction?
    rw [List.find?_cons]
    cases isFunction (g.kind n) && g.line n == line <;> rfl

/-- **The index holds what the recursive walk meets**: its parents, and on each line the first
function. -/
theorem get?_of_build {g : Graph} {table : ChildTable} (acyclic : g.Acyclic table) {root : NodeId}
    {index : DeclarationIndex} (h : build g table root = .ok index) :
    index.parents = (acyclic.walked root).parents ∧
      ∀ line, index.get? line = g.firstFunction? (acyclic.walked root).visited.reverse line := by
  have hwalk := acyclic.walkSteps_root (fun _ _ => .descend) root ⟨[], .empty⟩
  rw [build, Graph.walk, hwalk] at h
  simp only [Prod.map_fst, Prod.map_snd, id] at h
  split at h
  · cases h
    refine ⟨parents_foldl_add g _ _, fun line => ?_⟩
    rw [get?_foldl_add]
    rfl
  · cases h
  · cases h

end DeclarationIndex

end DocModel
