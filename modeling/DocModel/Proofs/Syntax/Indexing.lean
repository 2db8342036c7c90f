import DocModel.Proofs.Syntax.ObjectLiterals
import DocModel.Syntax.Declarations
import Mathlib.Data.List.TakeWhile

/-!
# Each function is indexed or shadowed

A walk through a whole tree meets its nodes in pre-order, and `preorderNodes` is that order as
a list. The stack of the walk always holds the roots of what is still to come, so a visit takes the
first node off the list and the walk takes all of it, or all of it up to the first node of an
unknown kind (`walkSteps_descend`). In a tree no node comes twice (`Graph.WalkedAsTree.nodup`).

The index is filled on the way. What it holds after any part of the walk is said by
`DeclarationIndex.Describes`, which one more node keeps (`DeclarationIndex.Describes.add`): the
first function on each line, the other functions in their order, and the first name that is
exported. After the whole walk each function of the tree is in exactly one of the two places.
-/

namespace DocModel

variable {slots? : NodeId → Option (List NodeId)}

/-! ## The nodes in pre-order -/

/-- **The nodes below a node in pre-order**, the node itself first. Below a node of an unknown kind
there is none. -/
def preorderNodes (wf : WellFounded (IsSlot slots?)) (n : NodeId) : List NodeId :=
  n :: ((slots? n).getD []).attach.flatMap fun c => preorderNodes wf c.1
termination_by wf.wrap n
decreasing_by exact c.2

theorem preorderNodes_eq (wf : WellFounded (IsSlot slots?)) (n : NodeId) :
    preorderNodes wf n = n :: ((slots? n).getD []).flatMap (preorderNodes wf) := by
  rw [preorderNodes]
  congr 1
  conv => rhs; rw [← List.attach_map_subtype_val ((slots? n).getD []), List.flatMap_map]

/-- The nodes in pre-order are those to which a way leads down. -/
theorem reflTransGen_of_mem_preorderNodes {wf : WellFounded (IsSlot slots?)} {n m : NodeId}
    (h : m ∈ preorderNodes wf n) : Relation.ReflTransGen (IsSlot slots?) m n := by
  induction n using wf.induction with
  | h n ih =>
    rw [preorderNodes_eq] at h
    obtain rfl | h := List.mem_cons.mp h
    · exact .refl
    · obtain ⟨c, hc, hm⟩ := List.mem_flatMap.mp h
      exact (ih c hc hm).tail hc

/-- **A walk takes the nodes in pre-order**, up to the first one of an unknown kind. What waits on
its stack unfolds to the nodes that it has still to visit, and a visit takes the first of them. -/
theorem walkSteps_descend (wf : WellFounded (IsSlot slots?)) {cost : NodeId → Nat}
    (hcost : ∀ n, totalCost cost ((slots? n).getD []) < cost n) {budget : Nat}
    {stack : List NodeId} (hbudget : totalCost cost stack ≤ budget) (t : Trail) :
    let order := stack.flatMap (preorderNodes wf)
    let walked := walkSteps slots? (fun _ _ => .descend) budget stack t
    walked.1.visited = (order.takeWhile fun n => (slots? n).isSome).reverse ++ t.visited ∧
      walked.2 = (order.find? fun n => (slots? n).isNone).elim .finished .unknownKind := by
  induction budget generalizing stack t with
  | zero =>
    cases stack with
    | nil => exact ⟨rfl, rfl⟩
    | cons n stack =>
      have := hcost n
      rw [totalCost] at hbudget
      omega
  | succ budget ih =>
    cases stack with
    | nil => exact ⟨rfl, rfl⟩
    | cons n stack =>
      have hn := hcost n
      rw [totalCost] at hbudget
      intro order walked
      have horder : order = n :: ((slots? n).getD [] ++ stack).flatMap (preorderNodes wf) := by
        show (n :: stack).flatMap (preorderNodes wf) = _
        rw [List.flatMap_cons, preorderNodes_eq, List.cons_append, List.flatMap_append]
      have hwalked : walked = walkSteps slots? (fun _ _ => .descend) (budget + 1) (n :: stack) t :=
        rfl
      rw [horder, hwalked, walkSteps, List.takeWhile_cons, List.find?_cons]
      cases hslots : slots? n with
      | none => exact ⟨rfl, rfl⟩
      | some children =>
        rw [hslots, Option.getD_some] at hn
        have hstack : totalCost cost (children ++ stack) ≤ budget := by
          rw [totalCost_append]
          omega
        obtain ⟨hvisited, hending⟩ :=
          ih hstack ⟨n :: t.visited, t.parents.assignAll children n⟩
        refine ⟨?_, hending⟩
        show (walkSteps slots? _ budget (children ++ stack) _).1.visited = _
        rw [hvisited]
        simp

/-! ## Trees -/

namespace Graph

variable {g : Graph} {table : ChildTable} {root : NodeId}

/-- **A graph that walks go through as a tree**: nothing is a slot of two nodes, or of one node
twice, and there are no cycles. -/
structure WalkedAsTree (g : Graph) (table : ChildTable) : Prop where
  unique : ∀ c p p', IsSlot (g.slots? table) c p → IsSlot (g.slots? table) c p' → p = p'
  slots : ∀ n, ((g.slots? table n).getD []).Nodup
  acyclic : g.Acyclic table

namespace WalkedAsTree

/-- The nodes below a node, in pre-order. -/
def order (tree : g.WalkedAsTree table) (root : NodeId) : List NodeId :=
  preorderNodes tree.acyclic.wellFounded root

/-- Two slots of a node have nothing below them in common. -/
theorem disjoint (tree : g.WalkedAsTree table) {n c c' : NodeId}
    (hc : IsSlot (g.slots? table) c n) (hc' : IsSlot (g.slots? table) c' n) (hne : c ≠ c') :
    (tree.order c).Disjoint (tree.order c') := by
  have hup : Relator.RightUnique (IsSlot (g.slots? table)) := fun _ _ _ => tree.unique _ _ _
  -- A slot that stands below another one of the same node stands below the node through it.
  have hcycle : ∀ {d d'}, IsSlot (g.slots? table) d n → IsSlot (g.slots? table) d' n → d ≠ d' →
      ¬ Relation.ReflTransGen (IsSlot (g.slots? table)) d d' := by
    intro d d' hd hd' hne hway
    obtain rfl | ⟨p, hp, hway⟩ := hway.cases_head
    · exact hne rfl
    · obtain rfl := tree.unique d p n hp hd
      exact tree.acyclic p (Relation.TransGen.tail' hway hd')
  intro m hm hm'
  have hway := reflTransGen_of_mem_preorderNodes hm
  have hway' := reflTransGen_of_mem_preorderNodes hm'
  obtain h | h := Relation.ReflTransGen.total_of_right_unique hup hway hway'
  · exact hcycle hc hc' hne h
  · exact hcycle hc' hc hne.symm h

/-- **No node comes twice.** -/
theorem nodup (tree : g.WalkedAsTree table) (n : NodeId) : (tree.order n).Nodup := by
  induction n using tree.acyclic.wellFounded.induction with
  | h n ih =>
    rw [order, preorderNodes_eq, List.nodup_cons, List.nodup_flatMap]
    refine ⟨fun hn => ?_, fun c hc => ih c hc, ?_⟩
    · obtain ⟨c, hc, hn⟩ := List.mem_flatMap.mp hn
      exact tree.acyclic n (Relation.TransGen.tail' (reflTransGen_of_mem_preorderNodes hn) hc)
    · exact (tree.slots n).imp_of_mem fun hc hc' hne => tree.disjoint hc hc' hne

/-- **What a walk through a tree comes to**: it visits the nodes in pre-order, and it ends at the
first one of an unknown kind, if there is one. -/
theorem walk_descend (tree : g.WalkedAsTree table) (root : NodeId) :
    let walked := g.walk table (fun _ _ => .descend) root .empty
    walked.1.visited = ((tree.order root).takeWhile fun n => (g.slots? table n).isSome).reverse ∧
      walked.2 = ((tree.order root).find? fun n => (g.slots? table n).isNone).elim .finished
        .unknownKind := by
  have hbudget : totalCost (unfoldedSize (g.slots? table) g.nodes.size) [root]
      ≤ unfoldedSize (g.slots? table) g.nodes.size root := Nat.le_refl _
  obtain ⟨hvisited, hending⟩ := walkSteps_descend tree.acyclic.wellFounded tree.acyclic.cost
    hbudget ⟨[], .empty⟩
  rw [List.flatMap_singleton] at hvisited hending
  exact ⟨hvisited.trans (List.append_nil _), hending⟩

/-- If no node is of an unknown kind, all of them are visited. -/
theorem reverse_visited (tree : g.WalkedAsTree table) {root : NodeId}
    (hknown : (tree.order root).find? (fun n => (g.slots? table n).isNone) = none) :
    (g.walk table (fun _ _ => .descend) root .empty).1.visited.reverse = tree.order root := by
  have hall : ∀ n ∈ tree.order root, (g.slots? table n).isSome = true := fun n hn =>
    Option.isSome_iff_ne_none.mpr (mt Option.isNone_iff_eq_none.mpr
      (List.find?_eq_none.mp hknown n hn))
  rw [(tree.walk_descend root).1, List.takeWhile_eq_self_iff.mpr hall, List.reverse_reverse]

end WalkedAsTree

mutual

/-- The nodes that play a role are children, in their order, and each plays one role. -/
theorem flatten_roles (source : Text) (n : NodeId) : ∀ tree : SyntaxTree,
    ∀ node ∈ (flatten source n tree).1, (node.roles.map Prod.snd).Sublist node.children
  | .node kind named start stop role children => by
    rw [flatten]
    refine List.forall_mem_cons.mpr ⟨?_, flattenEach_roles source (n + 1) children⟩
    show List.Sublist (List.map Prod.snd (List.filterMap _ _)) (List.map _ _)
    induction (flattenEach source (n + 1) children).2.1 with
    | nil => exact .slnil
    | cons own ids ih =>
      obtain ⟨role, id⟩ := own
      cases role with
      | none => exact ih.cons id
      | some role => exact ih.cons_cons id

theorem flattenEach_roles (source : Text) (n : NodeId) : ∀ trees : List SyntaxTree,
    ∀ node ∈ (flattenEach source n trees).1, (node.roles.map Prod.snd).Sublist node.children
  | [] => by
    rw [flattenEach]
    exact fun node hnode => absurd hnode List.not_mem_nil
  | t :: ts => by
    rw [flattenEach]
    exact List.forall_mem_append.mpr
      ⟨flatten_roles source n t, flattenEach_roles source (flatten source n t).2 ts⟩

end

/-- The roles that slots list. -/
def roleNames : Slots → List String
  | .roles names => names
  | _ => []

/-- **Walks go through the graph of a syntax tree as a tree**, if no role is listed twice. -/
theorem walkedAsTree_ofTree (source : Text) (tree : SyntaxTree)
    (htable : ∀ entry ∈ table, (roleNames entry.2).Nodup) :
    (ofTree source tree).WalkedAsTree table := by
  have htree := isTree_ofTree source tree
  refine ⟨fun c p p' hp hp' => htree.unique c p p' (isBelow_of_isSlot hp) (isBelow_of_isSlot hp'),
    fun n => ?_, acyclic_ofTree source tree table⟩
  by_cases hn : n < (ofTree source tree).nodes.size
  · have hnode := List.mem_of_getElem? (getElem?_flatten source tree hn)
    have hchildren : ((ofTree source tree).node n).children.Nodup := by
      obtain ⟨hperm, -⟩ := flatten_children source 0 tree
      obtain ⟨-, hnodup⟩ := List.nodup_cons.mp (hperm.nodup_iff.mpr List.nodup_range')
      exact (List.nodup_flatMap.mp hnodup).1 _ hnode
    rw [slots?]
    cases hslots : table.lookup ((ofTree source tree).kind n) with
    | none => exact List.nodup_nil
    | some slots =>
      cases slots with
      | named => exact (hchildren.filter _).filter _
      | roles names =>
        have hroles := hchildren.sublist (flatten_roles source 0 tree _ hnode)
        have hnames : names.Nodup := htable _ (List.mem_of_lookup_eq_some hslots)
        refine hnames.filterMap fun r r' c hr hr' => ?_
        exact congrArg Prod.fst (List.inj_on_of_nodup_map hroles (mem_roles_of_role? hr)
          (mem_roles_of_role? hr') rfl)
      | leaf => exact List.nodup_nil
  · have hnone : ((ofTree source tree).slots? table n).getD [] = [] :=
      List.eq_nil_iff_forall_not_mem.mpr fun c hc => hn (lt_size_of_isSlot hc)
    rw [hnone]
    exact List.nodup_nil

end Graph

/-! ## The index -/

namespace DeclarationIndex

variable {g : Graph} {order : List NodeId} {index : DeclarationIndex}

/-- The name exported by the first node that exports one, of some nodes. -/
def firstExport? (g : Graph) (order : List NodeId) : Option Text :=
  (order.filter fun n => g.kind n == "assignment_expression").findSome? (exportedName? g)

/-- **What the index holds after some nodes of a walk.** -/
structure Describes (g : Graph) (order : List NodeId) (index : DeclarationIndex) : Prop where
  /-- Each line stands there once. -/
  lines : (index.byLine.map Prod.fst).Nodup
  /-- On each line the first function counts. -/
  first : ∀ line, index.get? line = g.firstFunction? order line
  /-- The others are shadowed, in their order. -/
  shadowed : index.shadowed = order.filter fun n =>
    isFunction (g.kind n) && g.firstFunction? order (g.line n) != some n
  /-- The first name that is exported counts. -/
  referenceName : index.referenceName = firstExport? g order

theorem describes_nil (parents : ParentTable) : Describes g [] ⟨[], [], none, parents⟩ :=
  ⟨List.nodup_nil, fun _ => rfl, rfl, rfl⟩

/-- The first function on a line is the first one there among the functions. -/
theorem firstFunction?_eq (g : Graph) (order : List NodeId) (line : Nat) :
    g.firstFunction? order line
      = (order.filter fun n => isFunction (g.kind n)).find? fun n => g.line n == line := by
  rw [Graph.firstFunction?, List.find?_filter]
  simp only [Bool.decide_and, Bool.decide_eq_true]

theorem firstFunction?_concat (g : Graph) (order : List NodeId) (n : NodeId) (line : Nat) :
    g.firstFunction? (order ++ [n]) line
      = (g.firstFunction? order line).or
          (if isFunction (g.kind n) && g.line n == line then some n else none) := by
  rw [Graph.firstFunction?, List.find?_append, List.find?_singleton]
  rfl

/-- A function that has been met leaves no room on its line. -/
theorem isSome_firstFunction? {n : NodeId} (hn : n ∈ order)
    (hfunction : isFunction (g.kind n) = true) :
    (g.firstFunction? order (g.line n)).isSome = true :=
  List.find?_isSome.mpr ⟨n, hn, by rw [hfunction, beq_self_eq_true, Bool.and_self]⟩

theorem firstExport?_concat (g : Graph) (order : List NodeId) (n : NodeId) :
    firstExport? g (order ++ [n])
      = (firstExport? g order).or
          (if g.kind n == "assignment_expression" then exportedName? g n else none) := by
  rw [firstExport?, List.filter_append, List.findSome?_append]
  congr 1
  rw [List.filter_singleton]
  cases g.kind n == "assignment_expression" with
  | false => rfl
  | true => exact List.findSome?_singleton

theorem isFunction_assignment : isFunction "assignment_expression" = false := by decide

namespace Describes

variable {n : NodeId}

theorem lines_add (h : Describes g order index) (n : NodeId) :
    ((index.add g n).byLine.map Prod.fst).Nodup := by
  unfold add
  split
  · split
    · exact h.lines
    · next hfree =>
      have hline : g.line n ∉ index.byLine.map Prod.fst := by
        intro hmem
        obtain ⟨entry, hentry, hline⟩ := List.mem_map.mp hmem
        exact hfree (List.lookup_isSome_iff.mpr ⟨entry, hentry, beq_iff_eq.mpr hline.symm⟩)
      rw [List.map_append]
      exact List.Nodup.append h.lines (List.nodup_singleton _)
        (List.disjoint_singleton.mpr hline)
  · split <;> exact h.lines

theorem first_add (h : Describes g order index) (n : NodeId) (line : Nat) :
    (index.add g n).get? line = g.firstFunction? (order ++ [n]) line := by
  rw [get?_add, h.first, firstFunction?_concat]

/-- One more node shadows nothing that was met before it. -/
theorem filter_shadowed_concat (g : Graph) (order : List NodeId) (n : NodeId) :
    (order.filter fun m =>
        isFunction (g.kind m) && g.firstFunction? (order ++ [n]) (g.line m) != some m)
      = order.filter fun m =>
        isFunction (g.kind m) && g.firstFunction? order (g.line m) != some m := by
  refine List.filter_congr fun m hm => ?_
  cases hfunction : isFunction (g.kind m) with
  | false => rfl
  | true =>
    obtain ⟨first, hfirst⟩ := Option.isSome_iff_exists.mp (isSome_firstFunction? hm hfunction)
    rw [firstFunction?_concat, hfirst, Option.some_or]

theorem shadowed_add (h : Describes g order index) (hn : n ∉ order) :
    (index.add g n).shadowed = (order ++ [n]).filter fun m =>
      isFunction (g.kind m) && g.firstFunction? (order ++ [n]) (g.line m) != some m := by
  rw [List.filter_append, filter_shadowed_concat, ← h.shadowed, List.filter_singleton,
    firstFunction?_concat, beq_self_eq_true, Bool.and_true, ← h.first]
  unfold add
  split
  · next hfunction =>
    rw [hfunction]
    split
    · next htaken =>
      -- The line is taken by another node, since this one is met for the first time.
      obtain ⟨first, hfirst⟩ := Option.isSome_iff_exists.mp htaken
      have hmem : first ∈ order := List.mem_of_find?_eq_some ((h.first _).symm.trans hfirst)
      have hne : first ≠ n := fun heq => hn (heq ▸ hmem)
      rw [hfirst, Option.some_or, bne_iff_ne.mpr (mt Option.some.inj hne)]
      rfl
    · next hfree =>
      rw [Option.not_isSome_iff_eq_none.mp hfree]
      simp
  · next hfunction =>
    rw [Bool.not_eq_true] at hfunction
    rw [hfunction]
    split <;> simp

theorem referenceName_add (h : Describes g order index) (n : NodeId) :
    (index.add g n).referenceName = firstExport? g (order ++ [n]) := by
  rw [firstExport?_concat, ← h.referenceName]
  unfold add
  split
  · next hfunction =>
    -- No function is an assignment.
    have hkind : (g.kind n == "assignment_expression") = false := by
      rw [beq_eq_false_iff_ne]
      intro hkind
      rw [hkind, isFunction_assignment] at hfunction
      cases hfunction
    rw [hkind, if_neg Bool.false_ne_true, Option.or_none]
    split <;> rfl
  · cases hname : index.referenceName with
    | some name => exact hname
    | none =>
      cases hkind : g.kind n == "assignment_expression" with
      | false => exact hname
      | true => rfl

/-- **One more node of the walk** leaves the index as described. -/
theorem add (h : Describes g order index) (hn : n ∉ order) :
    Describes g (order ++ [n]) (index.add g n) :=
  ⟨h.lines_add n, h.first_add n, h.shadowed_add hn, h.referenceName_add n⟩

/-- **All nodes of the walk**, if none of them comes twice. -/
theorem foldl_add (h : Describes g order index) {later : List NodeId}
    (hnodup : (order ++ later).Nodup) :
    Describes g (order ++ later) (later.foldl (DeclarationIndex.add g) index) := by
  induction later generalizing order index with
  | nil => rwa [List.append_nil]
  | cons n later ih =>
    rw [List.append_cons] at hnodup ⊢
    have hn : n ∉ order := by
      have hconcat := (List.nodup_append.mp hnodup).1
      exact fun hmem => (List.nodup_append.mp hconcat).2.2 n hmem n (by simp) rfl
    exact ih (h.add hn) hnodup

/-- **Each function is indexed or shadowed**, and not both. -/
theorem mem_byLine_iff (h : Describes g order index) (hn : n ∈ order)
    (hfunction : isFunction (g.kind n) = true) :
    n ∈ index.byLine.map Prod.snd ↔ n ∉ index.shadowed := by
  have hindexed : n ∈ index.byLine.map Prod.snd ↔ index.get? (g.line n) = some n := by
    constructor
    · intro hmem
      obtain ⟨⟨line, _⟩, hentry, rfl⟩ := List.mem_map.mp hmem
      have hget : index.get? line = some _ := (List.lookup_eq_some_iff_mem h.lines).mpr hentry
      rwa [Graph.line_of_firstFunction? ((h.first line).symm.trans hget)]
    · intro hget
      exact List.mem_map.mpr ⟨(g.line n, n), (List.lookup_eq_some_iff_mem h.lines).mp hget, rfl⟩
  rw [hindexed, h.shadowed, List.mem_filter, h.first]
  simp [hn, hfunction]

end Describes

/-! ## The index of a tree -/

variable {table : ChildTable}

/-- **The index is made of the nodes in pre-order**, if all of them are of a known kind. -/
theorem build_eq (tree : g.WalkedAsTree table) (root : NodeId) :
    ∃ parents, build g table root
      = ((tree.order root).find? fun n => (g.slots? table n).isNone).elim
          (.ok ((tree.order root).foldl (add g) ⟨[], [], none, parents⟩))
          fun n => .error (.unknownKind (g.unknownKind n)) := by
  obtain ⟨-, hending⟩ := tree.walk_descend root
  refine ⟨(g.walk table (fun _ _ => .descend) root .empty).1.parents, ?_⟩
  cases hunknown : (tree.order root).find? _ with
  | none =>
    rw [hunknown] at hending
    rw [← tree.reverse_visited hunknown, build]
    generalize g.walk table (fun _ _ => .descend) root .empty = walked at hending ⊢
    obtain ⟨trail, ending⟩ := walked
    obtain rfl : ending = .finished := hending
    rfl
  | some n =>
    rw [hunknown] at hending
    rw [build]
    generalize g.walk table (fun _ _ => .descend) root .empty = walked at hending ⊢
    obtain ⟨trail, ending⟩ := walked
    obtain rfl : ending = .unknownKind n := hending
    rfl

/-- **The index partitions the functions of a tree.** If all nodes that a walk meets are of a known
kind, each function among them is indexed or shadowed, and not both: on each line the first one in
pre-order is indexed, and the others are shadowed, in pre-order. The reference name is the first one
that is exported. Otherwise the first node of an unknown kind is reported. -/
theorem build_partitions (tree : g.WalkedAsTree table) (root : NodeId) :
    let order := tree.order root
    let functions := order.filter fun n => isFunction (g.kind n)
    (∀ n, order.find? (fun n => (table.lookup (g.kind n)).isNone) = some n →
      build g table root = .error (.unknownKind ⟨g.kind n, g.describe n⟩)) ∧
    ((∀ n ∈ order, (table.lookup (g.kind n)).isSome = true) →
      ∃ index, build g table root = .ok index ∧
        (index.byLine.map Prod.fst).Nodup ∧
        (∀ line, index.get? line = functions.find? fun n => g.line n == line) ∧
        index.shadowed = functions.filter (fun n => index.get? (g.line n) != some n) ∧
        (∀ n ∈ functions, n ∈ index.byLine.map Prod.snd ↔ n ∉ index.shadowed) ∧
        index.referenceName
          = (order.filter fun n => g.kind n == "assignment_expression").findSome?
              (exportedName? g)) := by
  intro order functions
  obtain ⟨parents, hbuild⟩ := build_eq tree root
  have hslots : ∀ n, (g.slots? table n).isNone = (table.lookup (g.kind n)).isNone := fun n =>
    Option.isNone_map
  simp only [hslots] at hbuild
  constructor
  · intro n hn
    rw [hbuild, hn]
    rfl
  · intro hknown
    have hnone : order.find? (fun n => (table.lookup (g.kind n)).isNone) = none :=
      List.find?_eq_none.mpr fun n hn => by
        rw [Option.isNone_iff_eq_none]
        exact Option.isSome_iff_ne_none.mp (hknown n hn)
    have hdescribes : Describes g order (order.foldl (add g) ⟨[], [], none, parents⟩) :=
      (describes_nil parents).foldl_add (tree.nodup root)
    refine ⟨_, hbuild.trans (by rw [hnone]; rfl), hdescribes.lines, fun line => ?_, ?_,
      fun n hn => ?_, hdescribes.referenceName⟩
    · rw [hdescribes.first, firstFunction?_eq]
    · rw [hdescribes.shadowed, List.filter_filter]
      simp only [hdescribes.first, Bool.and_comm]
    · obtain ⟨hmem, hfunction⟩ := List.mem_filter.mp hn
      exact hdescribes.mem_byLine_iff hmem hfunction

/-- A source with two functions on one line, and with two assignments to a member `exports`. -/
def exportingText : Text := "f(() => 1, () => 2);\na.exports = c;\nmodule.exports = b;"

/-- Its syntax tree. -/
def exportingTree : SyntaxTree :=
  .node "program" true 0 55 none [
    .node "expression_statement" true 0 20 none [
      .node "call_expression" true 0 19 none [
        .node "identifier" true 0 1 (some "function") [],
        .node "arguments" true 1 19 (some "arguments") [
          .node "arrow_function" true 2 9 none [],
          .node "arrow_function" true 11 18 none []]]],
    .node "expression_statement" true 21 35 none [
      .node "assignment_expression" true 21 34 none [
        .node "member_expression" true 21 30 (some "left") [
          .node "identifier" true 21 22 (some "object") [],
          .node "property_identifier" true 23 30 (some "property") []],
        .node "identifier" true 33 34 (some "right") []]],
    .node "expression_statement" true 36 55 none [
      .node "assignment_expression" true 36 54 none [
        .node "member_expression" true 36 50 (some "left") [
          .node "identifier" true 36 42 (some "object") [],
          .node "property_identifier" true 43 50 (some "property") []],
        .node "identifier" true 53 54 (some "right") []]]]

/-- Its nodes. -/
def exportingGraph : Graph := .ofTree exportingText exportingTree

/-- The table of the script language without one kind of functions. -/
def shortTable : ChildTable := scriptTable.filter fun entry => entry.1 != "arrow_function"

/-- The functions are the nodes 5 and 6. If the table does not know their kind, the first of them is
reported. -/
theorem build_partitions_exporting :
    (∃ tree : exportingGraph.WalkedAsTree scriptTable,
      (∀ n ∈ tree.order 0, (scriptTable.lookup (exportingGraph.kind n)).isSome = true) ∧
      ∃ index, build exportingGraph scriptTable 0 = .ok index ∧ index.get? 1 = some 5 ∧
        index.shadowed = [6] ∧ index.referenceName = some ['b']) ∧
    ∃ tree : exportingGraph.WalkedAsTree shortTable,
      (tree.order 0).find? (fun n => (shortTable.lookup (exportingGraph.kind n)).isNone) = some 5 ∧
      build exportingGraph shortTable 0
        = .error (.unknownKind ⟨"arrow_function", "arrow_function ()".toList⟩) := by
  have hroles : ∀ entry ∈ scriptTable, (Graph.roleNames entry.2).Nodup :=
    List.forall_mem_of_all (by decide +kernel)
  have tree : exportingGraph.WalkedAsTree scriptTable := Graph.walkedAsTree_ofTree _ _ hroles
  have short : exportingGraph.WalkedAsTree shortTable :=
    Graph.walkedAsTree_ofTree _ _ fun entry hentry => hroles entry (List.mem_filter.mp hentry).1
  -- The two walks are evaluated, and what they come to is known of the nodes in pre-order.
  have hnone : (tree.order 0).find? (fun n => (exportingGraph.slots? scriptTable n).isNone)
      = none := by
    have hending : (exportingGraph.walk scriptTable (fun _ _ => .descend) 0 .empty).2
        = .finished := by decide +kernel
    rw [(tree.walk_descend 0).2] at hending
    generalize (tree.order 0).find? _ = found at hending
    cases found with
    | none => rfl
    | some n => cases hending
  have hfirst : (short.order 0).find? (fun n => (exportingGraph.slots? shortTable n).isNone)
      = some 5 := by
    have hending : (exportingGraph.walk shortTable (fun _ _ => .descend) 0 .empty).2
        = .unknownKind 5 := by decide +kernel
    rw [(short.walk_descend 0).2] at hending
    generalize (short.order 0).find? _ = found at hending
    cases found with
    | none => cases hending
    | some n => cases hending; rfl
  have horder : tree.order 0 = List.range 19 := by
    rw [← tree.reverse_visited hnone]
    decide +kernel
  have hslots : ∀ table n, (exportingGraph.slots? table n).isNone
      = (table.lookup (exportingGraph.kind n)).isNone := fun _ _ => Option.isNone_map
  simp only [hslots] at hfirst
  have hknown : ∀ n ∈ tree.order 0, (scriptTable.lookup (exportingGraph.kind n)).isSome = true := by
    rw [horder]
    exact List.forall_mem_of_all (by decide +kernel)
  obtain ⟨index, hbuild, -, hget, hshadowed, -, hname⟩ := (build_partitions tree 0).2 hknown
  rw [horder] at hget hshadowed hname
  have hline : index.get? 1 = some 5 := (hget 1).trans (by decide +kernel)
  refine ⟨⟨tree, hknown, index, hbuild, hline, ?_, hname.trans (by decide +kernel)⟩, short, hfirst,
    ((build_partitions short 0).1 5 hfirst).trans ?_⟩
  · have hfunctions : (List.range 19).filter (fun n => isFunction (exportingGraph.kind n))
        = [5, 6] := by decide +kernel
    have hfive : exportingGraph.line 5 = 1 := by decide +kernel
    have hsix : exportingGraph.line 6 = 1 := by decide +kernel
    rw [hshadowed, hfunctions]
    simp [hfive, hsix, hline]
  · have hkind : exportingGraph.kind 5 = "arrow_function" := by decide +kernel
    have hdescribe : exportingGraph.describe 5 = "arrow_function ()".toList := by decide +kernel
    rw [hkind, hdescribe]

end DeclarationIndex

end DocModel
