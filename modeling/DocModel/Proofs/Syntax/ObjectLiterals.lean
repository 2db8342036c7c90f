import DocModel.Proofs.Basic
import DocModel.Proofs.Syntax.Climbing
import DocModel.Proofs.Syntax.Functions
import Mathlib.Data.List.Flatten

/-!
# Functions in object literals

An object literal that is assigned to a target gives a path to each function in it, however deep:
`a.b = {c: {d: function() {}}}` makes the function known as `a.b.c.d`. The search for the name
finds this path from the inside, pair by pair, up to the assignment, and only there does it learn
whether there is a name at all.

In a tree nothing has two parents, so a walk from the root notes for each node that it visits the
one node above it (`Graph.IsTree.notes_walk`), and the search has one way to go. A way up through
a tree never comes to a node again. What the steps on this way make of the name is put together by
`ComesTo.up`, and along the pairs of a literal that is the path of their keys
(`Nested.comesTo_parent`, `solid?_foldl_extend`).
-/

namespace DocModel

/-! ## Trees -/

namespace Graph

variable {g : Graph} {root : NodeId}

/-- **A graph that is a tree** with the given root: nothing stands below two nodes or above the
root, and there are no cycles. -/
structure IsTree (g : Graph) (root : NodeId) : Prop where
  unique : ∀ c p p', g.IsBelow c p → g.IsBelow c p' → p = p'
  top : ∀ p, ¬ g.IsBelow root p
  acyclic : ∀ n, ¬ Relation.TransGen g.IsBelow n n

/-- Nodes in which only children play a role. -/
def RolesOfChildren (nodes : List Node) : Prop :=
  ∀ node ∈ nodes, ∀ role c, (role, c) ∈ node.roles → c ∈ node.children

mutual

/-- The nodes of a tree are its root and the children of its nodes, each of them once. -/
theorem flatten_children (source : Text) (n : NodeId) : ∀ tree : SyntaxTree,
    (n :: (flatten source n tree).1.flatMap (·.children)).Perm
        (List.range' n (flatten source n tree).1.length) ∧
      RolesOfChildren (flatten source n tree).1
  | .node kind named start stop role children => by
    obtain ⟨hperm, hroles⟩ := flattenEach_children source (n + 1) children
    rw [flatten]
    refine ⟨hperm.cons n, List.forall_mem_cons.mpr ⟨fun role c hc => ?_, hroles⟩⟩
    obtain ⟨⟨own, _⟩, hown, hrole⟩ := List.mem_filterMap.mp hc
    obtain ⟨_, -, heq⟩ := Option.map_eq_some_iff.mp hrole
    cases heq
    exact List.mem_map.mpr ⟨_, hown, rfl⟩

theorem flattenEach_children (source : Text) (n : NodeId) : ∀ trees : List SyntaxTree,
    ((flattenEach source n trees).2.1.map (·.2)
          ++ (flattenEach source n trees).1.flatMap (·.children)).Perm
        (List.range' n (flattenEach source n trees).1.length) ∧
      RolesOfChildren (flattenEach source n trees).1
  | [] => by
    rw [flattenEach]
    exact ⟨.nil, fun node hnode => absurd hnode List.not_mem_nil⟩
  | t :: ts => by
    obtain ⟨hfirst, hfirstRoles⟩ := flatten_children source n t
    obtain ⟨hrest, hrestRoles⟩ := flattenEach_children source (flatten source n t).2 ts
    have hnext := (flatten_downward source n t).1
    rw [flattenEach]
    refine ⟨?_, List.forall_mem_append.mpr ⟨hfirstRoles, hrestRoles⟩⟩
    show (n :: (flattenEach source (flatten source n t).2 ts).2.1.map (·.2)
        ++ ((flatten source n t).1 ++ (flattenEach source (flatten source n t).2 ts).1).flatMap
          (·.children)).Perm
      (List.range' n ((flatten source n t).1
        ++ (flattenEach source (flatten source n t).2 ts).1).length)
    rw [hnext] at hrest ⊢
    rw [List.length_append, ← List.range'_append_1, List.flatMap_append]
    refine List.Perm.trans ?_ (hfirst.append hrest)
    rw [List.cons_append, List.cons_append]
    refine List.Perm.cons n ?_
    rw [← List.append_assoc, ← List.append_assoc]
    exact List.perm_append_comm.append_right _

end

/-- **The graph of a syntax tree is a tree.** -/
theorem isTree_ofTree (source : Text) (tree : SyntaxTree) : (ofTree source tree).IsTree 0 := by
  obtain ⟨hperm, hroles⟩ := flatten_children source 0 tree
  obtain ⟨htop, hnodup⟩ := List.nodup_cons.mp (hperm.nodup_iff.mpr List.nodup_range')
  have hchild : ∀ {c p}, (ofTree source tree).IsBelow c p →
      ∃ node, (flatten source 0 tree).1[p]? = some node ∧ c ∈ node.children := by
    intro c p h
    have hnode := getElem?_flatten source tree (lt_size_of_isBelow h)
    obtain hc | ⟨role, hrole⟩ := h
    · exact ⟨_, hnode, hc⟩
    · exact ⟨_, hnode, hroles _ (List.mem_of_getElem? hnode) role c hrole⟩
  refine ⟨fun c p p' hp hp' => ?_, fun p hp => ?_,
    not_transGen_self_of_lt fun _ _ => lt_of_isBelow_ofTree⟩
  · obtain ⟨node, hnode, hc⟩ := hchild hp
    obtain ⟨node', hnode', hc'⟩ := hchild hp'
    obtain ⟨hlt, hnode⟩ := List.getElem?_eq_some_iff.mp hnode
    obtain ⟨hlt', hnode'⟩ := List.getElem?_eq_some_iff.mp hnode'
    have hdisjoint := List.pairwise_iff_getElem.mp (List.nodup_flatMap.mp hnodup).2
    by_contra hne
    obtain hless | hless := Nat.lt_or_gt_of_ne hne
    · exact hdisjoint p p' hlt hlt' hless (hnode ▸ hc) (hnode' ▸ hc')
    · exact hdisjoint p' p hlt' hlt hless (hnode' ▸ hc') (hnode ▸ hc)
  · obtain ⟨node, hnode, hc⟩ := hchild hp
    exact htop (List.mem_flatMap.mpr ⟨node, List.mem_of_getElem? hnode, hc⟩)

end Graph

/-! ## What a walk through a tree notes -/

namespace Trail

/-- Whether every noted parent has been visited. -/
def FromVisited (t : Trail) : Prop :=
  ∀ child parent, (child, parent) ∈ t.parents.entries → parent ∈ t.visited

/-- Whether the node above each visited node is noted as its parent and has been visited. -/
def Notes (t : Trail) (g : Graph) : Prop :=
  ∀ c p, c ∈ t.visited → g.IsBelow c p → t.parents.get? c = some p ∧ p ∈ t.visited

end Trail

theorem fromVisited_walkSteps {slots? : NodeId → Option (List NodeId)} (visit : Visitor)
    (budget : Nat) (stack : List NodeId) {t : Trail} (h : t.FromVisited) :
    (walkSteps slots? visit budget stack t).1.FromVisited := by
  obtain ⟨_, hfrom, -⟩ := @walkSteps_invariant slots? visit (fun _ u => u.FromVisited)
    (fun n _ u _ hu c p hentry => List.mem_cons_of_mem n (hu c p hentry))
    (fun n children _ u _ hu c p hentry => by
      obtain hold | ⟨-, rfl⟩ := ParentTable.mem_assignAll hentry
      · exact List.mem_cons_of_mem n (hu c p hold)
      · exact List.mem_cons_self)
    budget stack t h
  exact hfrom

theorem Graph.exists_walking (g : Graph) (table : ChildTable) (visit : Visitor) (root : NodeId) :
    ∃ rest, Walking (g.slots? table) root rest (g.walk table visit root .empty).1 :=
  exists_walking_walkSteps ParentTable.sound_empty visit root _

/-- **A walk from the root of a tree notes the node above each node that it visits**, whatever it
leaves out. -/
theorem Graph.IsTree.notes_walk {g : Graph} {root : NodeId} (htree : g.IsTree root)
    (table : ChildTable) (visit : Visitor) : (g.walk table visit root .empty).1.Notes g := by
  intro c p hc hp
  obtain ⟨_, hwalking⟩ := g.exists_walking table visit root
  have hfrom : (g.walk table visit root .empty).1.FromVisited :=
    fromVisited_walkSteps visit _ [root] fun _ _ h => absurd h List.not_mem_nil
  have hroot : c ≠ root := by
    rintro rfl
    exact htree.top p hp
  obtain ⟨p', hp'⟩ := Option.isSome_iff_exists.mp (hwalking.visited c hc hroot)
  have hentry := ParentTable.mem_of_get? hp'
  obtain rfl := htree.unique c p p' hp (isBelow_of_isSlot (hwalking.sound.isSlot c p' hentry))
  exact ⟨hp', hfrom c p hentry⟩

theorem Graph.within_walk (g : Graph) (table : ChildTable) (visit : Visitor) (root : NodeId) :
    (g.walk table visit root .empty).1.parents.Within g := by
  intro child parent h
  obtain ⟨_, hwalking⟩ := g.exists_walking table visit root
  exact lt_size_of_isSlot (hwalking.sound.isSlot child parent (ParentTable.mem_of_get? h))

namespace Naming

variable {g : Graph} {parents : ParentTable}

/-! ## Up through a tree -/

/-- **What a search comes to from a node** if it has only looked at nodes below that node. -/
def ComesTo (g : Graph) (parents : ParentTable) (n : NodeId) (name : Option Text) : Prop :=
  ∀ visited, (∀ m ∈ visited, Relation.TransGen g.IsBelow m n) →
    ∃ expanded after, Searches g parents (some n) visited expanded .answered name after

section Acyclic

variable (hacyclic : ∀ n, ¬ Relation.TransGen g.IsBelow n n) {n m : NodeId} {name : Option Text}
include hacyclic

theorem comesTo_of_answer {seen : List NodeId} (hstep : step g parents n = .answer name seen) :
    ComesTo g parents n name := by
  intro visited hvisited
  exact ⟨_, _, .answer (fun hn => hacyclic n (hvisited n hn)) hstep⟩

/-- A step up to the node above. -/
theorem ComesTo.up (h : ComesTo g parents m name) (hbelow : g.IsBelow n m)
    {finish : Option Text → Option Text} (hstep : step g parents n = .goOn (some m) finish) :
    ComesTo g parents n (finish name) := by
  intro visited hvisited
  have habove : ∀ k ∈ n :: visited, Relation.TransGen g.IsBelow k m :=
    List.forall_mem_cons.mpr ⟨.single hbelow, fun k hk => (hvisited k hk).tail hbelow⟩
  obtain ⟨expanded, after, hsearch⟩ := h (n :: visited) habove
  exact ⟨_, _, .goOn (fun hn => hacyclic n (hvisited n hn)) hstep hsearch⟩

end Acyclic

theorem ComesTo.resolve_eq (hparents : parents.Within g) {n : NodeId} {name : Option Text}
    (h : ComesTo g parents n name) :
    resolve g parents n = (solid? name).map (Text.replaceFirst ".prototype." "#") := by
  obtain ⟨_, _, hsearch⟩ := h [] fun _ hm => absurd hm List.not_mem_nil
  rw [resolve, hsearch.resolveFrom_eq hparents]

/-! ## The steps of a literal -/

/-- The name that the key of a pair stands for, unless it is empty. -/
def pairKey (g : Graph) (pair : NodeId) : Option Text := solid? (key? g (g.role? pair "key"))

/-- The name of the value of a pair, given that of the object. -/
def extend (g : Graph) (owner : Option Text) (pair : NodeId) : Option Text :=
  (pairKey g pair).bind fun key => (solid? owner).map (· ++ "." ++ key)

theorem step_object {n : NodeId} (h : g.kind n = "object") :
    step g parents n = .goOn (parents.get? n) id := by
  unfold step
  rw [h]
  rfl

theorem step_pair {n : NodeId} (h : g.kind n = "pair") :
    step g parents n = .goOn (parents.get? n) fun owner => extend g owner n := by
  unfold step
  rw [h]
  rfl

theorem step_function {n : NodeId} (h : isFunctionExpression (g.kind n) = true)
    (hmethod : g.kind n ≠ "method_definition") :
    step g parents n = .goOn (parents.get? n) id := by
  have hkinds := List.contains_iff_mem.mp h
  rw [List.mem_cons, List.mem_cons, List.mem_cons, List.mem_cons, List.mem_singleton] at hkinds
  unfold step
  obtain hkind | hkind | hkind | hkind | hkind := hkinds
  · rw [hkind]; rfl
  · rw [hkind]; rfl
  · rw [hkind]; rfl
  · rw [hkind]; rfl
  · exact absurd hkind hmethod

/-- **What gives a value a name**: an assignment to a target, or a declaration. -/
inductive Binds (g : Graph) (n : NodeId) : Option NodeId → NodeId → Prop where
  | assignment {value : NodeId} : isAssignment (g.kind n) = true →
    g.role? n "right" = some value → Binds g n (g.role? n "left") value
  | declarator {value : NodeId} : g.kind n = "variable_declarator" →
    g.role? n "value" = some value → Binds g n (g.role? n "name") value

namespace Binds

variable {n value : NodeId} {target : Option NodeId}

theorem isBelow (h : Binds g n target value) : g.IsBelow value n := by
  cases h with
  | assignment _ hvalue => exact Graph.isBelow_of_role? hvalue
  | declarator _ hvalue => exact Graph.isBelow_of_role? hvalue

theorem step_eq (h : Binds g n target value) :
    step g parents n = .answer (qualified g target).1 (qualified g target).2 := by
  cases h with
  | assignment hkind _ =>
    rw [isAssignment, Bool.or_eq_true, beq_iff_eq, beq_iff_eq] at hkind
    unfold step
    obtain hkind | hkind := hkind
    · rw [hkind]; rfl
    · rw [hkind]; rfl
  | declarator hkind _ =>
    unfold step
    rw [hkind]; rfl

end Binds

/-- **A value inside an object literal**, with the pairs around it from the outside in. -/
inductive Nested (g : Graph) : NodeId → List NodeId → NodeId → Prop where
  | here {n : NodeId} : Nested g n [] n
  | within {object pair value n : NodeId} {pairs : List NodeId} :
    g.kind object = "object" → g.IsBelow pair object → g.kind pair = "pair" →
    g.role? pair "value" = some value → Nested g value pairs n →
    Nested g object (pair :: pairs) n

namespace Nested

variable {outer n : NodeId} {pairs : List NodeId} {trail : Trail}

/-- A walk that comes to a value has come to the literal around it. -/
theorem mem_visited (h : Nested g outer pairs n) (hnotes : trail.Notes g)
    (hn : n ∈ trail.visited) : outer ∈ trail.visited := by
  induction h with
  | here => exact hn
  | within _ hpair _ hvalue _ ih =>
    exact (hnotes _ _ (hnotes _ _ (ih hn) (Graph.isBelow_of_role? hvalue)).2 hpair).2

/-- **From pair to pair the name gets longer.** If the search comes to a name above the whole
literal, it comes to that name with the keys of the pairs after it above the value. -/
theorem comesTo_parent (hacyclic : ∀ n, ¬ Relation.TransGen g.IsBelow n n)
    (hnotes : trail.Notes g) (h : Nested g outer pairs n) (hn : n ∈ trail.visited) {top : NodeId}
    (htop : g.IsBelow outer top) {name : Option Text} (hname : ComesTo g trail.parents top name) :
    ∃ parent, g.IsBelow n parent ∧
      ComesTo g trail.parents parent (pairs.foldl (extend g) name) := by
  induction h generalizing top name with
  | here => exact ⟨top, htop, hname⟩
  | @within object pair value n pairs hobject hpair hkind hvalue hrest ih =>
    have hbelow := Graph.isBelow_of_role? hvalue
    have hpairVisited := (hnotes _ _ (hrest.mem_visited hnotes hn) hbelow).2
    obtain ⟨hpairParent, hobjectVisited⟩ := hnotes _ _ hpairVisited hpair
    have hobjectParent := (hnotes _ _ hobjectVisited htop).1
    have hobjectStep : step g trail.parents object = .goOn (some top) id :=
      hobjectParent ▸ step_object hobject
    have hpairStep : step g trail.parents pair = .goOn (some object) fun owner =>
        extend g owner pair := hpairParent ▸ step_pair hkind
    exact ih hn hbelow ((hname.up hacyclic htop hobjectStep).up hacyclic hpair hpairStep)

end Nested

/-! ## The path of the keys -/

theorem solid?_of_ne_nil {t : Text} (h : t ≠ []) : solid? (some t) = some t := by
  cases t with
  | nil => exact absurd rfl h
  | cons => rfl

theorem extend_of_owner {owner : Option Text} (h : solid? owner = none) (pair : NodeId) :
    extend g owner pair = none := by
  rw [extend, h]
  cases pairKey g pair <;> rfl

theorem extend_of_key {pair : NodeId} (h : pairKey g pair = none) (owner : Option Text) :
    extend g owner pair = none := by
  rw [extend, h]
  rfl

/-- Without a name for the whole literal there is none for what is in it. -/
theorem solid?_foldl_extend_of_owner {pairs : List NodeId} {owner : Option Text}
    (h : solid? owner = none) : solid? (pairs.foldl (extend g) owner) = none := by
  induction pairs generalizing owner with
  | nil => exact h
  | cons pair pairs ih =>
    rw [List.foldl_cons, extend_of_owner h]
    exact ih rfl

/-- One key that stands for nothing takes the name away. -/
theorem solid?_foldl_extend_of_key {pairs : List NodeId} {pair : NodeId} (hmem : pair ∈ pairs)
    (h : pairKey g pair = none) (owner : Option Text) :
    solid? (pairs.foldl (extend g) owner) = none := by
  obtain ⟨before, after, rfl⟩ := List.append_of_mem hmem
  rw [List.foldl_append, List.foldl_cons, extend_of_key h]
  exact solid?_foldl_extend_of_owner rfl

theorem join_dot_cons (owner key : Text) (keys : List Text) :
    Text.join "." (owner :: key :: keys) = Text.join "." ((owner ++ "." ++ key) :: keys) := by
  rw [Text.join_cons (List.cons_ne_nil key keys)]
  cases keys with
  | nil => rfl
  | cons next keys =>
    rw [Text.join_cons (List.cons_ne_nil next keys), Text.join_cons (List.cons_ne_nil next keys)]
    simp only [List.append_assoc]

/-- **The name of the literal and the keys, joined by dots.** -/
theorem solid?_foldl_extend {pairs : List NodeId} {keys : List Text}
    (hkeys : pairs.map (pairKey g) = keys.map some) {owner : Option Text} {name : Text}
    (howner : solid? owner = some name) :
    solid? (pairs.foldl (extend g) owner) = some (Text.join "." (name :: keys)) := by
  induction pairs generalizing keys owner name with
  | nil =>
    obtain rfl : keys = [] := List.map_eq_nil_iff.mp hkeys.symm
    exact howner
  | cons pair pairs ih =>
    obtain ⟨key, keys, rfl, hkey, hrest⟩ := List.map_eq_cons_iff.mp hkeys.symm
    have hextend : extend g owner pair = some (name ++ "." ++ key) := by
      rw [extend, ← hkey, howner]
      rfl
    rw [List.foldl_cons, hextend, join_dot_cons]
    exact ih hrest.symm (solid?_of_ne_nil (by simp))

/-! ## The name of the function -/

/-- **The name of a function in nested object literals.** In a tree that is walked from its root,
let the walk come to a function that is the value of a pair in a literal that is the value of
a pair, and so on, up to a literal that is assigned to a target or declared under a name. If the
target has a name and each key stands for one, the function has the name that they form together,
joined by dots and with only the first `.prototype.` written `#`. If one of them is absent or empty,
the function has none. -/
theorem resolve_of_nested {root : NodeId} (htree : g.IsTree root) (table : ChildTable)
    (visit : Visitor) {n : NodeId} (hn : n ∈ (g.walk table visit root .empty).1.visited)
    (hfunction : isFunctionExpression (g.kind n) = true)
    (hmethod : g.kind n ≠ "method_definition") {top outer : NodeId} {target : Option NodeId}
    {pairs : List NodeId} (hbinds : Binds g top target outer) (hnested : Nested g outer pairs n) :
    let parents := (g.walk table visit root .empty).1.parents
    (∀ name keys, solid? (qualified g target).1 = some name →
      pairs.map (pairKey g) = keys.map some →
      ∃ short, Text.ReplacesFirst ".prototype." "#" (Text.join "." (name :: keys)) short ∧
        resolve g parents n = some short) ∧
    ((solid? (qualified g target).1 = none ∨ ∃ pair ∈ pairs, pairKey g pair = none) →
      resolve g parents n = none) := by
  intro parents
  have hnotes := htree.notes_walk table visit
  have htop : ComesTo g parents top (qualified g target).1 :=
    comesTo_of_answer htree.acyclic hbinds.step_eq
  obtain ⟨parent, hbelow, hparent⟩ :=
    hnested.comesTo_parent htree.acyclic hnotes hn hbinds.isBelow htop
  have hstep : step g parents n = .goOn (some parent) id :=
    (hnotes n parent hn hbelow).1 ▸ step_function hfunction hmethod
  have hresolve := (hparent.up htree.acyclic hbelow hstep).resolve_eq
    (g.within_walk table visit root)
  refine ⟨fun name keys hname hkeys => ?_, fun hnone => ?_⟩
  · refine ⟨_, Text.replacesFirst_replaceFirst _ _ _, ?_⟩
    rw [hresolve, id, solid?_foldl_extend hkeys hname]
    rfl
  · have hlost : solid? (pairs.foldl (extend g) (qualified g target).1) = none := by
      obtain howner | ⟨pair, hmem, hkey⟩ := hnone
      · exact solid?_foldl_extend_of_owner howner
      · exact solid?_foldl_extend_of_key hmem hkey _
    rw [hresolve, id, hlost]
    rfl

/-- A source with a function under a key in quotes and one under a key that is computed. -/
def literalText : Text :=
  "A.prototype.b = \x7bc: \x7b\"d\": function() \x7b\x7d, [e]: () => 1\x7d\x7d;"

/-- Its syntax tree. -/
def literalTree : SyntaxTree :=
  .node "program" true 0 56 none [
    .node "expression_statement" true 0 56 none [
      .node "assignment_expression" true 0 55 none [
        .node "member_expression" true 0 13 (some "left") [
          .node "member_expression" true 0 11 (some "object") [
            .node "identifier" true 0 1 (some "object") [],
            .node "property_identifier" true 2 11 (some "property") []],
          .node "property_identifier" true 12 13 (some "property") []],
        .node "object" true 16 55 (some "right") [
          .node "pair" true 17 54 none [
            .node "property_identifier" true 17 18 (some "key") [],
            .node "object" true 20 54 (some "value") [
              .node "pair" true 21 39 none [
                .node "string" true 21 24 (some "key") [],
                .node "function_expression" true 26 39 (some "value") []],
              .node "pair" true 41 53 none [
                .node "computed_property_name" true 41 44 (some "key") [
                  .node "identifier" true 42 43 none []],
                .node "arrow_function" true 46 53 (some "value") []]]]]]]]

/-- Its nodes. -/
def literalGraph : Graph := .ofTree literalText literalTree

/-- The functions are the nodes 14 and 18, in the pairs 12 and 15 of the object 11, which is the
value of the pair 9. -/
theorem resolve_of_nested_prototype :
    literalGraph.IsTree 0 ∧ Binds literalGraph 2 (some 3) 8 ∧ Nested literalGraph 8 [9, 12] 14 ∧
      Nested literalGraph 8 [9, 15] 18 ∧
      let parents := (literalGraph.walk scriptTable (fun _ _ => .descend) 0 .empty).1.parents
      (∃ short, Text.ReplacesFirst ".prototype." "#" "A.prototype.b.c.d" short ∧
        resolve literalGraph parents 14 = some short) ∧
      resolve literalGraph parents 14 = some "A#b.c.d".toList ∧
      resolve literalGraph parents 18 = none := by
  have htree : literalGraph.IsTree 0 := Graph.isTree_ofTree literalText literalTree
  have hbinds : Binds literalGraph 2 (some 3) 8 :=
    .assignment (g := literalGraph) (n := 2) (by decide +kernel) (by decide +kernel)
  have hpairs : ∀ {pair value : NodeId}, pair ∈ [12, 15] → literalGraph.kind pair = "pair" →
      literalGraph.role? pair "value" = some value → Nested literalGraph 8 [9, pair] value :=
    fun hpair hkind hvalue =>
      .within (by decide +kernel) (.inl (by decide +kernel)) (by decide +kernel)
        (by decide +kernel : literalGraph.role? 9 "value" = some 11)
        (.within (by decide +kernel) (.inl hpair) hkind hvalue .here)
  have hquoted : Nested literalGraph 8 [9, 12] 14 :=
    hpairs (by simp) (by decide +kernel) (by decide +kernel)
  have hcomputed : Nested literalGraph 8 [9, 15] 18 :=
    hpairs (by simp) (by decide +kernel) (by decide +kernel)
  refine ⟨htree, hbinds, hquoted, hcomputed, ?_, by decide +kernel, ?_⟩
  · exact (resolve_of_nested htree scriptTable _ (by decide +kernel) (by decide +kernel)
      (by decide +kernel) hbinds hquoted).1 "A.prototype.b".toList ["c".toList, "d".toList]
      (by decide +kernel) (by decide +kernel)
  · exact (resolve_of_nested htree scriptTable _ (by decide +kernel) (by decide +kernel)
      (by decide +kernel) hbinds hcomputed).2 (.inr ⟨15, by simp, by decide +kernel⟩)

end Naming

end DocModel
