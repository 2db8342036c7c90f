import DocModel.Proofs.Syntax.Parents
import DocModel.Syntax.Naming

/-!
# The search for a name ends

The search for the name of a function does not simply go up. From a statement it goes back down to
the expression in it, from a member of a class it jumps over the body of the class, and the table
of parents may be any table, with cycles. What it never does is to look at a node twice.

Here is the search as the rules describe it, without a budget: `Qualifies` goes down from the target
of an assignment and `Searches` goes from node to node until it has an answer, has nowhere to go, or
comes to a node again. Each node at which a search goes on is a node of the graph that has not been
looked at, so there are fewer of these from step to step (`exists_searches`), and the nodes that are
expanded are all different. The budget of the search is therefore never used up
(`Searches.climb_eq`).

All that matters about a step is stated once (`step_goOn`): where it goes on, and that without
a name from there it has none. Hence a search that comes to a node again has no name, and with more
nodes looked at beforehand a search can lose its name but not find another one
(`climb_of_subset`).
-/

namespace DocModel

/-- Whether all parents that a table notes are nodes of a graph. -/
def ParentTable.Within (t : ParentTable) (g : Graph) : Prop :=
  ∀ child parent, t.get? child = some parent → parent < g.nodes.size

namespace Graph

variable {g : Graph}

/-- Whether there is no node, or one of the graph. -/
def Holds (g : Graph) (n : Option NodeId) : Prop := ∀ m, n = some m → m < g.nodes.size

theorem kind_of_le {n : NodeId} (h : g.nodes.size ≤ n) : g.kind n = "" := by
  rw [kind, node, Array.getElem?_eq_none h]
  rfl

/-- What stands for a number that no node has is not of a named kind. -/
theorem lt_size_of_mem_namedChildren {n c : NodeId} (h : c ∈ g.namedChildren n) :
    c < g.nodes.size := by
  by_contra hc
  have hnamed : (g.node c).named = true := (List.mem_filter.mp h).2
  rw [node, Array.getElem?_eq_none (Nat.le_of_not_lt hc)] at hnamed
  cases hnamed

/-- The node below the target of an assignment with which its name goes on: the object of an access,
or what stands in parentheses. -/
def accessed? (g : Graph) (n : NodeId) : Option NodeId :=
  if isMemberAccess (g.kind n) then g.role? n "object"
  else if g.kind n = "parenthesized_expression" then (g.namedChildren n).head?
  else none

/-- Whether the name of `outer` goes on with that of `inner`. -/
def IsAccessed (g : Graph) (inner outer : NodeId) : Prop := g.accessed? outer = some inner

/-- **A graph whose accesses have no cycles.** -/
def AccessAcyclic (g : Graph) : Prop := ∀ n, ¬ Relation.TransGen g.IsAccessed n n

theorem lt_size_of_isAccessed {inner outer : NodeId} (h : g.IsAccessed inner outer) :
    outer < g.nodes.size := by
  by_contra hn
  have hkind := kind_of_le (Nat.le_of_not_lt hn)
  rw [IsAccessed, accessed?, hkind] at h
  cases h

/-- If objects have larger numbers than the accesses to them, there are no cycles. -/
theorem accessAcyclic_of_lt (h : ∀ inner outer, g.IsAccessed inner outer → outer < inner) :
    g.AccessAcyclic :=
  not_transGen_self_of_lt h

end Graph

namespace Naming

variable {g : Graph} {parents : ParentTable}

/-! ## Down from a target -/

/-- The name that an index between brackets stands for. -/
def indexKey (g : Graph) (index : Option NodeId) : Option Text :=
  if index.any fun i => isStringLiteral (g.kind i) then key? g index else some (g.textOf index)

/-- **The dotted name of the target of an assignment**, without a bound on its depth, and the nodes
looked at for it. -/
inductive Qualifies (g : Graph) : Option NodeId → Option Text → List NodeId → Prop where
  | nowhere : Qualifies g none none []
  | identifier {n : NodeId} : isIdentifier (g.kind n) = true →
    Qualifies g (some n) (some (g.textOf (some n))) [n]
  | member {n : NodeId} {owner : Option Text} {seen : List NodeId} :
    g.kind n = "member_expression" → Qualifies g (g.role? n "object") owner seen →
    Qualifies g (some n) (joinNames owner (some (g.textOf (g.role? n "property")))) (n :: seen)
  | subscript {n : NodeId} {owner : Option Text} {seen : List NodeId} :
    g.kind n = "subscript_expression" → Qualifies g (g.role? n "object") owner seen →
    Qualifies g (some n) (joinNames owner (indexKey g (g.role? n "index"))) (n :: seen)
  | parenthesized {n : NodeId} {name : Option Text} {seen : List NodeId} :
    g.kind n = "parenthesized_expression" → Qualifies g (g.namedChildren n).head? name seen →
    Qualifies g (some n) name (n :: seen)
  | other {n : NodeId} : isIdentifier (g.kind n) = false → isMemberAccess (g.kind n) = false →
    g.kind n ≠ "parenthesized_expression" → Qualifies g (some n) none [n]

/-- A depth of one level for each node is enough. -/
theorem Qualifies.qualifiedUpTo_eq {n : Option NodeId} {name : Option Text} {seen : List NodeId}
    (h : Qualifies g n name seen) {depth : Nat} (hdepth : seen.length ≤ depth) :
    qualifiedUpTo g depth n = (name, seen) := by
  induction h generalizing depth with
  | nowhere => cases depth <;> rfl
  | identifier hkind =>
    obtain ⟨depth, rfl⟩ := Nat.exists_eq_succ_of_ne_zero (Nat.ne_of_gt hdepth)
    simp only [qualifiedUpTo, hkind, if_true]
  | member hkind _ ih =>
    obtain ⟨depth, rfl⟩ := Nat.exists_eq_succ_of_ne_zero (Nat.ne_zero_of_lt hdepth)
    have hidentifier : isIdentifier "member_expression" = false := by decide
    simp only [qualifiedUpTo, hkind, hidentifier, Bool.false_eq_true, if_false,
      beq_self_eq_true, if_true, ih (Nat.le_of_succ_le_succ hdepth)]
  | subscript hkind _ ih =>
    obtain ⟨depth, rfl⟩ := Nat.exists_eq_succ_of_ne_zero (Nat.ne_zero_of_lt hdepth)
    have hidentifier : isIdentifier "subscript_expression" = false := by decide
    have hmember : ("subscript_expression" == "member_expression") = false := by decide
    simp only [qualifiedUpTo, hkind, hidentifier, hmember, Bool.false_eq_true, if_false,
      beq_self_eq_true, if_true, ih (Nat.le_of_succ_le_succ hdepth), indexKey]
  | @parenthesized n _ _ hkind hinner ih =>
    obtain ⟨depth, rfl⟩ := Nat.exists_eq_succ_of_ne_zero (Nat.ne_zero_of_lt hdepth)
    have hbelow := ih (Nat.le_of_succ_le_succ hdepth)
    have hidentifier : isIdentifier "parenthesized_expression" = false := by decide
    have hmember : ("parenthesized_expression" == "member_expression") = false := by decide
    have hsubscript : ("parenthesized_expression" == "subscript_expression") = false := by decide
    simp only [qualifiedUpTo, hkind, hidentifier, hmember, hsubscript, Bool.false_eq_true, if_false,
      beq_self_eq_true, if_true]
    cases hhead : (g.namedChildren n).head? with
    | none =>
      rw [hhead] at hinner
      cases hinner
      rfl
    | some inner =>
      rw [hhead] at hbelow
      simp only [hbelow]
  | other hidentifier haccess hparenthesized =>
    obtain ⟨depth, rfl⟩ := Nat.exists_eq_succ_of_ne_zero (Nat.ne_zero_of_lt hdepth)
    rw [isMemberAccess, Bool.or_eq_false_iff] at haccess
    simp only [qualifiedUpTo, hidentifier, haccess.1, haccess.2,
      beq_eq_false_iff_ne.mpr hparenthesized, Bool.false_eq_true, if_false]

/-- Where the node below has a name or none, the node itself has. -/
theorem Qualifies.exists_above {n : NodeId} {name : Option Text} {seen : List NodeId}
    (h : Qualifies g (g.accessed? n) name seen) :
    ∃ name' seen', Qualifies g (some n) name' seen' ∧ seen'.length ≤ seen.length + 1 := by
  by_cases hidentifier : isIdentifier (g.kind n) = true
  · exact ⟨_, _, .identifier hidentifier, Nat.le_add_left _ _⟩
  rw [Bool.not_eq_true] at hidentifier
  by_cases haccess : isMemberAccess (g.kind n) = true
  · rw [Graph.accessed?, if_pos haccess] at h
    obtain hkind | hkind : g.kind n = "member_expression" ∨ g.kind n = "subscript_expression" := by
      simpa [isMemberAccess] using haccess
    · exact ⟨_, _, .member hkind h, Nat.le_refl _⟩
    · exact ⟨_, _, .subscript hkind h, Nat.le_refl _⟩
  by_cases hparenthesized : g.kind n = "parenthesized_expression"
  · rw [Graph.accessed?, if_neg haccess, if_pos hparenthesized] at h
    exact ⟨_, _, .parenthesized hparenthesized h, Nat.le_refl _⟩
  · rw [Bool.not_eq_true] at haccess
    exact ⟨_, _, .other hidentifier haccess hparenthesized, Nat.le_add_left _ _⟩

/-- Nodes above `n`, all different, leave only the other nodes of the graph for a way down. -/
theorem exists_qualifies_of_above (hdown : g.AccessAcyclic) {room : Nat} {n : NodeId}
    (above : Finset NodeId)
    (habove : ∀ m ∈ above, m < g.nodes.size ∧ Relation.TransGen g.IsAccessed n m)
    (hcard : above.card + room = g.nodes.size) :
    ∃ name seen, Qualifies g (some n) name seen ∧ seen.length ≤ room + 1 := by
  have hrange : above ⊆ Finset.range g.nodes.size := fun m hm =>
    Finset.mem_range.mpr (habove m hm).1
  have hn : n ∉ above := fun hmem => hdown n (habove n hmem).2
  induction room generalizing n above with
  | zero =>
    -- All nodes of the graph stand above `n`, so `n` is none of them and nothing stands below it.
    have hall : above = Finset.range g.nodes.size :=
      Finset.eq_of_subset_of_card_le hrange (by rw [Finset.card_range]; omega)
    have hnone : g.accessed? n = none := by
      refine Option.eq_none_iff_forall_ne_some.mpr fun inner hinner => hn ?_
      rw [hall, Finset.mem_range]
      exact Graph.lt_size_of_isAccessed hinner
    have hbelow : Qualifies g (g.accessed? n) none [] := hnone.symm ▸ .nowhere
    exact hbelow.exists_above
  | succ room ih =>
    cases hinner : g.accessed? n with
    | none =>
      have hbelow : Qualifies g (g.accessed? n) none [] := hinner.symm ▸ .nowhere
      obtain ⟨name, seen, hseen, hlength⟩ := hbelow.exists_above
      exact ⟨name, seen, hseen, hlength.trans (Nat.succ_le_succ (Nat.zero_le _))⟩
    | some inner =>
      have hinsert : ∀ m ∈ insert n above,
          m < g.nodes.size ∧ Relation.TransGen g.IsAccessed inner m := by
        intro m hm
        obtain rfl | hm := Finset.mem_insert.mp hm
        · exact ⟨Graph.lt_size_of_isAccessed hinner, .single hinner⟩
        · exact ⟨(habove m hm).1, .head hinner (habove m hm).2⟩
      have hcard' : (insert n above).card + room = g.nodes.size := by
        rw [Finset.card_insert_of_notMem hn]
        omega
      obtain ⟨name, seen, hbelow, hlength⟩ := ih (insert n above) hinsert hcard'
        (fun m hm => Finset.mem_range.mpr (hinsert m hm).1)
        (fun hmem => hdown inner (hinsert inner hmem).2)
      rw [← hinner] at hbelow
      obtain ⟨name', seen', hseen, hlength'⟩ := hbelow.exists_above
      exact ⟨name', seen', hseen, hlength'.trans (Nat.succ_le_succ hlength)⟩

/-- **The way down from a target ends**, and the depth that it is given is enough. -/
theorem qualifies_qualified (hdown : g.AccessAcyclic) (n : Option NodeId) :
    Qualifies g n (qualified g n).1 (qualified g n).2 := by
  cases n with
  | none => exact .nowhere
  | some n =>
    have hstart : (∅ : Finset NodeId).card + g.nodes.size = g.nodes.size := by simp
    obtain ⟨name, seen, hseen, hlength⟩ :=
      exists_qualifies_of_above (n := n) hdown ∅ (by simp) hstart
    rw [qualified, hseen.qualifiedUpTo_eq hlength]
    exact hseen

/-! ## One step -/

/-- Whether a step that goes on does so where it is `allowed` to, and has no name unless one is
found there. -/
def Step.Relays (allowed : NodeId → Prop) : Step → Prop
  | .answer _ _ => True
  | .goOn next finish => finish none = none ∧ ∀ m, next = some m → allowed m

theorem memberStep_relays (n : NodeId) (keyNode : Option NodeId) :
    (memberStep g parents n keyNode).Relays fun m => ∃ c, parents.get? c = some m := by
  unfold memberStep
  split
  · next container key hcontainer _ =>
    refine ⟨rfl, fun m hm => ?_⟩
    split at hm
    · exact ⟨container, hm⟩
    · exact ⟨n, hcontainer.trans hm⟩
  · trivial

/-- Every step goes on at a parent that is noted for some node, or at a named child. The cases are
those of the kinds of nodes, in the order in which they are told apart. -/
theorem step_relays (n : NodeId) :
    (step g parents n).Relays fun m =>
      (∃ c, parents.get? c = some m) ∨ m ∈ g.namedChildren n := by
  have hparent : ∀ m, parents.get? n = some m →
      (∃ c, parents.get? c = some m) ∨ m ∈ g.namedChildren n := fun m hm => .inl ⟨n, hm⟩
  have hmember : ∀ keyNode, (memberStep g parents n keyNode).Relays fun m =>
      (∃ c, parents.get? c = some m) ∨ m ∈ g.namedChildren n := by
    intro keyNode
    have hrelays := @memberStep_relays g parents n keyNode
    cases hstep : memberStep g parents n keyNode with
    | answer => trivial
    | goOn =>
      rw [hstep] at hrelays
      exact ⟨hrelays.1, fun m hm => .inl (hrelays.2 m hm)⟩
  unfold step
  refine iteInduction (fun _ => trivial) fun _ => ?_
  refine iteInduction (fun _ => trivial) fun _ => ?_
  refine iteInduction (fun _ => hmember _) fun _ => ?_
  refine iteInduction (fun _ => hmember _) fun _ => ?_
  refine iteInduction (fun _ => ⟨rfl, hparent⟩) fun _ => ?_
  refine iteInduction (fun _ => trivial) fun _ => ?_
  refine iteInduction (fun _ => trivial) fun _ => ?_
  refine iteInduction (fun _ => ⟨?_, hparent⟩) fun _ => ?_
  · cases solid? (key? g (g.role? n "key")) <;> rfl
  refine iteInduction (fun _ => iteInduction (fun _ => trivial) fun _ => trivial) fun _ => ?_
  refine iteInduction (fun _ => ⟨rfl, fun m hm => ?_⟩) fun _ => ⟨rfl, hparent⟩
  exact .inr (List.mem_filter.mp (List.mem_of_head? hm)).1

/-- **What a step that goes on can do.** It goes on at a parent that is noted for some node, or at
a named child, and it has no name if none is found there. -/
theorem step_goOn {n : NodeId} {next : Option NodeId} {finish : Option Text → Option Text}
    (h : step g parents n = .goOn next finish) :
    finish none = none ∧
      ∀ m, next = some m → (∃ c, parents.get? c = some m) ∨ m ∈ g.namedChildren n := by
  have hrelays := @step_relays g parents n
  rw [h] at hrelays
  exact hrelays

/-- A step goes on at a node of the graph. -/
theorem holds_of_goOn (hparents : parents.Within g) {n : NodeId} {next : Option NodeId}
    {finish : Option Text → Option Text} (h : step g parents n = .goOn next finish) :
    g.Holds next := by
  intro m hm
  obtain ⟨c, hc⟩ | hchild := (step_goOn h).2 m hm
  · exact hparents c m hc
  · exact Graph.lt_size_of_mem_namedChildren hchild

/-! ## From node to node -/

/-- How a search ends. -/
inductive Exit where
  /-- A step has an answer. -/
  | answered
  /-- There is no node to go on with. -/
  | lost
  /-- It comes to a node that has been looked at. -/
  | again (n : NodeId)
  deriving DecidableEq

/-- **The search for a name**, without a budget. `Searches g parents n visited expanded exit name
after` says that from the node `n`, with the nodes `visited` looked at before, it expands the nodes
`expanded` one after the other, ends as `exit` says and comes to `name`; then the nodes `after` have
been looked at. -/
inductive Searches (g : Graph) (parents : ParentTable) :
    Option NodeId → List NodeId → List NodeId → Exit → Option Text → List NodeId → Prop where
  | lost {visited : List NodeId} : Searches g parents none visited [] .lost none visited
  | again {n : NodeId} {visited : List NodeId} : n ∈ visited →
    Searches g parents (some n) visited [] (.again n) none visited
  | answer {n : NodeId} {visited : List NodeId} {name : Option Text} {seen : List NodeId} :
    n ∉ visited → step g parents n = .answer name seen →
    Searches g parents (some n) visited [n] .answered name (markAll (n :: visited) seen)
  | goOn {n : NodeId} {next : Option NodeId} {finish : Option Text → Option Text}
      {visited expanded : List NodeId} {exit : Exit} {name : Option Text} {after : List NodeId} :
    n ∉ visited → step g parents n = .goOn next finish →
    Searches g parents next (n :: visited) expanded exit name after →
    Searches g parents (some n) visited (n :: expanded) exit (finish name) after

namespace Searches

variable {n : Option NodeId} {visited expanded after : List NodeId} {exit : Exit}
  {name : Option Text}

/-- **A node is expanded once**, and not if it has been looked at before. -/
theorem nodup (h : Searches g parents n visited expanded exit name after) :
    expanded.Nodup ∧ ∀ m ∈ expanded, m ∉ visited := by
  induction h with
  | lost | again => exact ⟨List.nodup_nil, fun m hm => absurd hm List.not_mem_nil⟩
  | answer hn _ =>
    exact ⟨List.nodup_singleton _, fun m hm => List.mem_singleton.mp hm ▸ hn⟩
  | goOn hn _ _ ih =>
    obtain ⟨hnodup, hfresh⟩ := ih
    refine ⟨List.nodup_cons.mpr ⟨fun hmem => hfresh _ hmem List.mem_cons_self, hnodup⟩, ?_⟩
    refine List.forall_mem_cons.mpr ⟨hn, fun m hm hvisited => ?_⟩
    exact hfresh m hm (List.mem_cons_of_mem _ hvisited)

/-- Everything that is expanded is a node of the graph, if the first node is. -/
theorem lt_size (hparents : parents.Within g)
    (h : Searches g parents n visited expanded exit name after) (hn : g.Holds n) :
    ∀ m ∈ expanded, m < g.nodes.size := by
  induction h with
  | lost | again => exact fun m hm => absurd hm List.not_mem_nil
  | answer => exact fun m hm => List.mem_singleton.mp hm ▸ hn _ rfl
  | goOn _ hstep _ ih =>
    exact List.forall_mem_cons.mpr ⟨hn _ rfl, ih (holds_of_goOn hparents hstep)⟩

/-- There are no more nodes to expand than the first one and those of the graph. -/
theorem length_le (hparents : parents.Within g)
    (h : Searches g parents n visited expanded exit name after) :
    expanded.length ≤ g.nodes.size + 1 := by
  cases h with
  | lost | again => exact Nat.zero_le _
  | answer => exact Nat.succ_le_succ (Nat.zero_le _)
  | goOn _ hstep hrest =>
    refine Nat.succ_le_succ ?_
    rw [← List.toFinset_card_of_nodup hrest.nodup.1, ← Finset.card_range g.nodes.size]
    refine Finset.card_le_card fun m hm => Finset.mem_range.mpr ?_
    exact hrest.lt_size hparents (holds_of_goOn hparents hstep) m (List.mem_toFinset.mp hm)

/-- **Coming to a node again ends a search without a name.** -/
theorem of_again {m : NodeId} (h : Searches g parents n visited expanded (.again m) name after) :
    (m ∈ visited ∨ m ∈ expanded) ∧ name = none := by
  generalize hexit : Exit.again m = exit at h
  induction h with
  | lost | answer => cases hexit
  | again hmem =>
    cases hexit
    exact ⟨.inl hmem, rfl⟩
  | goOn _ hstep _ ih =>
    obtain ⟨hmem, rfl⟩ := ih hexit
    refine ⟨?_, (step_goOn hstep).1⟩
    obtain hmem | hmem := hmem
    · obtain rfl | hmem := List.mem_cons.mp hmem
      · exact .inr List.mem_cons_self
      · exact .inl hmem
    · exact .inr (List.mem_cons_of_mem _ hmem)

/-- A budget of one step for each node that is expanded is enough. -/
theorem climb_eq (h : Searches g parents n visited expanded exit name after) {budget : Nat}
    (hbudget : expanded.length ≤ budget) :
    climb g parents budget n visited = (name, after) := by
  induction h generalizing budget with
  | lost => cases budget <;> rfl
  | again hmem =>
    cases budget with
    | zero => rfl
    | succ budget => rw [climb, if_pos (List.contains_iff_mem.mpr hmem)]
  | answer hn hstep =>
    obtain ⟨budget, rfl⟩ := Nat.exists_eq_succ_of_ne_zero (Nat.ne_zero_of_lt hbudget)
    rw [climb, if_neg (mt List.contains_iff_mem.mp hn), hstep]
  | goOn hn hstep _ ih =>
    obtain ⟨budget, rfl⟩ := Nat.exists_eq_succ_of_ne_zero (Nat.ne_zero_of_lt hbudget)
    have hrest := ih (Nat.le_of_succ_le_succ hbudget)
    rw [climb, if_neg (mt List.contains_iff_mem.mp hn), hstep]
    dsimp only
    rw [hrest]

end Searches

/-- The nodes of a graph that have not been looked at. -/
def unvisited (g : Graph) (visited : List NodeId) : Finset NodeId :=
  Finset.range g.nodes.size \ visited.toFinset

theorem card_unvisited_lt {n : NodeId} {visited : List NodeId} (hsize : n < g.nodes.size)
    (hn : n ∉ visited) : (unvisited g (n :: visited)).card < (unvisited g visited).card := by
  have hmem : n ∈ unvisited g visited := by simp [unvisited, hsize, hn]
  have herase : unvisited g (n :: visited) = (unvisited g visited).erase n := by
    ext m
    simp [unvisited]
    tauto
  rw [herase]
  exact Finset.card_erase_lt_of_mem hmem

/-- A search from a node ends if it does from every node of the graph where it may go on. -/
theorem exists_searches_of_next (hparents : parents.Within g) {n : NodeId} {visited : List NodeId}
    (hnext : n ∉ visited → ∀ next, g.Holds next →
      ∃ expanded exit name after, Searches g parents next (n :: visited) expanded exit name after) :
    ∃ expanded exit name after,
      Searches g parents (some n) visited expanded exit name after := by
  by_cases hn : n ∈ visited
  · exact ⟨_, _, _, _, .again hn⟩
  cases hstep : step g parents n with
  | answer name seen => exact ⟨_, _, _, _, .answer hn hstep⟩
  | goOn next finish =>
    obtain ⟨_, _, _, _, hrest⟩ := hnext hn next (holds_of_goOn hparents hstep)
    exact ⟨_, _, _, _, .goOn hn hstep hrest⟩

/-- From step to step there are fewer nodes that have not been looked at. -/
theorem exists_searches_of_holds (hparents : parents.Within g) {n : Option NodeId}
    (hn : g.Holds n) (visited : List NodeId) :
    ∃ expanded exit name after, Searches g parents n visited expanded exit name after := by
  induction hcard : (unvisited g visited).card using Nat.strong_induction_on
    generalizing n visited with
  | _ card ih =>
    cases n with
    | none => exact ⟨_, _, _, _, .lost⟩
    | some n =>
      refine exists_searches_of_next hparents fun hfresh next hnext => ?_
      have hless := card_unvisited_lt (hn n rfl) hfresh
      exact ih _ (hcard ▸ hless) hnext (n :: visited) rfl

/-- **Every search ends**, from whatever node. -/
theorem exists_searches (hparents : parents.Within g) (n : Option NodeId) (visited : List NodeId) :
    ∃ expanded exit name after, Searches g parents n visited expanded exit name after := by
  cases n with
  | none => exact ⟨_, _, _, _, .lost⟩
  | some n =>
    exact exists_searches_of_next hparents fun _ next hnext =>
      exists_searches_of_holds hparents hnext (n :: visited)

/-- What a search without a budget comes to is the name of the function. -/
theorem Searches.resolveFrom_eq (hparents : parents.Within g) {n : Option NodeId}
    {visited expanded after : List NodeId} {exit : Exit} {name : Option Text}
    (h : Searches g parents n visited expanded exit name after) :
    resolveFrom g parents n visited
      = ((solid? name).map (Text.replaceFirst ".prototype." "#"), after) := by
  rw [resolveFrom, h.climb_eq (h.length_le hparents)]

/-- **The search for a name ends on any table of parents.** If only the accesses in targets have no
cycles, the way down from each target ends, and from each node, whatever has been looked at before,
there is a search that expands each node once at most and none that has been looked at; what it
comes to is the name. A search that comes to a node again has no name. -/
theorem resolveFrom_terminates (hdown : g.AccessAcyclic) (hparents : parents.Within g)
    (n : Option NodeId) (visited : List NodeId) :
    (∀ target, Qualifies g target (qualified g target).1 (qualified g target).2) ∧
    ∃ expanded exit name after,
      Searches g parents n visited expanded exit name after ∧
      expanded.Nodup ∧ (∀ m ∈ expanded, m ∉ visited) ∧
      resolveFrom g parents n visited
        = ((solid? name).map (Text.replaceFirst ".prototype." "#"), after) ∧
      ∀ m, exit = .again m →
        (m ∈ visited ∨ m ∈ expanded) ∧ (resolveFrom g parents n visited).1 = none := by
  obtain ⟨expanded, exit, name, after, hsearch⟩ := exists_searches hparents n visited
  have hresolve := hsearch.resolveFrom_eq hparents
  obtain ⟨hnodup, hfresh⟩ := hsearch.nodup
  refine ⟨qualifies_qualified hdown, expanded, exit, name, after, hsearch, hnodup, hfresh,
    hresolve, ?_⟩
  rintro m rfl
  obtain ⟨hmem, rfl⟩ := hsearch.of_again
  exact ⟨hmem, by rw [hresolve]; rfl⟩

/-- The nodes of a statement that assigns a function and a statement that calls one at once:
`a.f = function() {}; (function() {})();`. -/
def calledGraph : Graph :=
  ⟨#[⟨"program", true, 0, 0, 0, none, [1, 7], []⟩,
    ⟨"expression_statement", true, 0, 0, 0, none, [2], []⟩,
    ⟨"assignment_expression", true, 0, 0, 0, none, [3, 6], [("left", 3), ("right", 6)]⟩,
    ⟨"member_expression", true, 0, 0, 0, none, [4, 5], [("object", 4), ("property", 5)]⟩,
    ⟨"identifier", true, 0, 0, 0, some "a", [], []⟩,
    ⟨"property_identifier", true, 0, 0, 0, some "f", [], []⟩,
    ⟨"function_expression", true, 0, 0, 0, none, [], []⟩,
    ⟨"expression_statement", true, 0, 0, 0, none, [8], []⟩,
    ⟨"call_expression", true, 0, 0, 0, none, [9], [("function", 9)]⟩,
    ⟨"parenthesized_expression", true, 0, 0, 0, none, [10], []⟩,
    ⟨"function_expression", true, 0, 0, 0, none, [], []⟩]⟩

/-- Their parents, with an entry for the root that makes a cycle. -/
def calledParents : ParentTable :=
  ⟨[(0, 10), (10, 9), (9, 8), (8, 7), (6, 2), (3, 2), (2, 1), (7, 0), (1, 0)]⟩

/-- From the root the search takes the entry that makes a cycle, goes up to the statement of the
call and from there down to the call once more. -/
theorem resolveFrom_terminates_called :
    calledGraph.AccessAcyclic ∧ calledParents.Within calledGraph ∧
      resolveFrom calledGraph calledParents (some 0) [6] = (none, [7, 8, 9, 10, 0, 6]) ∧
      ∃ expanded exit name after,
        Searches calledGraph calledParents (some 0) [6] expanded exit name after ∧
        expanded.Nodup ∧ ∀ m ∈ expanded, m ∉ [6] := by
  have hdown : calledGraph.AccessAcyclic := by
    refine Graph.accessAcyclic_of_lt fun inner outer h => ?_
    have hall : ∀ n < 11, ∀ m ∈ calledGraph.accessed? n, n < m := by decide +kernel
    exact hall outer (Graph.lt_size_of_isAccessed h) inner h
  have hparents : calledParents.Within calledGraph := by
    intro child parent h
    have hall : ∀ entry ∈ calledParents.entries, entry.2 < 11 := by decide
    exact hall _ (ParentTable.mem_of_get? h)
  obtain ⟨-, expanded, exit, name, after, hsearch, hnodup, hfresh, -⟩ :=
    resolveFrom_terminates hdown hparents (some 0) [6]
  exact ⟨hdown, hparents, by decide +kernel, expanded, exit, name, after, hsearch, hnodup, hfresh⟩

/-! ## More nodes looked at -/

/-- A name that is found although `more` nodes have been looked at is found without them: no step
of the search has come to one of them. -/
theorem climb_of_subset {budget : Nat} {n : Option NodeId} {visited more : List NodeId}
    (hsubset : visited ⊆ more) {name : Text}
    (h : (climb g parents budget n more).1 = some name) :
    (climb g parents budget n visited).1 = some name := by
  induction budget generalizing n visited more name with
  | zero => cases h
  | succ budget ih =>
    cases n with
    | none => cases h
    | some n =>
      rw [climb] at h ⊢
      split at h
      · cases h
      · next hmore =>
        have hvisited : ¬ visited.contains n = true := fun hmem =>
          hmore (List.contains_iff_mem.mpr (hsubset (List.contains_iff_mem.mp hmem)))
        rw [if_neg hvisited]
        cases hstep : step g parents n with
        | answer answer seen =>
          rw [hstep] at h
          exact h
        | goOn next finish =>
          rw [hstep] at h
          -- The name comes from a name that was found above, as a step makes none of nothing.
          obtain ⟨owner, howner⟩ : ∃ owner,
              (climb g parents budget next (n :: more)).1 = some owner := by
            refine Option.ne_none_iff_exists'.mp fun hnone => ?_
            have hfinish : finish (climb g parents budget next (n :: more)).1 = some name := h
            rw [hnone, (step_goOn hstep).1] at hfinish
            cases hfinish
          have hsame := ih (List.cons_subset_cons n hsubset) howner
          show finish (climb g parents budget next (n :: visited)).1 = some name
          rw [hsame, ← howner]
          exact h

/-- **Nodes that have been looked at can only take a name away, never change it.** -/
theorem resolveFrom_of_subset {n : Option NodeId} {visited more : List NodeId}
    (hsubset : visited ⊆ more) {name : Text}
    (h : (resolveFrom g parents n more).1 = some name) :
    (resolveFrom g parents n visited).1 = some name := by
  obtain ⟨found, hfound, rfl⟩ := Option.map_eq_some_iff.mp h
  have hclimb : (climb g parents (g.nodes.size + 1) n more).1 = some found :=
    (Option.filter_eq_some_iff.mp hfound).1
  refine Option.map_eq_some_iff.mpr ⟨found, ?_, rfl⟩
  rw [hclimb] at hfound
  rw [climb_of_subset hsubset hclimb]
  exact hfound

/-- The access to a function that is assigned counts as looked at here, which does not keep the
search from going down through it. -/
theorem resolveFrom_of_subset_target :
    [5] ⊆ [5, 3] ∧ (resolveFrom calledGraph calledParents (some 6) [5, 3]).1 = some "a.f".toList ∧
      (resolveFrom calledGraph calledParents (some 6) [5]).1 = some "a.f".toList := by
  have hsubset : [5] ⊆ [5, 3] := by simp
  have hmore : (resolveFrom calledGraph calledParents (some 6) [5, 3]).1 = some "a.f".toList := by
    decide +kernel
  exact ⟨hsubset, hmore, resolveFrom_of_subset hsubset hmore⟩

end Naming

end DocModel
