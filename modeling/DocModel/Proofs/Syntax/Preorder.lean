import DocModel.Proofs.Basic
import DocModel.Syntax.Walk
import Mathlib.Data.Finset.Card
import Mathlib.Logic.Relation

/-!
# A walk goes in pre-order

A walk keeps a stack and a budget, and neither says in which order nodes are visited. Here is the
walk as one would describe it, by recursion: look up the slots of a node, visit it, note it as the
parent of its slots, and walk through them from the left. The recursion ends because the slot
relation has no cycles.

What ties the two together is one invariant about the whole stack: a walk with some stack does
what the recursion does at its nodes, one after the other (`walkSteps_eq_visitEach`). Below a node
that is expanded the stack grows by its slots, and the recursion goes through the same slots before
it comes to the rest. A shared node is visited once for every way that leads to it, so the budget
must pay for the tree into which the graph unfolds, and in a graph without cycles that tree is no
deeper than the graph has nodes (`Graph.Acyclic.shallow`).
-/

namespace DocModel

variable {slots? : NodeId → Option (List NodeId)}

/-! ## The recursive walk -/

/-- Whether a walk goes down from `parent` to `child`. -/
def IsSlot (slots? : NodeId → Option (List NodeId)) (child parent : NodeId) : Prop :=
  child ∈ (slots? parent).getD []

/-- How the recursion at a node came to an end. -/
inductive Outcome where
  /-- Everything below the node has been dealt with. -/
  | completed
  /-- The visitor stopped the whole walk. -/
  | halted
  /-- A node of an unknown kind was met. -/
  | unknownKind (node : NodeId)
  deriving DecidableEq

/-- The ending that a whole walk has then. -/
def Outcome.ending : Outcome → Ending
  | completed | halted => .finished
  | unknownKind n => .unknownKind n

/-- The recursion at several nodes, one after the other, until it stops at one of them. -/
def visitEach {α : Type} (visitOne : α → Trail → Trail × Outcome) :
    List α → Trail → Trail × Outcome
  | [], t => (t, .completed)
  | a :: as, t =>
    match visitOne a t with
    | (t, .completed) => visitEach visitOne as t
    | stopped => stopped

/-- **The recursive walk** from a node, after what a trail says. -/
def preorder (wf : WellFounded (IsSlot slots?)) (visit : Visitor) (n : NodeId) (t : Trail) :
    Trail × Outcome :=
  match _ : slots? n with
  | none => (t, .unknownKind n)
  | some children =>
    match visit t.visited n with
    | .halt => (⟨n :: t.visited, t.parents⟩, .halted)
    | .skip => (⟨n :: t.visited, t.parents⟩, .completed)
    | .descend =>
      visitEach (fun c => preorder wf visit c.1) children.attach
        ⟨n :: t.visited, t.parents.assignAll children n⟩
termination_by wf.wrap n
decreasing_by
  show IsSlot slots? c.1 n
  rw [IsSlot, ‹slots? n = some children›]
  exact c.2

theorem visitEach_map {α β : Type} (f : α → β) (visitOne : β → Trail → Trail × Outcome)
    (as : List α) (t : Trail) :
    visitEach visitOne (as.map f) t = visitEach (fun a => visitOne (f a)) as t := by
  induction as generalizing t with
  | nil => rfl
  | cons a as ih =>
    rw [List.map_cons, visitEach, visitEach]
    split
    · exact ih _
    · rfl

theorem visitEach_append {α : Type} (visitOne : α → Trail → Trail × Outcome) (as bs : List α)
    (t : Trail) :
    visitEach visitOne (as ++ bs) t =
      match visitEach visitOne as t with
      | (t, .completed) => visitEach visitOne bs t
      | stopped => stopped := by
  induction as generalizing t with
  | nil => rfl
  | cons a as ih =>
    rw [List.cons_append, visitEach, visitEach]
    split
    · exact ih _
    · next hstopped =>
      split
      · next heq => exact absurd heq (hstopped _)
      · rfl

/-- **What the recursion does at a node.** -/
theorem preorder_eq (wf : WellFounded (IsSlot slots?)) (visit : Visitor) (n : NodeId) (t : Trail) :
    preorder wf visit n t =
      match slots? n with
      | none => (t, .unknownKind n)
      | some children =>
        match visit t.visited n with
        | .halt => (⟨n :: t.visited, t.parents⟩, .halted)
        | .skip => (⟨n :: t.visited, t.parents⟩, .completed)
        | .descend =>
          visitEach (preorder wf visit) children
            ⟨n :: t.visited, t.parents.assignAll children n⟩ := by
  have hattach : ∀ (children : List NodeId) (t : Trail),
      visitEach (fun c : { c // c ∈ children } => preorder wf visit c.1) children.attach t
        = visitEach (preorder wf visit) children t := by
    intro children t
    rw [← visitEach_map Subtype.val, List.attach_map_subtype_val]
  conv => lhs; unfold preorder
  split
  · next h => rw [h]
  · next children h =>
    rw [h]
    split <;> simp_all only

/-! ## The stack -/

theorem totalCost_append (cost : NodeId → Nat) (ns ms : List NodeId) :
    totalCost cost (ns ++ ms) = totalCost cost ns + totalCost cost ms := by
  induction ns with
  | nil => exact (Nat.zero_add _).symm
  | cons n ns ih => rw [List.cons_append, totalCost, totalCost, ih, Nat.add_assoc]

theorem le_totalCost_of_mem {cost : NodeId → Nat} {n : NodeId} {ns : List NodeId} (h : n ∈ ns) :
    cost n ≤ totalCost cost ns := by
  induction h with
  | head => exact Nat.le_add_right _ _
  | tail m _ ih => exact Nat.le_trans ih (Nat.le_add_left _ _)

theorem totalCost_congr {cost cost' : NodeId → Nat} {ns : List NodeId}
    (h : ∀ n ∈ ns, cost n = cost' n) : totalCost cost ns = totalCost cost' ns := by
  induction ns with
  | nil => rfl
  | cons n ns ih =>
    obtain ⟨hn, hns⟩ := List.forall_mem_cons.mp h
    rw [totalCost, totalCost, hn, ih hns]

/-- **The stack holds what the recursion still has to do.** With a budget that pays for the nodes
on its stack, a walk does what the recursion does at these nodes, one after the other. A node costs
more than all its slots together. -/
theorem walkSteps_eq_visitEach (wf : WellFounded (IsSlot slots?)) (visit : Visitor)
    {cost : NodeId → Nat} (hcost : ∀ n, totalCost cost ((slots? n).getD []) < cost n)
    {budget : Nat} {stack : List NodeId} (hbudget : totalCost cost stack ≤ budget) (t : Trail) :
    walkSteps slots? visit budget stack t
      = (visitEach (preorder wf visit) stack t).map id Outcome.ending := by
  induction budget generalizing stack t with
  | zero =>
    cases stack with
    | nil => rfl
    | cons n stack =>
      have := hcost n
      rw [totalCost] at hbudget
      omega
  | succ budget ih =>
    cases stack with
    | nil => rfl
    | cons n stack =>
      have hn := hcost n
      rw [totalCost] at hbudget
      rw [walkSteps, visitEach, preorder_eq]
      cases hslots : slots? n with
      | none => rfl
      | some children =>
        rw [hslots, Option.getD_some] at hn
        dsimp only
        cases visit t.visited n with
        | halt => rfl
        | skip => exact ih (by omega) _
        | descend =>
          -- The slots lie on the stack above what was there.
          have hstack : totalCost cost (children ++ stack) ≤ budget := by
            rw [totalCost_append]
            omega
          rw [ih hstack, visitEach_append]

/-! ## The budget -/

/-- Whether no way down from a node has more than the given number of steps. -/
def Shallow (slots? : NodeId → Option (List NodeId)) : Nat → NodeId → Prop
  | 0, n => (slots? n).getD [] = []
  | depth + 1, n => ∀ c ∈ (slots? n).getD [], Shallow slots? depth c

/-- Looking deeper than a node is does not change the size of the tree below it. -/
theorem unfoldedSize_succ {depth : Nat} {n : NodeId} (h : Shallow slots? depth n) :
    unfoldedSize slots? (depth + 1) n = unfoldedSize slots? depth n := by
  induction depth generalizing n with
  | zero =>
    rw [Shallow] at h
    show 1 + totalCost (unfoldedSize slots? 0) ((slots? n).getD []) = 1
    rw [h, totalCost]
  | succ depth ih =>
    rw [unfoldedSize, totalCost_congr fun c hc => ih (h c hc), unfoldedSize]

/-- The tree below a node is larger than the trees below its slots together. -/
theorem totalCost_unfoldedSize_lt {depth : Nat} {n : NodeId} (h : Shallow slots? depth n) :
    totalCost (unfoldedSize slots? depth) ((slots? n).getD []) < unfoldedSize slots? depth n := by
  rw [← unfoldedSize_succ h, unfoldedSize]
  omega

/-- A relation between nodes along which a cost falls can be followed only so far. -/
theorem wellFounded_of_cost {cost : NodeId → Nat}
    (hcost : ∀ n, totalCost cost ((slots? n).getD []) < cost n) :
    WellFounded (IsSlot slots?) := by
  refine Subrelation.wf (fun {c n} hc => ?_) (measure cost).wf
  exact Nat.lt_of_le_of_lt (le_totalCost_of_mem hc) (hcost n)

namespace Graph

/-- **A graph without cycles**: no way down comes back to where it started. -/
def Acyclic (g : Graph) (table : ChildTable) : Prop :=
  ∀ n, ¬ Relation.TransGen (IsSlot (g.slots? table)) n n

/-- A relation that leads from larger to smaller numbers has no cycles. -/
theorem not_transGen_self_of_lt {r : NodeId → NodeId → Prop} (h : ∀ c n, r c n → n < c)
    (n : NodeId) : ¬ Relation.TransGen r n n := by
  have hlt : ∀ {c n}, Relation.TransGen r c n → n < c := by
    intro c n hpath
    induction hpath with
    | single hc => exact h _ _ hc
    | tail _ hc ih => exact Nat.lt_trans (h _ _ hc) ih
  exact fun hn => Nat.lt_irrefl n (hlt hn)

/-- If slots have larger numbers than their parents, there are no cycles. -/
theorem acyclic_of_lt {g : Graph} {table : ChildTable}
    (h : ∀ c n, IsSlot (g.slots? table) c n → n < c) : g.Acyclic table :=
  not_transGen_self_of_lt h

/-- Whether a node stands directly below another one, as a child or in a role. -/
def IsBelow (g : Graph) (c n : NodeId) : Prop :=
  c ∈ (g.node n).children ∨ ∃ role, (role, c) ∈ (g.node n).roles

theorem mem_roles_of_role? {g : Graph} {role : String} {c n : NodeId}
    (h : g.role? n role = some c) : (role, c) ∈ (g.node n).roles :=
  List.mem_of_lookup_eq_some h

theorem isBelow_of_role? {g : Graph} {role : String} {c n : NodeId}
    (h : g.role? n role = some c) : g.IsBelow c n :=
  .inr ⟨role, mem_roles_of_role? h⟩

/-- A slot of a node is one of its children, or plays a role for it. -/
theorem isBelow_of_isSlot {g : Graph} {table : ChildTable} {c n : NodeId}
    (h : IsSlot (g.slots? table) c n) : g.IsBelow c n := by
  rw [IsSlot, slots?] at h
  cases hkind : table.lookup (g.kind n) with
  | none => simp [hkind] at h
  | some slots =>
    rw [hkind] at h
    cases slots with
    | named => exact .inl (List.mem_filter.mp (List.mem_filter.mp h).1).1
    | roles names =>
      obtain ⟨role, -, hrole⟩ := List.mem_filterMap.mp h
      exact isBelow_of_role? hrole
    | leaf => cases h

/-- What has something below it is a node of the graph. -/
theorem lt_size_of_isBelow {g : Graph} {c n : NodeId} (h : g.IsBelow c n) : n < g.nodes.size := by
  by_contra hn
  have hmissing : g.node n = missing := by
    rw [node, Array.getElem?_eq_none (Nat.le_of_not_lt hn)]
    rfl
  obtain hc | ⟨role, hrole⟩ := h
  · rw [hmissing] at hc
    cases hc
  · rw [hmissing] at hrole
    cases hrole

/-- What has slots is a node of the graph. -/
theorem lt_size_of_isSlot {g : Graph} {table : ChildTable} {c n : NodeId}
    (h : IsSlot (g.slots? table) c n) : n < g.nodes.size :=
  lt_size_of_isBelow (isBelow_of_isSlot h)

section Acyclic

variable {g : Graph} {table : ChildTable} (acyclic : g.Acyclic table)
include acyclic

/-- Nodes above `n`, all different, leave only the other nodes of the graph for a way down. -/
theorem Acyclic.shallow_of_above {depth : Nat} {n : NodeId} (above : Finset NodeId)
    (habove : ∀ m ∈ above, m < g.nodes.size ∧ Relation.TransGen (IsSlot (g.slots? table)) n m)
    (hcard : above.card + depth = g.nodes.size) : Shallow (g.slots? table) depth n := by
  have hrange : above ⊆ Finset.range g.nodes.size := fun m hm =>
    Finset.mem_range.mpr (habove m hm).1
  have hn : n ∉ above := fun hmem => acyclic n (habove n hmem).2
  induction depth generalizing n above with
  | zero =>
    -- All nodes of the graph stand above `n`, so `n` is none of them.
    have hall : above = Finset.range g.nodes.size :=
      Finset.eq_of_subset_of_card_le hrange (by rw [Finset.card_range]; omega)
    refine List.eq_nil_iff_forall_not_mem.mpr fun c hc => hn ?_
    rw [hall, Finset.mem_range]
    exact lt_size_of_isSlot hc
  | succ depth ih =>
    intro c hc
    have hinsert : ∀ m ∈ insert n above,
        m < g.nodes.size ∧ Relation.TransGen (IsSlot (g.slots? table)) c m := by
      intro m hm
      obtain rfl | hm := Finset.mem_insert.mp hm
      · exact ⟨lt_size_of_isSlot hc, .single hc⟩
      · exact ⟨(habove m hm).1, .head hc (habove m hm).2⟩
    refine ih _ hinsert ?_ (fun m hm => Finset.mem_range.mpr (hinsert m hm).1)
      (fun hmem => acyclic c (hinsert c hmem).2)
    rw [Finset.card_insert_of_notMem hn]
    omega

/-- **No way down has more steps than there are nodes.** -/
theorem Acyclic.shallow (n : NodeId) : Shallow (g.slots? table) g.nodes.size n :=
  acyclic.shallow_of_above ∅ (by simp) (by simp)

theorem Acyclic.cost (n : NodeId) :
    totalCost (unfoldedSize (g.slots? table) g.nodes.size) ((g.slots? table n).getD [])
      < unfoldedSize (g.slots? table) g.nodes.size n :=
  totalCost_unfoldedSize_lt (acyclic.shallow n)

theorem Acyclic.wellFounded : WellFounded (IsSlot (g.slots? table)) :=
  wellFounded_of_cost acyclic.cost

/-- The budget of a node pays for the walk from it. -/
theorem Acyclic.walkSteps_root (visit : Visitor) (root : NodeId) (t : Trail) :
    walkSteps (g.slots? table) visit (unfoldedSize (g.slots? table) g.nodes.size root) [root] t
      = (preorder acyclic.wellFounded visit root t).map id Outcome.ending := by
  have hbudget : totalCost (unfoldedSize (g.slots? table) g.nodes.size) [root]
      ≤ unfoldedSize (g.slots? table) g.nodes.size root := Nat.le_refl _
  rw [walkSteps_eq_visitEach acyclic.wellFounded visit acyclic.cost hbudget, visitEach]
  split
  · next heq => rw [heq, visitEach]
  · rfl

/-- **A walk is the recursive walk.** It visits the same nodes in the same order, notes the same
parents in the same order, and ends in the same way; when it meets a node of an unknown kind, both
have done the same before. -/
theorem walk_eq_preorder (visit : Visitor) (root : NodeId) (parents : ParentTable) :
    g.walk table visit root parents
      = (preorder acyclic.wellFounded visit root ⟨[], parents⟩).map id Outcome.ending :=
  acyclic.walkSteps_root visit root ⟨[], parents⟩

end Acyclic

/-- A graph in which node 2 stands below node 0 and below node 1, with a node of an unknown kind to
the right of both. -/
def sharedGraph : Graph :=
  ⟨#[⟨"list", true, 0, 0, 0, none, [1, 2, 3], []⟩,
    ⟨"pair", true, 0, 0, 0, none, [2], [("value", 2)]⟩,
    ⟨"leaf", true, 0, 0, 0, none, [], []⟩,
    ⟨"odd", true, 0, 0, 0, none, [], []⟩]⟩

/-- A table that does not know every kind, with a role that no node of `sharedGraph` fills. -/
def sharedTable : ChildTable :=
  [("list", .named), ("pair", .roles ["key", "value"]), ("leaf", .leaf)]

theorem walk_eq_preorder_shared :
    ∃ acyclic : sharedGraph.Acyclic sharedTable,
      (preorder acyclic.wellFounded (fun _ n => if n = 2 then .skip else .descend) 0
        ⟨[], .empty⟩).map id Outcome.ending
        = (⟨[2, 2, 1, 0], ⟨[(3, 0), (2, 0), (1, 0)]⟩⟩, .unknownKind 3) := by
  have acyclic : sharedGraph.Acyclic sharedTable := by
    refine acyclic_of_lt fun c n hc => ?_
    have hn : n < 4 := lt_size_of_isSlot hc
    have hall : ∀ n < 4, ∀ c ∈ (sharedGraph.slots? sharedTable n).getD [], n < c := by
      decide +kernel
    exact hall n hn c hc
  refine ⟨acyclic, ?_⟩
  rw [← walk_eq_preorder acyclic]
  rfl

end Graph

end DocModel
