import DocModel.Proofs.Basic
import DocModel.Proofs.Syntax.Preorder

/-!
# The table of parents

A name is found by climbing the table of parents, and the climb has no bound of its own. So it
matters what the table holds after any history of walks. They may start inside each other's
subtrees, leave parts out, stop early or fail at a node of an unknown kind, and one walk meets nodes
that another has met before.

What a table is good for follows from what a single step of a walk does to it: it notes a node as
the parent of its slots and leaves every earlier entry alone (`ParentTable.mem_assignAll`,
`ParentTable.grows_assignAll`). Hence each entry is an edge of the graph, and since the graph has
no cycles, neither has the table: a climb passes each entry at most once
(`ParentTable.Sound.climbs_ancestors`). In a graph where nothing has two parents, a walk through
everything below a node leaves no choice, and a climb goes the one way up to that node.
-/

namespace DocModel

variable {slots? : NodeId → Option (List NodeId)}

namespace ParentTable

/-! ## What is noted -/

variable {t u : ParentTable} {child parent : NodeId}

theorem mem_of_get? (h : t.get? child = some parent) : (child, parent) ∈ t.entries :=
  List.mem_of_lookup_eq_some h

/-- Later tables have all entries of earlier ones, in the same order. -/
def Grows (t u : ParentTable) : Prop := t.entries <:+ u.entries

theorem Grows.trans {v : ParentTable} (htu : t.Grows u) (huv : u.Grows v) : t.Grows v :=
  List.IsSuffix.trans htu huv

theorem mem_assign {entry : NodeId × NodeId} (h : entry ∈ (t.assign child parent).entries) :
    entry ∈ t.entries ∨ entry = (child, parent) := by
  unfold assign at h
  split at h
  · exact .inl h
  · exact (List.mem_cons.mp h).symm

theorem grows_assign (t : ParentTable) (child parent : NodeId) :
    t.Grows (t.assign child parent) := by
  unfold assign
  split
  · exact List.suffix_rfl
  · exact List.suffix_cons _ _

theorem isSome_get?_assign (t : ParentTable) (child parent : NodeId) :
    ((t.assign child parent).get? child).isSome = true := by
  unfold assign
  split
  · assumption
  · show (List.lookup child ((child, parent) :: t.entries)).isSome = true
    rw [List.lookup_cons_self]
    rfl

theorem nodup_assign (h : (t.entries.map Prod.fst).Nodup) :
    ((t.assign child parent).entries.map Prod.fst).Nodup := by
  unfold assign
  split
  · exact h
  · next hfree =>
    refine List.nodup_cons.mpr ⟨fun hmem => hfree ?_, h⟩
    obtain ⟨entry, hentry, rfl⟩ := List.mem_map.mp hmem
    exact List.lookup_isSome_iff.mpr ⟨entry, hentry, BEq.rfl⟩

theorem Grows.isSome_get? (h : t.Grows u) (hchild : (t.get? child).isSome = true) :
    (u.get? child).isSome = true := by
  obtain ⟨entry, hentry, hkey⟩ := List.lookup_isSome_iff.mp hchild
  exact List.lookup_isSome_iff.mpr ⟨entry, h.subset hentry, hkey⟩

/-- **What a node notes**: only itself, and only for its slots. -/
theorem mem_assignAll {children : List NodeId} {entry : NodeId × NodeId}
    (h : entry ∈ (t.assignAll children parent).entries) :
    entry ∈ t.entries ∨ entry.1 ∈ children ∧ entry.2 = parent := by
  induction children generalizing t with
  | nil => exact .inl h
  | cons c children ih =>
    obtain hmem | ⟨hchild, hparent⟩ := ih h
    · obtain hold | rfl := mem_assign hmem
      · exact .inl hold
      · exact .inr ⟨List.mem_cons_self, rfl⟩
    · exact .inr ⟨List.mem_cons_of_mem _ hchild, hparent⟩

theorem grows_assignAll (t : ParentTable) (children : List NodeId) (parent : NodeId) :
    t.Grows (t.assignAll children parent) := by
  induction children generalizing t with
  | nil => exact List.suffix_rfl
  | cons c children ih => exact (grows_assign t c parent).trans (ih _)

theorem isSome_get?_assignAll {children : List NodeId} (h : child ∈ children) :
    ((t.assignAll children parent).get? child).isSome = true := by
  induction children generalizing t with
  | nil => cases h
  | cons c children ih =>
    obtain rfl | h := List.mem_cons.mp h
    · have hgrows := grows_assignAll (t.assign child parent) children parent
      exact hgrows.isSome_get? (isSome_get?_assign t child parent)
    · exact ih h

theorem nodup_assignAll (h : (t.entries.map Prod.fst).Nodup) (children : List NodeId) :
    ((t.assignAll children parent).entries.map Prod.fst).Nodup := by
  induction children generalizing t with
  | nil => exact h
  | cons c children ih => exact ih (nodup_assign h)

/-- **A sound table**: a node has one entry at most, and each entry is an edge of the graph. -/
structure Sound (slots? : NodeId → Option (List NodeId)) (t : ParentTable) : Prop where
  nodup : (t.entries.map Prod.fst).Nodup
  isSlot : ∀ child parent, (child, parent) ∈ t.entries → IsSlot slots? child parent

theorem sound_empty : empty.Sound slots? :=
  ⟨List.nodup_nil, fun _ _ h => absurd h List.not_mem_nil⟩

theorem Sound.assignAll (h : t.Sound slots?) {children : List NodeId}
    (hslots : slots? parent = some children) : (t.assignAll children parent).Sound slots? := by
  refine ⟨nodup_assignAll h.nodup children, fun c p hentry => ?_⟩
  obtain hold | ⟨hc, rfl⟩ := mem_assignAll hentry
  · exact h.isSlot c p hold
  · rw [IsSlot, hslots]
    exact hc

/-- An entry of an earlier table is never changed. -/
theorem Grows.get?_eq_some (h : t.Grows u) (hu : u.Sound slots?)
    (hchild : t.get? child = some parent) : u.get? child = some parent :=
  (List.lookup_eq_some_iff_mem hu.nodup).mpr (h.subset (mem_of_get? hchild))

/-! ## Climbing -/

/-- **The way that a climb takes**: from node to parent, until a node has none. -/
inductive Climbs (t : ParentTable) : NodeId → List NodeId → Prop where
  | stop {n : NodeId} : t.get? n = none → Climbs t n []
  | up {n parent : NodeId} {path : List NodeId} :
    t.get? n = some parent → Climbs t parent path → Climbs t n (parent :: path)

theorem Climbs.unique {n : NodeId} {path path' : List NodeId} (h : t.Climbs n path)
    (h' : t.Climbs n path') : path = path' := by
  induction h generalizing path' with
  | stop hnone =>
    cases h' with
    | stop => rfl
    | up hsome => rw [hnone] at hsome; cases hsome
  | up hsome _ ih =>
    cases h' with
    | stop hnone => rw [hnone] at hsome; cases hsome
    | up hsome' hpath =>
      obtain rfl := Option.some.inj (hsome.symm.trans hsome')
      rw [ih hpath]

/-- Nodes that a climb has passed below `n`. -/
def Passed (slots? : NodeId → Option (List NodeId)) (t : ParentTable) (below : Finset NodeId)
    (n : NodeId) : Prop :=
  ∀ m ∈ below, m ∈ t.entries.map Prod.fst ∧ Relation.TransGen (IsSlot slots?) m n

theorem Passed.insert (h : t.Sound slots?) {below : Finset NodeId} {n : NodeId}
    (hbelow : Passed slots? t below n) (hparent : t.get? n = some parent) :
    Passed slots? t (insert n below) parent := by
  have hentry := mem_of_get? hparent
  have hslot := h.isSlot n parent hentry
  intro m hm
  obtain rfl | hm := Finset.mem_insert.mp hm
  · exact ⟨List.mem_map_of_mem hentry, .single hslot⟩
  · exact ⟨(hbelow m hm).1, (hbelow m hm).2.tail hslot⟩

theorem Passed.card_le {below : Finset NodeId} {n : NodeId} (hbelow : Passed slots? t below n) :
    below.card ≤ t.size := by
  have hsubset : below ⊆ (t.entries.map Prod.fst).toFinset := fun m hm =>
    List.mem_toFinset.mpr (hbelow m hm).1
  refine (Finset.card_le_card hsubset).trans ((List.toFinset_card_le _).trans ?_)
  rw [List.length_map]
  exact Nat.le_refl _

section Acyclic

variable (hacyclic : ∀ n, ¬ Relation.TransGen (IsSlot slots?) n n)
include hacyclic

/-- The nodes that a climb has passed are all different and all in the table, so they leave only
the other entries for the rest of it. -/
theorem Sound.climbs_of_passed (h : t.Sound slots?) {n : NodeId} {steps : Nat}
    {below : Finset NodeId} (hbelow : Passed slots? t below n)
    (hcard : below.card + steps = t.size) : t.Climbs n (t.ancestorsUpTo steps n) := by
  induction steps generalizing n below with
  | zero =>
    refine .stop (Option.eq_none_iff_forall_ne_some.mpr fun parent hparent => ?_)
    -- The climb has passed as many nodes as there are entries, and `n` is one more.
    have hn : n ∉ below := fun hmem => hacyclic n (hbelow n hmem).2
    have hle := (hbelow.insert h hparent).card_le
    rw [Finset.card_insert_of_notMem hn] at hle
    omega
  | succ steps ih =>
    rw [ancestorsUpTo]
    cases hparent : t.get? n with
    | none => exact .stop hparent
    | some parent =>
      have hn : n ∉ below := fun hmem => hacyclic n (hbelow n hmem).2
      refine .up hparent (ih (hbelow.insert h hparent) ?_)
      rw [Finset.card_insert_of_notMem hn]
      omega

/-- **Every climb ends**, and the ancestors of a node are the nodes that it passes. -/
theorem Sound.climbs_ancestors (h : t.Sound slots?) (n : NodeId) :
    t.Climbs n (t.ancestors n) := by
  have hstart : Passed slots? t ∅ n := by simp [Passed]
  exact h.climbs_of_passed hacyclic hstart (by simp)

end Acyclic

end ParentTable

/-! ## One walk -/

section Walk

variable {visit : Visitor}

/-- **What holds at every moment of a walk.** It is enough that a visit keeps it, whether the walk
then goes down from the node or not. When nothing is left out and the walk finishes, its stack is
empty. -/
theorem walkSteps_invariant {Inv : List NodeId → Trail → Prop}
    (pass : ∀ n stack t, visit t.visited n ≠ .descend → Inv (n :: stack) t →
      Inv stack ⟨n :: t.visited, t.parents⟩)
    (descend : ∀ n children stack t, slots? n = some children → Inv (n :: stack) t →
      Inv (children ++ stack) ⟨n :: t.visited, t.parents.assignAll children n⟩)
    (budget : Nat) {stack : List NodeId} {t : Trail} (h : Inv stack t) :
    ∃ rest, Inv rest (walkSteps slots? visit budget stack t).1 ∧
      ((∀ visited n, visit visited n = .descend) →
        (walkSteps slots? visit budget stack t).2 = .finished → rest = []) := by
  induction budget generalizing stack t with
  | zero =>
    refine ⟨stack, ?_⟩
    cases stack with
    | nil => exact ⟨h, fun _ _ => rfl⟩
    | cons n stack => exact ⟨h, fun _ hend => by cases hend⟩
  | succ budget ih =>
    cases stack with
    | nil => exact ⟨[], h, fun _ _ => rfl⟩
    | cons n stack =>
      rw [walkSteps]
      cases hslots : slots? n with
      | none => exact ⟨n :: stack, h, fun _ hend => by cases hend⟩
      | some children =>
        dsimp only
        cases hvisit : visit t.visited n with
        | halt =>
          refine ⟨stack, pass n stack t (by rw [hvisit]; decide) h, fun hall => ?_⟩
          rw [hall] at hvisit
          cases hvisit
        | skip => exact ih (pass n stack t (by rw [hvisit]; decide) h)
        | descend => exact ih (descend n children stack t hslots h)

/-- The table of a walk grows from moment to moment. -/
theorem grows_walkSteps (visit : Visitor) (budget : Nat) (stack : List NodeId) (t : Trail) :
    t.parents.Grows (walkSteps slots? visit budget stack t).1.parents := by
  obtain ⟨_, hgrows, -⟩ := @walkSteps_invariant slots? visit
    (fun _ u => t.parents.Grows u.parents) (fun _ _ _ _ h => h)
    (fun n children _ u _ h => h.trans (u.parents.grows_assignAll children n)) budget stack t
    List.suffix_rfl
  exact hgrows

theorem grows_walkSteps_of_le (visit : Visitor) {steps budget : Nat} (hle : steps ≤ budget)
    (stack : List NodeId) (t : Trail) :
    (walkSteps slots? visit steps stack t).1.parents.Grows
      (walkSteps slots? visit budget stack t).1.parents := by
  induction steps generalizing budget stack t with
  | zero =>
    have hstart : (walkSteps slots? visit 0 stack t).1 = t := by cases stack <;> rfl
    rw [hstart]
    exact grows_walkSteps visit budget stack t
  | succ steps ih =>
    obtain ⟨budget, rfl⟩ : ∃ more, budget = more + 1 := ⟨budget - 1, by omega⟩
    have hle : steps ≤ budget := Nat.le_of_succ_le_succ hle
    cases stack with
    | nil => exact List.suffix_rfl
    | cons n stack =>
      rw [walkSteps, walkSteps]
      cases slots? n with
      | none => exact List.suffix_rfl
      | some children =>
        dsimp only
        cases visit t.visited n with
        | halt => exact List.suffix_rfl
        | skip => exact ih hle _ _
        | descend => exact ih hle _ _

variable {root n : NodeId} {stack : List NodeId} {t : Trail}

/-- **What a walk from `root` knows** of its table: it is sound, and the nodes that have been
visited or wait for a visit are in it. -/
structure Walking (slots? : NodeId → Option (List NodeId)) (root : NodeId) (stack : List NodeId)
    (t : Trail) : Prop where
  sound : t.parents.Sound slots?
  pending : ∀ n ∈ stack, n ≠ root → (t.parents.get? n).isSome = true
  visited : ∀ n ∈ t.visited, n ≠ root → (t.parents.get? n).isSome = true

theorem Walking.pass (h : Walking slots? root (n :: stack) t) :
    Walking slots? root stack ⟨n :: t.visited, t.parents⟩ := by
  obtain ⟨hn, hstack⟩ := List.forall_mem_cons.mp h.pending
  exact ⟨h.sound, hstack, List.forall_mem_cons.mpr ⟨hn, h.visited⟩⟩

theorem Walking.descend (h : Walking slots? root (n :: stack) t) {children : List NodeId}
    (hslots : slots? n = some children) :
    Walking slots? root (children ++ stack)
      ⟨n :: t.visited, t.parents.assignAll children n⟩ := by
  have hgrows := t.parents.grows_assignAll children n
  obtain ⟨hn, hstack⟩ := List.forall_mem_cons.mp h.pending
  refine ⟨h.sound.assignAll hslots, fun m hm hroot => ?_, fun m hm hroot => ?_⟩
  · obtain hm | hm := List.mem_append.mp hm
    · exact ParentTable.isSome_get?_assignAll hm
    · exact hgrows.isSome_get? (hstack m hm hroot)
  · obtain rfl | hm := List.mem_cons.mp hm
    · exact hgrows.isSome_get? (hn hroot)
    · exact hgrows.isSome_get? (h.visited m hm hroot)

theorem exists_walking_walkSteps {parents : ParentTable} (hparents : parents.Sound slots?)
    (visit : Visitor) (root : NodeId) (budget : Nat) :
    ∃ rest, Walking slots? root rest
      (walkSteps slots? visit budget [root] ⟨[], parents⟩).1 := by
  have hstart : Walking slots? root [root] ⟨[], parents⟩ :=
    ⟨hparents, fun n hn hroot => absurd (List.mem_singleton.mp hn) hroot,
      fun n hn => absurd hn List.not_mem_nil⟩
  obtain ⟨rest, hrest, -⟩ := @walkSteps_invariant slots? visit (Walking slots? root)
    (fun _ _ _ _ ht => ht.pass) (fun _ _ _ _ hslots ht => ht.descend hslots) budget _ _ hstart
  exact ⟨rest, hrest⟩

/-! ## A walk that leaves nothing out -/

/-- **What a walk from `root` that leaves nothing out knows**: it has not lost a slot, and it stays
below `root`. -/
structure Exhausting (slots? : NodeId → Option (List NodeId)) (root : NodeId)
    (stack : List NodeId) (t : Trail) : Prop where
  root_mem : root ∈ t.visited ∨ root ∈ stack
  slots : ∀ n ∈ t.visited, ∀ c, IsSlot slots? c n → c ∈ t.visited ∨ c ∈ stack
  below : ∀ n ∈ stack, Relation.ReflTransGen (IsSlot slots?) n root
  parents : ∀ child parent, (child, parent) ∈ t.parents.entries →
    Relation.ReflTransGen (IsSlot slots?) parent root

theorem Exhausting.descend (h : Exhausting slots? root (n :: stack) t) {children : List NodeId}
    (hslots : slots? n = some children) :
    Exhausting slots? root (children ++ stack)
      ⟨n :: t.visited, t.parents.assignAll children n⟩ := by
  obtain ⟨hn, hstack⟩ := List.forall_mem_cons.mp h.below
  -- A node that was known is visited now, or waits on.
  have hkept : ∀ m, m ∈ t.visited ∨ m ∈ n :: stack →
      m ∈ n :: t.visited ∨ m ∈ children ++ stack := by
    intro m hm
    obtain hm | hm := hm
    · exact .inl (List.mem_cons_of_mem _ hm)
    · obtain rfl | hm := List.mem_cons.mp hm
      · exact .inl List.mem_cons_self
      · exact .inr (List.mem_append_right _ hm)
  have hchild : ∀ c, IsSlot slots? c n ↔ c ∈ children := by
    intro c
    rw [IsSlot, hslots, Option.getD_some]
  refine ⟨hkept root h.root_mem, fun m hm c hc => ?_, fun m hm => ?_, fun c p hentry => ?_⟩
  · obtain rfl | hm := List.mem_cons.mp hm
    · exact .inr (List.mem_append_left _ ((hchild c).mp hc))
    · exact hkept c (h.slots m hm c hc)
  · obtain hm | hm := List.mem_append.mp hm
    · exact .head ((hchild m).mpr hm) hn
    · exact hstack m hm
  · obtain hold | ⟨-, rfl⟩ := ParentTable.mem_assignAll hentry
    · exact h.parents c p hold
    · exact hn

/-- When nothing is left to visit, everything below the root has been visited. -/
theorem Exhausting.mem_visited (h : Exhausting slots? root [] t)
    (hn : Relation.ReflTransGen (IsSlot slots?) n root) : n ∈ t.visited := by
  induction hn using Relation.ReflTransGen.head_induction_on with
  | refl => exact h.root_mem.resolve_right List.not_mem_nil
  | head hslot _ ih => exact (h.slots _ ih _ hslot).resolve_right List.not_mem_nil

theorem exhausting_walkSteps {budget : Nat}
    (hfinished : (walkSteps slots? (fun _ _ => .descend) budget [root] ⟨[], .empty⟩).2
      = .finished) :
    Exhausting slots? root []
      (walkSteps slots? (fun _ _ => .descend) budget [root] ⟨[], .empty⟩).1 := by
  have hstart : Exhausting slots? root [root] ⟨[], .empty⟩ :=
    ⟨.inr List.mem_cons_self, fun n hn => absurd hn List.not_mem_nil,
      fun n hn => List.mem_singleton.mp hn ▸ .refl,
      fun c p hentry => absurd hentry List.not_mem_nil⟩
  obtain ⟨rest, hrest, hempty⟩ := @walkSteps_invariant slots? (fun _ _ => .descend)
    (Exhausting slots? root) (fun _ _ _ hpass => absurd rfl hpass)
    (fun _ _ _ _ hslots ht => ht.descend hslots) budget _ _ hstart
  rw [hempty (fun _ _ => rfl) hfinished] at hrest
  exact hrest

/-- **A way up** from a node to `top`: the nodes after it, each a parent of the one before. -/
inductive WayUp (slots? : NodeId → Option (List NodeId)) (top : NodeId) :
    NodeId → List NodeId → Prop where
  | here : WayUp slots? top top []
  | up {n parent : NodeId} {path : List NodeId} :
    IsSlot slots? n parent → WayUp slots? top parent path → WayUp slots? top n (parent :: path)

theorem WayUp.reflTransGen {path : List NodeId} (h : WayUp slots? root n path) :
    Relation.ReflTransGen (IsSlot slots?) n root := by
  induction h with
  | here => exact .refl
  | up hslot _ ih => exact .head hslot ih

theorem exists_wayUp (h : Relation.ReflTransGen (IsSlot slots?) n root) :
    ∃ path, WayUp slots? root n path := by
  induction h using Relation.ReflTransGen.head_induction_on with
  | refl => exact ⟨[], .here⟩
  | head hslot _ ih =>
    obtain ⟨path, hpath⟩ := ih
    exact ⟨_ :: path, .up hslot hpath⟩

/-- **Where nothing has two parents, a climb goes the way up to the root.** -/
theorem climbs_of_wayUp (hacyclic : ∀ n, ¬ Relation.TransGen (IsSlot slots?) n n)
    (hunique : ∀ c m m', IsSlot slots? c m → IsSlot slots? c m' → m = m') {rest : List NodeId}
    (hwalking : Walking slots? root rest t) (hall : Exhausting slots? root [] t)
    {path : List NodeId} (hpath : WayUp slots? root n path) : t.parents.Climbs n path := by
  induction hpath with
  | here =>
    -- What is noted stands below the root, so an entry of the root would close a cycle.
    refine .stop (Option.eq_none_iff_forall_ne_some.mpr fun parent hparent => ?_)
    have hentry := ParentTable.mem_of_get? hparent
    exact hacyclic root (.head' (hwalking.sound.isSlot _ _ hentry) (hall.parents _ _ hentry))
  | @up n parent path hslot hrest ih =>
    have hroot : n ≠ root := by
      rintro rfl
      exact hacyclic n (.head' hslot hrest.reflTransGen)
    have hvisited : n ∈ t.visited := hall.mem_visited (.head hslot hrest.reflTransGen)
    obtain ⟨parent', hparent'⟩ :=
      Option.isSome_iff_exists.mp (hwalking.visited n hvisited hroot)
    have hslot' := hwalking.sound.isSlot _ _ (ParentTable.mem_of_get? hparent')
    obtain rfl := hunique n parent parent' hslot hslot'
    exact .up hparent' ih

end Walk

/-! ## Any history of walks -/

/-- **A walk that is asked for.** -/
structure WalkCall where
  /-- The node from which it starts. -/
  root : NodeId
  /-- The visitor. -/
  visit : Visitor

namespace Graph

/-- The table of parents after several walks that share it. -/
def walkAll (g : Graph) (table : ChildTable) (parents : ParentTable) (calls : List WalkCall) :
    ParentTable :=
  calls.foldl (fun parents call => (g.walk table call.visit call.root parents).1.parents) parents

variable {g : Graph} {table : ChildTable}

theorem grows_walkAll (parents : ParentTable) (calls : List WalkCall) :
    parents.Grows (g.walkAll table parents calls) := by
  induction calls generalizing parents with
  | nil => exact List.suffix_rfl
  | cons call calls ih =>
    have hcall : parents.Grows (g.walk table call.visit call.root parents).1.parents :=
      grows_walkSteps call.visit _ [call.root] ⟨[], parents⟩
    exact hcall.trans (ih _)

theorem sound_walkAll {parents : ParentTable} (h : parents.Sound (g.slots? table))
    (calls : List WalkCall) : (g.walkAll table parents calls).Sound (g.slots? table) := by
  induction calls generalizing parents with
  | nil => exact h
  | cons call calls ih =>
    obtain ⟨_, hwalking⟩ := exists_walking_walkSteps h call.visit call.root
      (unfoldedSize (g.slots? table) g.nodes.size call.root)
    exact ih hwalking.sound

theorem walkAll_append (parents : ParentTable) (before later : List WalkCall) :
    g.walkAll table parents (before ++ later)
      = g.walkAll table (g.walkAll table parents before) later :=
  List.foldl_append

section Acyclic

variable (acyclic : g.Acyclic table)
include acyclic

/-- More steps than the budget of a walk change nothing. -/
theorem Acyclic.walkSteps_of_le (visit : Visitor) (root : NodeId) (t : Trail) {steps : Nat}
    (hle : unfoldedSize (g.slots? table) g.nodes.size root ≤ steps) :
    walkSteps (g.slots? table) visit steps [root] t
      = walkSteps (g.slots? table) visit (unfoldedSize (g.slots? table) g.nodes.size root) [root]
          t := by
  have hpaid : ∀ {budget}, unfoldedSize (g.slots? table) g.nodes.size root ≤ budget →
      walkSteps (g.slots? table) visit budget [root] t
        = (visitEach (preorder acyclic.wellFounded visit) [root] t).map id Outcome.ending :=
    fun hbudget => walkSteps_eq_visitEach acyclic.wellFounded visit acyclic.cost hbudget t
  rw [hpaid hle, hpaid (Nat.le_refl _)]

/-- At every moment of a walk, the table is one from which the last one grows. -/
theorem Acyclic.grows_walk (visit : Visitor) (root : NodeId) (parents : ParentTable)
    (steps : Nat) :
    (walkSteps (g.slots? table) visit steps [root] ⟨[], parents⟩).1.parents.Grows
      (g.walk table visit root parents).1.parents := by
  obtain hle | hle := Nat.le_total steps (unfoldedSize (g.slots? table) g.nodes.size root)
  · exact grows_walkSteps_of_le visit hle [root] ⟨[], parents⟩
  · rw [acyclic.walkSteps_of_le visit root ⟨[], parents⟩ hle]
    exact List.suffix_rfl

theorem Acyclic.walk_ne_cyclic (visit : Visitor) (root : NodeId) (parents : ParentTable) :
    (g.walk table visit root parents).2 ≠ .cyclic := by
  rw [walk, acyclic.walkSteps_root visit root ⟨[], parents⟩]
  show Outcome.ending _ ≠ .cyclic
  cases (preorder acyclic.wellFounded visit root ⟨[], parents⟩).2 <;> exact nofun

/-- **A table of parents stays sound over any history of walks.** Every entry leads from a slot to
its node; an entry that has been made, at any moment of any walk, is never changed; a visited node
has an entry unless its walk started there; and every climb ends. If nothing has two parents and
a walk leaves nothing out, the ancestors of each node below its root are the one way up to it. -/
theorem parents_of_walks (calls : List WalkCall) :
    let parents := g.walkAll table .empty calls
    (∀ child parent, (child, parent) ∈ parents.entries →
      IsSlot (g.slots? table) child parent) ∧
    (∀ before call later, calls = before ++ call :: later →
      let start := g.walkAll table .empty before
      let walked := g.walk table call.visit call.root start
      walked.2 ≠ .cyclic ∧
      (∀ steps child parent,
        (walkSteps (g.slots? table) call.visit steps [call.root] ⟨[], start⟩).1.parents.get? child
          = some parent → parents.get? child = some parent) ∧
      ∀ n ∈ walked.1.visited, n ≠ call.root → (parents.get? n).isSome = true) ∧
    (∀ n, parents.Climbs n (parents.ancestors n)) ∧
    ((∀ c m m', IsSlot (g.slots? table) c m → IsSlot (g.slots? table) c m' → m = m') →
      ∀ root, (g.walk table (fun _ _ => .descend) root .empty).2 = .finished →
      ∀ n, Relation.ReflTransGen (IsSlot (g.slots? table)) n root →
      ∀ path, (g.walk table (fun _ _ => .descend) root .empty).1.parents.ancestors n = path ↔
        WayUp (g.slots? table) root n path) := by
  intro parents
  have hsound : parents.Sound (g.slots? table) := sound_walkAll ParentTable.sound_empty calls
  refine ⟨hsound.isSlot, ?_, hsound.climbs_ancestors acyclic, ?_⟩
  · rintro before call later rfl start walked
    have hlast : walked.1.parents.Grows parents := by
      show walked.1.parents.Grows (g.walkAll table .empty (before ++ call :: later))
      rw [walkAll_append]
      exact grows_walkAll walked.1.parents later
    refine ⟨acyclic.walk_ne_cyclic call.visit call.root start, ?_, fun n hn hroot => ?_⟩
    · intro steps child parent hentry
      have hgrows := acyclic.grows_walk call.visit call.root start steps
      exact (hgrows.trans hlast).get?_eq_some hsound hentry
    · obtain ⟨_, hwalking⟩ := exists_walking_walkSteps
        (sound_walkAll ParentTable.sound_empty before) call.visit call.root
        (unfoldedSize (g.slots? table) g.nodes.size call.root)
      exact hlast.isSome_get? (hwalking.visited n hn hroot)
  · intro hunique root hfinished n hn path
    have hempty : ParentTable.empty.Sound (g.slots? table) := ParentTable.sound_empty
    obtain ⟨_, hwalking⟩ := exists_walking_walkSteps hempty (fun _ _ => .descend) root
      (unfoldedSize (g.slots? table) g.nodes.size root)
    have hclimb : ∀ path, WayUp (g.slots? table) root n path →
        (g.walk table (fun _ _ => .descend) root .empty).1.parents.Climbs n path := fun _ =>
      climbs_of_wayUp acyclic hunique hwalking (exhausting_walkSteps hfinished)
    have hancestors := hwalking.sound.climbs_ancestors acyclic n
    constructor
    · rintro rfl
      obtain ⟨path, hpath⟩ := exists_wayUp hn
      exact (hclimb path hpath).unique hancestors ▸ hpath
    · exact fun hpath => hancestors.unique (hclimb path hpath)

end Acyclic

/-- A graph of lists inside each other, with a node of an unknown kind to their right. -/
def nestedGraph : Graph :=
  ⟨#[⟨"list", true, 0, 0, 0, none, [1, 2], []⟩, ⟨"list", true, 0, 0, 0, none, [3], []⟩,
    ⟨"odd", true, 0, 0, 0, none, [], []⟩, ⟨"list", true, 0, 0, 0, none, [4], []⟩,
    ⟨"leaf", true, 0, 0, 0, none, [], []⟩]⟩

/-- Walks that start further and further up: the second leaves out what the first has seen, and the
third comes to the node of an unknown kind. -/
def nestedCalls : List WalkCall :=
  [⟨3, fun _ _ => .descend⟩, ⟨1, fun _ n => if n = 3 then .skip else .descend⟩,
    ⟨0, fun _ _ => .descend⟩]

theorem parents_of_walks_nested :
    (nestedGraph.walkAll sharedTable .empty nestedCalls).Climbs 4 [3, 1, 0] ∧
      (nestedGraph.walk sharedTable (fun _ _ => .descend) 1 .empty).1.parents.ancestors 4
        = [3, 1] := by
  have acyclic : nestedGraph.Acyclic sharedTable := by
    refine acyclic_of_lt fun c n hc => ?_
    have hall : ∀ n < 5, ∀ c ∈ (nestedGraph.slots? sharedTable n).getD [], n < c := by
      decide +kernel
    exact hall n (lt_size_of_isSlot hc) c hc
  have hunique : ∀ c m m', IsSlot (nestedGraph.slots? sharedTable) c m →
      IsSlot (nestedGraph.slots? sharedTable) c m' → m = m' := by
    intro c m m' hm hm'
    have hall : ∀ m < 5, ∀ m' < 5, ∀ c ∈ (nestedGraph.slots? sharedTable m).getD [],
        c ∈ (nestedGraph.slots? sharedTable m').getD [] → m = m' := by
      decide +kernel
    exact hall m (lt_size_of_isSlot hm) m' (lt_size_of_isSlot hm') c hm hm'
  obtain ⟨-, -, hclimbs, hways⟩ := parents_of_walks acyclic nestedCalls
  have hway : WayUp (nestedGraph.slots? sharedTable) 1 4 [3, 1] :=
    .up (by unfold IsSlot; decide +kernel) (.up (by unfold IsSlot; decide +kernel) .here)
  refine ⟨?_, (hways hunique 1 (by decide +kernel) 4 hway.reflTransGen [3, 1]).mpr hway⟩
  have hancestors : (nestedGraph.walkAll sharedTable .empty nestedCalls).ancestors 4
      = [3, 1, 0] := by decide +kernel
  exact hancestors ▸ hclimbs 4

end Graph

end DocModel
