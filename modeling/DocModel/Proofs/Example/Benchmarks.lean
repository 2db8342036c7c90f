import DocModel.Proofs.Example.Lines
import Mathlib.Data.List.Flatten
import Mathlib.Data.List.Induction

/-!
# Benchmarks lose no pair

Each pair in a `@benchmarks` tag is a case, and cases of one name in one tag make up a benchmark.
Two counters run through all tags, one for the cases and one for the benchmarks, while the names
start afresh with each tag. So cases with neighbouring numbers may stand in different benchmarks,
and the same name may stand in several tags.

What a tag is made into is said by `Grouped`, which one more case keeps (`Grouped.addCase`): the
benchmarks have different names, stand in the order in which their names first appear, and hold all
cases of their names in order. What a comment is made into is said by `Collects`, which one more tag
keeps. That no pair is lost is then a matter of counting: the cases of all benchmarks are
a rearrangement of the cases of all pairs (`ExampleBuilder.benchmarks_covers`).
-/

namespace DocModel

/-! ## The case of a pair -/

/-- **What a case says of its pair**: the code is the left side. The name is the right side up to
the first hyphen between blanks, and the label is what follows; if there is no such hyphen, or
nothing after it, the label is the default one. -/
structure BenchmarkCase.Describes (c : BenchmarkCase) (p : Directive.Pair) : Prop where
  impl : c.impl = p.left
  sides :
    ((∀ before after, p.right ≠ before ++ " - " ++ after) ∧ c.name = p.right ∧
        c.label = ExampleBuilder.defaultLabel) ∨
      ∃ rest, p.right = c.name ++ " - " ++ rest ∧
        (∀ before after, p.right = before ++ " - " ++ after → c.name.length ≤ before.length) ∧
        c.label = if rest = [] then ExampleBuilder.defaultLabel else rest

namespace ExampleBuilder

theorem describes_caseOfPair (id : Nat) (p : Directive.Pair) : (caseOfPair id p).Describes p := by
  unfold caseOfPair
  cases hcut : Text.cut? " - " p.right with
  | none => exact ⟨rfl, .inl ⟨Text.ne_of_cut?_eq_none hcut, rfl, rfl⟩⟩
  | some cut =>
    obtain ⟨name, label⟩ := cut
    refine ⟨rfl, .inr ⟨label, Text.cut?_eq_some hcut, Text.length_le_of_cut? hcut, ?_⟩⟩
    simp only [List.isEmpty_iff]

theorem id_caseOfPair (id : Nat) (p : Directive.Pair) : (caseOfPair id p).id = id := by
  unfold caseOfPair
  split <;> rfl

theorem casesOfPairs_append (next : Nat) (ps qs : List Directive.Pair) :
    casesOfPairs next (ps ++ qs)
      = casesOfPairs next ps ++ casesOfPairs (next + ps.length) qs := by
  induction ps generalizing next with
  | nil => rfl
  | cons p ps ih =>
    rw [List.cons_append, casesOfPairs, casesOfPairs, ih, List.length_cons, Nat.add_assoc,
      Nat.add_comm 1]
    rfl

theorem getElem?_casesOfPairs (next : Nat) (ps : List Directive.Pair) (j : Nat) :
    (casesOfPairs next ps)[j]? = ps[j]?.map (caseOfPair (next + j)) := by
  induction ps generalizing next j with
  | nil => rfl
  | cons p ps ih =>
    cases j with
    | zero => rfl
    | succ j =>
      rw [casesOfPairs, List.getElem?_cons_succ, ih, List.getElem?_cons_succ, Nat.add_assoc,
        Nat.add_comm 1]

/-- Cases are numbered one after the other. -/
theorem map_id_casesOfPairs (next : Nat) (ps : List Directive.Pair) :
    (casesOfPairs next ps).map (·.id) = List.range' next ps.length := by
  induction ps generalizing next with
  | nil => rfl
  | cons p ps ih =>
    rw [casesOfPairs, List.map_cons, id_caseOfPair, ih, List.length_cons, List.range'_succ]

theorem pairwise_casesOfPairs (next : Nat) (ps : List Directive.Pair) :
    (casesOfPairs next ps).Pairwise fun c c' => c.id < c'.id := by
  rw [← List.pairwise_map, map_id_casesOfPairs]
  exact List.pairwise_lt_range'

/-! ## Grouping -/

/-- **What one more case does**: it opens a new benchmark at the end, or it joins the first one of
its name. -/
theorem addCase_cases (next : Nat) (c : BenchmarkCase) (bs : List Benchmark) :
    (c.name ∉ bs.map (·.name) ∧ addCase next c bs = bs ++ [⟨next, c.name, [c]⟩]) ∨
      ∃ before b after, bs = before ++ b :: after ∧ b.name = c.name ∧
        addCase next c bs = before ++ { b with cases := b.cases ++ [c] } :: after := by
  induction bs with
  | nil => exact .inl ⟨List.not_mem_nil, rfl⟩
  | cons b bs ih =>
    rw [addCase]
    split
    · next hname => exact .inr ⟨[], b, bs, rfl, hname, rfl⟩
    · next hname =>
      obtain ⟨hnew, heq⟩ | ⟨before, b', after, rfl, hb', heq⟩ := ih
      · refine .inl ⟨?_, by rw [heq]; rfl⟩
        rw [List.map_cons, List.mem_cons, not_or]
        exact ⟨Ne.symm hname, hnew⟩
      · exact .inr ⟨b :: before, b', after, rfl, hb', by rw [heq]; rfl⟩

/-- **Some cases in groups.** The benchmarks are numbered from `next`, their names are different,
each holds all cases of its name, in order, and there are no other cases. A benchmark stands before
another one if one of its cases comes before all cases of the other. -/
structure Grouped (next : Nat) (cases : List BenchmarkCase) (bs : List Benchmark) : Prop where
  ids : bs.map (·.id) = List.range' next bs.length
  names : (bs.map (·.name)).Nodup
  members : ∀ b ∈ bs, b.cases = cases.filter (·.name = b.name)
  nonempty : ∀ b ∈ bs, b.cases ≠ []
  perm : (bs.flatMap (·.cases)).Perm cases
  order : bs.Pairwise fun b b' => ∃ c ∈ b.cases, ∀ c' ∈ b'.cases, c.id < c'.id

namespace Grouped

variable {next : Nat} {cases : List BenchmarkCase} {bs : List Benchmark} {c : BenchmarkCase}

theorem nil (next : Nat) : Grouped next [] [] where
  ids := rfl
  names := List.nodup_nil
  members := fun _ h => absurd h List.not_mem_nil
  nonempty := fun _ h => absurd h List.not_mem_nil
  perm := .nil
  order := .nil

theorem mem_of_mem_cases (h : Grouped next cases bs) {b : Benchmark} (hb : b ∈ bs)
    (hc : c ∈ b.cases) : c ∈ cases ∧ c.name = b.name := by
  rw [h.members b hb] at hc
  obtain ⟨hmem, hname⟩ := List.mem_filter.mp hc
  exact ⟨hmem, of_decide_eq_true hname⟩

/-- The names of the cases are those of the benchmarks. -/
theorem mem_names (h : Grouped next cases bs) (hc : c ∈ cases) : c.name ∈ bs.map (·.name) := by
  obtain ⟨b, hb, hmem⟩ := List.mem_flatMap.mp (h.perm.mem_iff.mpr hc)
  exact List.mem_map.mpr ⟨b, hb, (h.mem_of_mem_cases hb hmem).2.symm⟩

/-- A case of a new name opens a benchmark. -/
theorem concat (h : Grouped next cases bs) (hc : ∀ c' ∈ cases, c'.id < c.id)
    (hnew : c.name ∉ bs.map (·.name)) :
    Grouped next (cases ++ [c]) (bs ++ [⟨next + bs.length, c.name, [c]⟩]) where
  ids := by
    rw [List.map_append, h.ids, List.length_append, List.length_singleton, List.range'_1_concat]
    rfl
  names := by
    rw [List.map_append, List.nodup_append]
    refine ⟨h.names, List.pairwise_singleton _ _, fun name hname name' hname' => ?_⟩
    rw [List.mem_singleton.mp hname']
    rintro rfl
    exact hnew hname
  members := by
    intro b hb
    obtain hb | hb := List.mem_append.mp hb
    · have hne : ¬ c.name = b.name := fun heq => hnew (heq ▸ List.mem_map_of_mem hb)
      rw [List.filter_append, List.filter_cons_of_neg (by simpa using hne), h.members b hb]
      exact (List.append_nil _).symm
    · cases List.mem_singleton.mp hb
      have hnone : cases.filter (·.name = c.name) = [] := by
        rw [List.filter_eq_nil_iff]
        intro c' hc' hname
        exact hnew (of_decide_eq_true hname ▸ h.mem_names hc')
      rw [List.filter_append, hnone, List.filter_cons_of_pos (by simp)]
      rfl
  nonempty := by
    intro b hb
    obtain hb | hb := List.mem_append.mp hb
    · exact h.nonempty b hb
    · cases List.mem_singleton.mp hb
      exact List.cons_ne_nil c []
  perm := by
    rw [List.flatMap_append, List.flatMap_singleton]
    exact h.perm.append_right [c]
  order := by
    rw [List.pairwise_append]
    refine ⟨h.order, List.pairwise_singleton _ _, fun b hb b' hb' => ?_⟩
    cases List.mem_singleton.mp hb'
    obtain ⟨c', hc'⟩ := List.exists_mem_of_ne_nil _ (h.nonempty b hb)
    refine ⟨c', hc', fun c'' hc'' => ?_⟩
    rw [List.mem_singleton.mp hc'']
    exact hc c' (h.mem_of_mem_cases hb hc').1

/-- A case of a known name joins its benchmark. -/
theorem join {before after : List Benchmark} {b : Benchmark}
    (h : Grouped next cases (before ++ b :: after)) (hc : ∀ c' ∈ cases, c'.id < c.id)
    (hname : b.name = c.name) :
    Grouped next (cases ++ [c]) (before ++ { b with cases := b.cases ++ [c] } :: after) where
  ids := by
    have hids := h.ids
    simp only [List.map_append, List.map_cons, List.length_append, List.length_cons] at hids ⊢
    exact hids
  names := by
    have hnames := h.names
    rw [List.map_append, List.map_cons] at hnames ⊢
    exact hnames
  members := by
    have hnames := h.names
    rw [List.map_append, List.map_cons, List.perm_middle.nodup_iff, List.nodup_cons,
      ← List.map_append] at hnames
    intro x hx
    obtain rfl | hx := List.mem_cons.mp (List.perm_middle.mem_iff.mp hx)
    · rw [List.filter_append, List.filter_cons_of_pos (by simp [hname])]
      rw [← h.members b (List.mem_append_right _ List.mem_cons_self)]
      rfl
    · have hne : ¬ c.name = x.name := by
        intro heq
        exact hnames.1 (hname.trans heq ▸ List.mem_map_of_mem hx)
      rw [List.filter_append, List.filter_cons_of_neg (by simpa using hne),
        h.members x (List.perm_middle.mem_iff.mpr (List.mem_cons_of_mem b hx))]
      exact (List.append_nil _).symm
  nonempty := by
    intro x hx
    obtain rfl | hx := List.mem_cons.mp (List.perm_middle.mem_iff.mp hx)
    · exact List.append_ne_nil_of_right_ne_nil _ (List.cons_ne_nil c [])
    · exact h.nonempty x (List.perm_middle.mem_iff.mpr (List.mem_cons_of_mem b hx))
  perm := by
    refine List.Perm.trans ?_ (h.perm.append_right [c])
    simp only [List.flatMap_append, List.flatMap_cons, List.append_assoc]
    exact (List.perm_append_comm.append_left _).append_left _
  order := by
    have horder := h.order
    rw [List.pairwise_append, List.pairwise_cons] at horder ⊢
    obtain ⟨hbefore, ⟨hb, hafter⟩, hcross⟩ := horder
    refine ⟨hbefore, ⟨fun y hy => ?_, hafter⟩, fun x hx y hy => ?_⟩
    · obtain ⟨c', hc', hlt⟩ := hb y hy
      exact ⟨c', List.mem_append_left _ hc', hlt⟩
    · obtain rfl | hy := List.mem_cons.mp hy
      · obtain ⟨c', hc', hlt⟩ := hcross x hx b List.mem_cons_self
        refine ⟨c', hc', fun c'' hc'' => ?_⟩
        obtain hc'' | hc'' := List.mem_append.mp hc''
        · exact hlt c'' hc''
        · rw [List.mem_singleton.mp hc'']
          exact hc c' (h.mem_of_mem_cases (List.mem_append_left _ hx) hc').1
      · exact hcross x hx y (List.mem_cons_of_mem b hy)

/-- **One more case** leaves the cases in groups. -/
theorem addCase (h : Grouped next cases bs) (hc : ∀ c' ∈ cases, c'.id < c.id) :
    Grouped next (cases ++ [c]) (addCase (next + bs.length) c bs) := by
  obtain ⟨hnew, heq⟩ | ⟨before, b, after, rfl, hname, heq⟩ :=
    addCase_cases (next + bs.length) c bs
  · rw [heq]
    exact h.concat hc hnew
  · rw [heq]
    exact h.join hc hname

/-- The cases of a benchmark are in order. -/
theorem pairwise_cases (h : Grouped next cases bs) (hcases : cases.Pairwise (·.id < ·.id))
    {b : Benchmark} (hb : b ∈ bs) : b.cases.Pairwise (·.id < ·.id) := by
  rw [h.members b hb]
  exact hcases.filter _

end Grouped

/-- Cases with growing numbers are put in groups. -/
theorem grouped_groupCases (next : Nat) {cases : List BenchmarkCase}
    (h : cases.Pairwise (·.id < ·.id)) : Grouped next cases (groupCases next cases) := by
  induction cases using List.reverseRecOn with
  | nil => exact .nil next
  | append_singleton cases c ih =>
    rw [List.pairwise_append] at h
    obtain ⟨hcases, -, hc⟩ := h
    rw [groupCases, List.foldl_append]
    exact (ih hcases).addCase fun c' hc' => hc c' hc' c (List.mem_singleton_self c)

/-! ## The blocks of a comment -/

/-- **What some blocks are made into**, with cases numbered from `nextCase` and benchmarks from
`next`. Each block is put in groups on its own, with the numbers that follow those of the blocks
before. -/
structure Collects (nextCase next : Nat) (read : List Directive.Block)
    (blocks : List BenchmarkBlock) : Prop where
  codes : blocks.map (·.code) = read.map (·.content)
  setups : blocks.map (·.setup) = read.map (·.preamble)
  ids : (blocks.flatMap (·.benchmarks)).map (·.id)
    = List.range' next (blocks.flatMap (·.benchmarks)).length
  perm : ((blocks.flatMap (·.benchmarks)).flatMap (·.cases)).Perm
    (casesOfPairs nextCase (read.flatMap (·.pairs)))
  grouped : ∀ k r block, read[k]? = some r → blocks[k]? = some block → ∃ first, Grouped first
    (casesOfPairs (nextCase + ((read.take k).flatMap (·.pairs)).length) r.pairs) block.benchmarks

namespace Collects

theorem nil (nextCase next : Nat) : Collects nextCase next [] [] where
  codes := rfl
  setups := rfl
  ids := rfl
  perm := .nil
  grouped := fun _ _ _ h => by cases h

/-- **One more block** in front, whose numbers come first. -/
theorem cons {nextCase next : Nat} {r : Directive.Block} {read : List Directive.Block}
    {block : BenchmarkBlock} {blocks : List BenchmarkBlock} (hcode : block.code = r.content)
    (hsetup : block.setup = r.preamble)
    (hgrouped : Grouped next (casesOfPairs nextCase r.pairs) block.benchmarks)
    (h : Collects (nextCase + r.pairs.length) (next + block.benchmarks.length) read blocks) :
    Collects nextCase next (r :: read) (block :: blocks) where
  codes := by rw [List.map_cons, List.map_cons, hcode, h.codes]
  setups := by rw [List.map_cons, List.map_cons, hsetup, h.setups]
  ids := by
    rw [List.flatMap_cons, List.map_append, hgrouped.ids, h.ids, List.length_append,
      List.range'_append_1]
  perm := by
    rw [List.flatMap_cons, List.flatMap_cons, List.flatMap_append, casesOfPairs_append]
    exact hgrouped.perm.append h.perm
  grouped := by
    intro k r' block' hr' hblock'
    cases k with
    | zero =>
      cases hr'
      cases hblock'
      exact ⟨next, hgrouped⟩
    | succ k =>
      rw [List.take_succ_cons, List.flatMap_cons, List.length_append, ← Nat.add_assoc]
      exact h.grouped k r' block' hr' hblock'

end Collects

theorem benchmarkBlocks_eq_ok {b : ExampleBuilder} {nextCase next : Nat} {tags : List Tag}
    {blocks : List BenchmarkBlock} (h : b.benchmarkBlocks nextCase next tags = .ok blocks) :
    Collects nextCase next (tags.map fun tag => Directive.Block.parse b.recognises tag.description)
      blocks := by
  induction tags generalizing nextCase next blocks with
  | nil =>
    cases h
    exact .nil nextCase next
  | cons tag tags ih =>
    simp only [benchmarkBlocks, Except.bind_eq_ok_iff] at h
    obtain ⟨block, hblock, more, hmore, heq⟩ := h
    cases heq
    cases eq_parse_of_readBlock hblock
    exact .cons rfl rfl (grouped_groupCases next (pairwise_casesOfPairs nextCase _)) (ih hmore)

/-- If the given handlers have patterns, benchmarks are always built. -/
theorem exists_benchmarkBlocks_of_patterns {b : ExampleBuilder}
    (hb : ∀ h ∈ b.custom, ∃ p, h.matcher = .pattern p) (nextCase next : Nat) (tags : List Tag) :
    ∃ blocks, b.benchmarkBlocks nextCase next tags = .ok blocks := by
  induction tags generalizing nextCase next with
  | nil => exact ⟨[], rfl⟩
  | cons tag tags ih =>
    rw [benchmarkBlocks, readBlock_of_patterns hb]
    show ∃ blocks, (b.benchmarkBlocks _ _ tags >>= _) = _
    obtain ⟨more, hmore⟩ := ih _ _
    rw [hmore]
    exact ⟨_, rfl⟩

end ExampleBuilder

/-- **Benchmarks that cover some blocks.** The numbers of the benchmarks and those of the cases run
from one through all blocks. The benchmarks of a block have different names, in the order in which
these first appear, and the numbers of its cases follow those of the blocks before. The `j`-th case
describes the `j`-th pair, in whichever benchmark it stands. -/
structure Benchmarks.Covers (benchmarks : Benchmarks) (read : List Directive.Block) : Prop where
  blocks : benchmarks.blocks.map (·.code) = read.map (·.content) ∧
    benchmarks.blocks.map (·.setup) = read.map (·.preamble)
  items : benchmarks.items = benchmarks.blocks.flatMap (·.benchmarks)
  ids : benchmarks.items.map (·.id) = List.range' 1 benchmarks.items.length
  names : ∀ block ∈ benchmarks.blocks, (block.benchmarks.map (·.name)).Nodup ∧
    block.benchmarks.Pairwise fun m m' => ∃ c ∈ m.cases, ∀ c' ∈ m'.cases, c.id < c'.id
  cases : ∀ m ∈ benchmarks.items, m.cases ≠ [] ∧ m.cases.Pairwise (·.id < ·.id) ∧
    ∀ c ∈ m.cases, c.name = m.name
  caseIds : ((benchmarks.items.flatMap (·.cases)).map (·.id)).Perm
    (List.range' 1 (read.flatMap (·.pairs)).length)
  caseIdsAt : ∀ k (r : Directive.Block) (block : BenchmarkBlock), read[k]? = some r →
    benchmarks.blocks[k]? = some block →
    ((block.benchmarks.flatMap (·.cases)).map (·.id)).Perm
      (List.range' (1 + ((read.take k).flatMap (·.pairs)).length) r.pairs.length)
  describes : ∀ j p, (read.flatMap (·.pairs))[j]? = some p →
    ∃ c ∈ benchmarks.items.flatMap (·.cases), c.id = j + 1 ∧ c.Describes p

namespace ExampleBuilder

theorem Collects.covers {read : List Directive.Block} {blocks : List BenchmarkBlock}
    (h : Collects 1 1 read blocks) : Benchmarks.Covers ⟨blocks⟩ read := by
  -- Each block is made from the one at the same place.
  have hblock (block : BenchmarkBlock) (hmem : block ∈ blocks) : ∃ first next ps,
      Grouped first (casesOfPairs next ps) block.benchmarks := by
    obtain ⟨k, hk, rfl⟩ := List.mem_iff_getElem.mp hmem
    have hk' : k < read.length := by
      have hlength := congrArg List.length h.codes
      rw [List.length_map, List.length_map] at hlength
      exact hlength ▸ hk
    obtain ⟨first, hgrouped⟩ :=
      h.grouped k _ _ (List.getElem?_eq_getElem hk') (List.getElem?_eq_getElem hk)
    exact ⟨first, _, _, hgrouped⟩
  refine ⟨⟨h.codes, h.setups⟩, rfl, h.ids, fun block hmem => ?_, fun m hm => ?_, ?_,
    fun k r block hr hb => ?_, fun j p hp => ?_⟩
  · obtain ⟨first, next, ps, hgrouped⟩ := hblock block hmem
    exact ⟨hgrouped.names, hgrouped.order⟩
  · obtain ⟨block, hmem, hm⟩ := List.mem_flatMap.mp hm
    obtain ⟨first, next, ps, hgrouped⟩ := hblock block hmem
    exact ⟨hgrouped.nonempty m hm, hgrouped.pairwise_cases (pairwise_casesOfPairs next ps) hm,
      fun c hc => (hgrouped.mem_of_mem_cases hm hc).2⟩
  · rw [← map_id_casesOfPairs]
    exact h.perm.map _
  · obtain ⟨first, hgrouped⟩ := h.grouped k r block hr hb
    rw [← map_id_casesOfPairs]
    exact hgrouped.perm.map _
  · refine ⟨caseOfPair (1 + j) p, h.perm.mem_iff.mpr ?_, ?_, describes_caseOfPair (1 + j) p⟩
    · refine List.mem_iff_getElem?.mpr ⟨j, ?_⟩
      rw [getElem?_casesOfPairs, hp]
      rfl
    · rw [id_caseOfPair, Nat.add_comm]

/-- **Benchmarks lose no pair.** If the given handlers have patterns, the benchmarks of a comment
are built, and whenever they are, they cover the blocks in its tags, one after the other. -/
theorem benchmarks_covers (b : ExampleBuilder) (doclet : Doclet) :
    ((∀ h ∈ b.custom, ∃ p, h.matcher = .pattern p) →
      ∃ benchmarks, b.benchmarks doclet = .ok benchmarks) ∧
    ∀ benchmarks, b.benchmarks doclet = .ok benchmarks →
      benchmarks.Covers ((doclet.findTags ["benchmarks"]).map fun tag =>
        Directive.Block.parse b.recognises tag.description) := by
  refine ⟨fun hb => ?_, fun benchmarks h => ?_⟩
  · obtain ⟨blocks, hblocks⟩ := exists_benchmarkBlocks_of_patterns hb 1 1
      (doclet.findTags ["benchmarks"])
    exact ⟨⟨blocks⟩, by rw [ExampleBuilder.benchmarks, hblocks]; rfl⟩
  · obtain ⟨blocks, hblocks, heq⟩ := Except.bind_eq_ok_iff.mp h
    cases heq
    exact (benchmarkBlocks_eq_ok hblocks).covers

/-- Two names that take turns in one tag, and one of them again in the next. -/
def interleaved : Doclet :=
  ⟨[], [
    ⟨"benchmarks", none, none, "a() // => sort - quick\nb() // => find\nc() // => sort", 1, 2,
      false, none⟩,
    ⟨"benchmarks", none, none, "d() // => sort - merge - top down", 5, 6, false, none⟩]⟩

theorem benchmarks_covers_interleaved : ∃ benchmarks,
    (ExampleBuilder.mk Handler.defaults [] fun _ => default).benchmarks interleaved
      = .ok benchmarks ∧
    benchmarks.items = [
      ⟨1, "sort", [⟨1, "a()", "sort", "quick"⟩, ⟨3, "c()", "sort", "Ops/second"⟩]⟩,
      ⟨2, "find", [⟨2, "b()", "find", "Ops/second"⟩]⟩,
      ⟨3, "sort", [⟨4, "d()", "sort", "merge - top down"⟩]⟩] ∧
    benchmarks.Covers ((interleaved.findTags ["benchmarks"]).map fun tag =>
      Directive.Block.parse (ExampleBuilder.mk Handler.defaults [] fun _ => default).recognises
        tag.description) :=
  ⟨_, rfl, rfl, (benchmarks_covers _ interleaved).2 _ rfl⟩

end ExampleBuilder

end DocModel
