import DocModel.Comment.Parser
import DocModel.Example.Builder
import DocModel.Proofs.Comment.Source
import DocModel.Proofs.Directive.Reading
import DocModel.Proofs.Directive.Sides
import DocModel.Proofs.Handler.Finding
import Mathlib.Data.List.Forall2

/-!
# Examples stand where they say

The line of an example is a sum of three counts: where the comment starts in the source, where the
code of its tag starts in the comment, and where the pair stands in the code. The sum is right
because each count is kept by the step that makes it. So the line of the source that an example
names holds its expected value, and its code if that stands on the same line, and the
examples of a comment stand on different lines, in their order.
-/

namespace DocModel

/-! ## The examples of a tag are its pairs -/

/-- Where an example stands and what it says. -/
def Example.place (e : Example) : Int × Text × Text := (e.line, e.actual, e.expected)

/-- Where a pair stands and what it says, in a block that starts on a given line. -/
def Directive.Pair.place (start : Int) (p : Directive.Pair) : Int × Text × Text :=
  (start + p.line, p.left, p.right)

namespace ExampleBuilder

/-- If the given handlers have patterns, every block is taken as it stands. -/
theorem readBlock_of_patterns {b : ExampleBuilder}
    (hb : ∀ h ∈ b.custom, ∃ p, h.matcher = .pattern p) (text : Text) :
    b.readBlock text = .ok (Directive.Block.parse b.recognises text) := by
  have hprobe (line : Text) : b.probe line = .ok () := by
    unfold probe
    split
    · next s _ =>
      obtain ⟨answer, hanswer⟩ := Handler.exists_anyFinds hb s.right
      rw [hanswer]
      split <;> rfl
    · rfl
  have hlines (ls : List Text) : ls.forM b.probe = .ok () := by
    induction ls with
    | nil => rfl
    | cons line ls ih =>
      show (b.probe line >>= fun _ => ls.forM _) = _
      rw [hprobe]
      exact ih
  rw [readBlock, hlines]
  rfl

/-- Without given handlers, every block is taken as it stands. -/
theorem readBlock_of_custom {b : ExampleBuilder} (hb : b.custom = []) (text : Text) :
    b.readBlock text = .ok (Directive.Block.parse b.recognises text) :=
  readBlock_of_patterns (by rw [hb]; exact fun _ hmem => absurd hmem List.not_mem_nil) text

/-- A block that is read is the one in the text. -/
theorem eq_parse_of_readBlock {b : ExampleBuilder} {text : Text} {block : Directive.Block}
    (h : b.readBlock text = .ok block) : block = Directive.Block.parse b.recognises text := by
  obtain ⟨_, -, heq⟩ := Except.bind_eq_ok_iff.mp h
  exact (Except.ok.inj heq).symm

/-- The pairs in some tags, each with its tag. -/
def sources (b : ExampleBuilder) (tags : List Tag) : List (Tag × Directive.Pair) :=
  tags.flatMap fun tag =>
    (Directive.Block.parse b.recognises tag.description).pairs.map (Prod.mk tag)

/-- **What an example takes from a pair in a tag**, in a comment that starts on the line `start`. -/
structure Makes (b : ExampleBuilder) (start : Int) (source : Tag × Directive.Pair)
    (e : Example) : Prop where
  place : e.place = source.2.place (start + source.1.descriptionLine)
  multiline : e.multiline = source.2.multiline
  check : b.check source.2.left source.2.right = .ok e.check

theorem examplesOfPairs_eq_ok {b : ExampleBuilder} {start : Int} {tag : Tag} {next : Nat}
    {ps : List Directive.Pair} {es : List Example}
    (h : b.examplesOfPairs (start + tag.descriptionLine) next ps = .ok es) :
    List.Forall₂ (b.Makes start) (ps.map (Prod.mk tag)) es := by
  induction ps generalizing next es with
  | nil =>
    cases h
    exact .nil
  | cons p ps ih =>
    simp only [examplesOfPairs, Except.bind_eq_ok_iff] at h
    obtain ⟨check, hcheck, more, hmore, heq⟩ := h
    cases heq
    exact .cons ⟨rfl, rfl, hcheck⟩ (ih hmore)

theorem exampleBlocks_eq_ok {b : ExampleBuilder} {start : Int} {next : Nat} {tags : List Tag}
    {blocks : List ExampleBlock} (h : b.exampleBlocks start next tags = .ok blocks) :
    List.Forall₂ (b.Makes start) (b.sources tags) (blocks.flatMap (·.examples)) := by
  induction tags generalizing next blocks with
  | nil =>
    cases h
    exact .nil
  | cons tag tags ih =>
    simp only [exampleBlocks, Except.bind_eq_ok_iff] at h
    obtain ⟨block, hblock, examples, hexamples, more, hmore, heq⟩ := h
    cases heq
    rw [eq_parse_of_readBlock hblock] at hexamples
    exact List.rel_append (examplesOfPairs_eq_ok hexamples) (ih hmore)

/-- **The examples of a doclet are made from the pairs in its tags**, tag by tag. -/
theorem makes_of_examples_eq_ok {b : ExampleBuilder} {doclet : Doclet} {start : Int}
    {examples : Examples} (h : b.examples doclet start = .ok examples) :
    List.Forall₂ (b.Makes start) (b.sources (doclet.findTags ["examples", "example"]))
      examples.items := by
  obtain ⟨blocks, hblocks, heq⟩ := Except.bind_eq_ok_iff.mp h
  cases heq
  exact exampleBlocks_eq_ok hblocks

/-- The examples of a doclet stand where the pairs stand. -/
theorem items_of_examples_eq_ok {b : ExampleBuilder} {doclet : Doclet} {start : Int}
    {examples : Examples} (h : b.examples doclet start = .ok examples) :
    examples.items.map (·.place) = (doclet.findTags ["examples", "example"]).flatMap fun tag =>
      (Directive.Block.parse b.recognises tag.description).pairs.map
        (·.place (start + tag.descriptionLine)) := by
  have hplaces : (b.sources (doclet.findTags ["examples", "example"])).map
      (fun source => source.2.place (start + source.1.descriptionLine))
        = examples.items.map (·.place) := by
    rw [← List.forall₂_eq_eq_eq, List.forall₂_map_left_iff, List.forall₂_map_right_iff]
    exact (makes_of_examples_eq_ok h).imp fun _ _ hmakes => hmakes.place.symm
  rw [← hplaces, sources, List.map_flatMap]
  simp only [List.map_map]
  rfl

end ExampleBuilder

/-! ## Pairs stand on the lines of the comment -/

/-- A pair of a block is the one on its line. -/
theorem Directive.Block.eq_pairAt_of_mem_pairs {recognises : Text → Bool} {text : Text}
    {p : Directive.Pair} (hp : p ∈ (Directive.Block.parse recognises text).pairs) :
    ∃ line sides, (Text.lines text)[p.line]? = some line ∧
      Directive.pairSides? recognises line = some sides ∧
      p = Directive.pairAt recognises (Text.lines text) p.line sides := by
  rw [Directive.Block.pairs_parse] at hp
  obtain ⟨m, hm, hpair⟩ := List.mem_filterMap.mp hp
  have hlt : m < (Text.lines text).length := Directive.lt_length_of_mem_pairLines hm
  obtain ⟨sides, hsides, rfl⟩ := Option.map_eq_some_iff.mp hpair
  refine ⟨(Text.lines text).getD m [], sides, ?_, hsides, rfl⟩
  rw [List.getD_eq_getElem _ _ hlt]
  exact List.getElem?_eq_getElem hlt

/-- A pair is on its own line of the block: its value starts there, and its code is there if the
line has any. -/
theorem Directive.Block.mem_pairs_parse {recognises : Text → Bool} {text : Text}
    {p : Directive.Pair} (hp : p ∈ (Directive.Block.parse recognises text).pairs) :
    ∃ line sides, (Text.lines text)[p.line]? = some line ∧
      Directive.pairSides? recognises line = some sides ∧
      p.right.takeWhile (· != '\n') = sides.right ∧ (sides.left ≠ [] → p.left = sides.left) := by
  obtain ⟨line, sides, hline, hsides, heq⟩ := Directive.Block.eq_pairAt_of_mem_pairs hp
  refine ⟨line, sides, hline, hsides, ?_, fun hleft => ?_⟩
  · obtain ⟨-, -, hfeed⟩ := Directive.pairSides?_eq_some hsides
    have hall : ∀ c ∈ sides.right, (c != '\n') = true := fun c hc => by
      rw [bne_iff_ne]
      rintro rfl
      exact hfeed hc
    have hright : p.right = Directive.rightAt recognises (Text.lines text) p.line sides :=
      congrArg Directive.Pair.right heq
    rw [hright, Directive.rightAt, List.takeWhile_append_of_pos hall]
    -- Each further line of the value starts with a line feed.
    cases Directive.ownedAt recognises (Text.lines text) p.line <;> simp
  · have hcode : p.left = Directive.leftAt recognises (Text.lines text) p.line sides :=
      congrArg Directive.Pair.left heq
    rw [hcode, Directive.leftAt, if_neg (by simpa using hleft)]

/-- A value that does not go on over several lines is what stands on the line of the pair. -/
theorem Directive.Block.right_of_mem_pairs {recognises : Text → Bool} {text : Text}
    {p : Directive.Pair} (hp : p ∈ (Directive.Block.parse recognises text).pairs)
    (hmultiline : p.multiline = false) :
    ∃ line sides, (Text.lines text)[p.line]? = some line ∧
      Directive.pairSides? recognises line = some sides ∧ p.right = sides.right := by
  obtain ⟨line, sides, hline, hsides, heq⟩ := Directive.Block.eq_pairAt_of_mem_pairs hp
  have hrun : (Directive.runAt recognises (Text.lines text) p.line).isEmpty = true := by
    have hmark : p.multiline = !(Directive.runAt recognises (Text.lines text) p.line).isEmpty :=
      congrArg Directive.Pair.multiline heq
    rw [hmultiline] at hmark
    exact Bool.not_eq_eq_eq_not.mp hmark.symm
  have howned : Directive.ownedAt recognises (Text.lines text) p.line = [] := by
    rw [Directive.runAt] at hrun
    rw [Directive.ownedAt, Directive.owned, Directive.closing?, if_pos hrun,
      List.isEmpty_iff.mp hrun]
    rfl
  refine ⟨line, sides, hline, hsides, ?_⟩
  have hright : p.right = Directive.rightAt recognises (Text.lines text) p.line sides :=
    congrArg Directive.Pair.right heq
  rw [hright, Directive.rightAt, howned]
  exact List.append_nil _

namespace Comment

/-- The line of the comment on which a pair in a tag stands. -/
theorem source_of_mem_pairs {value : Text} {t : TagLines}
    (ht : t ∈ (divideTags 0 (unwrap value)).2) {recognises : Text → Bool} {p : Directive.Pair}
    (hp : p ∈ (Directive.Block.parse recognises (verbatimTag t).description).pairs) :
    (∃ source line sides,
      (Text.lines value)[(verbatimTag t).descriptionLine + p.line]? = some source ∧
      (Text.lines (verbatimTag t).description)[p.line]? = some line ∧ line <:+: source ∧
      Directive.pairSides? recognises line = some sides ∧
      p.right.takeWhile (· != '\n') = sides.right ∧ (sides.left ≠ [] → p.left = sides.left)) ∧
    (verbatimTag t).descriptionLine + p.line ≤ t.start + t.body.length := by
  obtain ⟨line, sides, hline, hsides, hright, hleft⟩ := Directive.Block.mem_pairs_parse hp
  have hne : line ≠ [] := by
    rintro rfl
    cases hsides
  obtain ⟨⟨source, hsource, hinfix⟩, hbound⟩ := getElem?_lines_of_mem_divideTags ht hne hline
  exact ⟨⟨source, line, sides, hsource, hline, hinfix, hsides, hright, hleft⟩, hbound⟩

/-- The pairs in tags of a comment stand on different lines, in their order. -/
theorem pairwise_lines_of_tags (value : Text) (recognises : Text → Bool) (start : Int)
    (keep : TagLines → Bool) :
    (((divideTags 0 (unwrap value)).2.filter keep).flatMap fun t =>
      (Directive.Block.parse recognises (verbatimTag t).description).pairs.map fun p =>
        start + (verbatimTag t).descriptionLine + p.line).Pairwise (· < ·) := by
  rw [List.pairwise_flatMap]
  constructor
  · intro t _
    have hlines : (Directive.pairLines recognises
        (Text.lines (verbatimTag t).description)).Pairwise (· < ·) :=
      Directive.pairwise_pairLines _
    rw [← Directive.Block.map_line_pairs_parse, List.pairwise_map] at hlines
    rw [List.pairwise_map]
    exact hlines.imp fun hlt => by omega
  · refine ((pairwise_divideTags 0 (unwrap value)).2.filter keep).imp_of_mem ?_
    intro t u ht _ htu x hx y hy
    obtain ⟨p, hp, rfl⟩ := List.mem_map.mp hx
    obtain ⟨q, -, rfl⟩ := List.mem_map.mp hy
    obtain ⟨-, hbound⟩ := source_of_mem_pairs (List.mem_filter.mp ht).1 hp
    -- The pairs of the first tag end before the second tag starts.
    have hu : u.start ≤ (verbatimTag u).descriptionLine := Nat.le_add_right _ _
    omega

end Comment

namespace ExampleBuilder

/-- An example stands on a line of its comment. -/
theorem exists_line_of_mem_items {b : ExampleBuilder} {value : Text} {start : Int}
    {doclet : Doclet} (hdoclet : Doclet.parse value = .ok doclet) {examples : Examples}
    (hexamples : b.examples doclet start = .ok examples) {e : Example} (he : e ∈ examples.items) :
    ∃ i < (Text.lines value).length, e.line = start + i := by
  have hplace : e.place ∈ examples.items.map (·.place) := List.mem_map_of_mem he
  rw [items_of_examples_eq_ok hexamples, Comment.findTags_example hdoclet] at hplace
  obtain ⟨tag, htag, hplace⟩ := List.mem_flatMap.mp hplace
  obtain ⟨t, ht, rfl⟩ := List.mem_map.mp htag
  obtain ⟨p, hp, hplace⟩ := List.mem_map.mp hplace
  obtain ⟨⟨source, _, _, hsource, -⟩, -⟩ :=
    Comment.source_of_mem_pairs (List.mem_filter.mp ht).1 hp
  obtain ⟨hlt, -⟩ := List.getElem?_eq_some_iff.mp hsource
  have hline : start + (Comment.verbatimTag t).descriptionLine + p.line = e.line :=
    congrArg Prod.fst hplace
  exact ⟨_, hlt, by omega⟩

/-- **Examples stand where they say.** The line that an example of a comment names is a line of the
comment. It holds the first line of the expected value and, if there is code before the value,
the code. The examples of all tags stand on different lines, in their order. -/
theorem examples_on_source_lines (b : ExampleBuilder) (value : Text) (start : Int)
    {doclet : Doclet} (hdoclet : Doclet.parse value = .ok doclet)
    {examples : Examples} (hexamples : b.examples doclet start = .ok examples) :
    (∀ e ∈ examples.items, ∃ (i : Nat) (source : Text),
      e.line = start + i ∧ (Text.lines value)[i]? = some source ∧
      e.expected.takeWhile (· != '\n') <:+: source ∧
      ∃ tag ∈ doclet.findTags ["examples", "example"], ∃ k line sides,
        i = tag.descriptionLine + k ∧ (Text.lines tag.description)[k]? = some line ∧
        line <:+: source ∧ Directive.pairSides? b.recognises line = some sides ∧
        e.expected.takeWhile (· != '\n') = sides.right ∧
        (sides.left ≠ [] → e.actual = sides.left ∧ e.actual <:+: source)) ∧
    (examples.items.map (·.line)).Pairwise (· < ·) := by
  have hitems := items_of_examples_eq_ok hexamples
  have htags := Comment.findTags_example hdoclet
  constructor
  · intro e he
    have hplace : e.place ∈ examples.items.map (·.place) := List.mem_map_of_mem he
    rw [hitems] at hplace
    obtain ⟨tag, htag, hplace⟩ := List.mem_flatMap.mp hplace
    obtain ⟨p, hp, hplace⟩ := List.mem_map.mp hplace
    simp only [Example.place, Directive.Pair.place, Prod.mk.injEq] at hplace
    obtain ⟨hline, hleft, hright⟩ := hplace
    have hmem := htag
    rw [htags] at hmem
    obtain ⟨t, ht, rfl⟩ := List.mem_map.mp hmem
    obtain ⟨⟨source, line, sides, hsource, hown, hinfix, hsides, hvalue, hcode⟩, -⟩ :=
      Comment.source_of_mem_pairs (List.mem_filter.mp ht).1 hp
    obtain ⟨hleftInfix, hrightInfix, -⟩ := Directive.pairSides?_eq_some hsides
    rw [hright] at hvalue
    rw [hleft] at hcode
    refine ⟨(Comment.verbatimTag t).descriptionLine + p.line, source, by omega, hsource,
      hvalue ▸ hrightInfix.trans hinfix, Comment.verbatimTag t, htag, p.line, line, sides, rfl,
      hown, hinfix, hsides, hvalue, fun hne => ⟨hcode hne, ?_⟩⟩
    rw [hcode hne]
    exact hleftInfix.trans hinfix
  · have hlines : examples.items.map (·.line) = (examples.items.map (·.place)).map (·.1) := by
      rw [List.map_map]
      rfl
    rw [hlines, hitems, htags, List.flatMap_map, List.map_flatMap]
    simp only [List.map_map]
    exact Comment.pairwise_lines_of_tags value b.recognises start _

/-- A comment with an example on the line of its tag, and with one that stands further down in its
tag, indented and with its code above it. -/
def framedComment : Text :=
  "*\n * Adds.\n * @example add(1, 2) // => 3\n *\n * @examples\n *\n *   f(\n *     x)\n"
    ++ " *   // => [\n *     1\n *   ]\n "

theorem examples_on_source_lines_framed :
    ∃ doclet examples, Doclet.parse framedComment = .ok doclet ∧
      (ExampleBuilder.mk [] [] fun _ => default).examples doclet 10 = .ok examples ∧
      examples.items.map (·.line) = [12, 18] ∧
      (∀ e ∈ examples.items, ∃ (i : Nat) (source : Text),
        e.line = 10 + i ∧ (Text.lines framedComment)[i]? = some source ∧
        e.expected.takeWhile (· != '\n') <:+: source) := by
  have hrun : ((Doclet.parse framedComment).toOption.bind fun doclet =>
      ((ExampleBuilder.mk [] [] fun _ => default).examples doclet 10).toOption).map
        (fun examples => examples.items.map (·.line)) = some [12, 18] := by decide +kernel
  cases hdoclet : Doclet.parse framedComment with
  | error problem =>
    rw [hdoclet] at hrun
    cases hrun
  | ok doclet =>
    rw [hdoclet] at hrun
    cases hexamples : (ExampleBuilder.mk [] [] fun _ => default).examples doclet 10 with
    | error fault => simp [Except.toOption, hexamples] at hrun
    | ok examples =>
      have hlines : examples.items.map (·.line) = [12, 18] := by
        simpa [Except.toOption, hexamples] using hrun
      refine ⟨doclet, examples, rfl, hexamples, hlines, fun e he => ?_⟩
      obtain ⟨i, source, hline, hsource, hinfix, -⟩ :=
        (examples_on_source_lines _ framedComment 10 hdoclet hexamples).1 e he
      exact ⟨i, source, hline, hsource, hinfix⟩

end ExampleBuilder

end DocModel
