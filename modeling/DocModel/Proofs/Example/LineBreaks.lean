import DocModel.Proofs.Directive.Continuation
import DocModel.Proofs.Directive.Ownership
import DocModel.Proofs.Example.Faults
import DocModel.Proofs.Example.Lines
import DocModel.Proofs.Markup.Escaping

/-!
# Line breaks in the texts of examples

The texts of an example are put into quoted literals of a script, and such a literal must stand on
one line. Line feeds are written as letters, but a carriage return breaks a line of a script just
as well, and it is kept.

Where a source ends its lines with a carriage return and a line feed, the carriage returns are at
the ends of the lines that are read. Most of them are stripped off: the code of an example and the
first line of its value have no blanks at their ends. But a line that goes on with a value is only
moved to the left, and takes its carriage return with it. So the texts of an example are free of
carriage returns exactly if none of the lines that go on with its value ends with one
(`ExampleBuilder.escaped_examples_returns`).
-/

/-- What stands in the second of two related lists is related to a member of the first. -/
theorem List.Forall₂.exists_of_mem {α β : Type} {R : α → β → Prop} {as : List α} {bs : List β}
    (h : List.Forall₂ R as bs) {b : β} (hb : b ∈ bs) : ∃ a ∈ as, R a b := by
  induction h with
  | nil => cases hb
  | cons hab _ ih =>
    obtain rfl | hb := List.mem_cons.mp hb
    · exact ⟨_, List.mem_cons_self, hab⟩
    · obtain ⟨a, ha, hab⟩ := ih hb
      exact ⟨a, List.mem_cons_of_mem _ ha, hab⟩

namespace DocModel

/-! ## Carriage returns at the ends of lines -/

namespace Text

/-- **A line that has a carriage return at its end only**, or none at all. -/
def ReturnsLast (line : Text) : Prop := '\r' ∉ line.dropLast

instance : DecidablePred ReturnsLast := fun _ => inferInstanceAs (Decidable (¬ _))

theorem ReturnsLast.mem_iff {line : Text} (h : ReturnsLast line) :
    '\r' ∈ line ↔ line.getLast? = some '\r' := by
  obtain rfl | ⟨init, c, rfl⟩ := List.eq_nil_or_concat' line
  · simp
  · have hinit : '\r' ∉ init := by rwa [ReturnsLast, List.dropLast_concat] at h
    rw [List.getLast?_concat, List.mem_append, List.mem_singleton, Option.some.injEq]
    exact ⟨fun hmem => (hmem.resolve_left hinit).symm, fun heq => .inr heq.symm⟩

/-- The same holds of every stretch of the line. -/
theorem ReturnsLast.of_isInfix {t line : Text} (h : ReturnsLast line) (ht : t <:+: line) :
    ReturnsLast t := by
  obtain ⟨before, after, rfl⟩ := ht
  obtain rfl | ⟨init, c, rfl⟩ := List.eq_nil_or_concat' t
  · exact List.not_mem_nil
  · intro hmem
    rw [List.dropLast_concat] at hmem
    refine h ?_
    rw [show before ++ (init ++ [c]) ++ after = (before ++ init) ++ c :: after by simp,
      List.dropLast_append_of_ne_nil (List.cons_ne_nil c after)]
    exact List.mem_append_left _ (List.mem_append_right before hmem)

/-- A carriage return at the end is stripped off. -/
theorem ReturnsLast.notMem_strip {t : Text} (h : ReturnsLast t) : '\r' ∉ strip t := by
  have hstrip : strip t <:+: t := strip_infix t
  rw [(h.of_isInfix hstrip).mem_iff]
  intro hlast
  have hhead : (stripLeft (stripLeft t).reverse).head? = some '\r' := by
    rw [← List.getLast?_reverse]
    exact hlast
  obtain ⟨rest, hrest⟩ := List.head?_eq_some_iff.mp hhead
  exact absurd (not_isBlank_of_stripLeft hrest) (by decide)

end Text

namespace Directive

open Text (ReturnsLast)

variable {recognises : Text → Bool} {ls : List Text} {m : Nat} {sides : Sides}

/-- The lines that belong to a pair are not blank. -/
theorem blank_of_mem_owned {indent : Nat} {below : List Text} {line : Text}
    (h : line ∈ owned recognises indent below) : Text.blank line = false := by
  obtain hrun | hclosing := List.mem_append.mp h
  · have hcontinues : continues recognises indent line = true := List.mem_takeWhile_imp hrun
    simp only [continues, Bool.and_eq_true, Bool.not_eq_true'] at hcontinues
    exact hcontinues.1.2
  · unfold closing? at hclosing
    split at hclosing
    · cases hclosing
    · have hfilter := (Option.filter_eq_some_iff.mp (Option.mem_toList.mp hclosing)).2
      simp only [Bool.and_eq_true, Bool.not_eq_true'] at hfilter
      exact hfilter.1

theorem mem_of_mem_ownedAt {line : Text} (h : line ∈ ownedAt recognises ls m) : line ∈ ls :=
  List.mem_of_mem_drop ((owned_isPrefix _ _).subset h)

/-- A line of a value keeps the carriage return at its end. -/
theorem return_mem_relativeLine_iff {line : Text} (h : ReturnsLast line)
    (hblank : Text.blank line = false) (w : Nat) :
    '\r' ∈ relativeLine w line ↔ line.getLast? = some '\r' := by
  constructor
  · intro hmem
    obtain ⟨u, -, hline⟩ := exists_blank_relativeLine w line
    have hexpanded : '\r' ∈ Text.expandTabs Text.tabWidth line := by
      rw [hline]
      exact List.mem_append_right u hmem
    exact h.mem_iff.mp (Text.mem_of_mem_expandTabs (by decide) hexpanded)
  · intro hlast
    obtain ⟨init, rfl⟩ := List.getLast?_eq_some_iff.mp hlast
    exact List.mem_of_getLast? (getLast?_relativeLine (by decide) hblank w)

/-- The sides of a pair line have no carriage returns. -/
theorem return_notMem_sides {line : Text} (h : ReturnsLast line)
    (hsides : pairSides? recognises line = some sides) :
    '\r' ∉ sides.left ∧ '\r' ∉ sides.right := by
  obtain ⟨left, right, ⟨hleft, hl⟩, ⟨hright, hr⟩, -⟩ := exists_strip_of_pairSides? hsides
  rw [hl, hr]
  exact ⟨(h.of_isInfix hleft).notMem_strip, (h.of_isInfix hright).notMem_strip⟩

/-- **The code of a pair has no carriage returns.** -/
theorem return_notMem_leftAt (h : ∀ line ∈ ls, ReturnsLast line) (hleft : '\r' ∉ sides.left) :
    '\r' ∉ leftAt recognises ls m sides := by
  unfold leftAt
  split
  · intro hmem
    obtain hfeed | ⟨t, ht, hmem⟩ := Text.mem_of_mem_join hmem
    · exact absurd hfeed (by decide)
    · obtain ⟨line, hline, rfl⟩ := List.mem_map.mp ht
      have habove : line ∈ ls :=
        List.mem_of_mem_take (List.mem_of_mem_drop
          ((aboveAt_isSuffix m).subset (List.mem_filter.mp hline).1))
      exact (h line habove).notMem_strip hmem
  · exact hleft

/-- **The value of a pair has those carriage returns that end a line that goes on with it.** -/
theorem return_mem_rightAt_iff (h : ∀ line ∈ ls, ReturnsLast line) (hright : '\r' ∉ sides.right) :
    '\r' ∈ rightAt recognises ls m sides ↔
      ∃ line ∈ ownedAt recognises ls m, line.getLast? = some '\r' := by
  unfold rightAt
  rw [List.mem_append, or_iff_right hright, List.mem_flatMap]
  refine exists_congr fun line => and_congr_right fun hline => ?_
  rw [List.mem_cons, or_iff_right (by decide)]
  exact return_mem_relativeLine_iff (h line (mem_of_mem_ownedAt hline)) (blank_of_mem_owned hline) _

end Directive

/-- A line of the code in a tag has a carriage return at its end only, if the lines of the comment
have. -/
theorem Comment.returnsLast_of_mem_lines {value : Text}
    (h : ∀ line ∈ Text.lines value, Text.ReturnsLast line) {t : TagLines}
    (ht : t ∈ (divideTags 0 (unwrap value)).2) :
    ∀ line ∈ Text.lines (verbatimTag t).description, Text.ReturnsLast line := by
  intro line hline
  by_cases hempty : line = []
  · subst hempty
    exact List.not_mem_nil
  · obtain ⟨j, hj⟩ := List.mem_iff_getElem?.mp hline
    obtain ⟨⟨source, hsource, hinfix⟩, -⟩ := getElem?_lines_of_mem_divideTags ht hempty hj
    exact (h source (List.mem_of_getElem? hsource)).of_isInfix hinfix

namespace ExampleBuilder

open Markup (scriptEscape)

/-- **Which line breaks are left in the texts of an example** when they are written into quoted
literals. There are no line feeds, and exactly the carriage returns of the texts themselves. In a
comment that has carriage returns at the ends of its lines only, the code of an example has none,
and its value has one exactly if a line that goes on with the value ends with one. -/
theorem escaped_examples_returns (b : ExampleBuilder) (value : Text) (start : Int)
    {doclet : Doclet} (hdoclet : Doclet.parse value = .ok doclet)
    {examples : Examples} (hexamples : b.examples doclet start = .ok examples)
    {e : Example} (he : e ∈ examples.items) :
    ('\n' ∉ scriptEscape e.actual ∧ '\n' ∉ scriptEscape e.expected) ∧
    ('\r' ∈ scriptEscape e.actual ↔ '\r' ∈ e.actual) ∧
    ('\r' ∈ scriptEscape e.expected ↔ '\r' ∈ e.expected) ∧
    ∃ source ∈ b.sources (doclet.findTags ["examples", "example"]), b.Makes start source e ∧
      ((∀ line ∈ Text.lines value, Text.ReturnsLast line) →
        '\r' ∉ scriptEscape e.actual ∧
        ('\r' ∈ scriptEscape e.expected ↔
          ∃ line ∈ Directive.ownedAt b.recognises (Text.lines source.1.description) source.2.line,
            line.getLast? = some '\r')) := by
  refine ⟨⟨Markup.feed_notMem_scriptEscape _, Markup.feed_notMem_scriptEscape _⟩,
    Markup.return_mem_scriptEscape_iff, Markup.return_mem_scriptEscape_iff, ?_⟩
  obtain ⟨source, hsource, hmakes⟩ := (makes_of_examples_eq_ok hexamples).exists_of_mem he
  refine ⟨source, hsource, hmakes, fun hreturns => ?_⟩
  obtain ⟨tag, htag, hmem⟩ := List.mem_flatMap.mp hsource
  obtain ⟨p, hp, rfl⟩ := List.mem_map.mp hmem
  rw [Comment.findTags_example hdoclet] at htag
  obtain ⟨t, ht, rfl⟩ := List.mem_map.mp htag
  have hlines := Comment.returnsLast_of_mem_lines hreturns (List.mem_filter.mp ht).1
  obtain ⟨line, sides, hline, hsides, hpair⟩ := Directive.Block.eq_pairAt_of_mem_pairs hp
  obtain ⟨hleft, hright⟩ :=
    Directive.return_notMem_sides (hlines line (List.mem_of_getElem? hline)) hsides
  have hactual : e.actual = p.left := congrArg (·.2.1) hmakes.place
  have hexpected : e.expected = p.right := congrArg (·.2.2) hmakes.place
  rw [Markup.return_mem_scriptEscape_iff, Markup.return_mem_scriptEscape_iff, hactual, hexpected,
    hpair]
  exact ⟨Directive.return_notMem_leftAt hlines hleft,
    Directive.return_mem_rightAt_iff hlines hright⟩

/-- A comment whose lines end with a carriage return and a line feed, with a value that goes on over
three lines. -/
def returnComment : Text :=
  "*\r\n * @examples\r\n * f() // => \x7b\r\n *   a: 1,\r\n *   ...\r\n * \x7d\r\n "

/-- The last line of the value is the last one of its tag as well, and loses its carriage return. -/
theorem examples_returnComment (script : ScriptParser) : ∃ doclet examples e,
    Doclet.parse returnComment = .ok doclet ∧
      (standard script).examples doclet 1 = .ok examples ∧
      e ∈ examples.items ∧ e.expected = "\x7b\n  a: 1,\r\n  ...\r\n\x7d" :=
  ⟨_, _, _, rfl, rfl, List.mem_cons_self, rfl⟩

theorem escaped_examples_returns_carried :
    ∃ (doclet : Doclet) (examples : Examples) (e : Example) (source : Tag × Directive.Pair),
      Doclet.parse returnComment = .ok doclet ∧
      (standard fun _ => default).examples doclet 1 = .ok examples ∧ e ∈ examples.items ∧
      (standard fun _ => default).Makes 1 source e ∧ '\r' ∉ scriptEscape e.actual ∧
      ∃ line ∈ Directive.ownedAt (standard fun _ => default).recognises
        (Text.lines source.1.description) source.2.line, line.getLast? = some '\r' := by
  obtain ⟨doclet, examples, e, hdoclet, hexamples, he, hvalue⟩ :=
    examples_returnComment fun _ => default
  have hreturns : ∀ line ∈ Text.lines returnComment, Text.ReturnsLast line :=
    List.forall_mem_of_all (by decide)
  have hreturn : '\r' ∈ scriptEscape e.expected := by
    rw [hvalue]
    decide
  obtain ⟨-, -, -, source, -, hmakes, hsource⟩ :=
    escaped_examples_returns (standard fun _ => default) returnComment 1 hdoclet hexamples he
  exact ⟨doclet, examples, e, source, hdoclet, hexamples, he, hmakes, (hsource hreturns).1,
    (hsource hreturns).2.mp hreturn⟩

/-- A literal with this value in it does not stand on one line. -/
theorem escaped_value_broken : ∃ doclet examples e,
    Doclet.parse returnComment = .ok doclet ∧
      (standard fun _ => default).examples doclet 1 = .ok examples ∧
      e ∈ examples.items ∧ '\r' ∈ scriptEscape e.expected := by
  obtain ⟨doclet, examples, e, hdoclet, hexamples, he, hvalue⟩ :=
    examples_returnComment fun _ => default
  refine ⟨doclet, examples, e, hdoclet, hexamples, he, ?_⟩
  rw [hvalue]
  decide

end ExampleBuilder

end DocModel
