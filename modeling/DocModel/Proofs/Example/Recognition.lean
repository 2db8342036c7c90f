import DocModel.Library.Session
import DocModel.Proofs.Example.Lines

/-!
# Bare comments are checked by the given handlers

A comment with neither code before it nor an arrow in it is an example only if one of the given
handlers finds something in it. The handlers are consulted twice: the given ones when the comment is
read, and all of them when the example is checked. The two agree, since the given handlers are tried
first and look at the same text, as long as the expected value does not go on over several lines. So
such an example is checked with the template of the first given handler that finds something, and is
never broken (`ExampleBuilder.examples_of_bare`). Which texts a pattern finds something in is left
to its compiler.
-/

namespace DocModel

/-! ## Handlers from entries -/

/-- A handler has the parts from which it is made, and a template or a test. -/
theorem Handler.ofParts_eq_ok {compile : Compiler} {pattern template test data : Value}
    {h : Handler} (hof : Handler.ofParts compile pattern template test data = .ok h) :
    (template.isNull && test.isNull) = false ∧ h.template = template ∧ h.test = test ∧
      h.data = if data.isNull then .matched else .other data := by
  unfold ofParts at hof
  split at hof
  · cases hof
  · next htarget =>
    refine ⟨Bool.eq_false_iff.mpr htarget, ?_⟩
    cases pattern with
    | text source =>
      dsimp only at hof
      split at hof
      · cases hof
        exact ⟨rfl, rfl, rfl⟩
      · cases hof
    | _ =>
      cases hof
      exact ⟨rfl, rfl, rfl⟩

/-- Without a test and without data, an entry describes a handler that gives the match to
its template. -/
theorem Handler.ofValue_eq_ok {compile : Compiler} {entry : List (Text × Value)} {h : Handler}
    (htest : Value.entry? "test" entry = none) (hdata : Value.entry? "data" entry = none)
    (hof : Handler.ofValue compile (.record entry) = .ok h) :
    h.test = .null ∧ h.data = .matched ∧ Value.entry? "template" entry = some h.template := by
  cases hpattern : Value.entry? "pattern" entry with
  | none =>
    simp only [Value.record, ofValue, Value.textEntries_named, hpattern] at hof
    cases hof
  | some pattern =>
    simp only [Value.record, ofValue, Value.textEntries_named, hpattern, htest, hdata,
      Option.getD_none] at hof
    obtain ⟨htarget, htemplate, hnull, hrule⟩ := ofParts_eq_ok hof
    refine ⟨hnull, hrule, ?_⟩
    -- Something must be there to check with.
    cases hentry : Value.entry? "template" entry with
    | none =>
      rw [hentry] at htarget
      cases htarget
    | some template => rw [htemplate, hentry, Option.getD_some]

/-- Each given handler is described by the entry at its place. -/
theorem Session.exists_entry_of_handlers {compile : Compiler}
    {entries : List (List (Text × Value))} {custom : List Handler}
    (h : Session.handlers compile entries = .ok custom) {i : Nat} {handler : Handler}
    (hat : custom[i]? = some handler) :
    ∃ entry, entries[i]? = some entry ∧ Handler.ofValue compile (.record entry) = .ok handler := by
  induction entries generalizing custom i with
  | nil =>
    cases h
    cases hat
  | cons entry entries ih =>
    rw [handlers] at h
    cases hof : Handler.ofValue compile (.record entry) with
    | error problem =>
      rw [hof] at h
      cases h
    | ok first =>
      rw [hof] at h
      obtain ⟨more, hmore, heq⟩ := Except.bind_eq_ok_iff.mp h
      cases heq
      cases i with
      | zero =>
        cases hat
        exact ⟨entry, rfl, hof⟩
      | succ i => exact ih hmore hat

/-! ## Bare comments -/

/-- Whether the line of a pair in a text has neither code before the slashes nor an arrow. -/
def Directive.Pair.OnBareLine (text : Text) (p : Directive.Pair) : Prop :=
  ∃ line sides, (Text.lines text)[p.line]? = some line ∧ Directive.sides? line = some sides ∧
    sides.left = [] ∧ sides.arrow = false

/-- A bare comment is a pair only because its text is recognised. -/
theorem Directive.recognises_of_pairSides? {recognises : Text → Bool} {line : Text}
    {sides : Directive.Sides} (h : Directive.pairSides? recognises line = some sides)
    (hbare : sides.bare = true) : recognises sides.right = true := by
  obtain ⟨-, hkeep⟩ := Option.filter_eq_some_iff.mp h
  rw [hbare] at hkeep
  exact hkeep

namespace ExampleBuilder

/-- What is recognised is found by a given handler. -/
theorem exists_find_of_recognises {b : ExampleBuilder} {right : Text}
    (h : b.recognises right = true) :
    ∃ i handler m, Handler.find b.custom right = .ok (some (i, handler, m)) := by
  unfold recognises Handler.anyFinds at h
  cases hfind : Handler.find b.custom right with
  | error fault =>
    rw [hfind] at h
    cases h
  | ok found =>
    rw [hfind] at h
    cases found with
    | none => cases h
    | some place => exact ⟨place.1, place.2.1, place.2.2, rfl⟩

/-- An expected value on the line of a bare comment is found by a given handler. -/
theorem exists_find_of_bare {b : ExampleBuilder} {text : Text} {p : Directive.Pair}
    (hp : p ∈ (Directive.Block.parse b.recognises text).pairs) (hbare : p.OnBareLine text)
    (hmultiline : p.multiline = false) :
    ∃ i handler m, Handler.find b.custom p.right = .ok (some (i, handler, m)) := by
  obtain ⟨line, sides, hline, hsides, hright⟩ :=
    Directive.Block.right_of_mem_pairs hp hmultiline
  obtain ⟨line', sides', hline', hsides', hleft, harrow⟩ := hbare
  cases hline.symm.trans hline'
  obtain ⟨hsame, -⟩ := Option.filter_eq_some_iff.mp hsides
  cases hsame.symm.trans hsides'
  have hmark : sides.bare = true := by
    rw [Directive.Sides.bare, hleft, harrow]
    rfl
  rw [hright]
  exact exists_find_of_recognises (Directive.recognises_of_pairSides? hsides hmark)

end ExampleBuilder

/-- **A check by the first of the given handlers** that finds something in an expected value: the
handler is the one that the entry at its place describes, and its template gets the match. -/
def Check.ByFirst (compile : Compiler) (entries : List (List (Text × Value)))
    (custom : List Handler) (expected : Text) (check : Check) : Prop :=
  ∃ i < custom.length, ∃ entry h m, entries[i]? = some entry ∧ custom[i]? = some h ∧
    Handler.ofValue compile (.record entry) = .ok h ∧
    Value.entry? "template" entry = some h.template ∧
    (∀ h' ∈ custom.take i, h'.search expected = .ok none) ∧ h.search expected = .ok (some m) ∧
    check = .template i h.template
      [("match", .list (.text m.whole :: m.groups.map Value.ofText?))]

theorem Check.ByFirst.isBroken {compile : Compiler} {entries : List (List (Text × Value))}
    {custom : List Handler} {e : Example} (h : e.check.ByFirst compile entries custom e.expected) :
    e.isBroken = false := by
  obtain ⟨_, _, _, _, _, _, _, _, _, _, _, hcheck⟩ := h
  rw [Example.isBroken, hcheck]

namespace ExampleBuilder

variable {compile : Compiler} {custom rest : List Handler} {script : ScriptParser}
  {expected : Text} {i : Nat} {h : Handler} {m : Match}

/-- A given handler that finds something gives the match to its template. -/
theorem check_of_find (hfind : Handler.find custom expected = .ok (some (i, h, m)))
    (htest : h.test = .null) (hdata : h.data = .matched) (actual : Text) :
    (ExampleBuilder.mk (custom ++ rest) custom script).check actual expected
      = .ok (.template i h.template
        [("match", .list (.text m.whole :: m.groups.map Value.ofText?))]) := by
  have hnull : h.test.isNull = true := by
    rw [htest]
    rfl
  have hgiven : h.buildData m
      = .ok [("match", .list (.text m.whole :: m.groups.map Value.ofText?))] := by
    rw [Handler.buildData, hdata]
  simp only [check, Handler.find_append hfind rest, Except.bind_eq_ok_iff]
  refine ⟨_, rfl, ?_⟩
  dsimp only
  rw [if_pos hnull, hgiven]
  rfl

/-- What is found among handlers that entries describe is checked by the first of them. -/
theorem exists_check_byFirst {entries : List (List (Text × Value))}
    (hentries : ∀ entry ∈ entries,
      Value.entry? "test" entry = none ∧ Value.entry? "data" entry = none)
    (hcustom : Session.handlers compile entries = .ok custom)
    (hfind : Handler.find custom expected = .ok (some (i, h, m))) (actual : Text) :
    ∃ check, (ExampleBuilder.mk (custom ++ rest) custom script).check actual expected = .ok check ∧
      check.ByFirst compile entries custom expected := by
  obtain ⟨before, after, hsplit, hi, hbefore, hsearch⟩ :=
    Handler.findFrom_eq_ok_some_iff.mp hfind
  obtain rfl : i = before.length := hi.trans (Nat.zero_add _)
  have hat : custom[before.length]? = some h := by
    rw [hsplit, List.getElem?_append_right (Nat.le_refl _), Nat.sub_self]
    rfl
  obtain ⟨entry, hentry, hof⟩ := Session.exists_entry_of_handlers hcustom hat
  obtain ⟨hnone, hnone'⟩ := hentries entry (List.mem_of_getElem? hentry)
  obtain ⟨htest, hdata, htemplate⟩ := Handler.ofValue_eq_ok hnone hnone' hof
  refine ⟨_, check_of_find hfind htest hdata actual, before.length,
    (List.getElem?_eq_some_iff.mp hat).1, entry, h, m, hentry, hat, hof, htemplate, ?_, hsearch,
    rfl⟩
  rw [hsplit, List.take_left]
  exact hbefore

/-- **Bare comments are checked by the given handlers**, whatever their patterns are compiled to.
Let the given handlers have templates but neither tests nor data, and let them be tried before the
default ones. A pair on a bare line whose value does not go on over several lines can always be
checked, and it is the first given handler that finds something that checks it. The examples that
are built are made from the pairs one by one, so this holds of the examples; none of them is broken.
-/
theorem examples_of_bare {entries : List (List (Text × Value))}
    (hentries : ∀ entry ∈ entries,
      Value.entry? "test" entry = none ∧ Value.entry? "data" entry = none)
    (hcustom : Session.handlers compile entries = .ok custom) (script : ScriptParser)
    (doclet : Doclet) (start : Int) :
    let b : ExampleBuilder := ⟨custom ++ Handler.defaults, custom, script⟩
    let sources := b.sources (doclet.findTags ["examples", "example"])
    (∀ source ∈ sources, source.2.OnBareLine source.1.description → source.2.multiline = false →
      ∃ check, b.check source.2.left source.2.right = .ok check ∧
        check.ByFirst compile entries custom source.2.right) ∧
    ∀ examples, b.examples doclet start = .ok examples →
      examples.items.length = sources.length ∧
      ∀ (j : Nat) (source : Tag × Directive.Pair) (e : Example),
        sources[j]? = some source → examples.items[j]? = some e →
        e.line = start + source.1.descriptionLine + source.2.line ∧
        e.expected = source.2.right ∧
        (source.2.OnBareLine source.1.description → e.multiline = false →
          e.check.ByFirst compile entries custom e.expected ∧ e.isBroken = false) := by
  intro b sources
  have hchecked (source : Tag × Directive.Pair) (hmem : source ∈ sources)
      (hbare : source.2.OnBareLine source.1.description) (hmultiline : source.2.multiline = false) :
      ∃ check, b.check source.2.left source.2.right = .ok check ∧
        check.ByFirst compile entries custom source.2.right := by
    obtain ⟨tag, -, hmem⟩ := List.mem_flatMap.mp hmem
    obtain ⟨p, hp, rfl⟩ := List.mem_map.mp hmem
    obtain ⟨i, h, m, hfind⟩ := exists_find_of_bare hp hbare hmultiline
    exact exists_check_byFirst hentries hcustom hfind p.left
  refine ⟨hchecked, fun examples hexamples => ?_⟩
  have hmakes := makes_of_examples_eq_ok hexamples
  refine ⟨hmakes.length_eq.symm, fun j source e hsource he => ?_⟩
  obtain ⟨hj, hsource'⟩ := List.getElem?_eq_some_iff.mp hsource
  obtain ⟨hj', he'⟩ := List.getElem?_eq_some_iff.mp he
  have hmade : b.Makes start source e := hsource' ▸ he' ▸ hmakes.get hj hj'
  have hplace := hmade.place
  simp only [Example.place, Directive.Pair.place, Prod.mk.injEq] at hplace
  obtain ⟨hline, -, hexpected⟩ := hplace
  refine ⟨hline, hexpected, fun hbare hmultiline => ?_⟩
  obtain ⟨check, hcheck, hfirst⟩ := hchecked source (List.mem_of_getElem? hsource) hbare
    (hmade.multiline ▸ hmultiline)
  obtain rfl : check = e.check := Except.ok.inj (hcheck.symm.trans hmade.check)
  rw [← hexpected] at hfirst
  exact ⟨hfirst, hfirst.isBroken⟩

/-- Two given handlers with templates. -/
def spyEntries : List (List (Text × Value)) :=
  [[("pattern", .text "^logs (.*)$"), ("template", .text "logs")],
    [("pattern", .text "^calls (\\w+)"), ("template", .text "spy")]]

/-- A tag with code and, below it, a bare comment. -/
def spyTag : Tag := ⟨"examples", none, none, "run(f)\n// calls f ²", 1, 2, false, none⟩

/-- A bare comment that the default handlers could not check: the second given handler is the first
that finds something in it. -/
theorem examples_of_bare_spy : ∃ custom, Session.handlers Pattern.compile spyEntries = .ok custom ∧
    ∃ e : Example,
      (ExampleBuilder.mk (custom ++ Handler.defaults) custom fun _ => default).examples
        ⟨[], [spyTag]⟩ 1 = .ok ⟨[⟨spyTag.description, [], [e]⟩]⟩ ∧
      e.expected = ("calls f ²" : Text) ∧
      e.check = .template 1 (.text "spy") [("match", .list [.text "calls f", .text "f"])] ∧
      e.check.ByFirst Pattern.compile spyEntries custom e.expected ∧ e.isBroken = false := by
  have hentries : ∀ entry ∈ spyEntries,
      Value.entry? "test" entry = none ∧ Value.entry? "data" entry = none :=
    List.forall_mem_of_all (by decide +kernel)
  obtain ⟨custom, hcustom, e, hexamples, hexpected, hcheck, hmultiline, hsources⟩ :
      ∃ custom, Session.handlers Pattern.compile spyEntries = .ok custom ∧ ∃ e : Example,
        (ExampleBuilder.mk (custom ++ Handler.defaults) custom fun _ => default).examples
          ⟨[], [spyTag]⟩ 1 = .ok ⟨[⟨spyTag.description, [], [e]⟩]⟩ ∧
        e.expected = ("calls f ²" : Text) ∧
        e.check = .template 1 (.text "spy") [("match", .list [.text "calls f", .text "f"])] ∧
        e.multiline = false ∧
        (ExampleBuilder.mk (custom ++ Handler.defaults) custom fun _ => default).sources [spyTag]
          = [(spyTag, ⟨"run(f)", "calls f ²", 1, false⟩)] :=
    ⟨_, rfl, _, rfl, rfl, rfl, rfl, rfl⟩
  obtain ⟨-, hbuilt⟩ := examples_of_bare hentries hcustom (fun _ => default) ⟨[], [spyTag]⟩ 1
  obtain ⟨-, hitems⟩ := hbuilt _ hexamples
  obtain ⟨-, -, hbare⟩ := hitems 0 _ e (congrArg (·[0]?) hsources) rfl
  refine ⟨custom, hcustom, e, hexamples, hexpected, hcheck, hbare ?_ hmultiline⟩
  exact ⟨"// calls f ²", ⟨[], "calls f ²", false⟩, rfl, rfl, rfl, rfl⟩

end ExampleBuilder

end DocModel
