import DocModel.Example.Builder
import DocModel.Proofs.Comment.Framed
import DocModel.Proofs.Directive.Reading
import DocModel.Proofs.Directive.Sides
import DocModel.Proofs.Example.Lines
import Mathlib.Data.List.Infix

/-!
# Examples that are written and read back

An example is written as a line of code with the first line of its value, `code // => value`; the
other lines of the value follow, indented, and the last of them may stand at the left edge again, as
a closing bracket does. Written into a comment, a list of such examples is read back as it was
(`ExampleBuilder.examples_written`): no line is taken for a tag, for code, or for part of another
example.

What an example may hold is part of its type (`WrittenExample`). The rules are those that the reader
needs: a value has no `//`, which would make its line a pair of its own, and a closing line comes
after an indented one, because it would stand alone otherwise.
-/

namespace DocModel

open Directive Comment

/-- The builder without handlers. -/
def ExampleBuilder.plain (script : ScriptParser) : ExampleBuilder := ⟨[], [], script⟩

/-- A line of a value below its first one: its first character that is not blank is no `@`, and it
has no tabulator, no `//` and no blanks at its end. -/
@[mk_iff]
structure IsLowerLine (line : Text) : Prop where
  first : (Text.stripLeft line).head?.any (· ≠ '@')
  feed_notMem : '\n' ∉ line
  tab_notMem : '\t' ∉ line
  slashes : ¬ ("//" : Text) <:+: line
  stripRight_eq : Text.stripRight line = line

instance : DecidablePred IsLowerLine := fun line => decidable_of_iff' _ (isLowerLine_iff line)

/-- **An example to be written.** -/
structure WrittenExample where
  /-- The code. -/
  code : Text
  /-- The first line of the value. -/
  head : Text
  /-- The indented lines of the value. -/
  body : List Text
  /-- The line at the left edge that closes the value. -/
  closing? : Option Text
  code_trimmed : Text.IsTrimmed code
  code_head : code.head? ≠ some '@'
  head_trimmed : Text.IsTrimmed head
  head_slashes : ¬ ("//" : Text) <:+: head
  body_lower : ∀ line ∈ body, IsLowerLine line ∧ line.head? = some ' '
  closing_lower : ∀ line ∈ closing?, IsLowerLine line ∧ Text.stripLeft line = line
  body_ne_nil : closing?.isSome → body ≠ []

/-! ## Single lines -/

namespace IsLowerLine

variable {line : Text} (h : IsLowerLine line)
include h

theorem not_blank : Text.blank line = false := by
  refine Bool.eq_false_iff.mpr fun hblank => ?_
  have hfirst := h.first
  rw [Text.stripLeft_eq_nil_iff.mpr hblank] at hfirst
  cases hfirst

theorem stays : Stays line where
  feed_notMem := h.feed_notMem
  tagLine?_eq_none := by
    refine tagLine?_of_head fun hat => ?_
    have hfirst := h.first
    rw [hat] at hfirst
    cases hfirst
  not_blank := h.not_blank
  stripRight_eq := h.stripRight_eq

theorem isPairLine_eq_false (recognises : Text → Bool) : isPairLine recognises line = false := by
  rw [isPairLine, pairSides?, sides?_eq_none h.slashes]
  rfl

/-- A line below one that is not indented is kept as it is. -/
theorem relativeLine_zero : relativeLine 0 line = line := by
  rw [relativeLine, Text.expandTabs_of_notMem _ h.tab_notMem]
  rfl

end IsLowerLine

namespace WrittenExample

variable (e : WrittenExample)

/-- The lines of the value below its first one. -/
def lower : List Text := e.body ++ e.closing?.toList

/-- **The lines of an example.** -/
def lines : List Text := writtenPair e.code e.head :: e.lower

/-- **The value of an example.** -/
def value : Text := Text.unlines (e.head :: e.lower)

theorem isLowerLine {line : Text} (h : line ∈ e.lower) : IsLowerLine line := by
  obtain h | h := List.mem_append.mp h
  · exact (e.body_lower line h).1
  · exact (e.closing_lower line (Option.mem_toList.mp h)).1

/-- The line with the code starts at the left edge, with a character that is no `@`. -/
theorem writtenPair_eq_cons :
    ∃ c rest, writtenPair e.code e.head = c :: rest ∧ Text.isBlank c = false ∧ c ≠ '@' := by
  obtain ⟨c, rest, heq, hc⟩ :=
    Text.exists_cons_of_stripLeft e.code_trimmed.stripLeft_eq e.code_trimmed.ne_nil
  refine ⟨c, rest ++ " // => " ++ e.head, by rw [writtenPair, heq]; rfl, hc, ?_⟩
  rintro rfl
  exact e.code_head (by rw [heq]; rfl)

theorem stays_writtenPair : Stays (writtenPair e.code e.head) where
  feed_notMem := by
    simp [writtenPair, e.code_trimmed.feed_notMem, e.head_trimmed.feed_notMem]
  tagLine?_eq_none := by
    obtain ⟨c, rest, heq, hc, hne⟩ := e.writtenPair_eq_cons
    rw [heq]
    refine tagLine?_of_head ?_
    rw [Text.stripLeft_cons hc]
    exact fun hat => hne (Option.some.inj hat)
  not_blank := by
    obtain ⟨c, rest, heq, hc, -⟩ := e.writtenPair_eq_cons
    rw [heq, Text.blank, List.all_cons, hc, Bool.false_and]
  stripRight_eq := Text.stripRight_append e.head_trimmed.stripRight_eq e.head_trimmed.ne_nil

theorem stays {line : Text} (h : line ∈ e.lines) : Stays line := by
  obtain rfl | h := List.mem_cons.mp h
  · exact e.stays_writtenPair
  · exact (e.isLowerLine h).stays

theorem stays_flatMap (es : List WrittenExample) : ∀ line ∈ es.flatMap lines, Stays line := by
  intro line hline
  obtain ⟨e, -, hmem⟩ := List.mem_flatMap.mp hline
  exact e.stays hmem

theorem indent_writtenPair : Text.indent (writtenPair e.code e.head) = [] := by
  obtain ⟨c, rest, heq, hc, -⟩ := e.writtenPair_eq_cons
  rw [heq, Text.indent_cons hc]

theorem indentWidth_writtenPair : Text.indentWidth (writtenPair e.code e.head) = 0 := by
  rw [Text.indentWidth, e.indent_writtenPair]
  rfl

/-! ## Which lines belong to an example -/

section Owned

variable (recognises : Text → Bool)

theorem continues_body {line : Text} (h : line ∈ e.body) :
    continues recognises 0 line = true := by
  obtain ⟨hlower, hspace⟩ := e.body_lower line h
  obtain ⟨rest, rfl⟩ : ∃ rest, line = ' ' :: rest := by
    cases line with
    | nil => cases hspace
    | cons c rest => exact ⟨rest, by rw [Option.some.inj hspace]⟩
  have hindent : 0 < Text.indentWidth (' ' :: rest) := by
    simp [Text.indentWidth, Text.indent, Text.isIndent, Text.expandTabs, Text.expandTabs.go]
  simp [continues, hlower.isPairLine_eq_false, hlower.not_blank, hindent]

theorem not_continues_closing {line : Text} (h : line ∈ e.closing?) :
    continues recognises 0 line = false := by
  obtain ⟨hlower, hstart⟩ := e.closing_lower line h
  obtain ⟨c, rest, rfl, hc⟩ :=
    Text.exists_cons_of_stripLeft hstart hlower.stays.ne_nil
  simp [continues, Text.indentWidth, Text.indent_cons hc, Text.expandTabs, Text.expandTabs.go]

/-- The value goes on over the indented lines. -/
theorem run_lower : run recognises 0 e.lower = e.body := by
  rw [run, lower, List.takeWhile_append_of_pos fun line h => e.continues_body recognises h]
  cases hclosing : e.closing? with
  | none => exact List.append_nil _
  | some line =>
    have hstop := Bool.eq_false_iff.mp (e.not_continues_closing recognises hclosing)
    rw [Option.toList_some, List.takeWhile_cons_of_neg hstop, List.append_nil]

/-- The closing line closes the value. -/
theorem closing?_lower : Directive.closing? recognises 0 e.lower = e.closing? := by
  rw [Directive.closing?, e.run_lower, lower,
    List.dropWhile_append_of_pos fun line h => e.continues_body recognises h]
  cases hclosing : e.closing? with
  | none => exact ite_self none
  | some line =>
    have hbody : e.body.isEmpty = false := by
      rw [List.isEmpty_eq_false_iff]
      exact e.body_ne_nil (by rw [hclosing]; rfl)
    have hstop := Bool.eq_false_iff.mp (e.not_continues_closing recognises hclosing)
    have hlower := (e.closing_lower line hclosing).1
    rw [Option.toList_some, List.dropWhile_cons_of_neg hstop, hbody]
    simp [Option.filter, hlower.not_blank, hlower.isPairLine_eq_false]

/-- All lines below the code belong to the example. -/
theorem owned_lower : owned recognises 0 e.lower = e.lower := by
  rw [owned, e.run_lower, e.closing?_lower, lower]

/-! ## Reading the lines -/

/-- The pair of an example whose code stands on line `n`. -/
def toPair (n : Nat) : Pair := ⟨e.code, e.value, n, !e.body.isEmpty⟩

/-- The pairs of some examples, the first of which starts on line `n`. -/
def pairsFrom : Nat → List WrittenExample → List Pair
  | _, [] => []
  | n, e :: es => e.toPair n :: pairsFrom (n + e.lines.length) es

theorem value_eq : e.value = e.head ++ e.lower.flatMap fun line => '\n' :: relativeLine 0 line := by
  have hkept : (e.lower.flatMap fun line => '\n' :: relativeLine 0 line)
      = e.lower.flatMap fun line => '\n' :: line := by
    refine List.flatMap_congr fun line h => ?_
    rw [(e.isLowerLine h).relativeLine_zero]
  rw [hkept]
  exact Text.unlines_cons e.head e.lower

/-- **A written example is read as its pair**, if no line before it is left over. -/
theorem steps_lines {s : State} (hunclaimed : s.unclaimed = []) (hpreamble : s.preambleLines = [])
    (n : Nat) :
    (s.steps recognises n e.lines).unclaimed = [] ∧
      (s.steps recognises n e.lines).preambleLines = [] ∧
      (s.steps recognises n e.lines).pairs = s.pairs ++ [e.toPair n] := by
  obtain ⟨hnone, hpairs, -, hbefore⟩ := State.steps_pair
    (pairSides?_writtenPair e.code_trimmed e.head_trimmed e.head_slashes recognises)
    (fun line h => (e.isLowerLine h).isPairLine_eq_false recognises) s n
  rw [e.indentWidth_writtenPair, e.owned_lower] at hnone hpairs
  rw [List.drop_length, List.reverse_nil] at hnone
  rw [if_neg (by simpa using e.code_trimmed.ne_nil), ← e.value_eq, e.run_lower] at hpairs
  refine ⟨hnone, hbefore.trans ?_, hpairs⟩
  unfold State.preambleLines at hpreamble
  split
  · next hsome => rwa [if_pos hsome] at hpreamble
  · rw [hunclaimed, List.drop_nil, List.reverse_nil]

/-- **Written examples are read as their pairs**, one behind the other. -/
theorem steps_flatMap_lines (es : List WrittenExample) {s : State} (hunclaimed : s.unclaimed = [])
    (hpreamble : s.preambleLines = []) (n : Nat) :
    (s.steps recognises n (es.flatMap lines)).preambleLines = [] ∧
      (s.steps recognises n (es.flatMap lines)).pairs = s.pairs ++ pairsFrom n es := by
  induction es generalizing s n with
  | nil => exact ⟨hpreamble, (List.append_nil _).symm⟩
  | cons e es ih =>
    -- No line is left over between two examples, so the next one is read as if it were the first.
    obtain ⟨hunclaimed, hpreamble, hpairs⟩ := e.steps_lines recognises hunclaimed hpreamble n
    rw [List.flatMap_cons, State.steps_append]
    obtain ⟨hbefore, hrest⟩ := ih hunclaimed hpreamble (n + e.lines.length)
    refine ⟨hbefore, hrest.trans ?_⟩
    rw [hpairs, List.append_assoc]
    rfl

end Owned

/-- **The block of written examples** has no preamble. -/
theorem parse_block (recognises : Text → Bool) (es : List WrittenExample) :
    Block.parse recognises (Text.unlines (es.flatMap lines))
      = ⟨Text.unlines (es.flatMap lines), [], pairsFrom 0 es⟩ := by
  cases es with
  | nil => rfl
  | cons e es =>
    have hlines :
        Text.lines (Text.unlines ((e :: es).flatMap lines)) = (e :: es).flatMap lines :=
      Text.lines_unlines (List.cons_ne_nil _ _) fun line hline =>
        (stays_flatMap (e :: es) line hline).feed_notMem
    obtain ⟨hpreamble, hpairs⟩ :=
      steps_flatMap_lines recognises (e :: es) (s := .initial) rfl rfl 0
    rw [Block.parse, hlines]
    simp only [hpreamble, hpairs]
    rfl

/-! ## The examples -/

variable (script : ScriptParser)

/-- What is read back without handlers, with the given number and line. -/
def toExample (id : Nat) (line : Int) : Example where
  id
  line
  actual := e.code
  expected := e.value
  multiline := !e.body.isEmpty
  check :=
    if script.acceptsProgram e.code && script.acceptsExpression e.value then .comparison
    else .broken

/-- **The examples that are read back**, numbered from `id`; the first of them stands on line `line`
of the source, and each of the others below the last line of the one before it. -/
def examplesFrom : Nat → Int → List WrittenExample → List Example
  | _, _, [] => []
  | id, line, e :: es =>
    e.toExample script id line :: examplesFrom (id + 1) (line + e.lines.length) es

/-- A builder without handlers makes these examples of the pairs. -/
theorem examplesOfPairs_pairsFrom (start : Int) (id n : Nat) (es : List WrittenExample) :
    (ExampleBuilder.plain script).examplesOfPairs start id (pairsFrom n es)
      = .ok (examplesFrom script id (start + n) es) := by
  induction es generalizing id n with
  | nil => rfl
  | cons e es ih =>
    have hcheck : (ExampleBuilder.plain script).check e.code e.value
        = .ok (e.toExample script id (start + n)).check := by
      show (if script.acceptsProgram e.code && script.acceptsExpression e.value then
        pure Check.comparison else pure Check.broken) = Except.ok (ite _ _ _)
      split <;> rfl
    have hline : start + (n + e.lines.length : Nat) = start + n + e.lines.length := by omega
    rw [pairsFrom, ExampleBuilder.examplesOfPairs]
    show (do let check ← (ExampleBuilder.plain script).check e.code e.value; _) = _
    rw [hcheck, ih, hline]
    rfl

/-- **The comment in which some examples are written.** -/
def comment (es : List WrittenExample) : Text := framed (es.flatMap lines)

end WrittenExample

namespace ExampleBuilder

/-- A builder without handlers takes every block as it stands. -/
theorem readBlock_eq_ok (script : ScriptParser) (text : Text) :
    (ExampleBuilder.plain script).readBlock text
      = .ok (Block.parse (ExampleBuilder.plain script).recognises text) :=
  readBlock_of_custom rfl text

/-- **Examples that are written into a comment are read back**, in one block without setup: each
with its code and its value, and with the line on which it stands. -/
theorem examples_written (script : ScriptParser) (es : List WrittenExample) (start : Int) :
    ∃ doclet, Doclet.parse (WrittenExample.comment es) = .ok doclet ∧
      (ExampleBuilder.plain script).examples doclet start
        = .ok ⟨[⟨Text.unlines (es.flatMap WrittenExample.lines), [],
            WrittenExample.examplesFrom script 1 (start + 2) es⟩]⟩ := by
  have hstays := WrittenExample.stays_flatMap es
  refine ⟨_, parse_framed hstays, ?_⟩
  let tag := verbatimTag (framedTag (es.flatMap WrittenExample.lines))
  have hdescription : tag.description = Text.unlines (es.flatMap WrittenExample.lines) := by
    cases es with
    | nil => rfl
    | cons e es => exact (verbatimTag_framed e.indent_writtenPair hstays).1
  have hexamples : (ExampleBuilder.plain script).examplesOfPairs
      (start + tag.descriptionLine) 1 (WrittenExample.pairsFrom 0 es)
      = .ok (WrittenExample.examplesFrom script 1 (start + 2) es) := by
    cases es with
    | nil => rfl
    | cons e es =>
      have hline : tag.descriptionLine = 2 := (verbatimTag_framed e.indent_writtenPair hstays).2
      rw [WrittenExample.examplesOfPairs_pairsFrom, hline]
      simp
  show (do return (⟨← exampleBlocks _ start 1 [tag]⟩ : Examples)) = _
  rw [exampleBlocks, readBlock_eq_ok, hdescription, WrittenExample.parse_block]
  show (do
    let blocks ← (do
      let examples ← (ExampleBuilder.plain script).examplesOfPairs
        (start + tag.descriptionLine) 1 (WrittenExample.pairsFrom 0 es)
      return [(⟨_, [], examples⟩ : ExampleBlock)])
    return (⟨blocks⟩ : Examples)) = _
  rw [hexamples]
  rfl

/-- An example whose code holds an address, and whose value stands in brackets. -/
def bracketedExample : WrittenExample where
  code := "get('http://a')"
  head := "["
  body := [" 1,", "   2"]
  closing? := some "]"
  code_trimmed := by decide
  code_head := by decide
  head_trimmed := by decide
  head_slashes := by decide
  body_lower := by decide
  closing_lower := by decide
  body_ne_nil := by decide

/-- An example that is written on one line. -/
def shortExample : WrittenExample where
  code := "f()"
  head := "=> 1"
  body := []
  closing? := none
  code_trimmed := by decide
  code_head := by decide
  head_trimmed := by decide
  head_slashes := by decide
  body_lower := by decide
  closing_lower := by decide
  body_ne_nil := by decide

theorem examples_written_bracketed :
    let script : ScriptParser := fun _ => ⟨true, .node "program" true 0 0 none []⟩
    let code : Text := "get('http://a') // => [\n 1,\n   2\n]\nf() // => => 1"
    ∃ doclet, Doclet.parse ("*\n * @examples\n * get('http://a') // => [\n *  1,\n *    2\n * ]\n"
        ++ " * f() // => => 1\n ") = .ok doclet ∧
      (ExampleBuilder.plain script).examples doclet 10 = .ok ⟨[⟨code, [],
        [⟨1, 12, "get('http://a')", "[\n 1,\n   2\n]", true, .broken⟩,
         ⟨2, 16, "f()", "=> 1", false, .broken⟩]⟩]⟩ := by
  intro script code
  obtain ⟨doclet, hparse, hexamples⟩ := examples_written script [bracketedExample, shortExample] 10
  exact ⟨doclet, hparse, hexamples⟩

end ExampleBuilder

end DocModel
