import DocModel.Text.Alphanumeric
import DocModel.Text.Digit
import DocModel.Text.LetterCase

/-!
# Patterns

A pattern describes texts: an example handler recognises an expected value by a pattern, and
a listing can be restricted to the names in which a pattern is found. `Regex` is the tree of
a pattern and `Regex.run` looks for a match by trying the ways in which the parts of the tree
can match one after the other, in a fixed order of preference. The first way that lets the
rest of the pattern match as well is taken.

Where patterns are only used, nothing depends on their trees: a `Finder` is a pattern with any
search at all, and a `Compiler` makes one of a text.

`run` is written in continuation style, with the rest of the pattern as an argument. So
it recurses on the tree alone, and a repetition is a bounded loop: a round after the required
ones has to start at another place than the round before it.
-/

namespace DocModel

/-! ## Sets of characters -/

/-- One part of a set of characters. -/
inductive CharClass where
  /-- All characters from `first` to `last`. -/
  | range (first last : Char)
  /-- The characters of words, or all others. -/
  | word (inverted : Bool)
  /-- The decimal digits, or all others. -/
  | digit (inverted : Bool)
  /-- The blank characters, or all others. -/
  | blank (inverted : Bool)
  deriving DecidableEq

/-- Whether a class has a character; with `fold` a letter stands for both of its cases. -/
def CharClass.has (fold : Bool) (c : Char) : CharClass → Bool
  | range first last =>
    if fold then
      (List.range' first.toNat (last.toNat + 1 - first.toNat)).any fun n =>
        Text.sameLetter (Char.ofNat n) c
    else first.toNat ≤ c.toNat && c.toNat ≤ last.toNat
  | word inverted => Text.isWordChar c != inverted
  | digit inverted => Text.isDecimal c != inverted
  | blank inverted => Text.isBlank c != inverted

/-! ## Trees -/

/-- **The tree of a pattern.** -/
inductive Regex where
  /-- The empty text. -/
  | empty
  /-- One character that belongs to some class or, when inverted, to none. -/
  | set (inverted fold : Bool) (classes : List CharClass)
  /-- The start of the text. -/
  | start
  /-- The end of the text, or the place before a line feed that ends it. -/
  | stop
  /-- A place between a word character and another character, or any other place. An empty
  text has no such places. -/
  | boundary (inverted : Bool)
  /-- One pattern after the other. -/
  | seq (first second : Regex)
  /-- The first pattern or, failing that, the second. -/
  | alt (first second : Regex)
  /-- A pattern whose text is remembered under a number. -/
  | group (number : Nat) (inner : Regex)
  /-- At least `least` and at most `most` rounds of a pattern; as many as possible if
  `greedy`, as few as possible otherwise. -/
  | iterate (least : Nat) (most : Option Nat) (greedy : Bool) (inner : Regex)

namespace Regex

/-- One given character. -/
def char (fold : Bool) (c : Char) : Regex := set false fold [.range c c]

/-- Any character but a line feed. -/
def dot : Regex := set true false [.range '\n' '\n']

/-- Patterns one after the other. -/
def sequence : List Regex → Regex
  | [] => empty
  | [r] => r
  | r :: rs => seq r (sequence rs)

/-! ## Matching -/

/-- **A place in a text while it is matched**, with what the groups have taken so far. -/
structure Cursor where
  /-- The number of characters before the place. -/
  position : Nat
  /-- The character before the place. -/
  previous : Option Char
  /-- The text from the place on. -/
  rest : Text
  /-- The texts of the groups, those taken last in front. -/
  groups : List (Nat × Text)

/-- Whether the text around a place is empty, so that the place has no neighbours at all. -/
def Cursor.inEmptyText (c : Cursor) : Bool := c.previous.isNone && c.rest.isEmpty

/-- Whether exactly one of the two neighbours of a place is a word character. -/
def Cursor.atBoundary (c : Cursor) : Bool :=
  c.previous.any Text.isWordChar != c.rest.head?.any Text.isWordChar

/-- Rounds of a repetition. `step` matches one round, `done` of them have been made, `before` is
the place where the last optional round started, and `k` is what follows. -/
def rounds {α : Type} (step : (Cursor → Option α) → Cursor → Option α)
    (least : Nat) (most : Option Nat) (greedy : Bool) (k : Cursor → Option α) :
    Nat → Nat → Option Nat → Cursor → Option α
  | 0, _, _, c => k c
  | n + 1, done, before, c =>
    if done < least then step (rounds step least most greedy k n (done + 1) before) c
    else
      let more := fun (_ : Unit) =>
        if most.all (done < ·) && before != some c.position then
          step (rounds step least most greedy k n (done + 1) (some c.position)) c
        else none
      if greedy then (more ()).or (k c) else (k c).or (more ())

/-- **The first match of a pattern at a place after which `k` succeeds.** -/
def run {α : Type} : Regex → (Cursor → Option α) → Cursor → Option α
  | empty, k, c => k c
  | set inverted fold classes, k, c =>
    match c.rest with
    | [] => none
    | x :: rest =>
      if classes.any (·.has fold x) != inverted then
        k { c with position := c.position + 1, previous := some x, rest }
      else none
  | start, k, c => if c.position = 0 then k c else none
  | stop, k, c => if c.rest = [] ∨ c.rest = ['\n'] then k c else none
  | boundary inverted, k, c =>
    if !c.inEmptyText && c.atBoundary != inverted then k c else none
  | seq first second, k, c => first.run (second.run k) c
  | alt first second, k, c => (first.run k c).or (second.run k c)
  | group number inner, k, c =>
    inner.run (fun d =>
      k { d with groups := (number, c.rest.take (d.position - c.position)) :: d.groups }) c
  | iterate least most greedy inner, k, c =>
    rounds inner.run least most greedy k (least + c.rest.length + 2) 0 none c

/-- The first place from a given one on where a pattern matches, with the place where the
match ends. -/
def searchFrom (r : Regex) (position : Nat) (previous : Option Char) :
    Text → Option (Text × Cursor)
  | [] => (r.run some ⟨position, previous, [], []⟩).map (([], ·))
  | x :: rest =>
    match r.run some ⟨position, previous, x :: rest, []⟩ with
    | some c => some (x :: rest, c)
    | none => searchFrom r (position + 1) (some x) rest

end Regex

/-! ## Finding matches -/

/-- What a pattern has found: the whole match, and the text of each group, or nothing for
a group that took no part. -/
structure Match where
  /-- The text that the whole pattern matched. -/
  whole : Text
  /-- The texts of the groups, in the order of their opening parentheses. -/
  groups : List (Option Text)

/-- The text of a group, counted from one. -/
def Match.group (m : Match) (number : Nat) : Option Text := (m.groups[number - 1]?).join

/-- **A compiled pattern**: the pattern as it was written, and a search for its first match, which
can be any function. -/
structure Finder where
  /-- The pattern as it was written. -/
  source : Text
  /-- The first match in a text. -/
  search : Text → Option Match

/-- Whether something is found in a text. -/
def Finder.foundIn (f : Finder) (text : Text) : Bool := (f.search text).isSome

/-- **A compiler of patterns**: it gives a compiled pattern, or says what is wrong with the text. -/
abbrev Compiler := Text → Except Text Finder

/-- **A pattern** as it was written, with its tree and the number of its groups. -/
structure Pattern where
  /-- The pattern as it was written. -/
  source : Text
  /-- Its tree. -/
  regex : Regex
  /-- The number of its groups. -/
  groupCount : Nat

namespace Pattern

/-- **The first match of a pattern in a text.** -/
def search (p : Pattern) (text : Text) : Option Match :=
  (p.regex.searchFrom 0 none text).map fun (found, c) =>
    { whole := found.take (found.length - c.rest.length)
      groups := (List.range p.groupCount).map fun i => c.groups.lookup (i + 1) }

/-- A pattern is found as its tree says. -/
def finder (p : Pattern) : Finder := ⟨p.source, p.search⟩

end Pattern

end DocModel
