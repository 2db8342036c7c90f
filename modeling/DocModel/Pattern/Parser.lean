import DocModel.Pattern.Basic
import DocModel.Text.Quoted

/-!
# Reading patterns

The notation: a character stands for itself, `.` for any character but a line feed, `[...]`
and `[^...]` for sets, `\w`, `\d`, `\s` and their capitals for classes, `^`, `$`, `\b` and `\B`
for places, `|` for alternatives, `(...)`, `(?:...)` and `(?P<name>...)` for groups,
and `*`, `+`, `?` and `{m,n}` for repetition, followed by `?` for as few rounds as possible.
`(?i)` at the start makes letters stand for both cases.

There is more to the usual notation: looking ahead and back, references to groups, conditions,
groups and repetitions that give nothing back, comments, other flags, and characters by number or by
name. None of that is read here. It is not taken for a mistake either, but reported as notation that
is not supported.

A pattern that cannot be read is reported with a place in it. Which of two faults is reported
follows from the reading order: the next character or escape is always known before the current
one is interpreted, so a backslash at the very end is noticed one step early.
-/

namespace DocModel.Pattern

/-! ## Faults -/

/-- **What is wrong with a pattern.** -/
inductive Fault where
  | danglingEscape
  | badEscape (char : Char)
  | openSet
  | badRange (first last : Text)
  | nothingToRepeat
  | multipleRepeat
  | reversedBounds
  | openGroup
  | strayParenthesis
  | endOfPattern
  | unknownExtension (text : Text)
  | missingName
  | openName
  | badName (name : Text)
  | repeatedName (name : Text) (number previous : Nat)
  | openFlags
  | unknownFlag
  | lateFlags
  | badReference (number : Nat)
  /-- There may be nothing wrong, but the notation is not read here. -/
  | unsupported (text : Text)
  deriving DecidableEq

/-- A fault and the place in the pattern that it is reported for. -/
structure Problem where
  /-- What is wrong. -/
  fault : Fault
  /-- The number of characters before the place. -/
  position : Nat
  deriving DecidableEq

/-- What messages call a fault. -/
def Fault.description : Fault → Text
  | danglingEscape => "bad escape (end of pattern)"
  | badEscape char => "bad escape " ++ ['\\', char]
  | openSet => "unterminated character set"
  | badRange first last => "bad character range " ++ first ++ "-" ++ last
  | nothingToRepeat => "nothing to repeat"
  | multipleRepeat => "multiple repeat"
  | reversedBounds => "min repeat greater than max repeat"
  | openGroup => "missing ), unterminated subpattern"
  | strayParenthesis => "unbalanced parenthesis"
  | endOfPattern => "unexpected end of pattern"
  | unknownExtension text => "unknown extension ?" ++ text
  | missingName => "missing group name"
  | openName => "missing >, unterminated name"
  | badName name => "bad character in group name " ++ Text.quote name
  | repeatedName name number previous =>
    "redefinition of group name " ++ Text.quote name ++ " as group " ++ Text.ofNat number
      ++ "; was group " ++ Text.ofNat previous
  | openFlags => "missing -, : or )"
  | unknownFlag => "unknown flag"
  | lateFlags => "global flags not at the start of the expression"
  | badReference number => "invalid group reference " ++ Text.ofNat number
  | unsupported text => "unsupported notation " ++ text

/-- **The message for a problem** in the pattern `source`. In a pattern of several lines the
line and the column are given as well. -/
def Problem.message (source : Text) (p : Problem) : Text :=
  let place := p.fault.description ++ " at position " ++ Text.ofNat p.position
  if source.elem '\n' then
    let before := source.take p.position
    let column := (before.reverse.takeWhile (· != '\n')).length + 1
    place ++ " (line " ++ Text.ofNat (before.count '\n' + 1) ++ ", column "
      ++ Text.ofNat column ++ ")"
  else place

/-! ## Symbols -/

/-- A symbol of a pattern: a character, or a backslash with the character after it. -/
inductive Symbol where
  /-- A character on its own. -/
  | plain (char : Char)
  /-- A character after a backslash. -/
  | escaped (char : Char)
  /-- A backslash at the end. -/
  | dangling
  deriving DecidableEq

/-- A symbol as it was written. -/
def Symbol.text : Symbol → Text
  | plain char => [char]
  | escaped char => ['\\', char]
  | dangling => ['\\']

/-- The symbols of a pattern. -/
def symbols : Text → List Symbol
  | [] => []
  | ['\\'] => [.dangling]
  | '\\' :: c :: cs => .escaped c :: symbols cs
  | c :: cs => .plain c :: symbols cs

/-- **A reader**: the symbols that remain, and what has been learnt from those before them. -/
structure Reader where
  /-- The number of characters before the next symbol. -/
  position : Nat
  /-- The symbols that remain. -/
  rest : List Symbol
  /-- The number of groups that have been opened. -/
  groups : Nat
  /-- The names of groups, with their numbers. -/
  names : List (Text × Nat)
  /-- Whether letters stand for both of their cases. -/
  fold : Bool

namespace Reader

/-- The next symbol, which must not be a backslash at the end. -/
def check (r : Reader) : Except Problem Reader :=
  match r.rest with
  | .dangling :: _ => .error ⟨.danglingEscape, r.position⟩
  | _ => .ok r

/-- Goes on by one symbol. -/
def advance (r : Reader) : Except Problem Reader :=
  match r.rest with
  | [] => .ok r
  | s :: rest => check { r with position := r.position + s.text.length, rest }

/-- Goes on by one symbol if it is the given character. -/
def skip (char : Char) (r : Reader) : Except Problem (Bool × Reader) :=
  if r.rest.head? = some (.plain char) then return (true, ← r.advance) else return (false, r)

/-- Decimal digits, up to `n` of them. -/
def digits : Nat → Reader → Except Problem (Text × Reader)
  | 0, r => return ([], r)
  | n + 1, r =>
    match r.rest with
    | .plain c :: _ =>
      if c.isDigit then do
        let r ← r.advance
        let (ds, r) ← digits n r
        return (c :: ds, r)
      else return ([], r)
    | _ => return ([], r)

/-- The symbols up to the character `closing`, up to `n` of them, with that character. Nothing if
the pattern ends before it. -/
def upTo (closing : Char) : Nat → Reader → Except Problem ((Option Text × Text) × Reader)
  | 0, r => return ((none, []), r)
  | n + 1, r =>
    match r.rest with
    | [] => return ((none, []), r)
    | s :: _ => do
      let r ← r.advance
      if s = .plain closing then return ((some [], []), r)
      else
        let ((name, seen), r) ← upTo closing n r
        return ((name.map (s.text ++ ·), s.text ++ seen), r)

end Reader

/-! ## Escapes and sets -/

/-- The character that a letter after a backslash stands for. -/
def controlEscape? (c : Char) : Option Char :=
  ([('a', '\x07'), ('f', '\x0c'), ('n', '\n'), ('r', '\r'), ('t', '\t'), ('v', '\x0b')] :
    List (Char × Char)).lookup c

/-- The class that a letter after a backslash stands for. -/
def classEscape? (c : Char) : Option CharClass :=
  ([('w', .word false), ('W', .word true), ('d', .digit false), ('D', .digit true),
    ('s', .blank false), ('S', .blank true)] : List (Char × CharClass)).lookup c

/-- The place that a letter after a backslash stands for. -/
def placeEscape? (c : Char) : Option Regex :=
  if c = 'b' then some (.boundary false) else if c = 'B' then some (.boundary true) else none

/-- Whether a letter after a backslash starts a character that is given by number or by name. -/
def isCodeEscape (c : Char) : Bool := c == 'x' || c == 'u' || c == 'U' || c == 'N'

/-- Whether a character is an octal digit. -/
def isOctal (c : Char) : Bool := '0' ≤ c && c ≤ '7'

/-- The class that a symbol stands for inside a set. -/
def setItem (position : Nat) : Symbol → Except Problem CharClass
  | .plain c => .ok (.range c c)
  | .dangling => .error ⟨.danglingEscape, position⟩
  | .escaped c =>
    match classEscape? c, controlEscape? c with
    | some cls, _ => .ok cls
    | none, some d => .ok (.range d d)
    | none, none =>
      if c = 'b' then .ok (.range '\x08' '\x08')
      else if isCodeEscape c || isOctal c then .error ⟨.unsupported ['\\', c], position⟩
      else if c.isAlphanum then .error ⟨.badEscape c, position⟩
      else .ok (.range c c)

/-- The single character of a class, if it has only one. -/
def singleChar? : CharClass → Option Char
  | .range first last => if first = last then some first else none
  | _ => none

/-- The classes of a set up to its closing bracket, in at most `n` rounds. `opening` is the place
of the opening bracket, and `found` says whether there has been a class before: a closing bracket
in the first place is a character of the set. -/
def setItems (opening : Nat) : Nat → Bool → Reader → Except Problem (List CharClass × Reader)
  | 0, _, _ => .error ⟨.openSet, opening⟩
  | n + 1, found, r =>
    match r.rest with
    | [] => .error ⟨.openSet, opening⟩
    | s :: _ => do
      let here := r.position
      let r ← r.advance
      if s = .plain ']' ∧ found then return ([], r)
      else
        let item ← setItem here s
        let (dash, r) ← r.skip '-'
        if !dash then
          let (items, r) ← setItems opening n true r
          return (item :: items, r)
        else
          match r.rest with
          | [] => .error ⟨.openSet, opening⟩
          | s' :: _ =>
            let there := r.position
            let r ← r.advance
            if s' = .plain ']' then return ([item, .range '-' '-'], r)
            else
              let item' ← setItem there s'
              match singleChar? item, singleChar? item' with
              | some first, some last =>
                if last.toNat < first.toNat then .error ⟨.badRange s.text s'.text, here⟩
                else
                  let (items, r) ← setItems opening n true r
                  return (.range first last :: items, r)
              | _, _ => .error ⟨.badRange s.text s'.text, here⟩

/-- A set after its opening bracket. -/
def set (opening : Nat) (r : Reader) : Except Problem (Regex × Reader) := do
  let (inverted, r) ← r.skip '^'
  let (items, r) ← setItems opening (r.rest.length + 1) false r
  return (.set inverted r.fold items, r)

/-! ## Sequences, groups and repetition -/

/-- How a part of a sequence can be continued. -/
inductive PartKind where
  /-- It can be repeated. -/
  | simple
  /-- It is a place and cannot be repeated. -/
  | place
  /-- It is repeated already. -/
  | repeated
  deriving DecidableEq

/-- A part of a sequence. -/
structure Part where
  /-- Its tree. -/
  regex : Regex
  /-- How it can be continued. -/
  kind : PartKind

/-- What is wrong with a backslash and a digit `c` at the place `here`: a reference to a group that
has not been opened. Other references and octal numbers are not read. -/
def numberEscape (here : Nat) (c : Char) (r : Reader) : Except Problem Problem := do
  let (more, r) ← r.digits 1
  let number := (Text.decimal? (c :: more)).getD 0
  let octal : Bool :=
    match c :: more, r.rest with
    | [c, d], .plain e :: _ => isOctal c && isOctal d && isOctal e
    | _, _ => false
  if c = '0' ∨ octal ∨ number ≤ r.groups then
    return ⟨.unsupported ('\\' :: c :: more), here⟩
  else return ⟨.badReference number, here + 1⟩

/-- The part that a symbol after a backslash stands for. -/
def escape (here : Nat) (c : Char) (r : Reader) : Except Problem (Part × Reader) :=
  match placeEscape? c, classEscape? c, controlEscape? c with
  | some place, _, _ => return (⟨place, .place⟩, r)
  | none, some cls, _ => return (⟨.set false false [cls], .simple⟩, r)
  | none, none, some d => return (⟨.char r.fold d, .simple⟩, r)
  | none, none, none =>
    if c.isDigit then do .error (← numberEscape here c r)
    else if c = 'A' || c = 'Z' || isCodeEscape c then .error ⟨.unsupported ['\\', c], here⟩
    else if c.isAlpha then .error ⟨.badEscape c, here⟩
    else return (⟨.char r.fold c, .simple⟩, r)

/-- The bounds of a repetition after its first character `c`, or nothing if that is a character
like any other. -/
def bounds (c : Char) (r : Reader) : Except Problem (Option (Nat × Option Nat × Reader)) :=
  if c = '*' then return some (0, none, r)
  else if c = '+' then return some (1, none, r)
  else if c = '?' then return some (0, some 1, r)
  else if r.rest.head? = some (.plain '\x7d') then return none
  else do
    let here := r.position
    let (low, r) ← r.digits r.rest.length
    let (comma, r) ← r.skip ','
    let (high, r) ← if comma then r.digits r.rest.length else pure (low, r)
    let (closed, r) ← r.skip '\x7d'
    if !closed then return none
    else
      let least := (Text.decimal? low).getD 0
      let most := Text.decimal? high
      if most.any (· < least) then .error ⟨.reversedBounds, here⟩
      else return some (least, most, r)

/-- A part with the repetition that starts with the character `c` at the place `here`. -/
def repeated (here : Nat) (least : Nat) (most : Option Nat) (parts : List Part) (r : Reader) :
    Except Problem (List Part × Reader) :=
  match parts with
  | [] | ⟨_, .place⟩ :: _ => .error ⟨.nothingToRepeat, here⟩
  | ⟨_, .repeated⟩ :: _ => .error ⟨.multipleRepeat, here⟩
  | ⟨regex, .simple⟩ :: parts => do
    let (lazy, r) ← r.skip '?'
    if lazy then return (⟨.iterate least most false regex, .repeated⟩ :: parts, r)
    else
      let (possessive, r) ← r.skip '+'
      if possessive then .error ⟨.unsupported "+ after a repetition", here⟩
      else return (⟨.iterate least most true regex, .repeated⟩ :: parts, r)

/-- Whether a text can name a group: a word that does not start with a numeral. -/
def isGroupName : Text → Bool
  | [] => false
  | c :: cs => Text.isWordChar c && !Text.isDigit c && cs.all Text.isWordChar

/-- What stands after the opening parenthesis of a group. -/
inductive GroupHead where
  /-- A group whose text is remembered. -/
  | capturing
  /-- A group that only holds its parts together. -/
  | bare
  /-- Settings for the whole pattern, and no group. -/
  | settings

/-- The name of a group, registered under the next number. -/
def groupName (r : Reader) : Except Problem (GroupHead × Reader) := do
  let ((name, seen), r') ← r.upTo '>' (r.rest.length + 1)
  match name with
  | none =>
    if seen.isEmpty then .error ⟨.missingName, r'.position⟩
    else .error ⟨.openName, r.position⟩
  | some [] => .error ⟨.missingName, r.position⟩
  | some name =>
    if !isGroupName name then .error ⟨.badName name, r.position⟩
    else
      let number := r'.groups + 1
      match r'.names.lookup name with
      | some previous => .error ⟨.repeatedName name number previous, r.position⟩
      | none => return (.capturing, { r' with names := (name, number) :: r'.names })

/-- The letters of the flags. -/
def flagLetters : Text := "iLmsxau"

/-- What stands after an opening parenthesis at the place `opening`. `first` says whether the
parenthesis is at the start of the whole pattern. -/
def groupHead (opening : Nat) (first : Bool) (r : Reader) :
    Except Problem (GroupHead × Reader) := do
  let (question, r) ← r.skip '?'
  if !question then return (.capturing, r)
  else
    match r.rest with
    | [] => .error ⟨.endOfPattern, r.position⟩
    | .plain ':' :: _ => return (.bare, ← r.advance)
    | .plain 'P' :: _ => do
      let r ← r.advance
      let (angle, r) ← r.skip '<'
      if angle then groupName r
      else
        match r.rest with
        | [] => .error ⟨.endOfPattern, r.position⟩
        | s :: _ => do
          let _ ← r.advance
          let fault : Fault :=
            if s = .plain '=' then .unsupported "(?P=" else .unknownExtension ('P' :: s.text)
          .error ⟨fault, opening + 1⟩
    | .plain '<' :: _ => do
      let r ← r.advance
      match r.rest with
      | [] => .error ⟨.endOfPattern, r.position⟩
      | s :: _ => do
        let _ ← r.advance
        let fault : Fault :=
          if s = .plain '=' ∨ s = .plain '!' then .unsupported ("(?<" ++ s.text)
          else .unknownExtension ('<' :: s.text)
        .error ⟨fault, opening + 1⟩
    | .plain 'i' :: _ => do
      let r ← r.advance
      match r.rest with
      | [] => .error ⟨.openFlags, r.position⟩
      | .plain ')' :: _ => do
        let r ← r.advance
        if first then return (.settings, { r with fold := true })
        else .error ⟨.lateFlags, opening⟩
      | s :: _ => do
        let _ ← r.advance
        if (flagLetters ++ "-:").any (s = .plain ·) then
          .error ⟨.unsupported ("(?i" ++ s.text), opening⟩
        else .error ⟨if s.text.all (·.isAlpha) then .unknownFlag else .openFlags, r.position⟩
    | s :: _ => do
      let _ ← r.advance
      if (flagLetters ++ "-#=!(>").any (s = .plain ·) then
        .error ⟨.unsupported ("(?" ++ s.text), opening⟩
      else .error ⟨.unknownExtension s.text, opening + 1⟩

mutual

/-- Alternatives, up to the end or a closing parenthesis. `n` bounds the number of symbols that
are read, and `first` says whether this is the start of the whole pattern. -/
def alternatives : Nat → Bool → Reader → Except Problem (Regex × Reader)
  | 0, _, r => return (.empty, r)
  | n + 1, first, r => do
    let (regex, r) ← parts n first [] r
    match r.rest with
    | .plain '|' :: _ => do
      let r ← r.advance
      let (other, r) ← alternatives n false r
      return (.alt regex other, r)
    | _ => return (regex, r)

/-- The parts of a sequence; those read already are given last to first. -/
def parts : Nat → Bool → List Part → Reader → Except Problem (Regex × Reader)
  | 0, _, read, r => return (.sequence (read.reverse.map (·.regex)), r)
  | n + 1, first, read, r =>
    match r.rest with
    | [] | .plain '|' :: _ | .plain ')' :: _ =>
      return (.sequence (read.reverse.map (·.regex)), r)
    | s :: _ => do
      let here := r.position
      let r ← r.advance
      match s with
      | .dangling => .error ⟨.danglingEscape, here⟩
      | .escaped c => do
        let (part, r) ← escape here c r
        parts n first (part :: read) r
      | .plain '.' => parts n first (⟨.dot, .simple⟩ :: read) r
      | .plain '^' => parts n first (⟨.start, .place⟩ :: read) r
      | .plain '$' => parts n first (⟨.stop, .place⟩ :: read) r
      | .plain '[' => do
        let (regex, r) ← set here r
        parts n first (⟨regex, .simple⟩ :: read) r
      | .plain '(' => do
        let (head, r) ← groupHead here (first && read.isEmpty) r
        match head with
        | .settings => parts n first read r
        | .bare => do
          let (inner, r) ← alternatives n false r
          let (closed, r) ← r.skip ')'
          if closed then parts n first (⟨inner, .simple⟩ :: read) r
          else .error ⟨.openGroup, here⟩
        | .capturing => do
          let number := r.groups + 1
          let (inner, r) ← alternatives n false { r with groups := number }
          let (closed, r) ← r.skip ')'
          if closed then parts n first (⟨.group number inner, .simple⟩ :: read) r
          else .error ⟨.openGroup, here⟩
      | .plain c =>
        if c = '*' ∨ c = '+' ∨ c = '?' ∨ c = '\x7b' then do
          match ← bounds c r with
          | none => parts n first (⟨.char r.fold c, .simple⟩ :: read) r
          | some (least, most, r) => do
            let (read, r) ← repeated here least most read r
            parts n first read r
        else parts n first (⟨.char r.fold c, .simple⟩ :: read) r

end

/-- **The pattern that a text denotes.** -/
def parse (source : Text) : Except Problem Pattern := do
  let r ← Reader.check ⟨0, symbols source, 0, [], false⟩
  let (regex, r) ← alternatives (2 * r.rest.length + 2) true r
  match r.rest with
  | [] => return ⟨source, regex, r.groups⟩
  | _ => .error ⟨.strayParenthesis, r.position⟩

/-- **The compiler of the notation that is read here.** -/
def compile : Compiler := fun source =>
  match parse source with
  | .ok p => .ok p.finder
  | .error problem => .error (problem.message source)

end DocModel.Pattern
