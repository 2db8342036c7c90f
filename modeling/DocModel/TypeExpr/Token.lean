import DocModel.Text.Alphanumeric
import DocModel.Text.Digit
import DocModel.Text.Quoted

/-!
# Tokens of type expressions

The text between the braces of a tag is a sequence of tokens with blank characters in
between. There are five kinds: the ellipsis `...`, the opening `.<` of an application, a
literal in quotes, a word (a dotted name or a number) and a punctuation mark.

`Token.read?` takes one token off the front of a text, and `Token.scan` cuts a whole text.
A token always takes at least one character, so a text has at most as many tokens as
characters.
-/

namespace DocModel.TypeExpr

/-- **A token** of a type expression. -/
inductive Token where
  /-- `...` -/
  | ellipsis
  /-- `.<` -/
  | opening
  /-- A literal with its quotation marks. -/
  | literal (text : Text)
  /-- A name or a number. -/
  | word (text : Text)
  /-- A punctuation mark. -/
  | mark (char : Char)
  deriving DecidableEq

namespace Token

/-- A token as it was written. -/
def text : Token → Text
  | ellipsis => "..."
  | opening => ".<"
  | literal text => text
  | word text => text
  | mark char => [char]

/-- The punctuation marks of the notation. -/
def isMark (c : Char) : Bool := "()[]\x7b\x7d<>,|:=?!*".toList.contains c

/-- The characters with which a name starts. -/
def isNameStart (c : Char) : Bool := c.isAlpha || c == '_' || c == '$'

/-- The characters of which the parts of a name are made. -/
def isNameChar (c : Char) : Bool := Text.isWordChar c || c == '$'

/-- The characters that join the parts of a name. -/
def isNameJoint (c : Char) : Bool := "./~-".toList.contains c

/-- What follows the opening quotation mark `mark` of a literal: the literal up to and
including its closing mark, and the rest. A backslash takes the next character with it,
which must not be a line feed. -/
def literalTail (mark : Char) : Text → Option (Text × Text)
  | [] => none
  | '\\' :: c :: cs =>
    if c == '\n' then none
    else (literalTail mark cs).map fun (inside, rest) => ('\\' :: c :: inside, rest)
  | c :: cs =>
    if c == mark then some ([c], cs)
    else if c == '\\' then none
    else (literalTail mark cs).map fun (inside, rest) => (c :: inside, rest)

/-- The longest continuation of a name, and the rest: name characters, and joints that a
name character follows. -/
def nameTail : Text → Text × Text
  | [] => ([], [])
  | [c] => if isNameChar c then ([c], []) else ([], [c])
  | c :: d :: cs =>
    if isNameChar c || (isNameJoint c && isNameChar d) then
      let (tail, rest) := nameTail (d :: cs)
      (c :: tail, rest)
    else ([], c :: d :: cs)

/-- The word that introduces the name of a module. -/
def modulePrefix : Text := "module:"

/-- A name at the front of a text, possibly that of a module. -/
def readName? (cs : Text) : Option (Text × Text) :=
  match modulePrefix.isPrefixOf? cs with
  | some (c :: rest) =>
    if isNameStart c then
      let (tail, rest) := nameTail rest
      some (modulePrefix ++ c :: tail, rest)
    else plain cs
  | _ => plain cs
where
  /-- A name that is not introduced as that of a module. -/
  plain : Text → Option (Text × Text)
    | [] => none
    | c :: cs =>
      if isNameStart c then
        let (tail, rest) := nameTail cs
        some (c :: tail, rest)
      else none

/-- A number at the front of a text: digits, and possibly a point with more digits. -/
def readNumber? (cs : Text) : Option (Text × Text) :=
  let whole := cs.takeWhile Text.isDecimal
  if whole.isEmpty then none
  else
    match cs.dropWhile Text.isDecimal with
    | '.' :: rest =>
      let places := rest.takeWhile Text.isDecimal
      if places.isEmpty then some (whole, '.' :: rest)
      else some (whole ++ '.' :: places, rest.dropWhile Text.isDecimal)
    | rest => some (whole, rest)

/-- **The token at the front of a text** that does not start with a blank character, and the
rest of the text. -/
def read? : Text → Option (Token × Text)
  | [] => none
  | '.' :: '.' :: '.' :: cs => some (ellipsis, cs)
  | '.' :: '<' :: cs => some (opening, cs)
  | c :: cs =>
    if c == Text.doubleQuote || c == Text.singleQuote then
      (literalTail c cs).map fun (inside, rest) => (literal (c :: inside), rest)
    else if isMark c then some (mark c, cs)
    else ((readName? (c :: cs)).or (readNumber? (c :: cs))).map fun (w, rest) => (word w, rest)

/-- The tokens of a text of at most `n` characters. If there is none at some place, the
character there is the answer. -/
def scan : Nat → Text → Except Char (List Token)
  | 0, _ => .ok []
  | n + 1, cs =>
    match Text.stripLeft cs with
    | [] => .ok []
    | c :: cs =>
      match read? (c :: cs) with
      | none => .error c
      | some (token, rest) => (scan n rest).map (token :: ·)

/-- **The tokens of a text**, or the first character that no token starts with. -/
def tokens (cs : Text) : Except Char (List Token) := scan cs.length cs

end Token

end DocModel.TypeExpr
