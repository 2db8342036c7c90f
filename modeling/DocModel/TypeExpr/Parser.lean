import DocModel.TypeExpr.Basic
import DocModel.TypeExpr.Token

/-!
# Reading type expressions

The grammar, with `list(X)` for items `X` between commas, where a last comma is allowed:

* top: `type ('|' type)*`;
* type: `'?'`, `'!'` or `'...'` before a type, `'?'` or `'...'` alone, or a basic type with
  modifiers `'='`, `'?'`, `'!'`, `'[' ']'` after it;
* basic: `'*'`, `null`, a name or literal with arguments `'.<' top (',' top)* '>'`, a union
  `'(' type ('|' type)* ')'`, an array `'[' list(top) ']'`, a record with `list(key [':' top])`
  in braces, or a function `function '(' list(param) ')' [':' type]`.

Every choice is made by looking at the next token, or the next two. The parsers of the larger
constructs take the parser of their parts as an argument, so the recursion is one function,
`typeAt`, by the depth of nesting. As each construct takes a token before it reads its parts,
a text is never nested deeper than it has tokens.
-/

namespace DocModel.TypeExpr

/-- **Why a text is no type expression.** -/
inductive Problem where
  /-- No token starts with this character. -/
  | strayChar (char : Char)
  /-- There is no token at all. -/
  | empty
  /-- The tokens end where a type should follow. -/
  | endOfInput
  /-- The tokens end inside a record. -/
  | openRecord
  /-- This token, or the end, stands where something else should. -/
  | unexpected (found : Option Token)
  /-- A closing mark should stand here. -/
  | missing (wanted : Char) (found : Option Token)
  deriving DecidableEq

/-- What the tokens `found` start with, as a message shows it. -/
def showFound (ending : Text) (found : Option Token) : Text :=
  match found with
  | some token => Text.quote token.text
  | none => ending

/-- **The message for a problem** in the type expression `source`. -/
def Problem.message (source : Text) : Problem → Text
  | strayChar char => within ("Unexpected character " ++ Text.quote [char])
  | empty => "Empty type expression"
  | endOfInput => within "Unexpected end of input"
  | openRecord => within "Unterminated record type"
  | unexpected found => within ("Unexpected token " ++ showFound "None" found)
  | missing wanted found =>
    within ("Expected " ++ Text.quote [wanted] ++ " but found " ++ showFound "end of input" found)
where
  /-- A message with the text it is about. -/
  within (message : Text) : Text := message ++ " in type '" ++ source ++ "'"

/-- A parser takes tokens off the front of a list. -/
abbrev Parser (α : Type) := List Token → Except Problem (α × List Token)

/-- Tokens that can follow a type. Before one of them, or at the end, `?` and `...` stand for
a whole type. -/
def isTerminator : Token → Bool
  | .mark c => ",)]\x7d>|=".toList.contains c
  | _ => false

/-- Whether a type can end before these tokens. -/
def atTerminator (ts : List Token) : Bool := ts.head?.all isTerminator

/-- The closing mark `wanted`. -/
def close (wanted : Char) : Parser Unit
  | [] => .error (.missing wanted none)
  | t :: ts => if t = .mark wanted then .ok ((), ts) else .error (.missing wanted (some t))

/-! ## Sequences -/

/-- Further items, each after the mark `separator`, up to `n` of them. -/
def following {α : Type} (separator : Char) (item : Parser α) : Nat → Parser (List α)
  | n + 1, t :: ts =>
    if t = .mark separator then do
      let (a, ts) ← item ts
      let (as, ts) ← following separator item n ts
      return (a :: as, ts)
    else .ok ([], t :: ts)
  | _, ts => .ok ([], ts)

/-- One or more items with the mark `separator` between them. -/
def separated {α : Type} (separator : Char) (item : Parser α) : Parser (α × List α) := fun ts => do
  let (a, ts) ← item ts
  let (as, ts) ← following separator item ts.length ts
  return ((a, as), ts)

/-- Items with commas between them up to and including the mark `closing`, in at most `n`
rounds. A comma may follow the last item. -/
def items {α : Type} (closing : Char) (item : Parser α) : Nat → Parser (List α)
  | 0, _ => .error .endOfInput
  | n + 1, ts =>
    if ts.head? = some (.mark closing) then .ok ([], ts.tail)
    else do
      let (a, ts) ← item ts
      let ts ←
        match ts with
        | .mark ',' :: ts => .ok ts
        | ts => if ts.head? = some (.mark closing) then .ok ts else .error (.unexpected ts.head?)
      let (as, ts) ← items closing item n ts
      return (a :: as, ts)

/-- `list(item)` and the closing mark. -/
def list {α : Type} (closing : Char) (item : Parser α) : Parser (List α) := fun ts =>
  items closing item (ts.length + 1) ts

/-! ## The constructs -/

/-- A type, or several with `|` between them. -/
def top (type : Parser TypeExpr) : Parser TypeExpr := fun ts => do
  let ((t, more), ts) ← separated '|' type ts
  return (if more.isEmpty then t else .union (t :: more), ts)

/-- The arguments after the name of a generic type, if there are any. -/
def arguments (type : Parser TypeExpr) (base : TypeExpr) : Parser TypeExpr := fun ts =>
  match ts with
  | .opening :: ts | .mark '<' :: ts => do
    let ((t, more), ts) ← separated ',' (top type) ts
    let (_, ts) ← close '>' ts
    return (.application base (t :: more), ts)
  | ts => .ok (base, ts)

/-- The members of a union after its opening parenthesis. -/
def unionMembers (type : Parser TypeExpr) : Parser TypeExpr := fun ts =>
  if ts.head? = some (.mark ')') then .ok (.union [], ts.tail)
  else do
    let ((t, more), ts) ← separated '|' type ts
    let (_, ts) ← close ')' ts
    return (.union (t :: more), ts)

/-- The key of a record field: a word, or a literal without its quotation marks. -/
def fieldKey : Parser Text
  | [] => .error .openRecord
  | .literal text :: ts => .ok (text.tail.dropLast, ts)
  | .word text :: ts => .ok (text, ts)
  | t :: _ => .error (.unexpected (some t))

/-- A field of a record: its key and possibly a type. -/
def field (type : Parser TypeExpr) : Parser (Text × Option TypeExpr) := fun ts => do
  let (key, ts) ← fieldKey ts
  match ts with
  | .mark ':' :: ts => do
    let (t, ts) ← top type ts
    return ((key, some t), ts)
  | ts => return ((key, none), ts)

/-- A parameter of a function type. -/
inductive Param where
  /-- A parameter proper. -/
  | plain (type : TypeExpr)
  /-- `this:T`, the type of the object that the function is called on. -/
  | receiver (type : TypeExpr)
  /-- `new:T`, the type of the object that the function constructs. -/
  | constructed (type : TypeExpr)

/-- The type of a parameter proper. -/
def Param.plain? : Param → Option TypeExpr
  | plain t => some t
  | _ => none

/-- The type in `this:T`. -/
def Param.receiver? : Param → Option TypeExpr
  | receiver t => some t
  | _ => none

/-- The type in `new:T`. -/
def Param.constructed? : Param → Option TypeExpr
  | constructed t => some t
  | _ => none

/-- A parameter; the words `this` and `new` are special only before a colon. -/
def param (type : Parser TypeExpr) : Parser Param := fun ts =>
  match ts with
  | .word w :: .mark ':' :: rest =>
    if w = "this" then do
      let (t, ts) ← top type rest
      return (.receiver t, ts)
    else if w = "new" then do
      let (t, ts) ← top type rest
      return (.constructed t, ts)
    else plain ts
  | ts => plain ts
where
  /-- A parameter proper. -/
  plain : Parser Param := fun ts => do
    let (t, ts) ← top type ts
    return (.plain t, ts)

/-- A function type after `function` and its opening parenthesis. Of several receivers or
constructed types the last one counts. -/
def functionType (type : Parser TypeExpr) : Parser TypeExpr := fun ts => do
  let (params, ts) ← list ')' (param type) ts
  let (result, ts) ←
    match ts with
    | .mark ':' :: ts => do
      let (t, ts) ← type ts
      pure (some t, ts)
    | ts => pure (none, ts)
  return (.function (params.filterMap Param.plain?) result
    (params.filterMap Param.receiver?).getLast? (params.filterMap Param.constructed?).getLast?, ts)

/-- A basic type, to which modifiers may be added. The words `function` and `null` are special,
the first only before an opening parenthesis. -/
def basic (type : Parser TypeExpr) : Parser TypeExpr
  | [] => .error .endOfInput
  | .mark '*' :: ts => .ok (.all, ts)
  | .mark '(' :: ts => unionMembers type ts
  | .mark '[' :: ts => do
    let (ts', rest) ← list ']' (top type) ts
    return (.array ts', rest)
  | .mark '\x7b' :: ts => do
    let (fields, rest) ← list '\x7d' (field type) ts
    return (.record fields, rest)
  | .word w :: ts =>
    if w = "function" ∧ ts.head? = some (.mark '(') then functionType type ts.tail
    else if w = "null" then .ok (.null, ts)
    else arguments type (.name w) ts
  | .literal text :: ts => arguments type (.name text) ts
  | t :: _ => .error (.unexpected (some t))

/-- A type with the modifiers that follow it. `T[]` is short for `Array.<T>`. -/
def modified : TypeExpr → List Token → TypeExpr × List Token
  | t, .mark '=' :: ts => modified (.optional t) ts
  | t, .mark '?' :: ts => modified (.nullable t) ts
  | t, .mark '!' :: ts => modified t ts
  | t, .mark '[' :: .mark ']' :: ts => modified (.application (.name "Array") [t]) ts
  | t, ts => (t, ts)

/-- **A type from tokens that are nested at most `n` deep.** Without tokens the depth is zero,
and a type is missing. -/
def typeAt : Nat → Parser TypeExpr
  | 0, _ => .error .endOfInput
  | n + 1, .mark '?' :: ts =>
    if atTerminator ts then .ok (.all, ts)
    else do
      let (t, ts) ← typeAt n ts
      return (.nullable t, ts)
  | n + 1, .mark '!' :: ts => typeAt n ts
  | n + 1, .ellipsis :: ts =>
    if atTerminator ts then .ok (.variadic none, ts)
    else do
      let (t, ts) ← typeAt n ts
      return (.variadic (some t), ts)
  | n + 1, ts => do
    let (t, ts) ← basic (typeAt n) ts
    return modified t ts

/-- A type from all of the given tokens. -/
def ofTokens (ts : List Token) : Except Problem TypeExpr :=
  if ts.isEmpty then .error .empty
  else do
    let (t, rest) ← top (typeAt ts.length) ts
    match rest with
    | [] => return t
    | found :: _ => .error (.unexpected (some found))

/-- **The type expression that a text denotes.** -/
def parse (source : Text) : Except Problem TypeExpr :=
  match Token.tokens source with
  | .error char => .error (.strayChar char)
  | .ok ts => ofTokens ts

end DocModel.TypeExpr
