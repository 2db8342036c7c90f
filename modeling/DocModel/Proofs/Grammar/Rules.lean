import DocModel.TypeExpr.Parser

/-!
# The grammar of type expressions

The notation for types, written down as rules over lists of tokens and without any word on how
a reader goes about them. A **phrase** is one of the constructs of the notation, and
`Derives p ts rest a` says that the tokens `ts`, when the tokens `rest` follow them, are a
phrase of kind `p` that means `a`.

What follows matters in three places only. A `?` or a `...` is a whole type when a token follows
that can end a type, or nothing. And a basic type takes every modifier that stands after
it. That rule decides who owns the modifiers after the result of a function: the innermost
type that can take them. So `function():a=` has an optional result, while `function():?=` is
an optional function, as a `?` that stands alone takes no modifiers.

A keyword is no different from a name in these rules. That `function`, `this` and `new` are read
as keywords exactly where they have to be is a theorem (`Derives.accepted`) and not a condition.
-/

namespace DocModel.TypeExpr

/-! ## Modifiers -/

/-- The modifiers that stand after a basic type. -/
inductive Modifier where
  /-- `=` -/
  | optional
  /-- `?` -/
  | nullable
  /-- `!` -/
  | nonNull
  /-- `[]` -/
  | array

namespace Modifier

/-- The tokens of a modifier. -/
def tokens : Modifier → List Token
  | optional => [.mark '=']
  | nullable => [.mark '?']
  | nonNull => [.mark '!']
  | array => [.mark '[', .mark ']']

/-- What a modifier makes of a type. -/
def apply : Modifier → TypeExpr → TypeExpr
  | optional, t => .optional t
  | nullable, t => .nullable t
  | nonNull, t => t
  | array, t => .application (.name "Array") [t]

end Modifier

/-- Whether a modifier stands at the front of some tokens. -/
def StartsModifier (ts : List Token) : Prop := ∃ m : Modifier, m.tokens <+: ts

/-! ## Phrases -/

/-- **The constructs of the notation.** -/
inductive Phrase where
  /-- A type with its prefixes and modifiers. -/
  | type
  /-- One type, or several with `|` between them. -/
  | top
  /-- A type that modifiers can be added to. -/
  | basic
  /-- A field of a record. -/
  | field
  /-- A parameter of a function. -/
  | param
  /-- One phrase or more with a mark between them. -/
  | separated (mark : Char) (item : Phrase)
  /-- Any number of phrases with commas between them, possibly a last comma, and a closing
  mark. -/
  | list (closing : Char) (item : Phrase)

/-- What a phrase means. -/
@[reducible]
def Phrase.Meaning : Phrase → Type
  | type | top | basic => TypeExpr
  | field => Text × Option TypeExpr
  | param => Param
  | separated _ item => item.Meaning × List item.Meaning
  | list _ item => List item.Meaning

/-- The type that a word or a literal stands for by itself. -/
def nameOf? : Token → Option Text
  | .word w => if w = "null" then none else some w
  | .literal text => some text
  | _ => none

/-- The key of a field that a word or a literal stands for; a literal loses its quotation
marks. -/
def keyOf? : Token → Option Text
  | .word w => some w
  | .literal text => some text.tail.dropLast
  | _ => none

/-- The type that some types with `|` between them denote. -/
def joined : TypeExpr × List TypeExpr → TypeExpr
  | (t, []) => t
  | (t, more) => .union (t :: more)

/-- The function type with the given parameters. Of several receivers or constructed types the
last one counts. -/
def functionOf (params : List Param) (result : Option TypeExpr) : TypeExpr :=
  .function (params.filterMap Param.plain?) result
    (params.filterMap Param.receiver?).getLast? (params.filterMap Param.constructed?).getLast?

/-- **The rules of the grammar.** The tokens of the phrase come first, then those that
follow it, and last what the phrase means. -/
inductive Derives : (p : Phrase) → List Token → List Token → p.Meaning → Prop
  /-- `?` where a type can end -/
  | wildcard {rest} : atTerminator rest → Derives .type [.mark '?'] rest .all
  /-- `? type` -/
  | nullable {ts rest t} : Derives .type ts rest t →
      Derives .type (.mark '?' :: ts) rest (.nullable t)
  /-- `! type` -/
  | nonNull {ts rest t} : Derives .type ts rest t → Derives .type (.mark '!' :: ts) rest t
  /-- `...` where a type can end -/
  | anything {rest} : atTerminator rest → Derives .type [.ellipsis] rest (.variadic none)
  /-- `... type` -/
  | variadic {ts rest t} : Derives .type ts rest t →
      Derives .type (.ellipsis :: ts) rest (.variadic (some t))
  /-- `basic modifier*`, with all modifiers that there are -/
  | modified {ts rest t} {ms : List Modifier} :
      Derives .basic ts (ms.flatMap (·.tokens) ++ rest) t → ¬ StartsModifier rest →
      Derives .type (ts ++ ms.flatMap (·.tokens)) rest (ms.foldl (fun t m => m.apply t) t)
  /-- `type ('|' type)*` -/
  | top {ts rest members} : Derives (.separated '|' .type) ts rest members →
      Derives .top ts rest (joined members)
  /-- `*` -/
  | all {rest} : Derives .basic [.mark '*'] rest .all
  /-- `null` -/
  | null {rest} : Derives .basic [.word "null"] rest .null
  /-- A name or a literal -/
  | name {token text rest} : nameOf? token = some text → Derives .basic [token] rest (.name text)
  /-- `name '.<' top (',' top)* '>'`, where the point may be missing -/
  | application {token start text ts rest first more} : nameOf? token = some text →
      start = .opening ∨ start = .mark '<' →
      Derives (.separated ',' .top) ts (.mark '>' :: rest) (first, more) →
      Derives .basic (token :: start :: ts ++ [.mark '>']) rest
        (.application (.name text) (first :: more))
  /-- `'(' ')'` -/
  | noMembers {rest} : Derives .basic [.mark '(', .mark ')'] rest (.union [])
  /-- `'(' type ('|' type)* ')'` -/
  | union {ts rest first more} :
      Derives (.separated '|' .type) ts (.mark ')' :: rest) (first, more) →
      Derives .basic (.mark '(' :: ts ++ [.mark ')']) rest (.union (first :: more))
  /-- `'[' list(top) ']'` -/
  | array {ts rest types} : Derives (.list ']' .top) ts rest types →
      Derives .basic (.mark '[' :: ts) rest (.array types)
  /-- `list(field)` in braces -/
  | record {ts rest fields} : Derives (.list '\x7d' .field) ts rest fields →
      Derives .basic (.mark '\x7b' :: ts) rest (.record fields)
  /-- `function '(' list(param) ')'` -/
  | function {ts rest params} : Derives (.list ')' .param) ts rest params →
      Derives .basic (.word "function" :: .mark '(' :: ts) rest (functionOf params none)
  /-- `function '(' list(param) ')' ':' type` -/
  | functionTo {ts us rest params result} :
      Derives (.list ')' .param) ts (.mark ':' :: us ++ rest) params →
      Derives .type us rest result →
      Derives .basic (.word "function" :: .mark '(' :: ts ++ .mark ':' :: us) rest
        (functionOf params (some result))
  /-- A key alone -/
  | key {token key rest} : keyOf? token = some key → Derives .field [token] rest (key, none)
  /-- `key ':' top` -/
  | field {token key ts rest t} : keyOf? token = some key → Derives .top ts rest t →
      Derives .field (token :: .mark ':' :: ts) rest (key, some t)
  /-- `this ':' top` -/
  | receiver {ts rest t} : Derives .top ts rest t →
      Derives .param (.word "this" :: .mark ':' :: ts) rest (.receiver t)
  /-- `new ':' top` -/
  | constructed {ts rest t} : Derives .top ts rest t →
      Derives .param (.word "new" :: .mark ':' :: ts) rest (.constructed t)
  /-- A parameter proper -/
  | plain {ts rest t} : Derives .top ts rest t → Derives .param ts rest (.plain t)
  /-- A single item -/
  | one {c item ts rest a} : Derives item ts rest a → Derives (.separated c item) ts rest (a, [])
  /-- An item, the mark, and further items -/
  | more {c item ts us rest a b bs} : Derives item ts (.mark c :: us ++ rest) a →
      Derives (.separated c item) us rest (b, bs) →
      Derives (.separated c item) (ts ++ .mark c :: us) rest (a, b :: bs)
  /-- No item -/
  | nil {c item rest} : Derives (.list c item) [.mark c] rest []
  /-- A last item without a comma -/
  | last {c item ts rest a} : Derives item ts (.mark c :: rest) a →
      Derives (.list c item) (ts ++ [.mark c]) rest [a]
  /-- An item, a comma, and possibly further items -/
  | cons {c item ts us rest a as} : Derives item ts (.mark ',' :: us ++ rest) a →
      Derives (.list c item) us rest as →
      Derives (.list c item) (ts ++ .mark ',' :: us) rest (a :: as)

end DocModel.TypeExpr
