import DocModel.Text.Basic

/-!
# Type expressions

A tag of a doc comment may carry a type in braces, as in `{Array.<string>|null}`. Type
expressions form the closed family `TypeExpr`: names, the literals `*` and `null`, and the
ways of building a type from others. What may be left out in the notation (the type of the
rest parameters, of a record field, of a function's result) is an `Option`.

`TypeExpr.format` writes a type expression the way documentation pages show it. The notation
is meant for readers: unions drop their parentheses, the arguments of an application are
joined like a union, and a record is not closed.
-/

namespace DocModel

/-- **A type expression.** -/
inductive TypeExpr where
  /-- A type by its name, or a literal in quotes, as it was written. -/
  | name (text : Text)
  /-- The type of all values, `*`. -/
  | all
  /-- The type of the null value. -/
  | null
  /-- `?T`: a value of the type or null. -/
  | nullable (inner : TypeExpr)
  /-- `T=`: a parameter that may be left out. -/
  | optional (inner : TypeExpr)
  /-- `(A|B)`: a value of one of the types. -/
  | union (members : List TypeExpr)
  /-- `...T`: any number of further parameters. -/
  | variadic (inner : Option TypeExpr)
  /-- `[A, B]`: an array with these items. -/
  | array (items : List TypeExpr)
  /-- `Base.<A, B>`: a generic type with its arguments. -/
  | application (base : TypeExpr) (arguments : List TypeExpr)
  /-- `{key: T}`: an object with these fields. -/
  | record (fields : List (Text × Option TypeExpr))
  /-- `function(this:T, A, B):R`: a function, with the type of the object it is called on
  and the type of the object it constructs. -/
  | function (params : List TypeExpr) (result receiver constructed : Option TypeExpr)

namespace TypeExpr

mutual

/-- **The display form of a type expression.** -/
def format : TypeExpr → Text
  | name text => text
  | all => "*"
  | null => "null"
  | nullable inner => "?" ++ inner.format
  | optional inner => inner.format ++ "?"
  | union members => Text.join "|" (formatEach members)
  | variadic inner => "..." ++ formatOption inner
  | array items => "[" ++ Text.join ", " (formatEach items) ++ "]"
  | application base arguments =>
    base.format ++ ".<" ++ Text.join "|" (formatEach arguments) ++ ">"
  | record fields => "\x7b" ++ Text.join ", " (formatFields fields)
  | function params result _ _ =>
    "function(" ++ Text.join ", " (formatEach params) ++ "):" ++ formatOption result

/-- The display forms of several type expressions. -/
def formatEach : List TypeExpr → List Text
  | [] => []
  | t :: ts => t.format :: formatEach ts

/-- The display form of a type that may have been left out: every value is then admitted. -/
def formatOption : Option TypeExpr → Text
  | none => "*"
  | some t => t.format

/-- The display forms of the fields of a record. -/
def formatFields : List (Text × Option TypeExpr) → List Text
  | [] => []
  | (key, value) :: fields => (key ++ ":" ++ formatOption value) :: formatFields fields

end

section Format

variable (text : Text) (inner : TypeExpr) (ts : List TypeExpr) (o : Option TypeExpr)

@[simp] theorem format_name : (name text).format = text := rfl

@[simp] theorem format_all : all.format = ("*" : Text) := rfl

@[simp] theorem format_null : null.format = ("null" : Text) := rfl

@[simp] theorem format_nullable : (nullable inner).format = "?" ++ inner.format := rfl

@[simp] theorem format_variadic : (variadic o).format = "..." ++ (o.getD all).format := by
  cases o <;> rfl

theorem formatEach_eq_map (ts : List TypeExpr) : formatEach ts = ts.map format := by
  induction ts with
  | nil => rfl
  | cons t ts ih => simp [formatEach, ih]

@[simp] theorem format_union : (union ts).format = Text.join "|" (ts.map format) :=
  congrArg (Text.join "|") (formatEach_eq_map ts)

@[simp] theorem format_array :
    (array ts).format = "[" ++ Text.join ", " (ts.map format) ++ "]" :=
  congrArg (fun parts => "[" ++ Text.join ", " parts ++ "]") (formatEach_eq_map ts)

@[simp] theorem format_application :
    (application inner ts).format
      = inner.format ++ ".<" ++ Text.join "|" (ts.map format) ++ ">" :=
  congrArg (fun parts => inner.format ++ ".<" ++ Text.join "|" parts ++ ">") (formatEach_eq_map ts)

@[simp] theorem format_function (receiver constructed : Option TypeExpr) :
    (function ts o receiver constructed).format
      = "function(" ++ Text.join ", " (ts.map format) ++ "):" ++ (o.getD all).format := by
  rw [← formatEach_eq_map]
  cases o <;> rfl

end Format

end TypeExpr

end DocModel
