import DocModel.TypeExpr.Basic
import DocModel.Text.Quoted

/-!
# Types handed in as data

A tree that is meant to be a type may come from outside, and then anything may stand where
a type should: a text, a number, a sequence, a record field on its own. `TypeData` has room for
all that. `TypeData.toExpr` turns such a tree into a type expression or names the first part,
in the order of the display form, that is none.
-/

namespace DocModel

/-- **A tree that is meant to be a type.** -/
inductive TypeData where
  /-- Nothing; it stands for the type of all values. -/
  | absent
  /-- A text, which is no type. -/
  | text (t : Text)
  /-- A number, which is no type. -/
  | number (n : Int)
  /-- A truth value, which is no type. -/
  | truth (b : Bool)
  /-- A sequence, which is no type. -/
  | sequence (items : List TypeData)
  /-- A named type. -/
  | name (text : Text)
  /-- The type of all values. -/
  | all
  /-- The type of the null value. -/
  | null
  /-- A nullable type. -/
  | nullable (inner : TypeData)
  /-- An optional type. -/
  | optional (inner : TypeData)
  /-- A union. -/
  | union (members : List TypeData)
  /-- Rest parameters. -/
  | variadic (inner : TypeData)
  /-- An array with given items. -/
  | array (items : List TypeData)
  /-- A generic type with its arguments. -/
  | application (base : TypeData) (arguments : List TypeData)
  /-- A record field, which is a type only inside a record. -/
  | field (key : Text) (value : TypeData)
  /-- A record. -/
  | record (fields : List TypeData)
  /-- A function. -/
  | function (params : List TypeData) (result receiver constructed : TypeData)
  deriving Inhabited

namespace TypeData

/-- What messages call the kind of a part. -/
def kindName : TypeData → Text
  | absent => "NoneType"
  | text _ => "str"
  | number _ => "int"
  | truth _ => "bool"
  | sequence _ => "tuple"
  | name _ => "NameExpression"
  | all => "AllLiteral"
  | null => "NullLiteral"
  | nullable _ => "NullableType"
  | optional _ => "OptionalType"
  | union _ => "UnionType"
  | variadic _ => "RestType"
  | array _ => "ArrayType"
  | application _ _ => "TypeApplication"
  | field _ _ => "FieldType"
  | record _ => "RecordType"
  | function _ _ _ _ => "FunctionType"

/-- A part with named arguments, as messages show it. -/
def displayCall (kind : Text) (arguments : List (Text × Text)) : Text :=
  kind ++ "(" ++ Text.join ", " (arguments.map fun (key, v) => key ++ "=" ++ v) ++ ")"

/-- A sequence, as messages show it: a single item is followed by a comma. -/
def displaySequence : List Text → Text
  | [item] => "(" ++ item ++ ",)"
  | items => "(" ++ Text.join ", " items ++ ")"

mutual

/-- **A part as messages show it**, with all that it holds. -/
def display : TypeData → Text
  | absent => "None"
  | text t => Text.quote t
  | number n => Text.ofInt n
  | truth b => if b then "True" else "False"
  | sequence items => displaySequence (displayEach items)
  | name t => displayCall "NameExpression" [("name", Text.quote t)]
  | all => displayCall "AllLiteral" []
  | null => displayCall "NullLiteral" []
  | nullable inner => displayCall "NullableType" [("expression", inner.display)]
  | optional inner => displayCall "OptionalType" [("expression", inner.display)]
  | union members => displayCall "UnionType" [("elements", displaySequence (displayEach members))]
  | variadic inner => displayCall "RestType" [("expression", inner.display)]
  | array items => displayCall "ArrayType" [("elements", displaySequence (displayEach items))]
  | application base arguments =>
    displayCall "TypeApplication"
      [("expression", base.display), ("applications", displaySequence (displayEach arguments))]
  | field key value => displayCall "FieldType" [("key", Text.quote key), ("value", value.display)]
  | record fields => displayCall "RecordType" [("fields", displaySequence (displayEach fields))]
  | function params result receiver constructed =>
    displayCall "FunctionType"
      [("params", displaySequence (displayEach params)), ("result", result.display),
       ("this", receiver.display), ("new", constructed.display)]

/-- Several parts as messages show them. -/
def displayEach : List TypeData → List Text
  | [] => []
  | t :: ts => t.display :: displayEach ts

end

/-- **A part that is not what its place asks for.** -/
inductive Misfit where
  /-- A part where a type should stand. -/
  | notType (found : TypeData)
  /-- A part where a record field should stand. -/
  | notField (found : TypeData)

/-- The message for a misfit. -/
def Misfit.message : Misfit → Text
  | notType found => "Unable to format type " ++ found.kindName ++ ": " ++ found.display
  | notField found => "'" ++ found.kindName ++ "' object has no attribute 'key'"

mutual

/-- **The type expression that a tree stands for**, or the first misfit in the order in which
the display form shows the parts. The receiver and the constructed type of a function are not
shown and may be anything. -/
def toExpr : TypeData → Except Misfit TypeExpr
  | absent => .ok .all
  | name t => .ok (.name t)
  | all => .ok .all
  | null => .ok .null
  | nullable inner => return .nullable (← inner.toExpr)
  | optional inner => return .optional (← inner.toExpr)
  | union members => return .union (← toExprs members)
  | variadic inner => return .variadic (some (← inner.toExpr))
  | array items => return .array (← toExprs items)
  | application base arguments => do
    -- The arguments are looked at before the type to which they are given.
    let arguments ← toExprs arguments
    return .application (← base.toExpr) arguments
  | record fields => return .record (← toFields fields)
  | function params result _ _ => do
    let params ← toExprs params
    return .function params (some (← result.toExpr)) none none
  | found => .error (.notType found)

/-- The type expressions that several trees stand for. -/
def toExprs : List TypeData → Except Misfit (List TypeExpr)
  | [] => .ok []
  | t :: ts => do
    let t ← t.toExpr
    return t :: (← toExprs ts)

/-- The fields of a record. -/
def toFields : List TypeData → Except Misfit (List (Text × Option TypeExpr))
  | [] => .ok []
  | field key value :: fields => do
    let value ← value.toExpr
    return (key, some value) :: (← toFields fields)
  | found :: _ => .error (.notField found)

end

/-- The display form of a tree that is meant to be a type. -/
def format (t : TypeData) : Except Misfit Text := return (← t.toExpr).format

end TypeData

/-! ## Type expressions as data -/

namespace TypeExpr

mutual

/-- A type expression as a tree. -/
def toData : TypeExpr → TypeData
  | name text => .name text
  | all => .all
  | null => .null
  | nullable inner => .nullable inner.toData
  | optional inner => .optional inner.toData
  | union members => .union (toDataEach members)
  | variadic inner => .variadic (toDataOption inner)
  | array items => .array (toDataEach items)
  | application base arguments => .application base.toData (toDataEach arguments)
  | record fields => .record (toDataFields fields)
  | function params result receiver constructed =>
    .function (toDataEach params) (toDataOption result) (toDataOption receiver)
      (toDataOption constructed)

/-- Several type expressions as trees. -/
def toDataEach : List TypeExpr → List TypeData
  | [] => []
  | t :: ts => t.toData :: toDataEach ts

/-- A type that may have been left out, as a tree. -/
def toDataOption : Option TypeExpr → TypeData
  | none => .absent
  | some t => t.toData

/-- The fields of a record as trees. -/
def toDataFields : List (Text × Option TypeExpr) → List TypeData
  | [] => []
  | (key, value) :: fields => .field key (toDataOption value) :: toDataFields fields

end

end TypeExpr

end DocModel
