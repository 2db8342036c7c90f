import DocModel.Text.Quoted
import DocModel.Value.Double

/-!
# Structured values

Settings files, handler entries and the exported documentation are structured values: null,
truth values, numbers, texts, lists and maps. The names in a map are texts as a rule, but a settings
file may have any value there that is not made up of others. A map keeps its entries in the order in
which they were given, because that order shows when it is written.

A value is written in two ways. `Value.display` is the form in messages, and `Value.json` is the
indented JSON text of an exported documentation model.
-/

namespace DocModel

/-- **A name in a map**: a value that is not made up of others. -/
inductive Key where
  /-- No value. -/
  | null
  /-- A truth value. -/
  | bool (b : Bool)
  /-- A whole number. -/
  | int (n : Int)
  /-- A floating-point number. -/
  | float (x : Double)
  /-- A text. -/
  | text (t : Text)
  deriving DecidableEq

/-- **A structured value.** -/
inductive Value where
  /-- No value. -/
  | null
  /-- A truth value. -/
  | bool (b : Bool)
  /-- A whole number. -/
  | int (n : Int)
  /-- A floating-point number. -/
  | float (x : Double)
  /-- A text. -/
  | text (t : Text)
  /-- A list of values. -/
  | list (items : List Value)
  /-- Named values, in the order in which they were given. -/
  | map (entries : List (Key × Value))
  deriving Inhabited

namespace Value

instance : Coe Text Value := ⟨text⟩

instance : Coe String Value := ⟨fun s => text s⟩

/-- A text if there is one, and null otherwise. -/
def ofText? : Option Text → Value
  | some t => text t
  | none => null

/-- A natural number as a value. -/
def nat (n : Nat) : Value := int n

/-- A list of texts as a value. -/
def texts (ts : List Text) : Value := list (ts.map text)

/-- A map whose names are texts. -/
def record (entries : List (Text × Value)) : Value :=
  map (entries.map fun (key, v) => (.text key, v))

/-- The entries of a map whose names are texts. -/
def textEntries (entries : List (Key × Value)) : List (Text × Value) :=
  entries.filterMap fun (key, v) =>
    match key with
    | .text t => some (t, v)
    | _ => none

/-- Entries under texts are all there. -/
theorem textEntries_named (entries : List (Text × Value)) :
    textEntries (entries.map fun (key, v) => (.text key, v)) = entries := by
  rw [textEntries, List.filterMap_map]
  exact List.filterMap_some

/-- The value of the entry `key` in a list of entries. -/
def entry? (key : Text) (entries : List (Text × Value)) : Option Value := entries.lookup key

/-- Entries with the value at `key` replaced, in its old place, or added at the end. -/
def insertEntry (key : Text) (v : Value) : List (Text × Value) → List (Text × Value)
  | [] => [(key, v)]
  | (k, old) :: entries =>
    if k = key then (k, v) :: entries else (k, old) :: insertEntry key v entries

/-- Whether a value is null. -/
def isNull : Value → Bool
  | null => true
  | _ => false

/-- Whether a value counts as something: not null, false, zero or empty. -/
def isSomething : Value → Bool
  | null => false
  | bool b => b
  | int n => n != 0
  | float x => !x.isZero
  | text t => !t.isEmpty
  | list items => !items.isEmpty
  | map entries => !entries.isEmpty

/-- What messages call the kind of a value. -/
def kindName : Value → Text
  | null => "NoneType"
  | bool _ => "bool"
  | int _ => "int"
  | float _ => "float"
  | text _ => "str"
  | list _ => "list"
  | map _ => "dict"

end Value

/-- A name as a value. -/
def Key.toValue : Key → Value
  | null => .null
  | bool b => .bool b
  | int n => .int n
  | float x => .float x
  | text t => .text t

/-- Whether a name is a text. -/
def Key.isText : Key → Bool
  | text _ => true
  | _ => false

namespace Value

theorem all_isText_named (entries : List (Text × Value)) :
    (entries.map fun ((key, v) : Text × Value) => (Key.text key, v)).all (·.1.isText) = true := by
  simp [Key.isText]

/-! ## In messages -/

/-- A truth value as messages show it. -/
def displayBool (b : Bool) : Text := if b then "True" else "False"

/-- A name as messages show it. -/
def displayKey : Key → Text
  | .null => "None"
  | .bool b => displayBool b
  | .int n => Text.ofInt n
  | .float x => x.display
  | .text t => Text.quote t

mutual

/-- **A value as messages show it.** -/
def display : Value → Text
  | null => "None"
  | bool b => displayBool b
  | int n => Text.ofInt n
  | float x => x.display
  | text t => Text.quote t
  | list items => "[" ++ Text.join ", " (displayEach items) ++ "]"
  | map entries => "\x7b" ++ Text.join ", " (displayEntries entries) ++ "\x7d"

/-- Several values as messages show them. -/
def displayEach : List Value → List Text
  | [] => []
  | v :: vs => v.display :: displayEach vs

/-- Named values as messages show them. -/
def displayEntries : List (Key × Value) → List Text
  | [] => []
  | (key, v) :: entries => (displayKey key ++ ": " ++ v.display) :: displayEntries entries

end

/-- A value in running text: a text as it stands, anything else as in messages. -/
def plain : Value → Text
  | text t => t
  | v => v.display

/-! ## As JSON text -/

/-- A character inside a JSON string. Characters outside ASCII stand as they are. -/
def jsonChar (c : Char) : Text :=
  if c == '\\' || c == Text.doubleQuote then ['\\', c]
  else if c == '\n' then "\\n"
  else if c == '\r' then "\\r"
  else if c == '\t' then "\\t"
  else if c == '\x08' then "\\b"
  else if c == '\x0c' then "\\f"
  else if c.toNat < 0x20 then "\\u" ++ Text.hex 4 c.toNat
  else [c]

/-- A JSON string. -/
def jsonString (t : Text) : Text :=
  Text.doubleQuote :: t.flatMap jsonChar ++ [Text.doubleQuote]

/-- The start of a line that is indented `depth` times. -/
def jsonIndent (depth : Nat) : Text := '\n' :: List.replicate (2 * depth) ' '

/-- The parts of a list or map, each on a line of its own, between two brackets. -/
def jsonGroup (opening closing : Text) (depth : Nat) (parts : List Text) : Text :=
  if parts.isEmpty then opening ++ closing
  else
    opening ++ jsonIndent (depth + 1) ++ Text.join ("," ++ jsonIndent (depth + 1)) parts
      ++ jsonIndent depth ++ closing

/-- A truth value in JSON text. -/
def jsonBool (b : Bool) : Text := if b then "true" else "false"

/-- A name in JSON text. One that is no text is written in quotes all the same. -/
def jsonKey : Key → Text
  | .null => jsonString "null"
  | .bool b => jsonString (jsonBool b)
  | .int n => jsonString (Text.ofInt n)
  | .float x => jsonString x.json
  | .text t => jsonString t

mutual

/-- The JSON text of a value that stands in lines indented `depth` times. -/
def jsonAt (depth : Nat) : Value → Text
  | null => "null"
  | bool b => jsonBool b
  | int n => Text.ofInt n
  | float x => x.json
  | text t => jsonString t
  | list items => jsonGroup "[" "]" depth (jsonEach (depth + 1) items)
  | map entries => jsonGroup "\x7b" "\x7d" depth (jsonEntries (depth + 1) entries)

/-- The JSON texts of several values. -/
def jsonEach (depth : Nat) : List Value → List Text
  | [] => []
  | v :: vs => jsonAt depth v :: jsonEach depth vs

/-- The JSON texts of named values. -/
def jsonEntries (depth : Nat) : List (Key × Value) → List Text
  | [] => []
  | (key, v) :: entries => (jsonKey key ++ ": " ++ jsonAt depth v) :: jsonEntries depth entries

end

/-- **The JSON text of a value**, two spaces of indentation to a level. -/
def json (v : Value) : Text := jsonAt 0 v

end Value

end DocModel
