import DocModel.Handler.Count
import DocModel.Pattern.Parser
import DocModel.Value

/-!
# Example handlers

Most expected values are compared with the actual value. A *handler* recognises, by a pattern,
expected values that ask for something else, such as `throws` or `[1, 2, ...]`. It names
a template with which the example is rendered, or carries a test of its own, and it says which
parts of the match the template is given.

Handlers are given as structured values. Their patterns are compiled at once, by whatever compiler
there is, but a pattern that is no text and data that are no rule show only when they are used:
those are the faults `Fault`.
-/

namespace DocModel

/-- What a handler looks for. -/
inductive Matcher where
  /-- A pattern. -/
  | pattern (p : Finder)
  /-- A value that is no pattern. -/
  | other (v : Value)

/-- What a handler gives to its template. -/
inductive DataRule where
  /-- The whole match and its groups. -/
  | matched
  /-- Groups under names. -/
  | groups (names : List (Text × Nat))
  /-- A callback and how often it is called. -/
  | calls
  /-- A value that is no rule. -/
  | other (v : Value)

/-- **An example handler.** -/
structure Handler where
  /-- What it looks for. -/
  matcher : Matcher
  /-- The template, or null. -/
  template : Value
  /-- The test, or null. -/
  test : Value
  /-- What the template is given. -/
  data : DataRule

namespace Handler

/-- **What can go wrong when a handler is used.** -/
inductive Fault where
  /-- What it looks for is no pattern. -/
  | notPattern (v : Value)
  /-- Its data are no rule. -/
  | notRule (v : Value)
  /-- A count is no number. -/
  | badCount (problem : Count.Problem)

/-- The message for a fault. -/
def Fault.message : Fault → Text
  | notPattern v => "'" ++ v.kindName ++ "' object has no attribute 'search'"
  | notRule v => "'" ++ v.kindName ++ "' object is not callable"
  | badCount problem => problem.message

/-- **Why a value is no handler.** -/
inductive Problem where
  /-- It is no map with a pattern. -/
  | noPattern (entry : Value)
  /-- It has neither a template nor a test. -/
  | noTarget (pattern : Value)
  /-- Its pattern cannot be compiled. -/
  | badPattern (source message : Text)

/-- The message for a value that is no handler. -/
def Problem.message : Problem → Text
  | noPattern entry => "Example handler entries need a 'pattern': " ++ entry.display
  | noTarget pattern =>
    "Example handler for pattern " ++ pattern.display
      ++ " must provide either a test function or a template name"
  | badPattern source message =>
    "Invalid example handler pattern " ++ Text.quote source ++ ": " ++ message

/-- The handler with the given parts. -/
def ofParts (compile : Compiler) (pattern template test data : Value) : Except Problem Handler :=
  if template.isNull && test.isNull then .error (.noTarget pattern)
  else
    let rule := if data.isNull then DataRule.matched else .other data
    match pattern with
    | .text source =>
      match compile source with
      | .ok p => .ok ⟨.pattern p, template, test, rule⟩
      | .error message => .error (.badPattern source message)
    | v => .ok ⟨.other v, template, test, rule⟩

/-- **The handler that a value describes.** -/
def ofValue (compile : Compiler) (entry : Value) : Except Problem Handler :=
  match entry with
  | .map entries =>
    let part? (key : Text) : Option Value := Value.entry? key (Value.textEntries entries)
    match part? "pattern" with
    | none => .error (.noPattern entry)
    | some pattern =>
      let part (key : Text) : Value := (part? key).getD .null
      ofParts compile pattern (part "template") (part "test") (part "data")
  | _ => .error (.noPattern entry)

/-! ## Using handlers -/

/-- What a handler finds in an expected value. -/
def search (h : Handler) (expected : Text) : Except Fault (Option Match) :=
  match h.matcher with
  | .pattern p => .ok (p.search expected)
  | .other v => .error (.notPattern v)

/-- The number, among `handlers` counted from `index`, of the first one that finds something,
with what it finds. -/
def findFrom (expected : Text) :
    Nat → List Handler → Except Fault (Option (Nat × Handler × Match))
  | _, [] => .ok none
  | index, h :: hs => do
    match ← h.search expected with
    | some m => return some (index, h, m)
    | none => findFrom expected (index + 1) hs

/-- **The first handler that finds something in an expected value.** -/
def find (handlers : List Handler) (expected : Text) :
    Except Fault (Option (Nat × Handler × Match)) :=
  findFrom expected 0 handlers

/-- Whether one of the handlers finds something. -/
def anyFinds (handlers : List Handler) (expected : Text) : Except Fault Bool :=
  return (← find handlers expected).isSome

/-- **What a handler gives to its template.** -/
def buildData (h : Handler) (m : Match) : Except Fault (List (Text × Value)) :=
  match h.data with
  | .matched =>
    .ok [("match", .list (.text m.whole :: m.groups.map Value.ofText?))]
  | .groups names => .ok (names.map fun (key, number) => (key, Value.ofText? (m.group number)))
  | .calls =>
    match Count.ofWord ((m.group 2).getD []) with
    | .error problem => .error (.badCount problem)
    | .ok count =>
      .ok [("callback", Value.ofText? (m.group 1)),
        ("count", match count with
          | some n => .nat n
          | none => .null)]
  | .other v => .error (.notRule v)

/-- A handler as messages show it. -/
def display (h : Handler) : Text :=
  let target := if h.template.isSomething then "template=" ++ h.template.display else "test=..."
  let pattern :=
    match h.matcher with
    | .pattern p => Text.quote p.source
    | .other v => v.display
  "ExampleHandler(" ++ pattern ++ ", " ++ target ++ ")"

end Handler

end DocModel
