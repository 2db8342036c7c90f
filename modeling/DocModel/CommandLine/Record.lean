import DocModel.CommandLine.Run
import DocModel.Library.Validation

/-!
# Records of converters

The converters of scripts, of Markdown and of settings files are programs of their own. What they
make of the texts of a run can be recorded in a structured value, and a record stands in for the
converters themselves: under `syntax` it has what the parser says about each text, under `markdown`
the HTML for each text, and under `yaml` what the settings file holds.
-/

namespace DocModel.CommandLine

/-- **A record of what converters make of texts.** -/
abbrev Record := List (Text × Value)

namespace Record

/-- The entries of a map. -/
def entriesOf : Value → Record
  | .map entries => Value.textEntries entries
  | _ => []

/-- The entry of a record; null if there is none. -/
def get (r : Record) (key : Text) : Value := (Value.entry? key r).getD .null

/-- A natural number; zero for any other value. -/
def natOf : Value → Nat
  | .int n => n.toNat
  | _ => 0

mutual

/-- The syntax tree that a value describes: the kind, whether it is a named one, the bytes where its
text starts and stops, the role, and the children. -/
def treeOf : Value → SyntaxTree
  | .list [.text kind, named, start, stop, role, .list children] =>
    let role? :=
      match role with
      | .text t => some (String.ofList t)
      | _ => none
    .node (String.ofList kind) (natOf named = 1) (natOf start) (natOf stop) role? (treesOf children)
  | _ => .node "" false 0 0 none []

/-- The syntax trees that several values describe. -/
def treesOf : List Value → List SyntaxTree
  | [] => []
  | v :: vs => treeOf v :: treesOf vs

end

/-- The recorded parser of scripts. A text that is not in the record has errors. -/
def script (r : Record) : ScriptParser := fun t =>
  let found := entriesOf (get (entriesOf (get r "syntax")) t)
  let sound :=
    match get found "has_error" with
    | .bool false => true
    | _ => false
  ⟨!sound, treeOf (get found "root")⟩

/-- The recorded converter from Markdown to HTML. A text that is not in the record has none. -/
def markdown (r : Record) : Text → Text := fun t =>
  match get (entriesOf (get r "markdown")) t with
  | .text html => html
  | _ => []

/-- The recorded reader of the settings file. -/
def settings (r : Record) : Text → Except ReadFailure Value := fun _ =>
  let found := entriesOf (get r "yaml")
  if (get found "error").isSomething then .error .malformed else .ok (get found "value")

/-- The recorded converters. Patterns are compiled as the library reads them. -/
def converters (r : Record) : Converters := ⟨r.script, r.markdown, Pattern.compile⟩

/-- **The surroundings of a run** with the given files and the recorded converters. -/
def surroundings (r : Record) (files : FileTree) : Surroundings :=
  ⟨files, r.converters, r.settings, Settings.standard⟩

end Record

end DocModel.CommandLine
