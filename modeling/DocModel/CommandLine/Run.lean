import DocModel.CommandLine.Arguments
import DocModel.CommandLine.Files
import DocModel.Library.Export

/-!
# Runs of the command line

A run reads its settings, turns each file into a library and writes the documentation model or the
list of examples. Everything that it needs from outside is given to it: the files, and the
converters of the formats that it does not read itself. What it does comes out as an outcome: a
status, a text and some notes, and possibly a file to be written.

Problems with the settings or with a file end a run with a note. Some faults are not foreseen; they
end a run without an outcome.
-/

namespace DocModel.CommandLine

/-- Why the text of a settings file gives no value. -/
inductive ReadFailure where
  /-- It is not in the right format. -/
  | malformed
  /-- Reading it fails in a way that is not foreseen, with a message. -/
  | other (message : Text)

/-- **What a run needs from outside.** -/
structure Surroundings where
  /-- The files below the current directory. -/
  files : FileTree
  /-- The converters of formats. -/
  converters : Converters
  /-- The reader of settings files. -/
  readSettings : Text → Except ReadFailure Value
  /-- The validator of settings. -/
  validate : Settings.Validator

/-- **What a run does.** -/
structure Outcome where
  /-- The status with which it ends; zero if all is well. -/
  status : Nat
  /-- The text that it prints. -/
  output : Text := []
  /-- Its notes to the user, one line each. -/
  notes : List Text := []
  /-- The path and the content of a file that it writes. -/
  written : Option (Text × Text) := none

/-- The files after a run. -/
def Outcome.filesAfter (o : Outcome) (files : FileTree) : FileTree :=
  match o.written with
  | some (path, content) => (files.write path content).toOption.getD files
  | none => files

/-- **A fault that is not foreseen.** -/
inductive Failure where
  /-- The settings file cannot be read, or does not hold named values. -/
  | settings (problem : Settings.Problem)
  /-- A source cannot be turned into a library. -/
  | source (failure : Session.Failure)
  /-- A private doc is among its own methods. -/
  | endless

/-- The message for a fault that is not foreseen. -/
def Failure.message : Failure → Text
  | settings problem => problem.message
  | source failure => failure.message
  | endless => "A private doc is among its own methods"

/-- Why a run stops. -/
inductive Stop where
  /-- For a reason that is told to the user. -/
  | told (message : Text)
  /-- By a fault that is not foreseen. -/
  | failed (failure : Failure)

/-! ## Settings -/

/-- Where the settings are if no other file is named. -/
def defaultConfig : Text := "docflow.config.yaml"

/-- What the settings file of an invocation holds. -/
def configFile (s : Surroundings) (path : Text) : Settings.File :=
  match s.files.entry (.parse path) with
  | .file content =>
    match s.readSettings (Source.normalizeLineEnds content) with
    | .ok v => .holding v
    | .error .malformed => .unreadable
    | .error (.other message) => .failing message
  | _ => .missing

/-- **The settings that a file and named values give**, and the notes made on the way. An empty
path stands for the usual one. -/
def loadSettings (s : Surroundings) (path : Option Text) (overrides : List (Text × Value)) :
    Except Settings.Problem Settings × List Settings.NoteLevel :=
  match path.filter (!·.isEmpty) with
  | some path => Settings.load s.validate (configFile s path) true overrides
  | none => Settings.load s.validate (configFile s defaultConfig) false overrides

/-- The settings that the options of an invocation give. -/
def Invocation.overrides (i : Invocation) : List (Text × Value) :=
  [("namespaces", .ofText? i.namespaces), ("tags", .ofText? i.tags), ("grep", .ofText? i.grep),
   ("render_markdown", if i.markdown then .bool true else .null)]

/-- The settings of an invocation. -/
def settingsOf (s : Surroundings) (i : Invocation) : Except Stop Settings :=
  match (loadSettings s i.config i.overrides).1 with
  | .ok settings => .ok settings
  | .error problem =>
    match problem with
    | .unknownLanguage _ | .invalid _ => .error (.told problem.message)
    | _ => .error (.failed (.settings problem))

/-! ## Files -/

/-- The library in a file. -/
def libraryOf (s : Surroundings) (settings : Settings) (file : Text) : Except Stop Library :=
  match s.files.read (.parse file) with
  | .error problem => .error (.told (problem.message (Path.parse file).display))
  | .ok content =>
    match Session.start s.converters settings with
    | .error problem => .error (.told problem.message)
    | .ok session =>
      match (session.parse (Source.normalizeLineEnds content)).1 with
      | .ok library => .ok library
      | .error (.unknownKind report) => .error (.told report.message)
      | .error failure => .error (.failed (.source failure))

/-- Files without those that stand further up already. -/
def distinctFiles : List Text → List Text
  | [] => []
  | file :: files => file :: (distinctFiles files).filter (· ≠ file)

/-- **The libraries in files**, each file once. -/
def librariesOf (s : Surroundings) (i : Invocation) : Except Stop (List (Text × Library)) := do
  let settings ← settingsOf s i
  (distinctFiles i.files).mapM fun file => return (file, ← libraryOf s settings file)

/-! ## What is written -/

/-- The start of a warning. -/
def warning : Text := "⚠️  "

/-- The notes on comments that could not be read. -/
def errorNotes (results : List (Text × Library)) : List Text :=
  results.flatMap fun (file, library) =>
    library.errors.map fun e =>
      warning ++ file ++ ":" ++ Text.ofNat e.line ++ ": " ++ CommentError.stage ++ ": "
        ++ e.problem.message

/-- The documentation model as JSON text. -/
def modelText? (results : List (Text × Library)) : Option Text := do
  let entries ← results.mapM fun (file, library) => return (file, ← library.toValue? false)
  return (Value.record entries).json

/-- The place of an example. -/
def placeOf (file : Text) (e : Example) : Text := file ++ ":" ++ Text.ofInt e.line

/-- The line in the list of examples for one of them. -/
def exampleLine (file : Text) (doc : FunctionDoc) (e : Example) : Text :=
  let status : Text := if e.isBroken then "BROKEN" else "ok"
  placeOf file e ++ "\t" ++ doc.name ++ "\t" ++ e.actual ++ " => " ++ e.expected ++ "\t" ++ status
    ++ "\n"

/-- The list of the examples in some libraries. -/
def exampleList (results : List (Text × Library)) : Text :=
  results.flatMap fun (file, library) =>
    library.docs.flatMap fun doc => doc.examples.items.flatMap (exampleLine file doc)

/-- The places of broken examples. -/
def brokenPlaces (results : List (Text × Library)) : List Text :=
  results.flatMap fun (file, library) =>
    library.docs.flatMap fun doc =>
      (doc.examples.items.filter (·.isBroken)).map (placeOf file)

/-- The note on broken examples. -/
def brokenNotes (broken : List Text) : List Text :=
  if broken.isEmpty then []
  else
    [warning ++ Text.ofNat broken.length ++ " example(s) could not be parsed: "
      ++ Text.join ", " broken]

/-! ## Runs -/

/-- The status of a run with the given complaints. -/
def statusOf (i : Invocation) (complaints : List Text) : Nat :=
  if i.strict && !complaints.isEmpty then 1 else 0

/-- Writes the documentation model. -/
def runParse (s : Surroundings) (i : Invocation) : Except Stop Outcome := do
  let results ← librariesOf s i
  let notes := errorNotes results
  let status := statusOf i notes
  match modelText? results with
  | none => .error (.failed .endless)
  | some model =>
    match i.output.filter (!·.isEmpty) with
    | some path =>
      match s.files.write path model with
      | .error problem => .error (.told (problem.message path))
      | .ok _ =>
        let written := "📄 Documentation model exported to " ++ path
        return { status, notes := written :: notes, written := some (path, model) }
    | none => return { status, output := model ++ "\n", notes }

/-- Lists the examples. -/
def runExamples (s : Surroundings) (i : Invocation) : Except Stop Outcome := do
  let results ← librariesOf s i
  let notes := brokenNotes (brokenPlaces results) ++ errorNotes results
  return { status := statusOf i notes, output := exampleList results, notes }

/-- **Carries out what a command line asks for.** -/
def Invocation.run (i : Invocation) (s : Surroundings) : Except Failure Outcome :=
  let result :=
    match i.command with
    | .parse => runParse s i
    | .examples => runExamples s i
  match result with
  | .ok outcome => .ok { outcome with notes := outcome.notes.map Text.firstLine }
  | .error (.told message) =>
    .ok { status := 1, notes := [Text.firstLine ("❌ " ++ message)] }
  | .error (.failed failure) => .error failure

/-- **A run of the command line** with the given arguments. A wrong command line ends with the
status 2. -/
def run (s : Surroundings) (args : List Text) : Except Failure Outcome :=
  match Invocation.ofArguments args with
  | .ok i => i.run s
  | .error .help => .ok { status := 0 }
  | .error .usage => .ok { status := 2 }

end DocModel.CommandLine
