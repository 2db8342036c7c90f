import DocModel.CommandLine.Record
import DocModel.Value.Reader

/-!
# The program

The program reads the files that its arguments name, and on standard input the record of what the
converters make of them, a JSON text. It then does what a run of the command line says.
-/

namespace DocModel.CommandLine

/-- The tree of files with what stands at a path. -/
def load (t : FileTree) (path : Text) : IO FileTree := do
  let place := Path.parse path
  let name := String.ofList place.display
  match ← (IO.FS.readFile name).toBaseIO with
  | .ok content => return t.insert place content.toList
  | .error _ =>
    match ← (IO.FS.realPath (name ++ "/.")).toBaseIO with
    | .ok _ => return t.insertDirectory place
    | .error _ => return t

/-- The directory in which the file at a path stands. -/
def directoryOf (path : Text) : Text :=
  let place := Path.parse path
  Path.display { place with names := place.names.dropLast }

/-- The paths that an invocation looks at. -/
def pathsOf (i : Invocation) : List Text :=
  let config := (i.config.filter (!·.isEmpty)).getD defaultConfig
  let output := i.output.toList.flatMap fun path => [directoryOf path, path]
  config :: output ++ i.files

/-- Does what an outcome says, and gives its status. -/
def perform (o : Outcome) : IO UInt32 := do
  if let some (path, content) := o.written then
    IO.FS.writeFile (String.ofList path) (String.ofList content)
  IO.print (String.ofList o.output)
  for note in o.notes do
    IO.eprintln (String.ofList note)
  return o.status.toUInt32

/-- Carries out a command line. -/
def execute (args : List Text) : IO UInt32 := do
  let paths := ((Invocation.ofArguments args).toOption.map pathsOf).getD []
  let files ← paths.foldlM load {}
  let record ← if paths.isEmpty then pure "" else do (← IO.getStdin).readToEnd
  let converters := Record.entriesOf ((Value.ofJson? record.toList).getD .null)
  match run (converters.surroundings files) args with
  | .ok outcome => perform outcome
  | .error failure =>
    IO.eprintln (String.ofList failure.message)
    return 1

end DocModel.CommandLine

/-- The program. -/
def main (args : List String) : IO UInt32 :=
  DocModel.CommandLine.execute (args.map String.toList)
