import DocModel.Text.Digit

/-!
# Command lines

A command line consists of a command, options and files. An option may be shortened as long as it is
clear which one is meant, and its value is the next argument or follows an equals sign. Two hyphens
end the options. The files stand together; there is at least one.

Arguments are first sorted into options and plain arguments by their form. What looks like
a negative number or holds a blank is a plain argument.
-/

namespace DocModel.CommandLine

/-- What is to be done with the files. -/
inductive Command where
  /-- Write the documentation model. -/
  | parse
  /-- List the examples. -/
  | examples
  deriving DecidableEq

/-- **An option.** -/
inductive Flag where
  /-- Show the help text. -/
  | help
  /-- The settings file. -/
  | config
  /-- The namespaces to list. -/
  | namespaces
  /-- The tags to show. -/
  | tags
  /-- The pattern for names. -/
  | grep
  /-- Descriptions are Markdown. -/
  | markdown
  /-- Faulty comments make the run fail. -/
  | strict
  /-- Tell more on the way. -/
  | verbose
  /-- The file to write to. -/
  | output
  deriving DecidableEq

/-- Whether an option has a value. -/
def Flag.takesValue : Flag → Bool
  | config | namespaces | tags | grep | output => true
  | help | markdown | strict | verbose => false

/-- The spellings of options. -/
abbrev Spellings := List (Text × Flag)

/-- The options before the command. -/
def topSpellings : Spellings := [("-h", .help), ("--help", .help)]

/-- The options after any command. -/
def commonSpellings : Spellings :=
  [("-h", .help), ("--help", .help), ("--config", .config), ("--namespaces", .namespaces),
   ("--tags", .tags), ("--grep", .grep), ("--markdown", .markdown), ("--strict", .strict),
   ("--verbose", .verbose)]

/-- The options after a command. -/
def Command.spellings : Command → Spellings
  | parse => commonSpellings ++ [("--output".toList, .output)]
  | examples => commonSpellings

/-- The command with a given name. -/
def Command.ofName? (name : Text) : Option Command :=
  if name = "parse" then some .parse
  else if name = "examples" then some .examples
  else none

/-! ## Sorting arguments -/

/-- **The form of an argument.** -/
inductive Argument where
  /-- A plain argument. -/
  | plain (t : Text)
  /-- The two hyphens that end the options. -/
  | separator
  /-- A known option, and the value after its equals sign. -/
  | option (flag : Flag) (value : Option Text)
  /-- A known option of one letter with more characters attached to it. -/
  | cluster (flag : Flag) (attached : Text)
  /-- An unknown option. -/
  | unknown
  deriving DecidableEq

/-- Why a command line is not carried out. -/
inductive Refusal where
  /-- The help text was asked for. -/
  | help
  /-- The command line is wrong. -/
  | usage
  deriving DecidableEq

/-- Whether a text looks like a negative number: digits after a hyphen, or digits after a point. A
line feed at the end does not count. -/
def isNegativeNumber (t : Text) : Bool :=
  let t := if t.getLast? == some '\n' then t.dropLast else t
  match t with
  | '-' :: number =>
    match number.dropWhile Text.isDecimal with
    | [] => !number.isEmpty
    | '.' :: places => !places.isEmpty && places.all Text.isDecimal
    | _ => false
  | _ => false

/-- Whether an option is written with one hyphen. -/
def isShort (spelling : Text) : Bool := (spelling.drop 1).head? != some '-'

/-- A text before and after its first equals sign. -/
def splitValue (t : Text) : Text × Option Text :=
  match Text.cut? "=" t with
  | some (name, value) => (name, some value)
  | none => (t, none)

/-- The options that a shortened form can mean. After a single hyphen only the first character
names the option. -/
def candidates (spellings : Spellings) (t : Text) : List Argument :=
  if isShort t then
    spellings.filterMap fun (spelling, flag) =>
      if spelling = t.take 2 then some (.cluster flag (t.drop 2)) else none
  else
    let (name, value) := splitValue t
    spellings.filterMap fun (spelling, flag) =>
      if name.isPrefixOf spelling then some (.option flag value) else none

/-- The form of an argument that starts with a hyphen and has more than that. -/
def sortOption (spellings : Spellings) (t : Text) : Except Refusal Argument :=
  match spellings.lookup t with
  | some flag => .ok (.option flag none)
  | none =>
    let (name, value) := splitValue t
    match value, spellings.lookup name with
    | some v, some flag => .ok (.option flag (some v))
    | _, _ =>
      match candidates spellings t with
      | [one] => .ok one
      | _ :: _ :: _ => .error .usage
      | [] => .ok (if isNegativeNumber t || t.elem ' ' then .plain t else .unknown)

/-- **The form of an argument.** -/
def sortArgument (spellings : Spellings) (t : Text) : Except Refusal Argument :=
  if t.head? == some '-' && 1 < t.length then sortOption spellings t else .ok (.plain t)

/-- The forms of arguments; everything after the first two hyphens is plain. -/
def sortArguments (spellings : Spellings) : List Text → Except Refusal (List Argument)
  | [] => .ok []
  | t :: ts =>
    if t = "--" then .ok (.separator :: ts.map .plain)
    else do
      let a ← sortArgument spellings t
      return a :: (← sortArguments spellings ts)

/-! ## Reading a command line -/

/-- **What a command line asks for.** -/
structure Invocation where
  /-- What is to be done. -/
  command : Command
  /-- The files. -/
  files : List Text := []
  /-- The settings file. -/
  config : Option Text := none
  /-- The namespaces to list. -/
  namespaces : Option Text := none
  /-- The tags to show. -/
  tags : Option Text := none
  /-- The pattern for names. -/
  grep : Option Text := none
  /-- The file to write to. -/
  output : Option Text := none
  /-- Whether descriptions are Markdown. -/
  markdown : Bool := false
  /-- Whether faulty comments make the run fail. -/
  strict : Bool := false

namespace Invocation

/-- An invocation with one more option; `value` matters only if the option has one. -/
def set (i : Invocation) (flag : Flag) (value : Text) : Invocation :=
  match flag with
  | .config => { i with config := some value }
  | .namespaces => { i with namespaces := some value }
  | .tags => { i with tags := some value }
  | .grep => { i with grep := some value }
  | .output => { i with output := some value }
  | .markdown => { i with markdown := true }
  | .strict => { i with strict := true }
  | .help | .verbose => i

end Invocation

/-- Whether the characters attached to the one-letter option for the help text leave it proper: it
may be repeated, and what follows does not matter unless it is a hyphen or a value. -/
def clusterIsProper : Text → Bool
  | '-' :: _ => false
  | 'h' :: '=' :: _ => false
  | 'h' :: cs => clusterIsProper cs
  | _ => true

/-- The answer to the option for the help text; it has no value. -/
def helpAnswer (value : Option Text) : Refusal := if value.isNone then .help else .usage

/-- The answer to the one-letter option for the help text with more characters attached. -/
def clusterAnswer (attached : Text) : Refusal := if clusterIsProper attached then .help else .usage

/-- What has been read of a command line. -/
structure Reading where
  /-- What it asks for so far. -/
  invocation : Invocation
  /-- Whether the files have been read. -/
  hasFiles : Bool := false
  /-- Whether some argument has no place. -/
  surplus : Bool := false

/-- Whether an argument can stand among files. -/
def Argument.isPlain : Argument → Bool
  | plain _ | separator => true
  | option .. | cluster .. | unknown => false

/-- The texts of plain arguments. -/
def plainTexts : List Argument → List Text
  | [] => []
  | .plain t :: as => t :: plainTexts as
  | .separator :: as => "--" :: plainTexts as
  | _ :: as => plainTexts as

/-- Reads plain arguments that stand together: the first ones are the files, without the first two
hyphens, and others have no place. Hyphens alone are no files. -/
def Reading.takePlain (r : Reading) (chunk : List Argument) : Reading :=
  if r.hasFiles || chunk.all (· == .separator) then { r with surplus := true }
  else
    { r with
      hasFiles := true
      invocation := { r.invocation with files := (plainTexts chunk).erase "--" } }

/-- Reads sorted arguments; there are at most `budget`. -/
def readArguments : Nat → Reading → List Argument → Except Refusal Reading
  | _, r, [] => .ok r
  | 0, r, _ => .ok r
  | budget + 1, r, a :: as =>
    match a with
    | .plain _ | .separator =>
      readArguments budget (r.takePlain (a :: as.takeWhile Argument.isPlain))
        (as.dropWhile Argument.isPlain)
    | .unknown => readArguments budget { r with surplus := true } as
    | .cluster _ attached => .error (clusterAnswer attached)
    | .option .help value => .error (helpAnswer value)
    | .option flag value =>
      let set := fun t => { r with invocation := r.invocation.set flag t }
      match flag.takesValue, value, as with
      | true, some t, _ => readArguments budget (set t) as
      | true, none, .plain t :: as => readArguments budget (set t) as
      | true, none, _ => .error .usage
      | false, some _, _ => .error .usage
      | false, none, _ => readArguments budget (set []) as

/-- What the arguments after a command ask for. -/
def readCommand (c : Command) (args : List Text) : Except Refusal Invocation := do
  let sorted ← sortArguments c.spellings args
  let r ← readArguments sorted.length { invocation := { command := c } } sorted
  if r.surplus || !r.hasFiles then .error .usage
  return r.invocation

/-- **What a command line asks for.** Options before the command can only ask for the help text;
another one is wrong, but what follows is still read. -/
def Invocation.ofArguments : List Text → Except Refusal Invocation
  | [] => .error .usage
  | t :: ts => do
    if t = "--" then .error .usage
    match ← sortArgument topSpellings t with
    | .option _ value => .error (helpAnswer value)
    | .cluster _ attached => .error (clusterAnswer attached)
    | .unknown =>
      match ofArguments ts with
      | .error .help => .error .help
      | _ => .error .usage
    | _ =>
      match Command.ofName? t with
      | some c => readCommand c ts
      | none => .error .usage

end DocModel.CommandLine
