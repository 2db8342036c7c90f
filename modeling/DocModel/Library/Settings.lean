import DocModel.Value

/-!
# Settings

A run is governed by a few settings. They are gathered from a settings file and from the command
line, where a value on the command line goes before one in the file, and then put to a validator.
The validator is given from outside: what counts as a truth value, say, is for it to decide, and so
are its words for what is wrong. Loading looks at the language by itself, before the validator is
asked, and hands on whatever the validator answers.
-/

namespace DocModel

/-- **The settings of a run.** -/
structure Settings where
  /-- The namespaces to list; all of them if there are none. -/
  namespaces : List Text := []
  /-- The tags of which a doc must have one to be shown; any doc is shown if there are none. -/
  tags : List Text := []
  /-- A pattern to be found in the names of listed docs. -/
  grep : Option Text := none
  /-- The handlers to be tried before the default ones; each is a map. -/
  exampleHandlers : List (List (Text × Value)) := []
  /-- Whether descriptions are Markdown. -/
  renderMarkdown : Bool := false
  /-- The language of the sources. -/
  language : Text := "javascript"

namespace Settings

/-! ## Fields -/

/-- **The fields of the settings.** -/
inductive Field where
  /-- The namespaces to list. -/
  | namespaces
  /-- The tags of which a doc must have one to be shown. -/
  | tags
  /-- The pattern to be found in names. -/
  | grep
  /-- The handlers that come before the default ones. -/
  | exampleHandlers
  /-- Whether descriptions are Markdown. -/
  | renderMarkdown
  /-- The language of the sources. -/
  | language
  deriving DecidableEq

namespace Field

/-- The name under which a value is given for a field. -/
def name : Field → Text
  | namespaces => "namespaces"
  | tags => "tags"
  | grep => "grep"
  | exampleHandlers => "example_handlers"
  | renderMarkdown => "render_markdown"
  | language => "language"

/-- All fields, in their order. -/
def all : List Field := [namespaces, tags, grep, exampleHandlers, renderMarkdown, language]

/-- **The type of a field.** -/
def Content : Field → Type
  | namespaces => List Text
  | tags => List Text
  | grep => Option Text
  | exampleHandlers => List (List (Text × Value))
  | renderMarkdown => Bool
  | language => Text

/-- What a field holds, as a value. -/
def toValue : (f : Field) → f.Content → Value
  | namespaces, texts => .texts texts
  | tags, texts => .texts texts
  | grep, pattern => .ofText? pattern
  | exampleHandlers, entries => .list (entries.map .record)
  | renderMarkdown, b => .bool b
  | language, t => .text t

end Field

/-- What the settings hold in a field. -/
def get (s : Settings) : (f : Field) → f.Content
  | .namespaces => s.namespaces
  | .tags => s.tags
  | .grep => s.grep
  | .exampleHandlers => s.exampleHandlers
  | .renderMarkdown => s.renderMarkdown
  | .language => s.language

/-- The settings that hold something given in each field. -/
def ofFields (content : (f : Field) → f.Content) : Settings where
  namespaces := content .namespaces
  tags := content .tags
  grep := content .grep
  exampleHandlers := content .exampleHandlers
  renderMarkdown := content .renderMarkdown
  language := content .language

/-- The settings as values. -/
def toValue (s : Settings) : Value :=
  .record (Field.all.map fun f => (f.name, f.toValue (s.get f)))

/-- The settings with other tags. -/
def withTags (s : Settings) (tags : List Text) : Settings := { s with tags }

/-! ## Validators -/

/-- A step on the way to a part of a value. -/
inductive Step where
  /-- To the value under a name. -/
  | name (key : Key)
  /-- To an item of a list, counted from zero. -/
  | item (index : Nat)
  /-- From there to the name itself. -/
  | key

/-- **A fault of a set of values**: where it is, and what is wrong. -/
structure Issue where
  /-- The way to the faulty part, from the name of a field on. -/
  path : List Step
  /-- What is wrong, in the validator's words. -/
  kind : Text

/-- **What a validator says about values that it refuses.** -/
structure Rejection where
  /-- The faults of the values. -/
  issues : List Issue
  /-- All of them in one message. -/
  message : Text

/-- **A validator**: it makes settings of named values, or refuses them. -/
abbrev Validator := List (Text × Value) → Except Rejection Settings

/-! ## Gathering values -/

/-- **Why settings cannot be loaded.** -/
inductive Problem where
  /-- Reading the file fails in a way that is not foreseen. -/
  | unread (message : Text)
  /-- What the file holds has no parts. -/
  | noParts (v : Value)
  /-- A part of what the file holds has no parts. -/
  | noPair (index : Nat)
  /-- A part of what the file holds is no pair. -/
  | wrongLength (index length : Nat)
  /-- A name in the file is a list or a map. -/
  | compoundName (v : Value)
  /-- A name in the file is no text. -/
  | oddName
  /-- The language is not known. -/
  | unknownLanguage (v : Value)
  /-- The validator refuses the values. -/
  | invalid (r : Rejection)

/-- The message for settings that cannot be loaded. -/
def Problem.message : Problem → Text
  | unread message => message
  | noParts v => "'" ++ v.kindName ++ "' object is not iterable"
  | noPair index =>
    "cannot convert dictionary update sequence element #" ++ Text.ofNat index ++ " to a sequence"
  | wrongLength index length =>
    "dictionary update sequence element #" ++ Text.ofNat index ++ " has length "
      ++ Text.ofNat length ++ "; 2 is required"
  | compoundName v => "unhashable type: '" ++ v.kindName ++ "'"
  | oddName => "keywords must be strings"
  | unknownLanguage v => "Unsupported language: " ++ v.plain
  | invalid r => "Invalid configuration: " ++ r.message

/-- The parts of a value: the items of a list, the names of a map, the characters of a text. -/
def parts? : Value → Option (List Value)
  | .list items => some items
  | .map entries => some (entries.map fun (key, _) => key.toValue)
  | .text t => some (t.map fun c => .text [c])
  | _ => none

/-- Named values that are gathered from pairs. A name may turn out to be no text, which only shows
when the values are used. -/
structure Gathered where
  /-- The values with their names. -/
  entries : List (Text × Value)
  /-- Whether some name is no text. -/
  odd : Bool

/-- The named values that the pairs in a list give, the first of which has number `index`. -/
def gatherPairs (g : Gathered) (index : Nat) : List Value → Except Problem Gathered
  | [] => .ok g
  | v :: vs =>
    match parts? v with
    | none => .error (.noPair index)
    | some [.text key, value] =>
      gatherPairs { g with entries := Value.insertEntry key value g.entries } (index + 1) vs
    | some [.list items, _] => .error (.compoundName (.list items))
    | some [.map entries, _] => .error (.compoundName (.map entries))
    | some [_, _] => gatherPairs { g with odd := true } (index + 1) vs
    | some other => .error (.wrongLength index other.length)

/-- The named values that a settings file gives. An empty value gives none, and a list or a text is
taken as a sequence of pairs. -/
def gather (v : Value) : Except Problem Gathered :=
  if !v.isSomething then .ok ⟨[], false⟩
  else
    match v, parts? v with
    | .map entries, _ => .ok ⟨Value.textEntries entries, !entries.all (·.1.isText)⟩
    | _, some pairs => gatherPairs ⟨[], false⟩ 0 pairs
    | v, none => .error (.noParts v)

/-- Named values with those of the command line before them; null is no value there. -/
def override (entries overrides : List (Text × Value)) : List (Text × Value) :=
  overrides.foldl (fun e (key, v) => if v.isNull then e else Value.insertEntry key v e) entries

/-- A list of texts that is written as one text with commas; anything else stays as it is. -/
def splitList : Value → Value
  | .text t =>
    .texts (((Text.splitWhere (· == ',') t).map Text.strip).filter (!·.isEmpty))
  | v => v

/-- Named values in which the fields that are lists of texts may be written with commas. -/
def splitLists (entries : List (Text × Value)) : List (Text × Value) :=
  entries.map fun (key, v) =>
    (key, if key = "namespaces" ∨ key = "tags" then splitList v else v)

/-- **What comes of reading a settings file.** -/
inductive File where
  /-- There is no such file. -/
  | missing
  /-- The file cannot be opened, or its text is not in the format of settings files. -/
  | unreadable
  /-- Reading it fails in another way, with a message. -/
  | failing (message : Text)
  /-- The file holds a value. -/
  | holding (v : Value)

/-- How much a note that is made while settings are loaded matters. -/
inductive NoteLevel where
  /-- It is only for information. -/
  | info
  /-- Something is not as expected. -/
  | warning
  deriving DecidableEq

/-- The named values that a settings file gives, and the notes made about it. Only a file that
cannot be opened or is not in the right format counts as empty; others end the loading. -/
def File.gather (explicit : Bool) : File → Except Problem Gathered × List NoteLevel
  | missing => (.ok ⟨[], false⟩, [if explicit then .warning else .info])
  | unreadable => (.ok ⟨[], false⟩, [.warning])
  | failing message => (.error (.unread message), [])
  | holding v =>
    match Settings.gather v with
    | .ok g => (.ok g, [.info])
    | .error problem => (.error problem, [])

/-- Named values with those of the command line before them are looked at and put to the
validator. -/
def settle (validate : Validator) (overrides : List (Text × Value)) (g : Gathered) :
    Except Problem Settings := do
  let entries := splitLists (override g.entries overrides)
  let language := (Value.entry? "language" entries).getD "javascript"
  match language with
  | .text t => if t = "javascript" then pure () else .error (.unknownLanguage language)
  | _ => .error (.unknownLanguage language)
  if g.odd then .error .oddName
  match validate entries with
  | .ok settings => return settings
  | .error rejection => .error (.invalid rejection)

/-- **The settings that a file and the command line give**, and the notes made on the way.
`explicit` says whether the file was asked for. -/
def load (validate : Validator) (file : File) (explicit : Bool) (overrides : List (Text × Value)) :
    Except Problem Settings × List NoteLevel :=
  let (gathered, notes) := file.gather explicit
  (gathered.bind (settle validate overrides), notes)

end Settings

end DocModel
