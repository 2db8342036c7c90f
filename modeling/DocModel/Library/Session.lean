import DocModel.Library.Association
import DocModel.Library.Namespace
import DocModel.Library.Settings

/-!
# Sessions

A session turns sources into documented libraries under fixed settings. The patterns among the
settings, of handlers and for names, are compiled when the session is opened; whatever is wrong with
them shows then, and not only when a source uses them.

A source is turned into a library in one pass: its comments become docs, the tags decide which of
them are left out, the docs are listed by namespace, and a pattern for names restricts the lists.
-/

namespace DocModel

/-- **A documented library.** -/
structure Library where
  /-- Its name: as the source gives it or else the name under which it is referred to. -/
  name : Option Text
  /-- The name under which it is referred to. -/
  referenceName : Option Text
  /-- Its description. -/
  description : Text
  /-- The source. -/
  code : Text
  /-- Its namespaces. -/
  namespaces : List NamespaceInfo
  /-- Its docs. -/
  docs : List FunctionDoc
  /-- Its private docs with their methods. -/
  privateDocs : List ElevatedDoc
  /-- Its types. -/
  types : List TypeInfo
  /-- The comments that could not be read. -/
  errors : List CommentError

/-- **The converters that a session calls**: the parser of the script language, the converter from
Markdown to HTML, and the compiler of patterns. -/
structure Converters where
  /-- The parser of the script language. -/
  script : ScriptParser
  /-- The converter from Markdown to HTML. -/
  markdown : Text → Text
  /-- The compiler of patterns. -/
  compile : Compiler

/-- **A session.** -/
structure Session where
  /-- Its settings. -/
  settings : Settings
  /-- Which children of a node are looked at. -/
  table : ChildTable
  /-- The parser of the script language. -/
  script : ScriptParser
  /-- The builder of examples. -/
  builder : ExampleBuilder
  /-- How descriptions are shown. -/
  renderer : Renderer
  /-- The pattern to be found in the names of listed docs. -/
  grep : Option Finder

namespace Session

/-! ## Opening a session -/

/-- **Why a session cannot be opened.** -/
inductive Problem where
  /-- There is something wrong with a handler. -/
  | badHandler (problem : Handler.Problem)
  /-- The pattern for names cannot be compiled. -/
  | badGrep (source message : Text)

/-- The message for a session that cannot be opened. -/
def Problem.message : Problem → Text
  | badHandler problem => problem.message
  | badGrep source message => "Invalid grep pattern " ++ Text.quote source ++ ": " ++ message

/-- The handlers that the entries of the settings describe. -/
def handlers (compile : Compiler) : List (List (Text × Value)) → Except Problem (List Handler)
  | [] => .ok []
  | entry :: entries =>
    match Handler.ofValue compile (.record entry) with
    | .error problem => .error (.badHandler problem)
    | .ok h => return h :: (← handlers compile entries)

/-- The pattern for names; an empty one is none. -/
def grepPattern (compile : Compiler) : Option Text → Except Problem (Option Finder)
  | none => .ok none
  | some source =>
    if source.isEmpty then .ok none
    else
      match compile source with
      | .ok p => .ok (some p)
      | .error message => .error (.badGrep source message)

/-- **Opens a session.** -/
def start (converters : Converters) (settings : Settings) : Except Problem Session := do
  let custom ← handlers converters.compile settings.exampleHandlers
  let grep ← grepPattern converters.compile settings.grep
  return {
    settings, grep
    table := scriptTable
    script := converters.script
    builder := ⟨custom ++ Handler.defaults, custom, converters.script⟩
    renderer := if settings.renderMarkdown then .markdown converters.markdown else .plain }

/-! ## Reading a source -/

/-- **Why a source cannot be turned into a library.** -/
inductive Failure where
  /-- Its language is not known. -/
  | unknownLanguage (language : Text)
  /-- There is a node of an unknown kind. -/
  | unknownKind (report : UnknownKind)
  /-- Its nodes form a cycle. -/
  | cyclic
  /-- A handler cannot be used. -/
  | fault (fault : Handler.Fault)

/-- The message for a source that cannot be turned into a library. -/
def Failure.message : Failure → Text
  | unknownLanguage language => "Unsupported language: " ++ language
  | unknownKind report => report.message
  | cyclic => "The nodes form a cycle"
  | fault f => f.message

/-- The settings that apply to some docs: without tags in the settings, one public doc is enough to
show public docs only. -/
def settingsFor (s : Session) (docs : List FunctionDoc) : Settings :=
  if s.settings.tags.isEmpty && docs.any (·.isPublic) then s.settings.withTags ["public"]
  else s.settings

/-- The library that docs, marked as left out where they are, and the other parts make up. -/
def assemble (s : Session) (source : Text) (exported : Option Text) (summary : Summary)
    (docs : List FunctionDoc) (types : List TypeInfo) (errors : List CommentError) : Library :=
  let infos := NamespaceInfo.aggregate docs s.settings.namespaces
  let referenceName :=
    match exported.filter (!·.isEmpty) with
    | some name => some name
    | none => NamespaceInfo.guessReference infos
  { name := if summary.name.isEmpty then referenceName else some summary.name
    referenceName
    description := summary.description
    code := source
    namespaces :=
      match s.grep with
      | some p => infos.map (·.restrict p)
      | none => infos
    docs :=
      match s.grep with
      | some p => docsMatching p docs
      | none => docs
    privateDocs := elevatePrivate infos docs
    types, errors }

/-- What a session needs to make docs of the comments of a source. -/
def associator (s : Session) (source : Source) (index : DeclarationIndex) : Associator :=
  ⟨source, index, s.builder, s.renderer⟩

/-- **What a session makes of a source**, with the comments that the source is given, and the
comments that could not be read, which are known even if another failure ends the reading. -/
def document (s : Session) (source : Source) : Except Failure Library × List CommentError :=
  match DeclarationIndex.build source.graph s.table 0 with
  | .error (.unknownKind report) => (.error (.unknownKind report), [])
  | .error .cyclic => (.error .cyclic, [])
  | .ok index =>
    let a := s.associator source index
    let (summary, notebook) := a.summary .empty
    let (found, notebook) := a.associate notebook
    match found with
    | .error f => (.error (.fault f), notebook.errors)
    | .ok docs =>
      let docs := FunctionDoc.restrictTo (s.settingsFor docs).tags docs
      let (types, notebook) := a.types notebook
      (.ok (s.assemble source.text index.referenceName summary docs types notebook.errors),
        notebook.errors)

/-- **The library that a text documents**, and its comments that could not be read. -/
def parse (s : Session) (text : Text) : Except Failure Library × List CommentError :=
  if s.settings.language ≠ "javascript" then (.error (.unknownLanguage s.settings.language), [])
  else s.document (Source.parse s.script text)

end Session

end DocModel
