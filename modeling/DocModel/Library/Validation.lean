import DocModel.Library.Settings

/-!
# A validator of settings

A validator that reads named values field by field, given a reader for each field
(`Settings.fieldwise`). A field for which no value is given holds its default, and a name that is
that of no field is a fault. All faults are reported at once: those of the fields in their order,
then the unknown names in the order in which they were given.

`Settings.standard` is such a validator with the readers that are used in runs. A list, a text or
a map is read as it stands, and a truth value may also be given as a number or as a word.
-/

namespace DocModel.Settings

/-! ## Field by field -/

/-- A value that has been read, or its faults. -/
abbrev Checked (α : Type) := Except (List Issue) α

/-- **Readers for the fields.** The ways to faults start at the value. -/
abbrev Readers := (f : Field) → Value → Checked f.Content

/-- The faults of a checked value. -/
def issues {α : Type} : Checked α → List Issue
  | .ok _ => []
  | .error faults => faults

/-- What a field holds: what is given for it, if it can be read, or its default. -/
def readField (readers : Readers) (entries : List (Text × Value)) (f : Field) :
    Checked f.Content :=
  match Value.entry? f.name entries with
  | some v =>
    (readers f v).mapError fun faults =>
      faults.map fun i => { i with path := .name (.text f.name) :: i.path }
  | none => .ok (({} : Settings).get f)

/-- The faults of names that are those of no field. -/
def unknownIssues (entries : List (Text × Value)) : List Issue :=
  (entries.filter fun (key, _) => !(Field.all.map Field.name).contains key).map fun (key, _) =>
    ⟨[.name (.text key)], "extra_forbidden"⟩

/-- The faults of all values. -/
def allIssues (readers : Readers) (entries : List (Text × Value)) : List Issue :=
  Field.all.flatMap (fun f => issues (readField readers entries f)) ++ unknownIssues entries

/-- What is said about faults: how many there are. -/
def rejection (faults : List Issue) : Rejection where
  issues := faults
  message :=
    Text.ofNat faults.length
      ++ (if faults.length = 1 then " validation error" else " validation errors" : Text)
      ++ " for AutodocConfig"

/-- **The validator that reads values field by field.** -/
def fieldwise (readers : Readers) : Validator := fun entries =>
  let read := readField readers entries
  match read .namespaces, read .tags, read .grep, read .exampleHandlers, read .renderMarkdown,
      read .language, unknownIssues entries with
  | .ok namespaces, .ok tags, .ok grep, .ok exampleHandlers, .ok renderMarkdown, .ok language, [] =>
    .ok ⟨namespaces, tags, grep, exampleHandlers, renderMarkdown, language⟩
  | _, _, _, _, _, _, _ => .error (rejection (allIssues readers entries))

/-- Assigning to a field of given settings: it is refused, because settings are fixed once they are
made and `withTags` makes new ones. -/
def assign (_ : Settings) (field : Text) (_ : Value) : Checked Settings :=
  .error [⟨[.name (.text field)], "frozen_instance"⟩]

/-! ## Readers -/

/-- A value of which only the kind can be wrong. -/
def ofKind {α : Type} (kind : Text) (read? : Value → Option α) (v : Value) : Checked α :=
  match read? v with
  | some a => .ok a
  | none => .error [⟨[], kind⟩]

/-- All items of a list, each read by `read`, from the one with number `index` on. All of their
faults are faults of the list. -/
def readItems {α : Type} (read : Value → Checked α) (index : Nat) :
    List Value → Checked (List α)
  | [] => .ok []
  | v :: vs =>
    match read v, readItems read (index + 1) vs with
    | .ok a, .ok as => .ok (a :: as)
    | first, others =>
      .error ((issues first).map (fun i => { i with path := .item index :: i.path })
        ++ issues others)

/-- A list each of whose items is read by `read`. -/
def readList {α : Type} (read : Value → Checked α) : Value → Checked (List α)
  | .list items => readItems read 0 items
  | _ => .error [⟨[], "list_type"⟩]

/-- A text. -/
def text? : Value → Option Text
  | .text t => some t
  | _ => none

/-- A text that may be missing. -/
def optionalText? : Value → Option (Option Text)
  | .null => some none
  | .text t => some (some t)
  | _ => none

/-- A map whose names are texts. -/
def readRecord : Value → Checked (List (Text × Value))
  | .map entries =>
    if entries.all (·.1.isText) then .ok (Value.textEntries entries)
    else
      .error ((entries.filter (!·.1.isText)).map fun (key, _) =>
        ⟨[.name key, .key], "string_type"⟩)
  | _ => .error [⟨[], "dict_type"⟩]

/-- The words for truth values, in lower case. -/
def truthWords : List (Text × Bool) :=
  [("0", false), ("off", false), ("f", false), ("false", false), ("n", false), ("no", false),
   ("1", true), ("on", true), ("t", true), ("true", true), ("y", true), ("yes", true)]

/-- A truth value, also as a number or a word. -/
def readTruth : Value → Checked Bool
  | .bool b => .ok b
  | .int n => if n = 0 then .ok false else if n = 1 then .ok true else .error [⟨[], "bool_parsing"⟩]
  | .float x =>
    if x.isZero then .ok false
    else if x = .ofDecimal false 1 0 then .ok true
    else .error [⟨[], "bool_parsing"⟩]
  | .text t =>
    match truthWords.lookup (t.map Char.toLower) with
    | some b => .ok b
    | none => .error [⟨[], "bool_parsing"⟩]
  | _ => .error [⟨[], "bool_type"⟩]

/-- The readers that are used in runs. -/
def standardReaders : Readers
  | .namespaces => readList (ofKind "string_type" text?)
  | .tags => readList (ofKind "string_type" text?)
  | .grep => ofKind "string_type" optionalText?
  | .exampleHandlers => readList readRecord
  | .renderMarkdown => readTruth
  | .language => ofKind "string_type" text?

/-- **The validator that is used in runs.** -/
def standard : Validator := fieldwise standardReaders

end DocModel.Settings
