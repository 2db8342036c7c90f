import DocModel.Proofs.Library.Fields

/-!
# Which value a field takes

The settings come from three places: the command line, the settings file, and the defaults. Which of
them a field takes its value from is decided field by field: `merged` is the value given for it, and
the settings hold what that value stands for, or the default if none is given.

The values are merged by replacing entries in a list, one after the other, and then put to the
validator together. A look-up in the merged list is a look-up in the two sources
(`entry?_override`), and a file that is missing, empty or unreadable counts as one without entries
(`load_of_entries?`). The main statement says when loading fails, what it gives otherwise, and that
neither null on the command line nor the order of the entries makes a difference
(`load_follows_merged`). It holds of every validator that obeys the laws.
-/

namespace DocModel.Settings

/-! ## Merging -/

section Merging

variable {entries overrides entries' overrides' : List (Text × Value)}

/-- **The value given under a name**: that of the command line, if there is one and it is not null,
and that of the file otherwise. -/
def merged (entries overrides : List (Text × Value)) (key : Text) : Option Value :=
  ((Value.entry? key overrides).filter fun v => !v.isNull).or (Value.entry? key entries)

theorem override_cons (key : Text) (v : Value) :
    override entries ((key, v) :: overrides)
      = override (if v.isNull then entries else Value.insertEntry key v entries) overrides := rfl

/-- **A look-up in the merged values** finds what is given under the name. -/
theorem entry?_override (h : Value.IsMapping overrides) (key : Text) :
    Value.entry? key (override entries overrides) = merged entries overrides key := by
  -- The first override has changed the entries before the others are made, so the induction is over
  -- all entries.
  induction overrides generalizing entries with
  | nil => rfl
  | cons entry overrides ih =>
    obtain ⟨k, v⟩ := entry
    obtain ⟨hk, hoverrides⟩ := List.nodup_cons.mp h
    rw [override_cons, ih hoverrides, merged, merged]
    by_cases hkey : key = k
    · subst hkey
      rw [Value.entry?_eq_none hk, Value.entry?_cons_self]
      cases hnull : v.isNull with
      | true => simp [Option.filter_some, hnull]
      | false => simp [Option.filter_some, hnull, Value.entry?_insertEntry_self]
    · rw [Value.entry?_cons_of_ne hkey]
      cases hnull : v.isNull with
      | true => simp
      | false => simp [Value.entry?_insertEntry_of_ne hkey]

theorem isMapping_override (h : Value.IsMapping entries) (overrides : List (Text × Value)) :
    Value.IsMapping (override entries overrides) := by
  induction overrides generalizing entries with
  | nil => exact h
  | cons entry overrides ih =>
    obtain ⟨k, v⟩ := entry
    rw [override_cons]
    refine ih ?_
    split
    · exact h
    · exact h.insertEntry k v

/-- Null on the command line is as good as nothing. -/
theorem override_filter_isNull (entries overrides : List (Text × Value)) :
    override entries (overrides.filter fun entry => !entry.2.isNull)
      = override entries overrides := by
  induction overrides generalizing entries with
  | nil => rfl
  | cons entry overrides ih =>
    obtain ⟨k, v⟩ := entry
    rw [List.filter_cons, override_cons]
    cases hnull : v.isNull with
    | true => simpa [hnull] using ih entries
    | false => simpa [hnull, override_cons] using ih (Value.insertEntry k v entries)

theorem keys_splitLists (entries : List (Text × Value)) :
    (splitLists entries).map Prod.fst = entries.map Prod.fst := by
  rw [splitLists, List.map_map]
  rfl

theorem entry?_splitLists (f : Field) :
    Value.entry? f.name (splitLists entries) = (Value.entry? f.name entries).map f.converted := by
  induction entries with
  | nil => rfl
  | cons entry entries ih =>
    obtain ⟨k, v⟩ := entry
    rw [splitLists, List.map_cons, ← splitLists]
    by_cases hk : f.name = k
    · subst hk
      rw [Value.entry?_cons_self, Value.entry?_cons_self]
      cases f <;> rfl
    · rw [Value.entry?_cons_of_ne hk, Value.entry?_cons_of_ne hk, ih]

/-- **What is given for a field** once the values have been merged. -/
theorem entry?_splitLists_override (h : Value.IsMapping overrides) (f : Field) :
    Value.entry? f.name (splitLists (override entries overrides))
      = (merged entries overrides f.name).map f.converted := by
  rw [entry?_splitLists, entry?_override h]

theorem mem_keys_iff_isSome_merged (h : Value.IsMapping overrides) {key : Text} :
    key ∈ (splitLists (override entries overrides)).map Prod.fst
      ↔ (merged entries overrides key).isSome := by
  rw [keys_splitLists, ← Value.isSome_entry?_iff, entry?_override h]

theorem isMapping_splitLists (h : Value.IsMapping entries) :
    Value.IsMapping (splitLists entries) := by
  rw [Value.IsMapping, keys_splitLists]
  exact h

theorem merged_perm (hentries : Value.IsMapping entries) (hoverrides : Value.IsMapping overrides)
    (hentriesPerm : entries.Perm entries') (hoverridesPerm : overrides.Perm overrides')
    (key : Text) : merged entries overrides key = merged entries' overrides' key := by
  rw [merged, merged, hentries.entry?_perm hentriesPerm, hoverrides.entry?_perm hoverridesPerm]

/-- Values given in another order are merged to the same values in another order. -/
theorem splitLists_override_perm (hentries : Value.IsMapping entries)
    (hoverrides : Value.IsMapping overrides) (hentriesPerm : entries.Perm entries')
    (hoverridesPerm : overrides.Perm overrides') :
    (splitLists (override entries overrides)).Perm (splitLists (override entries' overrides')) := by
  have hmapping := isMapping_override hentries overrides
  have hmapping' := isMapping_override (hentries.perm hentriesPerm) overrides'
  refine List.Perm.map _ (hmapping.perm_of_lookup hmapping' fun key => ?_)
  rw [entry?_override hoverrides, entry?_override (hoverrides.perm hoverridesPerm),
    merged_perm hentries hoverrides hentriesPerm hoverridesPerm]

end Merging

/-! ## Loading -/

/-- The values that a settings file gives, if it holds values named by texts or nothing at all.
A file that is missing or cannot be read gives none. -/
def File.entries? : File → Option (List (Text × Value))
  | missing => some []
  | unreadable => some []
  | failing _ => none
  | holding (.map entries) =>
    if entries.all (·.1.isText) then some (Value.textEntries entries) else none
  | holding v => if v.isSomething then none else some []

/-- Whether a problem lies in the values, and not in the form of the file. -/
def Problem.IsRefusal : Problem → Prop
  | unknownLanguage _ => True
  | invalid _ => True
  | _ => False

section Loading

variable {validate : Validator} {file file' : File} (explicit explicit' : Bool)
  {entries overrides entries' overrides' : List (Text × Value)}

theorem gather_map (entries : List (Key × Value)) :
    gather (.map entries) = .ok ⟨Value.textEntries entries, !entries.all (·.1.isText)⟩ := by
  cases entries <;> rfl

theorem gather_of_isSomething {v : Value} (h : v.isSomething = false) :
    gather v = .ok ⟨[], false⟩ := by
  unfold gather
  rw [h]
  rfl

theorem load_holding {v : Value} {g : Gathered} (h : gather v = .ok g) :
    (load validate (.holding v) explicit overrides).1 = settle validate overrides g := by
  rw [load, File.gather, h]
  rfl

/-- **A file that is missing, empty or unreadable counts as one without entries.** -/
theorem load_of_entries? (h : file.entries? = some entries) :
    (load validate file explicit overrides).1 = settle validate overrides ⟨entries, false⟩ := by
  unfold File.entries? at h
  split at h
  · cases h
    rfl
  · cases h
    rfl
  · cases h
  · next named =>
    split at h
    · next htexts =>
      cases h
      rw [load_holding explicit (gather_map named), htexts]
      rfl
    · cases h
  · next v =>
    split at h
    · cases h
    · next hsomething =>
      cases h
      exact load_holding explicit (gather_of_isSomething (Bool.eq_false_iff.mpr hsomething))

theorem entry?_language (hoverrides : Value.IsMapping overrides) :
    Value.entry? "language" (splitLists (override entries overrides))
      = merged entries overrides Field.language.name :=
  (entry?_splitLists_override hoverrides .language).trans Option.map_id'

/-- The language is looked at before anything else that was gathered. -/
theorem settle_of_unknownLanguage {g : Gathered} (hoverrides : Value.IsMapping overrides)
    {given : Value} (hgiven : merged g.entries overrides Field.language.name = some given)
    (hother : given ≠ .text "javascript") :
    settle validate overrides g = .error (.unknownLanguage given) := by
  rw [settle]
  simp only [entry?_language hoverrides, hgiven, Option.getD_some, bind, Except.bind]
  cases given with
  | text t =>
    have ht : t ≠ ("javascript" : Text) := fun ht => hother (congrArg Value.text ht)
    simp only [if_neg ht]
  | _ => rfl

theorem getD_javascript {given : Option Value} (h : ∀ v ∈ given, v = .text "javascript") :
    given.getD "javascript" = .text "javascript" := by
  cases given with
  | none => rfl
  | some v => exact h v rfl

/-- With the right language, or none, it is up to the validator, unless a name is no text. -/
theorem settle_of_javascript {g : Gathered} (hoverrides : Value.IsMapping overrides)
    (hgiven : ∀ v ∈ merged g.entries overrides Field.language.name, v = .text "javascript") :
    settle validate overrides g = if g.odd then .error .oddName
      else (validate (splitLists (override g.entries overrides))).mapError .invalid := by
  rw [settle]
  simp only [entry?_language hoverrides, getD_javascript hgiven, bind, Except.bind]
  cases g.odd with
  | true => rfl
  | false => cases validate (splitLists (override g.entries overrides)) <;> rfl

theorem javascript_or_other (given : Option Value) :
    (∀ v ∈ given, v = .text "javascript") ∨ ∃ v, given = some v ∧ v ≠ .text "javascript" := by
  by_cases h : ∀ v ∈ given, v = .text "javascript"
  · exact .inl h
  · simp only [not_forall] at h
    obtain ⟨v, hgiven, hv⟩ := h
    exact .inr ⟨v, hgiven, hv⟩

section Entries

variable (hfile : file.entries? = some entries) (hoverrides : Value.IsMapping overrides)
include hfile hoverrides

/-- The language is looked at before the values are put to the validator. -/
theorem load_of_unknownLanguage {v : Value}
    (hgiven : merged entries overrides Field.language.name = some v)
    (hv : v ≠ .text "javascript") :
    (load validate file explicit overrides).1 = .error (.unknownLanguage v) := by
  rw [load_of_entries? explicit hfile]
  exact settle_of_unknownLanguage hoverrides hgiven hv

/-- With the right language, or none, loading is validating the merged values. -/
theorem load_of_javascript
    (hgiven : ∀ v ∈ merged entries overrides Field.language.name, v = .text "javascript") :
    (load validate file explicit overrides).1
      = (validate (splitLists (override entries overrides))).mapError .invalid := by
  rw [load_of_entries? explicit hfile]
  exact settle_of_javascript hoverrides hgiven

end Entries

/-! ## Precedence -/

/-- **Given values are refused** if one of them is for no field, if the language is another one, or
if one is not valid at the type of its field. -/
def Refused (read : Reading) (given : Text → Option Value) : Prop :=
  (∃ key, (given key).isSome ∧ ∀ f : Field, f.name ≠ key)
    ∨ (∃ v, given Field.language.name = some v ∧ v ≠ .text "javascript")
    ∨ ∃ (f : Field) (v : Value), given f.name = some v ∧ read f (f.converted v) = none

/-- Two ways of loading end alike: with the same settings, with the same language that is not known,
or with the same faults in some order. -/
inductive SameOutcome : Except Problem Settings → Except Problem Settings → Prop where
  /-- The same settings. -/
  | ok (s : Settings) : SameOutcome (.ok s) (.ok s)
  /-- The same language. -/
  | unknownLanguage (v : Value) :
    SameOutcome (.error (.unknownLanguage v)) (.error (.unknownLanguage v))
  /-- The same faults. -/
  | invalid {r r' : Rejection} (h : r.issues.Perm r'.issues) :
    SameOutcome (.error (.invalid r)) (.error (.invalid r'))

section Laws

variable {read : Reading} (hvalidate : validate.GoesBy read) (hentries : Value.IsMapping entries)
  (hoverrides : Value.IsMapping overrides)
include hvalidate hentries hoverrides

/-- **Values that are not refused are accepted.** -/
theorem exists_validate_of_not_refused (h : ¬Refused read (merged entries overrides)) :
    ∃ s, validate (splitLists (override entries overrides)) = .ok s := by
  obtain ⟨hkeys, -, hvalid⟩ : _ ∧ _ ∧ _ := by
    simpa only [Refused, not_or] using h
  refine hvalidate.accepts (isMapping_splitLists (isMapping_override hentries overrides))
    (fun key hkey => ?_) fun f v hv => ?_
  · have hgiven := (mem_keys_iff_isSome_merged hoverrides).mp hkey
    exact not_forall_not.mp fun hnot => hkeys ⟨key, hgiven, hnot⟩
  · rw [entry?_splitLists_override hoverrides] at hv
    obtain ⟨u, hu, rfl⟩ := Option.map_eq_some_iff.mp hv
    exact Option.ne_none_iff_isSome.mp fun hnone => hvalid ⟨f, u, hu, hnone⟩

/-- Each field holds what is given for it. -/
theorem hasField_of_validate {s : Settings}
    (h : validate (splitLists (override entries overrides)) = .ok s) (f : Field) :
    s.HasField read f ((merged entries overrides f.name).map f.converted) := by
  rw [← entry?_splitLists_override hoverrides]
  exact hvalidate.holds (isMapping_splitLists (isMapping_override hentries overrides)) h f

/-- **Values that are accepted are not refused**, unless it is for the language. -/
theorem not_refused_of_validate {s : Settings}
    (h : validate (splitLists (override entries overrides)) = .ok s)
    (hlanguage : ∀ v ∈ merged entries overrides Field.language.name, v = .text "javascript") :
    ¬Refused read (merged entries overrides) := by
  have hmapping := isMapping_splitLists (isMapping_override hentries overrides)
  rintro (⟨key, hgiven, hkey⟩ | ⟨v, hgiven, hv⟩ | ⟨f, v, hgiven, hv⟩)
  · have hmem := (mem_keys_iff_isSome_merged hoverrides).mpr hgiven
    obtain ⟨f, hf⟩ := hvalidate.known hmapping h key hmem
    exact hkey f hf
  · exact hv (hlanguage v hgiven)
  · have hf := hasField_of_validate hvalidate hentries hoverrides h f
    rw [hgiven] at hf
    exact absurd (hv.symm.trans hf) nofun

variable (hfile : file.entries? = some entries)
include hfile

/-- Refused values make loading fail. -/
theorem exists_isRefusal_of_refused (h : Refused read (merged entries overrides)) :
    ∃ p, (load validate file explicit overrides).1 = .error p ∧ p.IsRefusal := by
  obtain hlanguage | ⟨v, hgiven, hv⟩ :=
    javascript_or_other (merged entries overrides Field.language.name)
  · rw [load_of_javascript explicit hfile hoverrides hlanguage]
    cases hread : validate (splitLists (override entries overrides)) with
    | ok s =>
      exact absurd h (not_refused_of_validate hvalidate hentries hoverrides hread hlanguage)
    | error r => exact ⟨.invalid r, rfl, trivial⟩
  · exact ⟨_, load_of_unknownLanguage explicit hfile hoverrides hgiven hv, trivial⟩

/-- Values that are not refused give settings, which follow them field by field. -/
theorem exists_load_of_not_refused (h : ¬Refused read (merged entries overrides)) :
    ∃ s, (load validate file explicit overrides).1 = .ok s
      ∧ ∀ f : Field, s.HasField read f ((merged entries overrides f.name).map f.converted) := by
  obtain ⟨s, hs⟩ := exists_validate_of_not_refused hvalidate hentries hoverrides h
  have hlanguage : ∀ v ∈ merged entries overrides Field.language.name, v = .text "javascript" :=
    fun v hv => not_not.mp fun hnot => h (.inr (.inl ⟨v, hv, hnot⟩))
  refine ⟨s, ?_, hasField_of_validate hvalidate hentries hoverrides hs⟩
  rw [load_of_javascript explicit hfile hoverrides hlanguage, hs]
  rfl

/-- The order of the entries makes no difference, in the file and on the command line. -/
theorem sameOutcome_load (hfile' : file'.entries? = some entries')
    (hentriesPerm : entries.Perm entries') (hoverridesPerm : overrides.Perm overrides') :
    SameOutcome (load validate file explicit overrides).1
      (load validate file' explicit' overrides').1 := by
  have hoverrides' := hoverrides.perm hoverridesPerm
  have hmerged := merged_perm hentries hoverrides hentriesPerm hoverridesPerm
  obtain hlanguage | ⟨v, hgiven, hv⟩ :=
    javascript_or_other (merged entries overrides Field.language.name)
  · rw [load_of_javascript explicit hfile hoverrides hlanguage,
      load_of_javascript explicit' hfile' hoverrides' (hmerged _ ▸ hlanguage)]
    have hmapping := isMapping_splitLists (isMapping_override hentries overrides)
    have hperm := splitLists_override_perm hentries hoverrides hentriesPerm hoverridesPerm
    obtain ⟨s, hs, hs'⟩ | ⟨r, r', hr, hr', hissues⟩ := hvalidate.validate_perm hmapping hperm
    · rw [hs, hs']
      exact .ok s
    · rw [hr, hr']
      exact .invalid hissues
  · rw [load_of_unknownLanguage explicit hfile hoverrides hgiven hv,
      load_of_unknownLanguage explicit' hfile' hoverrides' ((hmerged _).symm.trans hgiven) hv]
    exact .unknownLanguage v

end Laws

/-- The entries of a settings file. -/
def sampleEntries : List (Text × Value) :=
  [("namespaces", "fun, math,"), ("grep", "map"), ("tags", .texts ["public"])]

/-- A command line that replaces one of these entries, adds one, and has null for another. -/
def sampleOverrides : List (Text × Value) :=
  [("tags", .null), ("render_markdown", "Yes"), ("grep", "filter")]

end Loading

end DocModel.Settings
