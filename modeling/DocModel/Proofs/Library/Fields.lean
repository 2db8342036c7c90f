import DocModel.Library.Validation
import DocModel.Proofs.Basic
import Mathlib.Data.List.Nodup
import Mathlib.Tactic.Choose

/-!
# The fields of the settings

Named values become settings through a validator, which is given from outside. What is asked of it
is said by `Validator.GoesBy`: it goes by a reading of values at the types of the fields. Each name
has to be that of a field, each value has to be valid at the type of its field, a field holds what
its value stands for or else its default, and in which order the values are given shows only in the
order of the faults. No more than this is used of a validator later on.

A validator that reads values field by field meets these laws whatever its readers are, as long as
they read the values of the types as they stand (`fieldwise_goesBy`). So the one that is used in
runs does (`standard_goesBy`).
-/

namespace DocModel

/-! ## Entries by name -/

namespace Value

variable {entries entries' : List (Text × Value)} {key : Text}

/-- Entries in which each name stands once. -/
def IsMapping (entries : List (Text × Value)) : Prop := (entries.map Prod.fst).Nodup

instance : DecidablePred IsMapping := fun _ => inferInstanceAs (Decidable (List.Nodup _))

theorem IsMapping.entry?_eq_some_iff (h : IsMapping entries) {v : Value} :
    entry? key entries = some v ↔ (key, v) ∈ entries :=
  List.lookup_eq_some_iff_mem h

theorem entry?_cons_self (v : Value) : entry? key ((key, v) :: entries) = some v :=
  List.lookup_cons_self

theorem entry?_cons_of_ne {k : Text} (h : key ≠ k) (v : Value) :
    entry? key ((k, v) :: entries) = entry? key entries := by
  rw [Value.entry?, List.lookup_cons, beq_eq_false_iff_ne.mpr h]
  rfl

theorem isSome_entry?_iff : (Value.entry? key entries).isSome ↔ key ∈ entries.map Prod.fst := by
  rw [Value.entry?, List.lookup_isSome_iff, List.mem_map]
  exact exists_congr fun entry => and_congr_right' (beq_iff_eq.trans eq_comm)

theorem entry?_eq_none (h : key ∉ entries.map Prod.fst) : entry? key entries = none :=
  Option.not_isSome_iff_eq_none.mp (mt isSome_entry?_iff.mp h)

theorem IsMapping.perm (h : IsMapping entries) (hperm : entries.Perm entries') :
    IsMapping entries' :=
  (hperm.map Prod.fst).nodup_iff.mp h

/-- The order of the entries makes no difference for a look-up. -/
theorem IsMapping.entry?_perm (h : IsMapping entries) (hperm : entries.Perm entries')
    (key : Text) : entry? key entries = entry? key entries' := by
  refine Option.ext fun v => ?_
  rw [h.entry?_eq_some_iff, (h.perm hperm).entry?_eq_some_iff, hperm.mem_iff]

/-- Entries that all look-ups find alike differ only in their order. -/
theorem IsMapping.perm_of_lookup (h : IsMapping entries) (h' : IsMapping entries')
    (hsame : ∀ key, entry? key entries = entry? key entries') : entries.Perm entries' := by
  have hnodup : entries.Nodup := List.Nodup.of_map Prod.fst h
  have hnodup' : entries'.Nodup := List.Nodup.of_map Prod.fst h'
  refine (List.perm_ext_iff_of_nodup hnodup hnodup').mpr fun ⟨key, v⟩ => ?_
  rw [← h.entry?_eq_some_iff, ← h'.entry?_eq_some_iff, hsame]

theorem entry?_insertEntry_self (v : Value) :
    entry? key (insertEntry key v entries) = some v := by
  induction entries with
  | nil => exact entry?_cons_self v
  | cons entry entries ih =>
    obtain ⟨k, old⟩ := entry
    rw [insertEntry]
    split
    · next hk =>
      rw [hk, entry?_cons_self]
    · next hk =>
      rw [entry?_cons_of_ne (Ne.symm hk), ih]

theorem entry?_insertEntry_of_ne {k : Text} (h : key ≠ k) (v : Value) :
    entry? key (insertEntry k v entries) = entry? key entries := by
  induction entries with
  | nil => exact entry?_cons_of_ne h v
  | cons entry entries ih =>
    obtain ⟨k', old⟩ := entry
    rw [insertEntry]
    split
    · next hk =>
      have hkey : key ≠ k' := fun hkey => h (hkey.trans hk)
      rw [entry?_cons_of_ne hkey, entry?_cons_of_ne hkey]
    · by_cases hkey : key = k'
      · subst hkey
        rw [entry?_cons_self, entry?_cons_self]
      · rw [entry?_cons_of_ne hkey, entry?_cons_of_ne hkey, ih]

theorem mem_keys_insertEntry {k : Text} {v : Value} :
    k ∈ (insertEntry key v entries).map Prod.fst ↔ k = key ∨ k ∈ entries.map Prod.fst := by
  induction entries with
  | nil => simp [insertEntry]
  | cons entry entries ih =>
    rw [insertEntry]
    split
    · next hk => simp [hk]
    · rw [List.map_cons, List.mem_cons, ih, List.map_cons, List.mem_cons, or_left_comm]

theorem IsMapping.insertEntry (h : IsMapping entries) (key : Text) (v : Value) :
    IsMapping (insertEntry key v entries) := by
  induction entries with
  | nil => exact List.nodup_singleton key
  | cons entry entries ih =>
    obtain ⟨hentry, hentries⟩ := List.nodup_cons.mp h
    rw [Value.insertEntry]
    split
    · exact h
    · next hk =>
      refine List.nodup_cons.mpr ⟨fun hmem => ?_, ih hentries⟩
      exact (mem_keys_insertEntry.mp hmem).elim hk hentry

end Value

namespace Settings

/-! ## Fields -/

namespace Field

theorem mem_all (f : Field) : f ∈ all := by cases f <;> decide

theorem mem_names_iff {key : Text} : key ∈ all.map name ↔ ∃ f : Field, f.name = key := by
  rw [List.mem_map]
  exact ⟨fun ⟨f, _, hf⟩ => ⟨f, hf⟩, fun ⟨f, hf⟩ => ⟨f, f.mem_all, hf⟩⟩

/-- A value given for a field. A list of texts may be written as one text with commas. -/
def converted : Field → Value → Value
  | namespaces, v => splitList v
  | tags, v => splitList v
  | _, v => v

end Field

/-- Settings are made up of their fields. -/
theorem ext_get {s s' : Settings} (h : ∀ f, s.get f = s'.get f) : s = s' := by
  obtain ⟨namespaces, tags, grep, handlers, markdown, language⟩ := s
  obtain rfl : namespaces = s'.namespaces := h .namespaces
  obtain rfl : tags = s'.tags := h .tags
  obtain rfl : grep = s'.grep := h .grep
  obtain rfl : handlers = s'.exampleHandlers := h .exampleHandlers
  obtain rfl : markdown = s'.renderMarkdown := h .renderMarkdown
  obtain rfl : language = s'.language := h .language
  rfl

/-! ## Validators -/

/-- **A reading of values at the types of the fields**: what a value stands for, and nothing if it
is not valid there. -/
abbrev Reading := (f : Field) → Value → Option f.Content

/-- The settings hold in a field what the value given for it stands for, and the default if none is
given. -/
def HasField (read : Reading) (s : Settings) (f : Field) : Option Value → Prop
  | some v => read f v = some (s.get f)
  | none => s.get f = ({} : Settings).get f

/-- **The laws of a validator**, with the reading by which it goes. They are what its documentation
promises for settings whose fields have types and defaults, and of which no others may be given. -/
structure Validator.GoesBy (validate : Validator) (read : Reading) : Prop where
  /-- A value of the type of a field stands for itself. -/
  own : ∀ (f : Field) (content : f.Content), read f (f.toValue content) = some content
  /-- No names are accepted but those of fields. -/
  known : ∀ {entries : List (Text × Value)} {s : Settings}, Value.IsMapping entries →
    validate entries = .ok s → ∀ key ∈ entries.map Prod.fst, ∃ f : Field, f.name = key
  /-- Each field holds what is given for it or its default. -/
  holds : ∀ {entries : List (Text × Value)} {s : Settings}, Value.IsMapping entries →
    validate entries = .ok s → ∀ f : Field, s.HasField read f (Value.entry? f.name entries)
  /-- There is no other reason to refuse values than a name that is not known and a value that is
  not valid. -/
  accepts : ∀ {entries : List (Text × Value)}, Value.IsMapping entries →
    (∀ key ∈ entries.map Prod.fst, ∃ f : Field, f.name = key) →
    (∀ (f : Field) (v : Value), Value.entry? f.name entries = some v → (read f v).isSome) →
    ∃ s, validate entries = .ok s
  /-- The order of the values shows only in the order of the faults. -/
  perm : ∀ {entries entries' : List (Text × Value)} {r r' : Rejection}, Value.IsMapping entries →
    entries.Perm entries' → validate entries = .error r → validate entries' = .error r' →
    r.issues.Perm r'.issues

section Laws

variable {validate : Validator} {read : Reading} {entries entries' : List (Text × Value)}

/-- What is given for the fields determines the settings. -/
theorem HasField.unique {given : Field → Option Value} {s s' : Settings}
    (h : ∀ f, s.HasField read f (given f)) (h' : ∀ f, s'.HasField read f (given f)) : s = s' := by
  refine ext_get fun f => ?_
  have hf := h f
  have hf' := h' f
  cases hgiven : given f with
  | none =>
    rw [hgiven] at hf hf'
    exact hf.trans hf'.symm
  | some v =>
    rw [hgiven] at hf hf'
    exact Option.some.inj (hf.symm.trans hf')

/-- Values are accepted in any order if they are in one, and make the same settings. -/
theorem Validator.GoesBy.ok_perm (h : validate.GoesBy read) (hmapping : Value.IsMapping entries)
    (hperm : entries.Perm entries') {s : Settings} (hs : validate entries = .ok s) :
    validate entries' = .ok s := by
  have hmapping' := hmapping.perm hperm
  have hentry := hmapping.entry?_perm hperm
  have hholds := h.holds hmapping hs
  obtain ⟨s', hs'⟩ : ∃ s', validate entries' = .ok s' := by
    refine h.accepts hmapping' (fun key hkey => ?_) fun f v hv => ?_
    · exact h.known hmapping hs key ((hperm.map Prod.fst).mem_iff.mpr hkey)
    · have hf := hholds f
      rw [hentry, hv] at hf
      rw [hf]
      rfl
  have hholds' := h.holds hmapping' hs'
  simp only [← hentry] at hholds'
  rw [hs', HasField.unique hholds hholds']

/-- **The order of the values makes no difference**, except for that of the faults. -/
theorem Validator.GoesBy.validate_perm (h : validate.GoesBy read)
    (hmapping : Value.IsMapping entries) (hperm : entries.Perm entries') :
    (∃ s, validate entries = .ok s ∧ validate entries' = .ok s)
      ∨ ∃ r r', validate entries = .error r ∧ validate entries' = .error r'
        ∧ r.issues.Perm r'.issues := by
  cases hread : validate entries with
  | ok s => exact .inl ⟨s, rfl, h.ok_perm hmapping hperm hread⟩
  | error r =>
    cases hread' : validate entries' with
    | ok s =>
      have hback := h.ok_perm (hmapping.perm hperm) hperm.symm hread'
      exact absurd (hback.symm.trans hread) nofun
    | error r' => exact .inr ⟨r, r', rfl, rfl, h.perm hmapping hperm hread hread'⟩

end Laws

/-! ## Field by field -/

section Fieldwise

variable {readers : Readers} {entries entries' : List (Text × Value)} {s : Settings}

/-- The reading by which readers go. -/
def Readers.reading (readers : Readers) : Reading := fun f v => (readers f v).toOption

theorem reading_eq_some_iff {f : Field} {v : Value} {content : f.Content} :
    readers.reading f v = some content ↔ readers f v = .ok content := by
  rw [Readers.reading]
  cases readers f v <;> simp [Except.toOption]

/-- **A field is read if its value is**, and has its default if it has no value. -/
theorem readField_eq_ok_iff {f : Field} :
    readField readers entries f = .ok (s.get f)
      ↔ s.HasField readers.reading f (Value.entry? f.name entries) := by
  rw [readField]
  cases Value.entry? f.name entries with
  | none => exact ⟨fun h => (Except.ok.inj h).symm, fun h => congrArg Except.ok h.symm⟩
  | some v =>
    refine Iff.trans ?_ reading_eq_some_iff.symm
    dsimp only
    cases readers f v with
    | ok content => exact Iff.rfl
    | error faults => exact ⟨nofun, nofun⟩

theorem unknownIssues_eq_nil_iff :
    unknownIssues entries = [] ↔ ∀ key ∈ entries.map Prod.fst, ∃ f : Field, f.name = key := by
  simp only [unknownIssues, List.map_eq_nil_iff, List.filter_eq_nil_iff, List.forall_mem_map,
    ← Field.mem_names_iff, Bool.not_eq_true, Bool.not_eq_false', List.contains_iff_mem]

theorem Field.forall_iff {p : Field → Prop} :
    (∀ f, p f) ↔ p .namespaces ∧ p .tags ∧ p .grep ∧ p .exampleHandlers ∧ p .renderMarkdown
      ∧ p .language := by
  refine ⟨fun h => ⟨h _, h _, h _, h _, h _, h _⟩, ?_⟩
  rintro ⟨hnamespaces, htags, hgrep, hhandlers, hmarkdown, hlanguage⟩ f
  cases f <;> assumption

/-- **The settings that some values give**: each name is that of a field, and each field has what
is given for it. -/
theorem fieldwise_eq_ok_iff :
    fieldwise readers entries = .ok s
      ↔ unknownIssues entries = [] ∧ ∀ f, readField readers entries f = .ok (s.get f) := by
  rw [Field.forall_iff]
  constructor
  · intro h
    dsimp only [fieldwise] at h
    split at h
    · next hnamespaces htags hgrep hhandlers hmarkdown hlanguage hunknown =>
      cases h
      exact ⟨hunknown, hnamespaces, htags, hgrep, hhandlers, hmarkdown, hlanguage⟩
    · cases h
  · rintro ⟨hunknown, hnamespaces, htags, hgrep, hhandlers, hmarkdown, hlanguage⟩
    dsimp only [fieldwise]
    rw [hunknown, hnamespaces, htags, hgrep, hhandlers, hmarkdown, hlanguage]
    rfl

theorem fieldwise_eq_error {r : Rejection} (h : fieldwise readers entries = .error r) :
    r.issues = allIssues readers entries := by
  dsimp only [fieldwise] at h
  split at h
  · cases h
  · cases h
    rfl

theorem allIssues_perm (hmapping : Value.IsMapping entries) (hperm : entries.Perm entries') :
    (allIssues readers entries).Perm (allIssues readers entries') := by
  have hunknown : (unknownIssues entries).Perm (unknownIssues entries') := (hperm.filter _).map _
  simp only [allIssues, readField, hmapping.entry?_perm hperm]
  exact hunknown.append_left _

/-- **A validator that reads values field by field goes by what it reads.** -/
theorem fieldwise_goesBy (hown : ∀ f content, readers f (f.toValue content) = .ok content) :
    Validator.GoesBy (fieldwise readers) readers.reading where
  own f content := reading_eq_some_iff.mpr (hown f content)
  known _ hs := unknownIssues_eq_nil_iff.mp (fieldwise_eq_ok_iff.mp hs).1
  holds _ hs f := readField_eq_ok_iff.mp ((fieldwise_eq_ok_iff.mp hs).2 f)
  accepts := by
    intro entries _ hkeys hvalid
    have hfields : ∀ f, ∃ content, readField readers entries f = .ok content := by
      intro f
      rw [readField]
      cases hv : Value.entry? f.name entries with
      | none => exact ⟨_, rfl⟩
      | some v =>
        obtain ⟨content, hcontent⟩ := Option.isSome_iff_exists.mp (hvalid f v hv)
        dsimp only
        rw [reading_eq_some_iff.mp hcontent]
        exact ⟨content, rfl⟩
    choose content hcontent using hfields
    refine ⟨ofFields content, fieldwise_eq_ok_iff.mpr
      ⟨unknownIssues_eq_nil_iff.mpr hkeys, fun f => (hcontent f).trans ?_⟩⟩
    cases f <;> rfl
  perm := by
    intro entries entries' r r' hmapping hperm hr hr'
    rw [fieldwise_eq_error hr, fieldwise_eq_error hr']
    exact allIssues_perm hmapping hperm

end Fieldwise

/-! ## The validator of runs -/

theorem readItems_map {α : Type} {read : Value → Checked α} {make : α → Value}
    (hread : ∀ a, read (make a) = .ok a) (index : Nat) (l : List α) :
    readItems read index (l.map make) = .ok l := by
  induction l generalizing index with
  | nil => rfl
  | cons a l ih =>
    rw [List.map_cons, readItems, hread, ih]

theorem readRecord_record (entries : List (Text × Value)) :
    readRecord (.record entries) = .ok entries := by
  rw [Value.record, readRecord, if_pos (Value.all_isText_named entries),
    Value.textEntries_named]

theorem standardReaders_toValue (f : Field) (content : f.Content) :
    standardReaders f (f.toValue content) = .ok content := by
  have htext : ∀ t, ofKind "string_type" text? (.text t) = .ok t := fun _ => rfl
  cases f with
  | namespaces | tags => exact readItems_map htext 0 content
  | grep => cases content <;> rfl
  | exampleHandlers => exact readItems_map readRecord_record 0 content
  | renderMarkdown | language => rfl

/-- **The validator of runs obeys the laws.** -/
theorem standard_goesBy : Validator.GoesBy standard standardReaders.reading :=
  fieldwise_goesBy standardReaders_toValue

end Settings

end DocModel
