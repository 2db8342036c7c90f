import DocModel.Proofs.Library.Precedence

/-!
# When loading settings ends neither with settings nor with a refusal

Values that are refused are one way in which loading can fail. A settings file whose form is wrong
is another, and it shows before any value is looked at: a list or a text in the file is taken as
a sequence of pairs, each with a name and a value, so a list of names fails while it is gathered and
a number fails because it has no parts. A name that is no text is gathered all the same. It shows
only when the values are put to the validator, and not at all if the language is refused before.

The main statement says for every file whether loading ends with settings or a refusal
(`load_decided_iff`): it does for a file that is missing, unreadable or empty, and for named values
and for a sequence exactly under a condition on the names and on the parts (`File.WellFormed`).
Nothing is asked of the validator.
-/

namespace DocModel.Settings

/-! ## Pairs -/

/-- The name and the value in a pair, which is a value with just two parts. -/
def pair? (v : Value) : Option (Value × Value) :=
  match parts? v with
  | some [name, value] => some (name, value)
  | _ => none

/-- Whether a value can stand as a name. -/
def IsName : Value → Prop
  | .list _ => False
  | .map _ => False
  | _ => True

/-- Whether a value is a pair of a name and a value. -/
def IsPair (v : Value) : Prop := ∃ name value, pair? v = some (name, value) ∧ IsName name

/-- Whether a value is a pair whose name is a text. -/
def HasTextName (v : Value) : Prop := ∃ key value, pair? v = some (.text key, value)

/-- The value in a pair with the given name. -/
def named? (key : Text) (v : Value) : Option Value :=
  match pair? v with
  | some (.text name, value) => if name = key then some value else none
  | _ => none

/-- **The value that pairs give under a name**: the last one counts. -/
def lastNamed? (key : Text) (pairs : List Value) : Option Value :=
  pairs.reverse.findSome? (named? key)

theorem lastNamed?_cons (key : Text) (v : Value) (vs : List Value) :
    lastNamed? key (v :: vs) = (lastNamed? key vs).or (named? key v) := by
  rw [lastNamed?, List.reverse_cons, List.findSome?_append, List.findSome?_singleton]
  rfl

/-! ## Gathering pairs -/

section Gathering

variable {g : Gathered} {index : Nat} {v : Value} {vs : List Value}

/-- **What one more pair does**: a text names its value, any other name is only noted, and what is
no pair ends the gathering, though not with a refusal. -/
theorem gatherPairs_cases (g : Gathered) (index : Nat) (v : Value) (vs : List Value) :
    (∃ key value, pair? v = some (.text key, value) ∧ gatherPairs g index (v :: vs)
        = gatherPairs { g with entries := Value.insertEntry key value g.entries } (index + 1) vs) ∨
      (∃ name value, pair? v = some (name, value) ∧ IsName name ∧ (∀ key, name ≠ .text key) ∧
        gatherPairs g index (v :: vs) = gatherPairs { g with odd := true } (index + 1) vs) ∨
      (¬IsPair v ∧ ∃ p, gatherPairs g index (v :: vs) = .error p ∧ ¬p.IsRefusal) := by
  have hnone (h : pair? v = none) : ¬IsPair v := by
    rintro ⟨name, value, hpair, -⟩
    rw [h] at hpair
    cases hpair
  have hcompound {name value : Value} (h : pair? v = some (name, value)) (hname : ¬IsName name) :
      ¬IsPair v := by
    rintro ⟨name', value', hpair, hname'⟩
    cases h.symm.trans hpair
    exact hname hname'
  rw [gatherPairs]
  rcases hparts : parts? v with _ | (_ | ⟨name, _ | ⟨value, _ | ⟨extra, more⟩⟩⟩)
  · exact .inr (.inr ⟨hnone (by rw [pair?, hparts]), .noPair index, rfl, id⟩)
  · exact .inr (.inr ⟨hnone (by rw [pair?, hparts]), .wrongLength index 0, rfl, id⟩)
  · have hlength := hnone (by rw [pair?, hparts])
    exact .inr (.inr ⟨hlength, .wrongLength index 1, by cases name <;> rfl, id⟩)
  · have hpair : pair? v = some (name, value) := by rw [pair?, hparts]
    cases name with
    | text key => exact .inl ⟨key, value, hpair, rfl⟩
    | list items => exact .inr (.inr ⟨hcompound hpair id, .compoundName _, rfl, id⟩)
    | map entries => exact .inr (.inr ⟨hcompound hpair id, .compoundName _, rfl, id⟩)
    | _ => exact .inr (.inl ⟨_, value, hpair, trivial, nofun, rfl⟩)
  · have hlength := hnone (by rw [pair?, hparts])
    exact .inr (.inr ⟨hlength, .wrongLength index (more.length + 3), by cases name <;> rfl, id⟩)

/-- **Pairs are gathered**: under each name the last value, and whether a name was no text. -/
theorem exists_gatherPairs (h : ∀ v ∈ vs, IsPair v) (g : Gathered) (index : Nat) :
    ∃ g', gatherPairs g index vs = .ok g' ∧
      (g'.odd = false ↔ g.odd = false ∧ ∀ v ∈ vs, HasTextName v) ∧
      ∀ key, Value.entry? key g'.entries
        = (lastNamed? key vs).or (Value.entry? key g.entries) := by
  induction vs generalizing g index with
  | nil => exact ⟨g, rfl, by simp, fun key => rfl⟩
  | cons v vs ih =>
    obtain ⟨hv, hvs⟩ := List.forall_mem_cons.mp h
    obtain ⟨k, value, hpair, hstep⟩ | ⟨name, value, hpair, -, hname, hstep⟩ | ⟨hnot, -⟩ :=
      gatherPairs_cases g index v vs
    · obtain ⟨g', hg', hodd, hentries⟩ := ih hvs
        { g with entries := Value.insertEntry k value g.entries } (index + 1)
      refine ⟨g', hstep.trans hg', ?_, fun key => ?_⟩
      · have htext : HasTextName v := ⟨k, value, hpair⟩
        rw [hodd, List.forall_mem_cons, and_iff_right htext]
      · rw [hentries, lastNamed?_cons, Option.or_assoc]
        congr 1
        by_cases hkey : k = key
        · subst hkey
          simp [named?, hpair, Value.entry?_insertEntry_self]
        · simp [named?, hpair, hkey, Value.entry?_insertEntry_of_ne (Ne.symm hkey)]
    · obtain ⟨g', hg', hodd, hentries⟩ := ih hvs { g with odd := true } (index + 1)
      refine ⟨g', hstep.trans hg', ?_, fun key => ?_⟩
      · rw [hodd]
        refine iff_of_false (fun hfalse => Bool.noConfusion hfalse.1) fun hall => ?_
        obtain ⟨k, value', hpair'⟩ := (List.forall_mem_cons.mp hall.2).1
        cases hpair.symm.trans hpair'
        exact hname k rfl
      · have hnone : named? key v = none := by
          unfold named?
          rw [hpair]
          cases name with
          | text k => exact absurd rfl (hname k)
          | _ => rfl
        rw [hentries, lastNamed?_cons, hnone, Option.or_none]
    · exact absurd hv hnot

/-- What is not made of pairs cannot be gathered, and that is no refusal. -/
theorem gatherPairs_eq_error (h : ¬∀ v ∈ vs, IsPair v) (g : Gathered) (index : Nat) :
    ∃ p, gatherPairs g index vs = .error p ∧ ¬p.IsRefusal := by
  induction vs generalizing g index with
  | nil => exact absurd (fun _ hmem => absurd hmem List.not_mem_nil) h
  | cons v vs ih =>
    rw [List.forall_mem_cons, not_and] at h
    obtain ⟨k, value, hpair, hstep⟩ | ⟨name, value, hpair, hname, -, hstep⟩ | ⟨-, p, hp⟩ :=
      gatherPairs_cases g index v vs
    · rw [hstep]
      exact ih (h ⟨_, value, hpair, trivial⟩) _ _
    · rw [hstep]
      exact ih (h ⟨name, value, hpair, hname⟩) _ _
    · exact ⟨p, hp⟩

end Gathering

/-! ## Loading -/

/-- Whether loading ends with settings or with a refusal. -/
def Decided (outcome : Except Problem Settings) : Prop :=
  (∃ s, outcome = .ok s) ∨ ∃ p, outcome = .error p ∧ p.IsRefusal

/-- The language that results is refused: the one on the command line or, without it, the given
one. -/
def LanguageRefused (overrides : List (Text × Value)) (given : Option Value) : Prop :=
  ∃ language, ((Value.entry? "language" overrides).filter fun v => !v.isNull).or given
    = some language ∧ language ≠ .text "javascript"

/-- **Named values of the right form.** Their names must be texts, unless the language is refused
before this shows. -/
def WellFormedEntries (overrides : List (Text × Value)) (entries : List (Key × Value)) : Prop :=
  (∀ entry ∈ entries, entry.1.isText = true) ∨
    LanguageRefused overrides (Value.entry? "language" (Value.textEntries entries))

/-- **Pairs of the right form.** Their names must be texts, unless the language, of which the last
pair for it counts, is refused before this shows. -/
def WellFormedPairs (overrides : List (Text × Value)) (pairs : List Value) : Prop :=
  (∀ part ∈ pairs, IsPair part) ∧
    ((∀ part ∈ pairs, HasTextName part) ∨
      LanguageRefused overrides (lastNamed? "language" pairs))

/-- **A settings file of the right form**: there is nothing in it, or it holds named values or
pairs of the right form. -/
def File.WellFormed (overrides : List (Text × Value)) : File → Prop
  | missing => True
  | unreadable => True
  | failing _ => False
  | holding (.map entries) => WellFormedEntries overrides entries
  | holding v => v.isSomething = false ∨
      ∃ pairs, parts? v = some pairs ∧ WellFormedPairs overrides pairs

section Loading

variable {validate : Validator} {file : File} (explicit : Bool)
  {entries overrides : List (Text × Value)} {v : Value}

theorem decided_error_iff {p : Problem} : Decided (.error p) ↔ p.IsRefusal := by
  constructor
  · rintro (⟨s, hs⟩ | ⟨p', hp', hrefusal⟩)
    · cases hs
    · cases hp'
      exact hrefusal
  · exact fun hrefusal => .inr ⟨p, rfl, hrefusal⟩

/-- What has been gathered is accepted or refused, unless a name is no text and the language is
right. -/
theorem decided_settle_iff (g : Gathered) (hoverrides : Value.IsMapping overrides) :
    Decided (settle validate overrides g) ↔
      g.odd = false ∨ LanguageRefused overrides (Value.entry? "language" g.entries) := by
  obtain hlanguage | ⟨given, hgiven, hother⟩ :=
    javascript_or_other (merged g.entries overrides Field.language.name)
  · rw [settle_of_javascript hoverrides hlanguage]
    cases hodd : g.odd with
    | false =>
      refine iff_of_true ?_ (.inl rfl)
      show Decided ((validate (splitLists (override g.entries overrides))).mapError .invalid)
      cases validate (splitLists (override g.entries overrides)) with
      | ok s => exact .inl ⟨s, rfl⟩
      | error r => exact .inr ⟨.invalid r, rfl, trivial⟩
    | true =>
      rw [if_pos rfl, decided_error_iff]
      refine iff_of_false id ?_
      rintro (hfalse | ⟨given, hgiven, hother⟩)
      · cases hfalse
      · exact hother (hlanguage given hgiven)
  · rw [settle_of_unknownLanguage hoverrides hgiven hother, decided_error_iff]
    exact iff_of_true trivial (.inr ⟨given, hgiven, hother⟩)

theorem load_of_gather_eq_error {p : Problem} (hgather : gather v = .error p) :
    (load validate (.holding v) explicit overrides).1 = .error p := by
  rw [load, File.gather, hgather]
  rfl

/-- A value that is something, but holds no named values, is taken as a sequence. -/
theorem gather_of_not_map (hsomething : v.isSomething = true)
    (hmap : ∀ entries, v ≠ .map entries) :
    gather v = (parts? v).elim (.error (.noParts v)) (gatherPairs ⟨[], false⟩ 0) := by
  unfold gather
  rw [hsomething]
  cases v with
  | map entries => exact absurd rfl (hmap entries)
  | _ => rfl

/-- Named values of the right form are accepted or refused, and no others. -/
theorem decided_map_iff (entries : List (Key × Value)) (hoverrides : Value.IsMapping overrides) :
    Decided (load validate (.holding (.map entries)) explicit overrides).1 ↔
      WellFormedEntries overrides entries := by
  rw [load_holding explicit (gather_map entries), decided_settle_iff _ hoverrides,
    WellFormedEntries, Bool.not_eq_false', List.all_eq_true]

/-- Pairs of the right form are accepted or refused, and no others. -/
theorem decided_of_pairs {pairs : List Value}
    (hgather : gather v = gatherPairs ⟨[], false⟩ 0 pairs)
    (hoverrides : Value.IsMapping overrides) :
    Decided (load validate (.holding v) explicit overrides).1 ↔
      WellFormedPairs overrides pairs := by
  by_cases hpairs : ∀ part ∈ pairs, IsPair part
  · obtain ⟨g, hg, hodd, hentries⟩ := exists_gatherPairs hpairs ⟨[], false⟩ 0
    have hlanguage : Value.entry? "language" g.entries = lastNamed? "language" pairs :=
      (hentries "language").trans Option.or_none
    rw [load_holding explicit (hgather.trans hg), decided_settle_iff _ hoverrides, hodd,
      hlanguage, and_iff_right rfl, WellFormedPairs, and_iff_right hpairs]
  · obtain ⟨p, hp, hrefusal⟩ := gatherPairs_eq_error hpairs ⟨[], false⟩ 0
    rw [load_of_gather_eq_error explicit (hgather.trans hp), decided_error_iff]
    exact iff_of_false hrefusal fun h => hpairs h.1

theorem File.wellFormed_holding_iff (hmap : ∀ entries, v ≠ .map entries) :
    (File.holding v).WellFormed overrides ↔ v.isSomething = false ∨
      ∃ pairs, parts? v = some pairs ∧ WellFormedPairs overrides pairs := by
  cases v with
  | map entries => exact absurd rfl (hmap entries)
  | _ => exact Iff.rfl

/-- What holds no named values is accepted or refused if it is empty or made up of pairs of the
right form, and not otherwise. -/
theorem decided_holding_iff (hmap : ∀ entries, v ≠ .map entries)
    (hoverrides : Value.IsMapping overrides) :
    Decided (load validate (.holding v) explicit overrides).1 ↔
      (File.holding v).WellFormed overrides := by
  rw [File.wellFormed_holding_iff hmap]
  cases hsomething : v.isSomething with
  | false =>
    rw [load_holding explicit (gather_of_isSomething hsomething),
      decided_settle_iff _ hoverrides]
    exact iff_of_true (.inl rfl) (.inl rfl)
  | true =>
    have hgather := gather_of_not_map hsomething hmap
    rw [or_iff_right Bool.noConfusion]
    cases hparts : parts? v with
    | none =>
      rw [hparts] at hgather
      rw [load_of_gather_eq_error explicit hgather, decided_error_iff]
      exact iff_of_false id (by simp)
    | some pairs =>
      rw [hparts] at hgather
      rw [decided_of_pairs explicit hgather hoverrides]
      simp

/-- Pairs, two of them with one name. -/
def samplePairs : Value :=
  .list [.list ["grep", "map"], .list ["render_markdown", .bool true], .list ["grep", "filter"]]

/-- A map in which a number stands as a name. -/
def numberedMap : Value := .map [(.float ⟨0⟩, "grep"), (.text "grep", "map")]

end Loading

end DocModel.Settings
