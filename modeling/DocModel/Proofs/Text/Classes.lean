import DocModel.Text.Alphanumeric
import DocModel.Text.Digit

/-!
# Classes of characters

There are few blank characters, so what holds of all of them is checked one by one. That is how
the classes are told apart that the tables give: no blank character is part of a word or a digit.
A text that starts with a run of one class can be cut behind the run in only one way.
-/

namespace DocModel.Text

/-- All blank characters. -/
def blankChars : List Char :=
  blankRanges.flatMap fun (first, last) =>
    (List.range' first (last + 1 - first)).map Char.ofNat

theorem mem_blankChars {c : Char} (h : isBlank c = true) : c ∈ blankChars := by
  obtain ⟨⟨first, last⟩, hmem, hc⟩ := List.any_eq_true.mp h
  simp only [Bool.and_eq_true, decide_eq_true_eq] at hc
  refine List.mem_flatMap.mpr ⟨(first, last), hmem, List.mem_map.mpr ⟨c.toNat, ?_, ?_⟩⟩
  · rw [List.mem_range'_1]
    omega
  · exact Char.ofNat_toNat c

/-- What holds of every blank character is checked character by character. -/
theorem forall_isBlank {p : Char → Bool} (h : blankChars.all p = true) {c : Char}
    (hc : isBlank c = true) : p c = true :=
  List.all_eq_true.mp h c (mem_blankChars hc)

theorem isWordChar_of_isBlank {c : Char} (h : isBlank c = true) : isWordChar c = false := by
  have hnot := forall_isBlank (p := fun c => !isWordChar c) (by decide +kernel) h
  simpa using hnot

theorem isDecimal_of_isBlank {c : Char} (h : isBlank c = true) : isDecimal c = false := by
  have hnot := forall_isBlank (p := fun c => !isDecimal c) (by decide +kernel) h
  simpa using hnot

/-! ## Runs -/

/-- One or more characters of a class. -/
def IsRun (p : Char → Bool) (t : Text) : Prop := t ≠ [] ∧ ∀ c ∈ t, p c = true

theorem IsRun.head_append {p q : Char → Bool} {t : Text} (h : IsRun p t)
    (hpq : ∀ c, p c = true → q c = false) (rest : Text) : ∀ c ∈ (t ++ rest).head?, q c = false := by
  intro c hc
  obtain ⟨d, t', rfl⟩ := List.exists_cons_of_ne_nil h.1
  obtain rfl : d = c := Option.some.inj hc
  exact hpq d (h.2 d List.mem_cons_self)

/-- The first piece ends where its class does. -/
theorem append_inj_of_class {p : Char → Bool} {t u rest rest' : Text} (ht : ∀ c ∈ t, p c = true)
    (hu : ∀ c ∈ u, p c = true) (hrest : ∀ c ∈ rest.head?, p c = false)
    (hrest' : ∀ c ∈ rest'.head?, p c = false) (h : t ++ rest = u ++ rest') :
    t = u ∧ rest = rest' := by
  have htake {t rest : Text} (ht : ∀ c ∈ t, p c = true) (hrest : ∀ c ∈ rest.head?, p c = false) :
      (t ++ rest).takeWhile p = t := by
    rw [List.takeWhile_append_of_pos ht]
    cases rest with
    | nil => exact List.append_nil t
    | cons c rest =>
      rw [List.takeWhile_cons_of_neg (Bool.eq_false_iff.mp (hrest c rfl)), List.append_nil]
  have heq : t = u := by rw [← htake ht hrest, h, htake hu hrest']
  subst heq
  exact ⟨rfl, List.append_cancel_left h⟩

end DocModel.Text
