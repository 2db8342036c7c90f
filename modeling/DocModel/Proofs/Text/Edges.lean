import DocModel.Proofs.Basic
import DocModel.Proofs.Text.Lines
import Mathlib.Data.List.DropRight
import Mathlib.Data.List.TakeWhile
import Mathlib.Tactic.MkIffOfInductiveProp

/-!
# The edges of a text

When a text comes back as it was depends on its edges. Stripping changes nothing if the first and
the last character are not blank, and whatever is added at the other end; taking the margin off
changes nothing if some line is not indented.
-/

namespace DocModel.Text

/-! ## Blank ends -/

theorem isBlank_of_isIndent {c : Char} (h : isIndent c = true) : isBlank c = true := by
  obtain h | h : c = ' ' ∨ c = '\t' := by simpa [isIndent] using h
  all_goals subst h; decide

theorem blank_of_all_isIndent {t : Text} (h : t.all isIndent = true) : blank t = true :=
  List.all_eq_true.mpr fun c hc => isBlank_of_isIndent (List.all_eq_true.mp h c hc)

theorem stripLeft_eq_nil_iff {t : Text} : stripLeft t = [] ↔ blank t = true := by
  rw [stripLeft, List.dropWhile_eq_nil_iff, blank, List.all_eq_true]

theorem strip_eq_self_iff {t : Text} : strip t = t ↔ stripLeft t = t ∧ stripRight t = t := by
  constructor
  · intro h
    have hright : (strip t).length ≤ (stripLeft t).length := (stripRight_isPrefix _).length_le
    have hleft : stripLeft t = t :=
      (stripLeft_suffix t).eq_of_length_le (by rwa [h] at hright)
    exact ⟨hleft, by rwa [strip, hleft] at h⟩
  · rintro ⟨hleft, hright⟩
    rw [strip, hleft, hright]

theorem stripLeft_cons {c : Char} (hc : isBlank c = false) (t : Text) :
    stripLeft (c :: t) = c :: t :=
  List.dropWhile_cons_of_neg (Bool.eq_false_iff.mp hc)

theorem not_isBlank_of_stripLeft {t rest : Text} {c : Char} (h : stripLeft t = c :: rest) :
    isBlank c = false := by
  have hne : t.dropWhile isBlank ≠ [] := fun hnil => by
    rw [stripLeft, hnil] at h
    cases h
  have hhead := List.head_dropWhile_not isBlank hne
  simpa only [show t.dropWhile isBlank = c :: rest from h, List.head_cons] using hhead

theorem stripLeft_append_cons {c : Char} (hc : isBlank c = false) (t u : Text) :
    stripLeft (t ++ c :: u) = stripLeft t ++ c :: u := by
  rw [stripLeft, List.dropWhile_append]
  split
  · next hnil =>
    rw [stripLeft, List.isEmpty_iff.mp hnil, List.nil_append]
    exact stripLeft_cons hc u
  · rfl

theorem strip_stripLeft (t : Text) : strip (stripLeft t) = strip t :=
  congrArg stripRight (List.dropWhile_idempotent isBlank t)

/-- **A line that stripping leaves as it is**, and which is not empty. -/
@[mk_iff]
structure IsTrimmed (t : Text) : Prop where
  ne_nil : t ≠ []
  feed_notMem : '\n' ∉ t
  strip_eq : strip t = t

instance : DecidablePred IsTrimmed := fun t => decidable_of_iff' _ (isTrimmed_iff t)

theorem IsTrimmed.stripLeft_eq {t : Text} (h : IsTrimmed t) : stripLeft t = t :=
  (strip_eq_self_iff.mp h.strip_eq).1

theorem IsTrimmed.stripRight_eq {t : Text} (h : IsTrimmed t) : stripRight t = t :=
  (strip_eq_self_iff.mp h.strip_eq).2

/-- The first character of a text that does not start with blanks. -/
theorem exists_cons_of_stripLeft {t : Text} (h : stripLeft t = t) (ht : t ≠ []) :
    ∃ c rest, t = c :: rest ∧ isBlank c = false := by
  obtain ⟨c, rest, rfl⟩ := List.exists_cons_of_ne_nil ht
  have hc := List.dropWhile_eq_self_iff.mp h (Nat.succ_pos _)
  exact ⟨c, rest, rfl, Bool.eq_false_iff.mpr hc⟩

theorem stripLeft_append {t u : Text} (h : stripLeft t = t) (ht : t ≠ []) :
    stripLeft (t ++ u) = t ++ u := by
  obtain ⟨c, rest, rfl, hc⟩ := exists_cons_of_stripLeft h ht
  exact stripLeft_cons hc (rest ++ u)

theorem stripRight_append {t u : Text} (h : stripRight u = u) (hu : u ≠ []) :
    stripRight (t ++ u) = t ++ u := by
  have hrev : stripLeft u.reverse = u.reverse := List.reverse_eq_iff.mp h
  have happend : stripLeft (u.reverse ++ t.reverse) = u.reverse ++ t.reverse :=
    stripLeft_append hrev (List.reverse_ne_nil_iff.mpr hu)
  rw [stripRight, List.reverse_append]
  exact List.reverse_eq_iff.mpr (happend.trans List.reverse_append.symm)

theorem stripRight_append_blank {t u : Text} (h : blank u = true) :
    stripRight (t ++ u) = stripRight t := by
  rw [stripRight, List.reverse_append, List.dropWhile_append_of_pos]
  · rfl
  · intro c hc
    exact List.all_eq_true.mp h c (List.mem_reverse.mp hc)

theorem stripLeft_append_of_cons {t rest : Text} {c : Char} (h : stripLeft t = c :: rest)
    (u : Text) : stripLeft (t ++ u) = c :: (rest ++ u) := by
  rw [stripLeft, List.dropWhile_append, show t.dropWhile isBlank = c :: rest from h]
  rfl

theorem stripRight_append_cons {c : Char} (hc : isBlank c = false) (t u : Text) :
    stripRight (t ++ c :: u) = t ++ c :: stripRight u := by
  have hreverse : (t ++ c :: u).reverse = u.reverse ++ c :: t.reverse := by simp
  rw [stripRight, hreverse]
  show (stripLeft (u.reverse ++ c :: t.reverse)).reverse = _
  rw [stripLeft_append_cons hc]
  simp [stripRight, stripLeft]

/-- What is stripped off the end of a text is blank. -/
theorem exists_blank_end (t : Text) : ∃ k, blank k = true ∧ t = stripRight t ++ k := by
  refine ⟨(t.reverse.takeWhile isBlank).reverse, ?_, ?_⟩
  · rw [blank, List.all_reverse]
    exact List.all_eq_true.mpr fun c hc => List.mem_takeWhile_imp hc
  · rw [stripRight, ← List.reverse_append, List.takeWhile_append_dropWhile, List.reverse_reverse]

/-- Only the end of a text matters for what is stripped off it. -/
theorem stripRight_append_stripRight (t u : Text) :
    stripRight (t ++ stripRight u) = stripRight (t ++ u) := by
  obtain ⟨k, hk, hu⟩ := exists_blank_end u
  conv => rhs; rw [hu, ← List.append_assoc, stripRight_append_blank hk]

/-- Blanks at the end of a text make no difference to what is stripped. -/
theorem strip_append_blank {t u : Text} (h : blank u = true) : strip (t ++ u) = strip t := by
  cases ht : stripLeft t with
  | nil =>
    have hblank : blank (t ++ u) = true := by
      rw [blank, List.all_append, Bool.and_eq_true]
      exact ⟨stripLeft_eq_nil_iff.mp ht, h⟩
    rw [strip, strip, ht, stripLeft_eq_nil_iff.mpr hblank]
  | cons c rest =>
    rw [strip, strip, stripLeft_append_of_cons ht, ht, ← List.cons_append,
      stripRight_append_blank h]

theorem stripRight_unlines {ls : List Text} (h : ∀ line ∈ ls, stripRight line = line ∧ line ≠ []) :
    stripRight (unlines ls) = unlines ls := by
  obtain rfl | ⟨init, last, rfl⟩ := List.eq_nil_or_concat ls
  · rfl
  · obtain ⟨hlast, hne⟩ := h last (by simp)
    by_cases hinit : init = []
    · subst hinit
      exact hlast
    · rw [List.concat_eq_append, unlines, join_append hinit (List.cons_ne_nil _ _)]
      exact stripRight_append hlast hne

/-! ## Indentation -/

theorem expandTabs_of_notMem {t : Text} (width : Nat) (h : '\t' ∉ t) : expandTabs width t = t := by
  suffices hgo : ∀ column, expandTabs.go width column t = t from hgo 0
  induction t with
  | nil => exact fun _ => rfl
  | cons c t ih =>
    intro column
    obtain ⟨hc, ht⟩ := not_or.mp (List.mem_cons.not.mp h)
    rw [expandTabs.go, if_neg (by simpa using Ne.symm hc)]
    split <;> rw [ih ht]

theorem indent_cons {c : Char} (hc : isBlank c = false) (t : Text) : indent (c :: t) = [] := by
  have hindent : ¬ isIndent c = true := fun h => by
    rw [isBlank_of_isIndent h] at hc
    cases hc
  exact List.takeWhile_cons_of_neg hindent

/-- A line that is not indented leaves its group without a margin. -/
theorem margin_cons {line : Text} {ls : List Text} (hindent : indent line = [])
    (hline : blank line = false) : margin (line :: ls) = [] := by
  have hnil : ∀ is : List Text, is.foldl commonPrefix [] = [] := by
    intro is
    induction is with
    | nil => rfl
    | cons i is ih => exact ih
  have hmore : line.all isIndent = false :=
    Bool.eq_false_iff.mpr fun h => Bool.eq_false_iff.mp hline (blank_of_all_isIndent h)
  rw [margin, List.filter_cons_of_pos (by rw [hmore]; rfl), List.map_cons, hindent]
  exact hnil _

/-- Lines without a margin stay as they are, those of nothing but indentation apart. -/
theorem dedent_of_margin {ls : List Text} (hmargin : margin ls = [])
    (h : ∀ line ∈ ls, line.all isIndent = true → line = []) : dedent ls = ls := by
  refine (List.map_congr_left fun line hline => ?_).trans (List.map_id ls)
  split
  · next hindent => exact (h line hline hindent).symm
  · rw [hmargin]
    rfl

end DocModel.Text
