import DocModel.Proofs.Basic
import DocModel.Text.Indentation

/-!
# Lines and stretches of a text

Most of what is done to a text leaves a stretch of it: its blank ends are stripped, its margin is
taken off, its end is cut. The lines of a text keep their numbers when its end is cut, and lines
written under each other are read back, so a stretch can be followed from line to line.
-/

namespace DocModel.Text

/-! ## Stretches -/

theorem stripLeft_suffix (t : Text) : stripLeft t <:+ t := List.dropWhile_suffix _

theorem stripRight_isPrefix (t : Text) : stripRight t <+: t := by
  rw [stripRight, ← List.reverse_suffix, List.reverse_reverse]
  exact List.dropWhile_suffix _

theorem strip_infix (t : Text) : strip t <:+: t :=
  (stripRight_isPrefix _).isInfix.trans (stripLeft_suffix t).isInfix

/-- Taking the margin off leaves the end of each line. -/
theorem getElem?_dedent {ls : List Text} {i : Nat} {line : Text}
    (h : (dedent ls)[i]? = some line) : ∃ source, ls[i]? = some source ∧ line <:+ source := by
  rw [dedent, List.getElem?_map] at h
  obtain ⟨source, hsource, rfl⟩ := Option.map_eq_some_iff.mp h
  refine ⟨source, hsource, ?_⟩
  split
  · exact List.nil_suffix
  · exact List.drop_suffix _ _

/-! ## Lines -/

theorem lines_feed (t : Text) : lines ('\n' :: t) = [] :: lines t := by simp [lines, splitWhere]

theorem lines_cons {c : Char} (hc : c ≠ '\n') (t : Text) :
    ∃ line rest, lines t = line :: rest ∧ lines (c :: t) = (c :: line) :: rest := by
  obtain ⟨line, rest, h⟩ := List.exists_cons_of_ne_nil (splitWhere_ne_nil (· == '\n') t)
  refine ⟨line, rest, h, ?_⟩
  rw [lines, splitWhere, if_neg (by simpa using hc), h]

/-- No line holds a line feed. -/
theorem feed_notMem_of_mem_lines {t line : Text} (h : line ∈ lines t) : '\n' ∉ line := fun hmem =>
  absurd (forall_of_mem_splitWhere h '\n' hmem) (by decide)

/-- **The lines of a text that is cut at a line feed** are those of the two parts. -/
theorem lines_append (t u : Text) : lines (t ++ '\n' :: u) = lines t ++ lines u :=
  splitWhere_append rfl t u

theorem unlines_cons_cons (line next : Text) (ls : List Text) :
    unlines (line :: next :: ls) = line ++ '\n' :: unlines (next :: ls) := by
  simp [unlines, join]

theorem unlines_cons (line : Text) (ls : List Text) :
    unlines (line :: ls) = line ++ ls.flatMap ('\n' :: ·) := by
  induction ls generalizing line with
  | nil => exact (List.append_nil line).symm
  | cons next ls ih => rw [unlines_cons_cons, ih, List.flatMap_cons, List.cons_append]

/-- What stands in a line stands in the text. -/
theorem mem_of_mem_lines {t line : Text} (hline : line ∈ lines t) {c : Char} (hc : c ∈ line) :
    c ∈ t := by
  obtain ⟨first, rest, ht⟩ := List.exists_cons_of_ne_nil (splitWhere_ne_nil (· == '\n') t)
  have hlines : lines t = first :: rest := ht
  rw [← unlines_lines t, hlines, unlines_cons, List.mem_append, List.mem_flatMap]
  rw [hlines] at hline
  obtain rfl | hrest := List.mem_cons.mp hline
  · exact .inl hc
  · exact .inr ⟨line, hrest, List.mem_cons_of_mem _ hc⟩

/-- **Lines that are written under each other are read back.** -/
theorem lines_unlines {ls : List Text} (hls : ls ≠ []) (h : ∀ line ∈ ls, '\n' ∉ line) :
    lines (unlines ls) = ls := by
  refine splitWhere_join rfl hls fun line hline c hc => ?_
  exact beq_eq_false_iff_ne.mpr fun heq => h line hline (heq ▸ hc)

/-- Cutting the end of a text leaves its lines where they are, with the end cut. -/
theorem getElem?_lines_of_isPrefix {t u : Text} (htu : t <+: u) {i : Nat} {line : Text}
    (h : (lines t)[i]? = some line) : ∃ source, (lines u)[i]? = some source ∧ line <+: source := by
  induction t generalizing u i line with
  | nil =>
    obtain ⟨rfl, rfl⟩ : i = 0 ∧ line = [] := by
      cases i with
      | zero => exact ⟨rfl, (Option.some.inj h).symm⟩
      | succ i => simp [lines, splitWhere] at h
    obtain ⟨first, rest, hu⟩ := List.exists_cons_of_ne_nil (splitWhere_ne_nil (· == '\n') u)
    exact ⟨first, by rw [lines, hu]; rfl, List.nil_prefix⟩
  | cons c t ih =>
    obtain ⟨u, rfl, htail⟩ := List.cons_prefix_iff.mp htu
    by_cases hc : c = '\n'
    · subst hc
      rw [lines_feed] at h ⊢
      cases i with
      | zero => exact ⟨[], rfl, Option.some.inj h ▸ List.nil_prefix⟩
      | succ i => exact ih htail h
    · obtain ⟨first, rest, ht, hct⟩ := lines_cons hc t
      obtain ⟨first', rest', hu, hcu⟩ := lines_cons hc u
      rw [hct] at h
      rw [hcu]
      rw [ht] at ih
      cases i with
      | zero =>
        obtain ⟨source, hsource, hfirst⟩ := ih htail (i := 0) rfl
        rw [hu] at hsource
        refine ⟨c :: first', rfl, ?_⟩
        rw [← Option.some.inj h, Option.some.inj hsource]
        exact List.cons_prefix_cons.mpr ⟨rfl, hfirst⟩
      | succ i =>
        obtain ⟨source, hsource, hline⟩ := ih htail (i := i + 1) h
        rw [hu] at hsource
        exact ⟨source, hsource, hline⟩

end DocModel.Text
