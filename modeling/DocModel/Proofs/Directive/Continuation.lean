import DocModel.Proofs.Directive.Indentation

/-!
# Lines that go on with a value

A value may go on over lines below its pair, and each of them is moved to the left by the
indentation of the pair. The columns to cut are counted on the indentation alone, but the cut is
made in the whole line, after all its tabulators have been expanded. The two agree because the
indentation of a line becomes spaces, exactly as many as were counted
(`Text.expandTabs_eq_indentBy`). So a line that is indented more than its pair loses nothing but
spaces and keeps the indentation that it has beyond the pair; and whatever the line, only blanks
are taken off it (`exists_blank_relativeLine`).
-/

namespace DocModel

namespace Text

/-! ## Spaces before a line -/

section Spaces

variable {k w : Nat} (t : Text)

theorem length_indentBy : (indentBy k t).length = k + t.length := by
  rw [indentBy, List.length_append, List.length_replicate]

theorem indentBy_indentBy (j : Nat) : indentBy j (indentBy k t) = indentBy (j + k) t := by
  unfold indentBy
  rw [← List.append_assoc, List.replicate_append_replicate]

theorem take_indentBy (h : w ≤ k) : (indentBy k t).take w = List.replicate w ' ' := by
  rw [indentBy, List.take_append_of_le_length (by rwa [List.length_replicate]),
    List.take_replicate, Nat.min_eq_left h]

theorem drop_indentBy (h : w ≤ k) : (indentBy k t).drop w = indentBy (k - w) t := by
  rw [indentBy, List.drop_append_of_le_length (by rwa [List.length_replicate]),
    List.drop_replicate, indentBy]

end Spaces

/-! ## Expanding the tabulators of a line -/

/-- **Spaces and tabulators expand to spaces**, and what follows goes on in the column that they
reach. -/
theorem expandTabs_go_append {t : Text} (ht : ∀ c ∈ t, isIndent c = true) (width column : Nat)
    (u : Text) :
    expandTabs.go width column (t ++ u)
      = indentBy (expandTabs.go width column t).length
          (expandTabs.go width (column + (expandTabs.go width column t).length) u) := by
  induction t generalizing column with
  | nil => rfl
  | cons c t ih =>
    obtain ⟨hc, htail⟩ := List.forall_mem_cons.mp ht
    -- A space is one column wide, and a tabulator as many as there are up to the next stop.
    obtain ⟨k, hk⟩ : ∃ k, ∀ v, expandTabs.go width column (c :: v)
        = indentBy k (expandTabs.go width (column + k) v) := by
      obtain rfl | rfl : c = ' ' ∨ c = '\t' := by simpa [isIndent] using hc
      · exact ⟨1, fun _ => rfl⟩
      · exact ⟨width - column % width, fun _ => rfl⟩
    rw [List.cons_append, hk, hk, ih htail, length_indentBy, indentBy_indentBy, Nat.add_assoc]

/-- **The indentation of a line becomes as many spaces as its width.** -/
theorem expandTabs_eq_indentBy (line : Text) :
    expandTabs tabWidth line = indentBy (indentWidth line)
      (expandTabs.go tabWidth (indentWidth line) (line.dropWhile isIndent)) := by
  have hindent : ∀ c ∈ indent line, isIndent c = true := List.all_eq_true.mp List.all_takeWhile
  have hgo := expandTabs_go_append hindent tabWidth 0 (line.dropWhile isIndent)
  rw [indent, List.takeWhile_append_dropWhile, Nat.zero_add] at hgo
  exact hgo

/-- After its indentation, an expanded line is not indented further. -/
theorem indent_expandTabs_go (line : Text) (width column : Nat) :
    indent (expandTabs.go width column (line.dropWhile isIndent)) = [] := by
  cases hrest : line.dropWhile isIndent with
  | nil => rfl
  | cons c rest =>
    have hc : isIndent c = false := by
      have hhead := List.head?_dropWhile_not isIndent line
      rwa [hrest] at hhead
    have htab : ¬ (c == '\t') = true := fun h => by
      rw [isIndent, h, Bool.or_true] at hc
      cases hc
    rw [expandTabs.go, if_neg htab]
    split <;> exact List.takeWhile_cons_of_neg (Bool.eq_false_iff.mp hc)

theorem indentWidth_of_indent_eq_nil {line : Text} (h : indent line = []) (k : Nat) :
    indentWidth (indentBy k line) = k := by
  have hspaces : indent (indentBy k line) = List.replicate k ' ' := by
    have happend : indent (indentBy k line) = List.replicate k ' ' ++ indent line :=
      List.takeWhile_append_of_pos fun c hc => by rw [List.eq_of_mem_replicate hc]; rfl
    rw [happend, h, List.append_nil]
  have htab : '\t' ∉ List.replicate k ' ' := fun hmem =>
    absurd (List.eq_of_mem_replicate hmem) (by decide)
  rw [indentWidth, hspaces, expandTabs_of_notMem _ htab, List.length_replicate]

/-- A character at the end of a line stays there. -/
theorem expandTabs_concat {c : Char} (hc : c ≠ '\t') (width : Nat) (t : Text) :
    expandTabs width (t ++ [c]) = expandTabs width t ++ [c] := by
  suffices hgo : ∀ column, expandTabs.go width column (t ++ [c])
      = expandTabs.go width column t ++ [c] from hgo 0
  induction t with
  | nil =>
    intro column
    show expandTabs.go width column [c] = [c]
    rw [expandTabs.go, if_neg (by simpa using hc)]
    split <;> rfl
  | cons d t ih =>
    intro column
    rw [List.cons_append, expandTabs.go, expandTabs.go]
    split
    · dsimp only
      rw [ih, List.append_assoc]
    · split <;> rw [ih, List.cons_append]

/-- Expanding tabulators adds spaces only. -/
theorem mem_of_mem_expandTabs {c : Char} (hc : c ≠ ' ') {width : Nat} {t : Text}
    (h : c ∈ expandTabs width t) : c ∈ t := by
  suffices hgo : ∀ column, c ∈ expandTabs.go width column t → c ∈ t from hgo 0 h
  clear h
  induction t with
  | nil => exact fun _ h => h
  | cons d t ih =>
    intro column h
    rw [expandTabs.go] at h
    split at h
    · obtain hspace | hrest := List.mem_append.mp h
      · exact absurd (List.eq_of_mem_replicate hspace) hc
      · exact List.mem_cons_of_mem d (ih _ hrest)
    · split at h <;> exact List.mem_cons.mpr ((List.mem_cons.mp h).imp_right (ih _))

/-! ## What is not blank -/

theorem filter_append_of_blank {u : Text} (hu : blank u = true) (t : Text) :
    (u ++ t).filter (!isBlank ·) = t.filter (!isBlank ·) := by
  have hnone : u.filter (!isBlank ·) = [] := List.filter_eq_nil_iff.mpr fun c hc => by
    rw [List.all_eq_true.mp hu c hc]
    exact Bool.false_ne_true
  rw [List.filter_append, hnone, List.nil_append]

theorem blank_of_filter_eq_nil {t : Text} (h : t.filter (!isBlank ·) = []) : blank t = true :=
  List.all_eq_true.mpr fun c hc => by
    have hblank := List.filter_eq_nil_iff.mp h c hc
    rwa [Bool.not_eq_true', Bool.not_eq_false] at hblank

/-- Expanding tabulators touches blanks only. -/
theorem filter_expandTabs (width : Nat) (t : Text) :
    (expandTabs width t).filter (!isBlank ·) = t.filter (!isBlank ·) := by
  suffices hgo : ∀ column, (expandTabs.go width column t).filter (!isBlank ·)
      = t.filter (!isBlank ·) from hgo 0
  induction t with
  | nil => exact fun _ => rfl
  | cons c t ih =>
    intro column
    rw [expandTabs.go]
    split
    · next htab =>
      obtain rfl := beq_iff_eq.mp htab
      exact (filter_append_of_blank blank_replicate _).trans (ih _)
    · split <;> rw [List.filter_cons, List.filter_cons, ih]

end Text

namespace Directive

open Text (indentWidth expandTabs tabWidth blank)

/-- **Only blanks are taken off a line of a value.** -/
theorem exists_blank_relativeLine (w : Nat) (line : Text) :
    ∃ u, blank u = true ∧ expandTabs tabWidth line = u ++ relativeLine w line := by
  unfold relativeLine
  dsimp only
  split
  · next hblank => exact ⟨_, hblank, (List.take_append_drop w _).symm⟩
  · exact ⟨_, List.all_takeWhile, List.takeWhile_append_dropWhile.symm⟩

/-- What is not blank stays in a line of a value. -/
theorem filter_relativeLine (w : Nat) (line : Text) :
    (relativeLine w line).filter (!Text.isBlank ·) = line.filter (!Text.isBlank ·) := by
  obtain ⟨u, hu, hline⟩ := exists_blank_relativeLine w line
  rw [← Text.filter_expandTabs tabWidth line, hline, Text.filter_append_of_blank hu]

/-- A line of a value that is not blank keeps the character at its end. -/
theorem getLast?_relativeLine {c : Char} (hc : c ≠ '\t') {t : Text}
    (h : blank (t ++ [c]) = false) (w : Nat) :
    (relativeLine w (t ++ [c])).getLast? = some c := by
  obtain ⟨u, -, hline⟩ := exists_blank_relativeLine w (t ++ [c])
  have hne : relativeLine w (t ++ [c]) ≠ [] := fun hnil => by
    have hfilter := filter_relativeLine w (t ++ [c])
    rw [hnil] at hfilter
    rw [Text.blank_of_filter_eq_nil hfilter.symm] at h
    cases h
  have hlast := congrArg List.getLast? hline
  rw [Text.expandTabs_concat hc, List.getLast?_concat,
    List.getLast?_append_of_ne_nil _ hne] at hlast
  exact hlast.symm

/-- **A line of a value keeps its content and its place.** What is not blank stays, in its order. If
the line is indented more than the pair, its tabulators are expanded, the columns of the pair's
indentation are cut off, all of them spaces, and the indentation that is left is the difference. -/
theorem relativeLine_keeps (line : Text) (w : Nat) :
    (relativeLine w line).filter (!Text.isBlank ·) = line.filter (!Text.isBlank ·) ∧
    (w < indentWidth line →
      relativeLine w line = (expandTabs 4 line).drop w ∧
      (expandTabs 4 line).take w = List.replicate w ' ' ∧
      indentWidth (relativeLine w line) = indentWidth line - w) := by
  refine ⟨filter_relativeLine w line, fun hw => ?_⟩
  have htake : (expandTabs tabWidth line).take w = List.replicate w ' ' := by
    rw [Text.expandTabs_eq_indentBy, Text.take_indentBy _ (Nat.le_of_lt hw)]
  have hcut : relativeLine w line = (expandTabs tabWidth line).drop w := by
    unfold relativeLine
    dsimp only
    rw [htake, if_pos Text.blank_replicate]
  refine ⟨hcut, htake, ?_⟩
  rw [hcut, Text.expandTabs_eq_indentBy, Text.drop_indentBy _ (Nat.le_of_lt hw),
    Text.indentWidth_of_indent_eq_nil (Text.indent_expandTabs_go line _ _)]

/-- A line with a tabulator that reaches over the indentation of its pair, and with another one
inside. -/
theorem relativeLine_keeps_tabs :
    2 < indentWidth " \t 1,\t2" ∧ relativeLine 2 " \t 1,\t2" = "   1, 2" ∧
      indentWidth (relativeLine 2 " \t 1,\t2") = 3 := by
  have hw : 2 < indentWidth " \t 1,\t2" := by decide
  obtain ⟨hcut, -, hwidth⟩ := (relativeLine_keeps " \t 1,\t2" 2).2 hw
  exact ⟨hw, hcut.trans (by decide), hwidth.trans (by decide)⟩

end Directive

end DocModel
