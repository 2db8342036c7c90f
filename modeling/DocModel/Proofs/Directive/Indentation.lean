import DocModel.Proofs.Directive.Reading
import DocModel.Proofs.Text.Edges

/-!
# Blocks that are moved to the right

A block can stand at any column: when the same number of spaces is put before each of its lines,
its pairs stay what they were (`Block.pairs_parse_indented`). What is compared and what is cut off
are columns, and all of them move by the same number. Only a tabulator could spoil this, as it
reaches to the next tab stop and not over a fixed number of columns. If the block moves by
a multiple of the tab width, the tab stops move with it.

The proof runs the block twice, and the states of the second run are those of the first, moved to
the right (`State.steps_indentBy`).
-/

namespace DocModel

/-! ## Lines that are moved to the right -/

namespace Text

/-- A line with `k` more spaces before it. -/
def indentBy (k : Nat) (line : Text) : Text := List.replicate k ' ' ++ line

variable {k : Nat}

theorem notMem_indentBy {c : Char} (hc : c ≠ ' ') {line : Text} (h : c ∉ line) :
    c ∉ indentBy k line := by
  rw [indentBy, List.mem_append, not_or]
  exact ⟨fun hmem => hc (List.eq_of_mem_replicate hmem), h⟩

theorem expandTabs_go_indentBy (width column : Nat) (t : Text) :
    expandTabs.go width column (indentBy k t)
      = indentBy k (expandTabs.go width (column + k) t) := by
  induction k generalizing column with
  | zero => rfl
  | succ k ih =>
    show ' ' :: expandTabs.go width (column + 1) (indentBy k t) = _
    rw [ih, Nat.add_assoc, Nat.add_comm 1 k]
    rfl

/-- The tab stops repeat with the tab width. -/
theorem expandTabs_go_add {width : Nat} (h : width ∣ k) (column : Nat) (t : Text) :
    expandTabs.go width (column + k) t = expandTabs.go width column t := by
  induction t generalizing column with
  | nil => rfl
  | cons c t ih =>
    have hstop : (column + k) % width = column % width := by
      obtain ⟨j, rfl⟩ := h
      exact Nat.add_mul_mod_self_left column width j
    unfold expandTabs.go
    dsimp only
    rw [hstop, Nat.add_right_comm, ih, Nat.add_right_comm, ih]

/-- When a line is moved by a multiple of the tab width, or has no tabulator, the columns of its
characters move by as much. -/
theorem expandTabs_indentBy {t : Text} (h : 4 ∣ k ∨ '\t' ∉ t) :
    expandTabs tabWidth (indentBy k t) = indentBy k (expandTabs tabWidth t) := by
  obtain h | h := h
  · rw [expandTabs, expandTabs_go_indentBy, expandTabs_go_add (show tabWidth ∣ k from h)]
    rfl
  · rw [expandTabs_of_notMem _ h, expandTabs_of_notMem _ (notMem_indentBy (by decide) h)]

theorem indentWidth_indentBy {line : Text} (h : 4 ∣ k ∨ '\t' ∉ line) :
    indentWidth (indentBy k line) = indentWidth line + k := by
  have hindent : indent (indentBy k line) = indentBy k (indent line) :=
    List.takeWhile_append_of_pos fun c hc => by rw [List.eq_of_mem_replicate hc]; rfl
  have hnarrow : 4 ∣ k ∨ '\t' ∉ indent line :=
    h.imp_right fun hline hmem => hline ((List.takeWhile_prefix _).subset hmem)
  rw [indentWidth, hindent, expandTabs_indentBy hnarrow, indentBy, List.length_append,
    List.length_replicate, Nat.add_comm]
  rfl

theorem blank_replicate : blank (List.replicate k ' ') = true :=
  List.all_eq_true.mpr fun c hc => by rw [List.eq_of_mem_replicate hc]; rfl

@[simp]
theorem blank_indentBy (line : Text) : blank (indentBy k line) = blank line := by
  rw [indentBy, blank, List.all_append]
  show (blank _ && blank line) = _
  rw [blank_replicate, Bool.true_and]

@[simp]
theorem stripLeft_indentBy (line : Text) : stripLeft (indentBy k line) = stripLeft line :=
  List.dropWhile_append_of_pos (List.all_eq_true.mp blank_replicate)

@[simp]
theorem strip_indentBy (line : Text) : strip (indentBy k line) = strip line := by
  rw [strip, stripLeft_indentBy, strip]

end Text

namespace Directive

open Text (indentBy)

variable {recognises : Text → Bool} {k : Nat}

@[simp]
theorem pairSides?_indentBy (line : Text) :
    pairSides? recognises (indentBy k line) = pairSides? recognises line := by
  rw [pairSides?, pairSides?, sides?, sides?, Text.stripLeft_indentBy]

@[simp]
theorem isCommentLine_indentBy (line : Text) :
    isCommentLine (indentBy k line) = isCommentLine line := by
  rw [isCommentLine, Text.stripLeft_indentBy, isCommentLine]

/-- A line of a value keeps what is left of it when it is moved together with its pair. -/
theorem relativeLine_indentBy {line : Text} (h : 4 ∣ k ∨ '\t' ∉ line) (indent : Nat) :
    relativeLine (indent + k) (indentBy k line) = relativeLine indent line := by
  have hcolumn (t : Text) : (indentBy k t).take (indent + k) = indentBy k (t.take indent) ∧
      (indentBy k t).drop (indent + k) = t.drop indent := by
    have hlength : (List.replicate k ' ').length + indent = indent + k := by
      rw [List.length_replicate, Nat.add_comm]
    rw [← hlength]
    exact ⟨List.take_length_add_append indent, List.drop_length_add_append indent⟩
  unfold relativeLine
  dsimp only
  rw [Text.expandTabs_indentBy h, (hcolumn _).1, (hcolumn _).2, Text.blank_indentBy,
    Text.stripLeft_indentBy]

theorem linesAbove_indentBy (unclaimed : List Text) :
    linesAbove (unclaimed.map (indentBy k)) = (linesAbove unclaimed).map (indentBy k) := by
  have hblank : (!Text.blank ·) ∘ indentBy k = (!Text.blank ·) :=
    funext fun line => congrArg (!·) (Text.blank_indentBy line)
  rw [linesAbove, List.takeWhile_map, hblank, linesAbove]

/-- The lines above a pair make up the same code. -/
theorem codeAbove_indentBy (unclaimed : List Text) :
    codeAbove (unclaimed.map (indentBy k)) = codeAbove unclaimed := by
  have hcomment : (!isCommentLine ·) ∘ indentBy k = (!isCommentLine ·) :=
    funext fun line => congrArg (!·) (isCommentLine_indentBy line)
  have hstrip : Text.strip ∘ indentBy k = Text.strip := funext Text.strip_indentBy
  rw [codeAbove, linesAbove_indentBy, List.filter_map, hcomment, ← List.map_reverse, List.map_map,
    hstrip, codeAbove]

/-! ## States that are moved to the right -/

/-- An open pair that stands `k` columns further to the right. -/
def OpenPair.indentBy (k : Nat) (p : OpenPair) : OpenPair := { p with indent := p.indent + k }

namespace State

/-- **The state of the same block, moved to the right** by `k` columns. -/
def indentBy (k : Nat) (s : State) : State :=
  { s with
    unclaimed := s.unclaimed.map (Text.indentBy k)
    current := s.current.map (·.indentBy k)
    preamble := s.preamble.map (Text.indentBy k) }

theorem openPair_indentBy {line : Text} (h : 4 ∣ k ∨ '\t' ∉ line) (s : State) (index : Nat)
    (sides : Sides) :
    (s.indentBy k).openPair index (Text.indentBy k line) sides
      = (s.openPair index line sides).indentBy k := by
  unfold openPair indentBy
  dsimp only
  rw [codeAbove_indentBy, linesAbove_indentBy, Text.indentWidth_indentBy h, List.length_map,
    ← List.map_drop, ← List.map_reverse, Option.isSome_map]
  congr 1
  · rw [Option.map_map]
    rfl
  · split <;> rfl

theorem plainLine_indentBy {line : Text} (h : 4 ∣ k ∨ '\t' ∉ line) (s : State) :
    (s.indentBy k).plainLine (Text.indentBy k line) = (s.plainLine line).indentBy k := by
  obtain ⟨unclaimed, finished, current, preamble⟩ := s
  cases current with
  | none => rfl
  | some p =>
    have hdeeper : (decide ((p.indentBy k).indent < Text.indentWidth (Text.indentBy k line)))
        = decide (p.indent < Text.indentWidth line) := by
      rw [Text.indentWidth_indentBy h]
      exact decide_eq_decide.mpr Nat.add_lt_add_iff_right
    have hextend : (p.indentBy k).extend (Text.indentBy k line) = (p.extend line).indentBy k := by
      unfold OpenPair.extend OpenPair.indentBy
      dsimp only
      rw [relativeLine_indentBy h]
    unfold plainLine
    dsimp only [indentBy, Option.map_some]
    rw [hdeeper, hextend, Text.blank_indentBy]
    -- Both runs now ask the same questions, and each answer adds the line in the same place.
    show (if p.closed then _ else if _ then _ else if p.pair.multiline && _ then _ else _) = _
    split
    · rfl
    · split
      · rfl
      · split <;> rfl

/-- **Moving a block moves what is known of it**, line by line. -/
theorem step_indentBy {line : Text} (h : 4 ∣ k ∨ '\t' ∉ line) (s : State) (index : Nat) :
    (s.indentBy k).step recognises index (Text.indentBy k line)
      = (s.step recognises index line).indentBy k := by
  unfold step
  rw [pairSides?_indentBy]
  cases pairSides? recognises line with
  | none => exact plainLine_indentBy h s
  | some sides => exact openPair_indentBy h s index sides

theorem steps_indentBy {lines : List Text} (h : ∀ line ∈ lines, 4 ∣ k ∨ '\t' ∉ line) (s : State)
    (index : Nat) :
    (s.indentBy k).steps recognises index (lines.map (Text.indentBy k))
      = (s.steps recognises index lines).indentBy k := by
  induction lines generalizing s index with
  | nil => rfl
  | cons line lines ih =>
    obtain ⟨hline, hlines⟩ := List.forall_mem_cons.mp h
    rw [List.map_cons, steps, steps, step_indentBy hline, ih hlines]

theorem pairs_indentBy (s : State) : (s.indentBy k).pairs = s.pairs := by
  unfold pairs indentBy
  dsimp only
  rw [Option.map_map]
  rfl

end State

/-! ## Blocks -/

/-- **A block may stand at any column.** When `k` spaces are put before each of its lines, its pairs
stay as they are, if `k` is a multiple of the tab width or if the block has no tabulator. -/
theorem Block.pairs_parse_indented (recognises : Text → Bool) (text : Text) (k : Nat)
    (h : 4 ∣ k ∨ '\t' ∉ text) :
    (Block.parse recognises
        (Text.unlines ((Text.lines text).map fun line => List.replicate k ' ' ++ line))).pairs
      = (Block.parse recognises text).pairs := by
  have hlines : ∀ line ∈ Text.lines text, 4 ∣ k ∨ '\t' ∉ line := fun line hline =>
    h.imp_right fun htext hmem => htext (Text.mem_of_mem_lines hline hmem)
  have hread : Text.lines (Text.unlines ((Text.lines text).map (indentBy k)))
      = (Text.lines text).map (indentBy k) := by
    refine Text.lines_unlines (mt List.map_eq_nil_iff.mp (Text.splitWhere_ne_nil _ _)) ?_
    intro line hline
    obtain ⟨source, hsource, rfl⟩ := List.mem_map.mp hline
    exact Text.notMem_indentBy (by decide) (Text.feed_notMem_of_mem_lines hsource)
  show (State.initial.steps recognises 0 (Text.lines (Text.unlines
    ((Text.lines text).map (indentBy k))))).pairs = _
  rw [hread]
  exact (congrArg State.pairs (State.steps_indentBy hlines State.initial 0)).trans
    (State.pairs_indentBy _)

/-- A block with tabulators that moves by one tab width, and one without that moves by less. -/
theorem Block.pairs_parse_indented_tabs :
    (Block.parse (fun _ => false) "    \tf() // => [\n    \t\t1\n     \t]").pairs
        = [⟨"f()", "[\n    1\n]", 0, true⟩] ∧
      (Block.parse (fun _ => false) "   f()\n     // => [\n      1\n ").pairs
        = [⟨"f()", "[\n 1", 1, true⟩] := by
  have htabs : Text.unlines ((Text.lines "\tf() // => [\n\t\t1\n \t]").map
      fun line => List.replicate 4 ' ' ++ line) = "    \tf() // => [\n    \t\t1\n     \t]" := by
    decide +kernel
  have hspaces : Text.unlines ((Text.lines "  f()\n    // => [\n     1\n").map
      fun line => List.replicate 1 ' ' ++ line) = "   f()\n     // => [\n      1\n " := by
    decide +kernel
  rw [← htabs, ← hspaces, Block.pairs_parse_indented _ _ 4 (.inl (Nat.dvd_refl 4)),
    Block.pairs_parse_indented _ _ 1 (.inr (by decide))]
  decide +kernel

-- A tabulator does not move with its pair if that moves by a part of the tab width.
example :
    (Block.parse (fun _ => false) "f() // => [\n\t1").pairs = [⟨"f()", "[\n    1", 0, true⟩] ∧
      (Block.parse (fun _ => false) " f() // => [\n \t1").pairs
        = [⟨"f()", "[\n   1", 0, true⟩] := by
  decide +kernel

end Directive

end DocModel
