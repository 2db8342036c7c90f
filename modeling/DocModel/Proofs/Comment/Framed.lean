import DocModel.Proofs.Comment.Source
import DocModel.Proofs.Text.Edges

/-!
# Code in a frame

A comment is usually written with a frame: an asterisk and a space before each line. Code that is
written so under the tag `@examples` comes back as it was, line by line (`parse_framed`,
`verbatimTag_framed`), if its lines keep to three rules: none of them looks like a tag, none of
them is blank or ends in blanks, and the first of them is not indented.
-/

namespace DocModel.Comment

/-- A line with its part of the frame. -/
def framedLine (line : Text) : Text := " * " ++ line

/-- The lines of a comment in which some lines stand in a frame, under the tag `@examples`. -/
def framedLines (ls : List Text) : List Text :=
  "*" :: framedLine "@examples" :: (ls.map framedLine ++ [(" " : Text)])

/-- **The text of a comment in which some lines stand in a frame.** -/
def framed (ls : List Text) : Text := Text.unlines (framedLines ls)

/-- **A line that a comment gives back as it stands.** -/
structure Stays (line : Text) : Prop where
  feed_notMem : '\n' ∉ line
  tagLine?_eq_none : tagLine? line = none
  not_blank : Text.blank line = false
  stripRight_eq : Text.stripRight line = line

theorem Stays.ne_nil {line : Text} (h : Stays line) : line ≠ [] := by
  rintro rfl
  cases h.not_blank

theorem tagLine?_of_head {line : Text} (h : (Text.stripLeft line).head? ≠ some '@') :
    tagLine? line = none := by
  unfold tagLine?
  split
  · next rest heq => exact absurd (congrArg List.head? heq) h
  · rfl

variable {ls : List Text}

theorem dropGutter_framedLine (line : Text) : dropGutter (framedLine line) = line := rfl

theorem unwrap_framed (h : ∀ line ∈ ls, '\n' ∉ line) :
    unwrap (framed ls) = [] :: "@examples" :: (ls ++ [[]]) := by
  have hfeed : ∀ line ∈ framedLines ls, '\n' ∉ line := by
    refine List.forall_mem_cons.mpr ⟨by decide, List.forall_mem_cons.mpr ⟨by decide, ?_⟩⟩
    intro line hline
    obtain hline | hline := List.mem_append.mp hline
    · obtain ⟨line, hmem, rfl⟩ := List.mem_map.mp hline
      simpa [framedLine] using h line hmem
    · rw [List.mem_singleton.mp hline]
      decide
  have hlines : Text.lines (framed ls) = framedLines ls :=
    Text.lines_unlines (List.cons_ne_nil _ _) hfeed
  have hmap : (ls.map framedLine).map dropGutter = ls := by
    rw [List.map_map]
    exact (List.map_congr_left fun line _ => dropGutter_framedLine line).trans (List.map_id ls)
  rw [unwrap, hlines, framedLines, List.map_cons, List.map_cons, List.map_append, hmap]
  rfl

/-- Lines of which none starts a tag stand before the first tag. -/
theorem divideTags_of_plain (h : ∀ line ∈ ls, tagLine? line = none) (start : Nat) :
    divideTags start ls = (ls, []) := by
  induction ls generalizing start with
  | nil => rfl
  | cons line ls ih =>
    obtain ⟨hline, hls⟩ := List.forall_mem_cons.mp h
    rw [divideTags_cons, hline, ih hls]

/-- The tag of framed lines, with the empty line at the end of the comment. -/
def framedTag (ls : List Text) : TagLines := ⟨1, "@examples", "examples", [], ls ++ [[]]⟩

theorem divideTags_framed (h : ∀ line ∈ ls, tagLine? line = none) :
    divideTags 0 ([] :: "@examples" :: (ls ++ [[]])) = ([[]], [framedTag ls]) := by
  have hbody : ∀ line ∈ ls ++ [[]], tagLine? line = none := by
    intro line hline
    obtain hline | hline := List.mem_append.mp hline
    · exact h line hline
    · rw [List.mem_singleton.mp hline]
      rfl
  have hempty : tagLine? [] = none := rfl
  have htag : tagLine? "@examples" = some (("examples" : Text), []) := by decide
  rw [divideTags_cons, hempty, divideTags_cons, htag, divideTags_of_plain hbody]
  rfl

/-- **The doclet of framed lines** has the one tag. -/
theorem parse_framed (h : ∀ line ∈ ls, Stays line) :
    Doclet.parse (framed ls) = .ok ⟨[], [verbatimTag (framedTag ls)]⟩ := by
  have hread : readTag (framedTag ls) = .ok (verbatimTag (framedTag ls)) := rfl
  rw [Doclet.parse, unwrap_framed fun line hline => (h line hline).feed_notMem, docletOfLines,
    divideTags_framed fun line hline => (h line hline).tagLine?_eq_none]
  simp only [List.mapM_cons, List.mapM_nil, hread]
  rfl

/-- **Framed lines are given back**, and their place is known. -/
theorem verbatimTag_framed {line : Text} (hline : Text.indent line = [])
    (h : ∀ l ∈ line :: ls, Stays l) :
    (verbatimTag (framedTag (line :: ls))).description = Text.unlines (line :: ls) ∧
      (verbatimTag (framedTag (line :: ls))).descriptionLine = 2 := by
  obtain ⟨hfirst, -⟩ := List.forall_mem_cons.mp h
  -- The rest of the line with the title is skipped, and nothing else.
  have hskipped : ((framedTag (line :: ls)).text :: (framedTag (line :: ls)).body).takeWhile
      Text.blank = [[]] := by
    show ([] :: line :: (ls ++ [[]])).takeWhile Text.blank = [[]]
    rw [List.takeWhile_cons_of_pos rfl,
      List.takeWhile_cons_of_neg (Bool.eq_false_iff.mp hfirst.not_blank)]
  have hdedent : Text.dedent (line :: ls ++ [[]]) = line :: ls ++ [[]] := by
    refine Text.dedent_of_margin (Text.margin_cons hline hfirst.not_blank) fun l hl hindent => ?_
    obtain hl | hl := List.mem_append.mp hl
    · have hblank := Text.blank_of_all_isIndent hindent
      rw [(h l hl).not_blank] at hblank
      cases hblank
    · exact List.mem_singleton.mp hl
  have hend : Text.unlines (line :: ls ++ [[]]) = Text.unlines (line :: ls) ++ ['\n'] := by
    rw [Text.unlines, Text.join_append (List.cons_ne_nil _ _) (List.cons_ne_nil _ _)]
    exact List.append_nil _
  simp only [verbatimTag, hskipped]
  refine ⟨?_, rfl⟩
  show Text.stripRight (Text.unlines (Text.dedent (line :: ls ++ [[]]))) = _
  rw [hdedent, hend, Text.stripRight_append_blank (by decide)]
  exact Text.stripRight_unlines fun l hl => ⟨(h l hl).stripRight_eq, (h l hl).ne_nil⟩

end DocModel.Comment
