import DocModel.Proofs.Directive.Sides

/-!
# One scan of a line

Where a line is cut is found by trying, from the longest possible left side down, and going back
whenever what follows is no comment. Runs of slashes, slashes inside the code, an arrow with nothing
behind it: each of them makes the search go back in its own way. Here the same pair is computed
without going back (`pair?_lastSlashes`). The line is cut at the last two slashes that something
follows. What follows them is looked at once, to see whether it starts with an arrow that has
something behind it.
-/

namespace DocModel.Directive

/-- **The places where a line can be cut**: two slashes stand at index `p`, and what follows them is
not blank. -/
def SlashesAt (line : Text) (p : Nat) : Prop :=
  (line.drop p).take 2 = "//" ∧ Text.blank (line.drop (p + 2)) = false

instance (line : Text) (p : Nat) : Decidable (SlashesAt line p) :=
  inferInstanceAs (Decidable (_ ∧ _))

namespace SlashesAt

variable {line : Text} {p : Nat}

theorem isCut (h : SlashesAt line p) : IsCut line (line.take p) (line.drop (p + 2)) where
  eq :=
    calc line = line.take p ++ ((line.drop p).take 2 ++ (line.drop p).drop 2) := by
          rw [List.take_append_drop, List.take_append_drop]
      _ = line.take p ++ '/' :: '/' :: line.drop (p + 2) := by
          rw [h.1, List.drop_drop]
          rfl
  text := h.2

theorem lt_length (h : SlashesAt line p) : p < line.length := by
  refine Nat.lt_of_not_le fun hle => ?_
  have hslashes := h.1
  rw [List.drop_eq_nil_of_le hle] at hslashes
  cases hslashes

end SlashesAt

theorem IsCut.slashesAt {line before after : Text} (h : IsCut line before after) :
    SlashesAt line before.length := by
  have hdrop : line.drop before.length = '/' :: '/' :: after := by rw [h.eq, List.drop_left]
  refine ⟨by rw [hdrop]; rfl, ?_⟩
  rw [← List.drop_drop, hdrop]
  exact h.text

/-- The last place is the last cut. -/
theorem SlashesAt.isLastCut {line : Text} {p : Nat} (h : SlashesAt line p)
    (hlast : ∀ q, SlashesAt line q → q ≤ p) :
    IsLastCut line (line.take p) (line.drop (p + 2)) where
  toIsCut := h.isCut
  last := fun before after hcut => by
    rw [List.length_take_of_le (Nat.le_of_lt h.lt_length)]
    exact hlast _ hcut.slashesAt

/-- **A line is read in one scan.** Without slashes that something follows, it is no pair. Otherwise
the last of them cut the line, and the arrow counts if something follows it. A line with neither
code nor arrow is a pair only if its value is recognised. -/
theorem pair?_lastSlashes (recognises : Text → Bool) (line : Text) (hfeed : '\n' ∉ line) :
    ((∀ p, ¬ SlashesAt line p) → pair? recognises line = none) ∧
    ∀ p, SlashesAt line p → (∀ q, SlashesAt line q → q ≤ p) →
      let left := Text.strip (line.take p)
      let rest := Text.stripLeft (line.drop (p + 2))
      let hasArrow := ("=>" : Text).isPrefixOf rest && !Text.blank (rest.drop 2)
      let right := if hasArrow then Text.strip (rest.drop 2) else Text.strip rest
      pair? recognises line =
        if left.isEmpty && !hasArrow && !recognises right then none
        else some ⟨left, right, 0, false⟩ := by
  constructor
  · intro hnone
    have hsides : sides? line = none :=
      sides?_of_not_isCut hfeed fun before after hcut => hnone _ hcut.slashesAt
    rw [pair?, pairSides?, hsides]
    rfl
  · intro p hp hlast left rest hasArrow right
    have hafter : '\n' ∉ line.drop (p + 2) := fun hmem => hfeed (List.mem_of_mem_drop hmem)
    have hcomment : comment? (line.drop (p + 2))
        = some (hasArrow, if hasArrow then Text.stripLeft (rest.drop 2) else rest) := by
      rw [comment?_eq hafter hp.2]
      show some (if hasArrow then _ else _) = _
      cases hasArrow <;> rfl
    have hright : Text.strip (if hasArrow then Text.stripLeft (rest.drop 2) else rest) = right := by
      show _ = if hasArrow then _ else _
      cases hasArrow
      · rfl
      · exact Text.strip_stripLeft _
    have hsides : sides? line = some ⟨left, right, hasArrow⟩ := by
      rw [sides?_of_lastCut hfeed (hp.isLastCut hlast) hcomment, hright]
    rw [pair?, pairSides?, hsides]
    show Option.map _ (if !(left.isEmpty && !hasArrow) || recognises right then _ else none) = _
    cases left.isEmpty <;> cases hasArrow <;> cases recognises right <;> rfl

/-- A line with slashes in its code, three of them in a row, and an arrow that nothing follows. -/
theorem pair?_lastSlashes_idleArrow :
    pair? (fun _ => false) "f('//') /// => " = some ⟨"f('//') /", "=>", 0, false⟩ := by
  have hbounded : ∀ q < 15, SlashesAt "f('//') /// => " q → q ≤ 9 := by decide
  refine ((pair?_lastSlashes (fun _ => false) "f('//') /// => " (by decide)).2 9 (by decide)
    fun q hq => hbounded q hq.lt_length hq).trans ?_
  decide

end DocModel.Directive
