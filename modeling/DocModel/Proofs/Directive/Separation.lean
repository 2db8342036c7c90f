import DocModel.Proofs.Directive.Reading
import DocModel.Proofs.Text.Edges

/-!
# Blank lines separate blocks

Two blocks that are written under each other with a blank line in between are read as if each stood
alone: the pairs are those of the upper block and then those of the lower one, with their line
numbers moved down (`Block.parse_append_blank`). Three things could carry over the seam: a value
that is still open at the end of the upper block, code that is gathered upwards from the first pair
of the lower one, and the preamble. The blank line closes the first and stops the second. Only the
preamble goes on, and only as long as there was no pair.

The proof runs the lower block twice, alone and below the upper one, and relates the two states line
by line (`State.Resumes`).
-/

namespace DocModel.Directive

variable {recognises : Text → Bool}

/-- A pair that stands `n` lines lower. -/
def Pair.lower (n : Nat) (p : Pair) : Pair := { p with line := p.line + n }

/-- An open pair that stands `n` lines lower. -/
def OpenPair.lower (n : Nat) (p : OpenPair) : OpenPair := { p with pair := p.pair.lower n }

namespace State

/-! ## After a blank line -/

/-- **A state that nothing is carried over from**: no value is open, and the last line is blank. -/
structure Separated (s : State) : Prop where
  closed : ∀ p ∈ s.current, p.closed = true
  blank : ∃ line above, s.unclaimed = line :: above ∧ Text.blank line = true

/-- No code is gathered across a blank line. -/
theorem Separated.linesAbove {s : State} (h : s.Separated) (unclaimed : List Text) :
    linesAbove (unclaimed ++ s.unclaimed) = linesAbove unclaimed := by
  obtain ⟨line, above, hs, hline⟩ := h.blank
  rw [hs]
  unfold Directive.linesAbove
  induction unclaimed with
  | nil => exact List.takeWhile_cons_of_neg (by simp [hline])
  | cons l unclaimed ih => rw [List.cons_append, List.takeWhile_cons, ih, List.takeWhile_cons]

theorem Separated.codeAbove {s : State} (h : s.Separated) (unclaimed : List Text) :
    codeAbove (unclaimed ++ s.unclaimed) = codeAbove unclaimed := by
  rw [Directive.codeAbove, h.linesAbove, Directive.codeAbove]

theorem Separated.plainLine {s : State} (h : s.Separated) (unclaimed : List Text) (line : Text) :
    plainLine { s with unclaimed } line = { s with unclaimed := line :: unclaimed } := by
  unfold State.plainLine
  cases hc : s.current with
  | none => rfl
  | some p => simp [h.closed p hc]

/-- A blank line closes the last pair and belongs to none. -/
theorem plainLine_of_blank {line : Text} (hline : Text.blank line = true) (s : State) :
    s.plainLine line = { s with
      unclaimed := line :: s.unclaimed
      current := s.current.map ({ · with closed := true }) } := by
  obtain ⟨unclaimed, finished, current, preamble⟩ := s
  unfold State.plainLine
  cases current with
  | none => rfl
  | some p =>
    obtain ⟨pair, indent, closed⟩ := p
    cases closed <;> simp [hline]

theorem separated_of_blank {line : Text} (hline : Text.blank line = true) (s : State) :
    (s.plainLine line).Separated := by
  rw [plainLine_of_blank hline]
  exact ⟨by simp, line, s.unclaimed, rfl, hline⟩

/-! ## One block below another -/

/-- **The two states of a block**, alone and below `base`, where its lines have numbers that are
larger by `n`. Before its first pair the state below is still that of `base`, with more lines. -/
inductive Resumes (base : State) (n : Nat) : State → State → Prop where
  | plain (unclaimed : List Text) :
    Resumes base n ⟨unclaimed, [], none, []⟩ { base with unclaimed := unclaimed ++ base.unclaimed }
  | pair (unclaimed : List Text) (finished : List Pair) (p : OpenPair) (preamble : List Text) :
    Resumes base n ⟨unclaimed, finished, some p, preamble⟩
      { unclaimed
        finished := finished.map (·.lower n) ++ base.pairs.reverse
        current := some (p.lower n)
        preamble := if base.current.isSome then base.preamble
          else base.unclaimed.reverse ++ preamble }

variable {base s s' : State} {n : Nat}

theorem Resumes.openPair (hbase : base.Separated) (h : Resumes base n s s') (index : Nat)
    (line : Text) (sides : Sides) :
    Resumes base n (s.openPair index line sides) (s'.openPair (index + n) line sides) := by
  cases h with
  | plain unclaimed =>
    -- The code of the first pair is gathered down from the blank line, also below `base`.
    have hle : (if sides.left.isEmpty then (Directive.linesAbove unclaimed).length else 0)
        ≤ unclaimed.length := by
      split
      · exact (List.takeWhile_prefix _).length_le
      · exact Nat.zero_le _
    have hopened : Resumes base n _ _ := .pair [] []
      ⟨⟨if sides.left.isEmpty then Directive.codeAbove unclaimed else sides.left, sides.right,
        index, false⟩, Text.indentWidth line, false⟩
      (unclaimed.drop
        (if sides.left.isEmpty then (Directive.linesAbove unclaimed).length else 0)).reverse
    rw [State.pairs, List.reverse_reverse] at hopened
    dsimp only [State.openPair]
    rw [hbase.codeAbove, hbase.linesAbove, List.drop_append_of_le_length hle, List.reverse_append]
    exact hopened
  | pair unclaimed finished p preamble =>
    exact .pair [] (p.pair :: finished) _ preamble

theorem Resumes.plainLine (hbase : base.Separated) (h : Resumes base n s s') (line : Text) :
    Resumes base n (s.plainLine line) (s'.plainLine line) := by
  cases h with
  | plain unclaimed =>
    rw [hbase.plainLine]
    exact .plain (line :: unclaimed)
  | pair unclaimed finished p preamble =>
    unfold State.plainLine
    dsimp only [OpenPair.lower, Pair.lower]
    split
    · exact .pair (line :: unclaimed) finished p preamble
    · split
      · exact .pair [] finished _ preamble
      · split
        · exact .pair [] finished _ preamble
        · exact .pair (line :: unclaimed) finished _ preamble

/-- **The two states stay related** as both read on. -/
theorem Resumes.steps (hbase : base.Separated) (h : Resumes base n s s') (index : Nat)
    (lines : List Text) :
    Resumes base n (s.steps recognises index lines) (s'.steps recognises (index + n) lines) := by
  induction lines generalizing s s' index with
  | nil => exact h
  | cons line lines ih =>
    have hstep : Resumes base n (s.step recognises index line)
        (s'.step recognises (index + n) line) := by
      unfold State.step
      cases pairSides? recognises line with
      | none => exact h.plainLine hbase line
      | some sides => exact h.openPair hbase index line sides
    have hnext : index + n + 1 = index + 1 + n := by omega
    rw [State.steps, State.steps, hnext]
    exact ih hstep (index + 1)

theorem Resumes.pairs (h : Resumes base n s s') :
    s'.pairs = base.pairs ++ s.pairs.map (·.lower n) := by
  cases h with
  | plain unclaimed => simp [State.pairs]
  | pair unclaimed finished p preamble => simp [State.pairs, OpenPair.lower]

theorem Resumes.preambleLines (h : Resumes base n s s') :
    s'.preambleLines
      = if base.current.isSome then base.preamble
        else base.unclaimed.reverse ++ s.preambleLines := by
  cases h with
  | plain unclaimed => simp [State.preambleLines]
  | pair unclaimed finished p preamble => simp [State.preambleLines]

/-- The lines below a blank line are read as if they stood alone. -/
theorem resumes_append_blank (xs ys : List Text) :
    Resumes ((initial.steps recognises 0 xs).plainLine []) (xs.length + 1)
      (initial.steps recognises 0 ys) (initial.steps recognises 0 (xs ++ [] :: ys)) := by
  have hblank : pairSides? recognises [] = none := rfl
  have hstart : Resumes ((initial.steps recognises 0 xs).plainLine []) (xs.length + 1) initial
      ((initial.steps recognises 0 xs).plainLine []) := .plain []
  have hsteps : Resumes _ _ (initial.steps recognises 0 ys) _ :=
    hstart.steps (separated_of_blank rfl _) 0 ys
  rw [Nat.zero_add] at hsteps
  rw [steps_append, steps, step, hblank, Nat.zero_add]
  exact hsteps

end State

/-! ## Two blocks -/

theorem Block.pairs_eq_nil_iff (text : Text) :
    (Block.parse recognises text).pairs = []
      ↔ (State.initial.steps recognises 0 (Text.lines text)).current.isSome = false := by
  rw [(State.describes_steps (Text.lines text)).current, ← Block.map_line_pairs_parse]
  simp

/-- Without a pair, all lines are kept. -/
theorem State.unclaimed_of_current {ls : List Text}
    (h : (initial.steps recognises 0 ls).current.isSome = false) :
    (initial.steps recognises 0 ls).unclaimed.reverse = ls := by
  have hdescribes := @describes_steps recognises ls
  have hnone : pairLines recognises ls = [] := by simpa [hdescribes.current] using h
  rw [hdescribes.unclaimed, startAt, hnone]
  rfl

theorem stripRight_unlines_blank {xs : List Text} (hxs : xs ≠ []) (ys : List Text) :
    Text.stripRight (Text.unlines (xs ++ [] :: ys))
      = Text.stripRight (Text.unlines (xs ++ [[], Text.stripRight (Text.unlines ys)])) := by
  have hblank : ∀ ts : List Text, ts ≠ [] →
      Text.unlines (xs ++ [] :: ts) = Text.unlines xs ++ "\n\n" ++ Text.unlines ts := by
    intro ts hts
    rw [Text.unlines, Text.join_append hxs (List.cons_ne_nil _ _), Text.join_cons hts]
    simp [Text.unlines]
  rw [hblank _ (List.cons_ne_nil _ _)]
  show _ = Text.stripRight (_ ++ Text.stripRight (Text.unlines ys))
  rw [Text.stripRight_append_stripRight]
  by_cases hys : ys = []
  · subst hys
    have hend : Text.unlines (xs ++ [[]]) = Text.unlines xs ++ "\n" := by
      rw [Text.unlines, Text.join_append hxs (List.cons_ne_nil _ _)]
      exact List.append_nil _
    show _ = Text.stripRight ((Text.unlines xs ++ "\n\n" : Text) ++ [])
    rw [hend, List.append_nil, Text.stripRight_append_blank (by decide),
      Text.stripRight_append_blank (by decide)]
  · rw [hblank ys hys]

/-- **Blank lines separate blocks.** The pairs of two blocks with a blank line in between are those
of the first and, moved down, those of the second. The preamble is that of the first block if it
has a pair, and goes on into the second otherwise. -/
theorem Block.parse_append_blank (recognises : Text → Bool) (t u : Text) :
    (Block.parse recognises (t ++ "\n\n" ++ u)).pairs
        = (Block.parse recognises t).pairs
          ++ (Block.parse recognises u).pairs.map
            (fun p => { p with line := p.line + ((Text.lines t).length + 1) }) ∧
      (Block.parse recognises (t ++ "\n\n" ++ u)).preamble
        = if (Block.parse recognises t).pairs = [] then
            Text.stripRight (Text.unlines
              (Text.lines t ++ [[], (Block.parse recognises u).preamble]))
          else (Block.parse recognises t).preamble := by
  have hlines : Text.lines (t ++ "\n\n" ++ u) = Text.lines t ++ [] :: Text.lines u := by
    rw [List.append_assoc]
    exact (Text.lines_append t ('\n' :: u)).trans (by rw [Text.lines_feed])
  have hresumes := @State.resumes_append_blank recognises (Text.lines t) (Text.lines u)
  rw [← hlines, State.plainLine_of_blank rfl] at hresumes
  constructor
  · refine hresumes.pairs.trans ?_
    congr 1
    simp [State.pairs, Block.parse, Option.map_map, Function.comp_def]
  · show Text.stripRight (Text.unlines _) = _
    rw [hresumes.preambleLines]
    cases hcurrent : (State.initial.steps recognises 0 (Text.lines t)).current.isSome with
    | false =>
      have hlinesAbove := State.unclaimed_of_current hcurrent
      rw [if_pos ((Block.pairs_eq_nil_iff t).mpr hcurrent)]
      simp only [Option.isSome_map, hcurrent, Bool.false_eq_true, if_false, List.reverse_cons,
        hlinesAbove, List.append_assoc, List.singleton_append]
      exact stripRight_unlines_blank (Text.splitWhere_ne_nil _ t) _
    | true =>
      have hpairs : (Block.parse recognises t).pairs ≠ [] := by
        rw [Ne, Block.pairs_eq_nil_iff, hcurrent]
        exact Bool.noConfusion
      rw [if_neg hpairs]
      simp only [Option.isSome_map, hcurrent, if_true, Block.parse, State.preambleLines]

end DocModel.Directive
