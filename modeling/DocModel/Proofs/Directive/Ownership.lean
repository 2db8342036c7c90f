import DocModel.Proofs.Directive.Reading
import Mathlib.Data.List.TakeWhile
import Mathlib.Order.Interval.Finset.Nat

/-!
# No line is used twice

A line of a block can be the line of a pair, go on with a value or close it, be gathered for the
code of a pair below it, or stand in the preamble. It never plays two of these parts
(`Block.parse_usesOnce`): the lines that a pair is made of follow each other without a gap, and what
one pair takes ends before what the next one takes begins. A line that ends a value, but does not
belong to it, is left to the pair below.

Two facts carry this. Going down, a pair takes lines that are no pairs, so it stops before the next
pair (`endAt_le`). Going up, a pair stops where the pair before it has ended (`startAt_add_le`).
-/

namespace DocModel.Directive

section Lines

variable (recognises : Text → Bool) (ls : List Text) (m : Nat)

/-- The number of lines above line `m` that are gathered for the code of the pair on it, lines of
comment included. There are none if it has code of its own. -/
def gatheredAt : Nat :=
  if (pairSides? recognises (ls.getD m [])).any (·.left.isEmpty) then
    (aboveAt recognises ls m).length
  else 0

/-- **The numbers of the lines that the pair on line `m` is made of**: the lines gathered above it,
its own line, and the lines below that go on with its value or close it. -/
def linesOf : Finset Nat :=
  Finset.Ico (m - gatheredAt recognises ls m) (endAt recognises ls m)

end Lines

variable {recognises : Text → Bool} {ls : List Text}

/-! ## Going down -/

/-- A pair takes the lines directly below it. -/
theorem owned_isPrefix (indent : Nat) (below : List Text) :
    owned recognises indent below <+: below := by
  have hclosing : (closing? recognises indent below).toList
      <+: below.dropWhile (continues recognises indent) := by
    unfold closing?
    split
    · exact List.nil_prefix
    · cases below.dropWhile (continues recognises indent) with
      | nil => exact List.nil_prefix
      | cons line rest =>
        rw [List.head?_cons, Option.filter_some]
        split
        · exact List.prefix_append [line] rest
        · exact List.nil_prefix
  have hsplit : below = run recognises indent below
      ++ below.dropWhile (continues recognises indent) := List.takeWhile_append_dropWhile.symm
  conv => rhs; rw [hsplit]
  exact (List.prefix_append_right_inj _).mpr hclosing

/-- A pair takes no other pair. -/
theorem isPairLine_of_mem_owned {indent : Nat} {below : List Text} {line : Text}
    (h : line ∈ owned recognises indent below) : isPairLine recognises line = false := by
  obtain hrun | hclosing := List.mem_append.mp h
  · have hcontinues : continues recognises indent line = true := List.mem_takeWhile_imp hrun
    simp only [continues, Bool.and_eq_true, Bool.not_eq_true'] at hcontinues
    exact hcontinues.1.1
  · unfold closing? at hclosing
    split at hclosing
    · cases hclosing
    · have hfilter := (Option.filter_eq_some_iff.mp (Option.mem_toList.mp hclosing)).2
      simp only [Bool.and_eq_true, Bool.not_eq_true'] at hfilter
      exact hfilter.2

/-- **A pair ends before the next one.** -/
theorem endAt_le {k m : Nat} (hkm : k < m) (hm : m ∈ pairLines recognises ls) :
    endAt recognises ls k ≤ m := by
  refine Nat.le_of_not_lt fun hlt => ?_
  have hindex : m - (k + 1) < (ownedAt recognises ls k).length := by
    rw [endAt] at hlt
    omega
  -- The line of the next pair would be one of the lines that the pair takes.
  have hline : (ownedAt recognises ls k)[m - (k + 1)] = ls.getD m [] := by
    refine ((owned_isPrefix (indentAt ls k) (ls.drop (k + 1))).getElem hindex).trans ?_
    rw [List.getD_eq_getElem _ _ (lt_length_of_mem_pairLines hm), List.getElem_drop]
    congr 1
    omega
  have hplain := isPairLine_of_mem_owned (List.getElem_mem hindex)
  rw [hline, (List.mem_filter.mp hm).2] at hplain
  cases hplain

/-! ## Going up -/

theorem startAt_le {m : Nat} (hm : m ∈ pairLines recognises ls) : startAt recognises ls m ≤ m := by
  unfold startAt
  cases hlast : ((pairLines recognises ls).filter (· < m)).getLast? with
  | none => exact Nat.zero_le m
  | some k =>
    have hkm : k < m := by simpa using (List.mem_filter.mp (List.mem_of_getLast? hlast)).2
    exact endAt_le hkm hm

/-- The lines above a pair are looked at only down from where the pairs before it have ended. -/
theorem endAt_le_startAt {k m : Nat} (hk : k ∈ pairLines recognises ls) (hkm : k < m) :
    endAt recognises ls k ≤ startAt recognises ls m := by
  have hmem : k ∈ (pairLines recognises ls).filter (· < m) :=
    List.mem_filter.mpr ⟨hk, decide_eq_true hkm⟩
  obtain ⟨init, last, hinit⟩ := (List.eq_nil_or_concat' _).resolve_left (List.ne_nil_of_mem hmem)
  have hstart : startAt recognises ls m = endAt recognises ls last := by
    rw [startAt, hinit, List.getLast?_concat]
    rfl
  have hordered : ((pairLines recognises ls).filter (· < m)).Pairwise (· < ·) :=
    (pairwise_pairLines ls).filter _
  rw [hstart]
  -- A pair before the last one ends before the last one starts.
  obtain hearlier | rfl : k ∈ init ∨ k = last := by simpa [hinit] using hmem
  · have hlt : k < last := by
      rw [hinit] at hordered
      exact (List.pairwise_append.mp hordered).2.2 k hearlier last List.mem_cons_self
    have hlast : last ∈ (pairLines recognises ls).filter (· < m) := by simp [hinit]
    exact Nat.le_trans (endAt_le hlt (List.mem_filter.mp hlast).1) (by rw [endAt]; omega)
  · exact Nat.le_refl _

theorem aboveAt_isSuffix (m : Nat) :
    aboveAt recognises ls m <:+ (ls.take m).drop (startAt recognises ls m) := by
  rw [aboveAt, ← List.reverse_prefix, List.reverse_reverse]
  exact List.takeWhile_prefix _

/-- **What is gathered for a pair stands below the pairs before it.** -/
theorem startAt_add_le {m : Nat} (hm : m ∈ pairLines recognises ls) :
    startAt recognises ls m + gatheredAt recognises ls m ≤ m := by
  have habove : (aboveAt recognises ls m).length ≤ _ := (aboveAt_isSuffix m).length_le
  have hstart := startAt_le hm
  rw [List.length_drop, List.length_take] at habove
  unfold gatheredAt
  split <;> omega

/-- The lines of a pair end before those of the next one begin. -/
theorem endAt_le_sub {k m : Nat} (hk : k ∈ pairLines recognises ls)
    (hm : m ∈ pairLines recognises ls) (hkm : k < m) :
    endAt recognises ls k ≤ m - gatheredAt recognises ls m := by
  have hstart := endAt_le_startAt hk hkm
  have habove := startAt_add_le hm
  omega

/-! ## Lines by their numbers -/

/-- The lines that are gathered, by their numbers. -/
theorem aboveAt_eq_drop {m : Nat} (hm : m ≤ ls.length) :
    aboveAt recognises ls m = (ls.take m).drop (m - (aboveAt recognises ls m).length) := by
  have hsuffix : aboveAt recognises ls m <:+ ls.take m :=
    (aboveAt_isSuffix m).trans (List.drop_suffix _ _)
  have heq := List.suffix_iff_eq_drop.mp hsuffix
  rwa [List.length_take_of_le hm] at heq

/-- The lines below a pair that belong to it, by their numbers. -/
theorem ownedAt_eq_drop (m : Nat) :
    ownedAt recognises ls m = (ls.take (endAt recognises ls m)).drop (m + 1) := by
  rw [List.drop_take, endAt, Nat.add_sub_cancel_left]
  exact List.prefix_iff_eq_take.mp (owned_isPrefix _ _)

theorem head?_pairLines (ls : List Text) :
    (pairLines recognises ls).head? = ls.findIdx? (isPairLine recognises) := by
  induction ls with
  | nil => rfl
  | cons line ls ih =>
    rw [← List.singleton_append, pairLines_append, List.head?_append, List.head?_map, ih,
      List.singleton_append, List.findIdx?_cons]
    have hone : pairLines recognises [line] = if isPairLine recognises line then [0] else [] := by
      simp [pairLines, List.filter_singleton]
    rw [hone]
    split
    · rfl
    · simp [Nat.add_comm]

/-- The preamble ends where the lines of the first pair begin. -/
theorem preambleLength_eq {m : Nat} (hm : (pairLines recognises ls).head? = some m) :
    preambleLength recognises ls = m - gatheredAt recognises ls m := by
  rw [preambleLength, hm, gatheredAt]
  dsimp only
  split <;> rfl

/-! ## Blocks -/

theorem disjoint_linesOf {k m : Nat} (hk : k ∈ pairLines recognises ls)
    (hm : m ∈ pairLines recognises ls) (hkm : k < m) :
    Disjoint (linesOf recognises ls k) (linesOf recognises ls m) := by
  refine Finset.disjoint_left.mpr fun i hik him => ?_
  exact Nat.not_lt.mpr (Nat.le_trans (endAt_le_sub hk hm hkm) (Finset.mem_Ico.mp him).1)
    (Finset.mem_Ico.mp hik).2

/-- The lines of every pair stand below the preamble. -/
theorem disjoint_linesOf_range {first m : Nat}
    (hfirst : (pairLines recognises ls).head? = some first) (hm : m ∈ pairLines recognises ls) :
    Disjoint (linesOf recognises ls m)
      (Finset.range (first - gatheredAt recognises ls first)) := by
  have hbegin : first - gatheredAt recognises ls first ≤ m - gatheredAt recognises ls m := by
    obtain ⟨later, hlater⟩ := List.head?_eq_some_iff.mp hfirst
    have hordered : (pairLines recognises ls).Pairwise (· < ·) := pairwise_pairLines ls
    rw [hlater] at hordered hm
    obtain rfl | hmem := List.mem_cons.mp hm
    · exact Nat.le_refl _
    · have hlt := (List.pairwise_cons.mp hordered).1 m hmem
      have hend := endAt_le_sub (List.mem_of_head? hfirst) (by rw [hlater]; exact hm) hlt
      rw [endAt] at hend
      omega
  refine Finset.disjoint_left.mpr fun i hi hrange => ?_
  exact Nat.not_lt.mpr (Nat.le_trans hbegin (Finset.mem_Ico.mp hi).1) (Finset.mem_range.mp hrange)

theorem Block.mem_pairLines_of_mem {text : Text} {p : Pair}
    (hp : p ∈ (Block.parse recognises text).pairs) :
    p.line ∈ pairLines recognises (Text.lines text) := by
  rw [← Block.map_line_pairs_parse]
  exact List.mem_map_of_mem hp

/-- The code that is gathered for a pair, by the numbers of its lines. -/
theorem leftAt_eq {m : Nat} {sides : Sides} (hm : m ≤ ls.length)
    (hsides : pairSides? recognises (ls.getD m []) = some sides) :
    leftAt recognises ls m sides =
      if sides.left = [] then
        Text.unlines ((((ls.take m).drop (m - gatheredAt recognises ls m)).filter
          (!isCommentLine ·)).map Text.strip)
      else sides.left := by
  by_cases hleft : sides.left = []
  · have hgathered : gatheredAt recognises ls m = (aboveAt recognises ls m).length := by
      rw [gatheredAt, hsides, Option.any_some, hleft]
      rfl
    rw [leftAt, hleft, if_pos rfl, if_pos List.isEmpty_nil, hgathered, ← aboveAt_eq_drop hm]
  · rw [leftAt, if_neg hleft, if_neg (mt List.isEmpty_iff.mp hleft)]

/-- **No line is used twice.** Each pair is made of the lines above it that are gathered, of its own
line and of the lines below that belong to it, and nothing else. No two pairs share a line, and none
has a line of the preamble. The preamble is everything if there is no pair, and otherwise what
stands before the lines of the first pair. -/
theorem Block.parse_usesOnce (recognises : Text → Bool) (text : Text) :
    let ls := Text.lines text
    let block := Block.parse recognises text
    (∀ p ∈ block.pairs, ∃ sides, pairSides? recognises (ls.getD p.line []) = some sides ∧
      p.left = (if sides.left = [] then
          Text.unlines ((((ls.take p.line).drop (p.line - gatheredAt recognises ls p.line)).filter
            (!isCommentLine ·)).map Text.strip)
        else sides.left) ∧
      p.right = sides.right ++
        ((ls.take (endAt recognises ls p.line)).drop (p.line + 1)).flatMap fun line =>
          '\n' :: relativeLine (indentAt ls p.line) line) ∧
    block.pairs.Pairwise (fun p q =>
      Disjoint (linesOf recognises ls p.line) (linesOf recognises ls q.line)) ∧
    (ls.findIdx? (isPairLine recognises) = none → block.preamble = Text.stripRight text) ∧
    ∀ m, ls.findIdx? (isPairLine recognises) = some m →
      block.preamble
          = Text.stripRight (Text.unlines (ls.take (m - gatheredAt recognises ls m))) ∧
        ∀ p ∈ block.pairs, Disjoint (linesOf recognises ls p.line)
          (Finset.range (m - gatheredAt recognises ls m)) := by
  intro ls block
  have hordered : block.pairs.Pairwise (fun p q => p.line < q.line) := by
    have hlines : (block.pairs.map (·.line)).Pairwise (· < ·) := by
      rw [Block.map_line_pairs_parse]
      exact pairwise_pairLines ls
    exact List.pairwise_map.mp hlines
  refine ⟨fun p hp => ?_, ?_, fun hnone => ?_, fun m hm => ⟨?_, fun p hp => ?_⟩⟩
  · rw [Block.pairs_parse] at hp
    obtain ⟨m, hm, hpair⟩ := List.mem_filterMap.mp hp
    obtain ⟨sides, hsides, rfl⟩ := Option.map_eq_some_iff.mp hpair
    refine ⟨sides, hsides, leftAt_eq (Nat.le_of_lt (lt_length_of_mem_pairLines hm)) hsides, ?_⟩
    show rightAt recognises ls m sides = _
    rw [rightAt, ownedAt_eq_drop]
    rfl
  · refine hordered.imp_of_mem fun hp hq hlt => ?_
    exact disjoint_linesOf (Block.mem_pairLines_of_mem hp) (Block.mem_pairLines_of_mem hq) hlt
  · rw [Block.preamble_parse, preambleLength, head?_pairLines, hnone]
    dsimp only
    rw [List.take_length, Text.unlines_lines]
  · rw [Block.preamble_parse, preambleLength_eq ((head?_pairLines ls).trans hm)]
  · exact disjoint_linesOf_range ((head?_pairLines ls).trans hm) (Block.mem_pairLines_of_mem hp)

/-- A block whose first pair takes a closing line; the code of the second begins right below. -/
def adjoiningBlock : Text :=
  "a();\n\nf() // => [\n  1\n]\ng()\n// why\n// => 2\nh() // => 3"

theorem Block.parse_usesOnce_adjoining :
    (Block.parse (fun _ => false) adjoiningBlock).pairs
        = [⟨"f()", "[\n  1\n]", 2, true⟩, ⟨"g()", "2", 7, false⟩, ⟨"h()", "3", 8, false⟩] ∧
      Disjoint (linesOf (fun _ => false) (Text.lines adjoiningBlock) 2)
        (linesOf (fun _ => false) (Text.lines adjoiningBlock) 7) ∧
      (Block.parse (fun _ => false) adjoiningBlock).preamble = "a();" := by
  have hpairs : (Block.parse (fun _ => false) adjoiningBlock).pairs
      = [⟨"f()", "[\n  1\n]", 2, true⟩, ⟨"g()", "2", 7, false⟩, ⟨"h()", "3", 8, false⟩] := by
    decide +kernel
  have hfirst : (Text.lines adjoiningBlock).findIdx? (isPairLine fun _ => false) = some 2 := by
    decide +kernel
  obtain ⟨-, hdisjoint, -, hpreamble⟩ := Block.parse_usesOnce (fun _ => false) adjoiningBlock
  rw [hpairs] at hdisjoint
  refine ⟨hpairs, (List.pairwise_cons.mp hdisjoint).1 ⟨"g()", "2", 7, false⟩ List.mem_cons_self, ?_⟩
  exact (hpreamble 2 hfirst).1.trans (by decide +kernel)

end DocModel.Directive
