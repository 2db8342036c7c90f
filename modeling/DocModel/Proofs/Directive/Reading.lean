import DocModel.Directive.Block
import Mathlib.Data.List.Basic
import Mathlib.Data.List.GetD
import Mathlib.Data.List.Induction

/-!
# What a block says

A block is read once, from top to bottom, by a machine that keeps the last pair open until its
value has ended. Here the same pairs are described without a machine, each by its own line number:
which lines of the block go on with its value, which line closes it, and which lines above it are
its code. The two agree on every text (`Block.pairs_parse`).

The description of a pair only looks at the lines up to the next pair. This is what lets the proof
go from pair to pair: a block is cut at its last pair, and the pairs before the cut are those of
the lines before it (`pairAt_append`).
-/

namespace DocModel.Directive

/-! ## The description of a pair -/

section Reading

variable (recognises : Text → Bool)

/-- Whether a line is a pair. -/
def isPairLine (line : Text) : Bool := (pairSides? recognises line).isSome

variable {recognises} in
theorem isPairLine_of_sides {line : Text} {sides : Sides}
    (h : pairSides? recognises line = some sides) : isPairLine recognises line = true := by
  rw [isPairLine, h, Option.isSome_some]

/-- Whether a line goes on with the value of a pair that is indented by `indent`. -/
def continues (indent : Nat) (line : Text) : Bool :=
  !isPairLine recognises line && !Text.blank line && indent < Text.indentWidth line

/-- The lines that go on with the value of a pair, of those below it. -/
def run (indent : Nat) (below : List Text) : List Text :=
  below.takeWhile (continues recognises indent)

/-- The line that closes a value of several lines: the next one, if it is neither blank nor a
pair. -/
def closing? (indent : Nat) (below : List Text) : Option Text :=
  if (run recognises indent below).isEmpty then none
  else (below.dropWhile (continues recognises indent)).head?.filter fun line =>
    !Text.blank line && !isPairLine recognises line

/-- The lines below a pair that belong to it. -/
def owned (indent : Nat) (below : List Text) : List Text :=
  run recognises indent below ++ (closing? recognises indent below).toList

variable (ls : List Text)

/-- The indentation of line `m`. -/
def indentAt (m : Nat) : Nat := Text.indentWidth (ls.getD m [])

/-- The lines that go on with the value of the pair on line `m`. -/
def runAt (m : Nat) : List Text := run recognises (indentAt ls m) (ls.drop (m + 1))

/-- The lines below line `m` that belong to the pair on it. -/
def ownedAt (m : Nat) : List Text := owned recognises (indentAt ls m) (ls.drop (m + 1))

/-- The numbers of the lines that are pairs. -/
def pairLines : List Nat :=
  (List.range ls.length).filter fun m => isPairLine recognises (ls.getD m [])

/-- The first line below line `m` that does not belong to the pair on it. -/
def endAt (m : Nat) : Nat := m + 1 + (ownedAt recognises ls m).length

/-- The first line that belongs to no pair before line `m`. -/
def startAt (m : Nat) : Nat :=
  (((pairLines recognises ls).filter (· < m)).getLast?.map (endAt recognises ls)).getD 0

/-- The lines directly above line `m`, up to a blank line or to a line of another pair. -/
def aboveAt (m : Nat) : List Text :=
  (((ls.take m).drop (startAt recognises ls m)).reverse.takeWhile (!Text.blank ·)).reverse

/-- The code of the pair on line `m`: what stands on the line itself, or else the lines above it
that are no comments. -/
def leftAt (m : Nat) (sides : Sides) : Text :=
  if sides.left.isEmpty then
    Text.unlines (((aboveAt recognises ls m).filter (!isCommentLine ·)).map Text.strip)
  else sides.left

/-- The value of the pair on line `m`: what stands on the line itself, and under it each of the
lines that belong to the pair. -/
def rightAt (m : Nat) (sides : Sides) : Text :=
  sides.right ++ (ownedAt recognises ls m).flatMap fun line =>
    '\n' :: relativeLine (indentAt ls m) line

/-- **The pair on line `m`.** -/
def pairAt (m : Nat) (sides : Sides) : Pair :=
  ⟨leftAt recognises ls m sides, rightAt recognises ls m sides, m,
    !(runAt recognises ls m).isEmpty⟩

/-- The pair on line `m`, if that line is one. -/
def pairAt? (m : Nat) : Option Pair :=
  (pairSides? recognises (ls.getD m [])).map (pairAt recognises ls m)

/-- The number of lines that make up the preamble: those before the first pair, without the lines
that are its code. -/
def preambleLength : Nat :=
  match (pairLines recognises ls).head? with
  | none => ls.length
  | some m =>
    if (pairSides? recognises (ls.getD m [])).any (·.left.isEmpty) then
      m - (aboveAt recognises ls m).length
    else m

end Reading

variable {recognises : Text → Bool}

/-! ## The machine on the lines below a pair -/

theorem State.steps_append (s : State) (n : Nat) (xs ys : List Text) :
    s.steps recognises n (xs ++ ys)
      = (s.steps recognises n xs).steps recognises (n + xs.length) ys := by
  induction xs generalizing s n with
  | nil => rfl
  | cons x xs ih =>
    rw [List.cons_append, steps, steps, ih, List.length_cons, Nat.add_assoc, Nat.add_comm 1]

theorem State.step_of_plain {line : Text} (h : isPairLine recognises line = false) (s : State)
    (n : Nat) : s.step recognises n line = s.plainLine line := by
  rw [isPairLine, Option.isSome_eq_false_iff, Option.isNone_iff_eq_none] at h
  rw [step, h]

/-- While no value is open, lines that are no pairs belong to none. -/
theorem State.steps_of_closed {s : State} (hs : ∀ p ∈ s.current, p.closed) (n : Nat)
    {lines : List Text} (hlines : ∀ line ∈ lines, isPairLine recognises line = false) :
    s.steps recognises n lines = { s with unclaimed := lines.reverse ++ s.unclaimed } := by
  induction lines generalizing s n with
  | nil => rfl
  | cons line lines ih =>
    have hplain : s.plainLine line = { s with unclaimed := line :: s.unclaimed } := by
      unfold State.plainLine
      cases hc : s.current with
      | none => rfl
      | some p => simp [hs p hc]
    rw [steps, step_of_plain (hlines line (by simp)), hplain,
      ih (s := { s with unclaimed := line :: s.unclaimed }) hs _
        (fun l hl => hlines l (by simp [hl]))]
    simp

/-- A pair with lines added to its value. -/
def OpenPair.extendAll (p : OpenPair) (lines : List Text) : OpenPair :=
  { p with
    pair := { p.pair with
      right := p.pair.right ++ lines.flatMap fun line => '\n' :: relativeLine p.indent line
      multiline := p.pair.multiline || !lines.isEmpty } }

/-- Lines that go on with the open value are added to it. -/
theorem State.steps_of_continues {s : State} {p : OpenPair} (hs : s.current = some p)
    (hp : p.closed = false) (hu : s.unclaimed = []) (n : Nat) {lines : List Text}
    (hlines : ∀ line ∈ lines, continues recognises p.indent line) :
    s.steps recognises n lines = { s with current := some (p.extendAll lines) } := by
  induction lines generalizing s p n with
  | nil =>
    have : p.extendAll [] = p := by simp [OpenPair.extendAll]
    rw [steps, this, ← hs]
  | cons line lines ih =>
    have hline := hlines line (by simp)
    simp only [continues, Bool.and_eq_true, Bool.not_eq_true', decide_eq_true_eq] at hline
    obtain ⟨⟨hpair, hblank⟩, hindent⟩ := hline
    have hplain : s.plainLine line = { s with current := some (p.extendAll [line]) } := by
      unfold State.plainLine
      rw [hs]
      simp [hp, hblank, hindent, OpenPair.extend, OpenPair.extendAll, hu]
    have hall : (p.extendAll [line]).extendAll lines = p.extendAll (line :: lines) := by
      simp [OpenPair.extendAll]
    rw [steps, step_of_plain hpair, hplain, ← hall,
      ih (s := { s with current := some (p.extendAll [line]) }) (p := p.extendAll [line])
        rfl hp hu _ (fun l hl => hlines l (by simp [hl]))]

/-- The first line that does not go on with the open value ends it; after a value of several lines
it still belongs to the pair, unless it is blank. -/
theorem State.plainLine_of_not_continues {s : State} {p : OpenPair} (hs : s.current = some p)
    (hp : p.closed = false) (hu : s.unclaimed = []) {line : Text}
    (hpair : isPairLine recognises line = false)
    (hline : continues recognises p.indent line = false) :
    s.plainLine line =
      if p.pair.multiline && !Text.blank line then
        { s with current := some { p.extend line with closed := true } }
      else { s with unclaimed := [line], current := some { p with closed := true } } := by
  have hends : (!Text.blank line && decide (p.indent < Text.indentWidth line)) = false := by
    simpa [continues, hpair] using hline
  unfold State.plainLine
  rw [hs]
  simp only [hp, hends, hu, Bool.false_eq_true, if_false]

/-- **The lines between a pair and the next one.** The pair takes those that belong to it, and the
others belong to no pair. -/
theorem State.steps_below {s : State} {p : OpenPair} (hs : s.current = some p)
    (hp : p.closed = false) (hm : p.pair.multiline = false) (hu : s.unclaimed = []) (n : Nat)
    {below : List Text} (hbelow : ∀ line ∈ below, isPairLine recognises line = false) :
    ∃ closed, s.steps recognises n below = { s with
      unclaimed := (below.drop (owned recognises p.indent below).length).reverse
      current := some { p with
        pair := { p.pair with
          right := p.pair.right ++ (owned recognises p.indent below).flatMap fun line =>
            '\n' :: relativeLine p.indent line
          multiline := !(run recognises p.indent below).isEmpty }
        closed } } := by
  have hsplit : below = run recognises p.indent below
      ++ below.dropWhile (continues recognises p.indent) :=
    List.takeWhile_append_dropWhile.symm
  have hrun : ∀ line ∈ run recognises p.indent below, continues recognises p.indent line :=
    List.all_eq_true.mp List.all_takeWhile
  have hnext := List.head?_dropWhile_not (continues recognises p.indent) below
  have hsteps : s.steps recognises n below
      = State.steps recognises
          { s with current := some (p.extendAll (run recognises p.indent below)) }
          (n + (run recognises p.indent below).length)
          (below.dropWhile (continues recognises p.indent)) := by
    conv => lhs; rw [hsplit, steps_append, steps_of_continues hs hp hu n hrun]
  rw [hsteps]
  -- After the run there is nothing left, or a line that ends the value.
  cases hrest : below.dropWhile (continues recognises p.indent) with
  | nil =>
    have hclosing : closing? recognises p.indent below = none := by simp [closing?, hrest]
    have hall : run recognises p.indent below = below := by simpa [hrest] using hsplit.symm
    refine ⟨false, ?_⟩
    simp [steps, OpenPair.extendAll, owned, hclosing, hall, hu, hm, hp]
  | cons line rest =>
    rw [hrest] at hsplit hnext
    have hpair : isPairLine recognises line = false := hbelow line (by rw [hsplit]; simp)
    have hrestplain : ∀ l ∈ rest, isPairLine recognises l = false :=
      fun l hl => hbelow l (by rw [hsplit]; simp [hl])
    have hclosing : closing? recognises p.indent below
        = if !(run recognises p.indent below).isEmpty && !Text.blank line then some line
          else none := by
      cases hr : (run recognises p.indent below).isEmpty <;>
        cases hb : Text.blank line <;> simp [closing?, hr, hrest, hb, hpair, Option.filter]
    refine ⟨true, ?_⟩
    rw [steps, step_of_plain hpair, plainLine_of_not_continues
      (s := { s with current := some (p.extendAll (run recognises p.indent below)) })
      (p := p.extendAll (run recognises p.indent below)) rfl hp hu hpair hnext]
    by_cases hc : (!(run recognises p.indent below).isEmpty && !Text.blank line) = true
    · have hlast : ((p.extendAll (run recognises p.indent below)).pair.multiline
          && !Text.blank line) = true := by
        simpa [OpenPair.extendAll, hm] using hc
      rw [if_pos hc] at hclosing
      have hdrop : below.drop (owned recognises p.indent below).length = rest := by
        conv => lhs; arg 2; rw [hsplit]
        simp [owned, hclosing]
      rw [if_pos hlast, steps_of_closed (by simp) _ hrestplain, hdrop]
      simp [OpenPair.extendAll, OpenPair.extend, owned, hclosing, hu, hm]
    · have hlast : ¬ ((p.extendAll (run recognises p.indent below)).pair.multiline
          && !Text.blank line) = true := by
        simpa [OpenPair.extendAll, hm] using hc
      rw [if_neg hc] at hclosing
      have hdrop : below.drop (owned recognises p.indent below).length = line :: rest := by
        conv => lhs; arg 2; rw [hsplit]
        simp [owned, hclosing]
      rw [if_neg hlast, steps_of_closed (by simp) _ hrestplain, hdrop]
      simp [OpenPair.extendAll, owned, hclosing, hm]

/-- **A pair and the lines up to the next one.** -/
theorem State.steps_pair {line : Text} {sides : Sides}
    (hline : pairSides? recognises line = some sides) {below : List Text}
    (hbelow : ∀ l ∈ below, isPairLine recognises l = false) (s : State) (n : Nat) :
    (s.steps recognises n (line :: below)).unclaimed
        = (below.drop (owned recognises (Text.indentWidth line) below).length).reverse ∧
      (s.steps recognises n (line :: below)).pairs = s.pairs ++
        [{ left := if sides.left.isEmpty then codeAbove s.unclaimed else sides.left
           right := sides.right ++ (owned recognises (Text.indentWidth line) below).flatMap fun l =>
             '\n' :: relativeLine (Text.indentWidth line) l
           line := n
           multiline := !(run recognises (Text.indentWidth line) below).isEmpty }] ∧
      (s.steps recognises n (line :: below)).current.isSome ∧
      (s.steps recognises n (line :: below)).preambleLines =
        if s.current.isSome then s.preamble
        else (s.unclaimed.drop
          (if sides.left.isEmpty then (linesAbove s.unclaimed).length else 0)).reverse := by
  have hstep : s.step recognises n line = s.openPair n line sides := by rw [step, hline]
  obtain ⟨closed, hsteps⟩ :=
    steps_below (s := s.openPair n line sides) rfl rfl rfl rfl (n + 1) hbelow
  rw [steps, hstep, hsteps]
  exact ⟨rfl, by simp [State.pairs, openPair], rfl, rfl⟩

/-! ## What a description looks at -/

theorem pairLines_append (xs ys : List Text) :
    pairLines recognises (xs ++ ys)
      = pairLines recognises xs ++ (pairLines recognises ys).map (xs.length + ·) := by
  unfold pairLines
  rw [List.length_append, List.range_add, List.filter_append, List.filter_map]
  congr 1
  · refine List.filter_congr fun m hm => ?_
    rw [List.getD_append _ _ _ _ (List.mem_range.mp hm)]
  · congr 1
    refine List.filter_congr fun m _ => ?_
    simp [List.getElem?_append_right]

theorem pairLines_of_plain {ls : List Text} (h : ∀ l ∈ ls, isPairLine recognises l = false) :
    pairLines recognises ls = [] := by
  refine List.filter_eq_nil_iff.mpr fun m hm => ?_
  have hm : m < ls.length := List.mem_range.mp hm
  rw [List.getD_eq_getElem _ _ hm, h _ (List.getElem_mem hm)]
  exact Bool.false_ne_true

theorem lt_length_of_mem_pairLines {ls : List Text} {m : Nat} (h : m ∈ pairLines recognises ls) :
    m < ls.length :=
  List.mem_range.mp (List.mem_filter.mp h).1

section Cut

variable {line : Text} (hline : isPairLine recognises line = true) {before below : List Text}
include hline

theorem run_append (indent : Nat) (above : List Text) :
    run recognises indent (above ++ line :: below) = run recognises indent above := by
  have hstop : continues recognises indent line = false := by simp [continues, hline]
  induction above with
  | nil => simp [run, hstop]
  | cons l above ih =>
    unfold run at ih ⊢
    rw [List.cons_append, List.takeWhile_cons, List.takeWhile_cons, ih]

theorem closing?_append (indent : Nat) (above : List Text) :
    closing? recognises indent (above ++ line :: below) = closing? recognises indent above := by
  have hstop : continues recognises indent line = false := by simp [continues, hline]
  unfold closing?
  rw [run_append hline, List.dropWhile_append]
  cases hrest : above.dropWhile (continues recognises indent) with
  | nil =>
    -- The next line is the pair at the cut, which closes no value.
    simp [hstop, hline, Option.filter]
  | cons l rest => simp

theorem owned_append (indent : Nat) (above : List Text) :
    owned recognises indent (above ++ line :: below) = owned recognises indent above := by
  rw [owned, owned, run_append hline, closing?_append hline]

variable {m : Nat}

omit hline in
theorem indentAt_append (h : m < before.length) (after : List Text) :
    indentAt (before ++ after) m = indentAt before m := by
  rw [indentAt, indentAt, List.getD_append _ _ _ _ h]

theorem runAt_append (h : m < before.length) :
    runAt recognises (before ++ line :: below) m = runAt recognises before m := by
  rw [runAt, runAt, indentAt_append h, List.drop_append_of_le_length h, run_append hline]

theorem ownedAt_append (h : m < before.length) :
    ownedAt recognises (before ++ line :: below) m = ownedAt recognises before m := by
  rw [ownedAt, ownedAt, indentAt_append h, List.drop_append_of_le_length h, owned_append hline]

omit hline in
theorem filter_pairLines_append (h : m ≤ before.length) (after : List Text) :
    (pairLines recognises (before ++ after)).filter (· < m)
      = (pairLines recognises before).filter (· < m) := by
  have hlater : ((pairLines recognises after).map (before.length + ·)).filter (· < m) = [] := by
    simp [List.filter_eq_nil_iff]
    omega
  rw [pairLines_append, List.filter_append, hlater, List.append_nil]

theorem startAt_append (h : m ≤ before.length) :
    startAt recognises (before ++ line :: below) m = startAt recognises before m := by
  unfold startAt
  rw [filter_pairLines_append h]
  congr 1
  -- The pair before line `m` stands before the cut, and with it the lines that belong to it.
  refine Option.map_congr fun k hk => ?_
  have hk : k < m := by simpa using (List.mem_filter.mp (List.mem_of_getLast? hk)).2
  rw [endAt, endAt, ownedAt_append hline (Nat.lt_of_lt_of_le hk h)]

theorem aboveAt_append (h : m ≤ before.length) :
    aboveAt recognises (before ++ line :: below) m = aboveAt recognises before m := by
  rw [aboveAt, aboveAt, startAt_append hline h, List.take_append_of_le_length h]

/-- **A pair is described by the lines up to the next pair.** -/
theorem pairAt?_append (h : m < before.length) :
    pairAt? recognises (before ++ line :: below) m = pairAt? recognises before m := by
  have hpair : pairAt recognises (before ++ line :: below) m = pairAt recognises before m := by
    funext sides
    rw [pairAt, pairAt, leftAt, leftAt, rightAt, rightAt, aboveAt_append hline (Nat.le_of_lt h),
      ownedAt_append hline h, indentAt_append h, runAt_append hline h]
  rw [pairAt?, pairAt?, hpair, List.getD_append _ _ _ _ h]

end Cut

/-! ## The machine reads what the description says -/

/-- A block is either without pairs, or it is cut in two by the last of them. -/
@[elab_as_elim]
theorem block_induction (recognises : Text → Bool) {motive : List Text → Prop}
    (plain : ∀ ls, (∀ l ∈ ls, isPairLine recognises l = false) → motive ls)
    (pair : ∀ before line sides below, pairSides? recognises line = some sides →
      (∀ l ∈ below, isPairLine recognises l = false) → motive before →
      motive (before ++ line :: below)) (ls : List Text) : motive ls := by
  -- Lines that are no pairs are collected on the right until the last pair is met.
  suffices h : ∀ below : List Text, (∀ l ∈ below, isPairLine recognises l = false) →
      motive (ls ++ below) by simpa using h [] (by simp)
  induction ls using List.reverseRecOn with
  | nil => exact fun below hbelow => plain below hbelow
  | append_singleton before line ih =>
    intro below hbelow
    rw [List.append_assoc, List.singleton_append]
    cases hline : pairSides? recognises line with
    | none =>
      refine ih (line :: below) fun l hl => ?_
      cases hl with
      | head => rw [isPairLine, hline, Option.isSome_none]
      | tail _ hl => exact hbelow l hl
    | some sides => exact pair before line sides below hline hbelow (by simpa using ih [] (by simp))

/-- **What a state knows** of the lines that have been read. -/
structure State.Describes (recognises : Text → Bool) (s : State) (ls : List Text) : Prop where
  /-- The pairs are those that the lines describe. -/
  pairs : s.pairs = (pairLines recognises ls).filterMap (pairAt? recognises ls)
  /-- The lines after those of the last pair are kept. -/
  unclaimed : s.unclaimed.reverse = ls.drop (startAt recognises ls ls.length)
  /-- The machine knows whether there was a pair. -/
  current : s.current.isSome = !(pairLines recognises ls).isEmpty
  /-- The preamble is the one that the lines describe. -/
  preamble : s.preambleLines = ls.take (preambleLength recognises ls)

theorem State.describes_of_plain {ls : List Text}
    (hls : ∀ l ∈ ls, isPairLine recognises l = false) :
    (State.initial.steps recognises 0 ls).Describes recognises ls := by
  have hnone := pairLines_of_plain hls
  rw [steps_of_closed (s := State.initial) (by simp [State.initial]) 0 hls]
  constructor
  · simp [State.pairs, State.initial, hnone]
  · simp [State.initial, startAt, hnone]
  · simp [State.initial, hnone]
  · simp [State.preambleLines, State.initial, preambleLength, hnone]

section LastPair

variable {line : Text} {sides : Sides} (hline : pairSides? recognises line = some sides)
  {before below : List Text} (hbelow : ∀ l ∈ below, isPairLine recognises l = false)

omit hbelow in
theorem getD_last : (before ++ line :: below).getD before.length [] = line := by simp

include hline hbelow in
theorem pairLines_last :
    pairLines recognises (before ++ line :: below)
      = pairLines recognises before ++ [before.length] := by
  have hone : pairLines recognises [line] = [0] := by
    simp [pairLines, isPairLine, hline]
  rw [← List.singleton_append, pairLines_append, pairLines_append, hone, pairLines_of_plain hbelow]
  rfl

theorem runAt_last : runAt recognises (before ++ line :: below) before.length
    = run recognises (Text.indentWidth line) below := by
  simp [runAt, indentAt]

theorem ownedAt_last : ownedAt recognises (before ++ line :: below) before.length
    = owned recognises (Text.indentWidth line) below := by
  simp [ownedAt, indentAt]

include hline hbelow in
theorem startAt_end :
    startAt recognises (before ++ line :: below) (before ++ line :: below).length
      = endAt recognises (before ++ line :: below) before.length := by
  have hall : (pairLines recognises (before ++ line :: below)).filter
      (· < (before ++ line :: below).length) = pairLines recognises (before ++ line :: below) :=
    List.filter_eq_self.mpr fun m hm => by simpa using lt_length_of_mem_pairLines hm
  rw [startAt, hall, pairLines_last hline hbelow, List.getLast?_concat]
  rfl

variable {s : State} (hs : s.Describes recognises before)

include hline hs in
theorem aboveAt_last : aboveAt recognises (before ++ line :: below) before.length
    = (linesAbove s.unclaimed).reverse := by
  rw [aboveAt_append (isPairLine_of_sides hline) (Nat.le_refl _), aboveAt, List.take_length,
    ← hs.unclaimed, List.reverse_reverse, linesAbove]

include hline hs in
theorem pairAt?_last : pairAt? recognises (before ++ line :: below) before.length = some
    { left := if sides.left.isEmpty then codeAbove s.unclaimed else sides.left
      right := sides.right ++ (owned recognises (Text.indentWidth line) below).flatMap fun l =>
        '\n' :: relativeLine (Text.indentWidth line) l
      line := before.length
      multiline := !(run recognises (Text.indentWidth line) below).isEmpty } := by
  rw [pairAt?, getD_last, hline, Option.map_some, pairAt, leftAt, rightAt, aboveAt_last hline hs,
    runAt_last, ownedAt_last, List.filter_reverse, indentAt, getD_last]
  rfl

theorem preambleLength_le (ls : List Text) : preambleLength recognises ls ≤ ls.length := by
  unfold preambleLength
  cases hhead : (pairLines recognises ls).head? with
  | none => exact Nat.le_refl _
  | some m =>
    have hm := lt_length_of_mem_pairLines (List.mem_of_head? hhead)
    dsimp only
    split <;> omega

include hline hbelow hs in
theorem preamble_last :
    (if s.current.isSome then s.preamble
      else (s.unclaimed.drop
        (if sides.left.isEmpty then (linesAbove s.unclaimed).length else 0)).reverse)
      = (before ++ line :: below).take (preambleLength recognises (before ++ line :: below)) := by
  cases hfirst : pairLines recognises before with
  | nil =>
    -- At the first pair the machine has kept all lines; those the pair does not need are left.
    have hcurrent : s.current.isSome = false := by simp [hs.current, hfirst]
    have hkept : s.unclaimed.reverse = before := by
      rw [hs.unclaimed, startAt, hfirst]
      rfl
    have hlength : s.unclaimed.length = before.length := by rw [← hkept, List.length_reverse]
    have hcount : preambleLength recognises (before ++ line :: below)
        = before.length
          - (if sides.left.isEmpty then (linesAbove s.unclaimed).length else 0) := by
      rw [preambleLength, pairLines_last hline hbelow, hfirst, List.nil_append, List.head?_cons]
      simp only [getD_last, hline, Option.any_some, aboveAt_last hline hs, List.length_reverse]
      split <;> rfl
    rw [hcurrent, if_neg Bool.false_ne_true, hcount, List.reverse_drop, hkept, hlength,
      List.take_append_of_le_length (Nat.sub_le _ _)]
  | cons m ms =>
    have hm : m < before.length := lt_length_of_mem_pairLines (by rw [hfirst]; simp)
    have hcurrent : s.current.isSome = true := by simp [hs.current, hfirst]
    have hsame : preambleLength recognises (before ++ line :: below)
        = preambleLength recognises before := by
      rw [preambleLength, preambleLength, pairLines_last hline hbelow, hfirst, List.cons_append,
        List.head?_cons, List.head?_cons]
      dsimp only
      rw [aboveAt_append (isPairLine_of_sides hline) (Nat.le_of_lt hm),
        List.getD_append _ _ _ _ hm]
    have hpreamble := hs.preamble
    rw [State.preambleLines, if_pos hcurrent] at hpreamble
    rw [if_pos hcurrent, hsame, hpreamble, List.take_append_of_le_length (preambleLength_le before)]

include hline hbelow hs in
/-- **Reading up to the next pair** keeps what the state knows. -/
theorem State.Describes.steps_pair :
    (s.steps recognises before.length (line :: below)).Describes recognises
      (before ++ line :: below) := by
  obtain ⟨hunclaimed, hpairs, hcurrent, hpreamble⟩ :=
    State.steps_pair hline hbelow s before.length
  constructor
  · rw [hpairs, hs.pairs, pairLines_last hline hbelow, List.filterMap_append]
    congr 1
    · refine List.filterMap_congr fun m hm => ?_
      rw [pairAt?_append (isPairLine_of_sides hline) (lt_length_of_mem_pairLines hm)]
    · simp [pairAt?_last hline hs]
  · rw [hunclaimed, startAt_end hline hbelow, endAt, ownedAt_last, List.reverse_reverse]
    rw [Nat.add_assoc, List.drop_length_add_append, Nat.add_comm 1, List.drop_succ_cons]
  · rw [hcurrent, pairLines_last hline hbelow]
    simp
  · rw [hpreamble, preamble_last hline hbelow hs]

end LastPair

/-- **The machine describes the lines that it has read.** -/
theorem State.describes_steps (ls : List Text) :
    (State.initial.steps recognises 0 ls).Describes recognises ls := by
  induction ls using block_induction recognises with
  | plain ls hls => exact describes_of_plain hls
  | pair before line sides below hline hbelow ih =>
    rw [steps_append, Nat.zero_add]
    exact ih.steps_pair hline hbelow

theorem Block.pairs_parse (text : Text) :
    (Block.parse recognises text).pairs
      = (pairLines recognises (Text.lines text)).filterMap
          (pairAt? recognises (Text.lines text)) :=
  (State.describes_steps (Text.lines text)).pairs

theorem Block.preamble_parse (text : Text) :
    (Block.parse recognises text).preamble
      = Text.stripRight (Text.unlines
          ((Text.lines text).take (preambleLength recognises (Text.lines text)))) := by
  rw [← (State.describes_steps (Text.lines text)).preamble]
  rfl

theorem pairwise_pairLines (ls : List Text) : (pairLines recognises ls).Pairwise (· < ·) :=
  List.pairwise_lt_range.filter _

/-- The pairs of a block stand on its pair lines, one on each. -/
theorem Block.map_line_pairs_parse (text : Text) :
    (Block.parse recognises text).pairs.map (·.line)
      = pairLines recognises (Text.lines text) := by
  have hsome : ∀ m ∈ pairLines recognises (Text.lines text),
      (pairAt? recognises (Text.lines text) m).map (·.line) = some m := by
    intro m hm
    obtain ⟨sides, hsides⟩ := Option.isSome_iff_exists.mp (List.mem_filter.mp hm).2
    rw [pairAt?, hsides]
    rfl
  rw [pairs_parse, List.map_filterMap, List.filterMap_congr hsome]
  exact List.filterMap_some

/-- **A block is read as it is described.** Its pairs stand on the lines that are pairs, one on
each and in their order. The value of a pair goes on over the lines below that are indented more,
and over one line after them; its code is on its own line or gathered from the lines above, back
to a blank line or to the lines of the pair before. The preamble is what stands before the first
pair and its code. -/
theorem Block.parse_reading (recognises : Text → Bool) (text : Text) :
    let ls := Text.lines text
    let block := Block.parse recognises text
    block.content = text ∧
    block.pairs.map (·.line)
      = (List.range ls.length).filter (fun m => (pairSides? recognises (ls.getD m [])).isSome) ∧
    (∀ p ∈ block.pairs, ∃ sides, pairSides? recognises (ls.getD p.line []) = some sides ∧
      (p.multiline = true ↔ runAt recognises ls p.line ≠ []) ∧
      p.right = sides.right ++
        (runAt recognises ls p.line
          ++ (closing? recognises (indentAt ls p.line) (ls.drop (p.line + 1))).toList).flatMap
          (fun line => '\n' :: relativeLine (indentAt ls p.line) line) ∧
      p.left =
        if sides.left = [] then
          Text.unlines (((aboveAt recognises ls p.line).filter (!isCommentLine ·)).map Text.strip)
        else sides.left) ∧
    block.preamble = Text.stripRight (Text.unlines (ls.take (preambleLength recognises ls))) := by
  intro ls block
  refine ⟨rfl, Block.map_line_pairs_parse text, ?_, Block.preamble_parse text⟩
  intro p hp
  rw [Block.pairs_parse] at hp
  obtain ⟨m, -, hm⟩ := List.mem_filterMap.mp hp
  obtain ⟨sides, hsides, rfl⟩ := Option.map_eq_some_iff.mp hm
  refine ⟨sides, hsides, ?_, rfl, ?_⟩
  · simp [pairAt, ls]
  · simp [pairAt, leftAt, ls]

/-- A block with a preamble, and with code that stands above its value. -/
def gatheredBlock : Text :=
  "setup();\n\nf(x,\n  // why\n  y)\n// => [\n  1\n]\ng() // => 2"

theorem Block.parse_reading_gathered :
    (Block.parse (fun _ => false) gatheredBlock).pairs
        = [⟨"f(x,\ny)", "[\n  1\n]", 5, true⟩, ⟨"g()", "2", 8, false⟩] ∧
      runAt (fun _ => false) (Text.lines gatheredBlock) 5 ≠ [] := by
  have hpairs : (Block.parse (fun _ => false) gatheredBlock).pairs
      = [⟨"f(x,\ny)", "[\n  1\n]", 5, true⟩, ⟨"g()", "2", 8, false⟩] := by decide +kernel
  obtain ⟨-, -, hread, -⟩ := Block.parse_reading (fun _ => false) gatheredBlock
  obtain ⟨_, -, hmultiline, -⟩ :=
    hread ⟨"f(x,\ny)", "[\n  1\n]", 5, true⟩ (by rw [hpairs]; exact List.mem_cons_self)
  exact ⟨hpairs, hmultiline.mp rfl⟩

end DocModel.Directive
