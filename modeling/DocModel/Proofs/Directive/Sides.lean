import DocModel.Directive.Pair
import DocModel.Proofs.Basic
import DocModel.Proofs.Text.Edges

/-!
# The two sides of a line

However the comment on a line is found, both sides are stretches of the line, and the value on
the right is written on one line. A line without `//` has no sides. Since as much as possible goes
to the left, a line is cut at the last slashes that have something after them
(`sides?_of_lastCut`). So the sides of a line on which a value is written behind some code are that
code and that value, even if the code holds `//` as well (`pairSides?_writtenPair`).
-/

namespace DocModel.Directive

theorem onlyLine?_eq_some {t value : Text} (h : onlyLine? t = some value) :
    value = t.takeWhile (· != '\n') := by
  unfold onlyLine? at h
  split at h
  · split at h
    · cases h
    · exact (Option.some.inj h).symm
  · split at h
    · cases h
    · exact (Option.some.inj h).symm
  · cases h

theorem feed_notMem_takeWhile (t : Text) : '\n' ∉ t.takeWhile (· != '\n') := fun h => by
  simpa using List.all_eq_true.mp List.all_takeWhile _ h

/-- The value in a comment is a stretch of the comment, and has no line feed. -/
theorem comment?_eq_some {t value : Text} {arrow : Bool} (h : comment? t = some (arrow, value)) :
    value <:+: t ∧ '\n' ∉ value := by
  have honly : ∀ {u : Text}, onlyLine? u = some value → value <+: u ∧ '\n' ∉ value := by
    intro u hu
    rw [onlyLine?_eq_some hu]
    exact ⟨List.takeWhile_prefix _, feed_notMem_takeWhile u⟩
  have hstrip := Text.stripLeft_suffix t
  rw [comment?] at h
  split at h
  · next found hfound =>
    cases h
    obtain ⟨after, hafter, hvalue⟩ := Option.bind_eq_some_iff.mp hfound
    rw [Text.isPrefixOf?_eq_some_iff] at hafter
    obtain ⟨hstart, hfeed⟩ := honly hvalue
    have hrest : after <:+ Text.stripLeft t := hafter ▸ List.suffix_append _ _
    exact ⟨hstart.isInfix.trans
      ((Text.stripLeft_suffix after).trans (hrest.trans hstrip)).isInfix, hfeed⟩
  · obtain ⟨found, hfound, heq⟩ := Option.map_eq_some_iff.mp h
    cases heq
    obtain ⟨hstart, hfeed⟩ := honly hfound
    exact ⟨hstart.isInfix.trans hstrip.isInfix, hfeed⟩

theorem commentAfter?_eq_some {t left right : Text} {n : Nat} {arrow : Bool}
    (h : commentAfter? t n = some (left, arrow, right)) :
    left <+: t ∧ right <:+: t ∧ '\n' ∉ right := by
  unfold commentAfter? at h
  split at h
  · next after heq =>
    obtain ⟨⟨found, value⟩, hfound, hsides⟩ := Option.map_eq_some_iff.mp h
    cases hsides
    obtain ⟨hvalue, hfeed⟩ := comment?_eq_some hfound
    have hcomment : '/' :: '/' :: after <:+ t := by
      rw [← heq]
      exact (Text.stripLeft_suffix _).trans (List.drop_suffix n t)
    have hafter : after <:+ t := (List.suffix_append ['/', '/'] after).trans hcomment
    exact ⟨List.take_prefix n t, hvalue.trans hafter.isInfix, hfeed⟩
  · cases h

/-- The sides of a pair are stretches of its line, without the blanks at their ends. -/
theorem exists_strip_of_pairSides? {recognises : Text → Bool} {line : Text} {sides : Sides}
    (h : pairSides? recognises line = some sides) :
    ∃ left right, (left <:+: line ∧ sides.left = Text.strip left) ∧
      (right <:+: line ∧ sides.right = Text.strip right) ∧ '\n' ∉ right := by
  obtain ⟨hsides, -⟩ := Option.filter_eq_some_iff.mp h
  obtain ⟨⟨left, arrow, right⟩, hfound, rfl⟩ := Option.map_eq_some_iff.mp hsides
  obtain ⟨n, -, hn⟩ := List.exists_of_findSome?_eq_some hfound
  obtain ⟨hleft, hright, hfeed⟩ := commentAfter?_eq_some hn
  have hline := (Text.stripLeft_suffix line).isInfix
  exact ⟨left, right, ⟨hleft.isInfix.trans hline, rfl⟩, ⟨hright.trans hline, rfl⟩, hfeed⟩

/-- **Both sides of a pair are stretches of its line**, and the right one has no line feed. -/
theorem pairSides?_eq_some {recognises : Text → Bool} {line : Text} {sides : Sides}
    (h : pairSides? recognises line = some sides) :
    sides.left <:+: line ∧ sides.right <:+: line ∧ '\n' ∉ sides.right := by
  obtain ⟨left, right, ⟨hleft, hl⟩, ⟨hright, hr⟩, hfeed⟩ := exists_strip_of_pairSides? h
  rw [hl, hr]
  refine ⟨(Text.strip_infix left).trans hleft, (Text.strip_infix right).trans hright, ?_⟩
  exact fun hmem => hfeed ((Text.strip_infix right).subset hmem)

/-! ## Lines whose sides are known -/

/-- No comment starts where no `//` follows. -/
theorem commentAfter?_eq_none {t : Text} {n : Nat} (h : ¬ ("//" : Text) <:+: t.drop n) :
    commentAfter? t n = none := by
  unfold commentAfter?
  split
  · next after heq =>
    have hcomment : '/' :: '/' :: after <:+ t.drop n := by
      rw [← heq]
      exact Text.stripLeft_suffix _
    exact absurd ((List.prefix_append ['/', '/'] after).isInfix.trans hcomment.isInfix) h
  · rfl

/-- A line without `//` has no sides. -/
theorem sides?_eq_none {line : Text} (h : ¬ ("//" : Text) <:+: line) : sides? line = none := by
  rw [sides?, Option.map_eq_none_iff, List.findSome?_eq_none_iff]
  intro n _
  refine commentAfter?_eq_none fun hdrop => h ?_
  exact hdrop.trans ((List.drop_suffix n _).trans (Text.stripLeft_suffix line)).isInfix

/-- A search from above finds the last place at which something is found. -/
theorem findSome?_reverse_range {α : Type} {f : Nat → Option α} {a : α} {n m : Nat} (hn : n < m)
    (hsome : f n = some a) (hnone : ∀ k, n < k → k < m → f k = none) :
    (List.range m).reverse.findSome? f = some a := by
  induction m with
  | zero => cases hn
  | succ m ih =>
    rw [List.range_succ, List.reverse_append, List.reverse_singleton, List.singleton_append,
      List.findSome?_cons]
    obtain rfl | hlt := Nat.eq_or_lt_of_le (Nat.le_of_lt_succ hn)
    · rw [hsome]
    · rw [hnone m hlt (Nat.lt_succ_self m)]
      exact ih hlt fun k hk hkm => hnone k hk (Nat.lt_succ_of_lt hkm)

/-! ## The last slashes -/

/-- **A cut of a line**: two slashes with something after them that is not blank. -/
structure IsCut (line before after : Text) : Prop where
  eq : line = before ++ '/' :: '/' :: after
  text : Text.blank after = false

/-- The cut of a line that stands furthest to the right. -/
structure IsLastCut (line before after : Text) : Prop extends IsCut line before after where
  last : ∀ before' after', IsCut line before' after' → before'.length ≤ before.length

theorem IsCut.length_lt {line before after : Text} (h : IsCut line before after) :
    before.length < line.length := by
  rw [h.eq, List.length_append, List.length_cons]
  omega

/-- A cut that is not at the front stands further down the line. -/
theorem IsCut.of_cons {c : Char} {t before after : Text} (h : IsCut (c :: t) before after)
    (hfront : ¬ ['/', '/'] <+: c :: t) : ∃ before', IsCut t before' after := by
  cases before with
  | nil => exact absurd ⟨after, h.eq.symm⟩ hfront
  | cons d before' => exact ⟨before', (List.cons.inj h.eq).2, h.text⟩

/-- A line that has a cut has a last one. -/
theorem IsCut.exists_last {line before after : Text} (h : IsCut line before after) :
    ∃ before' after', IsLastCut line before' after' ∧ before.length ≤ before'.length := by
  by_cases hlast : ∀ before' after', IsCut line before' after' → before'.length ≤ before.length
  · exact ⟨before, after, ⟨h, hlast⟩, Nat.le_refl _⟩
  · simp only [not_forall, Nat.not_le] at hlast
    obtain ⟨before', after', h', hlt⟩ := hlast
    have hbound := h'.length_lt
    obtain ⟨before'', after'', h'', hle⟩ := h'.exists_last
    exact ⟨before'', after'', h'', by omega⟩
termination_by line.length - before.length

theorem onlyLine?_stripLeft {t : Text} (hfeed : '\n' ∉ t) :
    onlyLine? (Text.stripLeft t)
      = if Text.blank t then none else some (Text.stripLeft t) := by
  cases ht : Text.stripLeft t with
  | nil => rw [if_pos (Text.stripLeft_eq_nil_iff.mp ht), onlyLine?, List.head?_nil]
  | cons c rest =>
    have hblank : ¬ Text.blank t = true := fun h => by
      rw [Text.stripLeft_eq_nil_iff.mpr h] at ht
      cases ht
    have hc : Text.isBlank c = false := Text.not_isBlank_of_stripLeft ht
    have hall : ∀ d ∈ c :: rest, (d != '\n') = true := fun d hd =>
      bne_iff_ne.mpr fun heq => hfeed ((Text.stripLeft_suffix t).subset (ht ▸ heq ▸ hd))
    rw [if_neg hblank, onlyLine?, List.dropWhile_eq_nil_iff.mpr hall,
      List.takeWhile_eq_self_iff.mpr hall, List.head?_cons]
    simp [hc]

/-- Something that is not blank is a comment, with or without an arrow. -/
theorem isSome_comment?_iff {t : Text} (hfeed : '\n' ∉ t) :
    (comment? t).isSome = true ↔ Text.blank t = false := by
  rw [comment?]
  split
  · next found hfound =>
    obtain ⟨after, hafter, -⟩ := Option.bind_eq_some_iff.mp hfound
    refine iff_of_true rfl (Bool.eq_false_iff.mpr fun hblank => ?_)
    rw [Text.stripLeft_eq_nil_iff.mpr hblank, Text.isPrefixOf?_eq_some_iff] at hafter
    cases hafter
  · rw [Option.isSome_map, onlyLine?_stripLeft hfeed]
    cases Text.blank t <;> simp

/-- **What a comment says.** An arrow counts if something follows it that is not blank. -/
theorem comment?_eq {t : Text} (hfeed : '\n' ∉ t) (ht : Text.blank t = false) :
    comment? t = some
      (if arrow.isPrefixOf (Text.stripLeft t) && !Text.blank ((Text.stripLeft t).drop 2) then
        (true, Text.stripLeft ((Text.stripLeft t).drop 2))
      else (false, Text.stripLeft t)) := by
  have hplain : onlyLine? (Text.stripLeft t) = some (Text.stripLeft t) := by
    rw [onlyLine?_stripLeft hfeed, ht]
    rfl
  unfold comment?
  dsimp only
  rw [hplain]
  cases hstart : arrow.isPrefixOf? (Text.stripLeft t) with
  | none =>
    have hnot : arrow.isPrefixOf (Text.stripLeft t) = false := by
      rw [← List.isSome_isPrefixOf?_eq_isPrefixOf, hstart]
      rfl
    rw [hnot]
    rfl
  | some value =>
    have heq := Text.isPrefixOf?_eq_some_iff.mp hstart
    have hvalue : '\n' ∉ value := fun hmem =>
      hfeed ((Text.stripLeft_suffix t).subset (by rw [heq]; exact List.mem_append_right _ hmem))
    have hyes : arrow.isPrefixOf (Text.stripLeft t) = true := by
      rw [← List.isSome_isPrefixOf?_eq_isPrefixOf, hstart]
      rfl
    have hdrop : (Text.stripLeft t).drop 2 = value := by
      rw [heq]
      rfl
    rw [Option.bind_some, onlyLine?_stripLeft hvalue, hyes, hdrop]
    cases Text.blank value <;> rfl

/-- A comment that is found stands at a cut of the line, where it was looked for or behind. -/
theorem exists_cut_of_commentAfter? {line lead t : Text} (hline : line = lead ++ t)
    (hfeed : '\n' ∉ line) {n : Nat} (hn : n ≤ t.length) {found : Text × Bool × Text}
    (h : commentAfter? t n = some found) :
    ∃ before after, IsCut line before after ∧ lead.length + n ≤ before.length := by
  unfold commentAfter? at h
  split at h
  · next after hafter =>
    obtain ⟨comment, hcomment, -⟩ := Option.map_eq_some_iff.mp h
    obtain ⟨blanks, hblanks⟩ := Text.stripLeft_suffix (t.drop n)
    rw [hafter] at hblanks
    have hcut : line = (lead ++ t.take n ++ blanks) ++ '/' :: '/' :: after := by
      rw [List.append_assoc, hblanks, List.append_assoc, List.take_append_drop, hline]
    have hafterFeed : '\n' ∉ after := fun hmem => hfeed (by rw [hcut]; simp [hmem])
    refine ⟨_, after, ⟨hcut, (isSome_comment?_iff hafterFeed).mp
      (Option.isSome_of_eq_some hcomment)⟩, ?_⟩
    rw [List.length_append, List.length_append, List.length_take_of_le hn]
    exact Nat.le_add_right _ _
  · cases h

/-- No comment starts to the right of the last cut. -/
theorem IsLastCut.commentAfter?_eq_none {line lead t before after : Text}
    (h : IsLastCut line before after) (hline : line = lead ++ t) (hfeed : '\n' ∉ line) {n : Nat}
    (hn : n ≤ t.length) (hright : before.length < lead.length + n) : commentAfter? t n = none := by
  refine Option.eq_none_iff_forall_ne_some.mpr fun found hfound => ?_
  obtain ⟨before', after', hcut, hle⟩ := exists_cut_of_commentAfter? hline hfeed hn hfound
  exact Nat.not_lt.mpr (h.last before' after' hcut) (Nat.lt_of_lt_of_le hright hle)

/-- A line without a cut has no sides. -/
theorem sides?_of_not_isCut {line : Text} (hfeed : '\n' ∉ line)
    (h : ∀ before after, ¬ IsCut line before after) : sides? line = none := by
  have hlead : line = line.takeWhile Text.isBlank ++ Text.stripLeft line :=
    List.takeWhile_append_dropWhile.symm
  rw [sides?, Option.map_eq_none_iff, List.findSome?_eq_none_iff]
  intro n hn
  have hwidth := (List.takeWhile_prefix (l := Text.stripLeft line) (· != '\n')).length_le
  have hle : n ≤ (Text.stripLeft line).length := by
    rw [List.mem_reverse, List.mem_range] at hn
    omega
  refine Option.eq_none_iff_forall_ne_some.mpr fun found hfound => ?_
  obtain ⟨before, after, hcut, -⟩ := exists_cut_of_commentAfter? hlead hfeed hle hfound
  exact h before after hcut

/-- **A line is cut at its last slashes** that have something after them. -/
theorem sides?_of_lastCut {line before after : Text} (hfeed : '\n' ∉ line)
    (h : IsLastCut line before after) {arrow : Bool} {right : Text}
    (hcomment : comment? after = some (arrow, right)) :
    sides? line = some ⟨Text.strip before, Text.strip right, arrow⟩ := by
  have hstart : Text.stripLeft line = Text.stripLeft before ++ '/' :: '/' :: after := by
    rw [h.eq, Text.stripLeft_append_cons (by decide)]
  have hlead : line = before.takeWhile Text.isBlank ++ Text.stripLeft line := by
    rw [hstart, ← List.append_assoc, Text.stripLeft, List.takeWhile_append_dropWhile, h.eq]
  have hlength : (before.takeWhile Text.isBlank).length + (Text.stripLeft before).length
      = before.length := by
    rw [← List.length_append, Text.stripLeft, List.takeWhile_append_dropWhile]
  have hwidth : (Text.stripLeft line).takeWhile (· != '\n') = Text.stripLeft line := by
    refine List.takeWhile_eq_self_iff.mpr fun c hc => bne_iff_ne.mpr ?_
    rintro rfl
    exact hfeed ((Text.stripLeft_suffix line).subset hc)
  have hfound : commentAfter? (Text.stripLeft line) (Text.stripLeft before).length
      = some (Text.stripLeft before, arrow, right) := by
    rw [commentAfter?, hstart, List.drop_left, List.take_left, Text.stripLeft_cons (by decide)]
    show Option.map (Text.stripLeft before, ·) (comment? after) = _
    rw [hcomment, Option.map_some]
  have hlt : (Text.stripLeft before).length < (Text.stripLeft line).length + 1 := by
    rw [hstart, List.length_append]
    omega
  rw [sides?]
  dsimp only
  rw [hwidth, findSome?_reverse_range hlt hfound fun k hk hkm =>
    h.commentAfter?_eq_none hlead hfeed (Nat.le_of_lt_succ hkm) (by omega)]
  rw [Option.map_some, Text.strip_stripLeft]

/-! ## Written pairs -/

/-- **A line of code with its value**, as examples are written. -/
def writtenPair (code value : Text) : Text := code ++ " // => " ++ value

/-- The code takes the blank before the slashes with it. -/
theorem writtenPair_eq (code value : Text) :
    writtenPair code value = (code ++ [' ']) ++ '/' :: '/' :: (" => " ++ value) := by
  simp [writtenPair]

/-- The slashes of a written pair are the last ones, unless its value has a cut. -/
theorem isLastCut_writtenPair {code value : Text}
    (hvalue : ∀ before after, ¬ IsCut value before after) :
    IsLastCut (writtenPair code value) (code ++ [' ']) (" => " ++ value) := by
  refine ⟨⟨writtenPair_eq code value, rfl⟩, fun before' after' h => Nat.le_of_not_lt fun hlt => ?_⟩
  have hsplit : writtenPair code value
      = (code ++ [' ', '/']) ++ '/' :: ' ' :: '=' :: '>' :: ' ' :: value := by
    simp [writtenPair]
  obtain ⟨x, rfl⟩ : code ++ [' ', '/'] <+: before' := by
    refine List.prefix_of_prefix_length_le ⟨_, hsplit.symm⟩ ⟨_, h.eq.symm⟩ ?_
    simpa [Nat.succ_le_iff] using hlt
  have hrest : IsCut ('/' :: ' ' :: '=' :: '>' :: ' ' :: value) x after' := by
    refine ⟨List.append_cancel_left (hsplit.symm.trans ?_), h.text⟩
    rw [h.eq, List.append_assoc]
  -- No two slashes follow each other up to the value.
  obtain ⟨_, hspace⟩ := hrest.of_cons (by simp [List.cons_prefix_cons])
  obtain ⟨_, hequals⟩ := hspace.of_cons (by simp [List.cons_prefix_cons])
  obtain ⟨_, hgreater⟩ := hequals.of_cons (by simp [List.cons_prefix_cons])
  obtain ⟨_, hblank⟩ := hgreater.of_cons (by simp [List.cons_prefix_cons])
  obtain ⟨before, hcut⟩ := hblank.of_cons (by simp [List.cons_prefix_cons])
  exact hvalue before after' hcut

theorem comment?_arrow {value : Text} (hfeed : '\n' ∉ value) (hvalue : Text.blank value = false) :
    comment? (" => " ++ value : Text) = some (true, Text.stripLeft value) := by
  have harrow : Text.stripLeft (" => " ++ value : Text) = ("=> " ++ value : Text) := rfl
  have hafter : arrow.isPrefixOf? ("=> " ++ value : Text) = some (' ' :: value) :=
    Text.isPrefixOf?_eq_some_iff.mpr rfl
  have hblank : Text.stripLeft (' ' :: value) = Text.stripLeft value := rfl
  rw [comment?, harrow, hafter, Option.bind_some, hblank, onlyLine?_stripLeft hfeed, hvalue]
  rfl

theorem feed_notMem_writtenPair {code value : Text} (hcode : '\n' ∉ code) (hvalue : '\n' ∉ value) :
    '\n' ∉ writtenPair code value := by
  simp [writtenPair, hcode, hvalue]

/-- **A line of code with its value is read back**, whatever comments the code itself holds, if the
value has no cut. -/
theorem sides?_writtenPair {code value : Text} (hcode : '\n' ∉ code) (hvalue : '\n' ∉ value)
    (htext : Text.blank value = false) (hcut : ∀ before after, ¬ IsCut value before after) :
    sides? (writtenPair code value) = some ⟨Text.strip code, Text.strip value, true⟩ := by
  rw [sides?_of_lastCut (feed_notMem_writtenPair hcode hvalue) (isLastCut_writtenPair hcut)
    (comment?_arrow hvalue htext), Text.strip_append_blank (by decide), Text.strip_stripLeft]

theorem pairSides?_of_arrow {recognises : Text → Bool} {line left right : Text}
    (h : sides? line = some ⟨left, right, true⟩) :
    pairSides? recognises line = some ⟨left, right, true⟩ := by
  rw [pairSides?, h]
  simp [Option.filter, Sides.bare]

theorem pairSides?_writtenPair {code value : Text} (hcode : Text.IsTrimmed code)
    (hvalue : Text.IsTrimmed value) (hslashes : ¬ ("//" : Text) <:+: value)
    (recognises : Text → Bool) :
    pairSides? recognises (writtenPair code value) = some ⟨code, value, true⟩ := by
  have hcut : ∀ before after, ¬ IsCut value before after := fun before after h =>
    hslashes ⟨before, after, by rw [h.eq]; simp⟩
  have htext : Text.blank value = false := Bool.eq_false_iff.mpr fun h => hvalue.ne_nil ?_
  · have hsides := sides?_writtenPair hcode.feed_notMem hvalue.feed_notMem htext hcut
    rw [hcode.strip_eq, hvalue.strip_eq] at hsides
    exact pairSides?_of_arrow hsides
  · rw [← hvalue.stripLeft_eq]
    exact Text.stripLeft_eq_nil_iff.mpr h

end DocModel.Directive
