import DocModel.Proofs.Directive.Sides

/-!
# Slashes in a value

The slashes that count on a line are the last ones with something after them. So the code of a pair
may hold slashes, and its value may end with them, but a value that goes on after slashes is cut
there: what stands before them, with the arrow, becomes code (`pair?_address`). A line on which
a value is written behind some code is read back exactly if the value goes on after none of its
slashes (`pair?_writtenPair_iff`).
-/

namespace DocModel.Directive

/-- Slashes are not stripped. -/
theorem slashes_infix_strip {t : Text} (h : ['/', '/'] <:+: t) : ['/', '/'] <:+: Text.strip t := by
  obtain ⟨before, after, rfl⟩ := h
  refine ⟨Text.stripLeft before, Text.stripRight after, ?_⟩
  have hleft : Text.stripLeft (before ++ ['/', '/'] ++ after)
      = Text.stripLeft before ++ ['/', '/'] ++ after := by
    simpa using Text.stripLeft_append_cons (by decide) before ('/' :: after)
  have hright : Text.stripRight (Text.stripLeft before ++ ['/', '/'] ++ after)
      = Text.stripLeft before ++ ['/', '/'] ++ Text.stripRight after := by
    simpa using Text.stripRight_append_cons (by decide) (Text.stripLeft before ++ ['/']) after
  rw [Text.strip, hleft, hright]

/-- Wherever a line is cut, it is cut at or behind any of its cuts. -/
theorem IsCut.exists_left_of_sides? {line before after : Text} (h : IsCut line before after)
    (hfeed : '\n' ∉ line) {sides : Sides} (hsides : sides? line = some sides) :
    ∃ left, before <+: left ∧ left <+: line ∧ sides.left = Text.strip left := by
  obtain ⟨before', after', hlast, hle⟩ := h.exists_last
  have hafter : '\n' ∉ after' := fun hmem => hfeed (by rw [hlast.eq]; simp [hmem])
  obtain ⟨⟨arrow, right⟩, hcomment⟩ :=
    Option.isSome_iff_exists.mp ((isSome_comment?_iff hafter).mpr hlast.text)
  rw [sides?_of_lastCut hfeed hlast hcomment] at hsides
  cases hsides
  refine ⟨before', ?_, ⟨_, hlast.eq.symm⟩, rfl⟩
  exact List.prefix_of_prefix_length_le ⟨_, h.eq.symm⟩ ⟨_, hlast.eq.symm⟩ hle

/-- **When a value may hold slashes.** A line on which a value is written behind code without
slashes is the pair of the two exactly if nothing but blanks follows the slashes of the value. -/
theorem pair?_writtenPair_iff (recognises : Text → Bool) (code value : Text)
    (hcode : '\n' ∉ code) (hslashes : ¬ ("//" : Text) <:+: code) (hvalue : '\n' ∉ value)
    (htext : Text.blank value = false) :
    pair? recognises (writtenPair code value)
        = some ⟨Text.strip code, Text.strip value, 0, false⟩ ↔
      ∀ before after, value = before ++ "//" ++ after → Text.blank after = true := by
  constructor
  · intro hpair before after heq
    by_contra hafter
    have hcut : IsCut (writtenPair code value) (code ++ " // => " ++ before) after :=
      ⟨by simp [writtenPair, heq], Bool.eq_false_iff.mpr hafter⟩
    obtain ⟨sides, hsides, hleft⟩ := Option.map_eq_some_iff.mp hpair
    obtain ⟨left, hbefore, -, hstrip⟩ := hcut.exists_left_of_sides?
      (feed_notMem_writtenPair hcode hvalue) (Option.filter_eq_some_iff.mp hsides).1
    -- The slashes of the pair itself have become part of its code.
    have hinfix : ['/', '/'] <:+: left := by
      refine List.IsInfix.trans ⟨code ++ [' '], " => " ++ before, ?_⟩ hbefore.isInfix
      simp
    have hsame : Text.strip left = Text.strip code := by
      rw [← hstrip]
      exact congrArg Pair.left hleft
    exact hslashes ((hsame ▸ slashes_infix_strip hinfix).trans (Text.strip_infix code))
  · intro hblank
    have hcut : ∀ before after, ¬ IsCut value before after := fun before after h =>
      Bool.eq_false_iff.mp h.text (hblank before after (by rw [h.eq]; simp))
    rw [pair?, pairSides?_of_arrow (sides?_writtenPair hcode hvalue htext hcut)]
    rfl

/-- Slashes at the end of a value do no harm. -/
theorem pair?_writtenPair_trailing :
    pair? (fun _ => false) (writtenPair "f() " " 1 // ")
      = some ⟨"f()", "1 //", 0, false⟩ := by
  have hslashes : ¬ ("//" : Text) <:+: ("f() " : Text) := fun h =>
    absurd (h.subset (a := '/') (by decide)) (by decide)
  refine (pair?_writtenPair_iff (fun _ => false) "f() " " 1 // " (by decide) hslashes (by decide)
    (by decide)).mpr fun before after heq => ?_
  have hall : ∀ n < 5, ((" 1 // " : Text).drop n).take 2 = "//" →
      Text.blank ((" 1 // " : Text).drop (n + 2)) = true := by decide
  have hlength := congrArg List.length heq
  simp only [List.length_append] at hlength
  have hbefore := hall before.length (by simp at hlength; omega)
  rw [heq, List.append_assoc, ← List.drop_drop, List.drop_left] at hbefore
  exact hbefore rfl

/-- **A value with an address in it is cut at the address**, and the line is another pair. -/
theorem pair?_address :
    let code : Text := "f()"
    let value : Text := "'http://x'"
    '\n' ∉ code ∧ Text.blank code = false ∧ ¬ ("//" : Text) <:+: code ∧
      '\n' ∉ value ∧ Text.blank value = false ∧
      pair? (fun _ => false) (writtenPair code value)
        = some ⟨"f() // => 'http:", "x'", 0, false⟩ ∧
      pair? (fun _ => false) (writtenPair code value)
        ≠ some ⟨Text.strip code, Text.strip value, 0, false⟩ := by
  intro code value
  have hslashes : ¬ ("//" : Text) <:+: code := fun h =>
    absurd (h.subset (a := '/') (by decide)) (by decide)
  exact ⟨by decide, by decide, hslashes, by decide, by decide, by decide +kernel, by decide +kernel⟩

end DocModel.Directive
