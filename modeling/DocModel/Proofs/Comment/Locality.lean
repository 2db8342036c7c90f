import DocModel.Proofs.Comment.Source

/-!
# Tags do not see each other

What a tag is read from reaches from its own line to the next tag, so cutting a comment
before a tag cuts it into two comments that can be read apart: the description and the first tags
come from the lines above the cut, the other tags from the lines below it
(`Doclet.parse_unlines_append`). The only thing that the lower part learns about the upper one is
how many lines it has. Every number of a line that is kept in a tag, or shown in a message, is
counted from the first line of the comment and moves by that many lines.
-/

namespace DocModel

/-! ## Further down -/

/-- A tag that stands `n` lines further down. -/
def Tag.lower (n : Nat) (tag : Tag) : Tag :=
  { tag with line := tag.line + n, descriptionLine := tag.descriptionLine + n }

namespace Comment

/-- A problem that arises `n` lines further down; only that of a title says where it is. -/
def Problem.lower (n : Nat) : Problem → Problem
  | badTitle number line => badTitle (number + n) line
  | problem => problem

/-- The lines of a tag, `n` lines further down. -/
def TagLines.lower (n : Nat) (t : TagLines) : TagLines := { t with start := t.start + n }

/-- Whether the first character of a line that is not blank is an `@`. -/
def startsTag (line : Text) : Bool := (Text.stripLeft line).head? == some '@'

theorem isSome_tagLine? (line : Text) : (tagLine? line).isSome = startsTag line := by
  unfold tagLine? startsTag
  split
  · next heq => rw [heq]; rfl
  · next hne =>
    cases hline : Text.stripLeft line with
    | nil => rfl
    | cons c rest =>
      have hc : c ≠ '@' := fun hc => hne rest (hc ▸ hline)
      simpa using hc

/-! ## Dividing the lines -/

theorem divideTags_lower (start n : Nat) (ls : List Text) :
    divideTags (start + n) ls
      = ((divideTags start ls).1, (divideTags start ls).2.map (·.lower n)) := by
  induction ls generalizing start with
  | nil => rfl
  | cons line ls ih =>
    have ih := ih (start + 1)
    rw [Nat.add_right_comm] at ih
    rw [divideTags_cons, divideTags_cons, ih]
    cases tagLine? line with
    | none => rfl
    | some _ => rfl

/-- **Lines are divided above and below a tag by themselves.** -/
theorem divideTags_append (start : Nat) (as : List Text) {b : Text} (bs : List Text)
    (hb : startsTag b = true) :
    divideTags start (as ++ b :: bs)
      = ((divideTags start as).1,
          (divideTags start as).2 ++ (divideTags (start + as.length) (b :: bs)).2) := by
  induction as generalizing start with
  | nil =>
    obtain ⟨⟨title, text⟩, htag⟩ := Option.isSome_iff_exists.mp ((isSome_tagLine? b).trans hb)
    show divideTags start (b :: bs) = ([], (divideTags start (b :: bs)).2)
    rw [divideTags_cons, htag]
  | cons a as ih =>
    rw [List.cons_append, divideTags_cons, divideTags_cons, ih, List.length_cons,
      Nat.add_right_comm, Nat.add_assoc]
    cases tagLine? a with
    | none => rfl
    | some _ => rfl

/-- Tags start on the lines that look like it. -/
theorem map_start_divideTags (start : Nat) (ls : List Text) :
    (divideTags start ls).2.map (·.start)
      = ((ls.zipIdx start).filter fun l => startsTag l.1).map (·.2) := by
  induction ls generalizing start with
  | nil => rfl
  | cons line ls ih =>
    rw [divideTags_cons, List.zipIdx_cons, List.filter_cons, ← isSome_tagLine?]
    cases tagLine? line with
    | none => exact ih (start + 1)
    | some _ => exact congrArg (start :: ·) (ih (start + 1))

/-! ## Reading the tags -/

theorem takeType_lower {text : Text} {problem : Problem} (h : takeType text = .error problem)
    (n : Nat) : problem.lower n = problem := by
  unfold takeType at h
  split at h
  · split at h
    · cases h; rfl
    · dsimp only at h
      split at h <;> cases h
      rfl
  · cases h

theorem takeName_lower {text : Text} {problem : Problem} (h : takeName text = .error problem)
    (n : Nat) : problem.lower n = problem := by
  unfold takeName at h
  split at h
  · cases h
  · split at h <;> cases h
    rfl
  · split at h <;> cases h

/-- What was read, as it is read `n` lines further down. -/
def lowered (n : Nat) (r : Except Problem Tag) : Except Problem Tag :=
  (r.map (·.lower n)).mapError (·.lower n)

theorem verbatimTag_lower (n : Nat) (t : TagLines) :
    verbatimTag (t.lower n) = (verbatimTag t).lower n := by
  unfold verbatimTag Tag.lower TagLines.lower
  simp only [Tag.mk.injEq, true_and, and_true]
  exact Nat.add_right_comm _ _ _

/-- **A tag is read the same wherever it stands**, but for the numbers of its lines. -/
theorem readTag_lower (n : Nat) (t : TagLines) : readTag (t.lower n) = lowered n (readTag t) := by
  unfold readTag
  show (if !isTitle t.title then _ else _) = _
  split
  · show Except.error (Problem.badTitle (t.start + n + 1) _)
      = .error (.badTitle (t.start + 1 + n) _)
    rw [Nat.add_right_comm]
    rfl
  · generalize htext : Text.strip (Text.unlines (t.text :: t.body)) = text
    have htext' : Text.strip (Text.unlines ((t.lower n).text :: (t.lower n).body)) = text := htext
    have htitle : (t.lower n).title = t.title := rfl
    rw [htext', htitle]
    cases TagKind.ofTitle t.title with
    | verbatim => exact congrArg Except.ok (verbatimTag_lower n t)
    | namePath | plain => rfl
    | result =>
      dsimp only
      cases htype : takeType text with
      | error problem => exact congrArg Except.error (takeType_lower htype n).symm
      | ok => rfl
    | parameter | definition =>
      dsimp only
      cases htype : takeType text with
      | error problem => exact congrArg Except.error (takeType_lower htype n).symm
      | ok typed =>
        show (takeName typed.2 >>= _) = lowered n (takeName typed.2 >>= _)
        cases hname : takeName typed.2 with
        | error problem => exact congrArg Except.error (takeName_lower hname n).symm
        | ok => rfl

theorem mapM_readTag_lower (n : Nat) (ts : List TagLines) :
    (ts.map (·.lower n)).mapM readTag
      = ((ts.mapM readTag).map (List.map (·.lower n))).mapError (·.lower n) := by
  induction ts with
  | nil => rfl
  | cons t ts ih =>
    rw [List.map_cons, List.mapM_cons, List.mapM_cons, ih, readTag_lower]
    cases readTag t with
    | error problem => rfl
    | ok tag =>
      cases ts.mapM readTag with
      | error problem => rfl
      | ok tags => rfl

theorem line_of_mapM_readTag {ts : List TagLines} {tags : List Tag}
    (h : ts.mapM readTag = .ok tags) : tags.map (·.line) = ts.map (·.start) := by
  induction ts generalizing tags with
  | nil =>
    cases h
    rfl
  | cons t ts ih =>
    rw [List.mapM_cons] at h
    simp only [Except.bind_eq_ok_iff] at h
    obtain ⟨tag, htag, rest, hrest, heq⟩ := h
    cases heq
    rw [List.map_cons, List.map_cons, ih hrest, (readTag_eq_ok htag).2]

/-- **The doclet of some lines is read above and below a tag by itself.** -/
theorem docletOfLines_append (as : List Text) {b : Text} (bs : List Text)
    (hb : startsTag b = true) :
    docletOfLines (as ++ b :: bs) = do
      let upper ← docletOfLines as
      let lower ← (docletOfLines (b :: bs)).mapError (·.lower as.length)
      return ⟨upper.description, upper.tags ++ lower.tags.map (·.lower as.length)⟩ := by
  unfold docletOfLines
  rw [divideTags_append 0 as bs hb, divideTags_lower 0 as.length (b :: bs)]
  dsimp only
  rw [List.mapM_append, mapM_readTag_lower]
  cases (divideTags 0 as).2.mapM readTag with
  | error problem => rfl
  | ok upper =>
    cases (divideTags 0 (b :: bs)).2.mapM readTag with
    | error problem => rfl
    | ok lower => rfl

theorem unwrap_unlines {ls : List Text} (hls : ls ≠ []) (h : ∀ line ∈ ls, '\n' ∉ line) :
    unwrap (Text.unlines ls) = ls.map dropGutter := by
  rw [unwrap, Text.lines_unlines hls h]

end Comment

namespace Doclet

open Comment

/-- **Reading a comment respects its tags.** A comment that is cut before a tag is read when both
parts are, and has the description of the upper part and the tags of both; if one part cannot be
read, the comment cannot for the same reason, and the upper part counts first. So the tags of a
comment are, in order, those of the lines that start one. -/
theorem parse_unlines_append :
    (∀ as bs : List Text, as ≠ [] → bs ≠ [] → (∀ line ∈ as ++ bs, '\n' ∉ line) →
      (bs.head?.any fun line => startsTag (dropGutter line)) = true →
      Doclet.parse (Text.unlines (as ++ bs)) = do
        let upper ← Doclet.parse (Text.unlines as)
        let lower ← (Doclet.parse (Text.unlines bs)).mapError (·.lower as.length)
        return ⟨upper.description, upper.tags ++ lower.tags.map (·.lower as.length)⟩) ∧
    ∀ (value : Text) (doclet : Doclet), Doclet.parse value = .ok doclet →
      doclet.tags.map (·.line)
        = ((unwrap value).zipIdx.filter fun l => startsTag l.1).map (·.2) := by
  constructor
  · intro as bs has hbs hfeed htag
    obtain ⟨b, bs, rfl⟩ := List.exists_cons_of_ne_nil hbs
    obtain ⟨hupper, hlower⟩ := List.forall_mem_append.mp hfeed
    unfold Doclet.parse
    rw [unwrap_unlines (List.append_ne_nil_of_left_ne_nil has _) hfeed, unwrap_unlines has hupper,
      unwrap_unlines hbs hlower, List.map_append, List.map_cons,
      docletOfLines_append (as.map dropGutter) (bs.map dropGutter) htag, List.length_map]
  · intro value doclet h
    obtain ⟨tags, htags, heq⟩ := Except.bind_eq_ok_iff.mp h
    cases heq
    exact (line_of_mapM_readTag htags).trans (map_start_divideTags 0 (unwrap value))

/-- A comment whose first tag ends in a blank line. -/
def seamUpper : List Text := ["*", " * Sum.", " * @examples", " *   f(1) // => 2", " *"]

/-- The lines below `seamUpper`, with a type over two lines. -/
def seamLower : List Text := [" * @param \x7ba|", " *   b\x7d [x=1] - left", " "]

/-- The cut leaves the code of the first tag and the type of the second one as they are. -/
theorem parse_unlines_append_seam :
    ∃ upper lower, Doclet.parse (Text.unlines seamUpper) = .ok upper ∧
      Doclet.parse (Text.unlines seamLower) = .ok lower ∧
      Doclet.parse (Text.unlines (seamUpper ++ seamLower))
        = .ok ⟨upper.description, upper.tags ++ lower.tags.map (·.lower 5)⟩ ∧
      (upper.tags ++ lower.tags.map (·.lower 5)).map (·.line) = [2, 5] := by
  obtain ⟨upper, hupper⟩ : ∃ d, Doclet.parse (Text.unlines seamUpper) = .ok d := ⟨_, rfl⟩
  obtain ⟨lower, hlower⟩ : ∃ d, Doclet.parse (Text.unlines seamLower) = .ok d := ⟨_, rfl⟩
  have hparse := parse_unlines_append.1 seamUpper seamLower (by decide) (by decide)
    (by decide) (by decide)
  rw [hupper, hlower] at hparse
  refine ⟨upper, lower, hupper, hlower, hparse, ?_⟩
  exact (parse_unlines_append.2 _ _ hparse).trans (by decide)

end Doclet

end DocModel
