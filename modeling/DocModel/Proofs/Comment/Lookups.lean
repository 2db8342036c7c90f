import DocModel.Proofs.Comment.Locality
import DocModel.Proofs.Grammar.Progress
import DocModel.TypeExpr.Data

/-!
# Look-ups in comments

A comment is read by dividing its lines into tags, and a tag by cutting pieces off its text. Here
that is done with open eyes: a tag is known by the numbers of its first line and of the line behind
its last one, and lines, words and pieces are looked up by their places (`Reader.docletOfLines`).

No look-up goes astray. The numbers of the lines on which tags start are the numbers of lines that
start a tag (`exists_of_mem_divideTags`), the text of a tag is stripped, so it is empty or has
a word in it (`head?_words`), and a text that breaks off inside braces or brackets has a first line
(`head?_breakLines`). So a comment is read, or it is refused for one of the declared reasons.
-/

namespace DocModel

open Checked

/-! ## Pieces of a text -/

namespace Text

/-- The lines of a text as it is shown, without their ends. A text without characters has none. -/
def breakLines : Text → List Text
  | [] => []
  | '\r' :: '\n' :: cs => [] :: breakLines cs
  | c :: cs =>
    if isLineBreak c then [] :: breakLines cs
    else
      match breakLines cs with
      | [] => [[c]]
      | line :: ls => (c :: line) :: ls

theorem head?_breakLines {t : Text} (h : t ≠ []) : (breakLines t).head? = some (firstLine t) := by
  fun_induction breakLines t with
  | case1 => exact absurd rfl h
  | case2 => rfl
  | case3 c cs _ hc => simp [firstLine, hc]
  | case4 c cs _ hc hnone ih =>
    cases cs with
    | nil => simp [firstLine, hc]
    | cons d cs =>
      have hfirst := ih (List.cons_ne_nil d cs)
      rw [hnone] at hfirst
      cases hfirst
  | case5 c cs _ hc line ls hlines ih =>
    have hne : cs ≠ [] := by
      rintro rfl
      cases hlines
    have hfirst := ih hne
    rw [hlines] at hfirst
    rw [firstLine, List.takeWhile_cons_of_pos (by simpa using hc)]
    exact congrArg (fun line => some (c :: line)) (Option.some.inj hfirst)

/-- The words of a text. -/
def words (t : Text) : List Text := (splitWhere isBlank t).filter (!·.isEmpty)

theorem head?_splitWhere (p : Char → Bool) (t : Text) :
    (splitWhere p t).head? = some (t.takeWhile (!p ·)) := by
  induction t with
  | nil => rfl
  | cons c t ih =>
    obtain ⟨piece, pieces, ht⟩ := List.exists_cons_of_ne_nil (splitWhere_ne_nil p t)
    rw [ht] at ih
    rw [splitWhere, ht]
    by_cases hc : p c = true
    · simp [hc]
    · simp [hc, Option.some.inj ih]

theorem head?_words (t : Text) : (words t).head? = (firstWord? t).map (·.1) := by
  induction t with
  | nil => rfl
  | cons c t ih =>
    by_cases hc : isBlank c = true
    · have hskip : words (c :: t) = words t := by
        rw [words, splitWhere, if_pos hc]
        rfl
      rw [hskip, ih, firstWord?, firstWord?, stripLeft, stripLeft, List.dropWhile_cons_of_pos hc]
    · obtain ⟨piece, pieces, ht⟩ := List.exists_cons_of_ne_nil (splitWhere_ne_nil isBlank t)
      have hpiece := head?_splitWhere isBlank t
      have hblank := Bool.eq_false_iff.mpr hc
      rw [ht] at hpiece
      rw [words, splitWhere_cons_of_neg hblank ht, firstWord?, stripLeft_cons hblank]
      simp [hc, Option.some.inj hpiece]

/-- The first word of a text and the text after it, if there is any. -/
def splitWord (t : Text) : List Text :=
  match firstWord? t with
  | none => []
  | some (word, after) => if after.isEmpty then [word] else [word, after]

theorem stripLeft_strip (t : Text) : stripLeft (strip t) = strip t := by
  cases ht : stripLeft t with
  | nil =>
    rw [strip, ht]
    rfl
  | cons c rest =>
    have hc := not_isBlank_of_stripLeft ht
    have hstrip : strip t = c :: stripRight rest := by
      rw [strip, ht]
      exact stripRight_append_cons hc [] rest
    rw [hstrip, stripLeft_cons hc]

/-- A text that does not start with a blank character is empty or starts with a word. -/
theorem exists_firstWord? {t : Text} (h : stripLeft t = t) (ht : t ≠ []) :
    ∃ word after, firstWord? t = some (word, after) := by
  obtain ⟨c, rest, rfl, -⟩ := exists_cons_of_stripLeft h ht
  exact ⟨_, _, by rw [firstWord?, h]⟩

end Text

namespace Comment

/-! ## The readers -/

namespace Reader

/-- The first line of a text, as a problem shows it. -/
def firstLine (text : Text) : Checked Problem Text := lookUp (Text.breakLines text) 0

/-- The type in braces at the start of a text, if there is one, and the text after it. -/
def takeType (text : Text) : Checked Problem (Option TypeExpr × Text) :=
  match text with
  | '\x7b' :: cs =>
    match matchBrace 0 cs with
    | none => do
      let line ← firstLine text
      refuse (.openType line)
    | some (inside, after) => do
      let type ← report (.badType (Text.strip inside))
        (TypeExpr.Cursor.parse TypeExpr.Token.firstKind (Text.strip inside))
      return (some type, Text.strip after)
  | _ => return (none, text)

/-- The name at the start of a text: a word, or in brackets a name with an optional default
value. -/
def takeName (text : Text) : Checked Problem NamePart :=
  match text with
  | [] => return ⟨none, [], false, none⟩
  | '[' :: cs =>
    match Text.cut? "]" cs with
    | none => do
      let line ← firstLine text
      refuse (.openName line)
    | some (inside, after) =>
      let inner := Text.strip inside
      let (name, default) := (Text.cut? "=" inner).getD (inner, [])
      let default := Text.strip default
      return ⟨some (Text.strip name), Text.strip after, true,
        if default.isEmpty then none else some default⟩
  | _ => do
    let parts := Text.splitWord text
    let word ← lookUp parts 0
    let after ← if 1 < parts.length then lookUp parts 1 else pure []
    return ⟨some word, Text.strip after, false, none⟩

/-- The title and the remaining text of a line that is taken to start a tag. -/
def tagParts (line : Text) : Checked Problem (Text × Text) := found (tagLine? line)

/-- A tag whose body is code. -/
def verbatimTag (start : Nat) (title : Text) (body : List Text) : Checked Problem Tag := do
  let first ← lookUp body 0
  let skipped := if Text.blank first then (body.tail.takeWhile Text.blank).length + 1 else 0
  return {
    title
    name := none
    type := none
    description := Text.stripRight (Text.unlines (Text.dedent (body.drop skipped)))
    line := start
    descriptionLine := start + skipped
    optional := false
    default := none }

/-- **The tag on the lines from number `start` up to number `stop`.** -/
def readTag (ls : List Text) (start stop : Nat) : Checked Problem Tag := do
  let line ← lookUp ls start
  let (title, rest) ← tagParts line
  if !isTitle title then refuse (.badTitle (start + 1) (Text.strip line))
  else
    let body := rest :: (ls.take stop).drop (start + 1)
    let text := Text.strip (Text.unlines body)
    let tag : Tag :=
      { title := canonicalTitle title
        name := none
        type := none
        description := text
        line := start
        descriptionLine := start
        optional := false
        default := none }
    match TagKind.ofTitle title with
    | .verbatim => verbatimTag start title body
    | .parameter => do
      let (type, text) ← takeType text
      let part ← takeName text
      return { tag with
        name := part.name
        type := if part.optional then type.map .optional else type
        description := stripHyphen part.after
        optional := part.optional
        default := part.default }
    | .result => do
      let (type, text) ← takeType text
      return { tag with type, description := text }
    | .definition => do
      let (type, text) ← takeType text
      let part ← takeName text
      return { tag with type, name := part.name, description := part.after }
    | .namePath =>
      if text.isEmpty then return tag
      else do
        let word ← lookUp (Text.words text) 0
        return { tag with name := some word }
    | .plain => return tag

/-- The numbers of the lines that start a tag, where the first line has number `start`. -/
def tagStarts (start : Nat) (ls : List Text) : List Nat :=
  ((ls.zipIdx start).filter fun l => startsTag l.1).map (·.2)

/-- The number of the first line that starts a tag, or of the line behind the last one. -/
def firstStart (ls : List Text) : Checked Problem Nat :=
  if (tagStarts 0 ls).isEmpty then return ls.length else lookUp (tagStarts 0 ls) 0

/-- The doclet that the lines of a comment hold. -/
def docletOfLines (ls : List Text) : Checked Problem Doclet := do
  let first ← firstStart ls
  let boundaries := tagStarts 0 ls ++ [ls.length]
  let tags ← (boundaries.zip boundaries.tail).mapM fun b => readTag ls b.1 b.2
  return ⟨Text.strip (Text.unlines (ls.take first)), tags⟩

/-- **The doclet of a comment**, with its gutter or without one, read with open eyes. -/
def parse (gutter : Bool) (value : Text) : Checked Problem Doclet :=
  docletOfLines (if gutter then unwrap value else Text.lines value)

/-! ## Types and names -/

theorem firstLine_eq {text : Text} (h : text ≠ []) :
    firstLine text = pure (Text.firstLine text) := by
  refine lookUp_of_getElem? ?_
  rw [← List.head?_eq_getElem?]
  exact Text.head?_breakLines h

theorem takeType_eq (text : Text) : takeType text = declared (Comment.takeType text) := by
  by_cases hbrace : ∃ cs, text = '\x7b' :: cs
  · obtain ⟨cs, rfl⟩ := hbrace
    rw [takeType, Comment.takeType]
    cases matchBrace 0 cs with
    | none =>
      dsimp only
      rw [firstLine_eq (List.cons_ne_nil _ cs)]
      rfl
    | some cut =>
      obtain ⟨inside, after⟩ := cut
      dsimp only
      rw [TypeExpr.Cursor.parse_eq _ fun _ => TypeExpr.Token.Readable.firstKind_eq, report_declared]
      cases TypeExpr.parse (Text.strip inside) <;> rfl
  · have hother : ∀ cs, text = '\x7b' :: cs → False := fun cs hcs => hbrace ⟨cs, hcs⟩
    rw [takeType, Comment.takeType]
    · rfl
    · exact hother
    · exact hother

/-- What follows a type does not start with a blank character. -/
theorem stripLeft_of_takeType {text rest : Text} {type : Option TypeExpr}
    (htext : Text.stripLeft text = text) (h : Comment.takeType text = .ok (type, rest)) :
    Text.stripLeft rest = rest := by
  unfold Comment.takeType at h
  split at h
  · split at h
    · cases h
    · dsimp only at h
      split at h
      · cases h
      · cases h
        exact Text.stripLeft_strip _
  · cases h
    exact htext

theorem takeName_eq {text : Text} (h : Text.stripLeft text = text) :
    takeName text = declared (Comment.takeName text) := by
  by_cases hempty : text = []
  · rw [hempty]
    rfl
  by_cases hbracket : ∃ cs, text = '[' :: cs
  · obtain ⟨cs, rfl⟩ := hbracket
    rw [takeName, Comment.takeName]
    cases Text.cut? "]" cs with
    | none =>
      dsimp only
      rw [firstLine_eq (List.cons_ne_nil _ cs)]
      rfl
    | some cut => rfl
  · have hother : ∀ cs, text = '[' :: cs → False := fun cs hcs => hbracket ⟨cs, hcs⟩
    obtain ⟨word, after, hword⟩ := Text.exists_firstWord? h hempty
    rw [takeName, Comment.takeName, hword, Text.splitWord, hword]
    · cases after <;> rfl
    · exact hempty
    · exact hother
    · exact hempty
    · exact hother

/-- A text of blanks only has no word to look up; it is never asked for one. -/
example : takeName " " = some (.error .undefined) := rfl

/-! ## Tags -/

theorem length_takeWhile_blank (first : Text) (body : List Text) :
    (if Text.blank first then (body.takeWhile Text.blank).length + 1 else 0)
      = ((first :: body).takeWhile Text.blank).length := by
  by_cases hblank : Text.blank first = true
  · rw [if_pos hblank, List.takeWhile_cons_of_pos hblank]
    rfl
  · rw [if_neg hblank, List.takeWhile_cons_of_neg hblank]
    rfl

theorem verbatimTag_eq (t : TagLines) :
    verbatimTag t.start t.title (t.text :: t.body) = declared (.ok (Comment.verbatimTag t)) := by
  rw [Comment.verbatimTag, ← length_takeWhile_blank]
  rfl

/-- **A tag is read from its lines.** The lines of the comment from `start` up to `stop` are those
that belong to the tag. -/
theorem readTag_eq {ls : List Text} {t : TagLines} {stop : Nat} (hline : ls[t.start]? = some t.line)
    (htag : tagLine? t.line = some (t.title, t.text))
    (hbody : (ls.take stop).drop (t.start + 1) = t.body) :
    readTag ls t.start stop = declared (Comment.readTag t) := by
  have hparts : tagParts t.line = pure (t.title, t.text) := by
    rw [tagParts, htag, found]
  rw [readTag, lookUp_of_getElem? hline, pure_bind, hparts, pure_bind, Comment.readTag]
  dsimp only
  rw [hbody]
  split
  · rfl
  generalize htext : Text.strip (Text.unlines (t.text :: t.body)) = text
  have hstrip : Text.stripLeft text = text := htext ▸ Text.stripLeft_strip _
  cases TagKind.ofTitle t.title with
  | verbatim => exact verbatimTag_eq t
  | parameter =>
    dsimp only
    rw [takeType_eq]
    refine declared_bind fun r hr => ?_
    rw [takeName_eq (stripLeft_of_takeType hstrip hr)]
    exact declared_bind fun _ _ => rfl
  | result =>
    dsimp only
    rw [takeType_eq]
    exact declared_bind fun _ _ => rfl
  | definition =>
    dsimp only
    rw [takeType_eq]
    refine declared_bind fun r hr => ?_
    rw [takeName_eq (stripLeft_of_takeType hstrip hr)]
    exact declared_bind fun _ _ => rfl
  | namePath =>
    dsimp only
    split
    · next hempty =>
      rw [List.isEmpty_iff.mp hempty]
      rfl
    · next hempty =>
      obtain ⟨word, after, hword⟩ :=
        Text.exists_firstWord? hstrip (fun hnil => hempty (List.isEmpty_iff.mpr hnil))
      have hfirst : lookUp (Text.words text) 0 = (pure word : Checked Problem Text) := by
        refine lookUp_of_getElem? ?_
        rw [← List.head?_eq_getElem?, Text.head?_words, hword]
        rfl
      rw [hfirst, pure_bind, hword]
      rfl
  | plain => rfl

/-! ## The lines of the tags -/

/-- **A tag stands on its lines**: the line that starts it is one that starts a tag, and the lines
behind that one are the lines of its body. -/
theorem exists_of_mem_divideTags {start : Nat} {ls : List Text} {t : TagLines}
    (ht : t ∈ (divideTags start ls).2) :
    ∃ k, t.start = start + k ∧ ls[k]? = some t.line ∧
      tagLine? t.line = some (t.title, t.text) ∧
      (ls.take (k + 1 + t.body.length)).drop (k + 1) = t.body := by
  induction ls generalizing start with
  | nil => cases ht
  | cons first ls ih =>
    have hlater : t ∈ (divideTags (start + 1) ls).2 → ∃ k, t.start = start + k ∧
        (first :: ls)[k]? = some t.line ∧ tagLine? t.line = some (t.title, t.text) ∧
        ((first :: ls).take (k + 1 + t.body.length)).drop (k + 1) = t.body := by
      intro ht
      obtain ⟨k, hk, hline, htag, hbody⟩ := ih ht
      refine ⟨k + 1, by omega, hline, htag, ?_⟩
      rw [Nat.add_right_comm (k + 1), List.take_succ_cons, List.drop_succ_cons]
      exact hbody
    rw [divideTags_cons] at ht
    split at ht
    · next title text htag =>
      cases ht with
      | tail _ ht => exact hlater ht
      | head =>
        refine ⟨0, rfl, rfl, htag, ?_⟩
        dsimp only
        rw [Nat.zero_add, Nat.add_comm, List.take_succ_cons, List.drop_succ_cons, List.drop_zero]
        exact (List.prefix_iff_eq_take.mp (divideTags_fst_isPrefix (start + 1) ls)).symm
    · exact hlater ht

/-- The lines on which tags start, and the line behind the last one, bound the lines of the tags. -/
theorem boundaries_divideTags (start : Nat) (ls : List Text) :
    let boundaries := tagStarts start ls ++ [start + ls.length]
    boundaries.head? = some (start + (divideTags start ls).1.length) ∧
      boundaries.zip boundaries.tail
        = (divideTags start ls).2.map fun t => (t.start, t.start + 1 + t.body.length) := by
  induction ls generalizing start with
  | nil => exact ⟨rfl, rfl⟩
  | cons line ls ih =>
    obtain ⟨hhead, hzip⟩ := ih (start + 1)
    have hend : start + (line :: ls).length = start + 1 + ls.length := by
      rw [List.length_cons]
      omega
    have hstarts : tagStarts start (line :: ls)
        = if startsTag line then start :: tagStarts (start + 1) ls
          else tagStarts (start + 1) ls := by
      rw [tagStarts, List.zipIdx_cons, List.filter_cons]
      cases startsTag line <;> rfl
    dsimp only
    rw [hend, hstarts, divideTags_cons, ← isSome_tagLine?]
    cases tagLine? line with
    | none =>
      refine ⟨hhead.trans (congrArg some ?_), hzip⟩
      dsimp only
      rw [List.length_cons]
      omega
    | some parts =>
      obtain ⟨rest, hrest⟩ := List.head?_eq_some_iff.mp hhead
      refine ⟨rfl, ?_⟩
      show (start :: (tagStarts (start + 1) ls ++ [start + 1 + ls.length])).zip
          (tagStarts (start + 1) ls ++ [start + 1 + ls.length])
        = (start, start + 1 + (divideTags (start + 1) ls).1.length) :: _
      rw [hrest] at hzip ⊢
      exact congrArg (_ :: ·) hzip

theorem firstStart_eq (ls : List Text) : firstStart ls = pure (divideTags 0 ls).1.length := by
  have hhead := (boundaries_divideTags 0 ls).1
  rw [Nat.zero_add, Nat.zero_add] at hhead
  rw [firstStart]
  cases hstarts : tagStarts 0 ls with
  | nil =>
    rw [hstarts] at hhead
    exact congrArg pure (Option.some.inj hhead)
  | cons first starts =>
    rw [hstarts] at hhead
    exact congrArg pure (Option.some.inj hhead)

/-- **Reading the lines with open eyes** comes to the same doclet, or refuses them for the same
reason. -/
theorem docletOfLines_eq (ls : List Text) :
    docletOfLines ls = declared (Comment.docletOfLines ls) := by
  have hzip := (boundaries_divideTags 0 ls).2
  rw [Nat.zero_add] at hzip
  have hbefore : ls.take (divideTags 0 ls).1.length = (divideTags 0 ls).1 :=
    (List.prefix_iff_eq_take.mp (divideTags_fst_isPrefix 0 ls)).symm
  have htags : ((divideTags 0 ls).2.map fun t => (t.start, t.start + 1 + t.body.length)).mapM
      (fun b => readTag ls b.1 b.2) = declared ((divideTags 0 ls).2.mapM Comment.readTag) := by
    rw [List.mapM_map]
    refine mapM_declared fun t ht => ?_
    obtain ⟨k, hk, hline, htag, hbody⟩ := exists_of_mem_divideTags ht
    rw [Nat.zero_add] at hk
    rw [← hk] at hline hbody
    exact readTag_eq hline htag hbody
  rw [docletOfLines, firstStart_eq, pure_bind]
  dsimp only
  rw [hzip, htags, hbefore]
  exact declared_bind fun _ _ => rfl

end Reader

end Comment

/-! ## Types as they are shown -/

namespace TypeExpr

theorem format_optional (inner : TypeExpr) : (optional inner).format = inner.format ++ "?" := rfl

theorem format_record (fields : List (Text × Option TypeExpr)) :
    (record fields).format = "\x7b" ++ Text.join ", " (formatFields fields) := rfl

mutual

/-- Every part of a type expression is a type where a type should stand. -/
theorem exists_toExpr_toData : ∀ t : TypeExpr,
    ∃ u, t.toData.toExpr = .ok u ∧ u.format = t.format
  | name text => ⟨_, rfl, rfl⟩
  | all => ⟨_, rfl, rfl⟩
  | null => ⟨_, rfl, rfl⟩
  | nullable inner => by
    obtain ⟨u, hu, hformat⟩ := exists_toExpr_toData inner
    refine ⟨.nullable u, ?_, by rw [format_nullable, format_nullable, hformat]⟩
    show (inner.toData.toExpr >>= _) = _
    rw [hu]
    rfl
  | optional inner => by
    obtain ⟨u, hu, hformat⟩ := exists_toExpr_toData inner
    refine ⟨.optional u, ?_, by rw [format_optional, format_optional, hformat]⟩
    show (inner.toData.toExpr >>= _) = _
    rw [hu]
    rfl
  | union members => by
    obtain ⟨us, hus, hformat⟩ := exists_toExprs_toDataEach members
    refine ⟨.union us, ?_, congrArg (Text.join "|") hformat⟩
    show (TypeData.toExprs (toDataEach members) >>= _) = _
    rw [hus]
    rfl
  | variadic inner => by
    obtain ⟨u, hu, hformat⟩ := exists_toExpr_toDataOption inner
    refine ⟨.variadic (some u), ?_, congrArg (("..." : Text) ++ ·) hformat⟩
    show ((toDataOption inner).toExpr >>= _) = _
    rw [hu]
    rfl
  | array items => by
    obtain ⟨us, hus, hformat⟩ := exists_toExprs_toDataEach items
    refine ⟨.array us, ?_, congrArg (fun parts => "[" ++ Text.join ", " parts ++ "]") hformat⟩
    show (TypeData.toExprs (toDataEach items) >>= _) = _
    rw [hus]
    rfl
  | application base arguments => by
    obtain ⟨u, hu, hbase⟩ := exists_toExpr_toData base
    obtain ⟨us, hus, hformat⟩ := exists_toExprs_toDataEach arguments
    refine ⟨.application u us, ?_, ?_⟩
    · show (TypeData.toExprs (toDataEach arguments) >>= fun _ => base.toData.toExpr >>= _) = _
      rw [hus, hu]
      rfl
    · show u.format ++ _ ++ Text.join "|" (formatEach us) ++ _ = _
      rw [hbase, hformat]
      rfl
  | record fields => by
    obtain ⟨gs, hgs, hformat⟩ := exists_toFields_toDataFields fields
    refine ⟨.record gs, ?_, by rw [format_record, format_record, hformat]⟩
    show (TypeData.toFields (toDataFields fields) >>= _) = _
    rw [hgs]
    rfl
  | function params result receiver constructed => by
    obtain ⟨us, hus, hformat⟩ := exists_toExprs_toDataEach params
    obtain ⟨u, hu, hresult⟩ := exists_toExpr_toDataOption result
    refine ⟨.function us (some u) none none, ?_, ?_⟩
    · show (TypeData.toExprs (toDataEach params) >>= fun _ =>
        (toDataOption result).toExpr >>= _) = _
      rw [hus, hu]
      rfl
    · show _ ++ Text.join ", " (formatEach us) ++ _ ++ u.format = _
      rw [hformat, hresult]
      rfl

theorem exists_toExprs_toDataEach : ∀ ts : List TypeExpr,
    ∃ us, TypeData.toExprs (toDataEach ts) = .ok us ∧ formatEach us = formatEach ts
  | [] => ⟨_, rfl, rfl⟩
  | t :: ts => by
    obtain ⟨u, hu, hformat⟩ := exists_toExpr_toData t
    obtain ⟨us, hus, hformats⟩ := exists_toExprs_toDataEach ts
    refine ⟨u :: us, ?_, congrArg₂ List.cons hformat hformats⟩
    show (t.toData.toExpr >>= fun _ => TypeData.toExprs (toDataEach ts) >>= _) = _
    rw [hu, hus]
    rfl

theorem exists_toExpr_toDataOption : ∀ o : Option TypeExpr,
    ∃ u, (toDataOption o).toExpr = .ok u ∧ u.format = formatOption o
  | none => ⟨_, rfl, rfl⟩
  | some t => exists_toExpr_toData t

theorem exists_toFields_toDataFields : ∀ fields : List (Text × Option TypeExpr),
    ∃ gs, TypeData.toFields (toDataFields fields) = .ok gs ∧ formatFields gs = formatFields fields
  | [] => ⟨_, rfl, rfl⟩
  | (key, value) :: fields => by
    obtain ⟨u, hu, hformat⟩ := exists_toExpr_toDataOption value
    obtain ⟨gs, hgs, hformats⟩ := exists_toFields_toDataFields fields
    refine ⟨(key, some u) :: gs, ?_, ?_⟩
    · show ((toDataOption value).toExpr >>= fun _ =>
        TypeData.toFields (toDataFields fields) >>= _) = _
      rw [hu, hgs]
      rfl
    · exact congrArg₂ List.cons (congrArg (key ++ ":" ++ ·) hformat) hformats

end

/-- **Every type expression can be shown.** -/
theorem format_toData (t : TypeExpr) : t.toData.format = .ok t.format := by
  obtain ⟨u, hu, hformat⟩ := exists_toExpr_toData t
  rw [TypeData.format, hu, ← hformat]
  rfl

end TypeExpr

/-- **A comment is read, or refused for a declared reason.** With its gutter or without one, every
comment has a doclet, and then each type in it can be shown, or there is a problem with it. It comes
to the same when it is read with open eyes: no look-up finds nothing, and no loop goes on
for ever. -/
theorem Doclet.parse_ok_or_refused (gutter : Bool) (value : Text) :
    let reading := if gutter then Doclet.parse value else Doclet.parseBare value
    (∃ doclet, Comment.Reader.parse gutter value = some (.ok doclet) ∧ reading = .ok doclet ∧
      ∀ tag ∈ doclet.tags, ∀ type, tag.type = some type →
        type.toData.format = .ok type.format) ∨
    ∃ problem, Comment.Reader.parse gutter value = some (.error (.refused problem)) ∧
      reading = .error problem := by
  intro reading
  have hread : Comment.Reader.parse gutter value = declared reading := by
    rw [Comment.Reader.parse, Comment.Reader.docletOfLines_eq]
    cases gutter <;> rfl
  cases hreading : reading with
  | ok doclet =>
    rw [hreading] at hread
    exact .inl ⟨doclet, hread, rfl, fun _ _ type _ => type.format_toData⟩
  | error problem =>
    rw [hreading] at hread
    exact .inr ⟨problem, hread, rfl⟩

end DocModel
