import DocModel.Comment.Parser
import DocModel.Proofs.Basic
import DocModel.Proofs.Text.Lines

/-!
# Where the lines of a tag come from

Between a comment and the code in one of its tags the gutter is taken off, the lines are divided
among the tags, the title and blank lines before the code are dropped, the margin is taken off,
and blank lines after the code are cut. Each step keeps count of the lines: a line of the code
stands, as a stretch, on the line of the comment that the tag gives for it
(`getElem?_lines_verbatimTag`), and tags do not share lines (`pairwise_divideTags`).
-/

namespace DocModel.Comment

/-! ## The gutter -/

theorem dropGutter_suffix (line : Text) : dropGutter line <:+ line := by
  have hdrop : line.dropWhile Text.isIndent <:+ line := List.dropWhile_suffix _
  unfold dropGutter
  split
  · next c rest heq =>
    rw [heq] at hdrop
    have hrest : rest <:+ line := (List.suffix_append ['*', c] rest).trans hdrop
    split
    · exact hrest
    · exact (List.suffix_cons '*' _).trans hdrop
  · exact List.nil_suffix
  · exact hdrop

theorem getElem?_unwrap {value line : Text} {i : Nat} (h : (unwrap value)[i]? = some line) :
    ∃ source, (Text.lines value)[i]? = some source ∧ line <:+ source := by
  rw [unwrap, List.getElem?_map] at h
  obtain ⟨source, hsource, rfl⟩ := Option.map_eq_some_iff.mp h
  exact ⟨source, hsource, dropGutter_suffix source⟩

/-! ## The lines of a tag -/

theorem tagLine?_text_suffix {line title text : Text} (h : tagLine? line = some (title, text)) :
    text <:+ line := by
  have hstrip := Text.stripLeft_suffix line
  unfold tagLine? at h
  split at h
  · next rest heq =>
    rw [heq] at hstrip
    simp only [Option.some.injEq, Prod.mk.injEq] at h
    obtain ⟨-, rfl⟩ := h
    exact (Text.stripLeft_suffix _).trans ((List.dropWhile_suffix _).trans
      ((List.suffix_cons '@' rest).trans hstrip))
  · cases h

theorem divideTags_cons (start : Nat) (line : Text) (ls : List Text) :
    divideTags start (line :: ls) =
      match tagLine? line with
      | some (title, text) =>
        ([], ⟨start, line, title, text, (divideTags (start + 1) ls).1⟩
          :: (divideTags (start + 1) ls).2)
      | none => (line :: (divideTags (start + 1) ls).1, (divideTags (start + 1) ls).2) := rfl

theorem divideTags_fst_isPrefix (start : Nat) (ls : List Text) :
    (divideTags start ls).1 <+: ls := by
  induction ls generalizing start with
  | nil => exact List.nil_prefix
  | cons line ls ih =>
    rw [divideTags_cons]
    split
    · exact List.nil_prefix
    · exact List.cons_prefix_cons.mpr ⟨rfl, ih (start + 1)⟩

/-- **A tag stands where it says.** The lines of a tag are the lines of the comment from its start
on; of the first of them, the part after the title is meant. -/
theorem getElem?_of_mem_divideTags {start : Nat} {ls : List Text} {t : TagLines}
    (ht : t ∈ (divideTags start ls).2) :
    ∃ k, t.start = start + k ∧ ∀ j line, (t.text :: t.body)[j]? = some line →
      ∃ source, ls[k + j]? = some source ∧ line <:+ source := by
  induction ls generalizing start with
  | nil => cases ht
  | cons first ls ih =>
    -- A tag that starts further down is found there, one line later.
    have hlater : t ∈ (divideTags (start + 1) ls).2 → ∃ k, t.start = start + k ∧
        ∀ j line, (t.text :: t.body)[j]? = some line →
          ∃ source, (first :: ls)[k + j]? = some source ∧ line <:+ source := by
      intro ht
      obtain ⟨k, hk, hlines⟩ := ih ht
      refine ⟨k + 1, by omega, fun j line hj => ?_⟩
      rw [Nat.add_right_comm]
      exact hlines j line hj
    rw [divideTags_cons] at ht
    split at ht
    · next title text htag =>
      cases ht with
      | tail _ ht => exact hlater ht
      | head =>
        refine ⟨0, rfl, fun j line hj => ?_⟩
        rw [Nat.zero_add]
        cases j with
        | zero =>
          rw [← Option.some.inj hj]
          exact ⟨first, rfl, tagLine?_text_suffix htag⟩
        | succ j =>
          obtain ⟨hlt, hline⟩ := List.getElem?_eq_some_iff.mp hj
          have hbody := List.prefix_iff_getElem?.mp (divideTags_fst_isPrefix (start + 1) ls) j
            (Nat.lt_of_succ_lt_succ hlt)
          exact ⟨line, hbody.trans (congrArg some hline), List.suffix_refl line⟩
    · exact hlater ht

/-- **Tags do not share lines**, and stand in the order of the comment. -/
theorem pairwise_divideTags (start : Nat) (ls : List Text) :
    (∀ t ∈ (divideTags start ls).2, start + (divideTags start ls).1.length ≤ t.start) ∧
      (divideTags start ls).2.Pairwise fun t u => t.start + t.body.length < u.start := by
  induction ls generalizing start with
  | nil => exact ⟨by simp [divideTags], List.Pairwise.nil⟩
  | cons line ls ih =>
    -- The lines before the first tag further down become the body of a tag that starts here.
    obtain ⟨hafter, hpairwise⟩ := ih (start + 1)
    rw [divideTags_cons]
    split
    · refine ⟨fun t ht => ?_, List.pairwise_cons.mpr ⟨fun t ht => ?_, hpairwise⟩⟩
      · cases ht with
        | head => exact Nat.le_refl _
        | tail _ ht =>
          have := hafter t ht
          simp only [List.length_nil]
          omega
      · have := hafter t ht
        dsimp only
        omega
    · refine ⟨fun t ht => ?_, hpairwise⟩
      have := hafter t ht
      simp only [List.length_cons]
      omega

/-! ## Code in a tag -/

/-- A line of the code in a tag is a stretch of one of the tag's lines. -/
theorem getElem?_lines_verbatimTag {t : TagLines} (ht : ∀ line ∈ t.text :: t.body, '\n' ∉ line)
    {j : Nat} {line : Text} (hline : line ≠ [])
    (h : (Text.lines (verbatimTag t).description)[j]? = some line) :
    ∃ k source, (verbatimTag t).descriptionLine + j = t.start + k ∧
      (t.text :: t.body)[k]? = some source ∧ line <:+: source := by
  let skipped := ((t.text :: t.body).takeWhile Text.blank).length
  let code := (t.text :: t.body).drop skipped
  have hcut : (verbatimTag t).description <+: Text.unlines (Text.dedent code) :=
    Text.stripRight_isPrefix _
  obtain ⟨whole, hwhole, hstart⟩ := Text.getElem?_lines_of_isPrefix hcut h
  -- Without code the description is a single empty line, and `line` is not empty.
  have hcode : code ≠ [] := by
    intro hcode
    rw [hcode] at hwhole
    have hempty : whole = [] := by
      have := List.mem_of_getElem? hwhole
      simpa [Text.dedent, Text.unlines, Text.join, Text.lines, Text.splitWhere] using this
    exact hline (List.prefix_nil.mp (hempty ▸ hstart))
  have hlines : Text.lines (Text.unlines (Text.dedent code)) = Text.dedent code := by
    refine Text.lines_unlines (by simpa [Text.dedent] using hcode) fun l hl hfeed => ?_
    obtain ⟨i, hi⟩ := List.mem_iff_getElem?.mp hl
    obtain ⟨source, hsource, hsuffix⟩ := Text.getElem?_dedent hi
    exact ht source (List.mem_of_mem_drop (List.mem_of_getElem? hsource)) (hsuffix.subset hfeed)
  rw [hlines] at hwhole
  obtain ⟨source, hsource, hsuffix⟩ := Text.getElem?_dedent hwhole
  refine ⟨skipped + j, source, Nat.add_assoc _ _ _, ?_, hstart.isInfix.trans hsuffix.isInfix⟩
  rw [← List.getElem?_drop]
  exact hsource

/-- **A line of the code in a tag stands on the line of the comment that the tag gives for it**,
which is one of the lines of the tag. -/
theorem getElem?_lines_of_mem_divideTags {value : Text} {t : TagLines}
    (ht : t ∈ (divideTags 0 (unwrap value)).2) {j : Nat} {line : Text} (hline : line ≠ [])
    (h : (Text.lines (verbatimTag t).description)[j]? = some line) :
    (∃ source, (Text.lines value)[(verbatimTag t).descriptionLine + j]? = some source ∧
        line <:+: source) ∧
      (verbatimTag t).descriptionLine + j ≤ t.start + t.body.length := by
  obtain ⟨start, hstart, hlines⟩ := getElem?_of_mem_divideTags ht
  rw [Nat.zero_add] at hstart
  have hsource : ∀ k line, (t.text :: t.body)[k]? = some line →
      ∃ source, (Text.lines value)[t.start + k]? = some source ∧ line <:+ source := by
    intro k line hk
    obtain ⟨unwrapped, hunwrapped, hline⟩ := hlines k line hk
    obtain ⟨source, hsource, hgutter⟩ := getElem?_unwrap hunwrapped
    exact ⟨source, hstart ▸ hsource, hline.trans hgutter⟩
  have hfeed : ∀ line ∈ t.text :: t.body, '\n' ∉ line := by
    intro line hmem hfeed
    obtain ⟨k, hk⟩ := List.mem_iff_getElem?.mp hmem
    obtain ⟨source, hsource, hsuffix⟩ := hsource k line hk
    exact Text.feed_notMem_of_mem_lines (List.mem_of_getElem? hsource) (hsuffix.subset hfeed)
  obtain ⟨k, own, hk, hown, hinfix⟩ := getElem?_lines_verbatimTag hfeed hline h
  obtain ⟨source, hsource, hsuffix⟩ := hsource k own hown
  refine ⟨⟨source, hk ▸ hsource, hinfix.trans hsuffix.isInfix⟩, ?_⟩
  obtain ⟨hlt, -⟩ := List.getElem?_eq_some_iff.mp hown
  rw [List.length_cons] at hlt
  omega

/-! ## Tags with examples -/

theorem canonicalTitle_of_verbatim {title : Text} (h : TagKind.ofTitle title = .verbatim) :
    canonicalTitle title = title := by
  have hmem : title ∈ (["examples", "example", "benchmarks"] : List Text) := by
    refine Decidable.byContradiction fun hmem => ?_
    rw [TagKind.ofTitle, if_neg hmem] at h
    repeat' split at h
    all_goals cases h
  simp only [List.mem_cons, List.not_mem_nil, or_false] at hmem
  obtain rfl | rfl | rfl := hmem <;> decide

/-- A tag has the canonical spelling of its title, and stands where its lines start. -/
theorem readTag_eq_ok {t : TagLines} {tag : Tag} (h : readTag t = .ok tag) :
    tag.title = canonicalTitle t.title ∧ tag.line = t.start := by
  unfold readTag at h
  split at h
  · cases h
  · cases hkind : TagKind.ofTitle t.title with
    | verbatim =>
      rw [hkind] at h
      cases h
      exact ⟨(canonicalTitle_of_verbatim hkind).symm, rfl⟩
    | parameter | definition =>
      rw [hkind] at h
      simp only [Except.bind_eq_ok_iff, Prod.exists] at h
      obtain ⟨_, _, -, _, -, heq⟩ := h
      cases heq
      exact ⟨rfl, rfl⟩
    | result =>
      rw [hkind] at h
      simp only [Except.bind_eq_ok_iff, Prod.exists] at h
      obtain ⟨_, _, -, heq⟩ := h
      cases heq
      exact ⟨rfl, rfl⟩
    | namePath | plain =>
      rw [hkind] at h
      cases h
      exact ⟨rfl, rfl⟩

theorem readTag_example {t : TagLines} {tag : Tag} (h : readTag t = .ok tag)
    (ht : t.title ∈ (["examples", "example"] : List Text)) : tag = verbatimTag t := by
  have hkind : TagKind.ofTitle t.title = .verbatim := by
    simp only [List.mem_cons, List.not_mem_nil, or_false] at ht
    obtain ht | ht := ht <;> rw [ht] <;> decide
  unfold readTag at h
  rw [hkind] at h
  split at h
  · cases h
  · cases h
    rfl

theorem canonicalTitle_example_iff (title : Text) :
    canonicalTitle title ∈ (["examples", "example"] : List Text)
      ↔ title ∈ (["examples", "example"] : List Text) := by
  unfold canonicalTitle
  split
  · next h => obtain rfl | rfl := h <;> decide
  split
  · next h => rw [h]; decide
  split
  · next h => rw [h]; decide
  split
  · next h => rw [h]; decide
  · rfl

theorem filter_of_mapM_readTag {ts : List TagLines} {tags : List Tag}
    (h : ts.mapM readTag = .ok tags) :
    (tags.filter fun tag => (["examples", "example"] : List Text).contains tag.title)
      = (ts.filter fun t => (["examples", "example"] : List Text).contains t.title).map
          verbatimTag := by
  induction ts generalizing tags with
  | nil =>
    cases h
    rfl
  | cons t ts ih =>
    rw [List.mapM_cons] at h
    simp only [Except.bind_eq_ok_iff] at h
    obtain ⟨tag, htag, rest, hrest, heq⟩ := h
    cases heq
    have htitle : (["examples", "example"] : List Text).contains tag.title
        = (["examples", "example"] : List Text).contains t.title := by
      rw [Bool.eq_iff_iff, List.contains_iff_mem, List.contains_iff_mem,
        (readTag_eq_ok htag).1, canonicalTitle_example_iff]
    rw [List.filter_cons, List.filter_cons, htitle, ih hrest]
    split
    · next hmem => rw [List.map_cons, readTag_example htag (List.contains_iff_mem.mp hmem)]
    · rfl

/-- **The tags with examples** are those that have such a title, with their code as it stands. -/
theorem findTags_example {ls : List Text} {doclet : Doclet} (h : docletOfLines ls = .ok doclet) :
    doclet.findTags ["examples", "example"]
      = ((divideTags 0 ls).2.filter
          fun t => (["examples", "example"] : List Text).contains t.title).map verbatimTag := by
  obtain ⟨tags, htags, heq⟩ := Except.bind_eq_ok_iff.mp h
  cases heq
  exact filter_of_mapM_readTag htags

end DocModel.Comment
