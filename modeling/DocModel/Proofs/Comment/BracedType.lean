import DocModel.Comment.Parser
import DocModel.Proofs.Grammar.BlankEnds
import DocModel.Proofs.Grammar.Braces

/-!
# The type between the braces of a tag

A tag gives its type in braces, and the type ends at the brace that closes the first one. Where
that is depends on who reads the text. The brace is found by counting all braces, while for the
type expression a brace in a quoted literal is a character like any other. So the type of a
tag is the one that was written exactly if the braces of the type expression are balanced when all
of them are counted (`takeType_of_parse`). That is the case whenever the braces of each literal
are, whatever records the type has; but a literal that holds a single brace cuts the type short
(`takeType_quoted_brace`).
-/

namespace DocModel.Comment

open Text

/-! ## The closing brace -/

theorem matchBrace_cons_of_other {c : Char} (hc : isBrace c = false) (depth : Nat) (cs : Text) :
    matchBrace depth (c :: cs)
      = (matchBrace depth cs).map fun (inside, after) => (c :: inside, after) := by
  obtain ⟨hopen, hclose⟩ : (c == '\x7b') = false ∧ (c == '\x7d') = false := by
    simpa [isBrace] using hc
  rw [matchBrace.eq_def]
  show (if (c == '\x7b') = true then _ else if (c == '\x7d') = true then _ else _) = _
  rw [hopen, hclose]
  rfl

/-- Balanced braces are passed over. -/
theorem matchBrace_of_closes {depth : Nat} {t : Text} (h : Closes depth t) (rest : Text) :
    matchBrace depth (t ++ '\x7d' :: rest) = some (t, rest) := by
  induction t generalizing depth with
  | nil =>
    obtain rfl := closes_nil_iff.mp h
    rfl
  | cons c t ih =>
    rw [List.cons_append]
    by_cases hopen : c = '\x7b'
    · subst hopen
      show (matchBrace (depth + 1) (t ++ '\x7d' :: rest)).map _ = _
      rw [ih (closes_open_iff.mp h)]
      rfl
    · by_cases hclose : c = '\x7d'
      · subst hclose
        obtain ⟨depth, rfl, htail⟩ := closes_close_iff.mp h
        show (matchBrace depth (t ++ '\x7d' :: rest)).map _ = _
        rw [ih htail]
        rfl
      · have hc : isBrace c = false := by simp [isBrace, hopen, hclose]
        rw [matchBrace_cons_of_other hc, ih ((closes_other_iff hc).mp h)]
        rfl

/-- **The braces between two partners are balanced.** -/
theorem matchBrace_eq_some {depth : Nat} {t inside after : Text}
    (h : matchBrace depth t = some (inside, after)) :
    t = inside ++ '\x7d' :: after ∧ Closes depth inside := by
  induction t generalizing depth inside with
  | nil => cases h
  | cons c t ih =>
    by_cases hopen : c = '\x7b'
    · subst hopen
      obtain ⟨⟨start, rest⟩, hmatch, heq⟩ := Option.map_eq_some_iff.mp h
      cases heq
      obtain ⟨rfl, hcloses⟩ := ih hmatch
      exact ⟨rfl, closes_open_iff.mpr hcloses⟩
    · by_cases hclose : c = '\x7d'
      · subst hclose
        cases depth with
        | zero =>
          cases h
          exact ⟨rfl, closes_nil_iff.mpr rfl⟩
        | succ depth =>
          obtain ⟨⟨start, rest⟩, hmatch, heq⟩ := Option.map_eq_some_iff.mp h
          cases heq
          obtain ⟨rfl, hcloses⟩ := ih hmatch
          exact ⟨rfl, closes_close_iff.mpr ⟨depth, rfl, hcloses⟩⟩
      · have hc : isBrace c = false := by simp [isBrace, hopen, hclose]
        rw [matchBrace_cons_of_other hc] at h
        obtain ⟨⟨start, rest⟩, hmatch, heq⟩ := Option.map_eq_some_iff.mp h
        cases heq
        obtain ⟨rfl, hcloses⟩ := ih hmatch
        exact ⟨rfl, (closes_other_iff hc).mpr hcloses⟩

/-! ## The type -/

theorem count_of_blank {c : Char} (hc : isBlank c = false) {t : Text} (h : blank t = true) :
    t.count c = 0 :=
  List.count_eq_zero.mpr fun hmem => by
    rw [List.all_eq_true.mp h c hmem] at hc
    cases hc

/-- Stripping a text takes only blanks away. -/
theorem count_strip {c : Char} (hc : isBlank c = false) (t : Text) :
    (strip t).count c = t.count c := by
  obtain ⟨k, hk, hend⟩ := exists_blank_end (stripLeft t)
  have hstart : blank (t.takeWhile isBlank) = true := List.all_eq_true.mpr fun c hc =>
    List.mem_takeWhile_imp hc
  have hparts : t = t.takeWhile isBlank ++ (strip t ++ k) := by
    rw [strip, ← hend, stripLeft, List.takeWhile_append_dropWhile]
  have hcount := congrArg (List.count c) hparts
  rw [List.count_append, List.count_append, count_of_blank hc hstart, count_of_blank hc hk,
    Nat.zero_add, Nat.add_zero] at hcount
  exact hcount.symm

/-- **A type in balanced braces is read as it stands.** -/
theorem takeType_of_balanced {source : Text} {t : TypeExpr} (h : TypeExpr.parse source = .ok t)
    (hbalanced : Balanced source) (rest : Text) :
    takeType ('\x7b' :: (source ++ '\x7d' :: rest)) = .ok (some t, strip rest) := by
  simp only [takeType, matchBrace_of_closes hbalanced, TypeExpr.parse_strip, h]

/-- A type that is read ends at a brace, and the text after that is left. -/
theorem takeType_eq_ok {cs remainder : Text} {type? : Option TypeExpr}
    (h : takeType ('\x7b' :: cs) = .ok (type?, remainder)) :
    ∃ inside after, matchBrace 0 cs = some (inside, after) ∧ remainder = strip after := by
  simp only [takeType] at h
  split at h
  · cases h
  · next inside after hmatch =>
    split at h
    · cases h
    · cases h
      exact ⟨inside, after, hmatch, rfl⟩

/-- Two places in a text at which a brace closes are the same if as many follow after both. -/
theorem eq_of_count_eq {t u rest after : Text} (h : t ++ '\x7d' :: rest = u ++ '\x7d' :: after)
    (hcount : rest.count '\x7d' = after.count '\x7d') : t = u := by
  -- If one place is further to the left, the brace at the other one follows after it.
  have hfurther {between rest after : Text} (h : '\x7d' :: rest = between ++ '\x7d' :: after)
      (hcount : rest.count '\x7d' = after.count '\x7d') : between = [] := by
    cases between with
    | nil => rfl
    | cons c between =>
      have htail : rest = between ++ '\x7d' :: after := (List.cons.inj h).2
      rw [htail, List.count_append, List.count_cons_self] at hcount
      omega
  obtain ⟨between, rfl, hbetween⟩ | ⟨between, rfl, hbetween⟩ := List.append_eq_append_iff.mp h
  · rw [hfurther hbetween hcount, List.append_nil]
  · rw [hfurther hbetween hcount.symm, List.append_nil]

/-- A type that does not end at the brace it should leaves another text behind. -/
theorem balanced_of_takeType {source rest : Text} {type? : Option TypeExpr}
    (h : takeType ('\x7b' :: (source ++ '\x7d' :: rest)) = .ok (type?, strip rest)) :
    Balanced source := by
  obtain ⟨inside, after, hmatch, hrest⟩ := takeType_eq_ok h
  obtain ⟨heq, hbalanced⟩ := matchBrace_eq_some hmatch
  have hcount : rest.count '\x7d' = after.count '\x7d' := by
    rw [← count_strip (by decide) rest, hrest, count_strip (by decide)]
  rw [eq_of_count_eq heq hcount]
  exact hbalanced

/-- **When the type of a tag is the one between its braces**: if the braces of its text are
balanced, those in literals counted like all others. They are if those of each literal are. -/
theorem takeType_of_parse (source : Text) (t : TypeExpr) (h : TypeExpr.parse source = .ok t) :
    (∀ rest, takeType ('\x7b' :: (source ++ '\x7d' :: rest)) = .ok (some t, strip rest)
        ↔ Balanced source) ∧
      ((∀ ts text, TypeExpr.Token.tokens source = .ok ts → .literal text ∈ ts → Balanced text) →
        Balanced source) :=
  ⟨fun rest => ⟨balanced_of_takeType, fun hbalanced => takeType_of_balanced h hbalanced rest⟩,
    TypeExpr.balanced_of_parse h⟩

/-- A record whose key is a literal with both braces in it. -/
def quotedRecord : Text := "\x7b'\x7ba\x7d': \x7bb: c\x7d\x7d"

/-- Braces in a literal do no harm if they are balanced. -/
theorem takeType_of_parse_record :
    ∃ t, TypeExpr.parse quotedRecord = .ok t ∧
      takeType ('\x7b' :: (quotedRecord ++ '\x7d' :: "  x\x7d ".toList))
        = .ok (some t, "x\x7d".toList) := by
  obtain ⟨t, ht⟩ : ∃ t, TypeExpr.parse quotedRecord = .ok t := ⟨_, rfl⟩
  obtain ⟨hiff, hliterals⟩ := takeType_of_parse quotedRecord t ht
  refine ⟨t, ht, (hiff "  x\x7d ").mpr (hliterals fun ts text hts htext => ?_)⟩
  have htokens : TypeExpr.Token.tokens quotedRecord
      = .ok [.mark '\x7b', .literal "'\x7ba\x7d'", .mark ':', .mark '\x7b', .word "b", .mark ':',
          .word "c", .mark '\x7d', .mark '\x7d'] := rfl
  rw [htokens] at hts
  cases hts
  obtain rfl : text = "'\x7ba\x7d'" := by simpa using htext
  exact (matchBrace_eq_some (t := "'\x7ba\x7d'\x7d".toList) rfl).2

/-- **A brace in quotes cuts the type short**: the literal is a type, but not in the braces of a
tag. -/
theorem takeType_quoted_brace :
    TypeExpr.parse "'\x7d'" = .ok (.name "'\x7d'") ∧
      takeType "\x7b'\x7d'\x7d" = .error (.badType "'" (.strayChar '\x27')) :=
  ⟨rfl, rfl⟩

end DocModel.Comment
