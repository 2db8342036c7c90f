import DocModel.Proofs.Display.Tokens
import DocModel.Proofs.Text.Classes
import DocModel.Proofs.Text.Edges
import DocModel.TypeExpr.Parser

/-!
# Blanks around a type expression

Blank characters between tokens are skipped, and so are those at the two ends of a text: a type
expression is read the same with and without them (`parse_strip`). That is plain for the front. At
the end it says that no token reaches into the blanks: a word ends before them, and
a literal that is not closed before them is not closed by them either.
-/

namespace DocModel

namespace TypeExpr

namespace Token

variable {k : Text}

/-- The first character of a blank text starts nothing and continues nothing. -/
theorem of_blank_cons {c : Char} (h : Text.blank (c :: k) = true) :
    isNameChar c = false ∧ isNameJoint c = false ∧ isNameStart c = false ∧
      Text.isDecimal c = false ∧ c ∉ "\\\x22\x27.<".toList ∧ c ∉ modulePrefix := by
  have hc : Text.isBlank c = true := List.all_eq_true.mp h c List.mem_cons_self
  have hother := Text.forall_isBlank
    (p := fun c => !isNameJoint c && !isNameStart c && c != '$' &&
      "\\\x22\x27.<".toList.all (· != c) && modulePrefix.all (· != c)) (by decide +kernel) hc
  simp only [Bool.and_eq_true, Bool.not_eq_true', bne_iff_ne, List.all_eq_true] at hother
  obtain ⟨⟨⟨⟨hjoint, hstart⟩, hdollar⟩, hmarks⟩, hmodule⟩ := hother
  refine ⟨?_, hjoint, hstart, Text.isDecimal_of_isBlank hc, fun h => hmarks c h rfl,
    fun h => hmodule c h rfl⟩
  rw [isNameChar, Text.isWordChar_of_isBlank hc]
  simpa using hdollar

theorem nameTail_of_blank (hk : Text.blank k = true) : nameTail k = ([], k) := by
  cases k with
  | nil => rfl
  | cons c k =>
    obtain ⟨hname, hjoint, -⟩ := of_blank_cons hk
    cases k with
    | nil => rw [nameTail, hname]; rfl
    | cons d k => rw [nameTail, hname, hjoint]; rfl

theorem nameTail_append_blank (hk : Text.blank k = true) (cs : Text) :
    nameTail (cs ++ k) = ((nameTail cs).1, (nameTail cs).2 ++ k) := by
  fun_induction nameTail cs with
  | case1 => exact nameTail_of_blank hk
  | case2 c hc =>
    rw [List.singleton_append, nameTail_cons hc, nameTail_of_blank hk]
    rfl
  | case3 c hc =>
    -- A joint at the end of the text is followed by a blank, or by nothing.
    cases k with
    | nil => rw [List.append_nil, nameTail, if_neg hc]
    | cons d k =>
      rw [List.singleton_append, nameTail, (of_blank_cons hk).1, Bool.and_false, Bool.or_false,
        if_neg hc]
  | case4 c d cs hcd tail rest heq ih =>
    rw [heq] at ih
    rw [List.cons_append, List.cons_append, nameTail, if_pos hcd, ← List.cons_append, ih]
  | case5 c d cs hcd =>
    rw [List.cons_append, List.cons_append, nameTail, if_neg hcd]

theorem literalTail_cons {mark c : Char} (hc : c ≠ '\\') (cs : Text) :
    literalTail mark (c :: cs) =
      if c == mark then some ([c], cs)
      else (literalTail mark cs).map fun (inside, rest) => (c :: inside, rest) := by
  rw [literalTail.eq_def]
  split
  · next heq => cases heq
  · next heq => exact absurd (List.cons.inj heq).1 hc
  · next heq =>
    cases heq
    have hback : (c == '\\') = false := by simpa using hc
    rw [hback]
    rfl

theorem literalTail_of_blank {mark : Char}
    (hmark : mark = Text.doubleQuote ∨ mark = Text.singleQuote) (hk : Text.blank k = true) :
    literalTail mark k = none := by
  induction k with
  | nil => rfl
  | cons c k ih =>
    obtain ⟨-, -, -, -, hc, -⟩ := of_blank_cons hk
    have hback : c ≠ '\\' := by
      rintro rfl
      exact hc (by decide)
    have hne : c ≠ mark := by
      rintro rfl
      exact hc (by obtain rfl | rfl := hmark <;> decide)
    rw [literalTail_cons hback, if_neg (by simpa using hne), ih (Bool.and_eq_true_iff.mp hk).2]
    rfl

theorem literalTail_append_blank {mark : Char}
    (hmark : mark = Text.doubleQuote ∨ mark = Text.singleQuote) (hk : Text.blank k = true)
    (cs : Text) :
    literalTail mark (cs ++ k)
      = (literalTail mark cs).map fun (inside, rest) => (inside, rest ++ k) := by
  fun_induction literalTail mark cs with
  | case1 => exact literalTail_of_blank hmark hk
  | case2 c cs hc => rw [List.cons_append, List.cons_append, literalTail, if_pos hc]; rfl
  | case3 c cs hc ih =>
    rw [List.cons_append, List.cons_append, literalTail, if_neg hc, ih, Option.map_map,
      Option.map_map]
    rfl
  | case4 c cs hescape hc =>
    have hback : c ≠ '\\' := by
      obtain rfl : c = mark := by simpa using hc
      obtain rfl | rfl := hmark <;> decide
    rw [List.cons_append, literalTail_cons hback, if_pos hc]
    rfl
  | case5 c cs hescape hne hc =>
    -- A backslash at the end of the text takes a blank with it, or nothing.
    obtain rfl : c = '\\' := by simpa using hc
    obtain rfl : cs = [] := by
      cases cs with
      | nil => rfl
      | cons d cs => exact absurd rfl (hescape d cs rfl)
    cases k with
    | nil => exact if_neg hne
    | cons d k =>
      have hrest : Text.blank k = true := (Bool.and_eq_true_iff.mp hk).2
      rw [List.singleton_append, literalTail, literalTail_of_blank hmark hrest]
      split <;> rfl
  | case6 c cs hescape hne hc ih =>
    rw [List.cons_append, literalTail_cons (by simpa using hc), if_neg hne, ih, Option.map_map,
      Option.map_map]
    rfl

theorem isPrefixOf?_append_blank (hk : Text.blank k = true) (cs : Text) :
    modulePrefix.isPrefixOf? (cs ++ k) = (modulePrefix.isPrefixOf? cs).map (· ++ k) := by
  cases h : modulePrefix.isPrefixOf? cs with
  | some rest =>
    rw [Text.isPrefixOf?_eq_some_iff.mp h]
    exact Text.isPrefixOf?_eq_some_iff.mpr (List.append_assoc _ _ _)
  | none =>
    rw [Option.map_none, Option.eq_none_iff_forall_ne_some]
    intro rest hrest
    obtain ⟨start, hmodule, rfl⟩ | ⟨start, rfl, -⟩ :=
      List.append_eq_append_iff.mp (Text.isPrefixOf?_eq_some_iff.mp hrest)
    · cases start with
      | nil =>
        rw [List.append_nil] at hmodule
        rw [Text.isPrefixOf?_eq_some_iff.mpr (hmodule.symm.trans (List.append_nil _).symm)] at h
        cases h
      | cons c start =>
        -- The introduction would go on with a blank.
        obtain ⟨-, -, -, -, -, hc⟩ := of_blank_cons hk
        exact hc (by rw [hmodule]; simp)
    · rw [Text.isPrefixOf?_eq_some_iff.mpr rfl] at h
      cases h

theorem readName?_plain_append_blank (hk : Text.blank k = true) (cs : Text) :
    readName?.plain (cs ++ k)
      = (readName?.plain cs).map fun (w, rest) => (w, rest ++ k) := by
  cases cs with
  | nil =>
    cases k with
    | nil => rfl
    | cons c k =>
      obtain ⟨-, -, hstart, -⟩ := of_blank_cons hk
      exact if_neg (Bool.eq_false_iff.mp hstart)
  | cons c cs =>
    rw [List.cons_append, readName?.plain, readName?.plain, nameTail_append_blank hk]
    by_cases hc : isNameStart c = true
    · rw [if_pos hc, if_pos hc]
      rfl
    · rw [if_neg hc, if_neg hc]
      rfl

theorem readName?_append_blank (hk : Text.blank k = true) (cs : Text) :
    readName? (cs ++ k) = (readName? cs).map fun (w, rest) => (w, rest ++ k) := by
  have hplain := readName?_plain_append_blank hk cs
  unfold readName?
  rw [isPrefixOf?_append_blank hk]
  cases modulePrefix.isPrefixOf? cs with
  | none => exact hplain
  | some rest =>
    cases rest with
    | nil =>
      cases k with
      | nil => exact hplain
      | cons c k =>
        obtain ⟨-, -, hstart, -⟩ := of_blank_cons hk
        exact (if_neg (Bool.eq_false_iff.mp hstart)).trans hplain
    | cons c rest =>
      rw [Option.map_some, List.cons_append]
      dsimp only
      rw [nameTail_append_blank hk]
      by_cases hc : isNameStart c = true
      · rw [if_pos hc, if_pos hc]
        rfl
      · rw [if_neg hc, if_neg hc]
        exact hplain

theorem decimal_append_blank (hk : Text.blank k = true) (cs : Text) :
    (cs ++ k).takeWhile Text.isDecimal = cs.takeWhile Text.isDecimal ∧
      (cs ++ k).dropWhile Text.isDecimal = cs.dropWhile Text.isDecimal ++ k := by
  induction cs with
  | nil =>
    cases k with
    | nil => exact ⟨rfl, rfl⟩
    | cons c k =>
      obtain ⟨-, -, -, hc, -⟩ := of_blank_cons hk
      have hc := Bool.eq_false_iff.mp hc
      exact ⟨List.takeWhile_cons_of_neg hc, List.dropWhile_cons_of_neg hc⟩
  | cons c cs ih =>
    by_cases hc : Text.isDecimal c = true
    · rw [List.cons_append, List.takeWhile_cons_of_pos hc, List.takeWhile_cons_of_pos hc,
        List.dropWhile_cons_of_pos hc, List.dropWhile_cons_of_pos hc]
      exact ⟨congrArg (c :: ·) ih.1, ih.2⟩
    · rw [List.cons_append, List.takeWhile_cons_of_neg hc, List.takeWhile_cons_of_neg hc,
        List.dropWhile_cons_of_neg hc, List.dropWhile_cons_of_neg hc]
      exact ⟨rfl, rfl⟩

/-- Blanks do not put a point or an angle after a text that has none. -/
theorem not_next (hk : Text.blank k = true) {x : Char} (hx : x = '.' ∨ x = '<') {cs : Text}
    (h : ¬ ∃ rest, cs = x :: rest) : ¬ ∃ rest, cs ++ k = x :: rest := by
  rintro ⟨rest, heq⟩
  cases cs with
  | cons c cs => exact h ⟨cs, by rw [(List.cons.inj heq).1]⟩
  | nil =>
    rw [List.nil_append] at heq
    subst heq
    obtain ⟨-, -, -, -, hc, -⟩ := of_blank_cons hk
    exact hc (by obtain rfl | rfl := hx <;> decide)

theorem readNumber?_append_blank (hk : Text.blank k = true) (cs : Text) :
    readNumber? (cs ++ k) = (readNumber? cs).map fun (w, rest) => (w, rest ++ k) := by
  obtain ⟨htake, hdrop⟩ := decimal_append_blank hk cs
  unfold readNumber?
  rw [htake, hdrop]
  by_cases hwhole : (cs.takeWhile Text.isDecimal).isEmpty = true
  · rw [if_pos hwhole, if_pos hwhole]
    rfl
  · rw [if_neg hwhole, if_neg hwhole]
    by_cases hdot : ∃ rest, cs.dropWhile Text.isDecimal = '.' :: rest
    · obtain ⟨rest, hrest⟩ := hdot
      obtain ⟨hplaces, hend⟩ := decimal_append_blank hk rest
      rw [hrest, List.cons_append]
      show (if ((rest ++ k).takeWhile Text.isDecimal).isEmpty then _ else _)
        = Option.map _ (if (rest.takeWhile Text.isDecimal).isEmpty then _ else _)
      rw [hplaces, hend]
      by_cases hempty : (rest.takeWhile Text.isDecimal).isEmpty = true
      · rw [if_pos hempty, if_pos hempty]
        rfl
      · rw [if_neg hempty, if_neg hempty]
        rfl
    · split
      · next rest hrest => exact absurd ⟨rest, hrest⟩ (not_next hk (.inl rfl) hdot)
      · split
        · next rest hrest => exact absurd ⟨rest, hrest⟩ hdot
        · rfl

theorem read?_dot {cs : Text} (hangle : ¬ ∃ rest, cs = '<' :: rest)
    (hdots : ¬ ∃ rest, cs = '.' :: '.' :: rest) : read? ('.' :: cs) = none := by
  have hname : readName? ('.' :: cs) = none := readName?_eq_none_iff.mpr rfl
  have hnumber : readNumber? ('.' :: cs) = none := by
    unfold readNumber?
    rw [List.takeWhile_cons_of_neg (by decide)]
    rfl
  rw [read?.eq_def]
  split
  · rfl
  · next rest heq => exact absurd ⟨rest, (List.cons.inj heq).2⟩ hdots
  · next rest heq => exact absurd ⟨rest, (List.cons.inj heq).2⟩ hangle
  · next heq =>
    cases heq
    rw [hname, hnumber]
    rfl

/-- **No token reaches into the blanks at the end of a text.** -/
theorem read?_append_blank (hk : Text.blank k = true) (c : Char) (cs : Text) :
    read? (c :: cs ++ k) = (read? (c :: cs)).map fun (token, rest) => (token, rest ++ k) := by
  rw [List.cons_append]
  by_cases hdot : c = '.'
  · subst hdot
    by_cases hangle : ∃ rest, cs = '<' :: rest
    · obtain ⟨rest, rfl⟩ := hangle
      rfl
    · by_cases hdots : ∃ rest, cs = '.' :: '.' :: rest
      · obtain ⟨rest, rfl⟩ := hdots
        rfl
      · rw [read?_dot hangle hdots, read?_dot (not_next hk (.inr rfl) hangle)]
        · rfl
        · rintro ⟨rest, heq⟩
          by_cases hdot : ∃ more, cs = '.' :: more
          · obtain ⟨more, rfl⟩ := hdot
            have hmore : ¬ ∃ rest, more = '.' :: rest := fun ⟨rest, h⟩ => hdots ⟨rest, by rw [h]⟩
            exact not_next hk (.inl rfl) hmore ⟨rest, (List.cons.inj heq).2⟩
          · exact not_next hk (.inl rfl) hdot ⟨_, heq⟩
  · rw [read?_cons hdot, read?_cons hdot]
    by_cases hquote : (c == Text.doubleQuote || c == Text.singleQuote) = true
    · have hmark : c = Text.doubleQuote ∨ c = Text.singleQuote := by simpa using hquote
      rw [if_pos hquote, if_pos hquote, literalTail_append_blank hmark hk, Option.map_map,
        Option.map_map]
      rfl
    · rw [if_neg hquote, if_neg hquote]
      by_cases hmark : isMark c = true
      · rw [if_pos hmark, if_pos hmark]
        rfl
      · rw [if_neg hmark, if_neg hmark, ← List.cons_append, readWord?, readWord?,
          readName?_append_blank hk, readNumber?_append_blank hk, ← Option.map_or, Option.map_map,
          Option.map_map]
        rfl

/-! ## All tokens -/

theorem tokens_stripLeft (cs : Text) : tokens (Text.stripLeft cs) = tokens cs := by
  induction cs with
  | nil => rfl
  | cons c cs ih =>
    by_cases hc : Text.isBlank c = true
    · rw [tokens_blank hc, ← ih, Text.stripLeft, List.dropWhile_cons_of_pos hc]
      rfl
    · rw [Text.stripLeft_cons (Bool.eq_false_iff.mpr hc)]

theorem tokens_of_read?_none {c : Char} {cs : Text} (hc : Text.isBlank c = false)
    (h : read? (c :: cs) = none) : tokens (c :: cs) = .error c := by
  rw [tokens, List.length_cons, scan, Text.stripLeft_cons hc]
  dsimp only
  rw [h]

/-- **Blanks at the end of a text make no difference to its tokens.** -/
theorem tokens_append_blank (hk : Text.blank k = true) (cs : Text) :
    tokens (cs ++ k) = tokens cs := by
  rw [← tokens_stripLeft (cs ++ k), ← tokens_stripLeft cs]
  cases hcs : Text.stripLeft cs with
  | nil =>
    have hboth : Text.stripLeft (cs ++ k) = [] := by
      rw [Text.stripLeft_eq_nil_iff, Text.blank, List.all_append]
      exact Bool.and_eq_true_iff.mpr ⟨Text.stripLeft_eq_nil_iff.mp hcs, hk⟩
    rw [hboth]
  | cons c cs' =>
    have hc : Text.isBlank c = false := Text.not_isBlank_of_stripLeft hcs
    rw [Text.stripLeft_append_of_cons hcs, ← List.cons_append]
    have hread := read?_append_blank hk c cs'
    cases h : read? (c :: cs') with
    | none =>
      rw [h] at hread
      rw [tokens_of_read?_none hc h]
      exact tokens_of_read?_none hc hread
    | some taken =>
      rw [h] at hread
      rw [tokens_of_read? hc h, ← tokens_append_blank hk taken.2]
      exact tokens_of_read? hc hread
termination_by cs.length
decreasing_by
  have hle := (Text.stripLeft_suffix cs).length_le
  rw [hcs] at hle
  exact Nat.lt_of_lt_of_le (length_lt_of_read? h) hle

end Token

/-- **Blanks around a type expression make no difference.** -/
theorem parse_strip (source : Text) : parse (Text.strip source) = parse source := by
  obtain ⟨k, hk, hsource⟩ := Text.exists_blank_end (Text.stripLeft source)
  have htokens : Token.tokens (Text.strip source) = Token.tokens source := by
    rw [← Token.tokens_stripLeft source, hsource, Token.tokens_append_blank hk]
    rfl
  rw [parse, htokens]
  rfl

end TypeExpr

end DocModel
