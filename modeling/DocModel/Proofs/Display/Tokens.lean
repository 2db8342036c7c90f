import DocModel.Proofs.Basic
import DocModel.TypeExpr.Token

/-!
# Cutting a text into tokens

A token is a piece of the text (`read?_eq_append`), and reading it again from that piece alone
gives the same token (`read?_append`), as long as the text that follows cannot go on with a word.
A text that is put together from tokens is therefore cut into exactly these tokens, which is
what the display form of a type relies on: it writes names side by side with marks and without
any space.
-/

namespace DocModel.TypeExpr.Token

/-! ## Nothing is lost -/

theorem literalTail_eq_append {mark : Char} {cs inside rest : Text}
    (h : literalTail mark cs = some (inside, rest)) : cs = inside ++ rest := by
  fun_induction literalTail mark cs generalizing inside with
  | case1 => cases h
  | case2 c cs hc => cases h
  | case3 c cs hc ih =>
    obtain ⟨⟨i, r⟩, hi, heq⟩ := Option.map_eq_some_iff.mp h
    cases heq
    rw [ih hi]
    rfl
  | case4 c cs _ hc =>
    cases h
    rfl
  | case5 => cases h
  | case6 c cs _ _ _ ih =>
    obtain ⟨⟨i, r⟩, hi, heq⟩ := Option.map_eq_some_iff.mp h
    cases heq
    rw [ih hi]
    rfl

/-- A literal ends at its closing mark, whatever follows. -/
theorem literalTail_append {mark : Char} {cs inside rest : Text} (hmark : mark ≠ '\\')
    (h : literalTail mark cs = some (inside, rest)) (k : Text) :
    literalTail mark (inside ++ k) = some (inside, k) := by
  fun_induction literalTail mark cs generalizing inside with
  | case1 => cases h
  | case2 c cs hc => cases h
  | case3 c cs hc ih =>
    obtain ⟨⟨i, r⟩, hi, heq⟩ := Option.map_eq_some_iff.mp h
    cases heq
    simp [literalTail, hc, ih hi]
  | case4 c cs hne hc =>
    cases h
    obtain rfl : c = mark := by simpa using hc
    rw [List.singleton_append, literalTail, if_pos (by simp)]
    exact fun _ _ h => absurd h hmark
  | case5 => cases h
  | case6 c cs hne _ _ ih =>
    obtain ⟨⟨i, r⟩, hi, heq⟩ := Option.map_eq_some_iff.mp h
    cases heq
    rw [List.cons_append, literalTail, if_neg ‹_›, if_neg ‹_›, ih hi]
    · rfl
    · intro _ _ h
      simp_all

theorem nameTail_append_eq (cs : Text) : (nameTail cs).1 ++ (nameTail cs).2 = cs := by
  fun_induction nameTail cs with
  | case1 | case2 | case3 | case5 => rfl
  | case4 c d cs hc tail rest heq ih =>
    rw [heq] at ih
    exact congrArg (c :: ·) ih

theorem readName?_plain_eq {cs w rest : Text} (h : readName?.plain cs = some (w, rest)) :
    ∃ c tail, w = c :: tail ∧ isNameStart c ∧ cs = c :: (tail ++ rest) ∧
      nameTail (tail ++ rest) = (tail, rest) := by
  cases cs with
  | nil => cases h
  | cons c cs =>
    simp only [readName?.plain] at h
    split at h
    · next hc =>
      cases h
      exact ⟨c, _, rfl, hc, by rw [nameTail_append_eq], by rw [nameTail_append_eq]⟩
    · cases h

/-- A name is introduced as that of a module, or starts by itself. -/
theorem readName?_eq {cs w rest : Text} (h : readName? cs = some (w, rest)) :
    (∃ c tail, w = modulePrefix ++ c :: tail ∧ isNameStart c ∧ cs = w ++ rest ∧
      nameTail (tail ++ rest) = (tail, rest)) ∨ readName?.plain cs = some (w, rest) := by
  unfold readName? at h
  split at h
  · next c r hr =>
    split at h
    · next hc =>
      cases h
      refine .inl ⟨c, _, rfl, hc, ?_, by rw [nameTail_append_eq]⟩
      rw [Text.isPrefixOf?_eq_some_iff.mp hr, List.append_assoc, List.cons_append,
        nameTail_append_eq]
    · exact .inr h
  · exact .inr h

theorem readNumber?_eq_append {cs w rest : Text} (h : readNumber? cs = some (w, rest)) :
    cs = w ++ rest := by
  have hcs := List.takeWhile_append_dropWhile (p := Text.isDecimal) (l := cs)
  unfold readNumber? at h
  simp only at h
  split at h
  · cases h
  · split at h
    · next r hr =>
      rw [hr] at hcs
      split at h
      · cases h
        exact hcs.symm
      · cases h
        rw [List.append_assoc, List.cons_append, List.takeWhile_append_dropWhile, hcs]
    · cases h
      exact hcs.symm

/-- The word at the front of a text. -/
def readWord? (cs : Text) : Option (Text × Text) := (readName? cs).or (readNumber? cs)

theorem readWord?_eq_append {cs w rest : Text} (h : readWord? cs = some (w, rest)) :
    cs = w ++ rest := by
  rcases Option.or_eq_some_iff.mp h with hw | ⟨-, hw⟩
  · rcases readName?_eq hw with ⟨_, _, _, _, hcs, _⟩ | hplain
    · exact hcs
    · obtain ⟨c, tail, rfl, -, hcs, -⟩ := readName?_plain_eq hplain
      exact hcs
  · exact readNumber?_eq_append hw

/-- **A token is a part of the text, and the rest is the rest.** -/
theorem read?_eq_append {cs rest : Text} {token : Token} (h : read? cs = some (token, rest)) :
    cs = token.text ++ rest := by
  unfold read? at h
  split at h
  · cases h
  · cases h
    rfl
  · cases h
    rfl
  · split at h
    · obtain ⟨⟨i, r⟩, hi, heq⟩ := Option.map_eq_some_iff.mp h
      cases heq
      rw [literalTail_eq_append hi]
      rfl
    · split at h
      · cases h
        rfl
      · obtain ⟨⟨w, r⟩, hw, heq⟩ := Option.map_eq_some_iff.mp h
        cases heq
        exact readWord?_eq_append hw

/-! ## Where a word ends -/

/-- Whether a text cannot go on with a word that stands before it. -/
def endsWord : Text → Bool
  | [] => true
  | '.' :: '<' :: _ => true
  | c :: _ => "|,()]>".toList.contains c

theorem endsWord_cases {k : Text} (h : endsWord k) :
    k = [] ∨ (∃ cs, k = '.' :: '<' :: cs) ∨ ∃ c cs, k = c :: cs ∧ c ∈ "|,()]>".toList := by
  unfold endsWord at h
  split at h
  · exact .inl rfl
  · next cs => exact .inr (.inl ⟨cs, rfl⟩)
  · next c cs _ => exact .inr (.inr ⟨c, cs, rfl, List.contains_iff_mem.mp h⟩)

theorem not_nameChar_of_ending : ∀ c ∈ "|,()]>".toList,
    isNameChar c = false ∧ isNameJoint c = false ∧ Text.isDecimal c = false :=
  List.forall_mem_of_all (by decide)

theorem nameTail_of_endsWord {k : Text} (h : endsWord k) : nameTail k = ([], k) := by
  rcases endsWord_cases h with rfl | ⟨cs, rfl⟩ | ⟨c, cs, rfl, hc⟩
  · rfl
  · have hdot : isNameChar '.' = false := by decide
    have hangle : isNameChar '<' = false := by decide
    simp [nameTail, hdot, hangle]
  · obtain ⟨h₁, h₂, -⟩ := not_nameChar_of_ending c hc
    cases cs <;> simp [nameTail, h₁, h₂]

theorem nameTail_cons {c : Char} (hc : isNameChar c) (cs : Text) :
    nameTail (c :: cs) = (c :: (nameTail cs).1, (nameTail cs).2) := by
  cases cs <;> simp [nameTail, hc]

theorem nameTail_joint {c d : Char} (hc : isNameJoint c) (hd : isNameChar d) (cs : Text) :
    nameTail (c :: d :: cs) = (c :: (nameTail (d :: cs)).1, (nameTail (d :: cs)).2) := by
  simp [nameTail, hc, hd]

/-- The rest of a name stays the rest of a name before any text that ends a word. -/
theorem nameTail_append (cs : Text) {k : Text} (hk : endsWord k) :
    nameTail ((nameTail cs).1 ++ k) = ((nameTail cs).1, k) := by
  fun_induction nameTail cs with
  | case1 => exact nameTail_of_endsWord hk
  | case2 c hc =>
    rw [List.singleton_append, nameTail_cons hc, nameTail_of_endsWord hk]
  | case3 c hc => exact nameTail_of_endsWord hk
  | case4 c d cs hcd tail rest heq ih =>
    rw [heq] at ih
    simp only at ih ⊢
    by_cases hc : isNameChar c
    · rw [List.cons_append, nameTail_cons hc, ih]
    · -- At a joint the name goes on with the character after it.
      obtain ⟨hjoint, hd⟩ : isNameJoint c ∧ isNameChar d := by simpa [hc] using hcd
      obtain ⟨tail', rfl⟩ : ∃ tail', tail = d :: tail' := by
        rw [nameTail_cons hd] at heq
        exact ⟨_, (congrArg Prod.fst heq).symm⟩
      rw [List.cons_append, List.cons_append, nameTail_joint hjoint hd, ← List.cons_append, ih]
  | case5 => exact nameTail_of_endsWord hk

theorem notMem_nameTail {x : Char} (hname : isNameChar x = false) (hjoint : isNameJoint x = false)
    (cs : Text) : x ∉ (nameTail cs).1 := by
  fun_induction nameTail cs with
  | case1 | case3 | case5 => simp
  | case2 c hc =>
    rw [List.mem_singleton]
    rintro rfl
    simp [hname] at hc
  | case4 c d cs hcd tail rest heq ih =>
    rw [heq] at ih
    simp only [List.mem_cons, not_or]
    refine ⟨?_, ih⟩
    rintro rfl
    simp [hname, hjoint] at hcd

/-- A word without a colon is not the start of a module's name. -/
theorem not_modulePrefix {w k : Text} (hw : ':' ∉ w) (hk : endsWord k) :
    modulePrefix.isPrefixOf? (w ++ k) = none := by
  rw [Option.eq_none_iff_forall_ne_some]
  intro rest h
  have hcolon : ':' ∈ modulePrefix := by decide
  rcases List.append_eq_append_iff.mp (Text.isPrefixOf?_eq_some_iff.mp h) with
    ⟨as, hmod, rfl⟩ | ⟨bs, rfl, -⟩
  · cases as with
    | nil =>
      rw [List.append_nil] at hmod
      exact hw (hmod ▸ hcolon)
    | cons c cs =>
      -- The text that ends the word would go on with a letter of the introduction.
      have hc : c ∈ modulePrefix := by rw [hmod]; simp
      have hnot : ∀ c ∈ modulePrefix, c ≠ '.' ∧ c ∉ "|,()]>".toList :=
        List.forall_mem_of_all (by decide)
      rcases endsWord_cases hk with h | ⟨cs', h⟩ | ⟨d, cs', h, hd⟩
      · cases h
      · exact (hnot c hc).1 (List.cons.inj h).1
      · exact (hnot c hc).2 ((List.cons.inj h).1 ▸ hd)
  · exact hw (List.mem_append_left _ hcolon)

/-! ## Reading a token again -/

theorem readName?_eq_none_iff {c : Char} {cs : Text} :
    readName? (c :: cs) = none ↔ isNameStart c = false := by
  have hplain : readName?.plain (c :: cs) = none ↔ isNameStart c = false := by
    simp only [readName?.plain]
    split <;> simp_all
  unfold readName?
  split
  · next d rest h =>
    split
    · have hc : c = 'm' := (List.cons.inj (Text.isPrefixOf?_eq_some_iff.mp h)).1
      subst hc
      simp [show isNameStart 'm' = true by decide]
    · exact hplain
  · exact hplain

theorem readName?_append {cs w rest k : Text} (h : readName? cs = some (w, rest))
    (hk : endsWord k) : readName? (w ++ k) = some (w, k) := by
  rcases readName?_eq h with ⟨c, tail, rfl, hc, -, htail⟩ | hplain
  · have hintro : modulePrefix.isPrefixOf? (modulePrefix ++ c :: tail ++ k)
        = some (c :: (tail ++ k)) :=
      Text.isPrefixOf?_eq_some_iff.mpr (by simp)
    have hagain := nameTail_append (tail ++ rest) hk
    rw [htail] at hagain
    simp only [readName?, hintro, hc, if_true, hagain]
  · obtain ⟨c, tail, rfl, hc, -, htail⟩ := readName?_plain_eq hplain
    have hcolon : ':' ∉ c :: tail := by
      have := notMem_nameTail (x := ':') (by decide) (by decide) (tail ++ rest)
      rw [htail] at this
      have hstart : isNameStart ':' = false := by decide
      simp only [List.mem_cons, not_or]
      refine ⟨?_, this⟩
      rintro rfl
      simp [hstart] at hc
    have hagain := nameTail_append (tail ++ rest) hk
    rw [htail] at hagain
    unfold readName?
    rw [not_modulePrefix hcolon hk]
    simp only [List.cons_append, readName?.plain, hc, if_true, hagain]

theorem takeWhile_decimal_append {ds k : Text} (hds : ∀ d ∈ ds, Text.isDecimal d)
    (hk : endsWord k) :
    (ds ++ k).takeWhile Text.isDecimal = ds ∧ (ds ++ k).dropWhile Text.isDecimal = k := by
  rw [List.takeWhile_append_of_pos hds, List.dropWhile_append_of_pos hds]
  rcases endsWord_cases hk with rfl | ⟨cs, rfl⟩ | ⟨c, cs, rfl, hc⟩
  · simp
  · have hdot : Text.isDecimal '.' = false := by decide
    simp [hdot]
  · simp [(not_nameChar_of_ending c hc).2.2]

theorem readNumber?_whole {ds k : Text} (hds : ∀ d ∈ ds, Text.isDecimal d)
    (hne : ds.isEmpty = false) (hk : endsWord k) : readNumber? (ds ++ k) = some (ds, k) := by
  obtain ⟨ht, hd⟩ := takeWhile_decimal_append hds hk
  have hangle : Text.isDecimal '<' = false := by decide
  simp only [readNumber?, ht, hd, hne]
  rcases endsWord_cases hk with rfl | ⟨cs, rfl⟩ | ⟨c, cs, rfl, hc⟩
  · simp
  · simp [hangle]
  · have hdot : c ≠ '.' := by
      rintro rfl
      exact absurd hc (by decide)
    simp [hdot]

theorem readNumber?_places {ds es k : Text} (hds : ∀ d ∈ ds, Text.isDecimal d)
    (hne : ds.isEmpty = false) (hes : ∀ e ∈ es, Text.isDecimal e) (hne' : es.isEmpty = false)
    (hk : endsWord k) : readNumber? (ds ++ '.' :: es ++ k) = some (ds ++ '.' :: es, k) := by
  obtain ⟨ht, hd⟩ := takeWhile_decimal_append hes hk
  have hdot : Text.isDecimal '.' = false := by decide
  have htake : (ds ++ '.' :: (es ++ k)).takeWhile Text.isDecimal = ds := by
    rw [List.takeWhile_append_of_pos hds]
    simp [hdot]
  have hdrop : (ds ++ '.' :: (es ++ k)).dropWhile Text.isDecimal = '.' :: (es ++ k) := by
    rw [List.dropWhile_append_of_pos hds]
    simp [hdot]
  rw [List.append_assoc, List.cons_append]
  simp [readNumber?, htake, hdrop, ht, hd, hne, hne']

theorem readNumber?_append {cs w rest k : Text} (h : readNumber? cs = some (w, rest))
    (hk : endsWord k) : readNumber? (w ++ k) = some (w, k) := by
  have hall : ∀ (t : Text), ∀ d ∈ t.takeWhile Text.isDecimal, Text.isDecimal d :=
    fun t => List.all_eq_true.mp List.all_takeWhile
  unfold readNumber? at h
  simp only at h
  split at h
  · cases h
  · next hne =>
    have hne := Bool.eq_false_iff.mpr hne
    split at h
    · next r hr =>
      split at h
      · cases h
        exact readNumber?_whole (hall cs) hne hk
      · next hne' =>
        cases h
        exact readNumber?_places (hall cs) hne (hall r) (Bool.eq_false_iff.mpr hne') hk
    · cases h
      exact readNumber?_whole (hall cs) hne hk

theorem readNumber?_head {cs w rest : Text} (h : readNumber? cs = some (w, rest)) :
    ∃ c tail, w = c :: tail ∧ Text.isDecimal c := by
  have hall : ∀ d ∈ cs.takeWhile Text.isDecimal, Text.isDecimal d :=
    List.all_eq_true.mp List.all_takeWhile
  unfold readNumber? at h
  simp only at h
  cases hwhole : cs.takeWhile Text.isDecimal with
  | nil => simp [hwhole] at h
  | cons c tail =>
    have hc := hall c (by rw [hwhole]; exact List.mem_cons_self)
    rw [hwhole] at h
    split at h
    · cases h
    · split at h
      · split at h
        · cases h
          exact ⟨c, tail, rfl, hc⟩
        · cases h
          exact ⟨c, _, rfl, hc⟩
      · cases h
        exact ⟨c, tail, rfl, hc⟩

theorem readWord?_head {cs w rest : Text} (h : readWord? cs = some (w, rest)) :
    ∃ c tail, w = c :: tail ∧ c ≠ '.' := by
  rcases Option.or_eq_some_iff.mp h with hw | ⟨-, hw⟩
  · rcases readName?_eq hw with ⟨c, tail, rfl, -⟩ | hplain
    · exact ⟨'m', _, rfl, by decide⟩
    · obtain ⟨c, tail, rfl, hc, -⟩ := readName?_plain_eq hplain
      refine ⟨c, tail, rfl, ?_⟩
      rintro rfl
      exact absurd hc (by decide)
  · obtain ⟨c, tail, rfl, hc⟩ := readNumber?_head hw
    refine ⟨c, tail, rfl, ?_⟩
    rintro rfl
    exact absurd hc (by decide)

theorem readWord?_append {cs w rest k : Text} (h : readWord? cs = some (w, rest))
    (hk : endsWord k) : readWord? (w ++ k) = some (w, k) := by
  obtain ⟨c, tail, rfl, -⟩ := readWord?_head h
  rcases Option.or_eq_some_iff.mp h with hw | ⟨hnone, hw⟩
  · rw [readWord?, readName?_append hw hk, Option.some_or]
  · -- Whether a name can be read at all depends on the first character alone.
    rw [readNumber?_eq_append hw, List.cons_append, readName?_eq_none_iff] at hnone
    rw [readWord?, List.cons_append, readName?_eq_none_iff.mpr hnone, Option.none_or,
      ← List.cons_append]
    exact readNumber?_append hw hk

/-- How a token is read that does not start with a point. -/
theorem read?_cons {c : Char} (hc : c ≠ '.') (cs : Text) :
    read? (c :: cs) =
      if c == Text.doubleQuote || c == Text.singleQuote then
        (literalTail c cs).map fun (inside, rest) => (literal (c :: inside), rest)
      else if isMark c then some (mark c, cs)
      else (readWord? (c :: cs)).map fun (w, rest) => (word w, rest) := by
  rw [read?.eq_def]
  split
  · next h => cases h
  · next h => exact absurd (List.cons.inj h).1 hc
  · next h => exact absurd (List.cons.inj h).1 hc
  · next h =>
    cases h
    rfl

/-- **A token that was read is read again** from its own text, before any text that ends a
word. -/
theorem read?_append {cs rest k : Text} {token : Token} (h : read? cs = some (token, rest))
    (hk : endsWord k) : read? (token.text ++ k) = some (token, k) := by
  have hcs := read?_eq_append h
  rw [read?.eq_def] at h
  split at h
  · cases h
  · cases h
    rfl
  · cases h
    rfl
  · next c cs _ _ =>
    split at h
    · next hquote =>
      obtain ⟨⟨i, r⟩, hi, heq⟩ := Option.map_eq_some_iff.mp h
      cases heq
      have hc : c = Text.doubleQuote ∨ c = Text.singleQuote := by simpa using hquote
      have hdot : c ≠ '.' := by rcases hc with rfl | rfl <;> decide
      have hback : c ≠ '\\' := by rcases hc with rfl | rfl <;> decide
      rw [text, List.cons_append, read?_cons hdot, if_pos hquote, literalTail_append hback hi]
      rfl
    · next hquote =>
      split at h
      · next hmark =>
        cases h
        have hdot : c ≠ '.' := by
          rintro rfl
          exact absurd hmark (by decide)
        rw [text, List.singleton_append, read?_cons hdot, if_neg hquote, if_pos hmark]
      · next hmark =>
        obtain ⟨⟨w, r⟩, hw, heq⟩ := Option.map_eq_some_iff.mp h
        cases heq
        obtain ⟨d, tail, rfl, hdot⟩ := readWord?_head hw
        obtain rfl : c = d := (List.cons.inj hcs).1
        have hagain := readWord?_append hw hk
        rw [text, List.cons_append, read?_cons hdot, if_neg hquote, if_neg hmark,
          ← List.cons_append, hagain]
        rfl

/-! ## Cutting a whole text -/

theorem text_ne_nil_of_read? {cs rest : Text} {token : Token} (h : read? cs = some (token, rest)) :
    token.text ≠ [] := by
  intro hnil
  have hagain := read?_append h (k := []) rfl
  rw [hnil] at hagain
  cases hagain

theorem length_lt_of_read? {cs rest : Text} {token : Token} (h : read? cs = some (token, rest)) :
    rest.length < cs.length := by
  have hpos := List.length_pos_iff.mpr (text_ne_nil_of_read? h)
  rw [read?_eq_append h, List.length_append]
  omega

/-- The bound on the tokens does not matter, once it allows one for each character. -/
theorem scan_rounds {cs : Text} (n m : Nat) (hn : cs.length ≤ n) (hm : cs.length ≤ m) :
    scan n cs = scan m cs := by
  induction n generalizing m cs with
  | zero =>
    obtain rfl : cs = [] := List.eq_nil_of_length_eq_zero (by omega)
    cases m <;> rfl
  | succ n ih =>
    cases m with
    | zero =>
      obtain rfl : cs = [] := List.eq_nil_of_length_eq_zero (by omega)
      rfl
    | succ m =>
      have hstrip : (Text.stripLeft cs).length ≤ cs.length :=
        (List.dropWhile_sublist Text.isBlank).length_le
      simp only [scan]
      split
      · rfl
      · next c cs' hcs =>
        split
        · rfl
        · next token rest hread =>
          have hlen := length_lt_of_read? hread
          rw [hcs] at hstrip
          rw [ih m (by omega) (by omega)]

theorem tokens_blank {c : Char} (hc : Text.isBlank c) (cs : Text) :
    tokens (c :: cs) = tokens cs := by
  have hstrip : Text.stripLeft (c :: cs) = Text.stripLeft cs := by simp [Text.stripLeft, hc]
  rw [tokens, tokens, List.length_cons, scan_rounds cs.length (cs.length + 1) (by omega) (by omega)]
  simp only [scan, hstrip]

/-- Cutting takes one token off the front, if no blank character stands there. -/
theorem tokens_of_read? {c : Char} {cs rest : Text} {token : Token} (hc : Text.isBlank c = false)
    (h : read? (c :: cs) = some (token, rest)) :
    tokens (c :: cs) = (tokens rest).map (token :: ·) := by
  have hlen := length_lt_of_read? h
  have hstrip : Text.stripLeft (c :: cs) = c :: cs := by simp [Text.stripLeft, hc]
  rw [List.length_cons] at hlen
  rw [tokens, tokens, List.length_cons, scan_rounds rest.length cs.length (by omega) (by omega)]
  simp only [scan, hstrip, h]

/-- A punctuation mark is a token by itself, whatever follows it. -/
theorem tokens_cons_of_isMark {c : Char} (hc : isMark c) (k : Text) :
    tokens (c :: k) = (tokens k).map (mark c :: ·) := by
  have hmarks : ∀ c ∈ "()[]\x7b\x7d<>,|:=?!*".toList, Text.isBlank c = false ∧ c ≠ '.' ∧
      (c == Text.doubleQuote || c == Text.singleQuote) = false :=
    List.forall_mem_of_all (by decide)
  obtain ⟨hblank, hdot, hquote⟩ := hmarks c (List.contains_iff_mem.mp hc)
  have hread : read? (c :: k) = some (mark c, k) := by
    rw [read?_cons hdot, hquote, if_neg (by simp), if_pos hc]
  exact tokens_of_read? hblank hread

theorem tokens_mark {c : Char} {k : Text} {ks : List Token} (hc : isMark c)
    (hk : tokens k = .ok ks) : tokens (c :: k) = .ok (mark c :: ks) := by
  rw [tokens_cons_of_isMark hc, hk]
  rfl

theorem tokens_ellipsis {k : Text} {ks : List Token} (hk : tokens k = .ok ks) :
    tokens ("..." ++ k) = .ok (ellipsis :: ks) := by
  have hread : tokens ("..." ++ k) = (tokens k).map (ellipsis :: ·) :=
    tokens_of_read? (by decide) rfl
  rw [hread, hk]
  rfl

theorem tokens_opening {k : Text} {ks : List Token} (hk : tokens k = .ok ks) :
    tokens (".<" ++ k) = .ok (opening :: ks) := by
  have hread : tokens (".<" ++ k) = (tokens k).map (opening :: ·) :=
    tokens_of_read? (by decide) rfl
  rw [hread, hk]
  rfl

/-- Tokens that are read again from their own text, before any text that ends a word. -/
def Readable (token : Token) : Prop :=
  (∃ c tail, token.text = c :: tail ∧ Text.isBlank c = false) ∧
    ∀ k, endsWord k → read? (token.text ++ k) = some (token, k)

theorem readable_of_read? {c : Char} {cs rest : Text} {token : Token}
    (hc : Text.isBlank c = false) (h : read? (c :: cs) = some (token, rest)) : Readable token := by
  refine ⟨?_, fun k hk => read?_append h hk⟩
  have hcs := read?_eq_append h
  cases htext : token.text with
  | nil => exact absurd htext (text_ne_nil_of_read? h)
  | cons d tail =>
    rw [htext] at hcs
    exact ⟨d, tail, rfl, (List.cons.inj hcs).1 ▸ hc⟩

theorem readable_of_mem_scan {n : Nat} {cs : Text} {ts : List Token} (h : scan n cs = .ok ts) :
    ∀ token ∈ ts, Readable token := by
  induction n generalizing cs ts with
  | zero =>
    cases h
    simp
  | succ n ih =>
    simp only [scan] at h
    split at h
    · cases h
      simp
    · next c cs' hcs =>
      have hc : Text.isBlank c = false := by
        have := List.head?_dropWhile_not Text.isBlank cs
        simp only [Text.stripLeft] at hcs
        simpa [hcs] using this
      split at h
      · cases h
      · next token rest hread =>
        cases hscan : scan n rest with
        | error e => simp [hscan, Except.map] at h
        | ok us =>
          rw [hscan] at h
          cases h
          intro t ht
          rcases List.mem_cons.mp ht with rfl | ht
          · exact readable_of_read? hc hread
          · exact ih hscan t ht

/-- **The tokens of a text are read again from their own texts.** -/
theorem readable_of_mem_tokens {cs : Text} {ts : List Token} (h : tokens cs = .ok ts) :
    ∀ token ∈ ts, Readable token :=
  readable_of_mem_scan h

theorem readable_word : ∀ w ∈ (["Array", "function", "null"] : List Text), (word w).Readable := by
  intro w hw
  simp only [List.mem_cons, List.not_mem_nil, or_false] at hw
  rcases hw with rfl | rfl | rfl
  · exact readable_of_read? (c := 'A') (by decide) (rfl : read? "Array" = some (_, []))
  · exact readable_of_read? (c := 'f') (by decide) (rfl : read? "function" = some (_, []))
  · exact readable_of_read? (c := 'n') (by decide) (rfl : read? "null" = some (_, []))

/-- Whether a text, before any text that ends a word, is cut into the given tokens. -/
def Cuts (s : Text) (ts : List Token) : Prop :=
  ∀ k ks, endsWord k → tokens k = .ok ks → tokens (s ++ k) = .ok (ts ++ ks)

theorem Readable.cuts {token : Token} (h : Readable token) : Cuts token.text [token] := by
  intro k ks hk hks
  obtain ⟨⟨c, tail, htext, hc⟩, hread⟩ := h
  have hread := hread k hk
  rw [htext, List.cons_append] at hread ⊢
  rw [tokens_of_read? hc hread, hks]
  rfl

end DocModel.TypeExpr.Token
