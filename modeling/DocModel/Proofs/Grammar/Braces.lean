import DocModel.Proofs.Display.Tokens
import DocModel.Proofs.Grammar.Completeness
import DocModel.Proofs.Text.Edges

/-!
# Braces in type expressions

Braces stand in a type expression for two reasons: they enclose the fields of a record, and a
literal in quotes may hold any of them. Those of records are nested properly, by the grammar. So
the braces of an accepted text are balanced as soon as those of each of its literals are
(`balanced_of_parse`), and nothing that stands between the tokens matters.
-/

namespace DocModel

namespace Text

/-! ## Balanced texts -/

/-- The braces. -/
def isBrace (c : Char) : Bool := c == '\x7b' || c == '\x7d'

/-- **A text that closes `n` braces besides those that it opens.** No more than `n` braces are
closed before they are opened, at any place. -/
structure Closes (n : Nat) (t : Text) : Prop where
  count_le : ∀ u, u <+: t → u.count '\x7d' ≤ n + u.count '\x7b'
  count_eq : t.count '\x7d' = n + t.count '\x7b'

/-- **A text in which each brace has its partner.** -/
abbrev Balanced (t : Text) : Prop := Closes 0 t

theorem closes_of_notMem {t : Text} (h : ∀ c ∈ t, isBrace c = false) : Balanced t := by
  have hcount : ∀ u, u <+: t → u.count '\x7d' = 0 := fun u hu =>
    List.count_eq_zero.mpr fun hmem => absurd (h _ (hu.subset hmem)) (by decide)
  have hopen : t.count '\x7b' = 0 :=
    List.count_eq_zero.mpr fun hmem => absurd (h _ hmem) (by decide)
  exact ⟨fun u hu => by rw [hcount u hu]; exact Nat.zero_le _,
    by rw [hcount t (List.prefix_refl t), hopen]⟩

/-- Whether a given text has braces can be evaluated. -/
theorem closes_of_any {t : Text} (h : t.any isBrace = false) : Balanced t :=
  closes_of_notMem fun c hc => Bool.eq_false_iff.mpr (List.any_eq_false.mp h c hc)

theorem Closes.append {m n : Nat} {t u : Text} (ht : Closes m t) (hu : Closes n u) :
    Closes (m + n) (t ++ u) := by
  constructor
  · intro v hv
    obtain h | ⟨w, rfl, hw⟩ : v <+: t ∨ ∃ w, v = t ++ w ∧ w <+: u := by
      obtain h | ⟨w, rfl⟩ := List.prefix_or_prefix_of_prefix hv (List.prefix_append t u)
      · exact .inl h
      · exact .inr ⟨w, rfl, (List.prefix_append_right_inj t).mp hv⟩
    · have := ht.count_le v h
      omega
    · have := ht.count_eq
      have := hu.count_le w hw
      rw [List.count_append, List.count_append]
      omega
  · have := ht.count_eq
    have := hu.count_eq
    rw [List.count_append, List.count_append]
    omega

/-! A text is opened at its first character: how many braces have to be closed behind it. -/

theorem closes_nil_iff {n : Nat} : Closes n [] ↔ n = 0 := by
  constructor
  · intro h
    have := h.count_eq
    simpa using this.symm
  · rintro rfl
    exact closes_of_any (by decide)

/-- The conditions on a text are those on its first character and on the rest. -/
theorem closes_cons_iff {n : Nat} {c : Char} {t : Text} :
    Closes n (c :: t) ↔
      (∀ u, u <+: t → (c :: u).count '\x7d' ≤ n + (c :: u).count '\x7b') ∧
        (c :: t).count '\x7d' = n + (c :: t).count '\x7b' := by
  constructor
  · intro h
    exact ⟨fun u hu => h.count_le _ (List.cons_prefix_cons.mpr ⟨rfl, hu⟩), h.count_eq⟩
  · rintro ⟨hstart, hcount⟩
    refine ⟨fun u hu => ?_, hcount⟩
    cases u with
    | nil => exact Nat.zero_le _
    | cons d u =>
      obtain ⟨rfl, hu⟩ := List.cons_prefix_cons.mp hu
      exact hstart u ‹_›

theorem closes_open_iff {n : Nat} {t : Text} : Closes n ('\x7b' :: t) ↔ Closes (n + 1) t := by
  have hcount (u : Text) : ('\x7b' :: u).count '\x7d' = u.count '\x7d' ∧
      n + ('\x7b' :: u).count '\x7b' = n + 1 + u.count '\x7b' := by
    rw [List.count_cons_of_ne (by decide), List.count_cons_self]
    exact ⟨rfl, by omega⟩
  rw [closes_cons_iff, (hcount t).1, (hcount t).2]
  constructor
  · rintro ⟨hstart, hall⟩
    exact ⟨fun u hu => (hcount u).1 ▸ (hcount u).2 ▸ hstart u hu, hall⟩
  · intro h
    refine ⟨fun u hu => ?_, h.count_eq⟩
    rw [(hcount u).1, (hcount u).2]
    exact h.count_le u hu

theorem closes_close_iff {n : Nat} {t : Text} :
    Closes n ('\x7d' :: t) ↔ ∃ m, n = m + 1 ∧ Closes m t := by
  have hcount (u : Text) : ('\x7d' :: u).count '\x7d' = u.count '\x7d' + 1 ∧
      ('\x7d' :: u).count '\x7b' = u.count '\x7b' :=
    ⟨List.count_cons_self, List.count_cons_of_ne (by decide)⟩
  rw [closes_cons_iff, (hcount t).1, (hcount t).2]
  constructor
  · rintro ⟨hstart, hall⟩
    cases n with
    | zero => exact absurd (hstart [] List.nil_prefix) (by decide)
    | succ m =>
      refine ⟨m, rfl, fun u hu => ?_, by omega⟩
      have := hstart u hu
      rw [(hcount u).1, (hcount u).2] at this
      omega
  · rintro ⟨m, rfl, h⟩
    have := h.count_eq
    refine ⟨fun u hu => ?_, by omega⟩
    have := h.count_le u hu
    rw [(hcount u).1, (hcount u).2]
    omega

/-- Only the braces of a text matter. -/
theorem closes_filter {n : Nat} {t : Text} : Closes n (t.filter isBrace) ↔ Closes n t := by
  have hopen (u : Text) : (u.filter isBrace).count '\x7b' = u.count '\x7b' :=
    List.count_filter (by decide)
  have hclose (u : Text) : (u.filter isBrace).count '\x7d' = u.count '\x7d' :=
    List.count_filter (by decide)
  constructor
  · intro h
    refine ⟨fun u hu => ?_, by rw [← hopen, ← hclose]; exact h.count_eq⟩
    rw [← hopen, ← hclose]
    exact h.count_le _ (hu.filter isBrace)
  · intro h
    refine ⟨fun u hu => ?_, by rw [hopen, hclose]; exact h.count_eq⟩
    obtain ⟨v, huv⟩ := hu
    obtain ⟨start, rest, rfl, rfl, -⟩ := List.filter_eq_append_iff.mp huv.symm
    rw [hopen, hclose]
    exact h.count_le start (List.prefix_append start rest)

theorem closes_other_iff {n : Nat} {c : Char} {t : Text} (hc : isBrace c = false) :
    Closes n (c :: t) ↔ Closes n t := by
  rw [← closes_filter, List.filter_cons_of_neg (Bool.eq_false_iff.mp hc), closes_filter]

theorem isBrace_of_isBlank {c : Char} (h : isBlank c = true) : isBrace c = false := by
  by_cases hc : c = '\x7b' ∨ c = '\x7d'
  · obtain rfl | rfl := hc <;> exact absurd h (by decide)
  · simpa [isBrace] using hc

theorem filter_isBrace_of_blank {t : Text} (h : blank t = true) : t.filter isBrace = [] :=
  List.filter_eq_nil_iff.mpr fun c hc => Bool.eq_false_iff.mp
    (isBrace_of_isBlank (List.all_eq_true.mp h c hc))

theorem filter_isBrace_stripLeft (t : Text) :
    (stripLeft t).filter isBrace = t.filter isBrace := by
  have hblank : blank (t.takeWhile isBlank) = true := List.all_eq_true.mpr fun c hc =>
    List.mem_takeWhile_imp hc
  have hparts : t.filter isBrace
      = (t.takeWhile isBlank).filter isBrace ++ (stripLeft t).filter isBrace := by
    rw [stripLeft, ← List.filter_append, List.takeWhile_append_dropWhile]
  rw [hparts, filter_isBrace_of_blank hblank, List.nil_append]

end Text

namespace TypeExpr

/-! ## Braces of tokens -/

namespace Token

/-- The text of some tokens, with nothing in between. -/
def spell (ts : List Token) : Text := ts.flatMap text

/-- The braces of a text are those of its tokens. -/
theorem filter_isBrace_of_scan {n : Nat} {cs : Text} {ts : List Token} (hn : cs.length ≤ n)
    (h : scan n cs = .ok ts) : cs.filter Text.isBrace = (spell ts).filter Text.isBrace := by
  induction n generalizing cs ts with
  | zero =>
    obtain rfl : cs = [] := List.eq_nil_of_length_eq_zero (by omega)
    cases h
    rfl
  | succ n ih =>
    have hle := (Text.stripLeft_suffix cs).length_le
    rw [scan] at h
    split at h
    · next hcs =>
      cases h
      exact Text.filter_isBrace_of_blank (Text.stripLeft_eq_nil_iff.mp hcs)
    · next c rest hcs =>
      rw [hcs] at hle
      split at h
      · cases h
      · next token rest hread =>
        have hlt := length_lt_of_read? hread
        obtain ⟨more, hmore, rfl⟩ : ∃ more, scan n rest = .ok more ∧ ts = token :: more := by
          cases hscan : scan n rest with
          | error c => rw [hscan] at h; cases h
          | ok more => rw [hscan] at h; cases h; exact ⟨more, rfl, rfl⟩
        rw [← Text.filter_isBrace_stripLeft, hcs, read?_eq_append hread, List.filter_append,
          ih (by omega) hmore, ← List.filter_append]
        rfl

theorem notMem_of_readNumber? {cs w rest : Text} (h : readNumber? cs = some (w, rest)) {x : Char}
    (hdecimal : Text.isDecimal x = false) (hdot : x ≠ '.') : x ∉ w := by
  have hdigits (t : Text) : x ∉ t.takeWhile Text.isDecimal := fun hmem => by
    rw [List.mem_takeWhile_imp hmem] at hdecimal
    cases hdecimal
  unfold readNumber? at h
  dsimp only at h
  split at h
  · cases h
  · split at h
    · split at h
      · cases h
        exact hdigits cs
      · cases h
        simp only [List.mem_append, List.mem_cons, not_or]
        exact ⟨hdigits cs, hdot, hdigits _⟩
    · cases h
      exact hdigits cs

/-- No word holds a brace. -/
theorem brace_notMem_of_readWord? {cs w rest : Text} (h : readWord? cs = some (w, rest)) {x : Char}
    (hx : x = '\x7b' ∨ x = '\x7d') : x ∉ w := by
  have hname : isNameChar x = false := by obtain rfl | rfl := hx <;> decide
  have hjoint : isNameJoint x = false := by obtain rfl | rfl := hx <;> decide
  have htail {tail rest : Text} (h : nameTail (tail ++ rest) = (tail, rest)) : x ∉ tail := by
    have hnot := notMem_nameTail hname hjoint (tail ++ rest)
    rwa [h] at hnot
  have hstart {c : Char} (hc : isNameStart c = true) : x ≠ c := by
    rintro rfl
    obtain rfl | rfl := hx <;> exact absurd hc (by decide)
  rcases Option.or_eq_some_iff.mp h with hw | ⟨-, hw⟩
  · rcases readName?_eq hw with ⟨c, tail, rfl, hc, -, hend⟩ | hplain
    · simp only [List.mem_append, List.mem_cons, not_or]
      exact ⟨by obtain rfl | rfl := hx <;> decide, hstart hc, htail hend⟩
    · obtain ⟨c, tail, rfl, hc, -, hend⟩ := readName?_plain_eq hplain
      rw [List.mem_cons, not_or]
      exact ⟨hstart hc, htail hend⟩
  · exact notMem_of_readNumber? hw (by obtain rfl | rfl := hx <;> decide)
      (by obtain rfl | rfl := hx <;> decide)

theorem readWord?_of_read? {cs w rest : Text} (h : read? cs = some (word w, rest)) :
    readWord? cs = some (w, rest) := by
  unfold read? at h
  split at h
  · cases h
  · cases h
  · cases h
  · split at h
    · obtain ⟨inside, -, heq⟩ := Option.map_eq_some_iff.mp h
      cases heq
    · split at h
      · cases h
      · obtain ⟨taken, htaken, heq⟩ := Option.map_eq_some_iff.mp h
        cases heq
        exact htaken

/-- A token whose braces are those of a record, or have their partners. -/
def Tidy (token : Token) : Prop := (∃ c, token = mark c) ∨ Text.Balanced token.text

theorem tidy_of_readable {token : Token} (h : token.Readable)
    (hliteral : ∀ text, token = literal text → Text.Balanced text) : token.Tidy := by
  cases token with
  | mark c => exact .inl ⟨c, rfl⟩
  | literal text => exact .inr (hliteral text rfl)
  | ellipsis | opening => exact .inr (Text.closes_of_any (by decide))
  | word w =>
    have hword := readWord?_of_read? (h.2 [] rfl)
    refine .inr (Text.closes_of_notMem fun x hx => Bool.eq_false_iff.mpr fun hbrace => ?_)
    exact brace_notMem_of_readWord? hword (by simpa [Text.isBrace] using hbrace) hx

end Token

/-! ## Braces of phrases -/

namespace Phrase

/-- How many braces a phrase closes besides those that it opens: a list that ends with one does. -/
def closed : Phrase → Nat
  | list c _ => if c = '\x7d' then 1 else 0
  | _ => 0

/-- The phrases that the grammar is made of, as far as braces go: none stands between two phrases,
and a list ends with a closing one at most. -/
def Neat : Phrase → Prop
  | separated c item => Text.isBrace c = false ∧ item.closed = 0 ∧ item.Neat
  | list c item => c ≠ '\x7b' ∧ item.closed = 0 ∧ item.Neat
  | _ => True

end Phrase

open Token Text

theorem closes_spell_append {n : Nat} {ts us : List Token} (hts : Balanced (spell ts))
    (hus : Closes n (spell us)) : Closes n (spell (ts ++ us)) := by
  rw [spell, List.flatMap_append, ← Nat.zero_add n]
  exact hts.append hus

theorem closes_cons {n : Nat} {token : Token} {ts : List Token} (htoken : Balanced token.text)
    (hts : Closes n (spell ts)) : Closes n (spell (token :: ts)) := by
  rw [spell, List.flatMap_cons, ← Nat.zero_add n]
  exact htoken.append hts

theorem balanced_mark {c : Char} (hc : isBrace c = false) : Balanced (Token.mark c).text :=
  closes_of_notMem (by simpa [Token.text] using hc)

theorem closes_mark_closed {c : Char} (hc : c ≠ '\x7b') (item : Phrase) :
    Closes (Phrase.list c item).closed (spell [.mark c]) := by
  by_cases hclose : c = '\x7d'
  · subst hclose
    exact closes_close_iff.mpr ⟨0, rfl, closes_nil_iff.mpr rfl⟩
  · rw [Phrase.closed, if_neg hclose]
    exact closes_cons (balanced_mark (by simp [isBrace, hc, hclose])) (closes_of_any (by decide))

theorem balanced_modifiers (ms : List Modifier) : Balanced (spell (ms.flatMap (·.tokens))) := by
  induction ms with
  | nil => exact closes_of_any (by decide)
  | cons m ms ih =>
    have hm : Balanced (spell m.tokens) := by
      cases m <;> exact closes_of_any (by decide)
    exact closes_spell_append hm ih

theorem Token.Tidy.balanced {token : Token} {text : Text} (h : token.Tidy)
    (htoken : nameOf? token = some text ∨ keyOf? token = some text) : Balanced token.text := by
  obtain ⟨c, rfl⟩ | h := h
  · obtain htoken | htoken := htoken <;> cases htoken
  · exact h

theorem Phrase.neat_types : (Phrase.separated '|' .type).Neat := ⟨rfl, rfl, trivial⟩

/-- **A phrase closes the braces that it opens**, if its tokens are tidy. -/
theorem Derives.closes {p : Phrase} {ts rest : List Token} {a : p.Meaning}
    (h : Derives p ts rest a) (hp : p.Neat) (hts : ∀ token ∈ ts, token.Tidy) :
    Closes p.closed (spell ts) := by
  induction h with
  | wildcard | anything | all | null | noMembers => exact closes_of_any (by decide)
  | nullable _ ih | nonNull _ ih | variadic _ ih =>
    exact closes_cons (closes_of_any (by decide))
      (ih trivial fun token h => hts token (by simp [h]))
  | modified _ _ ih =>
    exact closes_spell_append (ih trivial fun token h => hts token (by simp [h]))
      (balanced_modifiers _)
  | top _ ih => exact ih Phrase.neat_types hts
  | name hname =>
    exact closes_cons ((hts _ (by simp)).balanced (.inl hname)) (closes_of_any (by decide))
  | application hname hstart _ ih =>
    have hname := (hts _ (by simp)).balanced (.inl hname)
    have hargs := ih ⟨rfl, rfl, trivial⟩ fun token h => hts token (by simp [h])
    refine closes_cons hname (closes_cons ?_
      (closes_spell_append hargs (closes_of_any (by decide))))
    obtain rfl | rfl := hstart <;> exact closes_of_any (by decide)
  | union _ ih =>
    have hmembers := ih Phrase.neat_types fun token h => hts token (by simp [h])
    exact closes_cons (closes_of_any (by decide))
      (closes_spell_append hmembers (closes_of_any (by decide)))
  | array _ ih =>
    exact closes_cons (closes_of_any (by decide))
      (ih ⟨by decide, rfl, trivial⟩ fun token h => hts token (by simp [h]))
  | record _ ih =>
    exact closes_open_iff.mpr (ih ⟨by decide, rfl, trivial⟩ fun token h => hts token (by simp [h]))
  | function _ ih =>
    exact closes_cons (closes_of_any (by decide)) (closes_cons (closes_of_any (by decide))
      (ih ⟨by decide, rfl, trivial⟩ fun token h => hts token (by simp [h])))
  | functionTo _ _ ih ihr =>
    have hparams := ih ⟨by decide, rfl, trivial⟩ fun token h => hts token (by simp [h])
    have hresult := ihr trivial fun token h => hts token (by simp [h])
    exact closes_cons (closes_of_any (by decide)) (closes_cons (closes_of_any (by decide))
      (closes_spell_append hparams (closes_cons (closes_of_any (by decide)) hresult)))
  | key hkey =>
    exact closes_cons ((hts _ (by simp)).balanced (.inr hkey)) (closes_of_any (by decide))
  | field hkey _ ih =>
    exact closes_cons ((hts _ (by simp)).balanced (.inr hkey)) (closes_cons
      (closes_of_any (by decide)) (ih trivial fun token h => hts token (by simp [h])))
  | receiver _ ih | constructed _ ih =>
    exact closes_cons (closes_of_any (by decide)) (closes_cons (closes_of_any (by decide))
      (ih trivial fun token h => hts token (by simp [h])))
  | plain _ ih => exact ih trivial hts
  | one _ ih =>
    obtain ⟨-, hclosed, hitem⟩ := hp
    have hfirst := ih hitem hts
    rwa [hclosed] at hfirst
  | more _ _ ih ihs =>
    obtain ⟨hc, hclosed, hitem⟩ := hp
    have hfirst := ih hitem fun token h => hts token (by simp [h])
    have hmore := ihs ⟨hc, hclosed, hitem⟩ fun token h => hts token (by simp [h])
    rw [hclosed] at hfirst
    exact closes_spell_append hfirst (closes_cons (balanced_mark hc) hmore)
  | nil => exact closes_mark_closed hp.1 _
  | last _ ih =>
    obtain ⟨hc, hclosed, hitem⟩ := hp
    have hfirst := ih hitem fun token h => hts token (by simp [h])
    rw [hclosed] at hfirst
    exact closes_spell_append hfirst (closes_mark_closed hc _)
  | cons _ _ ih ihs =>
    obtain ⟨hc, hclosed, hitem⟩ := hp
    have hfirst := ih hitem fun token h => hts token (by simp [h])
    have hmore := ihs ⟨hc, hclosed, hitem⟩ fun token h => hts token (by simp [h])
    rw [hclosed] at hfirst
    exact closes_spell_append hfirst (closes_cons (closes_of_any (by decide)) hmore)

/-- **The braces of a type expression have their partners**, if those in each literal do. -/
theorem balanced_of_parse {source : Text} {t : TypeExpr} (h : parse source = .ok t)
    (hliteral : ∀ ts text, tokens source = .ok ts → .literal text ∈ ts → Balanced text) :
    Balanced source := by
  obtain ⟨ts, hts, -, hderives⟩ := parse_eq_ok_iff.mp h
  have htidy : ∀ token ∈ ts, token.Tidy := fun token htoken =>
    tidy_of_readable (readable_of_mem_tokens hts token htoken) fun text htext =>
      hliteral ts text hts (htext ▸ htoken)
  have hbraces := filter_isBrace_of_scan (Nat.le_refl _) hts
  refine closes_filter.mp ?_
  rw [hbraces]
  exact closes_filter.mpr (hderives.closes trivial htidy)

end TypeExpr

end DocModel
