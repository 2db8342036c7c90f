import DocModel.Proofs.Grammar.Soundness

/-!
# What the readers of type expressions accept

Every phrase of the grammar is read, and read as what it means. A reader looks at one token, or
two, to choose how to go on, so the work is to show that the grammar leaves it no other choice:
which tokens a phrase can start with (`Derives.exists_head`), and which can follow it
(`Phrase.Follow`). Readers of sequences go on for a bounded number of rounds, and readers of
types down to a bounded depth; both bounds are shown to be large enough.
-/

namespace DocModel.TypeExpr

/-! ## Sequences -/

section Rounds

variable {α : Type} {c : Char} {item : Parser α}

/-- Whether a parser never answers with more tokens than it was given. -/
def Shortens (item : Parser α) : Prop :=
  ∀ ⦃input a rest⦄, item input = .ok (a, rest) → rest.length ≤ input.length

theorem following_of_head_ne {input : List Token} (n : Nat) (h : input.head? ≠ some (.mark c)) :
    following c item n input = .ok ([], input) := by
  cases n with
  | zero => rfl
  | succ n =>
    cases input with
    | nil => rfl
    | cons t ts =>
      simp only [List.head?_cons, ne_eq, Option.some.injEq] at h
      simp [following, h]

/-- The bound on the rounds does not matter, once it allows a round for each token. -/
theorem following_rounds (hi : Shortens item) {input : List Token} (n m : Nat)
    (hn : input.length ≤ n) (hm : input.length ≤ m) :
    following c item n input = following c item m input := by
  induction n generalizing m input with
  | zero =>
    obtain rfl : input = [] := List.eq_nil_of_length_eq_zero (by omega)
    cases m <;> rfl
  | succ n ih =>
    cases input with
    | nil => cases m <;> rfl
    | cons t ts =>
      simp only [List.length_cons] at hn hm
      obtain ⟨m, rfl⟩ : ∃ m', m = m' + 1 := ⟨m - 1, by omega⟩
      simp only [following]
      split
      · cases hts : item ts with
        | error e => rfl
        | ok r =>
          -- A round takes at least the mark, so what is left fits into the bounds that are left.
          have hr := hi hts
          simp only [bind, Except.bind]
          rw [ih m (by omega) (by omega)]
      · rfl

theorem separated_one {input rest : List Token} {a : α} (ha : item input = .ok (a, rest))
    (hrest : rest.head? ≠ some (.mark c)) : separated c item input = .ok ((a, []), rest) := by
  simp [separated, ha, bind, Except.bind, following_of_head_ne _ hrest, pure, Except.pure]

theorem separated_more (hi : Shortens item) {input next rest : List Token} {a b : α} {bs : List α}
    (ha : item input = .ok (a, .mark c :: next))
    (hb : separated c item next = .ok ((b, bs), rest)) :
    separated c item input = .ok ((a, b :: bs), rest) := by
  simp only [separated, Except.bind_eq_ok_iff, Prod.exists] at hb
  obtain ⟨b', mid, hb', bs', rest', hbs, heq⟩ := hb
  cases heq
  have hmid := hi hb'
  rw [following_rounds hi mid.length next.length (Nat.le_refl _) hmid] at hbs
  simp [separated, ha, hb', hbs, following, bind, Except.bind, pure, Except.pure]

theorem items_rounds (hi : Shortens item) {input : List Token} (n m : Nat)
    (hn : input.length < n) (hm : input.length < m) :
    items c item n input = items c item m input := by
  induction n generalizing m input with
  | zero => omega
  | succ n ih =>
    obtain ⟨m, rfl⟩ : ∃ m', m = m' + 1 := ⟨m - 1, by omega⟩
    simp only [items]
    split
    · rfl
    · cases hts : item input with
      | error e => rfl
      | ok r =>
        obtain ⟨a, mid⟩ := r
        have hr := hi hts
        simp only [bind, Except.bind]
        split
        · next us _ =>
          simp only [List.length_cons] at hr
          rw [ih m (by omega) (by omega)]
        · split
          · next hc =>
            -- The closing mark is next, so both readings end in one more round.
            obtain ⟨us, rfl⟩ : ∃ us, mid = .mark c :: us := by cases mid <;> simp_all
            simp only [List.length_cons] at hr
            obtain ⟨n, rfl⟩ : ∃ n', n = n' + 1 := ⟨n - 1, by omega⟩
            obtain ⟨m, rfl⟩ : ∃ m', m = m' + 1 := ⟨m - 1, by omega⟩
            simp [items]
          · rfl

theorem list_nil (rest : List Token) : list c item (.mark c :: rest) = .ok ([], rest) := by
  simp [list, items]

theorem list_last (hi : Shortens item) {input rest : List Token} {a : α} (hc : c ≠ ',')
    (hinput : input.head? ≠ some (.mark c)) (ha : item input = .ok (a, .mark c :: rest)) :
    list c item input = .ok ([a], rest) := by
  have hlen := hi ha
  simp only [List.length_cons] at hlen
  obtain ⟨k, hk⟩ : ∃ k, input.length = k + 1 := ⟨input.length - 1, by omega⟩
  simp [list, items, hk, hinput, ha, hc, bind, Except.bind, pure, Except.pure]

theorem list_cons (hi : Shortens item) {input next rest : List Token} {a : α} {as : List α}
    (hinput : input.head? ≠ some (.mark c)) (ha : item input = .ok (a, .mark ',' :: next))
    (has : list c item next = .ok (as, rest)) : list c item input = .ok (a :: as, rest) := by
  have hlen := hi ha
  simp only [List.length_cons] at hlen
  rw [list, items_rounds hi (next.length + 1) input.length (by omega) (by omega)] at has
  simp [list, items, hinput, ha, has, bind, Except.bind, pure, Except.pure]

end Rounds

/-- The tokens that can stand after a type: those that end it, and the modifiers. -/
def canFollow : Token → Bool
  | .mark c => ",)]\x7d>|=?![".toList.contains c
  | _ => false

namespace Phrase

/-- The parser of a phrase, with types nested at most `n` deep. -/
@[reducible]
def parser (n : Nat) : (p : Phrase) → Parser p.Meaning
  | type => typeAt n
  | top => TypeExpr.top (typeAt n)
  | basic => TypeExpr.basic (typeAt n)
  | field => TypeExpr.field (typeAt n)
  | param => TypeExpr.param (typeAt n)
  | separated c item => TypeExpr.separated c (item.parser n)
  | list c item => TypeExpr.list c (item.parser n)

/-- What the tokens after a phrase have to be like for the phrase to end there. -/
def Follow : Phrase → List Token → Prop
  | type, rest | basic, rest => rest.head?.all canFollow
  | top, rest | field, rest | param, rest => atTerminator rest ∧ rest.head? ≠ some (.mark '|')
  | separated c item, rest => item.Follow rest ∧ rest.head? ≠ some (.mark c)
  | list _ _, _ => True

/-- The phrases that are made of one token at least and start like a type or a key. -/
def Single : Phrase → Prop
  | separated _ item => item.Single
  | list _ _ => False
  | _ => True

/-- The sequences whose marks can be told from their items. -/
def Proper : Phrase → Prop
  | separated c item => item.Proper ∧ ∀ us, item.Follow (.mark c :: us)
  | list c item => item.Proper ∧ item.Single ∧ c ≠ ',' ∧ isTerminator (.mark c) ∧
      (∀ us, item.Follow (.mark ',' :: us)) ∧ ∀ us, item.Follow (.mark c :: us)
  | _ => True

/-- The tokens that a phrase surely takes before it reads a type. -/
def lead : Phrase → Nat
  | basic => 1
  | separated _ item | list _ item => item.lead
  | _ => 0

theorem parser_sound (n : Nat) : (p : Phrase) → Sound p (p.parser n)
  | type => typeAt_sound n
  | top => top_sound (typeAt_sound n)
  | basic => basic_sound (typeAt_sound n)
  | field => field_sound (typeAt_sound n)
  | param => param_sound (typeAt_sound n)
  | separated _ item => separated_sound (item.parser_sound n)
  | list _ item => list_sound (item.parser_sound n)

theorem parser_shortens (n : Nat) (p : Phrase) : Shortens (p.parser n) := by
  intro input a rest h
  obtain ⟨ts, rfl, -⟩ := p.parser_sound n h
  simp

end Phrase

/-! ## How phrases start -/

theorem Derives.exists_head {p : Phrase} {ts rest : List Token} {a : p.Meaning}
    (h : Derives p ts rest a) (hp : p.Single) :
    ∃ token us, ts = token :: us ∧ isTerminator token = false := by
  induction h with
  | wildcard | nullable | nonNull | anything | variadic | all | null | noMembers | union | array
  | record | function | functionTo | receiver | constructed => exact ⟨_, _, rfl, rfl⟩
  | modified _ _ ih =>
    obtain ⟨token, us, rfl, htoken⟩ := ih trivial
    exact ⟨token, _, rfl, htoken⟩
  | top _ ih | plain _ ih => exact ih trivial
  | name hname | application hname =>
    refine ⟨_, _, rfl, ?_⟩
    unfold nameOf? at hname
    split at hname <;> simp_all [isTerminator]
  | key hkey | field hkey =>
    refine ⟨_, _, rfl, ?_⟩
    unfold keyOf? at hkey
    split at hkey <;> simp_all [isTerminator]
  | one _ ih => exact ih hp
  | more _ _ ih =>
    obtain ⟨token, us, rfl, htoken⟩ := ih hp
    exact ⟨token, _, rfl, htoken⟩
  | nil | last | cons => exact hp.elim

/-- A basic type starts with none of the tokens that stand before a type. -/
theorem Derives.basic_head {ts rest : List Token} {t : TypeExpr} (h : Derives .basic ts rest t) :
    ∃ token us, ts = token :: us ∧ token ≠ .mark '?' ∧ token ≠ .mark '!' ∧ token ≠ .ellipsis := by
  cases h with
  | all | null | noMembers | union | array | record | function | functionTo =>
    exact ⟨_, _, rfl, by decide, by decide, by decide⟩
  | name hname | application hname =>
    refine ⟨_, _, rfl, ?_⟩
    unfold nameOf? at hname
    split at hname <;> simp_all

/-- A type does not start with a token that can end one. -/
theorem Derives.not_atTerminator {ts rest : List Token} {t : TypeExpr}
    (h : Derives .type ts rest t) (us : List Token) : atTerminator (ts ++ us) = false := by
  obtain ⟨token, vs, rfl, htoken⟩ := h.exists_head trivial
  simpa [atTerminator] using htoken

theorem typeAt_nullable {n : Nat} {input rest : List Token} {t : TypeExpr}
    (hend : atTerminator input = false) (h : typeAt n input = .ok (t, rest)) :
    typeAt (n + 1) (.mark '?' :: input) = .ok (.nullable t, rest) := by
  simp [typeAt, hend, h, bind, Except.bind, pure, Except.pure]

theorem typeAt_variadic {n : Nat} {input rest : List Token} {t : TypeExpr}
    (hend : atTerminator input = false) (h : typeAt n input = .ok (t, rest)) :
    typeAt (n + 1) (.ellipsis :: input) = .ok (.variadic (some t), rest) := by
  simp [typeAt, hend, h, bind, Except.bind, pure, Except.pure]

/-- The reader of types takes a basic type and its modifiers, if no other token stands before
them. -/
theorem typeAt_succ_eq (n : Nat) {token : Token} {us : List Token} (h₁ : token ≠ .mark '?')
    (h₂ : token ≠ .mark '!') (h₃ : token ≠ .ellipsis) :
    typeAt (n + 1) (token :: us) = (do
      let (t, ts) ← basic (typeAt n) (token :: us)
      return modified t ts) := by
  rw [typeAt.eq_def]
  split
  · cases ‹n + 1 = 0›
  · simp_all
  · simp_all
  · simp_all
  · next hn _ _ _ => cases hn; rfl

theorem modified_tokens (m : Modifier) (t : TypeExpr) (ts : List Token) :
    modified t (m.tokens ++ ts) = modified (m.apply t) ts := by
  cases m <;> rfl

theorem modified_complete {rest : List Token} (hrest : ¬ StartsModifier rest) (t : TypeExpr)
    (ms : List Modifier) :
    modified t (ms.flatMap (·.tokens) ++ rest) = (ms.foldl (fun t m => m.apply t) t, rest) := by
  induction ms generalizing t with
  | nil =>
    obtain ⟨ms, hms, -, ht⟩ := modified_sound t rest
    cases ms with
    | nil => exact Prod.ext ht hms.symm
    | cons m ms =>
      refine absurd ⟨m, ms.flatMap (·.tokens) ++ (modified t rest).2, ?_⟩ hrest
      rw [← List.append_assoc]
      exact hms.symm
  | cons m ms ih =>
    rw [List.flatMap_cons, List.append_assoc, modified_tokens, ih]
    rfl

/-! ## What can follow -/

theorem canFollow_of_isTerminator {token : Token} (h : isTerminator token) : canFollow token := by
  unfold isTerminator at h
  split at h
  · next c =>
    have hsub : ",)]\x7d>|=".toList ⊆ ",)]\x7d>|=?![".toList := by decide
    exact List.contains_iff_mem.mpr (hsub (List.contains_iff_mem.mp h))
  · simp at h

theorem head_all_canFollow {rest : List Token} (h : atTerminator rest) :
    rest.head?.all canFollow := by
  cases rest with
  | nil => rfl
  | cons token us =>
    simp only [atTerminator, List.head?_cons, Option.all_some] at h ⊢
    exact canFollow_of_isTerminator h

theorem head_ne_of_all {rest : List Token} {p : Token → Bool} {token : Token}
    (h : rest.head?.all p) (htoken : p token = false) : rest.head? ≠ some token := by
  intro heq
  simp [heq, htoken] at h

theorem Phrase.proper_types : (Phrase.separated '|' .type).Proper :=
  ⟨trivial, fun _ => rfl⟩

theorem Phrase.proper_arguments : (Phrase.separated ',' .top).Proper :=
  ⟨trivial, fun _ => ⟨rfl, by simp⟩⟩

theorem Phrase.proper_list {c : Char} {item : Phrase}
    (hi : item = .top ∨ item = .field ∨ item = .param)
    (hc : c = ')' ∨ c = ']' ∨ c = '\x7d') : (Phrase.list c item).Proper := by
  rcases hi with rfl | rfl | rfl <;> rcases hc with rfl | rfl | rfl <;>
    exact ⟨trivial, trivial, by decide, rfl, fun _ => ⟨rfl, by simp⟩, fun _ => ⟨rfl, by simp⟩⟩

/-! ## The readers of the constructs, on the phrases of the grammar -/

theorem arguments_of_follow {type : Parser TypeExpr} {rest : List Token}
    (h : rest.head?.all canFollow) (base : TypeExpr) :
    arguments type base rest = .ok (base, rest) := by
  unfold arguments
  split
  · simp [canFollow] at h
  · simp [canFollow] at h
  · rfl

theorem basic_of_nameOf? {type : Parser TypeExpr} {token : Token} {text : Text} {us : List Token}
    (hname : nameOf? token = some text) (hus : us.head? ≠ some (.mark '(')) :
    basic type (token :: us) = arguments type (.name text) us := by
  cases token with
  | word w =>
    simp only [nameOf?] at hname
    split at hname
    · cases hname
    · next hw =>
      cases hname
      rw [basic, if_neg (fun h => hus h.2), if_neg hw]
  | literal s =>
    cases hname
    rfl
  | ellipsis | opening | mark => cases hname

theorem fieldKey_of_keyOf? {token : Token} {key : Text} (h : keyOf? token = some key)
    (us : List Token) : fieldKey (token :: us) = .ok (key, us) := by
  unfold keyOf? at h
  split at h
  · cases h; rfl
  · cases h; rfl
  · cases h

/-- Where a word has a colon after it, no type is read beyond the word. -/
theorem top_word_colon {n : Nat} {w : Text} {us rest : List Token} {t : TypeExpr}
    (h : top (typeAt n) (.word w :: .mark ':' :: us) = .ok (t, rest)) : rest = .mark ':' :: us := by
  obtain ⟨n, rfl⟩ : ∃ m, n = m + 1 := by
    cases n with
    | zero => cases h
    | succ m => exact ⟨m, rfl⟩
  have hbasic : ∃ b, basic (typeAt n) (.word w :: .mark ':' :: us) = .ok (b, .mark ':' :: us) := by
    by_cases hw : w = "null"
    · refine ⟨.null, ?_⟩
      rw [basic, if_neg (by simp), if_pos hw]
    · refine ⟨.name w, ?_⟩
      rw [basic, if_neg (by simp), if_neg hw]
      rfl
  obtain ⟨b, hb⟩ := hbasic
  have htype : typeAt (n + 1) (.word w :: .mark ':' :: us) = .ok (b, .mark ':' :: us) := by
    rw [typeAt_succ_eq n (by simp) (by simp) (by simp), hb]
    rfl
  rw [top, separated_one htype (by simp)] at h
  cases h
  rfl

theorem param_of_top {n : Nat} {input rest : List Token} {t : TypeExpr}
    (h : top (typeAt n) input = .ok (t, rest)) (hrest : rest.head? ≠ some (.mark ':')) :
    param (typeAt n) input = .ok (.plain t, rest) := by
  have hplain : param.plain (typeAt n) input = .ok (.plain t, rest) := by
    simp [param.plain, h, bind, Except.bind, pure, Except.pure]
  unfold param
  split
  · exact absurd (by rw [top_word_colon h]; rfl) hrest
  · exact hplain

theorem unionMembers_of_separated {type : Parser TypeExpr} {input rest : List Token}
    {first : TypeExpr} {more : List TypeExpr} (hinput : input.head? ≠ some (.mark ')'))
    (h : separated '|' type input = .ok ((first, more), .mark ')' :: rest)) :
    unionMembers type input = .ok (.union (first :: more), rest) := by
  simp [unionMembers, hinput, h, close, bind, Except.bind, pure, Except.pure]

theorem functionType_of_list {type : Parser TypeExpr} {input rest : List Token}
    {params : List Param} (h : list ')' (param type) input = .ok (params, rest))
    (hrest : rest.head? ≠ some (.mark ':')) :
    functionType type input = .ok (functionOf params none, rest) := by
  simp only [functionType, h, bind, Except.bind]
  split
  · simp at hrest
  · rfl

theorem functionType_of_result {type : Parser TypeExpr} {input us rest : List Token}
    {params : List Param} {result : TypeExpr}
    (h : list ')' (param type) input = .ok (params, .mark ':' :: us))
    (hr : type us = .ok (result, rest)) :
    functionType type input = .ok (functionOf params (some result), rest) := by
  simp only [functionType, h, hr, bind, Except.bind]
  rfl

theorem field_of_key {type : Parser TypeExpr} {token : Token} {key : Text} {rest : List Token}
    (hkey : keyOf? token = some key) (hrest : rest.head? ≠ some (.mark ':')) :
    field type (token :: rest) = .ok ((key, none), rest) := by
  simp only [field, fieldKey_of_keyOf? hkey, bind, Except.bind]
  split
  · simp at hrest
  · rfl

/-- The tokens of a phrase do not start with a closing mark. -/
theorem Derives.head_ne {p : Phrase} {ts rest : List Token} {a : p.Meaning}
    (h : Derives p ts rest a) (hp : p.Single) {token : Token} (htoken : isTerminator token)
    (us : List Token) : (ts ++ us).head? ≠ some token := by
  obtain ⟨token', vs, rfl, hts⟩ := h.exists_head hp
  rintro heq
  cases heq
  simp [htoken] at hts

/-- **Every type of the grammar is read, and as the grammar says.** The depth has to allow for
each token of the phrase but those that the phrase surely takes first. The induction is on the
derivation; what follows a phrase is what tells the reader to stop. -/
theorem Derives.accepted {p : Phrase} {ts rest : List Token} {a : p.Meaning}
    (h : Derives p ts rest a) (hp : p.Proper) (hrest : p.Follow rest) (n : Nat)
    (hn : ts.length ≤ n + p.lead) : p.parser n (ts ++ rest) = .ok (a, rest) := by
  induction h generalizing n with
  | wildcard hend =>
    obtain ⟨n, rfl⟩ := Nat.exists_eq_add_one.mpr (show 0 < n from hn)
    exact if_pos hend
  | nullable h ih =>
    simp only [Phrase.lead, List.length_cons] at hn
    obtain ⟨n, rfl⟩ := Nat.exists_eq_add_one.mpr (show 0 < n by omega)
    exact typeAt_nullable (h.not_atTerminator _) (ih trivial hrest n (by simp [Phrase.lead]; omega))
  | nonNull h ih =>
    simp only [Phrase.lead, List.length_cons] at hn
    obtain ⟨n, rfl⟩ := Nat.exists_eq_add_one.mpr (show 0 < n by omega)
    exact ih trivial hrest n (by simp [Phrase.lead]; omega)
  | anything hend =>
    obtain ⟨n, rfl⟩ := Nat.exists_eq_add_one.mpr (show 0 < n from hn)
    exact if_pos hend
  | variadic h ih =>
    simp only [Phrase.lead, List.length_cons] at hn
    obtain ⟨n, rfl⟩ := Nat.exists_eq_add_one.mpr (show 0 < n by omega)
    exact typeAt_variadic (h.not_atTerminator _) (ih trivial hrest n (by simp [Phrase.lead]; omega))
  | @modified ts rest t ms h hms ih =>
    obtain ⟨token, us, rfl, h₁, h₂, h₃⟩ := h.basic_head
    simp only [Phrase.lead, List.length_append, List.length_cons] at hn
    obtain ⟨n, rfl⟩ := Nat.exists_eq_add_one.mpr (show 0 < n by omega)
    have hfollow : (ms.flatMap (·.tokens) ++ rest).head?.all canFollow := by
      cases ms with
      | nil => exact hrest
      | cons m ms => cases m <;> rfl
    have hbasic := ih trivial hfollow n (by simp [Phrase.lead]; omega)
    simp only [Phrase.parser, List.cons_append, List.append_assoc] at hbasic ⊢
    rw [typeAt_succ_eq n h₁ h₂ h₃, hbasic]
    simp [bind, Except.bind, pure, Except.pure, modified_complete hms]
  | @top ts rest members h ih =>
    have hs := ih Phrase.proper_types ⟨head_all_canFollow hrest.1, hrest.2⟩ n hn
    obtain ⟨t, more⟩ := members
    simp only [Phrase.parser] at hs ⊢
    rw [TypeExpr.top, hs]
    cases more <;> rfl
  | all => rfl
  | null => rfl
  | name hname =>
    exact (basic_of_nameOf? hname (head_ne_of_all hrest rfl)).trans (arguments_of_follow hrest _)
  | @application token start text ts rest first more hname hstart h ih =>
    simp only [Phrase.lead, List.length_append, List.length_cons, List.length_nil] at hn
    have hs := ih Phrase.proper_arguments ⟨⟨rfl, by simp⟩, by simp⟩ n (by simp [Phrase.lead]; omega)
    have hargs : arguments (typeAt n) (.name text) (start :: (ts ++ .mark '>' :: rest)) =
        .ok (.application (.name text) (first :: more), rest) := by
      rcases hstart with rfl | rfl <;>
        simp [arguments, hs, close, bind, Except.bind, pure, Except.pure]
    simp only [Phrase.parser, List.cons_append, List.append_assoc, List.nil_append]
    rw [basic_of_nameOf? hname (by rcases hstart with rfl | rfl <;> simp), hargs]
  | noMembers => rfl
  | @union ts rest first more h ih =>
    simp only [Phrase.lead, List.length_append, List.length_cons, List.length_nil] at hn
    have hs := ih Phrase.proper_types ⟨rfl, by simp⟩ n (by simp [Phrase.lead]; omega)
    simp only [Phrase.parser, List.cons_append, List.append_assoc]
    exact unionMembers_of_separated (h.head_ne trivial rfl _) hs
  | @array ts rest types h ih =>
    simp only [Phrase.lead, List.length_cons] at hn
    have hl := ih (Phrase.proper_list (.inl rfl) (.inr (.inl rfl))) trivial n
      (by simp [Phrase.lead]; omega)
    simp only [Phrase.parser] at hl
    simp [TypeExpr.basic, hl, bind, Except.bind, pure, Except.pure]
  | @record ts rest fields h ih =>
    simp only [Phrase.lead, List.length_cons] at hn
    have hl := ih (Phrase.proper_list (.inr (.inl rfl)) (.inr (.inr rfl))) trivial n
      (by simp [Phrase.lead]; omega)
    simp only [Phrase.parser] at hl
    simp [TypeExpr.basic, hl, bind, Except.bind, pure, Except.pure]
  | @function ts rest params h ih =>
    simp only [Phrase.lead, List.length_cons] at hn
    have hl := ih (Phrase.proper_list (.inr (.inr rfl)) (.inl rfl)) trivial n
      (by simp [Phrase.lead]; omega)
    exact functionType_of_list hl (head_ne_of_all hrest rfl)
  | @functionTo ts us rest params result h hr ih ihr =>
    simp only [Phrase.lead, List.length_append, List.length_cons] at hn
    have hl := ih (Phrase.proper_list (.inr (.inr rfl)) (.inl rfl)) trivial n
      (by simp [Phrase.lead]; omega)
    -- The parameters end with their own mark; the result ends where the function does.
    have hresult := ihr trivial hrest n (by simp [Phrase.lead]; omega)
    simp only [Phrase.parser, List.cons_append, List.append_assoc]
    exact functionType_of_result hl hresult
  | key hkey => exact field_of_key hkey (head_ne_of_all hrest.1 rfl)
  | @field token key ts rest t hkey h ih =>
    have htop := ih trivial hrest n (by simp [Phrase.lead] at hn ⊢; omega)
    simp only [Phrase.parser] at htop
    simp [TypeExpr.field, fieldKey_of_keyOf? hkey, htop, bind, Except.bind, pure, Except.pure]
  | @receiver ts rest t h ih | @constructed ts rest t h ih =>
    have htop := ih trivial hrest n (by simp [Phrase.lead] at hn ⊢; omega)
    simp only [Phrase.parser] at htop
    simp [TypeExpr.param, htop, bind, Except.bind, pure, Except.pure]
  | plain h ih =>
    -- No colon follows the parameter, so its first word is not read as a keyword.
    exact param_of_top (ih trivial hrest n hn) (head_ne_of_all hrest.1 rfl)
  | one h ih =>
    exact separated_one (ih hp.1 hrest.1 n hn) hrest.2
  | @more c item ts us rest a b bs h hs ih ihs =>
    simp only [Phrase.lead, List.length_append, List.length_cons] at hn
    have ha := ih hp.1 (hp.2 _) n (by omega)
    have hb := ihs hp hrest n (by simp only [Phrase.lead]; omega)
    rw [List.append_assoc]
    exact separated_more (item.parser_shortens n) ha hb
  | nil => exact list_nil _
  | @last c item ts rest a h ih =>
    obtain ⟨hitem, hsingle, hc, hclosing, -, hfollow⟩ := hp
    simp only [Phrase.lead, List.length_append, List.length_cons] at hn
    have ha := ih hitem (hfollow _) n (by omega)
    rw [List.append_assoc]
    exact list_last (item.parser_shortens n) hc (h.head_ne hsingle hclosing _) ha
  | @cons c item ts us rest a as h hs ih ihs =>
    obtain ⟨hitem, hsingle, -, hclosing, hcomma, -⟩ := id hp
    simp only [Phrase.lead, List.length_append, List.length_cons] at hn
    have ha := ih hitem (hcomma _) n (by omega)
    have has := ihs hp hrest n (by simp only [Phrase.lead]; omega)
    rw [List.append_assoc]
    exact list_cons (item.parser_shortens n) (h.head_ne hsingle hclosing _) ha has

/-! ## The reader and the grammar -/

/-- Tokens denote a type exactly when the grammar derives it from all of them. -/
theorem ofTokens_eq_ok_iff {ts : List Token} {t : TypeExpr} :
    ofTokens ts = .ok t ↔ ts ≠ [] ∧ Derives .top ts [] t := by
  constructor
  · intro h
    unfold ofTokens at h
    split at h
    · cases h
    · next hne =>
      simp only [Except.bind_eq_ok_iff, Prod.exists] at h
      obtain ⟨t', rest, htop, h⟩ := h
      split at h
      · cases h
        obtain ⟨us, hus, hderives⟩ := top_sound (typeAt_sound _) htop
        rw [List.append_nil] at hus
        exact ⟨by simpa using hne, hus ▸ hderives⟩
      · cases h
  · rintro ⟨hne, h⟩
    have htop : top (typeAt ts.length) ts = .ok (t, []) := by
      simpa using h.accepted trivial ⟨rfl, by simp⟩ ts.length (Nat.le_refl _)
    simp [ofTokens, hne, htop, bind, Except.bind, pure, Except.pure]

theorem parse_eq_ok_iff {source : Text} {t : TypeExpr} :
    parse source = .ok t ↔
      ∃ ts, Token.tokens source = .ok ts ∧ ts ≠ [] ∧ Derives .top ts [] t := by
  unfold parse
  cases Token.tokens source with
  | error c => simp
  | ok ts => simp [ofTokens_eq_ok_iff]

/-- Before a modifier a type is made of prefixes alone, and the modifier is the one that can end
a type. -/
theorem Derives.prefixes_of_startsModifier {p : Phrase} {ts rest : List Token} {a : p.Meaning}
    (h : Derives p ts rest a) (hp : p = .type) (hrest : StartsModifier rest) :
    atTerminator rest ∧
      ∀ token ∈ ts, token = .mark '?' ∨ token = .mark '!' ∨ token = .ellipsis := by
  induction h with
  | wildcard hend | anything hend => exact ⟨hend, by simp⟩
  | nullable _ ih | nonNull _ ih | variadic _ ih =>
    obtain ⟨hend, hts⟩ := ih rfl hrest
    exact ⟨hend, List.forall_mem_cons.mpr ⟨by simp, hts⟩⟩
  | modified _ hms => exact absurd hrest hms
  | _ => cases hp

/-- **The reader accepts exactly the grammar, and the grammar is unambiguous.** A text denotes a
type if and only if it is cut into tokens, one at least, from which the grammar derives that type,
and it derives no other. A type that a modifier stands after, as the result of a function can be,
consists of prefixes alone, and the modifier is `=`: any other type takes the modifier itself. -/
theorem parse_iff_derives (source : Text) :
    (∀ t, parse source = .ok t ↔
      ∃ ts, Token.tokens source = .ok ts ∧ ts ≠ [] ∧ Derives .top ts [] t) ∧
    (∀ ts t u, Derives .top ts [] t → Derives .top ts [] u → t = u) ∧
    ∀ (m : Modifier) (ts rest : List Token) (t : TypeExpr), Derives .type ts (m.tokens ++ rest) t →
      m = .optional ∧ ∀ token ∈ ts, token = .mark '?' ∨ token = .mark '!' ∨ token = .ellipsis := by
  refine ⟨fun t => parse_eq_ok_iff, fun ts t u ht hu => ?_, fun m ts rest t h => ?_⟩
  · obtain ⟨token, us, rfl, -⟩ := ht.exists_head trivial
    have ht := ofTokens_eq_ok_iff.mpr ⟨List.cons_ne_nil token us, ht⟩
    have hu := ofTokens_eq_ok_iff.mpr ⟨List.cons_ne_nil token us, hu⟩
    exact Except.ok.inj (ht.symm.trans hu)
  · obtain ⟨hend, hts⟩ := h.prefixes_of_startsModifier rfl ⟨m, List.prefix_append _ _⟩
    refine ⟨?_, hts⟩
    cases m with
    | optional => rfl
    | nullable | nonNull | array =>
      exact absurd hend (by simp [Modifier.tokens, atTerminator, isTerminator])

/-- An optional function, the words of which are names, too. -/
theorem parse_iff_derives_optional_function :
    ∃ ts, Token.tokens "function(this, new:null[]):?=" = .ok ts ∧ ts ≠ [] ∧
      Derives .top ts [] (.optional (.function [.name "this"] (some .all) none
        (some (.application (.name "Array") [.null])))) :=
  ((parse_iff_derives "function(this, new:null[]):?=").1 _).mp rfl

end DocModel.TypeExpr
