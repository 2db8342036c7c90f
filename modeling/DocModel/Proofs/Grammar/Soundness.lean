import DocModel.Proofs.Basic
import DocModel.Proofs.Grammar.Rules

/-!
# What the readers of type expressions answer

Every answer of a reader is a phrase of the grammar: the tokens that it takes off the front of
its input derive the value that it answers with, and it leaves the rest as it is. There is one
lemma for each reader, which says what it answers if the readers of its parts are sound.
-/

namespace DocModel.TypeExpr

/-- Whether a parser answers only with phrases of a kind, which it takes off its input. -/
def Sound (p : Phrase) (parser : Parser p.Meaning) : Prop :=
  ∀ ⦃input a rest⦄, parser input = .ok (a, rest) → ∃ ts, input = ts ++ rest ∧ Derives p ts rest a

section Sequences

variable {c : Char} {item : Phrase} {parser : Parser item.Meaning}

theorem close_eq_ok {input rest : List Token} {u : Unit} (h : close c input = .ok (u, rest)) :
    input = .mark c :: rest := by
  cases input with
  | nil => simp [close] at h
  | cons t ts =>
    simp only [close] at h
    split at h <;> simp_all

/-- Further items are none, or the mark and one item or more. -/
theorem following_sound (hp : Sound item parser) (n : Nat) {input rest : List Token}
    {as : List item.Meaning} (h : following c parser n input = .ok (as, rest)) :
    as = [] ∧ input = rest ∨
      ∃ b bs us, as = b :: bs ∧ input = .mark c :: us ++ rest ∧
        Derives (.separated c item) us rest (b, bs) := by
  induction n generalizing input as with
  | zero => simp_all [following]
  | succ n ih =>
    cases input with
    | nil => simp_all [following]
    | cons t ts =>
      simp only [following] at h
      split at h
      · next ht =>
        simp only [Except.bind_eq_ok_iff, Prod.exists] at h
        obtain ⟨b, mid, hb, bs, rest', hbs, heq⟩ := h
        obtain ⟨rfl, rfl⟩ : b :: bs = as ∧ rest' = rest := by simpa [pure, Except.pure] using heq
        obtain ⟨us, rfl, hus⟩ := hp hb
        refine .inr ⟨b, bs, ?_⟩
        rcases ih hbs with ⟨rfl, rfl⟩ | ⟨d, ds, vs, rfl, rfl, hvs⟩
        · exact ⟨us, rfl, by rw [ht]; rfl, .one hus⟩
        · exact ⟨us ++ .mark c :: vs, rfl, by simp [ht], .more hus hvs⟩
      · simp_all

theorem separated_sound (hp : Sound item parser) :
    Sound (.separated c item) (separated c parser) := by
  rintro input ⟨a, as⟩ rest h
  simp only [separated, Except.bind_eq_ok_iff, Prod.exists] at h
  obtain ⟨a', mid, ha, as', rest', has, heq⟩ := h
  obtain ⟨⟨rfl, rfl⟩, rfl⟩ : (a' = a ∧ as' = as) ∧ rest' = rest := by
    simpa [pure, Except.pure] using heq
  obtain ⟨ts, rfl, hts⟩ := hp ha
  rcases following_sound hp _ has with ⟨rfl, rfl⟩ | ⟨b, bs, us, rfl, rfl, hus⟩
  · exact ⟨ts, rfl, .one hts⟩
  · exact ⟨ts ++ .mark c :: us, by simp, .more hts hus⟩

theorem items_sound (hp : Sound item parser) (n : Nat) {input rest : List Token}
    {as : List item.Meaning} (h : items c parser n input = .ok (as, rest)) :
    ∃ ts, input = ts ++ rest ∧ Derives (.list c item) ts rest as := by
  induction n generalizing input as with
  | zero => simp [items] at h
  | succ n ih =>
    simp only [items] at h
    split at h
    · next hc =>
      obtain ⟨ts, rfl⟩ : ∃ ts, input = .mark c :: ts := by
        cases input <;> simp_all
      obtain ⟨rfl, rfl⟩ : [] = as ∧ ts = rest := by simpa using h
      exact ⟨[.mark c], rfl, .nil⟩
    · simp only [Except.bind_eq_ok_iff, Prod.exists] at h
      obtain ⟨a, mid, ha, h⟩ := h
      obtain ⟨ts, rfl, hts⟩ := hp ha
      split at h
      · next us _ =>
        obtain ⟨as', rest', has, rfl, rfl⟩ :
            ∃ as' rest', items c parser n us = .ok (as', rest') ∧ a :: as' = as ∧ rest' = rest := by
          simpa [Except.bind_eq_ok_iff, pure, Except.pure] using h
        obtain ⟨vs, rfl, hvs⟩ := ih has
        exact ⟨ts ++ .mark ',' :: vs, by simp, .cons hts hvs⟩
      · split at h
        · next hc =>
          -- no comma: the next round meets the closing mark and ends
          obtain ⟨us, rfl⟩ : ∃ us, mid = .mark c :: us := by cases mid <;> simp_all
          obtain ⟨rfl, rfl⟩ : [a] = as ∧ us = rest := by
            cases n with
            | zero => simp [items, bind, Except.bind] at h
            | succ n => simpa [items, bind, Except.bind, pure, Except.pure] using h
          exact ⟨ts ++ [.mark c], by simp, .last hts⟩
        · simp [bind, Except.bind] at h

theorem list_sound (hp : Sound item parser) : Sound (.list c item) (list c parser) :=
  fun _ _ _ h => items_sound hp _ h

end Sequences

theorem modified_sound (t : TypeExpr) (input : List Token) :
    ∃ ms : List Modifier, input = ms.flatMap (·.tokens) ++ (modified t input).2 ∧
      ¬ StartsModifier (modified t input).2 ∧
      (modified t input).1 = ms.foldl (fun t m => m.apply t) t := by
  fun_induction modified t input with
  | case1 t ts ih =>
    obtain ⟨ms, hts, hrest, hm⟩ := ih
    exact ⟨.optional :: ms, congrArg (Modifier.optional.tokens ++ ·) hts, hrest, hm⟩
  | case2 t ts ih =>
    obtain ⟨ms, hts, hrest, hm⟩ := ih
    exact ⟨.nullable :: ms, congrArg (Modifier.nullable.tokens ++ ·) hts, hrest, hm⟩
  | case3 t ts ih =>
    obtain ⟨ms, hts, hrest, hm⟩ := ih
    exact ⟨.nonNull :: ms, congrArg (Modifier.nonNull.tokens ++ ·) hts, hrest, hm⟩
  | case4 t ts ih =>
    obtain ⟨ms, hts, hrest, hm⟩ := ih
    exact ⟨.array :: ms, congrArg (Modifier.array.tokens ++ ·) hts, hrest, hm⟩
  | case5 t ts h₁ h₂ h₃ h₄ =>
    refine ⟨[], rfl, ?_, rfl⟩
    rintro ⟨m, us, rfl⟩
    cases m with
    | optional => exact h₁ _ rfl
    | nullable => exact h₂ _ rfl
    | nonNull => exact h₃ _ rfl
    | array => exact h₄ _ rfl

section Constructs

variable {type : Parser TypeExpr}

theorem top_sound (ht : Sound .type type) : Sound .top (top type) := by
  intro input t rest h
  simp only [top, Except.bind_eq_ok_iff, Prod.exists] at h
  obtain ⟨first, more, rest', hs, heq⟩ := h
  obtain ⟨ts, rfl, hts⟩ := separated_sound ht hs
  obtain ⟨rfl, rfl⟩ : joined (first, more) = t ∧ rest' = rest := by
    cases more <;> simpa [pure, Except.pure, joined] using heq
  exact ⟨ts, rfl, .top hts⟩

/-- After a name there are no arguments, or some in angle brackets. -/
theorem arguments_sound (ht : Sound .type type) {base t : TypeExpr} {input rest : List Token}
    (h : arguments type base input = .ok (t, rest)) :
    t = base ∧ input = rest ∨
      ∃ start ts first more, (start = .opening ∨ start = .mark '<') ∧
        input = start :: ts ++ .mark '>' :: rest ∧
        Derives (.separated ',' .top) ts (.mark '>' :: rest) (first, more) ∧
        t = .application base (first :: more) := by
  have bracketed : ∀ {us mid after : List Token} {first : TypeExpr} {more : List TypeExpr},
      separated ',' (top type) us = .ok ((first, more), mid) → close '>' mid = .ok ((), after) →
      ∃ ts, us = ts ++ .mark '>' :: after ∧
        Derives (.separated ',' .top) ts (.mark '>' :: after) (first, more) := by
    intro us mid after first more hs hc
    obtain ⟨ts, rfl, hts⟩ := separated_sound (top_sound ht) hs
    obtain rfl := close_eq_ok hc
    exact ⟨ts, rfl, hts⟩
  unfold arguments at h
  split at h
  · simp only [Except.bind_eq_ok_iff, Prod.exists] at h
    obtain ⟨first, more, mid, hs, _, after, hc, heq⟩ := h
    cases heq
    obtain ⟨ts, rfl, hts⟩ := bracketed hs hc
    exact .inr ⟨.opening, ts, first, more, .inl rfl, rfl, hts, rfl⟩
  · simp only [Except.bind_eq_ok_iff, Prod.exists] at h
    obtain ⟨first, more, mid, hs, _, after, hc, heq⟩ := h
    cases heq
    obtain ⟨ts, rfl, hts⟩ := bracketed hs hc
    exact .inr ⟨.mark '<', ts, first, more, .inr rfl, rfl, hts, rfl⟩
  · exact .inl (by simp_all)

theorem unionMembers_sound (ht : Sound .type type) {t : TypeExpr} {input rest : List Token}
    (h : unionMembers type input = .ok (t, rest)) :
    ∃ ts, .mark '(' :: input = ts ++ rest ∧ Derives .basic ts rest t := by
  unfold unionMembers at h
  split at h
  · next hc =>
    obtain ⟨us, rfl⟩ : ∃ us, input = .mark ')' :: us := by cases input <;> simp_all
    obtain ⟨rfl, rfl⟩ : .union [] = t ∧ us = rest := by simpa using h
    exact ⟨[.mark '(', .mark ')'], rfl, .noMembers⟩
  · simp only [Except.bind_eq_ok_iff, Prod.exists] at h
    obtain ⟨first, more, mid, hs, _, rest', hc, heq⟩ := h
    obtain ⟨rfl, rfl⟩ : .union (first :: more) = t ∧ rest' = rest := by
      simpa [pure, Except.pure] using heq
    obtain ⟨ts, rfl, hts⟩ := separated_sound ht hs
    obtain rfl := close_eq_ok hc
    exact ⟨.mark '(' :: ts ++ [.mark ')'], by simp, .union hts⟩

theorem fieldKey_eq_ok {input rest : List Token} {key : Text}
    (h : fieldKey input = .ok (key, rest)) :
    ∃ token, input = token :: rest ∧ keyOf? token = some key := by
  unfold fieldKey at h
  split at h <;> simp_all [keyOf?]

theorem field_sound (ht : Sound .type type) : Sound .field (field type) := by
  rintro input ⟨key, value⟩ rest h
  simp only [field, Except.bind_eq_ok_iff, Prod.exists] at h
  obtain ⟨key', mid, hk, h⟩ := h
  obtain ⟨token, rfl, htoken⟩ := fieldKey_eq_ok hk
  split at h
  · simp only [Except.bind_eq_ok_iff, Prod.exists] at h
    obtain ⟨t, rest', htop, heq⟩ := h
    obtain ⟨⟨rfl, rfl⟩, rfl⟩ : (key' = key ∧ some t = value) ∧ rest' = rest := by
      simpa [pure, Except.pure] using heq
    obtain ⟨ts, rfl, hts⟩ := top_sound ht htop
    exact ⟨token :: .mark ':' :: ts, rfl, .field htoken hts⟩
  · obtain ⟨⟨rfl, rfl⟩, rfl⟩ : (key' = key ∧ none = value) ∧ mid = rest := by
      simpa [pure, Except.pure] using h
    exact ⟨[token], rfl, .key htoken⟩

theorem param_plain_sound (ht : Sound .type type) : Sound .param (param.plain type) := by
  intro input p rest h
  simp only [param.plain, Except.bind_eq_ok_iff, Prod.exists] at h
  obtain ⟨t, rest', htop, heq⟩ := h
  obtain ⟨rfl, rfl⟩ : .plain t = p ∧ rest' = rest := by simpa [pure, Except.pure] using heq
  obtain ⟨ts, rfl, hts⟩ := top_sound ht htop
  exact ⟨ts, rfl, .plain hts⟩

theorem param_sound (ht : Sound .type type) : Sound .param (param type) := by
  intro input p rest h
  unfold param at h
  split at h
  · split at h
    · next w _ hw =>
      simp only [Except.bind_eq_ok_iff, Prod.exists] at h
      obtain ⟨t, rest', htop, heq⟩ := h
      obtain ⟨rfl, rfl⟩ : .receiver t = p ∧ rest' = rest := by simpa [pure, Except.pure] using heq
      obtain ⟨ts, rfl, hts⟩ := top_sound ht htop
      exact ⟨.word w :: .mark ':' :: ts, rfl, by rw [hw]; exact .receiver hts⟩
    · split at h
      · next w _ _ hw =>
        simp only [Except.bind_eq_ok_iff, Prod.exists] at h
        obtain ⟨t, rest', htop, heq⟩ := h
        obtain ⟨rfl, rfl⟩ : .constructed t = p ∧ rest' = rest := by
          simpa [pure, Except.pure] using heq
        obtain ⟨ts, rfl, hts⟩ := top_sound ht htop
        exact ⟨.word w :: .mark ':' :: ts, rfl, by rw [hw]; exact .constructed hts⟩
      · exact param_plain_sound ht h
  · exact param_plain_sound ht h

theorem functionType_sound (ht : Sound .type type) {t : TypeExpr} {input rest : List Token}
    (h : functionType type input = .ok (t, rest)) :
    ∃ ts, .word "function" :: .mark '(' :: input = ts ++ rest ∧ Derives .basic ts rest t := by
  simp only [functionType, Except.bind_eq_ok_iff, Prod.exists] at h
  obtain ⟨params, mid, hl, h⟩ := h
  obtain ⟨ts, rfl, hts⟩ := list_sound (param_sound ht) hl
  split at h
  · simp only [Except.bind_eq_ok_iff, Prod.exists] at h
    obtain ⟨r, rest', hr, _, _, hsome, heq⟩ := h
    cases hsome
    cases heq
    obtain ⟨us, rfl, hus⟩ := ht hr
    exact ⟨.word "function" :: .mark '(' :: ts ++ .mark ':' :: us, by simp, .functionTo hts hus⟩
  · cases h
    exact ⟨.word "function" :: .mark '(' :: ts, rfl, .function hts⟩

theorem basic_sound (ht : Sound .type type) : Sound .basic (basic type) := by
  intro input t rest h
  unfold basic at h
  split at h
  · cases h
  · cases h
    exact ⟨[.mark '*'], rfl, .all⟩
  · exact unionMembers_sound ht h
  · simp only [Except.bind_eq_ok_iff, Prod.exists] at h
    obtain ⟨types, rest', hl, heq⟩ := h
    cases heq
    obtain ⟨ts, rfl, hts⟩ := list_sound (top_sound ht) hl
    exact ⟨.mark '[' :: ts, rfl, .array hts⟩
  · simp only [Except.bind_eq_ok_iff, Prod.exists] at h
    obtain ⟨fields, rest', hl, heq⟩ := h
    cases heq
    obtain ⟨ts, rfl, hts⟩ := list_sound (field_sound ht) hl
    exact ⟨.mark '\x7b' :: ts, rfl, .record hts⟩
  · next w ts =>
    split at h
    · next hw =>
      obtain ⟨us, rfl⟩ : ∃ us, ts = .mark '(' :: us := by cases ts <;> simp_all
      rw [hw.1]
      exact functionType_sound ht h
    · split at h
      · next hw =>
        cases h
        exact ⟨[.word w], rfl, by rw [hw]; exact .null⟩
      · next hw =>
        have hname : nameOf? (.word w) = some w := if_neg hw
        rcases arguments_sound ht h with ⟨rfl, rfl⟩ | ⟨start, us, first, more, hs, rfl, hus, rfl⟩
        · exact ⟨[.word w], rfl, .name hname⟩
        · exact ⟨.word w :: start :: us ++ [.mark '>'], by simp, .application hname hs hus⟩
  · next text ts =>
    rcases arguments_sound ht h with ⟨rfl, rfl⟩ | ⟨start, us, first, more, hs, rfl, hus, rfl⟩
    · exact ⟨[.literal text], rfl, .name rfl⟩
    · exact ⟨.literal text :: start :: us ++ [.mark '>'], by simp, .application rfl hs hus⟩
  · cases h

end Constructs

/-- **Every answer of the reader is a type of the grammar**, by induction on the depth. -/
theorem typeAt_sound (n : Nat) : Sound .type (typeAt n) := by
  induction n with
  | zero => intro input t rest h; simp [typeAt] at h
  | succ n ih =>
    intro input t rest h
    rw [typeAt.eq_def] at h
    split at h
    · cases h
    · next n' ts hn =>
      cases hn
      split at h
      · next hend =>
        cases h
        exact ⟨[.mark '?'], rfl, .wildcard hend⟩
      · simp only [Except.bind_eq_ok_iff, Prod.exists] at h
        obtain ⟨t', rest', ht', heq⟩ := h
        cases heq
        obtain ⟨us, rfl, hus⟩ := ih ht'
        exact ⟨.mark '?' :: us, rfl, .nullable hus⟩
    · next n' ts hn =>
      cases hn
      obtain ⟨us, rfl, hus⟩ := ih h
      exact ⟨.mark '!' :: us, rfl, .nonNull hus⟩
    · next n' ts hn =>
      cases hn
      split at h
      · next hend =>
        cases h
        exact ⟨[.ellipsis], rfl, .anything hend⟩
      · simp only [Except.bind_eq_ok_iff, Prod.exists] at h
        obtain ⟨t', rest', ht', heq⟩ := h
        cases heq
        obtain ⟨us, rfl, hus⟩ := ih ht'
        exact ⟨.ellipsis :: us, rfl, .variadic hus⟩
    · next n' hn _ _ _ =>
      cases hn
      simp only [Except.bind_eq_ok_iff, Prod.exists] at h
      obtain ⟨b, mid, hb, heq⟩ := h
      obtain ⟨us, rfl, hus⟩ := basic_sound ih hb
      obtain ⟨ms, hmid, hrest, hm⟩ := modified_sound b mid
      obtain ⟨rfl, rfl⟩ : (modified b mid).1 = t ∧ (modified b mid).2 = rest := by
        simpa [pure, Except.pure, Prod.ext_iff] using heq
      rw [hmid] at hus
      exact ⟨us ++ ms.flatMap (·.tokens), by rw [List.append_assoc, ← hmid],
        hm ▸ .modified hus hrest⟩

end DocModel.TypeExpr
