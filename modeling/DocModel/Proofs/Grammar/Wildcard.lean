import DocModel.Proofs.Grammar.BlankEnds
import DocModel.Proofs.Grammar.Completeness

/-!
# The question mark that stands alone

A `?` is a type of its own where a type can end, and then it means what `*` means. The two are read
on different ways, though: a `*` is a basic type and takes the modifiers that follow, while a `?`
that stands alone is done. Most of the tokens at which a type can end are no modifiers, and before
them the two ways lead to the same place (`typeAt_wildcard`). The exception is `=`. It ends a type,
so the `?` before it stands alone, and it is a modifier, which nothing is left to take: `?=` is no
type, although `*=` is one (`parse_wildcard_optional`).
-/

namespace DocModel.TypeExpr

/-! ## The first token -/

/-- The first token of a text, if the text starts with one. -/
def Token.first? (t : Text) : Option Token := (Token.read? (Text.stripLeft t)).map (·.1)

/-- The first token of a text is the first of its tokens. -/
theorem Token.head?_tokens {t : Text} {ts : List Token} (h : Token.tokens t = .ok ts) :
    ts.head? = Token.first? t := by
  rw [← Token.tokens_stripLeft] at h
  unfold Token.first?
  cases ht : Text.stripLeft t with
  | nil =>
    rw [ht] at h
    cases h
    rfl
  | cons c rest =>
    have hc := Text.not_isBlank_of_stripLeft ht
    rw [ht] at h
    cases hread : Token.read? (c :: rest) with
    | none =>
      rw [Token.tokens_of_read?_none hc hread] at h
      cases h
    | some found =>
      obtain ⟨token, after⟩ := found
      rw [Token.tokens_of_read? hc hread] at h
      cases hafter : Token.tokens after with
      | error d =>
        rw [hafter] at h
        cases h
      | ok us =>
        rw [hafter] at h
        cases h
        rfl

/-! ## The two ways -/

/-- No modifier stands where a type can end, unless it is `=`. -/
theorem not_startsModifier_of_atTerminator {ts : List Token} (h : atTerminator ts = true)
    (hoptional : ts.head? ≠ some (.mark '=')) : ¬ StartsModifier ts := by
  rintro ⟨m, us, rfl⟩
  cases m with
  | optional => exact hoptional rfl
  | nullable | nonNull | array => exact Bool.noConfusion h

/-- **A `?` that stands alone is read like `*`**, wherever a type stands, before every token that
can end a type but `=`. -/
theorem typeAt_wildcard {ts : List Token} (h : atTerminator ts = true)
    (hoptional : ts.head? ≠ some (.mark '=')) (n : Nat) :
    typeAt (n + 1) (.mark '?' :: ts) = typeAt (n + 1) (.mark '*' :: ts) := by
  have hmodified : modified .all ts = (.all, ts) :=
    modified_complete (not_startsModifier_of_atTerminator h hoptional) .all []
  have hstar : typeAt (n + 1) (.mark '*' :: ts) = .ok (modified .all ts) :=
    typeAt_succ_eq n (by decide) (by decide) (by decide)
  have hquestion : typeAt (n + 1) (.mark '?' :: ts) = .ok (.all, ts) := if_pos h
  rw [hquestion, hstar, hmodified]

theorem ofTokens_wildcard {ts : List Token} (h : atTerminator ts = true)
    (hoptional : ts.head? ≠ some (.mark '=')) :
    ofTokens (.mark '?' :: ts) = ofTokens (.mark '*' :: ts) := by
  have htop : top (typeAt (ts.length + 1)) (.mark '?' :: ts)
      = top (typeAt (ts.length + 1)) (.mark '*' :: ts) := by
    unfold top separated
    rw [typeAt_wildcard h hoptional]
  unfold ofTokens
  rw [List.length_cons, List.length_cons, htop]
  rfl

/-- Before `=` nothing is left to take the modifier. -/
theorem ofTokens_wildcard_optional {ts : List Token} (h : ts.head? = some (.mark '=')) :
    ofTokens (.mark '?' :: ts) = .error (.unexpected (some (.mark '='))) := by
  obtain ⟨us, rfl⟩ := List.head?_eq_some_iff.mp h
  have htop : top (typeAt (us.length + 1 + 1)) (.mark '?' :: .mark '=' :: us)
      = .ok (.all, .mark '=' :: us) := by
    unfold top
    rw [separated_one (if_pos rfl) (by simp)]
    rfl
  unfold ofTokens
  rw [List.length_cons, List.length_cons, htop]
  rfl

/-! ## Texts -/

/-- **When a `?` that stands alone means the same as `*`.** Before a blank rest and before every
token that can end a type but `=`, the two are read alike: as the same type, or with the same
problem. Before `=` a `?` is always refused. -/
theorem parse_wildcard (r : Text)
    (hr : Text.blank r = true ∨ ∃ token, Token.first? r = some token ∧ isTerminator token = true) :
    (Token.first? r ≠ some (.mark '=') → parse ('?' :: r) = parse ('*' :: r)) ∧
      (Token.first? r = some (.mark '=') → ∃ problem, parse ('?' :: r) = .error problem) := by
  unfold parse
  rw [Token.tokens_cons_of_isMark rfl, Token.tokens_cons_of_isMark rfl]
  cases hts : Token.tokens r with
  | error c => exact ⟨fun _ => rfl, fun _ => ⟨.strayChar c, rfl⟩⟩
  | ok ts =>
    have hhead := Token.head?_tokens hts
    have hend : atTerminator ts = true := by
      rw [atTerminator, hhead]
      obtain hblank | ⟨token, hfirst, htoken⟩ := hr
      · rw [Token.first?, Text.stripLeft_eq_nil_iff.mpr hblank]
        rfl
      · rw [hfirst]
        exact htoken
    rw [← hhead]
    exact ⟨ofTokens_wildcard hend, fun h => ⟨_, ofTokens_wildcard_optional h⟩⟩

/-- A union whose first member is a `?` that stands alone, with a blank before the bar. -/
theorem parse_wildcard_union :
    parse "? |a" = .ok (.union [.all, .name "a"]) ∧ ∃ problem, parse "?=|a" = .error problem := by
  have hbar := parse_wildcard " |a" (.inr ⟨.mark '|', rfl, rfl⟩)
  have hoptional := parse_wildcard "=|a" (.inr ⟨.mark '=', rfl, rfl⟩)
  exact ⟨hbar.1 (by decide), hoptional.2 rfl⟩

/-- **Before `=` the two differ**: a parameter that may be left out is `*=`, and not `?=`. -/
theorem parse_wildcard_optional :
    let r : Text := "="
    (∃ token, Token.first? r = some token ∧ isTerminator token = true) ∧
      parse ('?' :: r) = .error (.unexpected (some (.mark '='))) ∧
      parse ('*' :: r) = .ok (.optional .all) :=
  ⟨⟨.mark '=', rfl, rfl⟩, rfl, rfl⟩

end DocModel.TypeExpr
