import DocModel.Proofs.Grammar.Braces
import DocModel.Proofs.Text.Classes

/-!
# Look-ups

Where the first character of a token or the first word of a text is asked for, the functions that
read comments are total: the kind of the token gives the answer, or a pattern does. Nothing of this
shows that the character or the word is there. To say so, the same notation is read with open eyes,
by computations in which a look-up that finds nothing and a loop that never ends are outcomes of
their own, apart from a text that is refused (`Checked`).

This module has these outcomes, and the look-up on which the reading of types rests: a token that is
cut from a text is not empty, and its first character tells its kind
(`TypeExpr.Token.Readable.firstKind_eq`).
-/

namespace DocModel

/-! ## Outcomes -/

/-- Why a computation ends without a result. -/
inductive Stop (ε : Type) where
  /-- What is read is refused, with a problem as the reason. -/
  | refused (problem : ε)
  /-- What was asked for is not there. -/
  | undefined
  deriving DecidableEq

/-- The same reason with another problem. -/
def Stop.map {ε ε' : Type} (f : ε → ε') : Stop ε → Stop ε'
  | refused problem => refused (f problem)
  | undefined => undefined

/-- **The outcome of a computation with open eyes**, which is `none` if the computation never
ends. -/
abbrev Checked (ε α : Type) := ExceptT (Stop ε) Option α

namespace Checked

variable {ε ε' α β : Type}

/-- What was asked for, if it is there. -/
def found : Option α → Checked ε α
  | some a => return a
  | none => throw .undefined

/-- What stands at a place of a list. -/
def lookUp (l : List α) (i : Nat) : Checked ε α := found l[i]?

/-- Refuses what is read. -/
def refuse (problem : ε) : Checked ε α := throw (.refused problem)

/-- **A computation that ends, and fails in no other way than with a problem.** -/
def declared : Except ε α → Checked ε α
  | .ok a => return a
  | .error problem => refuse problem

/-- A computation whose problems are reported as others. -/
def report (f : ε → ε') (x : Checked ε α) : Checked ε' α := x.adapt (Stop.map f)

theorem lookUp_of_getElem? {l : List α} {i : Nat} {a : α} (h : l[i]? = some a) :
    (lookUp l i : Checked ε α) = pure a := by
  rw [lookUp, h, found]

/-- A computation in two steps fails only with a problem if both steps do. -/
theorem declared_bind {x : Except ε α} {f : α → Except ε β} {g : α → Checked ε β}
    (h : ∀ a, x = .ok a → g a = declared (f a)) : (declared x >>= g) = declared (x >>= f) := by
  cases x with
  | error problem => rfl
  | ok a => exact h a rfl

theorem report_declared (f : ε → ε') (x : Except ε α) :
    report f (declared x) = declared (x.mapError f) := by
  cases x <;> rfl

/-- The same for a computation at each member of a list. -/
theorem mapM_declared {f : α → Except ε β} {g : α → Checked ε β} {l : List α}
    (h : ∀ a ∈ l, g a = declared (f a)) : l.mapM g = declared (l.mapM f) := by
  induction l with
  | nil => rfl
  | cons a l ih =>
    obtain ⟨ha, hl⟩ := List.forall_mem_cons.mp h
    rw [List.mapM_cons, List.mapM_cons, ha, ih hl]
    refine declared_bind fun b _ => ?_
    exact declared_bind fun bs _ => rfl

end Checked

namespace TypeExpr

/-! ## The first character of a token -/

namespace Token

/-- The marks around a literal. -/
def isQuote (c : Char) : Bool := c == Text.doubleQuote || c == Text.singleQuote

/-- What a token is where a name or a key should stand. -/
inductive Kind where
  /-- A text between quotation marks. -/
  | literal
  /-- A name or a number. -/
  | word
  /-- Neither of them. -/
  | other
  deriving DecidableEq

/-- The kind of a token. -/
def kind : Token → Kind
  | literal _ => .literal
  | word _ => .word
  | _ => .other

/-- The kind of a token as the token itself tells it. -/
def ownKind (t : Token) : Option Kind := some t.kind

/-- The kind of a token with the first character `c`. -/
def Kind.ofFirst (c : Char) : Kind :=
  if isQuote c then .literal else if isNameChar c then .word else .other

/-- The kind of a token as its first character tells it, if it has one. -/
def firstKind (t : Token) : Option Kind := t.text[0]?.map Kind.ofFirst

theorem isNameChar_of_isNameStart {c : Char} (h : isNameStart c = true) : isNameChar c = true := by
  rw [isNameStart, Bool.or_eq_true, Bool.or_eq_true] at h
  rw [isNameChar, Text.isWordChar, Bool.or_eq_true, Bool.or_eq_true]
  obtain (halpha | hunderscore) | hdollar := h
  · refine .inl (.inl ?_)
    have hascii : c.toNat < 0x80 := by
      obtain hupper | hlower := (Bool.or_eq_true c.isUpper c.isLower).mp halpha
      · have hle : c.val ≤ 'Z'.val := (of_decide_eq_true hupper).2
        exact Nat.lt_of_le_of_lt (UInt32.le_iff_toNat_le.mp hle) (by decide)
      · have hle : c.val ≤ 'z'.val := of_decide_eq_true ((Bool.and_eq_true _ _).mp hlower).2
        exact Nat.lt_of_le_of_lt (UInt32.le_iff_toNat_le.mp hle) (by decide)
    rw [Text.isAlphanumeric, if_pos hascii, Char.isAlphanum, halpha, Bool.true_or]
  · exact .inl (.inr hunderscore)
  · exact .inr hdollar

/-- The digits of each script but the first stand in one interval of letters and numerals. -/
theorem exists_alphanumericRange : ∀ origin ∈ Text.decimalZeros, origin = 0x30 ∨
    (Text.alphanumericRanges.any fun r => r.1 ≤ origin && origin + 9 ≤ r.2) = true :=
  List.forall_mem_of_all (by decide +kernel)

theorem isNameChar_of_isDecimal {c : Char} (h : Text.isDecimal c = true) :
    isNameChar c = true := by
  rw [Text.isDecimal, Text.decimalValue?, Option.isSome_map, List.find?_isSome] at h
  obtain ⟨origin, horigin, hc⟩ := h
  rw [Bool.and_eq_true, decide_eq_true_eq, decide_eq_true_eq] at hc
  have halphanumeric : Text.isAlphanumeric c = true := by
    rw [Text.isAlphanumeric]
    split
    · next hascii =>
      have hzeros : ∀ origin ∈ Text.decimalZeros, origin = 0x30 ∨ 0x80 ≤ origin :=
        List.forall_mem_of_all (by decide)
      obtain rfl : origin = 0x30 := (hzeros origin horigin).resolve_right (by omega)
      have hdigits : ∀ k < 10, (Char.ofNat (0x30 + k)).isAlphanum = true := by decide
      have hdigit := hdigits (c.toNat - 0x30) (by omega)
      rwa [Nat.add_sub_of_le hc.1, Char.ofNat_toNat] at hdigit
    · next hascii =>
      obtain ⟨r, hr, hrange⟩ := List.any_eq_true.mp
        ((exists_alphanumericRange origin horigin).resolve_left (by omega))
      rw [Bool.and_eq_true, decide_eq_true_eq, decide_eq_true_eq] at hrange
      refine List.any_eq_true.mpr ⟨r, hr, ?_⟩
      rw [Bool.and_eq_true, decide_eq_true_eq, decide_eq_true_eq]
      omega
  rw [isNameChar, Text.isWordChar, halphanumeric]
  rfl

theorem readWord?_first {cs w rest : Text} (h : readWord? cs = some (w, rest)) :
    ∃ c tail, w = c :: tail ∧ isNameChar c = true := by
  rcases Option.or_eq_some_iff.mp h with hw | ⟨-, hw⟩
  · rcases readName?_eq hw with ⟨c, tail, rfl, -⟩ | hplain
    · exact ⟨'m', _, rfl, by decide +kernel⟩
    · obtain ⟨c, tail, rfl, hc, -⟩ := readName?_plain_eq hplain
      exact ⟨c, tail, rfl, isNameChar_of_isNameStart hc⟩
  · obtain ⟨c, tail, rfl, hc⟩ := readNumber?_head hw
    exact ⟨c, tail, rfl, isNameChar_of_isDecimal hc⟩

theorem isQuote_eq_false_of_isNameChar {c : Char} (h : isNameChar c = true) :
    isQuote c = false := by
  refine Bool.eq_false_iff.mpr fun hquote => ?_
  rw [isQuote, Bool.or_eq_true, beq_iff_eq, beq_iff_eq] at hquote
  obtain rfl | rfl := hquote
  · exact absurd h (by decide +kernel)
  · exact absurd h (by decide +kernel)

theorem isQuote_of_read? {cs text rest : Text} (h : read? cs = some (literal text, rest)) :
    ∃ c tail, text = c :: tail ∧ isQuote c = true := by
  unfold read? at h
  split at h
  · cases h
  · cases h
  · cases h
  · split at h
    · next hquote =>
      obtain ⟨inside, -, heq⟩ := Option.map_eq_some_iff.mp h
      cases heq
      exact ⟨_, _, rfl, hquote⟩
    · split at h
      · cases h
      · obtain ⟨taken, -, heq⟩ := Option.map_eq_some_iff.mp h
        cases heq

theorem isMark_of_read? {cs rest : Text} {c : Char} (h : read? cs = some (mark c, rest)) :
    isMark c = true := by
  unfold read? at h
  split at h
  · cases h
  · cases h
  · cases h
  · split at h
    · obtain ⟨inside, -, heq⟩ := Option.map_eq_some_iff.mp h
      cases heq
    · split at h
      · next hmark =>
        cases h
        exact hmark
      · obtain ⟨taken, -, heq⟩ := Option.map_eq_some_iff.mp h
        cases heq

/-- **A token has a first character, and it tells its kind.** -/
theorem Readable.firstKind_eq {token : Token} (h : token.Readable) :
    token.firstKind = some token.kind := by
  have hread := h.2 [] rfl
  cases token with
  | ellipsis => decide +kernel
  | opening => decide +kernel
  | literal text =>
    obtain ⟨c, tail, rfl, hquote⟩ := isQuote_of_read? hread
    exact congrArg some (if_pos hquote)
  | word w =>
    obtain ⟨c, tail, rfl, hname⟩ := readWord?_first (readWord?_of_read? hread)
    have hquote := isQuote_eq_false_of_isNameChar hname
    simp [firstKind, kind, text, Kind.ofFirst, hquote, hname]
  | mark c =>
    have hmarks : ∀ c ∈ "()[]\x7b\x7d<>,|:=?!*".toList,
        isQuote c = false ∧ isNameChar c = false := List.forall_mem_of_all (by decide +kernel)
    obtain ⟨hquote, hname⟩ := hmarks c (List.contains_iff_mem.mp (isMark_of_read? hread))
    simp [firstKind, kind, text, Kind.ofFirst, hquote, hname]

/-- An empty token would have no kind. -/
example : firstKind (word []) = none := rfl

end Token

end TypeExpr

end DocModel
