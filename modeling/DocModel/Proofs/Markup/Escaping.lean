import DocModel.Markup
import Mathlib.Data.List.DropRight

/-!
# Texts inside a quoted literal

A text is made ready for a quoted literal by four replacements, one after the other, and three of
them write the very character that the first one replaces. What makes this safe is the order: the
backslashes of the text are doubled before any other backslash is there. So the four passes come
to one pass in which each character is written by itself (`scriptEscape_eq_flatMap`), and all that
is said of the whole text is said of one character first.

A literal ends at the first quotation mark that no backslash takes away, and backslashes take
characters away in pairs from the left. A mark is thus harmless if the number of backslashes right
before it is odd. Characters that are written by themselves keep this number odd, as they end with
two backslashes or with none (`endingSlashes_escapeChar`).
-/

namespace DocModel.Markup

/-! ## One character at a time -/

/-- The quotation marks that end a literal. -/
def IsQuotationMark (c : Char) : Prop := c = Text.singleQuote ∨ c = Text.doubleQuote

instance : DecidablePred IsQuotationMark := fun _ => inferInstanceAs (Decidable (_ ∨ _))

/-- **One character inside a quoted literal**: backslashes and quotation marks follow a backslash, a
line feed is written as a letter after one, and all others stay as they are. -/
def escapeChar (c : Char) : Text :=
  if c = '\\' ∨ IsQuotationMark c then ['\\', c]
  else if c = '\n' then ['\\', 'n']
  else [c]

theorem escapeChar_of_ne {c : Char} (hslash : c ≠ '\\') (hmark : ¬ IsQuotationMark c)
    (hfeed : c ≠ '\n') : escapeChar c = [c] := by
  rw [escapeChar, if_neg (not_or.mpr ⟨hslash, hmark⟩), if_neg hfeed]

theorem replaceChar_of_ne {old c : Char} (h : c ≠ old) (new : Text) :
    replaceChar old new [c] = [c] := by
  show (if c == old then new else [c]) ++ [] = [c]
  rw [if_neg (by simpa using h), List.append_nil]

/-- A replacement acts on each piece of a text by itself. -/
theorem replaceChar_flatMap (old : Char) (new : Text) (f : Char → Text) (t : Text) :
    replaceChar old new (t.flatMap f) = t.flatMap fun c => replaceChar old new (f c) :=
  List.flatMap_assoc

/-- The four replacements on a text of one character. -/
theorem scriptEscape_singleton (c : Char) : scriptEscape [c] = escapeChar c := by
  by_cases hslash : c = '\\'
  · subst hslash
    decide
  by_cases hmark : IsQuotationMark c
  · obtain rfl | rfl := hmark <;> decide
  by_cases hfeed : c = '\n'
  · subst hfeed
    decide
  · obtain ⟨hsingle, hdouble⟩ := not_or.mp hmark
    unfold scriptEscape
    dsimp only
    rw [replaceChar_of_ne hslash, replaceChar_of_ne hsingle, replaceChar_of_ne hdouble,
      replaceChar_of_ne hfeed, escapeChar_of_ne hslash hmark hfeed]

/-- **The four replacements do not meddle with each other**: they write each character by itself. -/
theorem scriptEscape_eq_flatMap (t : Text) : scriptEscape t = t.flatMap escapeChar := by
  have hpieces : scriptEscape t = t.flatMap fun c => scriptEscape [c] := by
    have hfirst (c : Char) :
        replaceChar '\\' "\\\\" [c] = if c == '\\' then ("\\\\" : Text) else [c] :=
      List.append_nil _
    unfold scriptEscape
    dsimp only
    simp only [hfirst]
    rw [← replaceChar_flatMap, ← replaceChar_flatMap, ← replaceChar_flatMap]
    rfl
  rw [hpieces, funext scriptEscape_singleton]

theorem scriptEscape_cons (c : Char) (t : Text) :
    scriptEscape (c :: t) = escapeChar c ++ scriptEscape t := by
  rw [scriptEscape_eq_flatMap, scriptEscape_eq_flatMap, List.flatMap_cons]

/-- No character is written with a line feed. -/
theorem feed_notMem_scriptEscape (t : Text) : '\n' ∉ scriptEscape t := by
  rw [scriptEscape_eq_flatMap, List.mem_flatMap]
  rintro ⟨c, -, hc⟩
  unfold escapeChar at hc
  split at hc
  · next hspecial =>
    obtain rfl : '\n' = c := by simpa using hc
    exact absurd hspecial (by decide)
  · split at hc
    · exact absurd hc (by decide)
    · next hfeed => exact hfeed (List.mem_singleton.mp hc).symm

/-- Of all characters, a carriage return stays where it is. -/
theorem return_mem_scriptEscape_iff {t : Text} : '\r' ∈ scriptEscape t ↔ '\r' ∈ t := by
  have hchar (c : Char) : '\r' ∈ escapeChar c ↔ '\r' = c := by
    unfold escapeChar
    split
    · simp
    · split
      · next hfeed =>
        subst hfeed
        decide
      · exact List.mem_singleton
  rw [scriptEscape_eq_flatMap, List.mem_flatMap]
  simp only [hchar, exists_eq_right']

/-! ## Reading the literal back -/

/-- **What the inside of a quoted literal stands for**, read from the left: a backslash takes the
next character with it, and the letter `n` after one is a line feed. A backslash that has nothing to
take is refused. -/
def unescape? : Text → Option Text
  | [] => some []
  | c :: cs =>
    if c = '\\' then
      match cs with
      | [] => none
      | d :: ds => (unescape? ds).map ((if d = 'n' then '\n' else d) :: ·)
    else (unescape? cs).map (c :: ·)

theorem unescape?_escapeChar_append (c : Char) (t : Text) :
    unescape? (escapeChar c ++ t) = (unescape? t).map (c :: ·) := by
  unfold escapeChar
  split
  · next hspecial =>
    have hletter : c ≠ 'n' := by
      rintro rfl
      exact absurd hspecial (by decide)
    show (unescape? t).map ((if c = 'n' then '\n' else c) :: ·) = _
    rw [if_neg hletter]
  · next hspecial =>
    split
    · next hfeed =>
      subst hfeed
      rfl
    · rw [List.singleton_append, unescape?.eq_def]
      exact if_neg fun hslash => hspecial (.inl hslash)

/-- Reading what was written gives the text back. -/
theorem unescape?_scriptEscape (t : Text) : unescape? (scriptEscape t) = some t := by
  induction t with
  | nil => rfl
  | cons c t ih => rw [scriptEscape_cons, unescape?_escapeChar_append, ih, Option.map_some]

/-! ## The backslashes before a quotation mark -/

/-- The number of backslashes that stand at the end of a text. -/
def endingSlashes (t : Text) : Nat := (t.rtakeWhile (· == '\\')).length

/-- A character that is written by itself ends with two backslashes or with none. -/
theorem endingSlashes_escapeChar (c : Char) : endingSlashes (escapeChar c) % 2 = 0 := by
  by_cases hslash : c = '\\'
  · subst hslash
    decide
  · obtain ⟨start, d, heq, hd⟩ : ∃ start d, escapeChar c = start ++ [d] ∧ d ≠ '\\' := by
      unfold escapeChar
      split
      · exact ⟨['\\'], c, rfl, hslash⟩
      · split
        · exact ⟨['\\'], 'n', rfl, by decide⟩
        · exact ⟨[], c, rfl, hslash⟩
    rw [endingSlashes, heq, List.rtakeWhile_concat_neg _ _ _ (by simpa using hd)]
    rfl

/-- Whether the number of backslashes at the end of a text is odd does not depend on what stands
before, if that ends with an even number of them. -/
theorem endingSlashes_append {u : Text} (hu : endingSlashes u % 2 = 0) (t : Text) :
    endingSlashes (u ++ t) % 2 = endingSlashes t % 2 := by
  unfold endingSlashes List.rtakeWhile at *
  rw [List.length_reverse] at hu ⊢
  rw [List.length_reverse, List.reverse_append, List.takeWhile_append]
  split
  · next hall => rw [List.length_append, hall, Nat.add_mod, hu, Nat.add_zero, Nat.mod_mod]
  · rfl

/-- In one written character, a quotation mark stands after a single backslash. -/
theorem eq_slash_of_escapeChar {c mark : Char} (hmark : IsQuotationMark mark) {before after : Text}
    (h : escapeChar c = before ++ mark :: after) : before = ['\\'] := by
  have hslash : '\\' ≠ mark := by
    rintro rfl
    exact absurd hmark (by decide)
  have hletter : 'n' ≠ mark := by
    rintro rfl
    exact absurd hmark (by decide)
  unfold escapeChar at h
  split at h
  · rcases before with _ | ⟨d, _ | ⟨e, rest⟩⟩
    · exact absurd (List.cons.inj h).1 hslash
    · rw [(List.cons.inj h).1]
    · simp at h
  · next hspecial =>
    split at h
    · rcases before with _ | ⟨d, _ | ⟨e, rest⟩⟩ <;> simp_all
    · rcases before with _ | ⟨d, rest⟩ <;> simp_all

/-- **Before each quotation mark stands an odd number of backslashes**, so none of them ends the
literal. -/
theorem endingSlashes_of_mark {t before after : Text} {mark : Char} (hmark : IsQuotationMark mark)
    (h : scriptEscape t = before ++ mark :: after) : endingSlashes before % 2 = 1 := by
  induction t generalizing before with
  | nil => simp [scriptEscape, replaceChar] at h
  | cons c t ih =>
    rw [scriptEscape_cons] at h
    -- The mark is written for one of the later characters, or for the first one.
    obtain ⟨later, rfl, hlater⟩ | ⟨own, hown, hrest⟩ := List.append_eq_append_iff.mp h
    · rw [endingSlashes_append (endingSlashes_escapeChar c), ih hlater]
    · cases own with
      | nil =>
        have hnone : endingSlashes [] % 2 = 1 := ih hrest.symm
        exact absurd hnone (by decide)
      | cons d own =>
        obtain ⟨rfl, -⟩ := List.cons.inj hrest
        rw [eq_slash_of_escapeChar hmark hown]
        rfl

/-- **A text inside a quoted literal** is written character by character, is read back as it was,
stands on one line, and ends the literal nowhere. -/
theorem scriptEscape_decodable (t : Text) :
    scriptEscape t = t.flatMap escapeChar ∧
    unescape? (scriptEscape t) = some t ∧
    '\n' ∉ scriptEscape t ∧
    ∀ before mark after, scriptEscape t = before ++ mark :: after → IsQuotationMark mark →
      endingSlashes before % 2 = 1 :=
  ⟨scriptEscape_eq_flatMap t, unescape?_scriptEscape t, feed_notMem_scriptEscape t,
    fun _ _ _ h hmark => endingSlashes_of_mark hmark h⟩

-- A backslash before a quotation mark and one before a line feed.
example : scriptEscape "\\'\\\n" = "\\\\\\'\\\\\\n" := by decide

end DocModel.Markup
