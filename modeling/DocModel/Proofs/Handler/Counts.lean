import DocModel.Handler.Defaults
import DocModel.Proofs.Basic
import DocModel.Proofs.Pattern.Matching
import DocModel.Proofs.Text.Classes
import DocModel.Proofs.Text.Edges

/-!
# Counts that cannot be read

An expected value such as `calls f twice` asks how often a callback is called. `CallRequest` says
what such values look like, and the two patterns for calls, of which one is for calls that come
later, find these values and no others. The count is then a word of its own, and the only one
(`CallRequest.count_inj`). It may be a numeral that cannot be read (`Count.Unreadable`).

Patterns for comparisons are tried before, and do not find anything in a request.
-/

namespace DocModel

/-! ## Numerals that cannot be read -/

/-- **A numeral that cannot be read**: it is made of digits, but not of decimal digits alone, or it
has too many of them. -/
def Count.Unreadable (word : Text) : Prop :=
  (∀ c ∈ word, Text.isDigit c = true) ∧
    ¬ ((∀ c ∈ word, Text.isDecimal c = true) ∧ word.length ≤ digitLimit)

namespace Text

/-- The letters that change when a count is put into lower case. -/
def capitals : List Char := (List.range' 65 26).map Char.ofNat

/-- A class that has capital letters with their small ones has a character with its lower case. -/
theorem class_toLower {p : Char → Bool} (hp : capitals.all (fun c => p c.toLower == p c) = true)
    (c : Char) : p c.toLower = p c := by
  by_cases hc : c.val ≥ 'A'.val ∧ c.val ≤ 'Z'.val
  · have hmem : c ∈ capitals := by
      have hrange : 65 ≤ c.toNat ∧ c.toNat ≤ 90 := hc
      refine List.mem_map.mpr ⟨c.toNat, ?_, Char.ofNat_toNat c⟩
      rw [List.mem_range'_1]
      omega
    exact beq_iff_eq.mp (List.all_eq_true.mp hp c hmem)
  · rw [show c.toLower = c from dif_neg hc]

theorem isDigit_toLower : ∀ c : Char, isDigit c.toLower = isDigit c :=
  class_toLower (by decide +kernel)

theorem isDecimal_toLower : ∀ c : Char, isDecimal c.toLower = isDecimal c :=
  class_toLower (by decide +kernel)

theorem not_isBlank_of_isWordChar {c : Char} (h : isWordChar c = true) : isBlank c = false := by
  refine Bool.eq_false_iff.mpr fun hblank => ?_
  rw [isWordChar_of_isBlank hblank] at h
  cases h

theorem IsRun.strip_eq {word : Text} (h : IsRun isWordChar word) : strip word = word := by
  have hleft {t : Text} (h : IsRun isWordChar t) : stripLeft t = t := by
    obtain ⟨c, rest, rfl⟩ := List.exists_cons_of_ne_nil h.1
    exact stripLeft_cons (not_isBlank_of_isWordChar (h.2 c List.mem_cons_self)) rest
  have hreverse : IsRun isWordChar word.reverse :=
    ⟨List.reverse_ne_nil_iff.mpr h.1, fun c hc => h.2 c (List.mem_reverse.mp hc)⟩
  refine strip_eq_self_iff.mpr ⟨hleft h, ?_⟩
  show (stripLeft word.reverse).reverse = word
  rw [hleft hreverse, List.reverse_reverse]

/-- A text is as long as its first run if all its characters belong to the class. -/
theorem length_takeWhile_lt_iff {p : Char → Bool} {t : Text} :
    (t.takeWhile p).length < t.length ↔ ¬ ∀ c ∈ t, p c = true := by
  have hle : (t.takeWhile p).length ≤ t.length := (List.takeWhile_prefix p).length_le
  rw [← List.takeWhile_eq_self_iff]
  constructor
  · intro hlt heq
    rw [heq] at hlt
    exact Nat.lt_irrefl _ hlt
  · intro hne
    refine Nat.lt_of_le_of_ne hle fun hlength => hne ?_
    exact (List.takeWhile_prefix p).eq_of_length hlength

end Text

/-- **Which words are refused as counts.** -/
theorem Count.ofWord_eq_error_iff {word : Text} (h : Text.IsRun Text.isWordChar word) :
    (∃ problem, ofWord word = .error problem) ↔ Unreadable word := by
  have hdigits : (word.map Char.toLower).all Text.isDigit = word.all Text.isDigit := by
    rw [List.all_map]
    exact congrArg _ (funext Text.isDigit_toLower)
  have hwidth : ((word.map Char.toLower).takeWhile Text.isDecimal).length
      = (word.takeWhile Text.isDecimal).length := by
    rw [List.takeWhile_map, List.length_map]
    exact congrArg (fun p => (word.takeWhile p).length) (funext Text.isDecimal_toLower)
  have hempty : (word.map Char.toLower).isEmpty = false := by
    rw [List.isEmpty_map]
    exact List.isEmpty_eq_false_iff.mpr h.1
  rw [ofWord, h.strip_eq]
  simp only [hdigits, hwidth, hempty, List.length_map, Bool.not_false, Bool.true_and]
  by_cases hall : ∀ c ∈ word, Text.isDigit c = true
  · rw [if_pos (List.all_eq_true.mpr hall), Unreadable, and_iff_right hall]
    have hlt := Text.length_takeWhile_lt_iff (p := Text.isDecimal) (t := word)
    by_cases hdecimal : ∀ c ∈ word, Text.isDecimal c = true
    · have heq : word.takeWhile Text.isDecimal = word := List.takeWhile_eq_self_iff.mpr hdecimal
      rw [heq, and_iff_right hdecimal, Nat.not_le]
      by_cases hlimit : digitLimit < word.length
      · rw [if_pos hlimit]
        exact ⟨fun _ => hlimit, fun _ => ⟨_, rfl⟩⟩
      · rw [if_neg hlimit, if_neg (Nat.lt_irrefl _)]
        exact ⟨fun ⟨_, hok⟩ => (by cases hok), fun h => absurd h hlimit⟩
    · rw [if_pos (hlt.mpr hdecimal)]
      refine ⟨fun _ hread => hdecimal hread.1, fun _ => ?_⟩
      split <;> exact ⟨_, rfl⟩
  · rw [if_neg (fun h => hall (List.all_eq_true.mp h))]
    exact ⟨fun ⟨_, hok⟩ => (by cases hok), fun h => absurd h.1 hall⟩

/-! ## Expected values that ask for a count -/

/-- What may follow a count. -/
def callUnits : List Text := ["time", "times"]

/-- What may follow the count of calls that come later. -/
def laterCallUnits : List Text := ["time asynchronously", "times asynchronously"]

/-- One of some units, after blank characters. -/
def IsCallUnit (names : List Text) (t : Text) : Prop :=
  ∃ gap name, t = gap ++ name ∧ Text.IsRun Text.isBlank gap ∧ name ∈ names

/-- **An expected value that asks how often a callback is called.** -/
structure CallRequest where
  /-- The blanks before the callback. -/
  gap : Text
  /-- The name of the callback. -/
  callback : Text
  /-- The blanks before the count. -/
  space : Text
  /-- The count. -/
  count : Text
  /-- The unit, with the blanks before it. -/
  unit : Text
  /-- The end of the line, if there is one. -/
  ending : Text
  gap_run : Text.IsRun Text.isBlank gap
  callback_run : Text.IsRun Text.isWordChar callback
  space_run : Text.IsRun Text.isBlank space
  count_run : Text.IsRun Text.isWordChar count
  unit_form : (unit = [] ∨ IsCallUnit callUnits unit) ∨ IsCallUnit laterCallUnits unit
  ending_form : ending = [] ∨ ending = ['\n']

namespace CallRequest

/-- **The expected value as it is written.** -/
def text (r : CallRequest) : Text :=
  ("calls" : Text) ++ (r.gap ++ (r.callback ++ (r.space ++ (r.count ++ (r.unit ++ r.ending)))))

/-- A count ends where its word does. -/
theorem head_unit (r : CallRequest) :
    ∀ c ∈ (r.unit ++ r.ending).head?, Text.isWordChar c = false := by
  have hunit {names : List Text} (h : IsCallUnit names r.unit) :
      ∀ c ∈ (r.unit ++ r.ending).head?, Text.isWordChar c = false := by
    obtain ⟨gap, name, heq, hgap, -⟩ := h
    rw [heq, List.append_assoc]
    exact hgap.head_append (fun c => Text.isWordChar_of_isBlank) _
  obtain (hempty | h) | h := r.unit_form
  · rw [hempty, List.nil_append]
    obtain hending | hending := r.ending_form <;> rw [hending]
    · exact fun c hc => by cases hc
    · intro c hc
      rw [← Option.some.inj hc]
      exact Text.isWordChar_of_isBlank (by decide)
  · exact hunit h
  · exact hunit h

/-- **An expected value asks for one count only.** -/
theorem count_inj {r s : CallRequest} (h : r.text = s.text) : r.count = s.count := by
  have hgap := List.append_cancel_left h
  obtain ⟨-, hcallback⟩ := Text.append_inj_of_class r.gap_run.2 s.gap_run.2
    (r.callback_run.head_append (fun c => Text.not_isBlank_of_isWordChar) _)
    (s.callback_run.head_append (fun c => Text.not_isBlank_of_isWordChar) _) hgap
  obtain ⟨-, hspace⟩ := Text.append_inj_of_class r.callback_run.2 s.callback_run.2
    (r.space_run.head_append (fun c => Text.isWordChar_of_isBlank) _)
    (s.space_run.head_append (fun c => Text.isWordChar_of_isBlank) _) hcallback
  obtain ⟨-, hcount⟩ := Text.append_inj_of_class r.space_run.2 s.space_run.2
    (r.count_run.head_append (fun c => Text.not_isBlank_of_isWordChar) _)
    (s.count_run.head_append (fun c => Text.not_isBlank_of_isWordChar) _) hspace
  exact (Text.append_inj_of_class r.count_run.2 s.count_run.2 r.head_unit s.head_unit hcount).1

end CallRequest

/-! ## The patterns for calls -/

namespace Regex

/-- One or more blank characters. -/
def blanks : Regex := iterate 1 none true (set false false [.blank false])

/-- One or more word characters. -/
def word : Regex := iterate 1 none true (set false false [.word false])

/-- A part that may be missing. -/
def optional (r : Regex) : Regex := iterate 0 (some 1) true r

/-- A pattern for calls up to the count. -/
def calls (ending : Regex) : Regex :=
  literal "calls" (seq blanks (seq (group 1 word) (seq blanks (seq (group 2 word) ending))))

/-- The end of the pattern for calls. -/
def callsEnding : Regex :=
  seq (optional (seq blanks (literal "time" (optional (char false 's'))))) stop

/-- The end of the pattern for calls that come later. -/
def laterEnding : Regex :=
  seq blanks (literal "time" (seq (optional (char false 's')) (literal " asynchronously" stop)))

theorem takes_isRun {inverted fold : Bool} {classes : List CharClass} {p : Char → Bool}
    (hp : ∀ x, accepts inverted fold classes x = p x) (greedy : Bool) :
    (iterate 1 none greedy (set inverted fold classes)).Takes fun t _ => Text.IsRun p t := by
  refine (takes_run 1 greedy).congr fun t _ => ?_
  simp only [hp, Text.IsRun, Nat.one_le_iff_ne_zero, ne_eq, List.length_eq_zero_iff]

theorem takes_blanks : blanks.Takes fun t _ => Text.IsRun Text.isBlank t :=
  takes_isRun (by simp [accepts, CharClass.has]) true

theorem takes_word : word.Takes fun t _ => Text.IsRun Text.isWordChar t :=
  takes_isRun (by simp [accepts, CharClass.has]) true

theorem takes_plural : (optional (char false 's')).Takes fun t _ => t = [] ∨ t = ['s'] :=
  (takes_char 's').optional true

theorem takes_callsEnding : callsEnding.Takes fun t rest =>
    (t = [] ∨ IsCallUnit callUnits t) ∧ (rest = [] ∨ rest = ['\n']) := by
  have hunit : (seq blanks (literal "time" (optional (char false 's')))).Takes
      fun t _ => IsCallUnit callUnits t := by
    refine (takes_blanks.seq (takes_plural.literal "time")).congr fun t _ => ?_
    constructor
    · rintro ⟨gap, name, rfl, hgap, plural, rfl, rfl | rfl⟩
      · exact ⟨gap, _, rfl, hgap, List.mem_cons_self⟩
      · exact ⟨gap, _, rfl, hgap, List.mem_cons_of_mem _ List.mem_cons_self⟩
    · rintro ⟨gap, name, rfl, hgap, hname⟩
      obtain rfl | hname := List.mem_cons.mp hname
      · exact ⟨gap, _, rfl, hgap, [], rfl, Or.inl rfl⟩
      · obtain rfl := List.mem_singleton.mp hname
        exact ⟨gap, _, rfl, hgap, ['s'], rfl, Or.inr rfl⟩
  refine ((hunit.optional true).seq takes_stop).congr fun t rest => ?_
  constructor
  · rintro ⟨u, v, rfl, hu, rfl, hrest⟩
    rw [List.append_nil]
    exact ⟨hu, hrest⟩
  · rintro ⟨ht, hrest⟩
    exact ⟨t, [], (List.append_nil t).symm, ht, rfl, hrest⟩

theorem takes_laterEnding : laterEnding.Takes fun t rest =>
    IsCallUnit laterCallUnits t ∧ (rest = [] ∨ rest = ['\n']) := by
  refine (takes_blanks.seq
    ((takes_plural.seq (takes_stop.literal " asynchronously")).literal "time")).congr
      fun t rest => ?_
  constructor
  · rintro ⟨gap, name, rfl, hgap, _, rfl, plural, _, rfl, hplural, _, rfl, rfl, hrest⟩
    refine ⟨⟨gap, _, rfl, hgap, ?_⟩, hrest⟩
    obtain rfl | rfl := hplural
    · exact List.mem_cons_self
    · exact List.mem_cons_of_mem _ List.mem_cons_self
  · rintro ⟨⟨gap, name, rfl, hgap, hname⟩, hrest⟩
    obtain rfl | hname := List.mem_cons.mp hname
    · exact ⟨gap, _, rfl, hgap, _, rfl, [], _, rfl, Or.inl rfl, [], rfl, rfl, hrest⟩
    · obtain rfl := List.mem_singleton.mp hname
      exact ⟨gap, _, rfl, hgap, _, rfl, ['s'], _, rfl, Or.inr rfl, [], rfl, rfl, hrest⟩

section Calls

variable {ending : Regex} {p : Text → Text → Prop} (h : ending.Takes p)
include h

/-- **What a pattern for calls finds is a request**, and it remembers the count. -/
theorem exists_request_of_matches
    (hp : ∀ t rest, p t rest → ((t = [] ∨ IsCallUnit callUnits t) ∨ IsCallUnit laterCallUnits t) ∧
      (rest = [] ∨ rest = ['\n']))
    {text : Text} {e : Cursor} (hmatch : (calls ending).Matches (.atStart text) e) :
    ∃ r : CallRequest, r.text = text ∧ e.groups = [(2, r.count), (1, r.callback)] := by
  obtain ⟨rest, htext, hmatch⟩ := matches_literal_iff.mp hmatch
  obtain ⟨gap, rest₁, hrest, hgap, hmatch⟩ := takes_blanks.matches_seq_iff.mp hmatch
  obtain ⟨callback, rest₂, hrest₁, hcallback, hmatch⟩ :=
    takes_word.matches_group_seq_iff.mp hmatch
  obtain ⟨space, rest₃, hrest₂, hspace, hmatch⟩ := takes_blanks.matches_seq_iff.mp hmatch
  obtain ⟨count, rest₄, hrest₃, hcount, hmatch⟩ := takes_word.matches_group_seq_iff.mp hmatch
  obtain ⟨unit, feed, hrest₄, hunit, rfl⟩ := (h _ e).mp hmatch
  obtain ⟨hform, hfeed⟩ := hp unit feed hunit
  refine ⟨⟨gap, callback, space, count, unit, feed, hgap, hcallback, hspace, hcount, hform,
    hfeed⟩, ?_, rfl⟩
  obtain rfl : rest₄ = unit ++ feed := hrest₄
  obtain rfl : rest₃ = count ++ (unit ++ feed) := hrest₃
  obtain rfl : rest₂ = space ++ (count ++ (unit ++ feed)) := hrest₂
  obtain rfl : rest₁ = callback ++ (space ++ (count ++ (unit ++ feed))) := hrest₁
  obtain rfl : rest = gap ++ (callback ++ (space ++ (count ++ (unit ++ feed)))) := hrest
  exact htext.symm

/-- A request is matched by the pattern for its unit. -/
theorem exists_matches_of_request (r : CallRequest) (hr : p r.unit r.ending) :
    ∃ e, (calls ending).Matches (.atStart r.text) e := by
  -- From the last part to the first: each part leaves to the next what that one needs.
  have hunit (c : Cursor) (hc : c.rest = r.unit ++ r.ending) : ∃ e, ending.Matches c e :=
    ⟨_, (h c _).mpr ⟨r.unit, r.ending, hc, hr, rfl⟩⟩
  have hcount (c : Cursor) (hc : c.rest = r.count ++ (r.unit ++ r.ending)) :
      ∃ e, (seq (group 2 word) ending).Matches c e := by
    obtain ⟨e, he⟩ := hunit ((c.after r.count (r.unit ++ r.ending)).remember 2 r.count) rfl
    exact ⟨e, takes_word.matches_group_seq_iff.mpr ⟨r.count, _, hc, r.count_run, he⟩⟩
  have hspace (c : Cursor) (hc : c.rest = r.space ++ (r.count ++ (r.unit ++ r.ending))) :
      ∃ e, (seq blanks (seq (group 2 word) ending)).Matches c e := by
    obtain ⟨e, he⟩ := hcount (c.after r.space (r.count ++ (r.unit ++ r.ending))) rfl
    exact ⟨e, takes_blanks.matches_seq_iff.mpr ⟨r.space, _, hc, r.space_run, he⟩⟩
  have hcallback (c : Cursor)
      (hc : c.rest = r.callback ++ (r.space ++ (r.count ++ (r.unit ++ r.ending)))) :
      ∃ e, (seq (group 1 word) (seq blanks (seq (group 2 word) ending))).Matches c e := by
    obtain ⟨e, he⟩ := hspace ((c.after r.callback _).remember 1 r.callback) rfl
    exact ⟨e, takes_word.matches_group_seq_iff.mpr ⟨r.callback, _, hc, r.callback_run, he⟩⟩
  obtain ⟨e, he⟩ := hcallback (((Cursor.atStart r.text).after "calls" _).after r.gap _) rfl
  exact ⟨e, matches_literal_iff.mpr
    ⟨_, rfl, takes_blanks.matches_seq_iff.mpr ⟨r.gap, _, rfl, r.gap_run, he⟩⟩⟩

end Calls

theorem exhaustive_calls {ending : Regex} (h : ending.Exhaustive) : (calls ending).Exhaustive := by
  have hblanks : blanks.Exhaustive := exhaustive_run 1 none true
  have hword : word.Exhaustive := exhaustive_run 1 none true
  show (literal _ _).Exhaustive
  refine exhaustive_literal ?_ _
  exact ⟨hblanks, hword, hblanks, hword, h⟩

theorem exhaustive_callsEnding : callsEnding.Exhaustive := by
  have hblanks : blanks.Exhaustive := exhaustive_run 1 none true
  have hplural : (optional (char false 's')).Exhaustive := exhaustive_run 0 (some 1) true
  have hconsumes : blanks.Consumes := takes_blanks.consumes fun t _ ht => ht.1
  exact ⟨⟨⟨hblanks, exhaustive_literal hplural "time"⟩, hconsumes.seq _⟩, trivial⟩

theorem exhaustive_laterEnding : laterEnding.Exhaustive := by
  have hblanks : blanks.Exhaustive := exhaustive_run 1 none true
  have hplural : (optional (char false 's')).Exhaustive := exhaustive_run 0 (some 1) true
  have hstop : stop.Exhaustive := trivial
  have hplain : (seq (optional (char false 's')) (literal " asynchronously" stop)).Exhaustive :=
    ⟨hplural, exhaustive_literal hstop " asynchronously"⟩
  exact ⟨hblanks, exhaustive_literal hplain "time"⟩

/-! ## Patterns that are tried earlier -/

/-- The characters of the left side of a comparison. -/
def operandClasses : List CharClass :=
  [.word false, .range '.' '.', .range '(' '(', .range ')' ')', .range '[' '[', .range ']' ']',
    .range '\'' '\'', .range '"' '"']

/-- Whether the left side of a comparison may hold a character. -/
def isOperand : Char → Bool := accepts false false operandClasses

/-- A pattern for a comparison with a given sign, up to the sign. -/
def comparison (sign : Char) (rest : Regex) : Regex :=
  seq (group 1 (seq (set false false [.word false])
      (iterate 0 none true (set false false operandClasses))))
    (seq (iterate 0 none true (set false false [.blank false])) (seq (char false sign) rest))

theorem isOperand_of_isBlank {c : Char} (h : Text.isBlank c = true) : isOperand c = false := by
  have hnot := Text.forall_isBlank (p := fun c => !isOperand c) (by decide +kernel) h
  simpa using hnot

theorem isOperand_of_isWordChar {c : Char} (h : Text.isWordChar c = true) : isOperand c = true := by
  simp [isOperand, accepts, operandClasses, CharClass.has, h]

/-- What stands before the sign of a comparison. -/
theorem exists_sides_of_comparison {sign : Char} {rest : Regex} {c e : Cursor}
    (h : (comparison sign rest).Matches c e) :
    ∃ left gap behind, c.rest = left ++ (gap ++ sign :: behind) ∧
      (∀ x ∈ left, isOperand x = true) ∧ ∀ x ∈ gap, Text.isBlank x = true := by
  obtain ⟨_, rest₁, hleft, ⟨_, more, rfl, ⟨x, rfl, hx⟩, -, hmore⟩, h⟩ :=
    (takes_set.seq (takes_run 0 true)).matches_group_seq_iff.mp h
  obtain ⟨gap, rest₂, hgap, ⟨-, hblank⟩, h⟩ := (takes_run 0 true).matches_seq_iff.mp h
  obtain ⟨_, behind, hsign, rfl, -⟩ := (takes_char sign).matches_seq_iff.mp h
  obtain rfl : rest₂ = sign :: behind := hsign
  obtain rfl : rest₁ = gap ++ sign :: behind := hgap
  refine ⟨[x] ++ more, gap, behind, hleft, List.forall_mem_cons.mpr ⟨?_, hmore⟩, fun y hy => ?_⟩
  · exact isOperand_of_isWordChar (by simpa [accepts, CharClass.has] using hx)
  · simpa [accepts, CharClass.has] using hblank y hy

/-- A request is no comparison: the left side would be `calls`, and the sign would start the
callback. -/
theorem not_matches_comparison (r : CallRequest) {sign : Char} (hsign : sign ∈ ['=', '!'])
    (rest : Regex) (e : Cursor) : ¬ (comparison sign rest).Matches (.atStart r.text) e := by
  intro h
  obtain ⟨left, gap, behind, htext, hleft, hgap⟩ := exists_sides_of_comparison h
  obtain ⟨hoperand, hblank, hword⟩ : isOperand sign = false ∧ Text.isBlank sign = false ∧
      Text.isWordChar sign = false :=
    List.forall_mem_of_all (p := fun x => isOperand x = false ∧ Text.isBlank x = false ∧
      Text.isWordChar x = false) (by decide) sign hsign
  have hbehind : ∀ c ∈ (gap ++ sign :: behind).head?, isOperand c = false := by
    intro c hc
    cases gap with
    | nil => rwa [← Option.some.inj hc]
    | cons x gap =>
      rw [← Option.some.inj hc]
      exact isOperand_of_isBlank (hgap x List.mem_cons_self)
  have hcalls : ("calls" : Text).all isOperand = true := by decide
  obtain ⟨-, hgaps⟩ := Text.append_inj_of_class hleft (List.all_eq_true.mp hcalls) hbehind
    (r.gap_run.head_append (fun c => isOperand_of_isBlank) _) htext.symm
  obtain ⟨-, hcallback⟩ := Text.append_inj_of_class hgap r.gap_run.2
    (fun c hc => by rwa [← Option.some.inj hc])
    (r.callback_run.head_append (fun c => Text.not_isBlank_of_isWordChar) _) hgaps
  obtain ⟨x, callback, hx⟩ := List.exists_cons_of_ne_nil r.callback_run.1
  rw [hx] at hcallback
  have hfirst : Text.isWordChar x = true := by
    refine r.callback_run.2 x ?_
    rw [hx]
    exact List.mem_cons_self
  rw [← (List.cons.inj hcallback).1, hword] at hfirst
  cases hfirst

end Regex

end DocModel
