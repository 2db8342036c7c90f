/-!
# Texts

A doc comment is cut up, counted and compared character by character, so a text is
the list of its characters. That makes every rule of the format a plain function
on lists: lines are pieces between line feeds, stripping drops blank characters at
the two ends, and a place in a text is a number of characters.

A string literal stands for the text of its characters wherever a text is expected.
-/

namespace DocModel

/-- **A text** is the list of its characters. -/
abbrev Text := List Char

instance : Coe String Text := ⟨String.toList⟩

namespace Text

/-! ## Classes of characters -/

/-- Membership of a code point in a union of closed intervals. -/
def inRanges (ranges : List (Nat × Nat)) (n : Nat) : Bool :=
  ranges.any fun (first, last) => first ≤ n && n ≤ last

/-- The intervals of blank characters: the spaces of every width, the tabulators, the
line and page breaks, and the four information separators. A zero-width space is not
blank. -/
def blankRanges : List (Nat × Nat) :=
  [(0x9, 0xd), (0x1c, 0x20), (0x85, 0x85), (0xa0, 0xa0), (0x1680, 0x1680), (0x2000, 0x200a),
   (0x2028, 0x2029), (0x202f, 0x202f), (0x205f, 0x205f), (0x3000, 0x3000)]

/-- Blank characters, which `strip` drops and which separate words. -/
def isBlank (c : Char) : Bool := inRanges blankRanges c.toNat

/-- The characters that indent a line: the plain space and the tabulator. -/
def isIndent (c : Char) : Bool := c == ' ' || c == '\t'

/-- The characters at which a line ends when a text is shown: all of them line or
page breaks, or separators of larger units. -/
def isLineBreak (c : Char) : Bool :=
  inRanges [(0xa, 0xd), (0x1c, 0x1e), (0x85, 0x85), (0x2028, 0x2029)] c.toNat

/-! ## Blank ends -/

/-- A text without its leading blank characters. -/
def stripLeft (t : Text) : Text := t.dropWhile isBlank

/-- A text without its trailing blank characters. -/
def stripRight (t : Text) : Text := (t.reverse.dropWhile isBlank).reverse

/-- A text without the blank characters at its two ends. -/
def strip (t : Text) : Text := stripRight (stripLeft t)

/-- Whether a text holds nothing but blank characters. -/
def blank (t : Text) : Bool := t.all isBlank

/-! ## Pieces -/

/-- The pieces of a text between the characters that satisfy `p`; there is always at
least one, and one more than there are such characters. -/
def splitWhere (p : Char → Bool) : Text → List Text
  | [] => [[]]
  | c :: cs =>
    if p c then [] :: splitWhere p cs
    else
      match splitWhere p cs with
      | [] => [[c]]
      | piece :: pieces => (c :: piece) :: pieces

/-- The lines of a text: its pieces between line feeds. -/
def lines (t : Text) : List Text := splitWhere (· == '\n') t

/-- Pieces written one after the other with `separator` in between. -/
def join (separator : Text) : List Text → Text
  | [] => []
  | [t] => t
  | t :: ts => t ++ separator ++ join separator ts

/-- Lines written under each other; the inverse of `lines`. -/
def unlines (ls : List Text) : Text := join "\n" ls

/-- The part of a text before its first line break of any kind. -/
def firstLine (t : Text) : Text := t.takeWhile (!isLineBreak ·)

/-- The text on the two sides of the first place where `divider` stands. -/
def cut? (divider : Text) : Text → Option (Text × Text)
  | [] => if divider.isEmpty then some ([], []) else none
  | c :: cs =>
    match divider.isPrefixOf? (c :: cs) with
    | some rest => some ([], rest)
    | none => (cut? divider cs).map fun (before, after) => (c :: before, after)

/-- Whether `part` stands somewhere in a text. -/
def occursIn (part t : Text) : Bool := (cut? part t).isSome

/-- The text on the two sides of the first `divider`, or the whole text if there is
none. -/
def divide (divider t : Text) : List Text :=
  match cut? divider t with
  | some (before, after) => [before, after]
  | none => [t]

/-- A text with the first `old` replaced by `new`. -/
def replaceFirst (old new t : Text) : Text :=
  match cut? old t with
  | some (before, after) => before ++ new ++ after
  | none => t

/-- The first word of a text and what follows it, without the blank characters
between them. Nothing if the text is blank. -/
def firstWord? (t : Text) : Option (Text × Text) :=
  match stripLeft t with
  | [] => none
  | t => some (t.takeWhile (!isBlank ·), stripLeft (t.dropWhile (!isBlank ·)))

/-! ## Numbers -/

/-- The decimal numeral of a number. -/
def ofNat (n : Nat) : Text := Nat.toDigits 10 n

/-- The decimal numeral of an integer, with a minus sign if it is negative. -/
def ofInt : Int → Text
  | .ofNat n => ofNat n
  | .negSucc n => '-' :: ofNat (n + 1)

/-- The order of texts: by the code points of their characters, from the left, and a
text before its extensions. -/
def le : Text → Text → Bool
  | [], _ => true
  | _ :: _, [] => false
  | a :: as, b :: bs => a.toNat < b.toNat || (a.toNat == b.toNat && le as bs)

/-! ## Lines and their text -/

theorem splitWhere_ne_nil (p : Char → Bool) (t : Text) : splitWhere p t ≠ [] := by
  cases t with
  | nil => simp [splitWhere]
  | cons c cs =>
    simp only [splitWhere]
    split
    · simp
    · split <;> simp

/-- **Writing the lines of a text under each other gives the text back.** -/
@[simp]
theorem unlines_lines (t : Text) : unlines (lines t) = t := by
  induction t with
  | nil => rfl
  | cons c cs ih =>
    unfold unlines lines at ih
    unfold unlines lines splitWhere
    cases hs : splitWhere (· == '\n') cs with
    | nil => exact absurd hs (splitWhere_ne_nil _ _)
    | cons piece pieces =>
      rw [hs] at ih
      by_cases hc : c = '\n'
      · subst hc
        simp only [beq_self_eq_true, if_true, join]
        rw [ih]
        rfl
      · rw [if_neg (by simpa using hc)]
        cases pieces with
        | nil => simpa [join] using congrArg (c :: ·) ih
        | cons p ps => simpa [join] using congrArg (c :: ·) ih

end Text

end DocModel
