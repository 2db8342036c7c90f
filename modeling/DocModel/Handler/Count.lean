import DocModel.Text.Digit
import DocModel.Text.Quoted

/-!
# Counts in words

An expected value may say how often something happens: `twice`, `three`, or a numeral. Everything
else is no count. A numeral that is written with digits, some of which have no decimal value, is
refused, and so is one with more than `digitLimit` decimal digits in front.
-/

namespace DocModel.Count

/-- **Why a numeral is refused.** -/
inductive Problem where
  /-- A digit without a decimal value. -/
  | noDecimal (word : Text)
  /-- More digits than a numeral may have. -/
  | tooLong (digits : Nat)
  deriving DecidableEq

/-- The largest number of digits of a numeral. -/
def digitLimit : Nat := 4300

/-- How much of a refused numeral is shown. -/
def shownWidth : Nat := 200

/-- The message for a refused numeral. -/
def Problem.message : Problem → Text
  | noDecimal word =>
    "invalid literal for int() with base 10: " ++ (Text.quote word).take shownWidth
  | tooLong digits =>
    "Exceeds the limit (" ++ Text.ofNat digitLimit
      ++ " digits) for integer string conversion: value has " ++ Text.ofNat digits
      ++ " digits; use sys.set_int_max_str_digits() to increase the limit"

/-- The words for small counts. -/
def words : List (Text × Nat) :=
  [("one", 1), ("once", 1), ("two", 2), ("twice", 2), ("three", 3), ("thrice", 3), ("four", 4),
   ("five", 5), ("six", 6), ("seven", 7), ("eight", 8), ("nine", 9), ("ten", 10)]

/-- **The count that a word stands for**, in any case and with blank characters around it. The
words are ASCII, and no other letter has an ASCII letter of one of them as its lower case. -/
def ofWord (word : Text) : Except Problem (Option Nat) :=
  let word := (Text.strip word).map Char.toLower
  if !word.isEmpty && word.all Text.isDigit then
    let width := (word.takeWhile Text.isDecimal).length
    if digitLimit < width then .error (.tooLong width)
    else if width < word.length then .error (.noDecimal word)
    else .ok (Text.decimal? word)
  else .ok (words.lookup word)

end DocModel.Count
