import DocModel.Text.Printable

/-!
# Quoted texts

Messages show a text between quotes, in a form that tells any two texts apart: the
backslash, the quote in use and every character that is not printable are spelled
out. The quote is the single one, unless the text holds single quotes and no double
ones.
-/

namespace DocModel.Text

/-- The single quotation mark. -/
def singleQuote : Char := '\x27'

/-- The double quotation mark. -/
def doubleQuote : Char := '\x22'

/-- A number in lower-case hexadecimal digits, filled up with zeros to `width` places. -/
def hex (width n : Nat) : Text :=
  let digits := Nat.toDigits 16 n
  List.replicate (width - digits.length) '0' ++ digits

/-- The quotation mark that surrounds a text. -/
def quoteMark (t : Text) : Char :=
  if t.contains singleQuote && !t.contains doubleQuote then doubleQuote else singleQuote

/-- One character as it stands between two quotation marks `mark`. -/
def quoteChar (mark c : Char) : Text :=
  if c == '\\' || c == mark then ['\\', c]
  else if c == '\n' then "\\n"
  else if c == '\r' then "\\r"
  else if c == '\t' then "\\t"
  else if isPrintable c then [c]
  else if c.toNat < 0x100 then "\\x" ++ hex 2 c.toNat
  else if c.toNat < 0x10000 then "\\u" ++ hex 4 c.toNat
  else "\\U" ++ hex 8 c.toNat

/-- **A text in quotation marks**, as messages show it. -/
def quote (t : Text) : Text :=
  let mark := quoteMark t
  mark :: t.flatMap (quoteChar mark) ++ [mark]

example : quote "it's" = "\"it's\"" := by decide
example : quote "a'\"\n\\" = "'a\\'\"\\n\\\\'" := by decide
example : quote [Char.ofNat 0xa0, Char.ofNat 0x200b] = "'\\xa0\\u200b'" := by decide +kernel

end DocModel.Text
