import DocModel.Text.Digit
import DocModel.Value

/-!
# Reading JSON text

The reader of JSON text beside its writer. A number with a fraction or an exponent is
a floating-point number, and so are the words for infinity and for no number. The entries of an
object are kept in the order in which they stand.

Every step of the reader takes at least one character, so a text has at most as many steps as it has
characters.
-/

namespace DocModel.Value

/-- The blanks between the parts of a JSON text. -/
def isJsonBlank (c : Char) : Bool := c == ' ' || c == '\n' || c == '\t' || c == '\r'

/-- A text without the blanks at its front. -/
def skipBlanks (cs : Text) : Text := cs.dropWhile isJsonBlank

/-! ## Strings -/

/-- The value of a hexadecimal digit. -/
def hexValue? (c : Char) : Option Nat :=
  if '0' ≤ c ∧ c ≤ '9' then some (c.toNat - '0'.toNat)
  else if 'a' ≤ c ∧ c ≤ 'f' then some (c.toNat - 'a'.toNat + 10)
  else if 'A' ≤ c ∧ c ≤ 'F' then some (c.toNat - 'A'.toNat + 10)
  else none

/-- The number in four hexadecimal digits at the front of a text, and the rest. -/
def unit? : Text → Option (Nat × Text)
  | a :: b :: c :: d :: cs => do
    let a ← hexValue? a
    let b ← hexValue? b
    let c ← hexValue? c
    let d ← hexValue? d
    return (a * 4096 + b * 256 + c * 16 + d, cs)
  | _ => none

/-- The character whose number follows, and the rest. Two numbers, the first from `D800` and the
second from `DC00` on, make one character together. -/
def numbered? (cs : Text) : Option (Char × Text) := do
  let (high, rest) ← unit? cs
  if 0xD800 ≤ high ∧ high < 0xDC00 then
    match rest with
    | '\\' :: 'u' :: more =>
      let (low, rest) ← unit? more
      if 0xDC00 ≤ low ∧ low < 0xE000 then
        return (Char.ofNat (0x10000 + (high - 0xD800) * 0x400 + (low - 0xDC00)), rest)
      else none
    | _ => none
  else if 0xDC00 ≤ high ∧ high < 0xE000 then none
  else return (Char.ofNat high, rest)

/-- The character for a letter after a backslash. -/
def escaped? (c : Char) : Option Char :=
  [('"', '"'), ('\\', '\\'), ('/', '/'), ('b', '\x08'), ('f', '\x0c'), ('n', '\n'), ('r', '\r'),
   ('t', '\t')].lookup c

/-- The characters of a string up to its closing quote, and the rest, in at most `n` steps. -/
def stringUpTo : Nat → Text → Option (Text × Text)
  | 0, _ => none
  | _, [] => none
  | n + 1, c :: cs =>
    if c == '"' then some ([], cs)
    else if c == '\\' then
      match cs with
      | 'u' :: more => do
        let (c, rest) ← numbered? more
        let (t, rest) ← stringUpTo n rest
        return (c :: t, rest)
      | e :: rest => do
        let c ← escaped? e
        let (t, rest) ← stringUpTo n rest
        return (c :: t, rest)
      | [] => none
    else if c.toNat < 0x20 then none
    else do
      let (t, rest) ← stringUpTo n cs
      return (c :: t, rest)

/-- A string after its opening quote, and the rest. -/
def string? (cs : Text) : Option (Text × Text) := stringUpTo cs.length cs

/-! ## Numbers and words -/

/-- The digits at the front of a text, as a number and as many as there are, and the rest. There
must be some. -/
def digits? (cs : Text) : Option ((Nat × Nat) × Text) :=
  let digits := cs.takeWhile Char.isDigit
  if digits.isEmpty then none
  else
    some ((digits.foldl (fun n c => n * 10 + (c.toNat - '0'.toNat)) 0, digits.length),
      cs.dropWhile Char.isDigit)

/-- The fraction at the front of a text, if there is one. -/
def fraction? : Text → Option ((Nat × Nat) × Text)
  | '.' :: cs => digits? cs
  | _ => none

/-- The exponent at the front of a text, if there is one. -/
def exponent? : Text → Option (Int × Text)
  | c :: cs =>
    if c != 'e' && c != 'E' then none
    else
      match cs with
      | '-' :: cs => do
        let ((n, _), rest) ← digits? cs
        return (-n, rest)
      | '+' :: cs => do
        let ((n, _), rest) ← digits? cs
        return (n, rest)
      | cs => do
        let ((n, _), rest) ← digits? cs
        return (n, rest)
  | [] => none

/-- The number at the front of a text, and the rest. Only zero starts with the digit zero. -/
def number? (negative : Bool) (cs : Text) : Option (Value × Text) := do
  let ((whole, size), rest) ← digits? cs
  if 1 < size && cs.head? == some '0' then none
  else
    match fraction? rest with
    | some ((decimals, places), rest) =>
      let (power, rest) := (exponent? rest).getD (0, rest)
      return (.float (.ofDecimal negative (whole * Nat.pow 10 places + decimals) (power - places)), rest)
    | none =>
      match exponent? rest with
      | some (power, rest) => return (.float (.ofDecimal negative whole power), rest)
      | none => return (.int (if negative then -whole else whole), rest)

/-- The words of JSON text. Infinity is a number whose power of ten is too large. -/
def jsonWords : List (Text × Value) :=
  [("null", .null), ("true", .bool true), ("false", .bool false),
   ("NaN", .float ⟨0x7ff8000000000000#64⟩), ("Infinity", .float (.ofDecimal false 1 400)),
   ("-Infinity", .float (.ofDecimal true 1 400))]

/-- The word or number at the front of a text, and the rest. -/
def scalar? (cs : Text) : Option (Value × Text) :=
  let word := jsonWords.findSome? fun (word, v) => (word.isPrefixOf? cs).map (v, ·)
  match word, cs with
  | some found, _ => some found
  | none, '-' :: digits => number? true digits
  | none, digits => number? false digits

/-! ## Values -/

mutual

/-- The value at the front of a text, and the rest, in at most `n` steps. -/
def readUpTo : Nat → Text → Option (Value × Text)
  | 0, _ => none
  | n + 1, cs =>
    match skipBlanks cs with
    | '"' :: rest => do
      let (t, rest) ← string? rest
      return (.text t, rest)
    | '[' :: rest =>
      match skipBlanks rest with
      | ']' :: rest => some (.list [], rest)
      | _ => do
        let (items, rest) ← readItems n rest
        return (.list items, rest)
    | '\x7b' :: rest =>
      match skipBlanks rest with
      | '\x7d' :: rest => some (.map [], rest)
      | _ => do
        let (entries, rest) ← readEntries n rest
        -- Of several values under one name the last one counts.
        return (.record (entries.foldl (fun es e => insertEntry e.1 e.2 es) []), rest)
    | rest => scalar? rest

/-- The items of a list up to its closing bracket, and the rest. -/
def readItems : Nat → Text → Option (List Value × Text)
  | 0, _ => none
  | n + 1, cs => do
    let (v, rest) ← readUpTo n cs
    match skipBlanks rest with
    | ',' :: rest =>
      let (vs, rest) ← readItems n rest
      return (v :: vs, rest)
    | ']' :: rest => return ([v], rest)
    | _ => none

/-- The entries of a map up to its closing brace, and the rest. -/
def readEntries : Nat → Text → Option (List (Text × Value) × Text)
  | 0, _ => none
  | n + 1, cs =>
    match skipBlanks cs with
    | '"' :: rest => do
      let (key, rest) ← string? rest
      match skipBlanks rest with
      | ':' :: rest =>
        let (v, rest) ← readUpTo n rest
        match skipBlanks rest with
        | ',' :: rest =>
          let (entries, rest) ← readEntries n rest
          return ((key, v) :: entries, rest)
        | '\x7d' :: rest => return ([(key, v)], rest)
        | _ => none
      | _ => none
    | _ => none

end

/-- **The value that a JSON text describes.** -/
def ofJson? (t : Text) : Option Value := do
  let (v, rest) ← readUpTo (t.length + 1) t
  if (skipBlanks rest).isEmpty then return v else none

end DocModel.Value
