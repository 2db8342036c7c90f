import DocModel.Text.Basic

/-!
# Floating-point numbers

A number with a fraction or an exponent is kept with double precision: one bit for the sign, eleven
for the scale and 52 for the fraction. With the scale `s` and the fraction `f` it is `f · 2⁻¹⁰⁷⁴` if
`s` is zero, and `(2⁵² + f) · 2ˢ⁻¹⁰⁷⁵` otherwise. The largest scale is for the two infinities and
for results that are no number.

A number is written with as few digits as tell it from all others, and with the digits next to it
among those.
-/

namespace DocModel

/-- **A floating-point number of double precision**, by its bits. -/
structure Double where
  /-- Sign, scale and fraction. -/
  bits : BitVec 64
  deriving DecidableEq

namespace Double

/-- Whether the sign is set. -/
def negative (x : Double) : Bool := x.bits.msb

/-- The scale. -/
def scale (x : Double) : Nat := (x.bits.extractLsb' 52 11).toNat

/-- The fraction. -/
def fraction (x : Double) : Nat := (x.bits.extractLsb' 0 52).toNat

/-- Whether a number is zero, of either sign. -/
def isZero (x : Double) : Bool := x.scale == 0 && x.fraction == 0

/-- Whether a number is neither infinite nor undefined. -/
def isFinite (x : Double) : Bool := x.scale != 2047

/-- Whether there is no number at all. -/
def isUndefined (x : Double) : Bool := !x.isFinite && x.fraction != 0

/-- The whole number by which a power of two is multiplied. -/
def significand (x : Double) : Nat := if x.scale = 0 then x.fraction else (1 <<< 52) + x.fraction

/-- The exponent of that power of two. -/
def exponent (x : Double) : Int := (max x.scale 1 : Nat) - 1075

/-! ## Writing -/

/-- **A range of numbers**, in multiples of `num / den`: those from `low` to `high`, with or without
these two, around `value`. -/
structure Range where
  /-- The numerator of the unit. -/
  num : Nat
  /-- The denominator of the unit. -/
  den : Nat
  /-- The lower end. -/
  low : Nat
  /-- The number in the middle. -/
  value : Nat
  /-- The upper end. -/
  high : Nat
  /-- Whether the ends belong to the range. -/
  closed : Bool

/-- **The range of numbers that are nearest to a given one**, in quarters of its last place. Below
a power of two the neighbour is only half as far away. -/
def range (x : Double) : Range :=
  let place := x.exponent - 2
  { num := 1 <<< place.toNat
    den := 1 <<< (-place).toNat
    low := 4 * x.significand - if x.fraction = 0 ∧ 1 < x.scale then 1 else 2
    value := 4 * x.significand
    high := 4 * x.significand + 2
    closed := x.significand % 2 == 0 }

/-- The multiple of `10ᵏ` in a range that is nearest to its middle, if there is one; halfway it is
the even one. -/
def Range.multiple? (r : Range) (k : Int) : Option Nat :=
  let step := Nat.pow 10 k.toNat * r.den
  let unit := Nat.pow 10 (-k).toNat * r.num
  let has (n : Nat) : Bool :=
    (r.low * unit < n * step && n * step < r.high * unit) ||
      (r.closed && (n * step == r.low * unit || n * step == r.high * unit))
  let below := r.value * unit / step
  let gap := r.value * unit % step
  let first := if 2 * gap < step ∨ (2 * gap = step ∧ below % 2 = 0) then below else below + 1
  let second := 2 * below + 1 - first
  if has first then some first else if has second then some second else none

/-- The coarsest decimal numbers in a range, from multiples of `10ᵏ` on to finer ones in at most `n`
steps: a whole number, and the power of ten. -/
def Range.coarsest (r : Range) : Nat → Int → Nat × Int
  | 0, k => (0, k)
  | n + 1, k =>
    match r.multiple? k with
    | some digits => (digits, k)
    | none => r.coarsest n (k - 1)

/-- **The shortest decimal number for a finite one**: a whole number and a power of ten. None is
larger than `2 · 10³⁰⁸`, and all are multiples of `10⁻³²⁴` as far as they can be told apart. -/
def shortest (x : Double) : Nat × Int := x.range.coarsest 634 309

/-- Decimal digits with the point before the place `point`. Large and small numbers have an
exponent. -/
def layOut (digits : Text) (point : Int) : Text :=
  if -4 < point ∧ point ≤ 16 then
    if point ≤ 0 then "0." ++ List.replicate (-point).toNat '0' ++ digits
    else
      let padded := digits ++ List.replicate (point.toNat - digits.length) '0'
      let decimals := padded.drop point.toNat
      padded.take point.toNat ++ "." ++ (if decimals.isEmpty then "0" else decimals : Text)
  else
    let size := Text.ofNat (point - 1).natAbs
    let sign : Text := if point < 1 then "-" else "+"
    let decimals := digits.drop 1
    digits.take 1 ++ (if decimals.isEmpty then "" else "." ++ decimals : Text) ++ "e" ++ sign
      ++ List.replicate (2 - size.length) '0' ++ size

/-- **A number as it is written**, with the given words for what is no number and for infinity. -/
def write (undefined infinity : Text) (x : Double) : Text :=
  if x.isUndefined then undefined
  else
    let sign : Text := if x.negative then "-" else ""
    if !x.isFinite then sign ++ infinity
    else if x.isZero then sign ++ "0.0"
    else
      let (n, k) := x.shortest
      let digits := Text.ofNat n
      sign ++ layOut digits (digits.length + k)

/-- A number as messages show it. -/
def display (x : Double) : Text := x.write "nan" "inf"

/-- A number in JSON text. -/
def json (x : Double) : Text := x.write "NaN" "Infinity"

/-! ## Reading -/

/-- **The number nearest to a decimal number** with the given digits and power of ten. A power that
is too large or too small for any number is not raised. -/
def ofDecimal (negative : Bool) (digits : Nat) (k : Int) : Double :=
  let size : Int := (Text.ofNat digits).length + k
  let magnitude : Float :=
    if digits = 0 ∨ size < -400 then 0
    else if 400 < size then Float.ofScientific 1 false 400
    else Float.ofScientific digits (k < 0) k.natAbs
  let bits := magnitude.toBits.toBitVec
  ⟨if negative then bits ||| BitVec.twoPow 64 63 else bits⟩

-- The least number, the largest one, and one halfway between two of the shortest decimal numbers.
example : display ⟨1⟩ = "5e-324" ∧ display (ofDecimal false 17976931348623157 292)
    = "1.7976931348623157e+308" ∧ display (ofDecimal true 112589990684262425 (-2))
    = "-1125899906842624.2" := by decide +kernel

end Double

end DocModel
