import Chiptune.Text.Ascii

/-! Numerals: decimal digits with an optional sign, point and exponent, and the float that is
nearest to their value.
-/

namespace Chiptune

/-- The number `significand * 10 ^ exponent` with a sign. -/
structure Numeral where
  isNegative : Bool
  significand : Nat
  exponent : Int
deriving DecidableEq

namespace Numeral

/-- The sign in front of a text, and what follows it. -/
def sign : List Char → Bool × List Char
  | '-' :: rest => (true, rest)
  | '+' :: rest => (false, rest)
  | text => (false, text)

/-- The exponent that ends a numeral, which is a whole number after the letter `e`. -/
def exponent? : List Char → Option Int
  | [] => some 0
  | letter :: text =>
    let (isNegative, digits) := sign text
    if (letter = 'e' || letter = 'E') && Ascii.isDigits digits then
      let value : Int := Ascii.digitsValue digits
      some (if isNegative then -value else value)
    else none

/-- The digits after a decimal point at the front of a text, and what follows them. -/
def fraction : List Char → List Char × List Char
  | '.' :: text => text.span Char.isDigit
  | text => ([], text)

/-- The numeral that a text is. It has at least one digit, before or after the point. -/
def parse? (text : List Char) : Option Numeral :=
  let (isNegative, unsigned) := sign text
  let (whole, afterWhole) := unsigned.span Char.isDigit
  let (decimals, afterDecimals) := fraction afterWhole
  let digits := whole ++ decimals
  if digits.isEmpty then none
  else
    (exponent? afterDecimals).map fun power =>
      ⟨isNegative, Ascii.digitsValue digits, power - decimals.length⟩

/-- No float is as great as `10 ^ greatestPower`. -/
def greatestPower : Int := 310

/-- Every number below `10 ^ leastPower` is rounded to zero. -/
def leastPower : Int := -400

/-- The float nearest to a numeral without its sign. -/
def magnitude (numeral : Numeral) : Float :=
  let power := (Nat.toDigits 10 numeral.significand).length + numeral.exponent
  if numeral.significand = 0 || power < leastPower then 0
  else if greatestPower < power then 1.0 / 0.0
  else Float.ofScientific numeral.significand (numeral.exponent < 0) numeral.exponent.natAbs

/-- The float nearest to a numeral. -/
def toFloat (numeral : Numeral) : Float :=
  if numeral.isNegative then -numeral.magnitude else numeral.magnitude

end Numeral

end Chiptune
