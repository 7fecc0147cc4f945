import Chiptune.Decimal.Shortest

/-! Texts of floats. A layout says which digits stand for a float and how they are arranged around
the decimal point.
-/

namespace Chiptune

/-- How floats are written. -/
structure DecimalLayout where
  /-- The text of what is no number. -/
  undefined : String
  /-- The text of infinity, which may follow a minus sign. -/
  infinity : String
  /-- What follows the last digit of a whole number. -/
  wholeEnd : String
  /-- The tie between two decimals of the same length. -/
  tie : Tie
  /-- Whether digits are written without an exponent if the decimal point stands so many places
  after the first of them.
  -/
  isPositional : Int → Bool

namespace DecimalLayout

/-- A number of zeros. -/
def zeros (count : Nat) : List Char :=
  List.replicate count '0'

/-- Digits with the decimal point after so many of them. -/
def positional (layout : DecimalLayout) (digits : List Char) (point : Int) : List Char :=
  if point ≤ 0 then '0' :: '.' :: zeros (-point).toNat ++ digits
  else if (digits.length : Int) ≤ point then
    digits ++ zeros (point.toNat - digits.length) ++ layout.wholeEnd.toList
  else digits.take point.toNat ++ '.' :: digits.drop point.toNat

/-- Digits with the decimal point after the first of them, and the power of ten. -/
def scientific (digits : List Char) (point : Int) : List Char :=
  let fraction := digits.drop 1
  digits.take 1 ++ (if fraction.isEmpty then [] else '.' :: fraction)
    ++ 'e' :: (toString (point - 1)).toList

/-- The text of a decimal. -/
def decimal (layout : DecimalLayout) (decimal : Decimal) : List Char :=
  let digits := Nat.toDigits 10 decimal.significand
  let point := digits.length + decimal.exponent
  if layout.isPositional point then layout.positional digits point else scientific digits point

/-- The text of a float. -/
def render (layout : DecimalLayout) (value : Float32) : String :=
  let bits := value.toBits.toNat
  let signed (text : List Char) : String :=
    String.ofList (if 0x80000000 ≤ bits then '-' :: text else text)
  match Magnitude.ofBits bits with
  | .undefined => layout.undefined
  | .infinite => signed layout.infinity.toList
  | .zero => signed ('0' :: layout.wholeEnd.toList)
  | .positive number => signed (layout.decimal (number.shortest layout.tie))

end DecimalLayout

end Chiptune
