import Mathlib

/-! The numbers that floats stand for. Floats are compared by their signs, exponents and
significands; on floats that stand for numbers this is the order of the numbers. What is no number
is not compared with anything, and an infinity does not lie between two numbers.
-/

namespace Chiptune.Volume

open Float.Model (Format UnpackedFloat)
open Float.Model.UnpackedFloat (Sign)

variable {volume lower upper : Float32} {low high : UnpackedFloat} {number least greatest : ℚ}
variable {significand lowSignificand highSignificand : Nat}
variable {exponent lowExponent highExponent : Int} {sign : Sign}

-----------------------------------------------------------------------------------------
-- Significands and exponents
-----------------------------------------------------------------------------------------

/-- The positive number of a significand and an exponent. -/
def dyadic (significand : Nat) (exponent : Int) : ℚ :=
  significand * 2 ^ exponent

/-- The number that a float stands for, if it stands for one. -/
def number? (volume : Float32) : Option ℚ :=
  match volume.toModel.unpack with
  | .notANumber => none
  | .infinity _ => none
  | .zero _ => some 0
  | .finite .positive significand exponent _ => some (dyadic significand exponent)
  | .finite .negative significand exponent _ => some (-dyadic significand exponent)

end Chiptune.Volume
