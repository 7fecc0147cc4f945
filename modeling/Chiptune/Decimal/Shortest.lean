/-! The shortest decimal that stands for a binary floating-point number: of all decimals which are
nearer to it than to its neighbours, one with the fewest digits, and of those the nearest one. All
arithmetic is on natural numbers and exact.
-/

namespace Chiptune

/-- The positive number `significand * 2 ^ exponent`, as a binary format holds it. -/
structure Binary where
  significand : Nat
  exponent : Int
  /-- Whether the next number below is only half as far away as the next one above. -/
  isNarrowBelow : Bool
deriving DecidableEq

/-- The number `significand * 10 ^ exponent`. -/
structure Decimal where
  significand : Nat
  exponent : Int
deriving DecidableEq

/-- Which of two decimals stands for a number halfway between them. -/
inductive Tie where
  | upper
  | even
deriving DecidableEq

namespace Binary

/-- The number of quarter units of the last place in a number, and in the ends of the interval of
reals that are nearer to it than to its neighbours.
-/
def quarters (number : Binary) : Nat × Nat × Nat :=
  let middle := 4 * number.significand
  (if number.isNarrowBelow then middle - 1 else middle - 2, middle, middle + 2)

/-- The ends of the interval stand for the number too if its significand is even. -/
def hasEnds (number : Binary) : Bool :=
  number.significand % 2 = 0

/-- The factor of a quarter unit, and the size of a step of the grid of multiples of `10 ^ place`,
both in the same small unit.
-/
def scale (number : Binary) (place : Int) : Nat × Nat :=
  let power := number.exponent - 2
  (Nat.pow 2 power.toNat * Nat.pow 10 (-place).toNat,
    Nat.pow 2 (-power).toNat * Nat.pow 10 place.toNat)

/-- Whether the number below or above stands nearer: `above` for the one above. -/
def prefersAbove (tie : Tie) (below rest step : Nat) : Bool :=
  if 2 * rest = step then tie = .upper || below % 2 = 1 else step < 2 * rest

/-- The decimal on the grid of multiples of `10 ^ place` that stands for a number and is nearest to
it, if any one stands for it.
-/
def decimalAt? (number : Binary) (tie : Tie) (place : Int) : Option Decimal :=
  let (low, middle, high) := number.quarters
  let (factor, step) := number.scale place
  let below := middle * factor / step
  let rest := middle * factor % step
  let stands (candidate : Nat) : Bool :=
    let point := candidate * step
    if number.hasEnds then low * factor ≤ point && point ≤ high * factor
    else low * factor < point && point < high * factor
  let first := if prefersAbove tie below rest step then below + 1 else below
  let second := if first = below then below + 1 else below
  if 0 < first && stands first then some ⟨first, place⟩
  else if 0 < second && stands second then some ⟨second, place⟩
  else none

/-- The places of all digits that a number of 32 bits can have, from the highest to the lowest. -/
def places : List Int :=
  (List.range 190).map fun index : Nat => (39 : Int) - index

/-- The shortest decimal of a number. -/
def shortest (number : Binary) (tie : Tie) : Decimal :=
  (places.findSome? (number.decimalAt? tie)).getD ⟨0, 0⟩

end Binary

/-- What a 32-bit float stands for, its sign aside. -/
inductive Magnitude where
  | undefined
  | infinite
  | zero
  | positive (number : Binary)
deriving DecidableEq

/-- The highest bit of a significand of 24 bits, which a 32-bit float does not hold. -/
def Magnitude.hiddenBit : Nat := 0x800000

/-- The magnitude that the bits of a 32-bit float encode. -/
def Magnitude.ofBits (bits : Nat) : Magnitude :=
  let fraction : Nat := bits % hiddenBit
  let exponent : Nat := bits / hiddenBit % 0x100
  if exponent = 255 then if fraction = 0 then .infinite else .undefined
  else if exponent = 0 then if fraction = 0 then .zero else .positive ⟨fraction, -149, false⟩
  else .positive ⟨hiddenBit + fraction, exponent - 150, fraction = 0 && 1 < exponent⟩

end Chiptune
