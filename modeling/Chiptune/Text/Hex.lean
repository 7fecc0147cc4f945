/-! Hexadecimal digits. Letters are read in either case and written in lower case. -/

namespace Chiptune.Hex

/-- The value of a digit. -/
def digit? (character : Char) : Option Nat :=
  if character.isDigit then some (character.toNat - 0x30)
  else if 'a' ≤ character && character ≤ 'f' then some (character.toNat - 0x61 + 10)
  else if 'A' ≤ character && character ≤ 'F' then some (character.toNat - 0x41 + 10)
  else none

/-- The value of digits. -/
def value? (digits : List Char) : Option Nat :=
  digits.foldlM (fun value digit => (digit? digit).map (16 * value + ·)) 0

/-- The digits of a number, at least `width` of them. -/
def digits (width number : Nat) : List Char :=
  let digits := Nat.toDigits 16 number
  List.replicate (width - digits.length) '0' ++ digits

end Chiptune.Hex
