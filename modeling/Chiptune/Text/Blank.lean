/-! The white space of Unicode. -/

namespace Chiptune

/-- The ranges of the code points that are white space. -/
def blankRanges : List (Nat × Nat) :=
  [ (0x09, 0x0d), (0x20, 0x20), (0x85, 0x85), (0xa0, 0xa0), (0x1680, 0x1680),
    (0x2000, 0x200a), (0x2028, 0x2029), (0x202f, 0x202f), (0x205f, 0x205f),
    (0x3000, 0x3000) ]

/-- Whether a character is white space. -/
def isWhiteSpace (character : Char) : Bool :=
  blankRanges.any fun (first, last) => first ≤ character.toNat && character.toNat ≤ last

end Chiptune
