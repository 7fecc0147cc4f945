/-! Places in the text of a song. Offsets and columns count bytes; lines and columns start at
one.
-/

namespace Chiptune

/-- A place in a song's text. -/
structure Position where
  /-- Bytes from the start of the text. -/
  offset : Nat := 0
  /-- Number of the line, the first being one. -/
  line : Nat := 1
  /-- Place on the line in bytes, the first being one. -/
  column : Nat := 1
deriving DecidableEq

namespace Position

/-- The place of a text's first byte. -/
def start : Position := {}

/-- The place `count` bytes further along the same line. -/
def right (position : Position) (count : Nat) : Position :=
  { position with offset := position.offset + count, column := position.column + count }

/-- The first place of the next line, for a `position` that holds a line break. -/
def nextLine (position : Position) : Position :=
  ⟨position.offset + 1, position.line + 1, 1⟩

@[simp] theorem right_zero (position : Position) : position.right 0 = position := rfl

/-- Moves along a line add up, by associativity. -/
theorem right_right (position : Position) (first second : Nat)
    : (position.right first).right second = position.right (first + second) := by
  simp [right, Nat.add_assoc]

end Position

end Chiptune
