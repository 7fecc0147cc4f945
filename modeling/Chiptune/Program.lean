import Chiptune.Instruction

/-! Compiled songs with a cursor on the instruction that is next. -/

namespace Chiptune

/-- A compiled song. A cursor at the number of instructions stands at the end of the song. -/
structure Program where
  code : Array Instruction
  cursor : Nat := 0
deriving DecidableEq

namespace Program

/-- The number of instructions, which is also the index of the end. -/
def size (program : Program) : Nat :=
  program.code.size

/-- The instruction under the cursor; none at the end. -/
def current? (program : Program) : Option Instruction :=
  program.code[program.cursor]?

/-- Whether the cursor stands at the end. -/
def isFinished (program : Program) : Bool :=
  program.size ≤ program.cursor

/-- The song with its cursor on the first instruction. -/
def rewind (program : Program) : Program :=
  { program with cursor := 0 }

/-- The song with its cursor at `target`; none if `target` lies past the end. -/
def seek? (program : Program) (target : Nat) : Option Program :=
  if target ≤ program.size then some { program with cursor := target } else none

/-- The song with its cursor on the next instruction, if it is not at the end. -/
def advance (program : Program) : Program :=
  if program.cursor < program.size then { program with cursor := program.cursor + 1 }
  else program

/-- There is an instruction under the cursor exactly before the end. -/
theorem current?_isSome_iff (program : Program)
    : program.current?.isSome ↔ program.cursor < program.size := by
  simp [current?, size]

end Program

end Chiptune
