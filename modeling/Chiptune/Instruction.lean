import Chiptune.Length

/-! The instructions of a compiled song. Targets are indices of instructions; the number of
instructions itself is a target too and stands for the end of the song.
-/

namespace Chiptune

/-- One operation of a compiled song. -/
inductive Instruction where
  /-- Sound a frequency for a length. -/
  | note (frequency : UInt32) (length : Length)
  /-- Stay silent for a length. -/
  | rest (length : Length)
  /-- Set the tempo in beats per minute. -/
  | tempo (beats : UInt32)
  /-- Continue at `target`. -/
  | jump (target : Nat)
  /-- Continue at `target`, and after this instruction once the call returns. -/
  | call (target : Nat)
  /-- Continue after the call made last. -/
  | comeBack
  /-- Open a loop whose body is played `count` times; with none, continue at `exit`. -/
  | repeatOpen (count : UInt32) (exit : Nat)
  /-- Close the innermost loop, whose body starts at `body`. -/
  | repeatClose (body : Nat)
  /-- A place at which a debugger can stop. -/
  | breakpoint
deriving DecidableEq

namespace Instruction

/-- The word that names an instruction in listings. -/
def mnemonic : Instruction → String
  | .note .. => "NOTE"
  | .rest .. => "REST"
  | .tempo .. => "TEMPO"
  | .jump .. => "JUMP"
  | .call .. => "CALL"
  | .comeBack => "RETURN"
  | .repeatOpen .. => "REPEAT"
  | .repeatClose .. => "END"
  | .breakpoint => "BREAK"

/-- The index that an instruction carries and can continue at. -/
def target? : Instruction → Option Nat
  | .jump target => some target
  | .call target => some target
  | .repeatOpen _ exit => some exit
  | .repeatClose body => some body
  | _ => none

/-- How a listing shows an instruction. -/
def describe (instruction : Instruction) : String :=
  match instruction with
  | .note frequency length => s!"NOTE {frequency}Hz {length.describe}"
  | .rest length => s!"REST {length.describe}"
  | .tempo beats => s!"TEMPO {beats}"
  | .repeatOpen count exit => s!"REPEAT {count} (exit @{exit})"
  | _ =>
    match instruction.target? with
    | some target => s!"{instruction.mnemonic} @{target}"
    | none => instruction.mnemonic

/-- A jump or call with its target replaced; any other instruction unchanged. -/
def withTarget (target : Nat) : Instruction → Instruction
  | .jump _ => .jump target
  | .call _ => .call target
  | other => other

/-- The opening of a loop with its exit replaced; any other instruction unchanged. -/
def withExit (exit : Nat) : Instruction → Instruction
  | .repeatOpen count _ => .repeatOpen count exit
  | other => other

end Instruction

end Chiptune
