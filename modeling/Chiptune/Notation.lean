import Chiptune.Pitch
import Chiptune.Program

/-! Programs as song notation, one statement to a line. Labels are named after their targets, the
bodies of loops are indented, and pitches and lengths have their shortest names.
-/

namespace Chiptune.Notation

/-- The name of the label for a target. -/
def labelName (target : Nat) : String :=
  "L" ++ toString target

/-- The blanks before a statement inside `depth` loops. -/
def indent (depth : Nat) : String :=
  String.ofList (List.replicate (2 * depth) ' ')

/-- The pitch of a frequency: its name, or the hertz where it has none. -/
def pitch (frequency : UInt32) : String :=
  (Pitch.name? frequency).getD (toString frequency)

/-- The statement of an instruction. -/
def statement : Instruction → String
  | .note frequency length => pitch frequency ++ " " ++ length.name
  | .rest length => "REST " ++ length.name
  | .tempo beats => "TEMPO " ++ toString beats
  | .jump target => "JUMP " ++ labelName target
  | .call target => "CALL " ++ labelName target
  | .comeBack => "RETURN"
  | .repeatOpen count _ => "REPEAT " ++ toString count
  | .repeatClose _ => "END"
  | .breakpoint => "BREAK"

/-- Whether the jumps and calls of `code` make an index a target. -/
def isTarget (code : List Instruction) (index : Nat) : Bool :=
  code.any fun
    | .jump target => target == index
    | .call target => target == index
    | _ => false

/-- The line of the label at `index`, where there is one. -/
def labelLine (labelled : Nat → Bool) (index depth : Nat) : List String :=
  if labelled index then [indent depth ++ "LABEL " ++ labelName index] else []

/-- The lines of the instructions from `index` on, of which the first lies inside `depth` loops.
A label at the end of the song is not indented.
-/
def linesFrom (labelled : Nat → Bool) (index depth : Nat) : List Instruction → List String
  | [] => labelLine labelled index 0
  | instruction :: rest =>
    let (own, next) :=
      match instruction with
      | .repeatOpen .. => (depth, depth + 1)
      | .repeatClose _ => (depth - 1, depth - 1)
      | _ => (depth, depth)
    labelLine labelled index depth
      ++ (indent own ++ statement instruction) :: linesFrom labelled (index + 1) next rest

/-- The lines of a program. -/
def lines (program : Program) : List String :=
  let code := program.code.toList
  linesFrom (isTarget code) 0 0 code

/-- The text of a program in song notation. -/
def render (program : Program) : String :=
  String.join ((lines program).map (· ++ "\n"))

end Chiptune.Notation
