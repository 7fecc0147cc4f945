import Chiptune.Compile

/-! Programs that song notation can express. Their instructions carry values that notation has,
and their loops are nested, each with the exit and the body that belong to it.
-/

namespace Chiptune

namespace Instruction

def boundsLoop : Instruction → Bool
  | .repeatOpen .. => true
  | .repeatClose _ => true
  | _ => false

/-- The values that an instruction of a program with `size` instructions may carry: a frequency
above zero, a tempo that notation allows, and a target that is not past the end.
-/
def Permitted (size : Nat) : Instruction → Prop
  | .note frequency _ => 1 ≤ frequency.toNat
  | .tempo beats => 1 ≤ beats.toNat ∧ beats.toNat ≤ maxTempo
  | .jump target => target ≤ size
  | .call target => target ≤ size
  | _ => True

end Instruction

/-- The loops of code whose first instruction has the index `start` are nested. An opening leads
to the index after its closing, and a closing to the index after its opening.
-/
inductive Nested : Nat → List Instruction → Prop
  | nil (start : Nat) : Nested start []
  | plain {start instruction rest} (simple : instruction.boundsLoop = false)
    (tail : Nested (start + 1) rest)
    : Nested start (instruction :: rest)
  | loop {start body rest} (count : UInt32) (inside : Nested (start + 1) body)
    (tail : Nested (start + body.length + 2) rest)
    : Nested start
        (.repeatOpen count (start + body.length + 2)
          :: (body ++ .repeatClose (start + 1) :: rest))

/-- Code that notation can express: permitted instructions with nested loops. -/
structure WellFormed (code : List Instruction) : Prop where
  permitted : ∀ instruction ∈ code, instruction.Permitted code.length
  nested : Nested 0 code

end Chiptune
