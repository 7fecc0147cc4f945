import Chiptune.Machine

/-! Executing one instruction. An instruction is a sequence of small steps that change the machine,
the cursor and the output in place. A step that fails keeps what the steps before it have changed,
so what a fault leaves behind depends on the order of the steps.
-/

namespace Chiptune

/-- A machine, the program it executes and the output it plays on. -/
structure Player (σ : Type) where
  machine : Machine
  program : Program
  sink : σ

namespace Player

/-- Steps that change a player and can fail. The player that a failure comes with is the one that
the steps before it have made.
-/
abbrev Steps (σ α : Type) : Type :=
  EStateM Fault (Player σ) α

/-- Fails unless `target` is in the program or its end. -/
def checkTarget (target cursor : Nat) : Steps σ Unit := do
  let size := (← get).program.size
  if size < target then throw ⟨.targetPastEnd target size, cursor⟩

/-- Continue at `target`, if that is in the program or its end. -/
def jump (target cursor : Nat) : Steps σ Unit := do
  checkTarget target cursor
  modify fun player =>
    { player with program := (player.program.seek? target).getD player.program }

/-- Continue at the next instruction. -/
def advance : Steps σ Unit :=
  modify fun player => { player with program := player.program.advance }

/-- Put a frame on the control stack, if it is not full. -/
def push (frame : Frame) (cursor : Nat) : Steps σ Unit := do
  let machine := (← get).machine
  if machine.maxDepth ≤ machine.stack.length then throw ⟨.stackFull machine.maxDepth, cursor⟩
  modify fun player => { player with machine.stack := frame :: player.machine.stack }

/-- Take the innermost frame from the control stack. -/
def pop : Steps σ Unit :=
  modify fun player => { player with machine.stack := player.machine.stack.tail }

/-- Put a frame in the place of the innermost one. -/
def replaceTop (frame : Frame) : Steps σ Unit :=
  modify fun player => { player with machine.stack := frame :: player.machine.stack.tail }

/-- The duration of a length at the current tempo, if the output can hold a tone that long. -/
def resolve (range : ToneRange) (length : Length) (cursor : Nat) : Steps σ UInt32 := do
  match (← get).machine.resolve range length with
  | .ok millis => return millis
  | .error cause => throw ⟨cause, cursor⟩

variable [ToneSink σ]

/-- Request a tone of the output. -/
def request (tone : Tone) (cursor : Nat) : Steps σ Unit := do
  let player ← get
  let (sink, refusal?) := ToneSink.emit player.sink tone
  set { player with sink }
  match refusal? with
  | none => return
  | some error => throw ⟨.refused error, cursor⟩

/-- Play a frequency for a length and continue at the next instruction. -/
def sound (range : ToneRange) (hertz : UInt32) (length : Length) (cursor : Nat)
    : Steps σ Unit := do
  let millis ← resolve range length cursor
  request ⟨hertz, millis⟩ cursor
  advance

/-- Execute an instruction, which is under the cursor. -/
def execute (range : ToneRange) (instruction : Instruction) : Steps σ Unit := do
  let cursor := (← get).program.cursor
  match instruction with
  | .note hertz length =>
    if !range.acceptsFrequency hertz then throw ⟨.frequencyOutOfRange hertz range, cursor⟩
    sound range hertz length cursor
  | .rest length => sound range 0 length cursor
  | .tempo beats =>
    modify fun player => { player with machine.tempo := beats }
    advance
  | .breakpoint => advance
  | .jump target => jump target cursor
  | .call target =>
    checkTarget target cursor
    push (.call (cursor + 1)) cursor
    jump target cursor
  | .comeBack =>
    match (← get).machine.stack with
    | .call returnTo :: _ =>
      checkTarget returnTo cursor
      pop
      jump returnTo cursor
    | _ => throw ⟨.returnWithoutCall, cursor⟩
  | .repeatOpen count exit =>
    if count = 0 then jump exit cursor
    else
      push (.loop (count - 1)) cursor
      advance
  | .repeatClose body =>
    checkTarget body cursor
    match (← get).machine.stack with
    | .loop remaining :: _ =>
      if 0 < remaining then
        replaceTop (.loop (remaining - 1))
        jump body cursor
      else
        pop
        advance
    | _ => throw ⟨.closeWithoutOpen, cursor⟩

end Player

end Chiptune
