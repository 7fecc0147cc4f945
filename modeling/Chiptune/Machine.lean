import Chiptune.Fault
import Chiptune.Program

/-! The machine that executes programs: a tempo, a control stack of open loops and pending calls,
and the last fault.
-/

namespace Chiptune

/-- An entry of the control stack. -/
inductive Frame where
  /-- An open loop that is to be played `remaining` times after the current one. -/
  | loop (remaining : UInt32)
  /-- A pending call, after which the song goes on at `returnTo`. -/
  | call (returnTo : Nat)
deriving DecidableEq

/-- The registers of a playback. -/
structure Machine where
  tempo : UInt32
  initialTempo : UInt32
  /-- The control stack, the innermost frame first. -/
  stack : List Frame
  maxDepth : Nat
  lastFault : Option Fault
deriving DecidableEq

namespace Machine

/-- Beats per minute of a song that sets no tempo. -/
def defaultTempo : UInt32 := 120

/-- Frames that a control stack holds where no other limit is set. -/
def defaultMaxDepth : Nat := 32

/-- A machine that has executed nothing. -/
def new (tempo : UInt32) (maxDepth : Nat) : Machine :=
  { tempo, initialTempo := tempo, stack := [], maxDepth, lastFault := none }

/-- The machine with its registers as they were before it executed anything. -/
def reset (machine : Machine) : Machine :=
  { machine with tempo := machine.initialTempo, stack := [], lastFault := none }

theorem reset_eq_new (machine : Machine)
    : machine.reset = new machine.initialTempo machine.maxDepth := rfl

/-- The duration of a length at the current tempo, if the output can hold a tone that long. -/
def resolve (machine : Machine) (range : ToneRange) (length : Length)
    : Except FaultCause UInt32 :=
  match length.toMillis? machine.tempo with
  | none => .error (.noDuration length machine.tempo)
  | some millis =>
    if range.acceptsDuration millis then .ok millis
    else .error (.durationTooLong millis range.maxMillis)

end Machine

end Chiptune
