import Chiptune.Instruction
import Chiptune.ToneSink

/-! Why playing a song stops. A fault is a cause and the instruction that raised it; its kind and
its wording follow from the cause.
-/

namespace Chiptune

/-- The five kinds of fault. -/
inductive FaultKind where
  | invalidJumpTarget
  | stackOverflow
  | stackUnderflow
  | outOfRangeTone
  | sinkFailure
deriving DecidableEq

/-- How a message names a kind of fault. -/
def FaultKind.describe : FaultKind → String
  | .invalidJumpTarget => "invalid jump target"
  | .stackOverflow => "stack overflow"
  | .stackUnderflow => "stack underflow"
  | .outOfRangeTone => "out of range tone"
  | .sinkFailure => "sink failure"

/-- Why an instruction cannot be executed. -/
inductive FaultCause where
  /-- The song would continue past its end, which is at `size`. -/
  | targetPastEnd (target size : Nat)
  /-- The control stack holds as many frames as it may. -/
  | stackFull (depth : Nat)
  | returnWithoutCall
  | closeWithoutOpen
  | frequencyOutOfRange (hertz : UInt32) (range : ToneRange)
  | durationTooLong (millis maxMillis : UInt32)
  /-- The length has no duration at the tempo. -/
  | noDuration (length : Length) (tempo : UInt32)
  /-- The output refused the tone. -/
  | refused (error : SinkError)
deriving DecidableEq

namespace FaultCause

/-- The kind that a cause belongs to. -/
def kind : FaultCause → FaultKind
  | .targetPastEnd .. => .invalidJumpTarget
  | .stackFull _ => .stackOverflow
  | .returnWithoutCall => .stackUnderflow
  | .closeWithoutOpen => .stackUnderflow
  | .frequencyOutOfRange .. => .outOfRangeTone
  | .durationTooLong .. => .outOfRangeTone
  | .noDuration .. => .outOfRangeTone
  | .refused _ => .sinkFailure

/-- The wording of a cause. -/
def describe : FaultCause → String
  | .targetPastEnd target size => s!"target {target} past end {size}"
  | .stackFull depth => s!"control stack deeper than {depth}"
  | .returnWithoutCall => "RETURN without a pending CALL"
  | .closeWithoutOpen => "END without an open REPEAT"
  | .frequencyOutOfRange hertz range =>
    s!"frequency {hertz} Hz outside {range.minHertz}..={range.maxHertz} Hz"
  | .durationTooLong millis maxMillis => s!"duration {millis} ms longer than {maxMillis} ms"
  | .noDuration length tempo =>
    s!"length {length.describe} cannot be resolved at tempo {tempo}"
  | .refused error => error.describe

end FaultCause

/-- A fault: its cause, and the index of the instruction that raised it. -/
structure Fault where
  cause : FaultCause
  cursor : Nat
deriving DecidableEq

/-- What a reader is told about a fault. -/
structure FaultSummary where
  kind : FaultKind
  cursor : Nat
  detail : Option String := none
deriving DecidableEq

/-- The summary of a fault. -/
def Fault.summary (fault : Fault) : FaultSummary :=
  ⟨fault.cause.kind, fault.cursor, some fault.cause.describe⟩

/-- The one-line form of a summary. -/
def FaultSummary.describe (summary : FaultSummary) : String :=
  let place := s!"{summary.kind.describe} at instruction {summary.cursor}"
  match summary.detail with
  | some detail => s!"{place}: {detail}"
  | none => place

/-- How playing stopped, with faults told as a `φ`. -/
inductive Outcome (φ : Type) where
  /-- The cursor is at the end of the song. -/
  | ended
  /-- Playing stopped before the instruction at `cursor` and can go on there. -/
  | suspended (cursor : Nat)
  | faulted (fault : φ)
deriving DecidableEq

namespace Outcome

/-- The outcome with its fault told in another way. -/
def map (tell : φ → ψ) : Outcome φ → Outcome ψ
  | .ended => .ended
  | .suspended cursor => .suspended cursor
  | .faulted fault => .faulted (tell fault)

/-- The fault of an outcome, if it is one. -/
def fault? : Outcome φ → Option φ
  | .faulted fault => some fault
  | _ => none

/-- Whether playing can go on. -/
def isSuspended : Outcome φ → Bool
  | .suspended _ => true
  | _ => false

/-- The one-line form of an outcome. -/
def describe : Outcome FaultSummary → String
  | .ended => "program ended"
  | .suspended cursor => s!"breakpoint at instruction {cursor}"
  | .faulted fault => fault.describe

end Outcome

end Chiptune
