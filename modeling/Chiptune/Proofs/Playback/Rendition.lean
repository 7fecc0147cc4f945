import Chiptune.Fault
import Chiptune.Proofs.Playback.Score

/-! What playing a score sounds like, by its structure: an action sounds or sets the tempo for what
follows, and the body of a loop is played as often as the loop says. A rendition is cut off by
the first fault.
-/

namespace Chiptune

/-- The tones of a part of a song, the tempo after it, and the fault that cuts it off, if one does.
-/
structure Rendition where
  tones : List Tone
  tempo : UInt32
  fault : Option Fault
deriving DecidableEq

namespace Rendition

/-- How a playback ends that sounds like the rendition. -/
def outcome (rendition : Rendition) : Outcome Fault :=
  match rendition.fault with
  | none => .ended
  | some fault => .faulted fault

def silent (tempo : UInt32) : Rendition :=
  ⟨[], tempo, none⟩

def cutOff (tempo : UInt32) (cause : FaultCause) (index : Nat) : Rendition :=
  ⟨[], tempo, some ⟨cause, index⟩⟩

/-- One rendition and then another one, which starts at the tempo that the first one leaves. -/
def andThen (first : Rendition) (next : UInt32 → Rendition) : Rendition :=
  match first.fault with
  | some _ => first
  | none => { next first.tempo with tones := first.tones ++ (next first.tempo).tones }

/-- A rendition a number of times in a row. -/
def times (part : UInt32 → Rendition) : Nat → UInt32 → Rendition
  | 0, tempo => silent tempo
  | count + 1, tempo => (part tempo).andThen (times part count)

/-- The rendition of a tone at `index`, which has to be resolved and not too long. -/
def sound (range : ToneRange) (index : Nat) (tempo hertz : UInt32) (length : Length)
    : Rendition :=
  match length.toMillis? tempo with
  | none => cutOff tempo (.noDuration length tempo) index
  | some millis =>
    if millis ≤ range.maxMillis then ⟨[⟨hertz, millis⟩], tempo, none⟩
    else cutOff tempo (.durationTooLong millis range.maxMillis) index

end Rendition

open Rendition (silent cutOff sound)

def Action.rendition (range : ToneRange) (index : Nat) (tempo : UInt32) : Action → Rendition
  | .note hertz length =>
    if range.minHertz ≤ hertz ∧ hertz ≤ range.maxHertz then sound range index tempo hertz length
    else cutOff tempo (.frequencyOutOfRange hertz range) index
  | .rest length => sound range index tempo 0 length
  | .tempo beats => silent beats
  | .breakpoint => silent tempo

/-- The rendition of a score whose first instruction has the index `start` and lies in `depth`
loops, of which `maxDepth` can be open at a time.
-/
def Score.rendition (range : ToneRange) (maxDepth : Nat) (start depth : Nat) (tempo : UInt32)
    : Score → Rendition
  | .nil => silent tempo
  | .act action next =>
    (action.rendition range start tempo).andThen fun tempo =>
      next.rendition range maxDepth (start + 1) depth tempo
  | .loop count body next =>
    let played :=
      if count = 0 then silent tempo
      else if depth < maxDepth then
        .times (fun tempo => body.rendition range maxDepth (start + 1) (depth + 1) tempo)
          count.toNat tempo
      else cutOff tempo (.stackFull maxDepth) start
    played.andThen fun tempo =>
      next.rendition range maxDepth (start + body.size + 2) depth tempo

namespace Rendition

theorem andThen_fault {property : Fault → Prop} {first : Rendition}
    {next : UInt32 → Rendition} (left : ∀ fault ∈ first.fault, property fault)
    (right : ∀ tempo, ∀ fault ∈ (next tempo).fault, property fault)
    : ∀ fault ∈ (first.andThen next).fault, property fault := by
  unfold andThen
  split
  · exact left
  · exact right first.tempo

/-- A property of faults that a rendition has is one of its repetitions, by induction. -/
theorem times_fault {property : Fault → Prop} {part : UInt32 → Rendition}
    (holds : ∀ tempo, ∀ fault ∈ (part tempo).fault, property fault) (count : Nat)
    : ∀ tempo, ∀ fault ∈ (times part count tempo).fault, property fault := by
  induction count with
  | zero => simp [times, silent]
  | succ count ih => exact fun tempo => andThen_fault (holds tempo) ih

theorem andThen_of_fault_eq_none {first : Rendition} (complete : first.fault = none)
    (next : UInt32 → Rendition)
    : first.andThen next
      = { next first.tempo with tones := first.tones ++ (next first.tempo).tones } := by
  simp only [andThen, complete]

theorem andThen_of_fault_eq_some {first : Rendition} {fault : Fault}
    (broken : first.fault = some fault) (next : UInt32 → Rendition)
    : first.andThen next = first := by
  simp only [andThen, broken]

end Rendition

/-- The kinds of fault that can cut off a rendition. -/
def FaultKind.CutsOff (kind : FaultKind) : Prop :=
  kind = .outOfRangeTone ∨ kind = .stackOverflow

/-- A tone is cut off only if it is out of range. -/
theorem Rendition.sound_fault (range : ToneRange) (index : Nat) (tempo hertz : UInt32)
    (length : Length)
    : ∀ fault ∈ (sound range index tempo hertz length).fault, fault.cause.kind.CutsOff := by
  unfold sound
  split
  · simp [cutOff, FaultCause.kind, FaultKind.CutsOff]
  · split <;> simp [cutOff, FaultCause.kind, FaultKind.CutsOff]

theorem Action.rendition_fault (range : ToneRange) (index : Nat) (tempo : UInt32)
    (action : Action)
    : ∀ fault ∈ (action.rendition range index tempo).fault, fault.cause.kind.CutsOff := by
  cases action with
  | note hertz length =>
      simp only [Action.rendition]
      split
      · exact Rendition.sound_fault range index tempo hertz length
      · simp [cutOff, FaultCause.kind, FaultKind.CutsOff]
  | rest length => exact Rendition.sound_fault range index tempo 0 length
  | tempo beats | breakpoint => simp [Action.rendition, silent]

/-- A score is cut off only by a tone out of range or a full stack, by induction on the score. -/
theorem Score.rendition_fault (range : ToneRange) (maxDepth : Nat) (score : Score)
    (start depth : Nat) (tempo : UInt32)
    : ∀ fault ∈ (score.rendition range maxDepth start depth tempo).fault,
        fault.cause.kind.CutsOff := by
  induction score generalizing start depth tempo with
  | nil => simp [Score.rendition, silent]
  | act action next ih =>
      exact Rendition.andThen_fault (action.rendition_fault range start tempo)
        (ih (start + 1) depth)
  | loop count body next bodyIH nextIH =>
      refine Rendition.andThen_fault ?_ (nextIH (start + body.size + 2) depth)
      split
      · simp [silent]
      · split
        · exact Rendition.times_fault (bodyIH (start + 1) (depth + 1)) count.toNat tempo
        · simp [cutOff, FaultCause.kind, FaultKind.CutsOff]

end Chiptune
