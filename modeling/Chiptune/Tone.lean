/-! Tones, and the range of tones that an output can play. -/

namespace Chiptune

/-- A request to an output: a frequency in hertz, zero for silence, and how long it lasts. -/
structure Tone where
  frequency : UInt32
  millis : UInt32
deriving DecidableEq

/-- The request to fall silent at once. -/
def Tone.stop : Tone := ⟨0, 0⟩

/-- The sum of the durations of tones. -/
def Tone.totalMillis (tones : List Tone) : Nat :=
  tones.foldl (fun total tone => total + tone.millis.toNat) 0

/-- The lowest and highest frequency and the longest duration that an output can play. Silence
can always be played.
-/
structure ToneRange where
  minHertz : UInt32
  maxHertz : UInt32
  maxMillis : UInt32
deriving DecidableEq

namespace ToneRange

/-- The range of a PC speaker. -/
def pcSpeaker : ToneRange := ⟨21, 32766, 60000⟩

/-- Whether a frequency lies in the range. -/
def acceptsFrequency (range : ToneRange) (hertz : UInt32) : Bool :=
  range.minHertz ≤ hertz && hertz ≤ range.maxHertz

/-- Whether a tone can be held for a duration. -/
def acceptsDuration (range : ToneRange) (millis : UInt32) : Bool :=
  millis ≤ range.maxMillis

theorem acceptsFrequency_iff {range : ToneRange} {hertz : UInt32}
    : range.acceptsFrequency hertz ↔ range.minHertz ≤ hertz ∧ hertz ≤ range.maxHertz := by
  simp [acceptsFrequency]

theorem acceptsFrequency_eq_false_iff {range : ToneRange} {hertz : UInt32}
    : range.acceptsFrequency hertz = false ↔ hertz < range.minHertz ∨ range.maxHertz < hertz := by
  simp [acceptsFrequency, Classical.or_iff_not_imp_left]

end ToneRange

end Chiptune
