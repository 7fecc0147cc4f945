/-! A square wave as a stream of samples. The phase runs through the unit interval once per
period and is carried from tone to tone, so that tones join without a jump.
-/

namespace Chiptune

/-- The three levels of a square wave. -/
inductive Level where
  | silent
  | high
  | low
deriving DecidableEq

/-- A square wave at some phase. -/
structure SquareWave where
  /-- Samples per second. -/
  rate : UInt32
  /-- The part of the current period that has passed. -/
  phase : Float := 0

namespace SquareWave

/-- The next sample of a frequency, and the wave after it. Without a frequency or a rate there is
silence, and the next tone starts a period anew.
-/
def next (wave : SquareWave) (hertz : UInt32) : Level × SquareWave :=
  if hertz = 0 || wave.rate = 0 then (.silent, { wave with phase := 0 })
  else
    let level := if wave.phase < 0.5 then Level.high else .low
    let moved := wave.phase + hertz.toFloat / wave.rate.toFloat
    (level, { wave with phase := moved - moved.floor })

/-- The next `count` samples of a frequency put after `levels`, and the wave after them. -/
def render (wave : SquareWave) (hertz : UInt32) (count : Nat) (levels : Array Level)
    : Array Level × SquareWave :=
  match count with
  | 0 => (levels, wave)
  | count + 1 =>
    let (level, later) := wave.next hertz
    later.render hertz count (levels.push level)

/-- The number of whole samples in a duration. -/
def samplesIn (wave : SquareWave) (millis : UInt32) : Nat :=
  millis.toNat * wave.rate.toNat / 1000

theorem rate_next (wave : SquareWave) (hertz : UInt32) : (wave.next hertz).2.rate = wave.rate := by
  rw [next]
  split <;> rfl

/-- Sampling does not change how often samples are taken. -/
theorem rate_render (wave : SquareWave) (hertz : UInt32) (count : Nat) (levels : Array Level)
    : (wave.render hertz count levels).2.rate = wave.rate := by
  induction count generalizing wave levels with
  | zero => rfl
  | succ count ih =>
      rw [render]
      exact (ih ..).trans (wave.rate_next hertz)

end SquareWave

/-- An amplitude brought into the interval from zero to one; what is no number stays as it is. -/
def clampAmplitude (amplitude : Float32) : Float32 :=
  if amplitude < 0 then 0 else if 1 < amplitude then 1 else amplitude

/-- The sample of a level in a wave of the given amplitude. -/
def Level.sample (amplitude : Float32) : Level → Float32
  | .silent => 0
  | .high => amplitude
  | .low => -amplitude

end Chiptune
