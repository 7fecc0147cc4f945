import Chiptune.IoError
import Chiptune.Tone

/-! Outputs for tones. An output is a state that answers one request after another; time passes
in the output alone.
-/

namespace Chiptune

/-- Why an output refuses a request. -/
inductive SinkError where
  /-- A file or device could not be written. -/
  | failed (error : IoError)
  /-- The device rejected the request, for a reason of its own. -/
  | device (message : String)
  /-- The output was told to refuse the request with this number. -/
  | injected (index : Nat)
  /-- The frequency does not fit in the device's signed 32 bits. -/
  | frequencyTooLarge (hertz : UInt32)
  /-- The output was finished before. -/
  | closed
deriving DecidableEq

/-- The wording of a refusal. -/
def SinkError.describe : SinkError → String
  | .failed error => s!"I/O error: {error.describe}"
  | .device message => s!"device error: {message}"
  | .injected index => s!"device error: injected failure at emit {index}"
  | .frequencyTooLarge hertz => s!"device error: frequency {hertz} Hz too large"
  | .closed => "sink is closed"

/-- An output for tones with states of type `σ`. -/
class ToneSink (σ : Type) where
  /-- The tones that the output can play. -/
  range : σ → ToneRange
  /-- The state after a request, and why it was refused if it was. -/
  emit : σ → Tone → σ × Option SinkError
  /-- The state after a demand for silence, which comes from outside and is never refused. -/
  silence : σ → σ

/-- An output whose range no request changes. -/
class ToneSink.HasFixedRange (σ : Type) [ToneSink σ] : Prop where
  range_emit (sink : σ) (tone : Tone) : range (emit sink tone).1 = range sink

end Chiptune
