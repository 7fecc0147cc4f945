import Chiptune.ToneSink

/-! An output that records every request and plays none. It can be told to refuse: then it takes
a given number of tones and refuses each one after them, but never a request for silence.
-/

namespace Chiptune

/-- The requests recorded so far. -/
structure Recorder where
  tones : Array Tone := #[]
  range : ToneRange := .pcSpeaker
  /-- How many tones are taken before all others are refused. -/
  failAt : Option Nat := none
deriving DecidableEq

namespace Recorder

/-- The recorded requests that are not demands for silence. -/
def played (recorder : Recorder) : List Tone :=
  recorder.tones.toList.filter (· ≠ .stop)

/-- The sum of all recorded durations. -/
def totalMillis (recorder : Recorder) : Nat :=
  Tone.totalMillis recorder.tones.toList

/-- The recorder with one more request. -/
def record (recorder : Recorder) (tone : Tone) : Recorder :=
  { recorder with tones := recorder.tones.push tone }

theorem played_record_stop (recorder : Recorder)
    : (recorder.record .stop).played = recorder.played := by
  simp [played, record]

theorem played_record (recorder : Recorder) {tone : Tone} (sounds : tone ≠ .stop)
    : (recorder.record tone).played = recorder.played ++ [tone] := by
  simp [played, record, sounds]

/-- The recorder without any request. -/
def clear (recorder : Recorder) : Recorder :=
  { recorder with tones := #[] }

/-- Why a request is refused, if it is. -/
def refusal? (recorder : Recorder) (tone : Tone) : Option SinkError :=
  match recorder.failAt with
  | none => none
  | some limit =>
    if tone ≠ .stop && recorder.played.length = limit then some (.injected limit) else none

/-- Records a request, unless it is to be refused. -/
def emit (recorder : Recorder) (tone : Tone) : Recorder × Option SinkError :=
  match recorder.refusal? tone with
  | none => (recorder.record tone, none)
  | some error => (recorder, some error)

instance : ToneSink Recorder where
  range := range
  emit := emit
  silence recorder := recorder.record .stop

/-- Recording changes the tones alone. -/
instance : ToneSink.HasFixedRange Recorder where
  range_emit recorder tone := by
    simp only [ToneSink.range, ToneSink.emit, emit]
    split <;> rfl

end Recorder

end Chiptune
