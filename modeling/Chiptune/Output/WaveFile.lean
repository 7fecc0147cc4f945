import Chiptune.SquareWave
import Chiptune.ToneSink

/-! An output that renders tones into a WAVE file of one channel with 16 bits per sample. Time is
virtual: a tone of some duration is as many samples as fit into it. The file is complete once it
is closed, or given up.
-/

namespace Chiptune

/-- A WAVE file while it is written, or afterwards. -/
structure WaveFile where
  wave : SquareWave
  samples : Array Level := #[]
  isClosed : Bool := false
  /-- Why the storage under the file takes no data, if it takes none. -/
  refusal : Option IoError := none

namespace WaveFile

/-- The rate of a rendering where no other one is asked for. -/
def defaultRate : UInt32 := 44100

/-- The greatest sample: a quarter of the greatest 16-bit number, without its fraction. -/
def peak : Nat := 32767 / 4

/-- Bytes in front of the samples. -/
def headerSize : Nat := 44

/-- Bytes that are held back before they reach the storage. -/
def bufferSize : Nat := 8192

/-- A new file of the given rate, or why none can be created; storage that refuses all data is
noticed only when the buffer is full.
-/
def create (storage : Except IoError (Option IoError)) (rate : UInt32)
    : Except SinkError WaveFile :=
  match storage with
  | .error error => .error (.failed error)
  | .ok refusal => .ok { wave := { rate }, refusal }

/-- The most samples that the file can take: no more than the buffer holds if the storage refuses
data.
-/
def room? (file : WaveFile) : Option (Nat × IoError) :=
  file.refusal.map fun error => ((bufferSize - headerSize) / 2 - file.samples.size, error)

/-- The file with `count` more samples of a frequency. -/
def extend (file : WaveFile) (hertz : UInt32) (count : Nat) : WaveFile :=
  let (samples, wave) := file.wave.render hertz count file.samples
  { file with samples, wave }

/-- Renders a tone. A closed file refuses every tone, but no demand for silence. -/
def emit (file : WaveFile) (tone : Tone) : WaveFile × Option SinkError :=
  if tone = .stop then (file, none)
  else if file.isClosed then (file, some .closed)
  else
    let count := file.wave.samplesIn tone.millis
    match file.room? with
    | some (room, error) =>
      if room < count then (file.extend tone.frequency room, some (.failed error))
      else (file.extend tone.frequency count, none)
    | none => (file.extend tone.frequency count, none)

/-- Completes the file. That fails if it is closed already, or if the storage refuses data. -/
def close (file : WaveFile) : WaveFile × Option SinkError :=
  if file.isClosed then (file, some .closed)
  else ({ file with isClosed := true }, file.refusal.map .failed)

/-- No frequency above half the rate can be rendered. -/
def range (file : WaveFile) : ToneRange :=
  let rate := if file.isClosed then defaultRate else file.wave.rate
  { ToneRange.pcSpeaker with maxHertz := min (rate / 2) ToneRange.pcSpeaker.maxHertz }

instance : ToneSink WaveFile where
  range := range
  emit := emit
  silence := id

/-- Two bytes, the lower one first. -/
def bytes16 (value : Nat) : List UInt8 :=
  [UInt8.ofNat value, UInt8.ofNat (value / 256)]

/-- Four bytes, the lowest one first. -/
def bytes32 (value : Nat) : List UInt8 :=
  bytes16 value ++ bytes16 (value / 65536)

/-- The bytes of a text in ASCII. -/
def asciiBytes (text : String) : List UInt8 :=
  text.toList.map fun c => UInt8.ofNat c.toNat

/-- The sample of a level as a signed number. -/
def amplitude : Level → Int
  | .silent => 0
  | .high => peak
  | .low => -peak

/-- The 16 bits of a sample, in two's complement. -/
def sampleBytes (level : Level) : List UInt8 :=
  bytes16 (amplitude level % 65536).toNat

/-- The bytes in front of the samples: what the file is, how its samples are laid out, and how
many bytes they take.
-/
def header (file : WaveFile) : List UInt8 :=
  let rate := file.wave.rate.toNat
  let dataSize := 2 * file.samples.size
  asciiBytes "RIFF" ++ bytes32 (headerSize - 8 + dataSize) ++ asciiBytes "WAVE"
    ++ asciiBytes "fmt " ++ bytes32 16 ++ bytes16 1 ++ bytes16 1 ++ bytes32 rate
    ++ bytes32 (2 * rate) ++ bytes16 2 ++ bytes16 16
    ++ asciiBytes "data" ++ bytes32 dataSize

/-- The content of the complete file. -/
def bytes (file : WaveFile) : List UInt8 :=
  file.header ++ file.samples.toList.flatMap sampleBytes

end WaveFile

end Chiptune
