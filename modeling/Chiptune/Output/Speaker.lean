import Chiptune.ToneSink

/-! An output that sounds tones on a PC speaker, which is an event device. A tone is started by an
event with its frequency and stopped by an event with zero.
-/

namespace Chiptune

/-- What a device file turned out to be when it was opened. -/
structure Device where
  /-- The kinds of event that the device knows, one bit each, or why it does not tell. -/
  capabilities : Except IoError UInt32
  /-- Why the device takes no events, if it takes none. -/
  refusal : Option IoError := none

/-- Why a speaker cannot be used. -/
inductive SpeakerError where
  | cannotOpen (path : String) (error : IoError)
  | cannotQuery (path : String) (error : IoError)
  /-- The device knows no sound events. -/
  | noSound (path : String)
deriving DecidableEq

/-- The wording of a speaker's error. -/
def SpeakerError.describe : SpeakerError → String
  | .cannotOpen path error => s!"cannot open {path}: {error.describe}"
  | .cannotQuery path error => s!"cannot query capabilities of {path}: {error.describe}"
  | .noSound path => s!"device {path} does not support sound"

/-- A speaker and the values of the events written to it. -/
structure Speaker where
  events : Array UInt32 := #[]
  /-- Why the device takes no events, if it takes none. -/
  refusal : Option IoError := none
deriving DecidableEq

namespace Speaker

/-- The device file of the PC speaker. -/
def defaultPath : String := "/dev/input/by-path/platform-pcspkr-event-spkr"

/-- The number of the sound events among the kinds of event. -/
def soundEvent : Nat := 0x12

/-- The number of the tone among the sound events. -/
def toneCode : Nat := 0x02

/-- A speaker on the device found at `path`, which has to know sound events. -/
def start (path : String) (device : Except IoError Device) : Except SpeakerError Speaker :=
  match device with
  | .error error => .error (.cannotOpen path error)
  | .ok device =>
    match device.capabilities with
    | .error error => .error (.cannotQuery path error)
    | .ok bits =>
      if bits.toNat.testBit soundEvent then .ok { refusal := device.refusal }
      else .error (.noSound path)

/-- Writes one event. A frequency is written as a signed number of 32 bits. -/
def write (speaker : Speaker) (value : UInt32) : Speaker × Option SinkError :=
  if 0x80000000 ≤ value.toNat then (speaker, some (.frequencyTooLarge value))
  else
    match speaker.refusal with
    | some error => (speaker, some (.failed error))
    | none => ({ speaker with events := speaker.events.push value }, none)

/-- Starts a tone and stops it again, even one that lasts no time. Silence is one stop. -/
def emit (speaker : Speaker) (tone : Tone) : Speaker × Option SinkError :=
  match speaker.write tone.frequency with
  | (started, some error) => (started, some error)
  | (started, none) => if tone.frequency = 0 then (started, none) else started.write 0

instance : ToneSink Speaker where
  range _ := .pcSpeaker
  emit := emit
  silence speaker := (speaker.write 0).1

/-- The range of a speaker is that of every PC speaker. -/
instance : ToneSink.HasFixedRange Speaker where
  range_emit _ _ := rfl

/-- The bytes of `count` little-endian digits of a number. -/
def littleEndian (count value : Nat) : List UInt8 :=
  (List.range count).map fun place => UInt8.ofNat (value >>> (8 * place))

/-- The 24 bytes of an event: no time, the kind of event, the tone and its value. -/
def eventBytes (value : UInt32) : List UInt8 :=
  List.replicate 16 0 ++ littleEndian 2 soundEvent ++ littleEndian 2 toneCode
    ++ littleEndian 4 value.toNat

/-- All bytes written to the device. -/
def bytes (speaker : Speaker) : List UInt8 :=
  speaker.events.toList.flatMap eventBytes

end Speaker

end Chiptune
