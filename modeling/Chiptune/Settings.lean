import Chiptune.CompileError
import Chiptune.Decimal.Layout
import Chiptune.Machine
import Chiptune.Output.Speaker
import Chiptune.Output.WaveFile
import Chiptune.Yaml.Print

/-! The settings of a player: their defaults, the limits that they have to keep, and their written
form.
-/

namespace Chiptune

/-- The settings of a player. -/
structure Settings where
  /-- The device file of the speaker. -/
  device : String := Speaker.defaultPath
  /-- The tempo of a song before it sets one. -/
  tempo : UInt32 := Machine.defaultTempo
  /-- How many frames the control stack may hold, at most. -/
  maxDepth : Nat := Machine.defaultMaxDepth
  /-- Whether progress is shown while a song is played. -/
  display : Bool := false
  /-- The amplitude of a sound card. -/
  volume : Float32 := 0.2
  /-- Samples per second of a wave file. -/
  sampleRate : UInt32 := WaveFile.defaultRate

/-- Why settings are not usable. -/
inductive SettingError where
  | tempo (beats : UInt32)
  | maxDepth
  | sampleRate (rate : UInt32)
  | volume (amplitude : Float32)

namespace Settings

/-- The lowest rate of a wave file. -/
def minSampleRate : UInt32 := 8000

/-- The least and greatest volume. -/
def volumeLimits : Float32 × Float32 := (0, 1)

/-- The first setting outside its limits, if there is one. A volume that is no number is outside of
them.
-/
def problem? (settings : Settings) : Option SettingError :=
  let (least, greatest) := volumeLimits
  if settings.tempo = 0 || maxTempo < settings.tempo.toNat then some (.tempo settings.tempo)
  else if settings.maxDepth = 0 then some .maxDepth
  else if settings.sampleRate < minSampleRate then some (.sampleRate settings.sampleRate)
  else if !(least ≤ settings.volume && settings.volume ≤ greatest) then
    some (.volume settings.volume)
  else none

/-- How a message shows a volume: all digits, without an exponent. -/
def volumeInMessage : DecimalLayout where
  undefined := "NaN"
  infinity := "inf"
  wholeEnd := ""
  tie := .upper
  isPositional _ := true

/-- How a settings file shows a volume: with a digit after the point, and with an exponent for
numbers that are very small or great.
-/
def volumeInFile : DecimalLayout where
  undefined := ".nan"
  infinity := ".inf"
  wholeEnd := ".0"
  tie := .even
  isPositional point := -6 < point && point ≤ 13

/-- The settings as a settings file. -/
def render (settings : Settings) : String :=
  let plain (text : String) : List Char := text.toList
  String.join
    [ Yaml.Print.entry "device" (Yaml.Print.text settings.device.toList),
      Yaml.Print.entry "tempo" (plain (toString settings.tempo)),
      Yaml.Print.entry "max_depth" (plain (toString settings.maxDepth)),
      Yaml.Print.entry "display" (plain (if settings.display then "true" else "false")),
      Yaml.Print.entry "volume" (plain (volumeInFile.render settings.volume)),
      Yaml.Print.entry "sample_rate" (plain (toString settings.sampleRate)) ]

end Settings

/-- The wording of a problem with settings. -/
def SettingError.describe : SettingError → String
  | .tempo beats => s!"tempo {beats} outside 1..={maxTempo}"
  | .maxDepth => "max_depth must be at least 1"
  | .sampleRate rate => s!"sample_rate {rate} below {Settings.minSampleRate}"
  | .volume amplitude =>
    s!"volume {Settings.volumeInMessage.render amplitude} outside 0.0..=1.0"

end Chiptune
