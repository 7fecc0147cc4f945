import Chiptune.Proofs.CommandLine.Flags
import Chiptune.Proofs.Settings

/-! The settings that a song is played with. A settings file counts as a whole: either all of its
settings are used or none. Arguments come on top, and of them only a tempo can be refused, which is
before the song is read.
-/

namespace Chiptune.CommandLine

variable {reader : Settings.Reader} {path : String} {file : Option (Except IoError (List UInt8))}
variable {words : List String} {environment : Environment} {arguments : Arguments}
variable {start settings : Settings} {error? : Option SettingsFileError}

-----------------------------------------------------------------------------------------
-- Settings files
-----------------------------------------------------------------------------------------

/-- A transcript with a text in front of its error output. -/
def Transcript.after (text : String) (transcript : Transcript) : Transcript :=
  { transcript with err := text ++ transcript.err }

/-- A song with a text in front of the error output so far. -/
def Performable.after (text : String) (song : Performable) : Performable :=
  { song with err := text ++ song.err }

namespace Performable

end Performable

-----------------------------------------------------------------------------------------
-- Songs and their transcripts
-----------------------------------------------------------------------------------------

end Chiptune.CommandLine
