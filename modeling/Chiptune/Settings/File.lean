import Chiptune.Settings
import Chiptune.Text.Blank
import Chiptune.Text.Utf8
import Chiptune.Yaml.Value

/-! Settings files. A file names the settings that differ from the defaults, by their names or by
their order. Names that are no settings are passed over, and so are their values.
-/

namespace Chiptune

/-- Why a settings file is of no use. -/
inductive SettingsFileError where
  | unreadable (path : String) (error : IoError)
  /-- The text does not describe settings. -/
  | malformed (path : String)
  | unusable (error : SettingError)

namespace SettingsFileError

/-- The wording of an error. -/
def describe : SettingsFileError → String
  | .unreadable path error => s!"cannot read {path}: {error.describe}"
  | .malformed path => s!"invalid config {path}: not a description of settings"
  | .unusable error => s!"invalid setting: {error.describe}"

end SettingsFileError

namespace Settings

/-- The settings that a file can name. -/
inductive Key where
  | device
  | tempo
  | maxDepth
  | display
  | volume
  | sampleRate
deriving DecidableEq

namespace Key

/-- All keys in their order. -/
def all : List Key :=
  [.device, .tempo, .maxDepth, .display, .volume, .sampleRate]

/-- The name of a key in a file. -/
def spelling : Key → String
  | .device => "device"
  | .tempo => "tempo"
  | .maxDepth => "max_depth"
  | .display => "display"
  | .volume => "volume"
  | .sampleRate => "sample_rate"

/-- The key with a name. -/
def ofText? (text : List Char) : Option Key :=
  all.find? (·.spelling.toList = text)

end Key

/-- The settings with one of them read from a scalar; none if it is of the wrong type. -/
def set? (settings : Settings) (key : Key) (scalar : Yaml.Scalar) : Option Settings :=
  let word? : Option UInt32 := (scalar.toNat? UInt32.size).map UInt32.ofNat
  match key with
  | .device => some { settings with device := String.ofList scalar.text }
  | .tempo => word?.map fun tempo => { settings with tempo }
  | .maxDepth => (scalar.toNat? UInt64.size).map fun maxDepth => { settings with maxDepth }
  | .display => scalar.toBool?.map fun display => { settings with display }
  | .volume => scalar.toFloat?.map fun volume => { settings with volume := volume.toFloat32 }
  | .sampleRate => word?.map fun sampleRate => { settings with sampleRate }

/-- The settings with one of them read from a node, which has to be a scalar. -/
def setNode? (settings : Settings) (document : Yaml.Document) (key : Key) (node : Yaml.Node)
    : Option Settings :=
  (document.scalar? node).bind (settings.set? key)

/-- The settings with those of a mapping, each of which may be named once. -/
def setEntries? (settings : Settings) (document : Yaml.Document) (seen : List Key)
    : List (Yaml.Node × Yaml.Node) → Option Settings
  | [] => some settings
  | (name, value) :: entries => do
    let name ← document.scalar? name
    match Key.ofText? name.text with
    | none => settings.setEntries? document seen entries
    | some key =>
      if seen.contains key then none
      else (← settings.setNode? document key value).setEntries? document (key :: seen) entries

/-- The settings with those of a sequence, which gives them in their order. -/
def setItems? (settings : Settings) (document : Yaml.Document)
    : (keys : List Key) → List Yaml.Node → Option Settings
  | _, [] => some settings
  | [], _ :: _ => none
  | key :: keys, item :: items => do
    (← settings.setNode? document key item).setItems? document keys items

/-- The settings that a document describes; what it does not name has its default. A document
without any content names nothing.
-/
def ofDocument? (document : Yaml.Document) : Option Settings :=
  let defaults : Settings := {}
  match document.root with
  | none => some defaults
  | some (.mapping entries) => defaults.setEntries? document [] entries
  | some (.sequence items) => defaults.setItems? document Key.all items
  | some (.scalar scalar) => if scalar.isAbsent then some defaults else none
  | some (.alias _) => none

/-- A reader of settings: the settings that a text describes, if it describes any. -/
abbrev Reader := List Char → Option Settings

/-- The settings that a text describes as a YAML document. -/
def ofYaml? : Reader := fun text =>
  (Yaml.Document.parse? text).bind ofDocument?

/-- The settings that a text describes to a reader. White space describes the defaults. -/
def parse? (reader : Reader) (text : List Char) : Option Settings :=
  if text.all isWhiteSpace then some {} else reader text

/-- The settings that the file at `path` with this content describes to a reader, or why it is of no
use.
-/
def loadBy (reader : Reader) (path : String) (content : Except IoError (List UInt8))
    : Except SettingsFileError Settings :=
  match content with
  | .error error => .error (.unreadable path error)
  | .ok bytes =>
    match Utf8.decode? bytes with
    | none => .error (.unreadable path .notUtf8)
    | some text =>
      match parse? reader text with
      | none => .error (.malformed path)
      | some settings =>
        match settings.problem? with
        | some error => .error (.unusable error)
        | none => .ok settings

/-- The settings of the file at `path` with this content, or why it is of no use. -/
def load (path : String) (content : Except IoError (List UInt8))
    : Except SettingsFileError Settings :=
  loadBy ofYaml? path content

end Settings

end Chiptune
