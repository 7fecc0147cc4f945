/-! The arguments of the command line. They are options, long or short ones, some with a value;
short ones without a value can be written together.
-/

namespace Chiptune

/-- The options of the command line. -/
inductive CommandOption where
  | filename
  | device
  | quiet
  | display
  | decompile
  | debug
  | tempo
  | audio
  | wav
  | dryRun
  | help
  | version
deriving DecidableEq

namespace CommandOption

/-- All options. -/
def all : List CommandOption :=
  [ .filename, .device, .quiet, .display, .decompile, .debug, .tempo, .audio, .wav, .dryRun,
    .help, .version ]

/-- The name of an option after two dashes. -/
def long : CommandOption → String
  | .filename => "filename"
  | .device => "device"
  | .quiet => "quiet"
  | .display => "display"
  | .decompile => "decompile"
  | .debug => "debug"
  | .tempo => "tempo"
  | .audio => "audio"
  | .wav => "wav"
  | .dryRun => "dry-run"
  | .help => "help"
  | .version => "version"

/-- The letter of an option after one dash. -/
def letter? : CommandOption → Option Char
  | .filename => some 'f'
  | .device => some 'e'
  | .quiet => some 'q'
  | .display => some 's'
  | .decompile => some 'd'
  | .tempo => some 't'
  | .help => some 'h'
  | .version => some 'V'
  | _ => none

/-- What an option is good for. -/
def purpose : CommandOption → String
  | .filename => "Song file to play (default: stdin)"
  | .device => "Speaker event device"
  | .quiet => "Compile only, do not play"
  | .display => "Show a progress line while playing"
  | .decompile => "Print the compiled program as canonical notation"
  | .debug => "Step through the program interactively"
  | .tempo => "Starting tempo in beats per minute"
  | .audio => "Play through the sound card instead of the speaker"
  | .wav => "Render to a WAV file instead of the speaker"
  | .dryRun => "List the tones instead of playing them"
  | .help => "Print help"
  | .version => "Print version"

/-- Whether an option has a value. -/
def hasValue : CommandOption → Bool
  | .filename => true
  | .device => true
  | .tempo => true
  | .wav => true
  | _ => false

/-- The option with a name. -/
def ofLong? (name : List Char) : Option CommandOption :=
  all.find? (·.long.toList = name)

/-- The option with a letter. -/
def ofLetter? (letter : Char) : Option CommandOption :=
  all.find? (·.letter? = some letter)

end CommandOption

/-- Why arguments are refused. -/
inductive UsageError where
  | unexpected (word : String)
  | missingValue (option : CommandOption)
  | unneededValue (option : CommandOption) (value : String)
  | badValue (option : CommandOption) (value : String)
  | repeated (option : CommandOption)
  | conflict (first second : CommandOption)
deriving DecidableEq

/-- An option as users write it, in quotes. -/
def CommandOption.quoted (option : CommandOption) : String :=
  "\x27--" ++ option.long ++ "\x27"

/-- A word of the command line in quotes. -/
def quotedWord (word : String) : String :=
  "\x27" ++ word ++ "\x27"

/-- The wording of a usage error. -/
def UsageError.describe : UsageError → String
  | .unexpected word => s!"error: unexpected argument {quotedWord word} found"
  | .missingValue option => s!"error: a value is required for {option.quoted}"
  | .unneededValue option value =>
    s!"error: unexpected value {quotedWord value} for {option.quoted} found"
  | .badValue option value => s!"error: invalid value {quotedWord value} for {option.quoted}"
  | .repeated option => s!"error: the argument {option.quoted} cannot be used multiple times"
  | .conflict first second =>
    s!"error: the argument {first.quoted} cannot be used with {second.quoted}"

/-- What the user asks for. -/
structure Arguments where
  filename : Option String := none
  device : Option String := none
  quiet : Bool := false
  display : Bool := false
  decompile : Bool := false
  debug : Bool := false
  tempo : Option UInt32 := none
  audio : Bool := false
  wav : Option String := none
  dryRun : Bool := false
deriving DecidableEq

/-- What the program is to do. -/
inductive Request where
  | run (arguments : Arguments)
  | help
  | version
deriving DecidableEq

namespace Arguments

/-- An option as it occurs, with its value if it has one. -/
structure Occurrence where
  option : CommandOption
  value : String := ""
deriving DecidableEq

/-- Options in one word: those that are complete, the one that has its value in the next word, and
what is wrong after them.
-/
structure Word where
  complete : List Occurrence := []
  pending : Option CommandOption := none
  error : Option UsageError := none

/-- The options in the word of a long option, which may have its value after an equals sign. -/
def longWord (text : List Char) : Word :=
  let (name, rest) := text.span (· ≠ '=')
  match CommandOption.ofLong? name with
  | none => { error := some (.unexpected (String.ofList ('-' :: '-' :: text))) }
  | some option =>
    let value := String.ofList (rest.drop 1)
    match option.hasValue, rest.isEmpty with
    | true, true => { pending := some option }
    | true, false => { complete := [⟨option, value⟩] }
    | false, true => { complete := [⟨option, ""⟩] }
    | false, false => { error := some (.unneededValue option value) }

/-- The options in a word of short options. The first one that has a value takes the rest of the
word for it, without an equals sign in front.
-/
def shortWord : List Char → Word
  | [] => {}
  | letter :: rest =>
    match CommandOption.ofLetter? letter with
    | none => { error := some (.unexpected (String.ofList ['-', letter])) }
    | some option =>
      if option.hasValue then
        if rest.isEmpty then { pending := some option }
        else
          let value := if rest.head? = some '=' then rest.drop 1 else rest
          { complete := [⟨option, String.ofList value⟩] }
      else
        let more := shortWord rest
        { more with complete := ⟨option, ""⟩ :: more.complete }

/-- The options in a word; every other word is unexpected. -/
def word (text : String) : Word :=
  match text.toList with
  | '-' :: '-' :: name => longWord name
  | '-' :: letter :: letters => shortWord (letter :: letters)
  | _ => { error := some (.unexpected text) }

/-- Whether a word may be the value of the option before it. -/
def isValue (text : String) : Bool :=
  match text.toList with
  | '-' :: _ :: _ => false
  | _ => true

/-- The options in a list of words, up to the first mistake. -/
def occurrences : List String → List Occurrence × Option UsageError
  | [] => ([], none)
  | "--" :: rest => ([], rest.head?.map .unexpected)
  | text :: rest =>
    let word := word text
    match word.error, word.pending with
    | some error, _ => (word.complete, some error)
    | none, none =>
      let (more, error) := occurrences rest
      (word.complete ++ more, error)
    | none, some option =>
      match rest with
      | [] => (word.complete, some (.missingValue option))
      | value :: rest =>
        if isValue value then
          let (more, error) := occurrences rest
          (word.complete ++ ⟨option, value⟩ :: more, error)
        else (word.complete, some (.missingValue option))

/-- A tempo as an argument: a number of 32 bits, which may have a sign. -/
def tempo? (text : String) : Option UInt32 :=
  let (isNegative, digits) :=
    match text.toList with
    | '-' :: rest => (true, rest)
    | '+' :: rest => (false, rest)
    | rest => (false, rest)
  if digits.isEmpty || !digits.all Char.isDigit then none
  else
    let value := Nat.ofDigitChars 10 digits 0
    if value < UInt32.size && (!isNegative || value = 0) then some (UInt32.ofNat value) else none

/-- The arguments with one more option that asks to run; a path must not be empty. -/
def set (arguments : Arguments) (occurrence : Occurrence) : Except UsageError Arguments :=
  let value := occurrence.value
  let path (set : Arguments) : Except UsageError Arguments :=
    if value.isEmpty then .error (.badValue occurrence.option value) else .ok set
  match occurrence.option with
  | .filename => path { arguments with filename := some value }
  | .device => path { arguments with device := some value }
  | .wav => path { arguments with wav := some value }
  | .tempo =>
    match tempo? value with
    | some tempo => .ok { arguments with tempo := some tempo }
    | none => .error (.badValue .tempo value)
  | .quiet => .ok { arguments with quiet := true }
  | .display => .ok { arguments with display := true }
  | .decompile => .ok { arguments with decompile := true }
  | .debug => .ok { arguments with debug := true }
  | .audio => .ok { arguments with audio := true }
  | .dryRun => .ok { arguments with dryRun := true }
  | .help => .ok arguments
  | .version => .ok arguments

/-- The outputs exclude one another. -/
def conflict? (arguments : Arguments) : Option UsageError :=
  if arguments.audio && arguments.wav.isSome then some (.conflict .audio .wav)
  else if arguments.audio && arguments.dryRun then some (.conflict .audio .dryRun)
  else if arguments.wav.isSome && arguments.dryRun then some (.conflict .wav .dryRun)
  else none

/-- What options ask for, after those in `seen`. The first option that asks for a text, or is
mistaken, decides; `error` is what is wrong after the options.
-/
def request (arguments : Arguments) (seen : List CommandOption) (error : Option UsageError)
    : List Occurrence → Except UsageError Request
  | [] =>
    match error, arguments.conflict? with
    | some error, _ => .error error
    | none, some conflict => .error conflict
    | none, none => .ok (.run arguments)
  | occurrence :: rest =>
    let option := occurrence.option
    if option = .help then .ok .help
    else if option = .version then .ok .version
    else
      match arguments.set occurrence with
      | .error error => .error error
      | .ok longer =>
        if seen.contains option then .error (.repeated option)
        else longer.request (option :: seen) error rest

/-- What the words of a command line ask for. -/
def parse (words : List String) : Except UsageError Request :=
  let (options, error) := occurrences words
  ({} : Arguments).request [] error options

end Arguments

end Chiptune
