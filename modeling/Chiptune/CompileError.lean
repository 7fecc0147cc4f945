import Chiptune.Arithmetic
import Chiptune.Token
import Chiptune.Text.Hex

/-! Why a text is not a song. An error is a cause and the place of the token at fault; its kind
and its wording follow from the cause.
-/

namespace Chiptune

/-- The highest tempo that a song can ask for. -/
def maxTempo : Nat := 1000

/-- The four kinds of compile error. -/
inductive CompileErrorKind where
  | unexpectedToken
  | invalidPitch
  | invalidDuration
  | unterminatedDirective
deriving DecidableEq

/-- How a message names a kind of compile error. -/
def CompileErrorKind.describe : CompileErrorKind → String
  | .unexpectedToken => "unexpected token"
  | .invalidPitch => "invalid pitch"
  | .invalidDuration => "invalid duration"
  | .unterminatedDirective => "unterminated directive"

/-- Why a text is not a song. -/
inductive CompileErrorCause where
  /-- A byte that belongs to no token. -/
  | strayByte (byte : UInt8)
  /-- A word that starts no statement. -/
  | strayWord (word : String)
  /-- A word that begins like a pitch and names none. -/
  | unknownPitch (word : String)
  /-- A frequency of more than 32 bits. -/
  | frequencyTooLarge (digits : String)
  | zeroFrequency
  /-- A tempo that is zero or above `maxTempo`. -/
  | tempoOutOfRange (digits : String)
  /-- The line ends where the length of `subject` should stand. -/
  | missingLength (subject : String)
  | unknownLength (word : String)
  /-- The line ends where the argument of a directive should stand. -/
  | missingArgument (directive : Keyword)
  | numberExpected (directive : Keyword) (found : TokenKind)
  | labelExpected (directive : Keyword) (found : TokenKind)
  | labelRedefined (name : String)
  | labelUndefined (name : String)
  | closeWithoutOpen
  | openWithoutClose
deriving DecidableEq

namespace CompileErrorCause

/-- The kind that a cause belongs to. -/
def kind : CompileErrorCause → CompileErrorKind
  | .strayByte _ | .strayWord _ | .numberExpected .. | .labelExpected .. | .labelRedefined _
  | .closeWithoutOpen => .unexpectedToken
  | .unknownPitch _ | .frequencyTooLarge _ | .zeroFrequency => .invalidPitch
  | .tempoOutOfRange _ | .missingLength _ | .unknownLength _ => .invalidDuration
  | .missingArgument _ | .labelUndefined _ | .openWithoutClose => .unterminatedDirective

/-- The wording of a cause. -/
def message : CompileErrorCause → String
  | .strayByte byte => "unexpected byte 0x" ++ String.ofList (Hex.digits 2 byte.toNat)
  | .strayWord word => s!"unexpected '{word}'"
  | .unknownPitch word => s!"invalid note '{word}'"
  | .frequencyTooLarge digits => s!"frequency {digits} Hz too large"
  | .zeroFrequency => "frequency must be above 0 Hz"
  | .tempoOutOfRange digits => s!"tempo {digits} outside 1..={maxTempo}"
  | .missingLength subject => s!"missing length after {subject}"
  | .unknownLength word => s!"invalid length {word}"
  | .missingArgument directive => s!"{directive.spelling} needs an argument on the same line"
  | .numberExpected directive found =>
    s!"expected number after {directive.spelling}, got {found.describe}"
  | .labelExpected directive found =>
    s!"expected label name after {directive.spelling}, got {found.describe}"
  | .labelRedefined name => s!"label '{name}' defined twice"
  | .labelUndefined name => s!"undefined label '{name}'"
  | .closeWithoutOpen => "END without REPEAT"
  | .openWithoutClose => "REPEAT without END"

end CompileErrorCause

/-- A compile error: its cause, and the place of the token at fault. -/
structure CompileError where
  cause : CompileErrorCause
  position : Position
deriving DecidableEq

/-- Why compiling a text leads to no program. -/
inductive CompileFailure where
  /-- The text is not a song. -/
  | rejected (error : CompileError)
  /-- The compiler has come to an operation without a result. -/
  | trapped (trap : Trap)
deriving DecidableEq

/-- The failure of a text that is not a song. -/
def reject (cause : CompileErrorCause) (position : Position) : Except CompileFailure α :=
  .error (.rejected ⟨cause, position⟩)

/-- What a reader is told about a compile error. -/
structure Diagnostic where
  kind : CompileErrorKind
  message : String
  position : Position
deriving DecidableEq

/-- The diagnostic of a compile error. -/
def CompileError.diagnostic (error : CompileError) : Diagnostic :=
  ⟨error.cause.kind, error.cause.message, error.position⟩

/-- The one-line form of a diagnostic. -/
def Diagnostic.describe (diagnostic : Diagnostic) : String :=
  let place := diagnostic.position
  s!"[{place.line}:{place.column}] {diagnostic.kind.describe}: {diagnostic.message} " ++
    s!"(offset {place.offset})"

end Chiptune
