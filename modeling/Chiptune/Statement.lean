import Chiptune.Length
import Chiptune.Pitch
import Chiptune.Token.Scan

/-! The statements of song notation. A statement is one token, or one token and its argument,
which is the next token of the same line.
-/

namespace Chiptune

/-- A statement of a song. -/
inductive Statement where
  | note (frequency : UInt32) (length : Length)
  | rest (length : Length)
  | tempo (beats : UInt32)
  | repeatOpen (count : UInt32)
  | repeatClose
  | label (name : String)
  | jump (name : String)
  | call (name : String)
  | comeBack
  | breakpoint
deriving DecidableEq

namespace Statement

/-- Whether a statement has an argument. -/
def hasArgument : Statement → Bool
  | .repeatClose => false
  | .comeBack => false
  | .breakpoint => false
  | _ => true

/-- Whether a word can name a label: a letter or underscore, then letters, digits, underscores
and hyphens.
-/
def isLabelName (word : String) : Bool :=
  match word.toList with
  | [] => false
  | first :: others =>
    (first.isAlpha || first == '_') && others.all fun c => c.isAlphanum || c == '_' || c == '-'

/-- The text of a token as a length, for reading it and for naming it in a message. -/
def lengthText : TokenKind → String
  | .word text => text
  | other => other.describe

/-- The length that `argument` stands for; `subject` is what the length is for. -/
def lengthOf (subject : String) (position : Position) (argument : Option Token)
    : Except CompileFailure Length :=
  match argument with
  | none => reject (.missingLength subject) position
  | some token =>
    let text := lengthText token.kind
    match Length.parse? text with
    | .error trap => .error (.trapped trap)
    | .ok none => reject (.unknownLength text) token.position
    | .ok (some length) => .ok length

/-- The number that `argument` stands for; digits that no 32 bits hold are no tempo. -/
def numberOf (directive : Keyword) (position : Position) (argument : Option Token)
    : Except CompileFailure UInt32 :=
  match argument with
  | none => reject (.missingArgument directive) position
  | some ⟨.number value, _⟩ => .ok value
  | some ⟨.word text, place⟩ =>
    if Ascii.isDigits text.toList && directive = .tempo then
      reject (.tempoOutOfRange text) place
    else reject (.numberExpected directive (.word text)) place
  | some ⟨found, place⟩ => reject (.numberExpected directive found) place

/-- The name of a label that `argument` stands for. -/
def labelOf (directive : Keyword) (position : Position) (argument : Option Token)
    : Except CompileFailure String :=
  match argument with
  | none => reject (.missingArgument directive) position
  | some ⟨.word text, place⟩ =>
    if isLabelName text then .ok text
    else reject (.labelExpected directive (.word text)) place
  | some ⟨found, place⟩ => reject (.labelExpected directive found) place

/-- Why a word that names no pitch starts no statement. -/
def strayCause (word : String) : CompileErrorCause :=
  if Ascii.isDigits word.toList then .frequencyTooLarge word
  else if Pitch.looksLikeName word then .unknownPitch word
  else .strayWord word

/-- A note of the given frequency, which may not be zero. -/
def noteOf (frequency : UInt32) (subject : String) (position : Position)
    (argument : Option Token)
    : Except CompileFailure Statement :=
  if frequency = 0 then reject .zeroFrequency position
  else (lengthOf subject position argument).map (.note frequency ·)

/-- The statement of a directive, a reserved word at `position`. -/
def ofDirective (directive : Keyword) (position : Position) (argument : Option Token)
    : Except CompileFailure Statement :=
  match directive with
  | .tempo =>
    match numberOf directive position argument with
    | .error failure => .error failure
    | .ok beats =>
      if beats = 0 || maxTempo < beats.toNat then
        reject (.tempoOutOfRange (toString beats)) position
      else .ok (.tempo beats)
  | .rest => (lengthOf directive.spelling position argument).map .rest
  | .repeatOpen => (numberOf directive position argument).map .repeatOpen
  | .repeatClose => .ok .repeatClose
  | .label => (labelOf directive position argument).map .label
  | .jump => (labelOf directive position argument).map .jump
  | .call => (labelOf directive position argument).map .call
  | .comeBack => .ok .comeBack
  | .breakpoint => .ok .breakpoint

/-- The statement that starts with `head`, given the next token if it stands on the same line.
The end of a line or of the input starts none.
-/
def ofTokens? (head : Token) (argument : Option Token)
    : Except CompileFailure (Option Statement) :=
  match head.kind with
  | .keyword directive => (ofDirective directive head.position argument).map some
  | .number frequency =>
    (noteOf frequency (toString frequency) head.position argument).map some
  | .word text =>
    match Pitch.parse? text with
    | .error trap => .error (.trapped trap)
    | .ok none => reject (strayCause text) head.position
    | .ok (some frequency) => (noteOf frequency text head.position argument).map some
  | .newline => .ok none
  | .endOfInput => .ok none

/-- The next token if it stands on the same line. -/
def argumentOf : List Token → Option Token
  | [] => none
  | token :: _ => if token.kind.endsLine then none else some token

end Statement

end Chiptune
