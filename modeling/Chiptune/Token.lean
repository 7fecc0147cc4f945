import Chiptune.Keyword
import Chiptune.Position

/-! The tokens of song notation. Line breaks are tokens, because the argument of a directive has
to stand on the directive's line.
-/

namespace Chiptune

/-- What a token is. -/
inductive TokenKind where
  | keyword (reserved : Keyword)
  /-- A run of digits whose value fits in 32 bits. -/
  | number (value : UInt32)
  /-- Any other word: a note, a length or the name of a label. -/
  | word (text : String)
  | newline
  | endOfInput
deriving DecidableEq

/-- A token and the place of its first byte. -/
structure Token where
  kind : TokenKind
  position : Position
deriving DecidableEq

namespace TokenKind

/-- The kind of the token that `word` forms: a reserved word, else a number, else a word. -/
def ofWord (word : String) : TokenKind :=
  match Keyword.ofWord? word with
  | some reserved => .keyword reserved
  | none =>
    match Ascii.number? UInt32.size word.toList with
    | some value => .number (UInt32.ofNat value)
    | none => .word word

/-- How a message names a token. -/
def describe : TokenKind → String
  | .keyword reserved => reserved.spelling
  | .number value => toString value
  | .word text => s!"'{text}'"
  | .newline => "end of line"
  | .endOfInput => "end of input"

/-- Whether no argument can follow on the same line. -/
def endsLine : TokenKind → Bool
  | .newline => true
  | .endOfInput => true
  | _ => false

end TokenKind

end Chiptune
