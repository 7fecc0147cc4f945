import Chiptune.Text.Ascii

/-! The reserved words of song notation. Case does not matter when one is read. -/

namespace Chiptune

/-- A reserved word. -/
inductive Keyword where
  | tempo
  | rest
  | repeatOpen
  | repeatClose
  | label
  | jump
  | call
  | comeBack
  | breakpoint
deriving DecidableEq

namespace Keyword

/-- The capital spelling of a reserved word. -/
def spelling : Keyword → String
  | .tempo => "TEMPO"
  | .rest => "REST"
  | .repeatOpen => "REPEAT"
  | .repeatClose => "END"
  | .label => "LABEL"
  | .jump => "JUMP"
  | .call => "CALL"
  | .comeBack => "RETURN"
  | .breakpoint => "BREAK"

/-- All reserved words. -/
def all : List Keyword :=
  [.tempo, .rest, .repeatOpen, .repeatClose, .label, .jump, .call, .comeBack, .breakpoint]

/-- The reserved word that `word` spells, in any mixture of ASCII cases. -/
def ofWord? (word : String) : Option Keyword :=
  all.find? fun keyword => keyword.spelling.toList == Ascii.upper word.toList

end Keyword

end Chiptune
