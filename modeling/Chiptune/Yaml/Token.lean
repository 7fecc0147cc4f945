import Chiptune.Yaml.Cursor

/-! Tokens of a YAML text: indicators, names and scalars. The structure that indentation gives to a
text is made explicit by tokens that start and end block collections.
-/

namespace Chiptune.Yaml

/-- How a scalar is written. -/
inductive Style where
  | plain
  | singleQuoted
  | doubleQuoted
  | literal
  | folded
deriving DecidableEq

/-- The smallest units of a text. -/
inductive Token where
  | version (major minor : Nat)
  /-- Tags with this handle stand for tags that begin with `replacement`. -/
  | tagHandle (handle replacement : List Char)
  | documentStart
  | documentEnd
  | blockSequence
  | blockMapping
  /-- The innermost block collection ends. -/
  | blockEnd
  | flowSequence
  | flowSequenceEnd
  | flowMapping
  | flowMappingEnd
  /-- The dash in front of an item of a block sequence. -/
  | item
  /-- The comma between entries within brackets or braces. -/
  | comma
  /-- A key follows. -/
  | key
  /-- The value of a key follows. -/
  | value
  | alias (name : List Char)
  | anchor (name : List Char)
  | tag (handle suffix : List Char)
  | scalar (style : Style) (text : List Char)
  | textEnd
deriving DecidableEq

end Chiptune.Yaml
