/-! Places in a YAML text, and the classes of characters that its rules speak of. -/

namespace Chiptune.Yaml

/-- The characters that a text may hold at all. -/
def isAllowed (character : Char) : Bool :=
  let point := character.toNat
  point = 0x09 || point = 0x0a || point = 0x0d || (0x20 ≤ point && point ≤ 0x7e)
    || point = 0x85 || (0xa0 ≤ point && point ≤ 0xd7ff)
    || (0xe000 ≤ point && point ≤ 0xfffd) || 0x10000 ≤ point

/-- The characters that end a line. A carriage return and a line feed after it are one end. -/
def isBreak (character : Char) : Bool :=
  character = '\n' || character = '\r' || character = '\u0085' || character = '\u2028'
    || character = '\u2029'

/-- The characters that separate words of a line. -/
def isBlank (character : Char) : Bool :=
  character = ' ' || character = '\t'

/-- The characters that separate words. -/
def isGap (character : Char) : Bool :=
  isBlank character || isBreak character

/-- The characters of names. -/
def isName (character : Char) : Bool :=
  character.isAlphanum || character = '_' || character = '-'

/-- The characters that end an unquoted word within brackets or braces. -/
def isFlowIndicator (character : Char) : Bool :=
  character = ',' || character = '[' || character = ']' || character = '\x7b'
    || character = '\x7d'

/-- Whether a word that stands before this text ends there. -/
def endsWord (text : List Char) : Bool :=
  text.head?.all isGap

/-- A place in a text: what follows it, and how many characters, lines, and characters of its line
stand before it.
-/
structure Cursor where
  rest : List Char
  index : Nat := 0
  line : Nat := 0
  column : Nat := 0

namespace Cursor

/-- The place after one more character. -/
def advance (cursor : Cursor) : Cursor :=
  match cursor.rest with
  | [] => cursor
  | character :: rest =>
    if isBreak character && !(character = '\r' && rest.head? = some '\n') then
      ⟨rest, cursor.index + 1, cursor.line + 1, 0⟩
    else ⟨rest, cursor.index + 1, cursor.line, cursor.column + 1⟩

/-- The place after `count` more characters. -/
def advanceBy (cursor : Cursor) : (count : Nat) → Cursor
  | 0 => cursor
  | count + 1 => cursor.advance.advanceBy count

/-- The characters of a class from here on, and the place after them. -/
def takeWhile (cursor : Cursor) (accepts : Char → Bool) : List Char × Cursor :=
  let taken := cursor.rest.takeWhile accepts
  (taken, cursor.advanceBy taken.length)

/-- The place after all characters of a class. -/
def skipWhile (cursor : Cursor) (accepts : Char → Bool) : Cursor :=
  (cursor.takeWhile accepts).2

/-- Whether a character stands here. -/
def isAt (cursor : Cursor) (character : Char) : Bool :=
  cursor.rest.head? = some character

/-- Whether a line ends here. -/
def isAtBreak (cursor : Cursor) : Bool :=
  cursor.rest.head?.any isBreak

/-- The character that the end of a line stands for: most ends stand for a line feed. -/
def breakText (character : Char) : Char :=
  if character = '\u2028' || character = '\u2029' then character else '\n'

/-- The end of a line here, as the text that it stands for, and the place after it. -/
def lineEnd (cursor : Cursor) : List Char × Cursor :=
  match cursor.rest with
  | '\r' :: '\n' :: _ => (['\n'], cursor.advanceBy 2)
  | character :: _ =>
    if isBreak character then ([breakText character], cursor.advance) else ([], cursor)
  | [] => ([], cursor)

/-- Whether the line that begins here is a mark between documents. -/
def isAtMark (cursor : Cursor) (mark : List Char) : Bool :=
  cursor.column = 0 && mark.isPrefixOf cursor.rest && endsWord (cursor.rest.drop mark.length)

/-- The line that begins a document. -/
def startMark : List Char := "---".toList

/-- The line that ends a document. -/
def endMark : List Char := "...".toList

/-- Whether a mark between documents stands here. -/
def isAtAnyMark (cursor : Cursor) : Bool :=
  cursor.isAtMark startMark || cursor.isAtMark endMark

end Cursor

/-- The ends of lines in a run of blanks and line ends, each as the text it stands for. -/
def lineEnds : List Char → List Char
  | [] => []
  | '\r' :: '\n' :: rest => '\n' :: lineEnds rest
  | character :: rest =>
    if isBreak character then Cursor.breakText character :: lineEnds rest else lineEnds rest

/-- What a run of blanks and line ends within a scalar stands for: blanks within a line stand for
themselves, a single line feed for a space, and more of them for all but the first.
-/
def fold (gap : List Char) : List Char :=
  match lineEnds gap with
  | [] => gap
  | ['\n'] => [' ']
  | '\n' :: more => more
  | ends => ends

end Chiptune.Yaml
