import Chiptune.Text.Hex
import Chiptune.Yaml.Cursor

/-! The written form of a text as the value of a key. It is plain if it can be, in single quotes if
some reader might take it for something else, a literal block if it has several lines, and in
double quotes if nothing else can hold it.
-/

namespace Chiptune.Yaml.Print

/-- The words that some readers take for truth values or for nothing. -/
def reservedWords : List String :=
  ["true", "false", "null", "~", "y", "yes", "n", "no", "on", "off"]

/-- Whether some reader might take a text for something else, such as a number. -/
def isAmbiguous (text : List Char) : Bool :=
  let lower := String.ofList (text.map Char.toLower)
  reservedWords.contains lower
    || text.head?.all fun c => c.isDigit || c = '-' || c = '.' || c = '+'

/-- The characters that can be written without an escape. -/
def isPrintable (character : Char) : Bool :=
  let point := character.toNat
  point = 0x0a || (0x20 ≤ point && point ≤ 0x7e) || (0xa0 ≤ point && point ≤ 0xd7ff)
    || (0xe000 ≤ point && point ≤ 0xfffd && point ≠ 0xfeff)

/-- Whether a character of one class stands directly before one of another. -/
def hasPair (first second : Char → Bool) (text : List Char) : Bool :=
  (text.zip text.tail).any fun (a, b) => first a && second b

/-- The characters that begin no plain text. -/
def firstIndicators : List Char :=
  "#,[]\x7b\x7d&*!|>\x27\x22%@\x60".toList

/-- Whether a text begins with an indicator. -/
def startsIndicator : List Char → Bool
  | [] => false
  | character :: rest =>
    firstIndicators.contains character
      || (endsWord rest && (character = '?' || character = ':' || character = '-'))

/-- Whether a colon ends a word of a text, or a number sign begins one. -/
def hasInnerIndicator : List Char → Bool
  | [] => false
  | character :: rest =>
    (isGap character && rest.head? = some '#')
      || (rest.head? = some ':' && endsWord (rest.drop 1))
      || hasInnerIndicator rest

/-- Whether a text can be written in quotes or as a block, without escapes. -/
def isUnescaped (text : List Char) : Bool :=
  text.all isPrintable && !hasPair (· = ' ') isBreak text

/-- Whether a text can be written in single quotes. -/
def allowsSingle (text : List Char) : Bool :=
  isUnescaped text && !hasPair isBreak (· = ' ') text

/-- Whether a text can be written without quotes. -/
def allowsPlain (text : List Char) : Bool :=
  allowsSingle text && !text.any isBreak && text.head? ≠ some ' ' && text.getLast? ≠ some ' '
    && !startsIndicator text && !hasInnerIndicator text

/-- Whether a text can be written as a literal block. -/
def allowsLiteral (text : List Char) : Bool :=
  isUnescaped text && text.getLast? ≠ some ' '

/-- The blanks in front of every line after the first one. -/
def indent : List Char := [' ', ' ']

/-- A text with its lines indented, and its first line too if `isBroken`. Lines that hold nothing
are not indented.
-/
def indented (isBroken : Bool) : List Char → List Char
  | [] => []
  | character :: rest =>
    if isBreak character then character :: indented true rest
    else (if isBroken then indent else []) ++ character :: indented false rest

/-- A text between single quotes, in which each quote is doubled. -/
def single (text : List Char) : List Char :=
  let doubled := text.flatMap fun c => if c = '\x27' then [c, c] else [c]
  let lastLine := if text.getLast?.any isBreak then indent else []
  '\x27' :: indented false doubled ++ lastLine ++ ['\x27']

/-- The escapes of one letter. -/
def letters : List (Char × Char) :=
  [ ('\x00', '0'), ('\x07', 'a'), ('\x08', 'b'), ('\t', 't'), ('\n', 'n'), ('\x0b', 'v'),
    ('\x0c', 'f'), ('\r', 'r'), ('\x1b', 'e'), ('\x22', '\x22'), ('\\', '\\'), ('\u0085', 'N'),
    ('\u00a0', '_'), ('\u2028', 'L'), ('\u2029', 'P') ]

/-- The escape of a character: a letter, or a letter and the digits of its code point. -/
def escape (character : Char) : List Char :=
  let point := character.toNat
  let digits (width : Nat) : List Char := (Hex.digits width point).map Char.toUpper
  match letters.lookup character with
  | some letter => ['\\', letter]
  | none =>
    if point < 0x100 then '\\' :: 'x' :: digits 2
    else if point < 0x10000 then '\\' :: 'u' :: digits 4
    else '\\' :: 'U' :: digits 8

/-- A text between double quotes. -/
def double (text : List Char) : List Char :=
  let write (character : Char) : List Char :=
    if isPrintable character && !isBreak character && character ≠ '\x22' && character ≠ '\\' then
      [character]
    else escape character
  '\x22' :: text.flatMap write ++ ['\x22']

/-- The sign for the line ends after the last line of a block. -/
def chomping (text : List Char) : List Char :=
  match text.reverse with
  | [] => ['-']
  | last :: before =>
    if !isBreak last then ['-'] else if before.head?.all isBreak then ['+'] else []

/-- A text as a literal block. Its indentation is given if it begins with a blank or a line end. -/
def literal (text : List Char) : List Char :=
  let width := if text.head?.any fun c => c = ' ' || isBreak c then ['2'] else []
  '|' :: width ++ chomping text ++ '\n' :: indented true text

/-- The written form of a text. A block ends with the line ends of its text. -/
def text (text : List Char) : List Char :=
  let isLong := text.contains '\n'
  if isLong && allowsLiteral text then literal text
  else if isLong then double text
  else if !isAmbiguous text && allowsPlain text then text
  else if allowsSingle text then single text
  else double text

/-- The line or lines of a key with a value in its written form. -/
def entry (key : String) (written : List Char) : String :=
  let lineEnd := if written.getLast?.any isBreak then "" else "\n"
  s!"{key}: {String.ofList written}{lineEnd}"

end Chiptune.Yaml.Print
