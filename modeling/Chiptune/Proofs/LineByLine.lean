import Chiptune.Proofs.Text.AsciiText
import Chiptune.Token.Scan

/-! A second way to the tokens of a song: its lines are looked at one after another. A line ends
where its first comment starts, its words are the runs of graphic bytes that are left, and the place
of each token is counted in the text.
-/

namespace Chiptune

open Ascii

/-- The place of the byte at `offset` of a text. Its line is counted by the breaks before it, and
its column by the bytes since the last one of them.
-/
def Position.inText (source : List UInt8) (offset : Nat) : Position :=
  let before := source.take offset
  ⟨offset, 1 + before.count newline, 1 + (before.reverse.takeWhile (· != newline)).length⟩

namespace LineByLine

/-- A byte as a capital letter, if it is a small one. -/
def upperByte (byte : UInt8) : UInt8 :=
  if 0x61 ≤ byte ∧ byte ≤ 0x7a then byte - 0x20 else byte

def isDigitByte (byte : UInt8) : Bool :=
  0x30 ≤ byte && byte ≤ 0x39

/-- The number that bytes of digits stand for. -/
def decimal (digits : List UInt8) : Nat :=
  digits.foldl (fun value digit => 10 * value + (digit.toNat - 0x30)) 0

/-- What the bytes of a word are: a reserved word in any case, a number that fits in 32 bits, or
else their own text.
-/
def kindOf (word : List UInt8) : TokenKind :=
  match Keyword.all.find? fun keyword =>
      encode keyword.spelling.toList == word.map upperByte with
  | some keyword => .keyword keyword
  | none =>
    if word.all isDigitByte && decimal word < UInt32.size then .number (UInt32.ofNat (decimal word))
    else .word (text word)

/-- The lines of bytes that are listed with their offsets, without the breaks. -/
def lines (bytes : List (UInt8 × Nat)) : List (List (UInt8 × Nat)) :=
  bytes.splitOnP (·.1 == newline)

/-- The bytes of a line before its first two slashes in a row, or all of them. -/
def live : List (UInt8 × Nat) → List (UInt8 × Nat)
  | [] => []
  | byte :: rest =>
    if [slash, slash] <+: (byte :: rest).map Prod.fst then [] else byte :: live rest

/-- The longest runs of graphic bytes, with an empty one between separators in a row. -/
def runs (bytes : List (UInt8 × Nat)) : List (List (UInt8 × Nat)) :=
  bytes.splitOnP (!isGraphic ·.1)

/-- Whether a byte can stand neither in a word nor between words. -/
def isStray (byte : UInt8 × Nat) : Bool :=
  !(isBlank byte.1 || isGraphic byte.1)

section Tokens

variable (source : List UInt8)

/-- The token of a run of bytes of `source`; none if the run is empty. -/
def word? (run : List (UInt8 × Nat)) : Option Token :=
  run.head?.map fun first => ⟨kindOf (run.map Prod.fst), .inText source first.2⟩

def lineTokens (line : List (UInt8 × Nat)) : List Token :=
  (runs (live line)).filterMap (word? source)

/-- The tokens at the ends of lines: one for each break, and one for the end of `source`. -/
def endings (bytes : List (UInt8 × Nat)) : List Token :=
  (bytes.filter (·.1 == newline)).map (fun byte => ⟨.newline, .inText source byte.2⟩)
    ++ [⟨.endOfInput, .inText source source.length⟩]

/-- Line by line the tokens of words, and the one at the end of the line. -/
def tokens (bytes : List (UInt8 × Nat)) : List Token :=
  (List.zipWith (fun line ending => lineTokens source line ++ [ending]) (lines bytes)
    (endings source bytes)).flatten

/-- An error at the first stray one of `bytes`, or `found` if there is none. -/
def unlessStray (bytes : List (UInt8 × Nat)) (found : Except CompileError (List Token))
    : Except CompileError (List Token) :=
  match bytes.find? isStray with
  | some (byte, offset) => .error ⟨.strayByte byte, .inText source offset⟩
  | none => found

def scanned (bytes : List (UInt8 × Nat)) : Except CompileError (List Token) :=
  unlessStray source ((lines bytes).flatMap live) (.ok (tokens source bytes))

end Tokens

/-- A text scanned line by line. -/
def scan (source : List UInt8) : Except CompileError (List Token) :=
  scanned source source.zipIdx

end LineByLine

end Chiptune
