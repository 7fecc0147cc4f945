import Chiptune.Text.Hex
import Chiptune.Yaml.Cursor

/-! Quoted scalars. Between single quotes only a doubled quote is special; between double quotes a
backslash begins an escape. Line ends are folded in both.
-/

namespace Chiptune.Yaml.Quoted

/-- The escapes of one character. -/
def escapes : List (Char × Char) :=
  [ ('0', '\x00'), ('a', '\x07'), ('b', '\x08'), ('t', '\t'), ('\t', '\t'), ('n', '\n'),
    ('v', '\x0b'), ('f', '\x0c'), ('r', '\r'), ('e', '\x1b'), (' ', ' '), ('\x22', '\x22'),
    ('/', '/'), ('\\', '\\'), ('N', '\u0085'), ('_', '\u00a0'), ('L', '\u2028'),
    ('P', '\u2029') ]

/-- The number of hexadecimal digits after the letter of an escape by code point. -/
def hexWidth? : Char → Option Nat
  | 'x' => some 2
  | 'u' => some 4
  | 'U' => some 8
  | _ => none

/-- The character with a code point. -/
def character? (point : Nat) : Option Char :=
  if point.isValidChar then some (Char.ofNat point) else none

/-- The character that an escape stands for, and how much of the text after the backslash belongs to
the escape.
-/
def escape? : List Char → Option (Char × Nat)
  | [] => none
  | letter :: rest =>
    match escapes.lookup letter, hexWidth? letter with
    | some character, _ => some (character, 1)
    | none, some width =>
      if (rest.take width).length < width then none
      else ((Hex.value? (rest.take width)).bind character?).map (·, 1 + width)
    | none, none => none

/-- A part of a scalar, the place after it, and whether it ends with an escaped end of line. -/
structure Run where
  text : List Char
  cursor : Cursor
  joinsLines : Bool

/-- The part with a character in front. -/
def Run.cons (character : Char) (run : Run) : Run :=
  { run with text := character :: run.text }

/-- The characters between single quotes up to a blank, a line end or the closing quote. -/
def singleRun (cursor : Cursor) : (fuel : Nat) → Run
  | 0 => ⟨[], cursor, false⟩
  | fuel + 1 =>
    match cursor.rest with
    | [] => ⟨[], cursor, false⟩
    | '\x27' :: '\x27' :: _ => (singleRun (cursor.advanceBy 2) fuel).cons '\x27'
    | character :: _ =>
      if isGap character || character = '\x27' then ⟨[], cursor, false⟩
      else (singleRun cursor.advance fuel).cons character

/-- The characters between double quotes up to a blank, a line end or the closing quote; none for an
unknown escape.
-/
def doubleRun? (cursor : Cursor) : (fuel : Nat) → Option Run
  | 0 => none
  | fuel + 1 =>
    match cursor.rest with
    | [] => some ⟨[], cursor, false⟩
    | '\\' :: rest =>
      if cursor.advance.isAtBreak then some ⟨[], cursor.advance.lineEnd.2, true⟩
      else
        match escape? rest with
        | none => none
        | some (character, width) =>
          (doubleRun? (cursor.advanceBy (1 + width)) fuel).map (·.cons character)
    | character :: _ =>
      if isGap character || character = '\x22' then some ⟨[], cursor, false⟩
      else (doubleRun? cursor.advance fuel).map (·.cons character)

/-- The part that begins here between quotes of a kind. -/
def run? (quote : Char) (cursor : Cursor) : Option Run :=
  let fuel := cursor.rest.length + 1
  if quote = '\x27' then some (singleRun cursor fuel) else doubleRun? cursor fuel

/-- Scans on after `text`, up to the closing quote. -/
def scanFrom (quote : Char) (text : List Char) (cursor : Cursor)
    : (fuel : Nat) → Option (List Char × Cursor)
  | 0 => none
  | fuel + 1 => do
    if cursor.isAtAnyMark || cursor.rest.isEmpty then none
    else
      let run ← run? quote cursor
      if run.cursor.isAt quote then return (text ++ run.text, run.cursor.advance)
      else
        let (gap, afterGap) := run.cursor.takeWhile isGap
        let joint := if run.joinsLines then lineEnds gap else fold gap
        scanFrom quote (text ++ run.text ++ joint) afterGap fuel

/-- The quoted scalar that begins here with a quote, and the place after it. -/
def scan? (quote : Char) (cursor : Cursor) : Option (List Char × Cursor) :=
  scanFrom quote [] cursor.advance (cursor.rest.length + 1)

end Chiptune.Yaml.Quoted
