import Chiptune.Yaml.Cursor

/-! Block scalars: the lines after `|` or `>` that are indented. A literal block keeps its line
ends; in a folded one a single line end between two lines that start with no blank stands for a
space.
-/

namespace Chiptune.Yaml.Block

/-- What happens to the line ends after the last line. -/
inductive Chomping where
  /-- All are dropped. -/
  | strip
  /-- The first is kept. -/
  | clip
  /-- All are kept. -/
  | keep
deriving DecidableEq

/-- The sign for a chomping that stands here, and the place after it. -/
def chomping? (cursor : Cursor) : Option Chomping × Cursor :=
  if cursor.isAt '+' then (some .keep, cursor.advance)
  else if cursor.isAt '-' then (some .strip, cursor.advance)
  else (none, cursor)

/-- The digit for an indentation that stands here, and the place after it. -/
def increment? (cursor : Cursor) : Option Nat × Cursor :=
  match cursor.rest.head? with
  | some digit =>
    if digit.isDigit then (some (digit.toNat - 0x30), cursor.advance) else (none, cursor)
  | none => (none, cursor)

/-- How a block is to be read: its chomping, and its indentation where that is given. -/
structure Header where
  chomping : Chomping
  increment : Option Nat

/-- The header that stands here, to the end of its line, and the place after that. The sign and the
digit may stand in either order; an indentation of zero is none.
-/
def header? (cursor : Cursor) : Option (Header × Cursor) :=
  let (before, afterSign) := chomping? cursor
  let (increment, afterDigit) := increment? afterSign
  let (after, afterBoth) :=
    if before.isNone && increment.isSome then chomping? afterDigit else (none, afterDigit)
  let afterBlanks := afterBoth.skipWhile isBlank
  let lineEnd :=
    if afterBlanks.isAt '#' then afterBlanks.skipWhile (!isBreak ·) else afterBlanks
  let isEnded := lineEnd.rest.isEmpty || lineEnd.isAtBreak
  if increment = some 0 || !isEnded then none
  else some (⟨(before.or after).getD .clip, increment⟩, lineEnd.lineEnd.2)

/-- Empty lines, with the line ends they stand for, the widest indentation in them and of the line
after them, and the place where that line begins or its indentation is complete.
-/
structure EmptyLines where
  text : List Char
  widest : Nat
  cursor : Cursor

/-- The empty lines from here on. Lines are indented by `limit` blanks if it is given, and by any
number of them otherwise; none where a tab stands among these blanks.
-/
def emptyLines? (limit : Option Nat) (widest : Nat) (cursor : Cursor)
    : (fuel : Nat) → Option EmptyLines
  | 0 => none
  | fuel + 1 =>
    let spaces := (cursor.rest.takeWhile (· = ' ')).length
    let count := (limit.map fun indent => min spaces (indent - cursor.column)).getD spaces
    let place := cursor.advanceBy count
    let wider := max widest place.column
    if limit.all (place.column < ·) && place.isAt '\t' then none
    else if place.isAtBreak then
      let (lineEnd, next) := place.lineEnd
      (emptyLines? limit wider next fuel).map fun lines =>
        { lines with text := lineEnd ++ lines.text }
    else some ⟨[], wider, place⟩

/-- A block as far as it is scanned: its lines, the end of the last one, the empty lines after it,
and whether it starts with a blank.
-/
structure Body where
  text : List Char := []
  lineEnd : List Char := []
  empty : List Char
  startsBlank : Bool := false

/-- What stands between the last line and the next one. -/
def Body.joint (body : Body) (isFolded nextStartsBlank : Bool) : List Char :=
  if isFolded && body.lineEnd = ['\n'] && !body.startsBlank && !nextStartsBlank then
    if body.empty.isEmpty then [' '] else body.empty
  else body.lineEnd ++ body.empty

/-- The text of a complete block. -/
def Body.finish (body : Body) : Chomping → List Char
  | .strip => body.text
  | .clip => body.text ++ body.lineEnd
  | .keep => body.text ++ body.lineEnd ++ body.empty

/-- Scans on after a part of a block, as long as lines are indented by `indent`. -/
def bodyFrom (isFolded : Bool) (indent : Nat) (body : Body) (cursor : Cursor)
    : (fuel : Nat) → Option (Body × Cursor)
  | 0 => none
  | fuel + 1 => do
    if cursor.column = indent && !cursor.rest.isEmpty then
      let startsBlank := cursor.rest.head?.any isBlank
      let (line, afterLine) := cursor.takeWhile (!isBreak ·)
      let (lineEnd, next) := afterLine.lineEnd
      let empty ← emptyLines? (some indent) 0 next (next.rest.length + 1)
      let text := body.text ++ body.joint isFolded startsBlank ++ line
      bodyFrom isFolded indent ⟨text, lineEnd, empty.text, startsBlank⟩ empty.cursor fuel
    else return (body, cursor)

/-- The block scalar that begins here with `|` or `>`, and the place after it. Its lines are
indented more than the collection around it, the indentation of which is `outer`.
-/
def scan? (isFolded : Bool) (outer : Option Nat) (cursor : Cursor)
    : Option (List Char × Cursor) := do
  let (header, start) ← header? cursor.advance
  let given := header.increment.map (outer.getD 0 + ·)
  let empty ← emptyLines? given 0 start (start.rest.length + 1)
  let least := max ((outer.map (· + 1)).getD 0) 1
  let indent := given.getD (max empty.widest least)
  let (body, next) ←
    bodyFrom isFolded indent { empty := empty.text } empty.cursor (empty.cursor.rest.length + 1)
  return (body.finish header.chomping, next)

end Chiptune.Yaml.Block
