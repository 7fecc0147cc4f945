import Chiptune.Text.Hex
import Chiptune.Yaml.Token

/-! The tokens that begin with a mark: directives after a percent sign, tags after an exclamation
mark, and the names of anchors and aliases.
-/

namespace Chiptune.Yaml.Tag

/-- The characters of tags besides percent signs, and besides brackets and commas where those are
allowed.
-/
def isTagCharacter (allowsFlow : Bool) (character : Char) : Bool :=
  isName character || ";/?:@&=+$.!~*\x27()".toList.contains character
    || (allowsFlow && ",[]".toList.contains character)

/-- The byte that an escape at the front of a text stands for: a percent sign and two hexadecimal
digits.
-/
def escapedByte? : List Char → Option Nat
  | '%' :: high :: low :: _ => Hex.value? [high, low]
  | _ => none

/-- The number of bytes of a character with this first byte. -/
def byteCount? (first : Nat) : Option Nat :=
  if first < 0x80 then some 1
  else if first / 32 = 6 then some 2
  else if first / 16 = 14 then some 3
  else if first / 8 = 30 then some 4
  else none

/-- The later bytes of an escaped character, each with its own escape, put to the bits read. -/
def laterBytes? (bits : Nat) (text : List Char) : (count : Nat) → Option Nat
  | 0 => some bits
  | count + 1 => do
    let byte ← escapedByte? text
    if byte / 64 = 2 then laterBytes? (bits * 64 + byte % 64) (text.drop 3) count else none

/-- The character that the escapes at the front of a text stand for, and the number of escapes. -/
def escaped? (text : List Char) : Option (Char × Nat) := do
  let first ← escapedByte? text
  let count ← byteCount? first
  let lead := if count = 1 then first else first % (1 <<< (7 - count))
  let point ← laterBytes? lead (text.drop 3) (count - 1)
  return (Char.ofNat point, count)

/-- The characters of a tag from here on and the place after them; none for a bad escape. -/
def characters? (allowsFlow : Bool) (cursor : Cursor)
    : (fuel : Nat) → Option (List Char × Cursor)
  | 0 => none
  | fuel + 1 =>
    match cursor.rest with
    | [] => some ([], cursor)
    | character :: _ =>
      if character = '%' then do
        let (value, count) ← escaped? cursor.rest
        let (more, next) ← characters? allowsFlow (cursor.advanceBy (3 * count)) fuel
        return (value :: more, next)
      else if isTagCharacter allowsFlow character then do
        let (more, next) ← characters? allowsFlow cursor.advance fuel
        return (character :: more, next)
      else some ([], cursor)

/-- The characters of a tag after `start`; with `start` there has to be at least one. -/
def suffix? (allowsFlow : Bool) (start : List Char) (cursor : Cursor)
    : Option (List Char × Cursor) := do
  let (more, next) ← characters? allowsFlow cursor (cursor.rest.length + 1)
  if start.isEmpty && more.isEmpty then none else return (start.drop 1 ++ more, next)

/-- The handle that begins here: a name between exclamation marks, of which the second may be
missing.
-/
def handle? (cursor : Cursor) : Option (List Char × Cursor) :=
  if cursor.isAt '!' then
    let (name, next) := cursor.advance.takeWhile isName
    if next.isAt '!' then some ('!' :: name ++ ['!'], next.advance) else some ('!' :: name, next)
  else none

/-- Whether a handle is closed by a second exclamation mark. -/
def isClosed (handle : List Char) : Bool :=
  2 ≤ handle.length && handle.getLast? = some '!'

/-- The handle and the rest of the tag that begins here: a whole tag between angle brackets, a
closed handle and a suffix, or an exclamation mark and a suffix. The tag of an exclamation mark
alone has no handle.
-/
def parts? (cursor : Cursor) : Option (Token × Cursor) :=
  if cursor.advance.isAt '<' then do
    let (tag, next) ← suffix? true [] (cursor.advanceBy 2)
    if next.isAt '>' then return (.tag [] tag, next.advance) else none
  else do
    let (handle, next) ← handle? cursor
    if isClosed handle then
      let (suffix, afterSuffix) ← suffix? false [] next
      return (.tag handle suffix, afterSuffix)
    else
      let (suffix, afterSuffix) ← suffix? false handle next
      if suffix.isEmpty then return (.tag [] ['!'], afterSuffix)
      else return (.tag ['!'] suffix, afterSuffix)

/-- The tag that begins here, which ends a word; within brackets a comma may follow too. -/
def scan? (inFlow : Bool) (cursor : Cursor) : Option (Token × Cursor) := do
  let (tag, next) ← parts? cursor
  if endsWord next.rest || (inFlow && next.isAt ',') then return (tag, next) else none

/-- Whether a name may end before this text. -/
def endsName (text : List Char) : Bool :=
  text.head?.all fun character => isGap character || "?:,]\x7d%@\x60".toList.contains character

/-- The name after the mark that stands here. -/
def name? (cursor : Cursor) : Option (List Char × Cursor) :=
  let (name, next) := cursor.advance.takeWhile isName
  if name.isEmpty || !endsName next.rest then none else some (name, next)

/-- A number of a version, of at most nine digits. -/
def versionNumber? (cursor : Cursor) : Option (Nat × Cursor) :=
  let (digits, next) := cursor.takeWhile Char.isDigit
  if digits.isEmpty || 9 < digits.length then none else some (Nat.ofDigitChars 10 digits 0, next)

/-- The rest of a version directive. -/
def version? (cursor : Cursor) : Option (Token × Cursor) := do
  let (major, point) ← versionNumber? (cursor.skipWhile isBlank)
  if point.isAt '.' then
    let (minor, next) ← versionNumber? point.advance
    return (.version major minor, next)
  else none

/-- The rest of a directive for a handle, which is closed or an exclamation mark. -/
def tagHandle? (cursor : Cursor) : Option (Token × Cursor) := do
  let (handle, afterHandle) ← handle? (cursor.skipWhile isBlank)
  let isGood := isClosed handle || handle = ['!']
  if isGood && afterHandle.rest.head?.any isBlank then
    let (replacement, next) ← suffix? true [] (afterHandle.skipWhile isBlank)
    if endsWord next.rest then return (.tagHandle handle replacement, next) else none
  else none

/-- The place after the end of this line, on which nothing but a comment follows. -/
def afterLine? (cursor : Cursor) : Option Cursor :=
  let next := cursor.skipWhile isBlank
  let lineEnd := if next.isAt '#' then next.skipWhile (!isBreak ·) else next
  if lineEnd.rest.isEmpty || lineEnd.isAtBreak then some lineEnd.lineEnd.2 else none

/-- The directive that begins here with a percent sign. Only two of them are known. -/
def directive? (cursor : Cursor) : Option (Token × Cursor) := do
  let (name, afterName) := cursor.advance.takeWhile isName
  let (token, next) ←
    if !endsWord afterName.rest then none
    else if name = "YAML".toList then version? afterName
    else if name = "TAG".toList then tagHandle? afterName
    else none
  return (token, ← afterLine? next)

end Chiptune.Yaml.Tag
