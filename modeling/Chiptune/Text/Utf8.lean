/-! UTF-8 text, read strictly or with replacement characters. A byte sequence that is not UTF-8
is divided into maximal parts: each bad part is the longest start of some character, or one byte.
-/

namespace Chiptune.Utf8

/-- The number of bytes after a character's first byte, and the least and greatest value of the
second one; `none` for a byte that starts no character of several bytes. The narrower second
bytes leave out overlong forms, surrogates and values past the last character.
-/
def lead? (byte : UInt8) : Option (Nat × UInt8 × UInt8) :=
  if 0xc2 ≤ byte && byte ≤ 0xdf then some (1, 0x80, 0xbf)
  else if byte = 0xe0 then some (2, 0xa0, 0xbf)
  else if byte = 0xed then some (2, 0x80, 0x9f)
  else if 0xe1 ≤ byte && byte ≤ 0xef then some (2, 0x80, 0xbf)
  else if byte = 0xf0 then some (3, 0x90, 0xbf)
  else if 0xf1 ≤ byte && byte ≤ 0xf3 then some (3, 0x80, 0xbf)
  else if byte = 0xf4 then some (3, 0x80, 0x8f)
  else none

/-- The bits that a character's first byte contributes when `count` bytes follow it. -/
def leadBits (byte : UInt8) (count : Nat) : Nat :=
  byte.toNat % (1 <<< (6 - count))

/-- The tail bytes at the front of `bytes` that continue a character with `count` more bytes. -/
def tails (count : Nat) (least greatest : UInt8) (bytes : List UInt8) : List UInt8 :=
  match count, bytes with
  | 0, _ => []
  | _, [] => []
  | count + 1, byte :: rest =>
    if least ≤ byte && byte ≤ greatest then byte :: tails count 0x80 0xbf rest else []

/-- The code point of a character with the given leading bits and tail bytes. -/
def codePoint (bits : Nat) (tail : List UInt8) : Nat :=
  tail.foldl (fun value byte => value * 64 + byte.toNat % 64) bits

/-- The first part of `byte :: rest`: its character, or `none` where it is not UTF-8, and the
number of bytes of `rest` that belong to it.
-/
def part (byte : UInt8) (rest : List UInt8) : Option Char × Nat :=
  if byte < 0x80 then (some (Char.ofNat byte.toNat), 0)
  else
    match lead? byte with
    | none => (none, 0)
    | some (count, least, greatest) =>
      let tail := tails count least greatest rest
      if tail.length = count then
        (some (Char.ofNat (codePoint (leadBits byte count) tail)), count)
      else (none, tail.length)

/-- The parts of a byte sequence in order, after leaving out the first `skipped` bytes. -/
def parts (skipped : Nat) : List UInt8 → List (Option Char)
  | [] => []
  | byte :: rest =>
    match skipped with
    | skipped + 1 => parts skipped rest
    | 0 => (part byte rest).1 :: parts (part byte rest).2 rest

/-- What is shown for bytes that are not UTF-8. -/
def replacement : Char := '\uFFFD'

/-- The text of a byte sequence, with one replacement character for each bad part. -/
def decodeLossy (bytes : List UInt8) : List Char :=
  (parts 0 bytes).map fun character => character.getD replacement

/-- The text of a byte sequence that is UTF-8 throughout. -/
def decode? (bytes : List UInt8) : Option (List Char) :=
  (parts 0 bytes).mapM id

end Chiptune.Utf8
