import Chiptune.Arithmetic
import Chiptune.Text.Ascii

/-! Lengths of notes and rests. A length is a number of milliseconds, or a number of ticks that
lasts longer the slower the tempo is.
-/

namespace Chiptune

/-- Ticks in a quarter note. -/
def ticksPerBeat : Nat := 960

/-- Ticks in a whole note. -/
def ticksPerWhole : Nat := 4 * ticksPerBeat

/-- How long a note or rest lasts. -/
inductive Length where
  /-- Milliseconds, whatever the tempo. -/
  | millis (count : UInt32)
  /-- Ticks, `ticksPerBeat` of them to a beat. -/
  | ticks (count : UInt32)
deriving DecidableEq

namespace Length

open IntegerType (u32 u64)

/-- The whole milliseconds nearest to `ticks` ticks at `beats` beats per minute, halves up. -/
def roundedMillis (ticks beats : Nat) : Nat :=
  let beatTicks := ticksPerBeat * beats
  (ticks * 60000 + beatTicks / 2) / beatTicks

/-- The duration of a length in milliseconds at a tempo. Ticks have none at tempo zero, nor where
the duration does not fit in 32 bits.
-/
def toMillis? (length : Length) (tempo : UInt32) : Option UInt32 :=
  match length with
  | .millis count => some count
  | .ticks count =>
    if tempo = 0 then none
    else
      let millis := roundedMillis count.toNat tempo.toNat
      if millis < UInt32.size then some (UInt32.ofNat millis) else none

/-- The letters for fractions of a whole note, and their ticks. -/
def letters : List (Char × Nat) :=
  [ ('W', ticksPerWhole), ('H', ticksPerWhole / 2), ('Q', ticksPerWhole / 4),
    ('E', ticksPerWhole / 8), ('S', ticksPerWhole / 16), ('T', ticksPerWhole / 32) ]

/-- The ticks of a letter with a dot after it. -/
def dotted (ticks : Nat) : Nat :=
  ticks + ticks / 2

/-- A word without the given end. -/
def dropEnd? (ending word : List Char) : Option (List Char) :=
  if ending.isSuffixOf word then some (word.take (word.length - ending.length)) else none

/-- The length of a letter with a dot after it. -/
def lengthen (whole : Nat) : Except Trap Length := do
  let longer ← u32.add whole (← u32.div whole 2)
  return .ticks (UInt32.ofNat longer.toNat)

/-- The ticks of one of `parts` equal parts of `scaled` ticks, if they are whole and few enough. -/
def quotient? (scaled parts : Int) : Except Trap (Option Length) := do
  let left ← u64.rem scaled parts
  if left ≠ 0 then return none
  else
    let whole ← u64.div scaled parts
    return if u32.Holds whole then some (.ticks (UInt32.ofNat whole.toNat)) else none

/-- The ticks of the fraction `numerator / denominator` of a whole note, both written in digits.
The parts and the scaled numerator fit in 64 bits, and the ticks are whole and fit in 32.
-/
def parseFraction? (numerator denominator : List Char) : Except Trap (Option Length) :=
  match Ascii.number? UInt64.size numerator, Ascii.number? UInt64.size denominator with
  | some count, some parts =>
    if parts = 0 then .ok none
    else
      match (u64.mul count ticksPerWhole).toOption with
      | none => .ok none
      | some scaled => quotient? scaled parts
  | _, _ => .ok none

/-- The ticks of one of the six letters. -/
def parseLetter? : List Char → Option Nat
  | [letter] => letters.lookup letter
  | _ => none

/-- The length that a word stands for: `250ms`, a fraction such as `3/8`, or a letter with or
without a dot. Case does not matter.
-/
def parse? (word : String) : Except Trap (Option Length) :=
  let upper := Ascii.upper word.toList
  match dropEnd? ['M', 'S'] upper with
  | some digits =>
    .ok ((Ascii.number? UInt32.size digits).map fun count => .millis (UInt32.ofNat count))
  | none =>
    match upper.dropWhile (· != '/') with
    | _ :: denominator => parseFraction? (upper.takeWhile (· != '/')) denominator
    | [] =>
      match dropEnd? ['.'] upper with
      | some letter =>
        match parseLetter? letter with
        | none => .ok none
        | some whole => (lengthen whole).map some
      | none => .ok ((parseLetter? upper).map fun ticks => .ticks (UInt32.ofNat ticks))

/-- The letter, with or without a dot, for a number of ticks. -/
def letterName? (ticks : Nat) : Option String :=
  letters.findSome? fun (letter, whole) =>
    if ticks = whole then some (String.singleton letter)
    else if ticks = dotted whole then some (String.ofList [letter, '.'])
    else none

/-- The shortest word for a length: a letter where there is one, else a fraction in lowest terms,
or the milliseconds.
-/
def name : Length → String
  | .millis count => toString count ++ "ms"
  | .ticks count =>
    match letterName? count.toNat with
    | some word => word
    | none =>
      let divisor := count.toNat.gcd ticksPerWhole
      toString (count.toNat / divisor) ++ "/" ++ toString (ticksPerWhole / divisor)

/-- How a listing shows a length. -/
def describe : Length → String
  | .millis count => toString count ++ "ms"
  | .ticks count => toString count ++ "t"

end Length

end Chiptune
