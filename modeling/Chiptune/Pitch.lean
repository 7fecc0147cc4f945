import Chiptune.Arithmetic
import Chiptune.Text.Ascii

/-! Pitches and their names. A name is a letter, an optional sharp or flat and an octave; its
frequency comes from a table of the fourth octave, doubled or halved once per octave.
-/

namespace Chiptune.Pitch

open IntegerType (i32 u32)

/-- Frequencies of the fourth octave in hertz, from C to B. -/
def octaveFour : List Nat :=
  [261, 277, 294, 311, 329, 349, 370, 392, 415, 440, 466, 494]

/-- Names of the twelve semitones, from C to B. -/
def semitoneNames : List String :=
  ["C", "C#", "D", "D#", "E", "F", "F#", "G", "G#", "A", "A#", "B"]

/-- The highest octave that a name can use. -/
def maxOctave : Nat := 9

/-- The frequency of a semitone in an octave: doubled for each octave above the fourth, halved
and rounded to the nearest hertz, halves up, for each octave below it.
-/
def frequency (semitone octave : Int) : Except Trap UInt32 := do
  let base ← Trap.entry octaveFour semitone
  if 4 ≤ octave then
    let hertz ← u32.shiftLeft base (← i32.sub octave 4)
    return UInt32.ofNat hertz.toNat
  else
    let halvings ← i32.sub 4 octave
    let half ← u32.shiftLeft 1 (← i32.sub halvings 1)
    let hertz ← u32.shiftRight (← u32.add base half) halvings
    return UInt32.ofNat hertz.toNat

/-- The semitone of a note letter, in either case. -/
def letterSemitone? (letter : Char) : Option Nat :=
  match letter.toUpper with
  | 'C' => some 0
  | 'D' => some 2
  | 'E' => some 4
  | 'F' => some 5
  | 'G' => some 7
  | 'A' => some 9
  | 'B' => some 11
  | _ => none

/-- Whether a word begins like the name of a pitch. -/
def looksLikeName (word : String) : Bool :=
  match word.toList with
  | [] => false
  | letter :: _ => (letterSemitone? letter).isSome

/-- The mark between the letter and the octave of a name. -/
inductive Accidental where
  | natural
  | sharp
  | flat
deriving DecidableEq

/-- Semitones by which an accidental moves its letter. -/
def Accidental.shift : Accidental → Int
  | .natural => 0
  | .sharp => 1
  | .flat => -1

/-- A name taken apart: the semitone of its letter, its accidental and the octave as written. -/
structure Spelling where
  letter : Nat
  accidental : Accidental
  octave : Nat
deriving DecidableEq

namespace Spelling

/-- The accidental after the letter of a name, and the characters after that. -/
def accidentalOf : List Char → Accidental × List Char
  | '#' :: rest => (.sharp, rest)
  | 'b' :: rest => (.flat, rest)
  | rest => (.natural, rest)

/-- The value that an octave stays below, as it is written: it is a signed number of 32 bits. -/
def octaveBound : Nat := 0x80000000

/-- The parts of a name; an octave is one or more digits. -/
def ofWord? (word : String) : Option Spelling :=
  match word.toList with
  | [] => none
  | letter :: rest =>
    match letterSemitone? letter with
    | none => none
    | some semitone =>
      let (accidental, digits) := accidentalOf rest
      (Ascii.number? octaveBound digits).map fun octave => ⟨semitone, accidental, octave⟩

/-- The semitone that a name means, and its octave: B sharp is the C above and C flat the B
below, so each of them changes the octave.
-/
def place (spelling : Spelling) : Except Trap (Int × Int) := do
  let semitone ← i32.add spelling.letter spelling.accidental.shift
  if semitone < 0 then return (← i32.add semitone 12, ← i32.sub spelling.octave 1)
  else if 11 < semitone then return (← i32.sub semitone 12, ← i32.add spelling.octave 1)
  else return (semitone, spelling.octave)

/-- The frequency that a name means, if its octave is one of the ten of the table. The octave is
compared with these only after the accidental has changed it.
-/
def frequency? (spelling : Spelling) : Except Trap (Option UInt32) := do
  let (semitone, octave) ← spelling.place
  if 0 ≤ octave ∧ octave ≤ maxOctave then return some (← frequency semitone octave)
  else return none

end Spelling

/-- The frequency that `word` names. -/
def parse? (word : String) : Except Trap (Option UInt32) :=
  match Spelling.ofWord? word with
  | none => .ok none
  | some spelling => spelling.frequency?

/-- The name of a frequency of the table, the lowest octave first and sharps before flats. -/
def name? (hertz : UInt32) : Option String :=
  (List.range (maxOctave + 1)).findSome? fun (octave : Nat) =>
    let named := (List.range 12).find? fun (semitone : Nat) =>
      (frequency semitone octave).toOption == some hertz
    named.map fun semitone => semitoneNames.getD semitone "" ++ toString octave

end Chiptune.Pitch
