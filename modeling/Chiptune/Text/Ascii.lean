/-! The byte and character classes of song notation, all of them within ASCII: blanks separate
words, words consist of graphic bytes, and a run of digits stands for a number.
-/

namespace Chiptune.Ascii

/-- The byte that ends a line. -/
def newline : UInt8 := 0x0a

/-- The byte that starts a comment when it stands twice. -/
def slash : UInt8 := 0x2f

/-- Space, tab and carriage return separate words and mean nothing else. -/
def isBlank (byte : UInt8) : Bool :=
  byte == 0x20 || byte == 0x09 || byte == 0x0d

/-- The printable bytes other than space. -/
def isGraphic (byte : UInt8) : Bool :=
  0x21 ≤ byte && byte ≤ 0x7e

/-- The text of a run of ASCII bytes. -/
def text (bytes : List UInt8) : String :=
  String.ofList (bytes.map fun byte => Char.ofNat byte.toNat)

/-- The characters of a word with `a` to `z` raised to `A` to `Z`; no other character changes. -/
def upper (word : List Char) : List Char :=
  word.map Char.toUpper

/-- A number needs at least one digit, and nothing but digits. -/
def isDigits (word : List Char) : Bool :=
  !word.isEmpty && word.all Char.isDigit

/-- The number that a run of digits stands for. -/
def digitsValue (digits : List Char) : Nat :=
  Nat.ofDigitChars 10 digits 0

/-- The number below `bound` that a word of digits stands for; `none` for any other word. -/
def number? (bound : Nat) (word : List Char) : Option Nat :=
  if isDigits word && digitsValue word < bound then some (digitsValue word) else none

/-- A number is read from digits alone and stays below its bound. -/
theorem number?_eq_some_iff {bound : Nat} {word : List Char} {value : Nat}
    : number? bound word = some value
      ↔ isDigits word ∧ digitsValue word = value ∧ value < bound := by
  unfold number?
  by_cases digits : isDigits word <;> by_cases small : digitsValue word < bound <;>
    simp [digits, small] <;> grind

end Chiptune.Ascii
